import GmMiner.Chutes.StreamRelease

/-!
One Chutes stream, in other pieces and among other plaintext.

What the lines of a stream come to does not depend on the pieces they come in
(`feedAll_eq_ok`). The bound of a line does: it is checked on what a piece leaves incomplete, so a
longer line passes when it comes whole and not when it is cut. What is released depends on the
sealed events alone (`relayAll_authenticated`).
-/

namespace GmMiner.Chutes

open GmMiner.Lib GmMiner.Json

/-! ### Lines of bytes -/

/-- The lines of two texts: those of the first, then those of what it left with
the second. -/
theorem drainLines_append (text more : Bytes) :
    drainLines (text ++ more) =
      ((drainLines text).1 ++ (drainLines ((drainLines text).2 ++ more)).1,
        (drainLines ((drainLines text).2 ++ more)).2) := by
  induction text with
  | nil => rfl
  | cons byte rest ih =>
      rw [List.cons_append]
      simp only [drainLines]
      rw [ih]
      by_cases isEnd : byte = 10
      · simp [isEnd]
      · cases (drainLines rest).1 with
        | nil => simp [isEnd, drainLines]
        | cons line later => simp [isEnd]

theorem drainLines_of_notMem {text : Bytes} (open_ : 10 ∉ text) : drainLines text = ([], text) := by
  induction text with
  | nil => rfl
  | cons byte rest ih =>
      rw [List.mem_cons, not_or] at open_
      simp [drainLines, ih open_.2, Ne.symm open_.1]

/-- What is left is no complete line. -/
theorem notMem_left (text : Bytes) : 10 ∉ (drainLines text).2 := by
  induction text with
  | nil => exact List.not_mem_nil
  | cons byte rest ih =>
      simp only [drainLines]
      by_cases isEnd : byte = 10
      · simpa [isEnd] using ih
      · cases (drainLines rest).1 with
        | nil => simpa [isEnd, Ne.symm isEnd] using ih
        | cons line later => simpa [isEnd] using ih

/-- The lines and what is left make up the text. -/
theorem drainLines_flatten (text : Bytes) :
    (drainLines text).1.flatten ++ (drainLines text).2 = text := by
  induction text with
  | nil => rfl
  | cons byte rest ih =>
      simp only [drainLines]
      by_cases isEnd : byte = 10
      · simpa [isEnd] using ih
      · cases split : (drainLines rest).1 with
        | nil => simpa [isEnd, split] using ih
        | cons line later => simpa [isEnd, split] using ih

/-- A line is complete with its line feed, and only with it. -/
theorem line_of_mem_drainLines {text line : Bytes} (mem : line ∈ (drainLines text).1) :
    ∃ body, line = body ++ [10] ∧ 10 ∉ body := by
  induction text generalizing line with
  | nil => cases mem
  | cons byte rest ih =>
      simp only [drainLines] at mem
      by_cases isEnd : byte = 10
      · simp only [isEnd, if_true, List.mem_cons] at mem
        rcases mem with rfl | mem
        · exact ⟨[], rfl, List.not_mem_nil⟩
        · exact ih mem
      · cases split : (drainLines rest).1 with
        | nil => simp [isEnd, split] at mem
        | cons first later =>
            simp only [isEnd, split, if_false, List.mem_cons] at mem
            rw [split] at ih
            rcases mem with rfl | mem
            · obtain ⟨body, rfl, open_⟩ := ih List.mem_cons_self
              exact ⟨byte :: body, rfl, by simp [open_, Ne.symm isEnd]⟩
            · exact ih (List.mem_cons_of_mem _ mem)

/-- A line ends at its line feed. -/
theorem drainLines_line {body : Bytes} (open_ : 10 ∉ body) (rest : Bytes) :
    drainLines (body ++ 10 :: rest) =
      ((body ++ [10]) :: (drainLines rest).1, (drainLines rest).2) := by
  induction body with
  | nil => simp [drainLines]
  | cons byte body ih =>
      rw [List.mem_cons, not_or] at open_
      rw [List.cons_append]
      simp [drainLines, ih open_.2, Ne.symm open_.1]

/-- Behind complete lines nothing is left. -/
theorem left_of_lines {lines : List Bytes}
    (complete : ∀ line ∈ lines, ∃ body, line = body ++ [10] ∧ 10 ∉ body) :
    (drainLines lines.flatten).2 = [] := by
  induction lines with
  | nil => rfl
  | cons line lines ih =>
      obtain ⟨⟨body, rfl, open_⟩, later⟩ := List.forall_mem_cons.mp complete
      rw [List.flatten_cons, List.append_assoc, List.singleton_append, drainLines_line open_]
      exact ih later

/-- What is incomplete is shorter than the line it becomes, and no longer than what it is left
as. -/
theorem length_le_of_incomplete {rest : Bytes} (open_ : 10 ∉ rest) (more : Bytes) {limit : Nat}
    (lines : ∀ line ∈ (drainLines (rest ++ more)).1, line.length ≤ limit + 1)
    (left : (drainLines (rest ++ more)).2.length ≤ limit) : rest.length ≤ limit := by
  have whole := drainLines_flatten (rest ++ more)
  cases split : (drainLines (rest ++ more)).1 with
  | nil =>
      rw [split] at whole
      have lengths := congrArg List.length whole
      simp at lengths
      omega
  | cons line later =>
      obtain ⟨body, rfl, -⟩ := line_of_mem_drainLines (split ▸ List.mem_cons_self)
      have short := lines (body ++ [10]) (split ▸ List.mem_cons_self)
      by_contra long
      -- The line would end within what is incomplete.
      rw [split, List.flatten_cons, List.append_assoc] at whole
      have begins : body ++ [10] <+: rest :=
        List.prefix_of_prefix_length_le ⟨_, whole⟩ ⟨more, rfl⟩ (by omega)
      exact open_ (begins.subset (by simp))

section Decryptor

variable {Key : Type} {parts : StreamParts Key} {model : String}

/-! ### The pending bytes -/

/-- The same state with other bytes pending. -/
def StreamDecryptor.withPending (state : StreamDecryptor Key) (pending : Bytes) :
    StreamDecryptor Key := { state with pending }

/-- The result of a step on the same state with other bytes pending. -/
def pendingToo (pending : Bytes) (result : StreamDecryptor Key × Bytes) :
    StreamDecryptor Key × Bytes := (result.1.withPending pending, result.2)

/-- The bytes pending do not matter to a chunk. -/
theorem checkChunk_withPending (state : StreamDecryptor Key) (pending : Bytes) (chunk : Value) :
    checkChunk model (state.withPending pending) chunk =
      (checkChunk model state chunk).map (·.withPending pending) := by
  unfold checkChunk
  cases checkModel model chunk with
  | error failure => rfl
  | ok =>
      cases usageOf chunk with
      | none => rfl
      | some usage =>
          simp only [StreamDecryptor.withPending]
          by_cases grows : state.usageTotal ≤ usageTotal usage
          · simp [ensure, grows]
            rfl
          · simp [ensure, grows]
            rfl

/-- Nor to the data released. -/
theorem releaseData_withPending (state : StreamDecryptor Key) (pending : Bytes) (data : List Char) :
    releaseData parts model (state.withPending pending) data =
      (releaseData parts model state data).map (pendingToo pending) := by
  unfold releaseData
  by_cases isDone : data = doneText
  · rw [if_pos isDone, if_pos isDone]
    change (required state.heldUsage _ >>= _) = _
    cases state.heldUsage with
    | none => rfl
    | some usage => rfl
  · rw [if_neg isDone, if_neg isDone]
    cases parts.fromStr data with
    | none => rfl
    | some chunk =>
        have read : required (some chunk) StreamError.chunkNotJson = pure chunk := rfl
        rw [read, pure_bind, pure_bind]
        split
        · rename_i usage _ _
          cases requireBillable usage with
          | error failure => rfl
          | ok =>
              change (checkChunk model _ chunk >>= _) = Except.map _ (checkChunk model _ chunk >>= _)
              rw [checkChunk_withPending]
              cases checkChunk model state chunk with
              | error failure => rfl
              | ok next => rfl
        · rw [checkChunk_withPending]
          cases checkChunk model state chunk with
          | error failure => rfl
          | ok next => rfl

/-- Nor to the lines released. -/
theorem releaseAll_withPending (state : StreamDecryptor Key) (pending : Bytes)
    (lines : List (List Char)) :
    releaseAll parts model (state.withPending pending) lines =
      (releaseAll parts model state lines).map (pendingToo pending) := by
  induction lines generalizing state with
  | nil => rfl
  | cons line later ih =>
      have first : release parts model (state.withPending pending) (trimEnd line) =
          (release parts model state (trimEnd line)).map (pendingToo pending) := by
        unfold release
        cases dataOf (trimEnd line) with
        | none => rfl
        | some data => exact releaseData_withPending state pending data
      rw [releaseAll, releaseAll, first]
      cases release parts model state (trimEnd line) with
      | error failure => rfl
      | ok next =>
          change (releaseAll parts model (next.1.withPending pending) later >>= _) =
            Except.map _ (releaseAll parts model next.1 later >>= _)
          rw [ih]
          cases releaseAll parts model next.1 later with
          | error failure => rfl
          | ok last => rfl

/-- Nor to an event relayed. -/
theorem relayEvent_withPending (state : StreamDecryptor Key) (pending : Bytes) (line : List Char) :
    relayEvent parts model (state.withPending pending) line =
      (relayEvent parts model state line).map (pendingToo pending) := by
  unfold relayEvent
  cases readRelayEvent parts line with
  | nothing => rfl
  | done =>
      change (ensure state.done _ >>= _) = Except.map _ (ensure state.done _ >>= _)
      cases ensure state.done StreamError.plaintextDone with
      | error failure => rfl
      | ok => rfl
  | init value =>
      change (ensure state.streamKey.isNone _ >>= _) =
        Except.map _ (ensure state.streamKey.isNone _ >>= _)
      cases ensure state.streamKey.isNone StreamError.secondInit with
      | error failure => rfl
      | ok =>
          cases value.asStr with
          | none => rfl
          | some init =>
              change (required (parts.streamKey init) _ >>= _) =
                Except.map _ (required (parts.streamKey init) _ >>= _)
              cases parts.streamKey init with
              | none => rfl
              | some key => rfl
  -- Each check reads the state beside the pending bytes, so both sides decide alike.
  | chunk value =>
      change (required state.streamKey _ >>= _) = Except.map _ (required state.streamKey _ >>= _)
      cases state.streamKey with
      | none => rfl
      | some key =>
          cases value.asStr with
          | none => rfl
          | some chunk =>
              change (required (parts.decryptChunk key chunk) _ >>= _) =
                Except.map _ (required (parts.decryptChunk key chunk) _ >>= _)
              cases parts.decryptChunk key chunk with
              | none => rfl
              | some text =>
                  change (ensure (!state.done || (trim text).isEmpty) _ >>= _) =
                    Except.map _ (ensure (!state.done || (trim text).isEmpty) _ >>= _)
                  cases ensure (!state.done || (trim text).isEmpty) StreamError.chunkAfterDone with
                  | error failure => rfl
                  | ok => exact releaseAll_withPending state pending (lines text)
  | failed error => rfl

/-- Nor to the lines relayed. -/
theorem relayAll_withPending (state : StreamDecryptor Key) (pending : Bytes) (lines : List Bytes) :
    relayAll parts model (state.withPending pending) lines =
      (relayAll parts model state lines).map (pendingToo pending) := by
  induction lines generalizing state with
  | nil => rfl
  | cons line later ih =>
      rw [relayAll, relayAll]
      cases fromUtf8 line with
      | none => rfl
      | some text =>
          change (relayEvent parts model _ _ >>= _) =
            Except.map _ (relayEvent parts model _ _ >>= _)
          rw [relayEvent_withPending]
          cases relayEvent parts model state (trimEnd text.toList) with
          | error failure => rfl
          | ok next =>
              change (relayAll parts model (next.1.withPending pending) later >>= _) =
                Except.map _ (relayAll parts model next.1 later >>= _)
              rw [ih]
              cases relayAll parts model next.1 later with
              | error failure => rfl
              | ok last => rfl

theorem relayAll_withPending_eq_ok {state next : StreamDecryptor Key} {pending output : Bytes}
    {lines : List Bytes} :
    relayAll parts model (state.withPending pending) lines = .ok (next, output) ↔
      ∃ relayed, relayAll parts model state lines = .ok (relayed, output) ∧
        next = relayed.withPending pending := by
  rw [relayAll_withPending]
  cases relayAll parts model state lines with
  | error failure => simp [Except.map]
  | ok last =>
      obtain ⟨relayed, emitted⟩ := last
      simp only [Except.map, pendingToo, Except.ok.injEq, Prod.mk.injEq]
      constructor
      · rintro ⟨rfl, rfl⟩
        exact ⟨relayed, ⟨rfl, rfl⟩, rfl⟩
      · rintro ⟨given, ⟨rfl, rfl⟩, rfl⟩
        exact ⟨rfl, rfl⟩

/-- Lines are relayed one by one, each of UTF-8. -/
theorem relayAll_cons_eq_ok {state next : StreamDecryptor Key} {line output : Bytes}
    {later : List Bytes} :
    relayAll parts model state (line :: later) = .ok (next, output) ↔
      ∃ text middle here more, fromUtf8 line = some text ∧
        relayEvent parts model state (trimEnd text.toList) = .ok (middle, here) ∧
        relayAll parts model middle later = .ok (next, more) ∧ output = here ++ more := by
  rw [relayAll]
  constructor
  · intro relayed
    obtain ⟨text, read, relayed⟩ := bind_eq_ok.mp relayed
    obtain ⟨⟨middle, here⟩, first, relayed⟩ := bind_eq_ok.mp relayed
    obtain ⟨⟨last, more⟩, rest, same⟩ := bind_eq_ok.mp relayed
    cases same
    exact ⟨text, middle, here, more, required_eq_ok.mp read, first, rest, rfl⟩
  · rintro ⟨text, middle, here, more, read, first, rest, rfl⟩
    exact bind_eq_ok.mpr ⟨text, required_eq_ok.mpr read, bind_eq_ok.mpr ⟨(middle, here), first,
      bind_eq_ok.mpr ⟨(next, more), rest, rfl⟩⟩⟩

/-- Lines are relayed one list after the other. -/
theorem relayAll_append_eq_ok {state next : StreamDecryptor Key} {lines others : List Bytes}
    {output : Bytes} :
    relayAll parts model state (lines ++ others) = .ok (next, output) ↔
      ∃ middle here more, relayAll parts model state lines = .ok (middle, here) ∧
        relayAll parts model middle others = .ok (next, more) ∧ output = here ++ more := by
  induction lines generalizing state output with
  | nil =>
      constructor
      · intro relayed
        exact ⟨state, [], output, rfl, relayed, rfl⟩
      · rintro ⟨middle, here, more, same, relayed, rfl⟩
        cases same
        exact relayed
  | cons line later ih =>
      rw [List.cons_append]
      simp only [relayAll_cons_eq_ok, ih]
      constructor
      · rintro ⟨text, middle, here, more, read, first, ⟨last, hereLater, moreLater, rest, others,
          rfl⟩, rfl⟩
        exact ⟨last, here ++ hereLater, moreLater, ⟨text, middle, here, hereLater, read, first, rest,
          rfl⟩, others, (List.append_assoc _ _ _).symm⟩
      · rintro ⟨last, here, more, ⟨text, middle, hereFirst, hereLater, read, first, rest, rfl⟩,
          others, rfl⟩
        exact ⟨text, middle, hereFirst, hereLater ++ more, read, first, ⟨last, hereLater, more, rest,
          others, rfl⟩, List.append_assoc _ _ _⟩

/-! ### Piece by piece -/

/-- What each piece leaves incomplete. -/
def leftovers (pending : Bytes) : List Bytes → List Bytes
  | [] => []
  | bytes :: later =>
      let left := (drainLines (pending ++ bytes)).2
      left :: leftovers left later

/-- What the pieces leave is short if the lines and the last rest are. -/
theorem leftovers_le {pending : Bytes} {pieces : List Bytes} {limit : Nat}
    (lines : ∀ line ∈ (drainLines (pending ++ pieces.flatten)).1, line.length ≤ limit + 1)
    (short : (drainLines (pending ++ pieces.flatten)).2.length ≤ limit) :
    ∀ left ∈ leftovers pending pieces, left.length ≤ limit := by
  induction pieces generalizing pending with
  | nil => simp [leftovers]
  | cons bytes pieces ih =>
      rw [List.flatten_cons, ← List.append_assoc, drainLines_append (pending ++ bytes)]
        at lines short
      have later : ∀ line ∈ (drainLines
          ((drainLines (pending ++ bytes)).2 ++ pieces.flatten)).1, line.length ≤ limit + 1 :=
        fun line mem => lines line (List.mem_append_right _ mem)
      rw [leftovers]
      exact List.forall_mem_cons.mpr
        ⟨length_le_of_incomplete (notMem_left _) _ later short, ih later short⟩

/-- What is left at the end is as short as the pieces' leftovers. -/
theorem left_le {pending : Bytes} {pieces : List Bytes} {limit : Nat} (open_ : 10 ∉ pending)
    (pendingShort : pending.length ≤ limit)
    (short : ∀ left ∈ leftovers pending pieces, left.length ≤ limit) :
    (drainLines (pending ++ pieces.flatten)).2.length ≤ limit := by
  induction pieces generalizing pending with
  | nil => simpa [drainLines_of_notMem open_] using pendingShort
  | cons bytes pieces ih =>
      obtain ⟨first, later⟩ := List.forall_mem_cons.mp short
      rw [List.flatten_cons, ← List.append_assoc, drainLines_append (pending ++ bytes)]
      exact ih (notMem_left _) first later

/-- A piece fed relays the lines it completes and keeps the rest. -/
theorem feed_eq_ok {state next : StreamDecryptor Key} {bytes output : Bytes} :
    feed parts model state bytes = .ok (next, output) ↔
      ∃ relayed, relayAll parts model state (drainLines (state.pending ++ bytes)).1 =
          .ok (relayed, output) ∧
        next = relayed.withPending (drainLines (state.pending ++ bytes)).2 ∧
        (drainLines (state.pending ++ bytes)).2.length ≤ maxLineBytes := by
  constructor
  · intro fed
    obtain ⟨⟨given, emitted⟩, first, fed⟩ := bind_eq_ok.mp fed
    obtain ⟨⟨⟩, short, same⟩ := bind_eq_ok.mp fed
    cases same
    obtain ⟨relayed, relays, rfl⟩ := relayAll_withPending_eq_ok.mp first
    exact ⟨relayed, relays, rfl, by simpa using short⟩
  · rintro ⟨relayed, relays, rfl, short⟩
    exact bind_eq_ok.mpr ⟨_, relayAll_withPending_eq_ok.mpr ⟨relayed, relays, rfl⟩,
      bind_eq_ok.mpr ⟨.unit, by simpa using short, rfl⟩⟩

/-- Pieces are fed one by one. -/
theorem feedAll_cons_eq_ok {state next : StreamDecryptor Key} {bytes output : Bytes}
    {later : List Bytes} :
    feedAll parts model state (bytes :: later) = .ok (next, output) ↔
      ∃ middle here more, feed parts model state bytes = .ok (middle, here) ∧
        feedAll parts model middle later = .ok (next, more) ∧ output = here ++ more := by
  constructor
  · intro fed
    obtain ⟨⟨middle, here⟩, first, fed⟩ := bind_eq_ok.mp fed
    obtain ⟨⟨last, more⟩, rest, same⟩ := bind_eq_ok.mp fed
    cases same
    exact ⟨middle, here, more, first, rest, rfl⟩
  · rintro ⟨middle, here, more, first, rest, rfl⟩
    exact bind_eq_ok.mpr ⟨(middle, here), first, bind_eq_ok.mpr ⟨(next, more), rest, rfl⟩⟩

/-- Pieces are fed without an error just where the lines that they complete are relayed without
one, and none of them leaves more than the bound. -/
theorem feedAll_eq_ok {state next : StreamDecryptor Key} {pieces : List Bytes} {output : Bytes}
    (open_ : 10 ∉ state.pending) :
    feedAll parts model state pieces = .ok (next, output) ↔
      ∃ relayed, relayAll parts model state (drainLines (state.pending ++ pieces.flatten)).1 =
          .ok (relayed, output) ∧
        next = relayed.withPending (drainLines (state.pending ++ pieces.flatten)).2 ∧
        ∀ left ∈ leftovers state.pending pieces, left.length ≤ maxLineBytes := by
  induction pieces generalizing state output with
  | nil =>
      rw [List.flatten_nil, List.append_nil, drainLines_of_notMem open_]
      constructor
      · intro fed
        cases fed
        exact ⟨next, rfl, rfl, by simp [leftovers]⟩
      · rintro ⟨relayed, same, rfl, -⟩
        cases same
        rfl
  | cons bytes pieces ih =>
      have left := notMem_left (state.pending ++ bytes)
      rw [List.flatten_cons, ← List.append_assoc, drainLines_append (state.pending ++ bytes),
        leftovers, List.forall_mem_cons, feedAll_cons_eq_ok]
      simp only [feed_eq_ok, relayAll_append_eq_ok]
      constructor
      · rintro ⟨middle, here, more, ⟨relayed, relays, rfl, short⟩, rest, rfl⟩
        obtain ⟨_, second, rfl, shortLater⟩ := (ih left).mp rest
        obtain ⟨last, relaysLater, rfl⟩ := relayAll_withPending_eq_ok.mp second
        exact ⟨last, ⟨relayed, here, more, relays, relaysLater, rfl⟩, rfl, short, shortLater⟩
      · rintro ⟨last, ⟨relayed, here, more, relays, relaysLater, rfl⟩, rfl, short, shortLater⟩
        refine ⟨_, here, more, ⟨relayed, relays, rfl, short⟩, (ih left).mpr ?_, rfl⟩
        exact ⟨_, relayAll_withPending_eq_ok.mpr ⟨last, relaysLater, rfl⟩, rfl, shortLater⟩

/-! ### All ways of cutting -/

/-- Two ways of feeding come to the same: an output and a finish, or an error. -/
def Agree (parts : StreamParts Key) (model : String) (pieces others : List Bytes) : Prop :=
  (∃ state other output, feedAll parts model (.new Key) pieces = .ok (state, output) ∧
      feedAll parts model (.new Key) others = .ok (other, output) ∧
      finish.{0} state = finish other) ∨
    ((∃ failure, feedAll parts model (.new Key) pieces = .error failure) ∧
      ∃ failure, feedAll parts model (.new Key) others = .error failure)

theorem fed_or_failed (parts : StreamParts Key) (model : String) (pieces : List Bytes) :
    (∃ state output, feedAll parts model (.new Key) pieces = .ok (state, output)) ∨
      ∃ failure, feedAll parts model (.new Key) pieces = .error failure := by
  cases feedAll parts model (.new Key) pieces with
  | error failure => exact .inr ⟨failure, rfl⟩
  | ok result => exact .inl ⟨result.1, result.2, rfl⟩

/-- A stream in one piece is fed when its lines are relayed and what is left is within the
bound. -/
theorem feedAll_singleton {bytes output : Bytes} {relayed : StreamDecryptor Key}
    (relays : relayAll parts model (.new Key) (drainLines bytes).1 = .ok (relayed, output))
    (short : (drainLines bytes).2.length ≤ maxLineBytes) :
    feedAll parts model (.new Key) [bytes] =
      .ok (relayed.withPending (drainLines bytes).2, output) := by
  refine (feedAll_eq_ok List.not_mem_nil).mpr ⟨relayed, ?_, ?_, ?_⟩
  · simpa [StreamDecryptor.new] using relays
  · simp [StreamDecryptor.new]
  · simpa [leftovers, StreamDecryptor.new] using short

/-- A stream cut before the line feed of a line over the bound fails. -/
theorem feedAll_cut (parts : StreamParts Key) (model : String) {before : List Bytes} {body : Bytes} (rest : List Bytes)
    (complete : ∀ line ∈ before, ∃ body, line = body ++ [10] ∧ 10 ∉ body) (open_ : 10 ∉ body)
    (long : maxLineBytes < body.length) :
    ∃ failure, feedAll parts model (.new Key) ((before.flatten ++ body) :: rest) =
      .error failure := by
  rcases fed_or_failed parts model ((before.flatten ++ body) :: rest) with
    ⟨state, output, fed⟩ | failed
  · obtain ⟨-, -, -, short⟩ := (feedAll_eq_ok List.not_mem_nil).mp fed
    have first := short _ List.mem_cons_self
    change (drainLines ([] ++ (before.flatten ++ body))).2.length ≤ _ at first
    rw [List.nil_append, drainLines_append, left_of_lines complete, List.nil_append,
      drainLines_of_notMem open_] at first
    exact absurd long (Nat.not_lt.mpr first)
  · exact failed

/-- All ways of feeding a stream come to the same just where the stream, if its lines are relayed
without an error and its rest is within the bound, has no line over the bound. -/
theorem feeds_agree_iff (parts : StreamParts Key) (model : String) (bytes : Bytes) :
    (∀ pieces others : List Bytes, pieces.flatten = bytes → others.flatten = bytes →
      Agree parts model pieces others) ↔
      ((∃ result, relayAll parts model (.new Key) (drainLines bytes).1 = .ok result) →
        (drainLines bytes).2.length ≤ maxLineBytes →
        ∀ line ∈ (drainLines bytes).1, line.length ≤ maxLineBytes + 1) := by
  constructor
  · rintro agree ⟨⟨relayed, output⟩, relays⟩ short line mem
    by_contra long
    obtain ⟨before, after, split⟩ := List.append_of_mem mem
    have complete : ∀ line ∈ before, ∃ body, line = body ++ [10] ∧ 10 ∉ body := by
      intro line inBefore
      exact line_of_mem_drainLines (split ▸ List.mem_append_left _ inBefore)
    obtain ⟨body, rfl, open_⟩ := line_of_mem_drainLines mem
    have whole : [before.flatten ++ body, [10] ++ after.flatten ++ (drainLines bytes).2].flatten =
        bytes := by
      have joined := drainLines_flatten bytes
      rw [split] at joined
      simpa using joined
    -- Cut just before its line feed, the long line is more than may be pending; fed whole it
    -- passes.
    obtain ⟨failure, failed⟩ := feedAll_cut parts model
      [[10] ++ after.flatten ++ (drainLines bytes).2] complete open_
      (by rw [List.length_append, List.length_singleton] at long; omega)
    have fed := feedAll_singleton relays short
    rcases agree [bytes] _ (by simp) whole with ⟨state, other, output, -, passed, -⟩ | ⟨⟨_, none⟩, -⟩
    · cases failed.symm.trans passed
    · cases fed.symm.trans none
  · intro bounded pieces others same sameOthers
    -- One way of cutting passes, so the lines are short and any other way passes too.
    have together : ∀ {pieces others : List Bytes}, pieces.flatten = bytes →
        others.flatten = bytes → ∀ {state output},
        feedAll parts model (.new Key) pieces = .ok (state, output) →
        feedAll parts model (.new Key) others = .ok (state, output) := by
      intro pieces others same sameOthers state output fed
      obtain ⟨relayed, relays, rfl, short⟩ := (feedAll_eq_ok List.not_mem_nil).mp fed
      have initial : (StreamDecryptor.new Key).pending = [] := rfl
      rw [initial, List.nil_append, same] at relays
      have left := left_le List.not_mem_nil (Nat.zero_le _) short
      rw [List.nil_append, same] at left
      have lines := bounded ⟨_, relays⟩ left
      refine (feedAll_eq_ok List.not_mem_nil).mpr ⟨relayed, ?_, ?_, ?_⟩
      · rw [initial, List.nil_append, sameOthers]
        exact relays
      · rw [initial, List.nil_append, List.nil_append, same, sameOthers]
      · exact leftovers_le (by rwa [initial, List.nil_append, sameOthers])
          (by rwa [initial, List.nil_append, sameOthers])
    rcases fed_or_failed parts model pieces with ⟨state, output, fed⟩ | failed
    · exact .inl ⟨state, state, output, fed, together same sameOthers fed, rfl⟩
    · rcases fed_or_failed parts model others with ⟨state, output, fed⟩ | failedOther
      · exact .inl ⟨state, state, output, together sameOthers same fed, fed, rfl⟩
      · exact .inr ⟨failed, failedOther⟩

end Decryptor

/-! ### A long comment -/

/-- A line that is no data line. -/
def longLine (n : Nat) : String := String.ofList (List.replicate n ':' ++ ['\n'])

theorem asBytes_longLine (n : Nat) : asBytes (longLine n) = List.replicate n 58 ++ [10] := by
  have colon : String.utf8EncodeChar ':' = [58] := by decide
  have feed : String.utf8EncodeChar '\n' = [10] := by decide
  rw [asBytes_eq_flatMap, longLine, String.toList_ofList, List.flatMap_append]
  congr 1
  induction n with
  | zero => rfl
  | succ n ih => simpa [List.replicate_succ, colon] using ih

/-- A long comment relays nothing. -/
theorem readRelayEvent_longLine {Key : Type} (parts : StreamParts Key) (n : Nat) :
    readRelayEvent parts (trimEnd (longLine n).toList) = .nothing := by
  have notData : dataOf (trimEnd (longLine n).toList) = none := by
    cases stripped : stripPrefix "data:".toList (trimEnd (longLine n).toList) with
    | none =>
        unfold dataOf
        rw [stripped]
        rfl
    | some rest =>
        have mem : 'd' ∈ (longLine n).toList := by
          refine trimEnd_subset _ ?_
          rw [stripPrefix_eq_some.mp stripped]
          exact List.mem_append_left _ (by decide)
        rw [longLine, String.toList_ofList] at mem
        simp at mem
  unfold readRelayEvent
  rw [notData]

theorem drainLines_longLine (n : Nat) :
    drainLines (asBytes (longLine n)) = ([asBytes (longLine n)], []) := by
  rw [asBytes_longLine, drainLines_line (by simp)]
  rfl

/-- A line over the bound, with its line feed in the next piece. -/
theorem long_line_cut :
    ¬ ∀ (Key : Type) (parts : StreamParts Key) (model : String) (bytes : Bytes)
      (pieces others : List Bytes), pieces.flatten = bytes → others.flatten = bytes →
      Agree parts model pieces others := by
  intro agree
  -- The number stays a name: the line is too long to be computed.
  obtain ⟨n, long⟩ : ∃ n, maxLineBytes < n := ⟨_, Nat.lt_succ_self _⟩
  have relays : relayAll smallParts "m" (.new Unit) (drainLines (asBytes (longLine n))).1 =
      .ok (.new Unit, []) := by
    rw [drainLines_longLine]
    refine relayAll_cons_eq_ok.mpr ⟨_, _, [], [], fromUtf8_asBytes _, ?_, rfl, rfl⟩
    unfold relayEvent
    rw [readRelayEvent_longLine]
  have fed := feedAll_singleton relays (by rw [drainLines_longLine]; exact Nat.zero_le _)
  have colons : 10 ∉ List.replicate n (58 : UInt8) := by simp
  obtain ⟨failure, failed⟩ := feedAll_cut smallParts "m" [[10]] (List.forall_mem_nil _) colons
    (by simpa using long)
  have whole : [([] : List Bytes).flatten ++ List.replicate n 58, [10]].flatten =
      asBytes (longLine n) := by
    rw [asBytes_longLine]
    simp
  rcases agree Unit smallParts "m" _ [asBytes (longLine n)] _ (by simp) whole with
    ⟨state, other, output, -, passed, -⟩ | ⟨⟨_, none⟩, -⟩
  · cases failed.symm.trans passed
  · cases fed.symm.trans none

/-! ### Among other plaintext -/

/-- An event that a sealed content comes with, or its key. -/
def RelayEvent.isAuthenticated : RelayEvent → Bool
  | .init _ | .chunk _ => true
  | .nothing | .done | .failed _ => false

section Decryptor

variable {Key : Type} {parts : StreamParts Key} {model : String}

/-- The events of lines that hold a key or a sealed content, in order. -/
def authenticatedEvents (parts : StreamParts Key) (lines : List Bytes) : List RelayEvent :=
  (lines.filterMap fun line =>
    (fromUtf8 line).map fun text => readRelayEvent parts (trimEnd text.toList)).filter
      RelayEvent.isAuthenticated

/-- What an event that was read does. -/
def relayRead (parts : StreamParts Key) (model : String) (state : StreamDecryptor Key) :
    RelayEvent → Except StreamError (StreamDecryptor Key × Bytes)
  | .nothing => .ok (state, [])
  | .done => do
      ensure state.done .plaintextDone
      pure (state, [])
  | .init value => do
      ensure state.streamKey.isNone .secondInit
      let init ← required value.asStr .initNotString
      let key ← required (parts.streamKey init) .initRejected
      pure ({ state with streamKey := some key }, [])
  | .chunk value => do
      let key ← required state.streamKey .chunkBeforeInit
      let chunk ← required value.asStr .chunkNotString
      let text ← required (parts.decryptChunk key chunk) .chunkRejected
      ensure (!state.done || (trim text).isEmpty) .chunkAfterDone
      releaseAll parts model state (lines text)
  | .failed error => .error (.upstreamError error)

theorem relayEvent_eq (state : StreamDecryptor Key) (line : List Char) :
    relayEvent parts model state line = relayRead parts model state (readRelayEvent parts line) := by
  unfold relayEvent relayRead
  cases readRelayEvent parts line with
  | nothing | done | init | chunk | failed => rfl

/-- Other plaintext aborts the stream, or does nothing. -/
theorem relayRead_plain {state next : StreamDecryptor Key} {event : RelayEvent} {output : Bytes}
    (plain : event.isAuthenticated = false)
    (relayed : relayRead parts model state event = .ok (next, output)) :
    next = state ∧ output = [] := by
  cases event with
  | nothing =>
      cases relayed
      exact ⟨rfl, rfl⟩
  | done =>
      obtain ⟨⟨⟩, -, same⟩ := bind_eq_ok.mp relayed
      cases same
      exact ⟨rfl, rfl⟩
  | init => cases plain
  | chunk => cases plain
  | failed => cases relayed

/-- Events that were read, in order. -/
def relayEach (parts : StreamParts Key) (model : String) (state : StreamDecryptor Key) :
    List RelayEvent → Except StreamError (StreamDecryptor Key × Bytes)
  | [] => .ok (state, [])
  | event :: later => do
      let (state, output) ← relayRead parts model state event
      let (state, more) ← relayEach parts model state later
      pure (state, output ++ more)

theorem authenticatedEvents_append (lines others : List Bytes) :
    authenticatedEvents parts (lines ++ others) =
      authenticatedEvents parts lines ++ authenticatedEvents parts others := by
  simp [authenticatedEvents]

/-- Lines that are relayed come to what their authenticated events come to. -/
theorem relayAll_authenticated {state next : StreamDecryptor Key} {lines : List Bytes}
    {output : Bytes} (relayed : relayAll parts model state lines = .ok (next, output)) :
    relayEach parts model state (authenticatedEvents parts lines) = .ok (next, output) := by
  induction lines generalizing state output with
  | nil => exact relayed
  | cons line later ih =>
      obtain ⟨text, middle, here, more, read, first, rest, rfl⟩ := relayAll_cons_eq_ok.mp relayed
      rw [relayEvent_eq] at first
      have event : authenticatedEvents parts [line] =
          if (readRelayEvent parts (trimEnd text.toList)).isAuthenticated then
            [readRelayEvent parts (trimEnd text.toList)] else [] := by
        simp [authenticatedEvents, read, List.filter_cons]
      rw [← List.singleton_append, authenticatedEvents_append, event]
      by_cases authenticated : (readRelayEvent parts (trimEnd text.toList)).isAuthenticated = true
      · rw [if_pos authenticated]
        exact bind_eq_ok.mpr ⟨_, first, bind_eq_ok.mpr ⟨_, ih rest, rfl⟩⟩
      · rw [if_neg authenticated]
        obtain ⟨rfl, rfl⟩ := relayRead_plain (by simpa using authenticated) first
        exact ih rest

/-- Two streams that are accepted, with the same keys and sealed contents in the same order, come
to the same output and the same finish, whatever other plaintext they hold. -/
theorem outputs_agree {pieces others : List Bytes} {state other : StreamDecryptor Key}
    {output otherOutput : Bytes} (fed : feedAll parts model (.new Key) pieces = .ok (state, output))
    (fedOther : feedAll parts model (.new Key) others = .ok (other, otherOutput))
    (same : authenticatedEvents parts (drainLines pieces.flatten).1 =
      authenticatedEvents parts (drainLines others.flatten).1) :
    output = otherOutput ∧ finish.{0} state = finish other := by
  obtain ⟨relayed, relays, rfl, -⟩ := (feedAll_eq_ok List.not_mem_nil).mp fed
  obtain ⟨relayedOther, relaysOther, rfl, -⟩ := (feedAll_eq_ok List.not_mem_nil).mp fedOther
  have run := relayAll_authenticated relays
  have runOther := relayAll_authenticated relaysOther
  change relayEach parts model _ (authenticatedEvents parts (drainLines ([] ++ _)).1) = _ at run
  change relayEach parts model _ (authenticatedEvents parts (drainLines ([] ++ _)).1) = _
    at runOther
  rw [List.nil_append] at run runOther
  rw [same, runOther] at run
  cases run
  exact ⟨rfl, rfl⟩

end Decryptor

/-- A stream with a comment before it, and the relay's own `[DONE]` behind it. -/
theorem outputs_agree_with_comment :
    ∃ (state other : StreamDecryptor Unit) (output otherOutput : Bytes),
      feedAll smallParts "m" (.new Unit) (smallStream ["usage", "done"]) = .ok (state, output) ∧
      feedAll smallParts "m" (.new Unit)
        (asBytes ": note\n" :: smallStream ["usage", "done"] ++ [asBytes "data: [DONE]\n"]) =
          .ok (other, otherOutput) ∧
      output = otherOutput ∧ finish.{0} state = finish other := by
  have decrypted := eq_ok_of_toOption smallStreams_run.1
  unfold decryptStream at decrypted
  obtain ⟨⟨state, output⟩, fed, -⟩ := bind_eq_ok.mp decrypted
  obtain ⟨ran, lines, note, done⟩ :
      (feedAll smallParts "m" (.new Unit) (asBytes ": note\n" :: smallStream ["usage", "done"] ++
        [asBytes "data: [DONE]\n"])).toOption.isSome = true ∧
      (drainLines (asBytes ": note\n" :: smallStream ["usage", "done"] ++
        [asBytes "data: [DONE]\n"]).flatten).1 =
          [asBytes ": note\n"] ++ (drainLines (smallStream ["usage", "done"]).flatten).1 ++
            [asBytes "data: [DONE]\n"] ∧
      (authenticatedEvents smallParts [asBytes ": note\n"]).isEmpty = true ∧
      (authenticatedEvents smallParts [asBytes "data: [DONE]\n"]).isEmpty = true := by
    decide +kernel
  obtain ⟨⟨other, otherOutput⟩, fedOther⟩ := Option.isSome_iff_exists.mp ran
  refine ⟨state, other, output, otherOutput, fed, eq_ok_of_toOption fedOther,
    outputs_agree fed (eq_ok_of_toOption fedOther) ?_⟩
  rw [lines, authenticatedEvents_append, authenticatedEvents_append, List.isEmpty_iff.mp note,
    List.isEmpty_iff.mp done, List.nil_append, List.append_nil]

end GmMiner.Chutes
