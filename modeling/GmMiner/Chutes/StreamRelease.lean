import GmMiner.Chutes.StreamDecryptor

/-!
What a Chutes event stream releases.

Before the encrypted `[DONE]` every data line is relayed without its usage, except
content-free usage frames, the latest of which is held; `[DONE]` releases it. The check
that nothing is sealed after `[DONE]` is made chunk by chunk and not line by line, so
lines behind a `[DONE]` in its own chunk are still released: `releases_end_with_done`
says that a stream ends as it should exactly if there are none but usage frames.
-/

namespace GmMiner.Chutes

open GmMiner.Lib GmMiner.Json

/-- What the decryptor relies on: JSON that is written stays on one line and is not
`[DONE]`. -/
structure StreamParts.Faithful {Key : Type} (parts : StreamParts Key) : Prop where
  oneLine : ∀ value, '\n' ∉ parts.toString value
  notDone : ∀ value, parts.toString value ≠ doneText

variable {Key : Type} {parts : StreamParts Key} {model : String}

/-- The data line is a content-free usage frame. -/
def isUsageFrame (parts : StreamParts Key) (data : List Char) : Bool :=
  match parts.fromStr data with
  | some chunk => (usageOf chunk).isSome && contentFree chunk
  | none => false

/-- What is relayed of a data line before `[DONE]`. -/
def relayed (parts : StreamParts Key) (data : List Char) : Option (List Char) :=
  if isUsageFrame parts data then none
  else (parts.fromStr data).map fun chunk => parts.toString (withoutUsage chunk)

/-- Behind a `[DONE]` the text has usage frames only. -/
def Quiet (parts : StreamParts Key) (text : List Char) : Prop :=
  ∀ before after, dataLines text = before ++ doneText :: after →
    ∀ data ∈ after, data ≠ doneText ∧ isUsageFrame parts data = true

/-! ### One data line -/

/-- A chunk that passes changes the usage alone, and never lowers it. -/
theorem checkChunk_eq_ok {state next : StreamDecryptor Key} {chunk : Value}
    (checked : checkChunk model state chunk = .ok next) :
    next = { state with usageTotal := next.usageTotal } ∧ state.usageTotal ≤ next.usageTotal ∧
      ∀ usage, usageOf chunk = some usage → usageTotal usage = next.usageTotal := by
  unfold checkChunk at checked
  obtain ⟨-, -, checked⟩ := bind_eq_ok.mp checked
  split at checked
  · rename_i usage carries
    obtain ⟨⟨⟩, grows, same⟩ := bind_eq_ok.mp checked
    cases same
    refine ⟨rfl, of_decide_eq_true (ensure_eq_ok.mp grows), ?_⟩
    intro other carries'
    cases carries.symm.trans carries'
    rfl
  · rename_i none
    cases checked
    refine ⟨rfl, le_rfl, ?_⟩
    intro usage carries
    cases none.symm.trans carries

/-- All that the release of a data line can do. -/
inductive Releases (parts : StreamParts Key) (state : StreamDecryptor Key) (data : List Char) :
    StreamDecryptor Key → Bytes → Prop
  | done (usage : List Char) (isDone : data = doneText) (held : state.heldUsage = some usage) :
      Releases parts state data { state with heldUsage := none, done := true }
        (emit usage ++ emit doneText)
  | usage (chunk usage : Value) (notDone : data ≠ doneText) (read : parts.fromStr data = some chunk)
      (carries : usageOf chunk = some usage) (free : contentFree chunk = true)
      (billable : requireBillable usage = .ok .unit) (grows : state.usageTotal ≤ usageTotal usage) :
      Releases parts state data
        { state with usageTotal := usageTotal usage, heldUsage := some data } []
  | content (chunk : Value) (total : Nat) (notDone : data ≠ doneText)
      (read : parts.fromStr data = some chunk) (content : isUsageFrame parts data = false)
      (grows : state.usageTotal ≤ total)
      (counted : ∀ usage, usageOf chunk = some usage → usageTotal usage = total) :
      Releases parts state data { state with usageTotal := total, heldUsage := none }
        (emit (parts.toString (withoutUsage chunk)))

/-- Data released are one of the kinds that are. -/
theorem releases_of_ok {state next : StreamDecryptor Key} {data : List Char} {output : Bytes}
    (released : releaseData parts model state data = .ok (next, output)) :
    Releases parts state data next output := by
  unfold releaseData at released
  split at released
  · rename_i isDone
    obtain ⟨usage, held, same⟩ := bind_eq_ok.mp released
    cases same
    exact .done usage isDone (required_eq_ok.mp held)
  · rename_i notDone
    obtain ⟨chunk, read, released⟩ := bind_eq_ok.mp released
    have read := required_eq_ok.mp read
    split at released
    · rename_i usage carries free
      obtain ⟨⟨⟩, billable, released⟩ := bind_eq_ok.mp released
      obtain ⟨checked, check, same⟩ := bind_eq_ok.mp released
      obtain ⟨kept, grows, counted⟩ := checkChunk_eq_ok check
      cases same
      rw [kept, ← counted usage carries]
      exact .usage chunk usage notDone read carries free billable (counted usage carries ▸ grows)
    · rename_i notFrame
      obtain ⟨checked, check, same⟩ := bind_eq_ok.mp released
      obtain ⟨kept, grows, counted⟩ := checkChunk_eq_ok check
      cases same
      rw [kept]
      refine .content chunk _ notDone read ?_ grows counted
      unfold isUsageFrame
      rw [read]
      dsimp only
      cases carries : usageOf chunk with
      | none => rfl
      | some usage =>
          cases free : contentFree chunk with
          | false => rfl
          | true => cases notFrame usage carries free

/-- Data lines, released in order. -/
def releaseEach (parts : StreamParts Key) (model : String) (state : StreamDecryptor Key) :
    List (List Char) → Except StreamError (StreamDecryptor Key × Bytes)
  | [] => .ok (state, [])
  | data :: later => do
      let (state, output) ← releaseData parts model state data
      let (state, more) ← releaseEach parts model state later
      pure (state, output ++ more)

/-- The lines are released as the data in them. -/
theorem releaseAll_eq (state : StreamDecryptor Key) (lines : List (List Char)) :
    releaseAll parts model state lines =
      releaseEach parts model state (lines.filterMap fun line => dataOf (trimEnd line)) := by
  induction lines generalizing state with
  | nil => rfl
  | cons line later ih =>
      rw [releaseAll, release, List.filterMap_cons]
      cases dataOf (trimEnd line) with
      | none =>
          dsimp only
          rw [← ih state]
          change (releaseAll parts model state later >>= fun result => pure (result.1, [] ++ result.2)) =
            releaseAll parts model state later
          cases releaseAll parts model state later with
          | error reason => rfl
          | ok result => rfl
      | some data =>
          dsimp only
          rw [releaseEach]
          simp only [ih]

/-! ### Up to the first `[DONE]` -/

/-- The data line is a content-free usage frame that can be billed on, with that total. -/
def Billable (parts : StreamParts Key) (data : List Char) (total : Nat) : Prop :=
  ∃ chunk usage, parts.fromStr data = some chunk ∧ usageOf chunk = some usage ∧
    contentFree chunk = true ∧ requireBillable usage = .ok .unit ∧ usageTotal usage = total

/-- Every usage total that a data line carries is at most that. -/
def TotalsAtMost (parts : StreamParts Key) (total : Nat) (data : List Char) : Prop :=
  ∀ chunk usage, parts.fromStr data = some chunk → usageOf chunk = some usage →
    usageTotal usage ≤ total

theorem TotalsAtMost.mono {total more : Nat} (grows : total ≤ more) {data : List Char}
    (most : TotalsAtMost parts total data) : TotalsAtMost parts more data :=
  fun chunk usage read carries => (most chunk usage read carries).trans grows

/-- The state after data lines none of which is `[DONE]`. -/
structure Running (parts : StreamParts Key) (past : List (List Char))
    (state : StreamDecryptor Key) : Prop where
  done : state.done = false
  notDone : doneText ∉ past
  totals : ∀ data ∈ past, TotalsAtMost parts state.usageTotal data
  held : ∀ data, state.heldUsage = some data →
    (∃ before, past = before ++ [data]) ∧ Billable parts data state.usageTotal

/-- A data line that is not `[DONE]` keeps the stream running. -/
theorem Running.releases {past : List (List Char)} {state next : StreamDecryptor Key}
    {data : List Char} {output : Bytes} (running : Running parts past state)
    (notDone : data ≠ doneText) (released : Releases parts state data next output) :
    Running parts (past ++ [data]) next ∧ output = (relayed parts data).toList.flatMap emit := by
  have absent : doneText ∉ past ++ [data] := by
    intro mem
    rcases List.mem_append.mp mem with before | here
    · exact running.notDone before
    · exact notDone (List.mem_singleton.mp here).symm
  -- Not the done frame: either usage that is free to be held back, or content that is relayed.
  cases released with
  | done usage isDone held => exact absurd isDone notDone
  | usage chunk usage _ read carries free billable grows =>
      have frame : isUsageFrame parts data = true := by
        unfold isUsageFrame
        rw [read]
        dsimp only
        rw [carries, free]
        rfl
      refine ⟨⟨running.done, absent, ?_, ?_⟩, ?_⟩
      · intro other mem
        rcases List.mem_append.mp mem with before | here
        · exact (running.totals other before).mono grows
        · rw [List.mem_singleton.mp here]
          intro chunk' usage' read' carries'
          cases read.symm.trans read'
          cases carries.symm.trans carries'
          exact le_rfl
      · intro other held
        cases held
        exact ⟨⟨past, rfl⟩, chunk, usage, read, carries, free, billable, rfl⟩
      · unfold relayed
        rw [if_pos frame]
        rfl
  | content chunk total _ read content grows counted =>
      refine ⟨⟨running.done, absent, ?_, nofun⟩, ?_⟩
      · intro other mem
        rcases List.mem_append.mp mem with before | here
        · exact (running.totals other before).mono grows
        · rw [List.mem_singleton.mp here]
          intro chunk' usage' read' carries'
          cases read.symm.trans read'
          exact (counted usage' carries').le
      · unfold relayed
        rw [content, read, if_neg Bool.false_ne_true]
        exact (List.append_nil _).symm

/-- Behind `[DONE]` a data line emits nothing exactly if it is a usage frame. -/
theorem Releases.quiet (faithful : parts.Faithful) {state next : StreamDecryptor Key}
    {data : List Char} {output : Bytes} (released : Releases parts state data next output)
    (one : '\n' ∉ data) (heldOne : ∀ usage, state.heldUsage = some usage → '\n' ∉ usage) :
    (∃ payloads : List (List Char), output = payloads.flatMap emit ∧
      (∀ payload ∈ payloads, '\n' ∉ payload) ∧
      (payloads = [] ↔ data ≠ doneText ∧ isUsageFrame parts data = true)) ∧
    (∀ usage, next.heldUsage = some usage → '\n' ∉ usage) ∧ (state.done = true → next.done = true) := by
  cases released with
  | done usage isDone held =>
      refine ⟨⟨[usage, doneText], ?_, ?_, ?_⟩, nofun, fun _ => rfl⟩
      · exact congrArg (emit usage ++ ·) (List.append_nil _).symm
      · intro payload mem
        rcases List.mem_cons.mp mem with rfl | mem
        · exact heldOne _ held
        · rw [List.mem_singleton.mp mem]
          decide
      · exact ⟨nofun, fun ⟨notDone, _⟩ => absurd isDone notDone⟩
  | usage chunk usage notDone read carries free billable grows =>
      refine ⟨⟨[], rfl, List.forall_mem_nil _, fun _ => ⟨notDone, ?_⟩, fun _ => rfl⟩, ?_, id⟩
      · unfold isUsageFrame
        rw [read]
        dsimp only
        rw [carries, free]
        rfl
      · intro usage' held
        cases held
        exact one
  | content chunk total notDone read content grows counted =>
      refine ⟨⟨[parts.toString (withoutUsage chunk)], ?_, ?_, ?_⟩, nofun, id⟩
      · exact (List.append_nil _).symm
      · exact List.forall_mem_singleton.mpr (faithful.oneLine _)
      · rw [content]
        exact ⟨nofun, fun ⟨_, frame⟩ => nomatch frame⟩

/-- Data lines behind `[DONE]`. -/
theorem releaseEach_quiet (faithful : parts.Faithful) {lines : List (List Char)}
    {state next : StreamDecryptor Key} {output : Bytes}
    (released : releaseEach parts model state lines = .ok (next, output))
    (one : ∀ data ∈ lines, '\n' ∉ data)
    (heldOne : ∀ usage, state.heldUsage = some usage → '\n' ∉ usage)
    (done : state.done = true) :
    next.done = true ∧ ∃ payloads : List (List Char), output = payloads.flatMap emit ∧
      (∀ payload ∈ payloads, '\n' ∉ payload) ∧
      (payloads = [] ↔ ∀ data ∈ lines, data ≠ doneText ∧ isUsageFrame parts data = true) := by
  induction lines generalizing state output with
  | nil =>
      cases released
      exact ⟨done, [], rfl, List.forall_mem_nil _, fun _ => List.forall_mem_nil _, fun _ => rfl⟩
  | cons data lines ih =>
      obtain ⟨oneHere, oneLater⟩ := List.forall_mem_cons.mp one
      obtain ⟨⟨middle, here⟩, first, released⟩ := bind_eq_ok.mp released
      obtain ⟨⟨last, later⟩, rest, same⟩ := bind_eq_ok.mp released
      cases same
      obtain ⟨⟨payloads, rfl, oneEach, quiet⟩, heldNext, doneNext⟩ :=
        (releases_of_ok first).quiet faithful oneHere heldOne
      obtain ⟨doneLast, more, rfl, oneMore, quietMore⟩ := ih rest oneLater heldNext (doneNext done)
      refine ⟨doneLast, payloads ++ more, ?_, ?_, ?_⟩
      · rw [List.flatMap_append]
      · exact List.forall_mem_append.mpr ⟨oneEach, oneMore⟩
      · rw [List.append_eq_nil_iff, quiet, quietMore, List.forall_mem_cons]

/-- Data lines of a running stream: none is `[DONE]`, or the first `[DONE]` releases the
data line before it. -/
theorem Running.releaseEach {past lines : List (List Char)} {state next : StreamDecryptor Key}
    {output : Bytes} (running : Running parts past state)
    (released : releaseEach parts model state lines = .ok (next, output)) :
    (Running parts (past ++ lines) next ∧
      output = (lines.filterMap (relayed parts)).flatMap emit) ∨
    ∃ before after last middle quietOutput, lines = before ++ doneText :: after ∧
      doneText ∉ past ++ before ∧ (∃ first, past ++ before = first ++ [last]) ∧
      (∃ total, Billable parts last total ∧
        ∀ data ∈ past ++ before, TotalsAtMost parts total data) ∧
      middle.done = true ∧ middle.heldUsage = none ∧
      Chutes.releaseEach parts model middle after = .ok (next, quietOutput) ∧
      output = ((before.filterMap (relayed parts)) ++ [last, doneText]).flatMap emit ++
        quietOutput := by
  induction lines generalizing past state output with
  | nil =>
      cases released
      rw [List.append_nil]
      exact .inl ⟨running, rfl⟩
  | cons data lines ih =>
      obtain ⟨⟨middle, here⟩, first, released⟩ := bind_eq_ok.mp released
      obtain ⟨⟨last, later⟩, rest, same⟩ := bind_eq_ok.mp released
      cases same
      have step := releases_of_ok first
      -- At the done frame the usage held back goes out first; what follows it can be read only
      -- quietly.
      by_cases isDone : data = doneText
      · cases step with
        | usage _ _ notDone => exact absurd isDone notDone
        | content _ _ notDone => exact absurd isDone notDone
        | done usage _ held =>
            obtain ⟨before, billable⟩ := running.held usage held
            refine .inr ⟨[], lines, usage, _, later, by rw [isDone]; rfl, ?_, ?_,
              ⟨state.usageTotal, billable, ?_⟩, rfl, rfl, rest, ?_⟩
            · rw [List.append_nil]
              exact running.notDone
            · rw [List.append_nil]
              exact before
            · rw [List.append_nil]
              exact running.totals
            · have pair : List.flatMap emit ([] ++ [usage, doneText]) = emit usage ++ emit doneText :=
                congrArg (emit usage ++ ·) (List.append_nil _)
              exact congrArg (· ++ later) pair.symm
      · obtain ⟨runningNext, rfl⟩ := running.releases isDone step
        have head : ∀ more : List (List Char), (relayed parts data).toList.flatMap emit ++
            (more.filterMap (relayed parts)).flatMap emit =
              ((data :: more).filterMap (relayed parts)).flatMap emit := by
          intro more
          rw [← List.flatMap_append, List.filterMap_cons]
          cases relayed parts data with
          | none => rfl
          | some payload => rfl
        rcases ih runningNext rest with ⟨runningLast, rfl⟩ |
          ⟨before, after, last, middle, quietOutput, rfl, notDone, held, billable, done, none, more,
            rfl⟩
        · rw [List.append_assoc] at runningLast
          exact .inl ⟨runningLast, head lines⟩
        · rw [List.append_assoc] at notDone held billable
          refine .inr ⟨data :: before, after, last, middle, quietOutput, rfl, notDone, held, billable,
            done, none, more, ?_⟩
          rw [List.flatMap_append, List.flatMap_append, ← head before]
          simp only [List.append_assoc]

/-- Releasing leaves the key and the pending bytes alone. -/
theorem Releases.frame {state next : StreamDecryptor Key} {data : List Char} {output : Bytes}
    (released : Releases parts state data next output) :
    next.streamKey = state.streamKey ∧ next.pending = state.pending := by
  cases released with
  | done | usage | content => exact ⟨rfl, rfl⟩

/-- A release leaves the key and the bytes pending. -/
theorem releaseEach_frame {lines : List (List Char)} {state next : StreamDecryptor Key}
    {output : Bytes} (released : releaseEach parts model state lines = .ok (next, output)) :
    next.streamKey = state.streamKey ∧ next.pending = state.pending := by
  induction lines generalizing state output with
  | nil =>
      cases released
      exact ⟨rfl, rfl⟩
  | cons data lines ih =>
      obtain ⟨⟨middle, here⟩, first, released⟩ := bind_eq_ok.mp released
      obtain ⟨⟨last, later⟩, rest, same⟩ := bind_eq_ok.mp released
      cases same
      rw [(ih rest).1, (ih rest).2]
      exact (releases_of_ok first).frame

/-! ### Sealed texts -/

/-- A data line is of one line of the text, which has the letters of its name. -/
theorem mem_dataLines {text data : List Char} (mem : data ∈ dataLines text) :
    '\n' ∉ data ∧ 'd' ∈ text := by
  obtain ⟨line, here, holds⟩ := List.mem_filterMap.mp mem
  obtain ⟨rest, stripped, rfl⟩ := Option.map_eq_some_iff.mp holds
  have split := stripPrefix_eq_some.mp stripped
  have within : ∀ c ∈ "data:".toList ++ rest, c ∈ line :=
    fun c mem => trimEnd_subset line (split ▸ mem)
  constructor
  · intro lf
    exact (mem_lines here).1 (within _ (List.mem_append_right _ (trimStart_subset rest lf)))
  · exact mem_of_mem_lines here (within _ (List.mem_append_left _ (by decide)))

/-- A blank text has no data lines. -/
theorem dataLines_blank {text : List Char} (blank : trim text = []) : dataLines text = [] := by
  rw [List.eq_nil_iff_forall_not_mem]
  intro data mem
  have white := isWhitespace_of_trim blank 'd' (mem_dataLines mem).2
  exact absurd white (by decide)

/-- The state after the `[DONE]` of one of the texts. -/
structure Finished (parts : StreamParts Key) (texts payloads : List (List Char)) : Prop where
  ended : ∃ before after last more, texts.flatMap dataLines = before ++ doneText :: after ∧
    doneText ∉ before ∧ (∃ first, before = first ++ [last]) ∧
    (∃ total, Billable parts last total ∧ ∀ data ∈ before, TotalsAtMost parts total data) ∧
    payloads = before.filterMap (relayed parts) ++ [last, doneText] ++ more ∧
    (more = [] ↔ ∀ text ∈ texts, Quiet parts text)

/-- What a stream comes to by the texts it has sealed so far. -/
structure Progress (parts : StreamParts Key) (texts : List (List Char))
    (state : StreamDecryptor Key) (payloads : List (List Char)) : Prop where
  oneLine : ∀ payload ∈ payloads, '\n' ∉ payload
  either : (Running parts (texts.flatMap dataLines) state ∧
      payloads = (texts.flatMap dataLines).filterMap (relayed parts)) ∨
    (state.done = true ∧ Finished parts texts payloads)

theorem quiet_of_absent {text : List Char} (absent : doneText ∉ dataLines text) :
    Quiet parts text := by
  intro before after split
  refine absurd ?_ absent
  rw [split]
  exact List.mem_append_right _ List.mem_cons_self

/-- A text is quiet exactly if its first `[DONE]` is. -/
theorem quiet_iff {text : List Char} {before after : List (List Char)}
    (split : dataLines text = before ++ doneText :: after) (first : doneText ∉ before) :
    Quiet parts text ↔ ∀ data ∈ after, data ≠ doneText ∧ isUsageFrame parts data = true := by
  constructor
  · intro quiet
    exact quiet before after split
  · intro frames before' after' split'
    have noneLater : doneText ∉ after := fun mem => (frames doneText mem).1 rfl
    have only : before' = before := by
      have same := split'.symm.trans split
      rcases List.append_eq_append_iff.mp same with ⟨more, rfl, here⟩ | ⟨more, rfl, here⟩
      · cases more with
        | nil => exact (List.append_nil _).symm
        | cons data more =>
            obtain ⟨rfl, -⟩ := List.cons.inj here
            exact absurd (List.mem_append_right _ List.mem_cons_self) first
      · cases more with
        | nil => exact List.append_nil _
        | cons data more =>
            obtain ⟨rfl, rfl⟩ := List.cons.inj here
            exact absurd (List.mem_append_right _ List.mem_cons_self) noneLater
    subst only
    have same := split'.symm.trans split
    rw [List.append_cancel_left_eq, List.cons.injEq] at same
    rw [same.2]
    exact frames

/-- What is relayed is of one line each. -/
theorem relayed_oneLine (faithful : parts.Faithful) (lines : List (List Char)) :
    ∀ payload ∈ lines.filterMap (relayed parts), '\n' ∉ payload := by
  intro payload mem
  obtain ⟨data, -, relays⟩ := List.mem_filterMap.mp mem
  unfold relayed at relays
  split at relays
  · cases relays
  · obtain ⟨chunk, -, rfl⟩ := Option.map_eq_some_iff.mp relays
    exact faithful.oneLine _

/-- A sealed text, while the stream runs. -/
theorem Progress.text (faithful : parts.Faithful) {texts payloads : List (List Char)}
    {state next : StreamDecryptor Key} {text : List Char} {output : Bytes}
    (progress : Progress parts texts state payloads)
    (blank : state.done = true → trim text = [])
    (released : releaseEach parts model state (dataLines text) = .ok (next, output)) :
    ∃ more, output = more.flatMap emit ∧ Progress parts (texts ++ [text]) next (payloads ++ more) := by
  have one : ∀ data ∈ dataLines text, '\n' ∉ data := fun data mem => (mem_dataLines mem).1
  have lines : (texts ++ [text]).flatMap dataLines = texts.flatMap dataLines ++ dataLines text := by
    rw [List.flatMap_append, List.flatMap_singleton]
  rcases progress.either with ⟨running, rfl⟩ | ⟨done, finished⟩
  · -- Before the done frame: this text passes without it, or has it at one of its lines.
    rcases running.releaseEach released with ⟨runningNext, rfl⟩ |
      ⟨before, after, last, middle, quietOutput, split, notDone, held, billable, done, none, more,
        rfl⟩
    · refine ⟨_, rfl, ?_, .inl ⟨lines ▸ runningNext, ?_⟩⟩
      · exact List.forall_mem_append.mpr ⟨progress.oneLine, relayed_oneLine faithful _⟩
      · rw [lines, List.filterMap_append]
    · obtain ⟨doneNext, payloads, rfl, oneMore, quiet⟩ := releaseEach_quiet faithful more
        (fun data mem => one data (split ▸ List.mem_append_right _ (List.mem_cons_of_mem _ mem)))
        (fun usage held => nomatch none.symm.trans held) done
      have lastLine : '\n' ∉ last := by
        obtain ⟨first, ends⟩ := held
        have mem : last ∈ texts.flatMap dataLines ++ before := ends ▸ List.mem_concat_self
        rcases List.mem_append.mp mem with earlier | here
        · obtain ⟨text, -, inText⟩ := List.mem_flatMap.mp earlier
          exact (mem_dataLines inText).1
        · exact one last (split ▸ List.mem_append_left _ here)
      refine ⟨before.filterMap (relayed parts) ++ [last, doneText] ++ payloads, ?_, ?_,
        .inr ⟨doneNext, ⟨texts.flatMap dataLines ++ before, after, last, payloads, ?_, notDone, held,
          billable, ?_, ?_⟩⟩⟩
      · rw [@List.flatMap_append _ _ (_ ++ _)]
      · refine List.forall_mem_append.mpr ⟨progress.oneLine, List.forall_mem_append.mpr
          ⟨List.forall_mem_append.mpr ⟨relayed_oneLine faithful _, ?_⟩, oneMore⟩⟩
        intro payload mem
        rcases List.mem_cons.mp mem with rfl | mem
        · exact lastLine
        · rw [List.mem_singleton.mp mem]
          decide
      · rw [lines, split, List.append_assoc]
      · rw [List.filterMap_append]
        simp only [List.append_assoc]
      · have earlier : ∀ text ∈ texts, Quiet parts text := by
          intro text mem
          exact quiet_of_absent fun here => running.notDone (List.mem_flatMap.mpr ⟨text, mem, here⟩)
        rw [quiet, List.forall_mem_append, List.forall_mem_singleton, quiet_iff split fun mem =>
          notDone (List.mem_append_right _ mem)]
        exact ⟨fun frames => ⟨earlier, frames⟩, And.right⟩
  · -- After it the source lets through only what is blank.
    have noLines := dataLines_blank (blank done)
    rw [noLines] at released
    cases released
    refine ⟨[], rfl, ?_, .inr ⟨done, ?_⟩⟩
    · rw [List.append_nil]
      exact progress.oneLine
    · obtain ⟨before, after, last, more, split, notDone, held, billable, same, quiet⟩ := finished.ended
      refine ⟨before, after, last, more, ?_, notDone, held, billable, ?_, ?_⟩
      · rw [lines, noLines, List.append_nil, split]
      · rw [List.append_nil, same]
      · have here : Quiet parts text := quiet_of_absent (noLines ▸ List.not_mem_nil)
        rw [quiet, List.forall_mem_append, List.forall_mem_singleton]
        exact ⟨fun earlier => ⟨earlier, here⟩, And.left⟩

/-! ### Upstream lines -/

/-- The progress is of the flags and the usage alone. -/
theorem Progress.frame {texts payloads : List (List Char)} {state next : StreamDecryptor Key}
    (progress : Progress parts texts state payloads) (done : next.done = state.done)
    (total : next.usageTotal = state.usageTotal) (held : next.heldUsage = state.heldUsage) :
    Progress parts texts next payloads := by
  refine ⟨progress.oneLine, ?_⟩
  rcases progress.either with ⟨running, same⟩ | ⟨isDone, finished⟩
  · refine .inl ⟨⟨done.trans running.done, running.notDone, ?_, ?_⟩, same⟩
    · rw [total]
      exact running.totals
    · rw [total, held]
      exact running.held
  · exact .inr ⟨done.trans isDone, finished⟩

/-- An upstream line: what it seals is released. -/
theorem Progress.line (faithful : parts.Faithful) {texts payloads : List (List Char)}
    {state next : StreamDecryptor Key} {line : Bytes} {text : String} {output : Bytes}
    (progress : Progress parts texts state payloads) (read : fromUtf8 line = some text)
    (relayed : relayEvent parts model state (trimEnd text.toList) = .ok (next, output)) :
    ∃ opened more, output = more.flatMap emit ∧
      Progress parts (texts ++ opened) next (payloads ++ more) ∧ next.pending = state.pending ∧
      ∀ later, sealedTexts parts state.streamKey (line :: later) =
        opened ++ sealedTexts parts next.streamKey later := by
  have nothing : ∀ {next : StreamDecryptor Key}, Progress parts texts next payloads →
      ∃ more : List (List Char), ([] : Bytes) = more.flatMap emit ∧
        Progress parts (texts ++ []) next (payloads ++ more) := by
    intro next progress
    exact ⟨[], rfl, by rw [List.append_nil, List.append_nil]; exact progress⟩
  simp only [sealedTexts, read, Option.map_some]
  unfold relayEvent at relayed
  cases event : readRelayEvent parts (trimEnd text.toList) with
  | nothing =>
      rw [event] at relayed
      cases relayed
      obtain ⟨more, output, next⟩ := nothing progress
      exact ⟨[], more, output, next, rfl, fun _ => rfl⟩
  | done =>
      rw [event] at relayed
      obtain ⟨-, -, same⟩ := bind_eq_ok.mp relayed
      cases same
      obtain ⟨more, output, next⟩ := nothing progress
      exact ⟨[], more, output, next, rfl, fun _ => rfl⟩
  | init value =>
      rw [event] at relayed
      obtain ⟨-, -, relayed⟩ := bind_eq_ok.mp relayed
      obtain ⟨init, isText, relayed⟩ := bind_eq_ok.mp relayed
      obtain ⟨key, derived, same⟩ := bind_eq_ok.mp relayed
      cases same
      have kept : Progress parts texts { state with streamKey := some key } payloads :=
        progress.frame rfl rfl rfl
      obtain ⟨more, output, next⟩ := nothing kept
      refine ⟨[], more, output, next, rfl, fun later => ?_⟩
      dsimp only
      rw [required_eq_ok.mp isText, Option.bind_some, required_eq_ok.mp derived]
      rfl
  -- The only event that opens a text; the key it is opened with stays.
  | chunk value =>
      rw [event] at relayed
      obtain ⟨key, held, relayed⟩ := bind_eq_ok.mp relayed
      obtain ⟨chunk, isText, relayed⟩ := bind_eq_ok.mp relayed
      obtain ⟨opened, decrypted, relayed⟩ := bind_eq_ok.mp relayed
      obtain ⟨⟨⟩, notAfter, relayed⟩ := bind_eq_ok.mp relayed
      rw [releaseAll_eq] at relayed
      have blank : state.done = true → trim opened = [] := by
        intro done
        have either := ensure_eq_ok.mp notAfter
        rw [done, Bool.not_true, Bool.false_or] at either
        exact List.isEmpty_iff.mp either
      obtain ⟨more, output, next⟩ := progress.text faithful blank relayed
      obtain ⟨sameKey, samePending⟩ := releaseEach_frame relayed
      refine ⟨[opened], more, output, next, samePending, fun later => ?_⟩
      dsimp only
      rw [required_eq_ok.mp held, Option.bind_some, required_eq_ok.mp isText, Option.bind_some,
        required_eq_ok.mp decrypted, sameKey, required_eq_ok.mp held]
      rfl
  | failed error =>
      rw [event] at relayed
      cases relayed

/-- Lines relayed go on with the progress. -/
theorem Progress.lines (faithful : parts.Faithful) {texts payloads : List (List Char)}
    {state next : StreamDecryptor Key} {lines : List Bytes} {output : Bytes}
    (progress : Progress parts texts state payloads)
    (relayed : relayAll parts model state lines = .ok (next, output)) :
    ∃ opened more, output = more.flatMap emit ∧
      Progress parts (texts ++ opened) next (payloads ++ more) ∧ next.pending = state.pending ∧
      ∀ later, sealedTexts parts state.streamKey (lines ++ later) =
        opened ++ sealedTexts parts next.streamKey later := by
  induction lines generalizing texts payloads state output with
  | nil =>
      cases relayed
      refine ⟨[], [], rfl, ?_, rfl, fun _ => rfl⟩
      rw [List.append_nil, List.append_nil]
      exact progress
  | cons line lines ih =>
      obtain ⟨text, read, relayed⟩ := bind_eq_ok.mp relayed
      obtain ⟨⟨middle, here⟩, first, relayed⟩ := bind_eq_ok.mp relayed
      obtain ⟨⟨last, later⟩, rest, same⟩ := bind_eq_ok.mp relayed
      cases same
      obtain ⟨opened, more, rfl, progressNext, keptFirst, sealed⟩ :=
        progress.line faithful (required_eq_ok.mp read) first
      obtain ⟨openedLater, moreLater, rfl, progressLast, kept, sealedLater⟩ := ih progressNext rest
      refine ⟨opened ++ openedLater, more ++ moreLater, ?_, ?_, ?_, ?_⟩
      · rw [List.flatMap_append]
      · rw [← List.append_assoc, ← List.append_assoc]
        exact progressLast
      · rw [kept, keptFirst]
      · intro later
        rw [List.cons_append, sealed, sealedLater, List.append_assoc]

/-- So do pieces fed. -/
theorem Progress.pieces (faithful : parts.Faithful) {texts payloads : List (List Char)}
    {state next : StreamDecryptor Key} {pieces : List Bytes} {output : Bytes}
    (progress : Progress parts texts state payloads)
    (fed : feedAll parts model state pieces = .ok (next, output)) :
    ∃ more, output = more.flatMap emit ∧
      Progress parts (texts ++ sealedTexts parts state.streamKey
        (completeLines state.pending pieces)) next (payloads ++ more) := by
  induction pieces generalizing texts payloads state output with
  | nil =>
      cases fed
      refine ⟨[], rfl, ?_⟩
      rw [completeLines, sealedTexts, List.append_nil, List.append_nil]
      exact progress
  | cons bytes pieces ih =>
      obtain ⟨⟨middle, here⟩, first, fed⟩ := bind_eq_ok.mp fed
      obtain ⟨⟨last, later⟩, rest, same⟩ := bind_eq_ok.mp fed
      cases same
      obtain ⟨⟨relayed, emitted⟩, relays, first⟩ := bind_eq_ok.mp first
      obtain ⟨-, -, same⟩ := bind_eq_ok.mp first
      cases same
      have kept : Progress parts texts
          { state with pending := (drainLines (state.pending ++ bytes)).2 } payloads :=
        progress.frame rfl rfl rfl
      obtain ⟨opened, more, rfl, progressNext, pending, sealed⟩ := kept.lines faithful relays
      obtain ⟨moreLater, rfl, progressLast⟩ := ih progressNext rest
      refine ⟨more ++ moreLater, ?_, ?_⟩
      · rw [List.flatMap_append]
      · rw [pending] at progressLast
        rw [completeLines, sealed, ← List.append_assoc, ← List.append_assoc]
        exact progressLast

/-! ### The output -/

/-- The characters of an event. -/
private def eventChars (data : List Char) : List Char :=
  ['d', 'a', 't', 'a', ':', ' '] ++ data ++ ['\n', '\n']

/-- The events emitted are the bytes of their characters. -/
private theorem flatMap_emit (payloads : List (List Char)) :
    payloads.flatMap emit = asBytes (String.ofList (payloads.flatMap eventChars)) := by
  induction payloads with
  | nil => rfl
  | cons payload payloads ih =>
      have chars : "data: " ++ String.ofList payload ++ "\n\n" =
          String.ofList (eventChars payload) := by
        unfold eventChars
        rw [String.ofList_append, String.ofList_append]
      rw [List.flatMap_cons, List.flatMap_cons, ih, String.ofList_append, asBytes_append]
      unfold emit
      rw [chars]

private theorem eventChars_append (payload rest : List Char) :
    eventChars payload ++ rest =
      ['d', 'a', 't', 'a', ':', ' '] ++ (payload ++ '\n' :: '\n' :: rest) := by
  simp only [eventChars, List.append_assoc, List.cons_append, List.nil_append]

/-- Events are told apart, as long as their data is on one line. -/
theorem flatMap_emit_injective {payloads others : List (List Char)}
    (one : ∀ payload ∈ payloads, '\n' ∉ payload) (oneOther : ∀ payload ∈ others, '\n' ∉ payload)
    (same : payloads.flatMap emit = others.flatMap emit) : payloads = others := by
  rw [flatMap_emit, flatMap_emit] at same
  have chars := String.ofList_injective (asBytes_injective same)
  clear same
  induction payloads generalizing others with
  | nil =>
      cases others with
      | nil => rfl
      | cons other others => cases chars
  | cons payload payloads ih =>
      cases others with
      | nil => cases chars
      | cons other others =>
          obtain ⟨here, later⟩ := List.forall_mem_cons.mp one
          obtain ⟨hereOther, laterOther⟩ := List.forall_mem_cons.mp oneOther
          rw [List.flatMap_cons, List.flatMap_cons, eventChars_append, eventChars_append,
            List.append_cancel_left_eq] at chars
          obtain ⟨rfl, rest⟩ := append_cons_inj here hereOther chars
          rw [ih later laterOther (List.cons.inj rest).2]

/-- A usage frame with integer counts, and a total that is their sum. -/
def TerminalUsage (parts : StreamParts Key) (data : List Char) (total : Nat) : Prop :=
  ∃ chunk usage prompt completion, parts.fromStr data = some chunk ∧
    usageOf chunk = some usage ∧ contentFree chunk = true ∧
    countOf usage "prompt_tokens" = some prompt ∧
    countOf usage "completion_tokens" = some completion ∧
    (∀ sum, usage.get "total_tokens" = some sum → sum.asU64 = some (prompt + completion)) ∧
    usageTotal usage = total

/-- Usage that is billed is the last one. -/
theorem Billable.terminal {data : List Char} {total : Nat} (billable : Billable parts data total) :
    TerminalUsage parts data total := by
  obtain ⟨chunk, usage, read, carries, free, billable, same⟩ := billable
  obtain ⟨prompt, prompts, billable⟩ := bind_eq_ok.mp billable
  obtain ⟨completion, completions, billable⟩ := bind_eq_ok.mp billable
  refine ⟨chunk, usage, prompt, completion, read, carries, free, required_eq_ok.mp prompts,
    required_eq_ok.mp completions, ?_, same⟩
  intro sum given
  rw [given, if_pos Option.isSome_some] at billable
  obtain ⟨counted, counts, equal⟩ := bind_eq_ok.mp billable
  have counts := required_eq_ok.mp counts
  rw [countOf, given, Option.bind_some] at counts
  have equal := beq_iff_eq.mp (ensure_eq_ok.mp equal)
  unfold checkedAdd at equal
  split at equal
  · rw [counts, equal]
  · cases equal

theorem get_withoutUsage (chunk : Value) : (withoutUsage chunk).get "usage" = none := by
  cases chunk with
  | object members => exact Value.lookup_removeMember_self "usage" members
  | null | bool | number | string | array => rfl

/-- What is relayed is a chunk without its usage. -/
theorem exists_chunk_of_relayed {lines : List (List Char)} {payload : List Char}
    (mem : payload ∈ lines.filterMap (relayed parts)) :
    ∃ chunk, payload = parts.toString chunk ∧ chunk.get "usage" = none := by
  obtain ⟨data, -, relays⟩ := List.mem_filterMap.mp mem
  unfold relayed at relays
  split at relays
  · cases relays
  · obtain ⟨chunk, -, rfl⟩ := Option.map_eq_some_iff.mp relays
    exact ⟨withoutUsage chunk, rfl, get_withoutUsage chunk⟩

/-- How a stream should end: relayed chunks without usage, the usage frame that is
billed on, `[DONE]`, and nothing more. -/
def EndsWithDone (parts : StreamParts Key) (texts : List (List Char)) (output : Bytes) : Prop :=
  ∃ before after contents last total,
    texts.flatMap dataLines = before ++ doneText :: after ∧ doneText ∉ before ∧
    output = (contents ++ [last, doneText]).flatMap emit ∧
    (∀ payload ∈ contents ++ [last], '\n' ∉ payload ∧ payload ≠ doneText) ∧
    contents = before.filterMap (relayed parts) ∧
    (∀ payload ∈ contents, ∃ chunk, payload = parts.toString chunk ∧ chunk.get "usage" = none) ∧
    last ∈ before ∧ TerminalUsage parts last total ∧
    ∀ data ∈ before, TotalsAtMost parts total data

/-! ### A small stream -/

def usageFrame : Value :=
  .object [("choices", .array []),
    ("usage", .object [("prompt_tokens", .number (.posInt 1)),
      ("completion_tokens", .number (.posInt 2))])]

def usageFrameText : String :=
  "\x7b\"choices\":[],\"usage\":\x7b\"prompt_tokens\":1,\"completion_tokens\":2\x7d\x7d"

def contentText : String := "\x7b\"choices\":[null]\x7d"

/-- The upstream event that seals the chunk of a name. -/
def sealedEvent (name : String) : String := "\x7b\"e2e\":\"" ++ name ++ "\"\x7d"

/-- Chunks that are sealed under their names, and the JSON of the streams of them. -/
def smallParts : StreamParts Unit where
  fromStr text :=
    if text = "\x7b\"e2e_init\":\"k\"\x7d".toList then some (.object [("e2e_init", .string "k")])
    else if text = (sealedEvent "usage").toList then some (.object [("e2e", .string "usage")])
    else if text = (sealedEvent "done").toList then some (.object [("e2e", .string "done")])
    else if text = (sealedEvent "late").toList then some (.object [("e2e", .string "late")])
    else if text = usageFrameText.toList then some usageFrame
    else if text = contentText.toList then some (.object [("choices", .array [.null])])
    else none
  toString _ := contentText.toList
  streamKey _ := some ()
  decryptChunk _ name :=
    if name = "usage" then some ("data: " ++ usageFrameText ++ "\n").toList
    else if name = "done" then some "data: [DONE]\n".toList
    else if name = "late" then some ("data: [DONE]\ndata: " ++ contentText ++ "\n").toList
    else none

theorem smallParts_faithful : smallParts.Faithful where
  oneLine _ := by
    change '\n' ∉ contentText.toList
    decide
  notDone _ := by
    change contentText.toList ≠ doneText
    decide

/-- The key and then chunks, each in an upstream event. -/
def smallStream (names : List String) : List Bytes :=
  asBytes "data: \x7b\"e2e_init\":\"k\"\x7d\n\n" ::
    names.map fun name => asBytes ("data: " ++ sealedEvent name ++ "\n\n")

theorem eq_ok_of_toOption {Failure A : Type} {result : Except Failure A} {value : A}
    (same : result.toOption = some value) : result = .ok value := by
  cases result with
  | error failure => cases same
  | ok held =>
      cases same
      rfl

/-- A stream that is decrypted without an error ends as it should exactly if no sealed
text has anything but usage frames behind its `[DONE]`. -/
theorem releases_end_with_done (faithful : parts.Faithful) (model : String) (pieces : List Bytes)
    {output : Bytes} (decrypted : decryptStream parts model pieces = .ok output) :
    EndsWithDone parts (sealedTextsOf parts pieces) output ↔
      ∀ text ∈ sealedTextsOf parts pieces, Quiet parts text := by
  obtain ⟨⟨state, output⟩, fed, finished⟩ := bind_eq_ok.mp decrypted
  obtain ⟨⟨⟩, isDone, same⟩ := bind_eq_ok.mp finished
  cases same
  have start : Progress parts [] (.new Key) [] :=
    ⟨List.forall_mem_nil _, .inl ⟨⟨rfl, List.not_mem_nil, List.forall_mem_nil _, nofun⟩, rfl⟩⟩
  obtain ⟨payloads, rfl, progress⟩ := start.pieces faithful fed
  rw [List.nil_append, List.nil_append] at progress
  change Progress parts (sealedTextsOf parts pieces) state payloads at progress
  generalize sealedTextsOf parts pieces = texts at progress ⊢
  rcases progress.either with ⟨running, -⟩ | ⟨-, finished⟩
  · cases running.done.symm.trans (ensure_eq_ok.mp isDone)
  · obtain ⟨before, after, last, more, split, notDone, ⟨first, ends⟩, ⟨total, billable, totals⟩, rfl,
      quiet⟩ := finished.ended
    rw [← quiet]
    constructor
    · rintro ⟨before', after', contents, last', total', -, -, output, plain, -, -, -, -, -⟩
      have one : ∀ payload ∈ contents ++ [last', doneText], '\n' ∉ payload := by
        intro payload mem
        rcases List.mem_append.mp mem with inContents | tail
        · exact (plain payload (List.mem_append_left _ inContents)).1
        · rcases List.mem_cons.mp tail with rfl | isDone
          · exact (plain _ List.mem_concat_self).1
          · rw [List.mem_singleton.mp isDone]
            decide
      have same := flatMap_emit_injective progress.oneLine one output
      -- `[DONE]` stands before what is emitted behind it, but it may only come last.
      by_contra some_
      have cut := congrArg List.dropLast same
      have alone : contents ++ [last', doneText] = (contents ++ [last']) ++ [doneText] := by
        rw [List.append_assoc]
        rfl
      rw [List.dropLast_append_of_ne_nil some_, alone, List.dropLast_concat] at cut
      have inside : doneText ∈ contents ++ [last'] := by
        rw [← cut]
        exact List.mem_append_left _ (List.mem_append_right _ (List.mem_cons_of_mem _
          List.mem_cons_self))
      exact (plain doneText inside).2 rfl
    · rintro rfl
      have lastMem : last ∈ before := ends ▸ List.mem_concat_self
      refine ⟨before, after, _, last, total, split, notDone, by rw [List.append_nil], ?_, rfl, ?_,
        lastMem, billable.terminal, totals⟩
      · intro payload mem
        constructor
        · refine progress.oneLine payload ?_
          rw [List.append_nil]
          rcases List.mem_append.mp mem with inContents | isLast
          · exact List.mem_append_left _ inContents
          · rw [List.mem_singleton.mp isLast]
            exact List.mem_append_right _ List.mem_cons_self
        · rcases List.mem_append.mp mem with inContents | isLast
          · obtain ⟨chunk, rfl, -⟩ := exists_chunk_of_relayed inContents
            exact faithful.notDone _
          · rw [List.mem_singleton.mp isLast]
            rintro rfl
            exact notDone lastMem
      · intro payload mem
        exact exists_chunk_of_relayed mem

/-- What comes of the small streams, and what they seal. -/
theorem smallStreams_run :
    (decryptStream smallParts "m" (smallStream ["usage", "done"])).toOption =
        some (emit usageFrameText.toList ++ emit doneText) ∧
      (decryptStream smallParts "m" (smallStream ["usage", "late"])).toOption =
        some (emit usageFrameText.toList ++ emit doneText ++ emit contentText.toList) ∧
      sealedTextsOf smallParts (smallStream ["usage", "done"]) =
        [("data: " ++ usageFrameText ++ "\n").toList, "data: [DONE]\n".toList] ∧
      doneText ∉ dataLines ("data: " ++ usageFrameText ++ "\n").toList ∧
      dataLines "data: [DONE]\n".toList = [doneText] := by
  decide +kernel

/-- A usage frame and then `[DONE]`, each sealed by itself. -/
theorem releases_end_with_done_after_usage :
    ∃ output, decryptStream smallParts "m" (smallStream ["usage", "done"]) = .ok output ∧
      EndsWithDone smallParts (sealedTextsOf smallParts (smallStream ["usage", "done"])) output := by
  obtain ⟨run, -, texts, absent, ends⟩ := smallStreams_run
  have decrypted := eq_ok_of_toOption run
  refine ⟨_, decrypted, (releases_end_with_done smallParts_faithful "m" _ decrypted).mpr ?_⟩
  rw [texts]
  refine List.forall_mem_cons.mpr ⟨quiet_of_absent absent, List.forall_mem_singleton.mpr ?_⟩
  have split : dataLines "data: [DONE]\n".toList = [] ++ doneText :: [] := ends
  exact (quiet_iff split List.not_mem_nil).mpr (List.forall_mem_nil _)

/-- A chunk that seals content behind its `[DONE]` is released with it. -/
theorem sealed_content_after_done :
    ¬ ∀ (Key : Type) (parts : StreamParts Key), parts.Faithful → ∀ (model : String)
      (pieces : List Bytes) (output : Bytes), decryptStream parts model pieces = .ok output →
      EndsWithDone parts (sealedTextsOf parts pieces) output := by
  intro claim
  have decrypted := eq_ok_of_toOption smallStreams_run.2.1
  obtain ⟨before, after, contents, last, total, -, -, output, plain, -⟩ :=
    claim Unit smallParts smallParts_faithful "m" _ _ decrypted
  have three : [usageFrameText.toList, doneText, contentText.toList].flatMap emit =
      emit usageFrameText.toList ++ emit doneText ++ emit contentText.toList := by
    simp only [List.flatMap_cons, List.flatMap_nil, List.append_nil, List.append_assoc]
  have one : ∀ payload ∈ contents ++ [last, doneText], '\n' ∉ payload := by
    intro payload mem
    rcases List.mem_append.mp mem with inContents | tail
    · exact (plain payload (List.mem_append_left _ inContents)).1
    · rcases List.mem_cons.mp tail with rfl | isDone
      · exact (plain _ List.mem_concat_self).1
      · rw [List.mem_singleton.mp isDone]
        decide
  have frame : String.ofList _ = usageFrameText := rfl
  have content : String.ofList _ = contentText := rfl
  have oneLine : ∀ payload ∈ [usageFrameText.toList, doneText, contentText.toList],
      '\n' ∉ payload := by
    rw [toList_of frame, toList_of content]
    decide
  have same := flatMap_emit_injective oneLine one (three.trans output)
  have ends := congrArg List.getLast? same
  rw [List.getLast?_append] at ends
  exact smallParts_faithful.notDone .null (Option.some.inj ends)

end GmMiner.Chutes
