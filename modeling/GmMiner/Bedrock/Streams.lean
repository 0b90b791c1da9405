import GmMiner.Bedrock.StreamEvents

/-!
The two readers of a Bedrock Mantle stream (`validate_stream_identity` and
`guard_stream` of `attestd/src/bedrock_mantle.rs`).

A source is what the transport yields: pieces of the body, in any sizes, and perhaps a
failure. Each reader keeps the bytes of a frame that is not complete yet. `searchFrames`
and `followFrames` are what their inner loops do frame by frame; that the loops do just
this, wherever the pieces are cut, is `scanPreamble_eq` and `guardFrames_eq`.
-/

namespace GmMiner.Bedrock

open GmMiner.Lib GmMiner.Json

/-- `MAX_STREAM_PREAMBLE`. -/
def maxStreamPreamble : Nat := 64 * 1024

/-- `MAX_STREAM_FRAME`. -/
def maxStreamFrame : Nat := 4 * 1024 * 1024

/-- `MAX_RESPONSE_BODY`. -/
def maxResponseBody : Nat := 32 * 1024 * 1024

/-- The pieces of a body, and a failure of the transport. -/
abbrev Source := List (Except Unit Bytes)

theorem findSseFrame_bounds {bytes : Bytes} {frameEnd separatorEnd : Nat}
    (found : findSseFrame bytes = some (frameEnd, separatorEnd)) :
    0 < separatorEnd ∧ separatorEnd ≤ bytes.length := by
  rw [findSseFrame_eq] at found
  obtain ⟨ordered, within⟩ := Delimiter.first_bounds found
  exact ⟨Nat.zero_lt_of_lt ordered, within⟩

variable (serde : SerdeJson)

/-! ### The preamble -/

/-- What the search of the preamble comes to: it needs more bytes, or it has the
preamble with its rewritten start. -/
inductive Preamble
  | more (scanned preambleBytes : Nat)
  | found (preamble : Bytes)

/-- The inner loop of `validate_stream_identity`. -/
def scanPreamble (expectedRawModel canonicalModel : String) (buffer : Bytes)
    (scanned preambleBytes : Nat) : Except Reject Preamble :=
  match _found : findSseFrame (buffer.drop scanned) with
  | none =>
      if buffer.length - scanned > maxStreamPreamble ∨
          preambleBytes + (buffer.length - scanned) > maxStreamPreamble then
        .error .upstream
      else .ok (.more scanned preambleBytes)
  | some (frameEnd, separatorEnd) =>
      let afterFrame := scanned + separatorEnd
      let frame := (buffer.drop scanned).take frameEnd
      let preambleBytes := preambleBytes + (afterFrame - scanned)
      if preambleBytes > maxStreamPreamble then .error .upstream
      else
        match parseSsePreambleFrame serde frame expectedRawModel canonicalModel with
        | .error reject => .error reject
        | .ok .other =>
            scanPreamble expectedRawModel canonicalModel buffer afterFrame preambleBytes
        | .ok (.messageStart canonicalFrame) =>
            .ok (.found (buffer.take scanned ++ canonicalFrame ++ buffer.drop afterFrame))
termination_by buffer.length - scanned
decreasing_by
  obtain ⟨some_, within⟩ := findSseFrame_bounds _found
  rw [List.length_drop] at within
  omega

/-- `validate_stream_identity`, from a buffer on. -/
def validateFrom (expectedRawModel canonicalModel : String) (buffer : Bytes)
    (scanned preambleBytes : Nat) : Source → Except Reject (Bytes × Source)
  | [] => .error .upstream
  | .error _ :: _ => .error .upstreamTransport
  | .ok chunk :: source =>
      let buffer := buffer ++ chunk
      match scanPreamble serde expectedRawModel canonicalModel buffer scanned preambleBytes with
      | .error reject => .error reject
      | .ok (.found preamble) => .ok (preamble, source)
      | .ok (.more scanned preambleBytes) =>
          if buffer.length - scanned > maxStreamPreamble then .error .upstream
          else validateFrom expectedRawModel canonicalModel buffer scanned preambleBytes source

/-- `validate_stream_identity`. -/
def validateStreamIdentity (source : Source) (expectedRawModel canonicalModel : String) :
    Except Reject (Bytes × Source) :=
  validateFrom serde expectedRawModel canonicalModel [] 0 0 source

/-! ### The guard -/

/-- Why a response body ended early. -/
inductive StreamEnd
  | responseBodyLimit
  | dataAfterTerminal
  | invalidEvent
  | frameLimit
  | missingTerminal
  | upstreamInterrupted
  deriving DecidableEq, Repr

/-- What the guard keeps between pieces. -/
structure Guarding where
  pending : Bytes
  total : Nat
  started : Bool
  terminal : Bool

/-- What an event makes of `started` and `terminal`, if it may come there. -/
def follow (started terminal : Bool) : Except Reject StreamEvent → Option (Bool × Bool)
  | .ok .empty | .ok .ping | .ok .unknown => if !terminal then some (started, terminal) else none
  | .ok (.messageStart _) => if !started && !terminal then some (true, terminal) else none
  | .ok .messageStop | .ok .error => if started && !terminal then some (started, true) else none
  | .ok .other => if started && !terminal then some (started, terminal) else none
  | .error _ => none

/-- The inner loop of `guard_stream`. -/
def guardFrames (pending : Bytes) (scanned consumed : Nat) (started terminal : Bool) :
    Except StreamEnd (Nat × Bool × Bool) :=
  match _found : findSseFrame (pending.drop (max consumed scanned)) with
  | none => .ok (consumed, started, terminal)
  | some (frameEnd, separatorEnd) =>
      let base := max consumed scanned
      let start := consumed
      let frameEnd := base + frameEnd
      let afterFrame := base + separatorEnd
      if frameEnd - start > maxStreamFrame then .error .frameLimit
      else
        match follow started terminal
          (parseStreamEvent serde ((pending.drop start).take (frameEnd - start))) with
        | none => .error .invalidEvent
        | some (started, terminal) =>
            if terminal ∧ afterFrame < pending.length then .error .dataAfterTerminal
            else guardFrames pending scanned afterFrame started terminal
termination_by pending.length - consumed
decreasing_by
  obtain ⟨some_, within⟩ := findSseFrame_bounds _found
  rw [List.length_drop] at within
  omega

/-- What `guard_stream` does with a piece. -/
def guardChunk (state : Guarding) (chunk : Bytes) : Except StreamEnd Guarding :=
  let total := state.total + chunk.length
  if total > maxResponseBody then .error .responseBodyLimit
  else if state.terminal && !chunk.isEmpty then .error .dataAfterTerminal
  else
    let scanned := state.pending.length - 3
    let pending := state.pending ++ chunk
    match guardFrames serde pending scanned 0 state.started state.terminal with
    | .error reason => .error reason
    | .ok (consumed, started, terminal) =>
        if pending.length - consumed > maxStreamFrame then .error .frameLimit
        else .ok ⟨pending.drop consumed, total, started, terminal⟩

/-- `guard_stream`, from a state on: what it yields. -/
def guardFrom (state : Guarding) : Source → List (Except StreamEnd Bytes)
  | [] => if state.terminal && state.pending.isEmpty then [] else [.error .missingTerminal]
  | .error _ :: _ => [.error .upstreamInterrupted]
  | .ok chunk :: source =>
      match guardChunk serde state chunk with
      | .error reason => [.error reason]
      | .ok next => .ok chunk :: guardFrom next source

/-- `guard_stream`. -/
def guardStream (source : Source) : List (Except StreamEnd Bytes) :=
  guardFrom serde ⟨[], 0, false, false⟩ source

/-- A streaming response: its body, unless the preamble is rejected. -/
def streamBody (source : Source) (expectedRawModel canonicalModel : String) :
    Except Reject (List (Except StreamEnd Bytes)) := do
  let (preamble, source) ← validateStreamIdentity serde source expectedRawModel canonicalModel
  pure (guardStream serde (.ok preamble :: source))

/-! ### Frame by frame -/

/-- The search of the preamble over complete frames and an incomplete rest. -/
def searchFrames (expectedRawModel canonicalModel : String) (rest : Bytes) (before : Bytes)
    (preambleBytes : Nat) : List SseFrame → Except Reject Preamble
  | [] =>
      if rest.length > maxStreamPreamble ∨ preambleBytes + rest.length > maxStreamPreamble then
        .error .upstream
      else .ok (.more before.length preambleBytes)
  | frame :: frames =>
      if preambleBytes + frame.symbols.length > maxStreamPreamble then .error .upstream
      else
        match parseSsePreambleFrame serde frame.text expectedRawModel canonicalModel with
        | .error reject => .error reject
        | .ok .other =>
            searchFrames expectedRawModel canonicalModel rest (before ++ frame.symbols)
              (preambleBytes + frame.symbols.length) frames
        | .ok (.messageStart canonicalFrame) =>
            .ok (.found (before ++ canonicalFrame ++ (Frame.stream frames ++ rest)))

/-- The scan over bytes is the search over the frames they hold. -/
theorem scanPreamble_eq (expected canonical : String) {rest : Bytes}
    (absent : separator.first rest = none) (frames : List SseFrame) (before : Bytes)
    (preambleBytes : Nat) :
    scanPreamble serde expected canonical (before ++ (Frame.stream frames ++ rest)) before.length
        preambleBytes =
      searchFrames serde expected canonical rest before preambleBytes frames := by
  induction frames generalizing before preambleBytes with
  | nil =>
      rw [scanPreamble]
      split
      · have left : (before ++ (Frame.stream ([] : List SseFrame) ++ rest)).length -
            before.length = rest.length := by
          rw [List.length_append, Nat.add_sub_cancel_left]
          rfl
        rw [left]
        rfl
      · rename_i frameEnd separatorEnd found
        rw [List.drop_left, findSseFrame_eq] at found
        cases absent.symm.trans found
  | cons frame frames ih =>
      have found : findSseFrame
          ((before ++ (Frame.stream (frame :: frames) ++ rest)).drop before.length) =
            some (frame.text.length, frame.symbols.length) := by
        rw [List.drop_left, findSseFrame_eq, Frame.stream_cons, List.append_assoc]
        exact frame.first_symbols_append _
      have cut : ((before ++ (Frame.stream (frame :: frames) ++ rest)).drop before.length).take
          frame.text.length = frame.text := by
        rw [List.drop_left, Frame.stream_cons, Frame.symbols, List.append_assoc, List.append_assoc]
        exact List.take_left
      have regrouped : before ++ (Frame.stream (frame :: frames) ++ rest) =
          (before ++ frame.symbols) ++ (Frame.stream frames ++ rest) := by
        rw [Frame.stream_cons]
        simp only [List.append_assoc]
      rw [scanPreamble]
      split
      · rename_i none
        cases found.symm.trans none
      · rename_i frameEnd separatorEnd found'
        cases found.symm.trans found'
        dsimp only
        rw [cut, searchFrames, Nat.add_sub_cancel_left]
        -- Both stop at the same frame, by its length or by what it says; else both go on behind it.
        by_cases long : preambleBytes + frame.symbols.length > maxStreamPreamble
        · rw [if_pos long, if_pos long]
        · rw [if_neg long, if_neg long]
          cases parseSsePreambleFrame serde frame.text expected canonical with
          | error reject => rfl
          | ok event =>
              cases event with
              | other =>
                  dsimp only
                  rw [← ih, ← regrouped, List.length_append]
              | messageStart canonicalFrame =>
                  dsimp only
                  rw [List.take_left, regrouped, ← List.length_append, List.drop_left]

/-- The guard's loop over complete frames and an incomplete rest. -/
def followFrames (rest : Bytes) (started terminal : Bool) : List SseFrame →
    Except StreamEnd (Bool × Bool)
  | [] => .ok (started, terminal)
  | frame :: frames =>
      if frame.text.length > maxStreamFrame then .error .frameLimit
      else
        match follow started terminal (parseStreamEvent serde frame.text) with
        | none => .error .invalidEvent
        | some (started, terminal) =>
            if terminal ∧ Frame.stream frames ++ rest ≠ [] then .error .dataAfterTerminal
            else followFrames rest started terminal frames

/-- The guard over bytes follows the frames they hold. -/
theorem guardFrames_eq {rest : Bytes} (absent : separator.first rest = none)
    (frames : List SseFrame) (before : Bytes) (scanned : Nat) (started terminal : Bool)
    (searched : (separator.first ((before ++ (Frame.stream frames ++ rest)).drop
        (max before.length scanned))).map
          (fun found => (max before.length scanned + found.1, max before.length scanned + found.2)) =
      (separator.first (Frame.stream frames ++ rest)).map
        fun found => (before.length + found.1, before.length + found.2)) :
    guardFrames serde (before ++ (Frame.stream frames ++ rest)) scanned before.length started
        terminal =
      (followFrames serde rest started terminal frames).map fun left =>
        ((before ++ Frame.stream frames).length, left) := by
  induction frames generalizing before started terminal with
  | nil =>
      have nowhere : separator.first (Frame.stream ([] : List SseFrame) ++ rest) = none := absent
      rw [nowhere, Option.map_none, Option.map_eq_none_iff, ← findSseFrame_eq] at searched
      rw [guardFrames]
      split
      · rw [Frame.stream_nil, List.append_nil]
        rfl
      · rename_i frameEnd separatorEnd found
        cases searched.symm.trans found
  | cons frame frames ih =>
      have first : separator.first (Frame.stream (frame :: frames) ++ rest) =
          some (frame.text.length, frame.symbols.length) := by
        rw [Frame.stream_cons, List.append_assoc]
        exact frame.first_symbols_append _
      rw [first, Option.map_some, Option.map_eq_some_iff, ← findSseFrame_eq] at searched
      obtain ⟨⟨frameEnd, separatorEnd⟩, found, same⟩ := searched
      obtain ⟨sameFrame, sameSeparator⟩ := Prod.mk.inj same
      dsimp only at sameFrame sameSeparator
      have cut : ((before ++ (Frame.stream (frame :: frames) ++ rest)).drop before.length).take
          frame.text.length = frame.text := by
        rw [List.drop_left, Frame.stream_cons, Frame.symbols, List.append_assoc, List.append_assoc]
        exact List.take_left
      have regrouped : before ++ (Frame.stream (frame :: frames) ++ rest) =
          (before ++ frame.symbols) ++ (Frame.stream frames ++ rest) := by
        rw [Frame.stream_cons]
        simp only [List.append_assoc]
      rw [guardFrames]
      split
      · rename_i none
        cases none.symm.trans found
      · rename_i frameEnd' separatorEnd' found'
        cases found.symm.trans found'
        dsimp only
        rw [sameFrame, sameSeparator, Nat.add_sub_cancel_left, cut, followFrames]
        by_cases long : frame.text.length > maxStreamFrame
        · rw [if_pos long, if_pos long]
          rfl
        · rw [if_neg long, if_neg long]
          cases follow started terminal (parseStreamEvent serde frame.text) with
          | none => rfl
          | some state =>
              obtain ⟨started, terminal⟩ := state
              dsimp only
              have more : before.length + frame.symbols.length <
                  (before ++ (Frame.stream (frame :: frames) ++ rest)).length ↔
                    Frame.stream frames ++ rest ≠ [] := by
                rw [regrouped, List.length_append, List.length_append, List.length_append,
                  ← List.length_pos_iff, List.length_append]
                omega
              by_cases stops : terminal = true ∧ Frame.stream frames ++ rest ≠ []
              · rw [if_pos stops, if_pos ⟨stops.1, more.mpr stops.2⟩]
                rfl
              · rw [if_neg stops, if_neg fun both => stops ⟨both.1, more.mp both.2⟩]
                rw [regrouped, ← List.length_append, ih]
                · rw [Frame.stream_cons, List.append_assoc]
                · -- The next frame begins behind everything that was searched before.
                  have behind : max (before ++ frame.symbols).length scanned =
                      (before ++ frame.symbols).length := by
                    rw [List.length_append]
                    omega
                  rw [behind, List.drop_left]

/-! ### The guard, piece by piece -/

/-- What the events of the frames make of `started` and `terminal`, in turn. -/
def followed (state : Bool × Bool) (frames : List SseFrame) : Option (Bool × Bool) :=
  frames.foldlM (fun state frame => follow state.1 state.2 (parseStreamEvent serde frame.text)) state

section Guard

variable {serde}

@[simp] theorem followed_nil (state : Bool × Bool) : followed serde state [] = some state := rfl

theorem followed_cons (state : Bool × Bool) (frame : SseFrame) (frames : List SseFrame) :
    followed serde state (frame :: frames) =
      (follow state.1 state.2 (parseStreamEvent serde frame.text)).bind fun next =>
        followed serde next frames := rfl

theorem followed_append (state : Bool × Bool) (frames others : List SseFrame) :
    followed serde state (frames ++ others) =
      (followed serde state frames).bind fun next => followed serde next others :=
  List.foldlM_append

/-- Nothing follows the terminal event. -/
theorem follow_terminal (started : Bool) (event : Except Reject StreamEvent) :
    follow started true event = none := by
  cases event with
  | error reject => rfl
  | ok event =>
      cases event with
      | empty | ping | unknown => rfl
      | messageStart | messageStop | error | other =>
          cases started
          · rfl
          · rfl

theorem eq_nil_of_followed_terminal {started : Bool} {frames : List SseFrame} {left : Bool × Bool}
    (follows : followed serde (started, true) frames = some left) : frames = [] := by
  cases frames with
  | nil => rfl
  | cons frame frames =>
      rw [followed_cons, follow_terminal] at follows
      cases follows

/-- The frames pass exactly if none is too long and their events may follow each
other. -/
theorem followFrames_eq_ok {rest : Bytes} {frames : List SseFrame} {started terminal : Bool}
    {left : Bool × Bool} :
    followFrames serde rest started terminal frames = .ok left ↔
      (∀ frame ∈ frames, frame.text.length ≤ maxStreamFrame) ∧
        followed serde (started, terminal) frames = some left ∧
        (frames ≠ [] → left.2 = true → rest = []) := by
  induction frames generalizing started terminal with
  | nil =>
      unfold followFrames
      constructor
      · intro same
        cases same
        exact ⟨List.forall_mem_nil _, rfl, fun some_ => absurd rfl some_⟩
      · rintro ⟨-, same, -⟩
        cases same
        rfl
  | cons frame frames ih =>
      rw [followFrames, followed_cons, List.forall_mem_cons]
      by_cases long : frame.text.length > maxStreamFrame
      · rw [if_pos long]
        constructor
        · intro failed
          cases failed
        · rintro ⟨⟨short, -⟩, -⟩
          exact absurd long (Nat.not_lt.mpr short)
      · rw [if_neg long]
        have short := Nat.le_of_not_lt long
        cases event : follow started terminal (parseStreamEvent serde frame.text) with
        | none =>
            constructor
            · intro failed
              cases failed
            · rintro ⟨-, failed, -⟩
              cases failed
        | some next =>
            obtain ⟨started', terminal'⟩ := next
            dsimp only [Option.bind_some]
            -- After a terminal event nothing may follow, neither a frame nor the beginning of one.
            by_cases stops : terminal' = true ∧ Frame.stream frames ++ rest ≠ []
            · rw [if_pos stops]
              constructor
              · intro failed
                cases failed
              · rintro ⟨-, follows, ends⟩
                obtain ⟨rfl, more⟩ := stops
                have none := eq_nil_of_followed_terminal follows
                subst none
                cases follows
                exact absurd (ends (List.cons_ne_nil _ _) rfl) more
            · rw [if_neg stops, ih]
              constructor
              · rintro ⟨shorts, follows, ends⟩
                refine ⟨⟨short, shorts⟩, follows, fun _ stopped => ?_⟩
                cases frames with
                | nil =>
                    cases follows
                    by_contra more
                    exact stops ⟨stopped, more⟩
                | cons other frames => exact ends (List.cons_ne_nil _ _) stopped
              · rintro ⟨⟨-, shorts⟩, follows, ends⟩
                exact ⟨shorts, follows, fun _ => ends (List.cons_ne_nil _ _)⟩

/-- What holds of the guard between pieces. -/
structure Guarding.Sound (state : Guarding) : Prop where
  /-- No frame is complete in what is pending. -/
  absent : separator.first state.pending = none
  ended : state.terminal = true → state.pending = []

/-- A chunk passes exactly if the frames it completes do and the bytes so far are
within the limit. -/
theorem guardChunk_eq_ok {state next : Guarding} (sound : state.Sound) {chunk rest : Bytes}
    {frames : List SseFrame} (split : state.pending ++ chunk = Frame.stream frames ++ rest)
    (absent : separator.first rest = none) :
    guardChunk serde state chunk = .ok next ↔
      state.total + chunk.length ≤ maxResponseBody ∧
        (state.terminal = true → chunk = []) ∧
        followFrames serde rest state.started state.terminal frames =
          .ok (next.started, next.terminal) ∧
        rest.length ≤ maxStreamFrame ∧ next.pending = rest ∧
        next.total = state.total + chunk.length := by
  have looped : guardFrames serde (state.pending ++ chunk) (state.pending.length - 3) 0
      state.started state.terminal =
        (followFrames serde rest state.started state.terminal frames).map fun left =>
          ((Frame.stream frames).length, left) := by
    rw [split]
    refine guardFrames_eq serde absent frames [] _ _ _ ?_
    have within : state.pending.length - 3 ≤ state.pending.length := Nat.sub_le _ _
    rw [List.length_nil, Nat.zero_max, List.nil_append, ← split,
      Delimiter.first_drop sound.absent (le_refl (state.pending.length - separator.overlap)),
      List.drop_append_of_le_length within, Option.map_map]
    refine Option.map_congr fun found _ => ?_
    exact Prod.ext ((Nat.add_comm _ _).trans (Nat.zero_add _).symm)
      ((Nat.add_comm _ _).trans (Nat.zero_add _).symm)
  have left : (state.pending ++ chunk).length - (Frame.stream frames).length = rest.length := by
    rw [split, List.length_append, Nat.add_sub_cancel_left]
  have drop : (state.pending ++ chunk).drop (Frame.stream frames).length = rest := by
    rw [split, List.drop_left]
  unfold guardChunk
  dsimp only
  rw [looped]
  by_cases heavy : state.total + chunk.length > maxResponseBody
  · rw [if_pos heavy]
    exact ⟨nofun, fun ⟨light, _⟩ => absurd heavy (Nat.not_lt.mpr light)⟩
  · rw [if_neg heavy]
    by_cases late : (state.terminal && !chunk.isEmpty) = true
    · rw [if_pos late]
      refine ⟨nofun, fun ⟨_, empty, _⟩ => ?_⟩
      rw [Bool.and_eq_true] at late
      rw [empty late.1] at late
      cases late.2
    · rw [if_neg late]
      have empty : state.terminal = true → chunk = [] := by
        intro ended
        rw [ended, Bool.true_and, Bool.not_eq_true', Bool.not_eq_false] at late
        exact List.isEmpty_iff.mp late
      cases followFrames serde rest state.started state.terminal frames with
      | error reason => exact ⟨nofun, fun ⟨_, _, failed, _⟩ => nomatch failed⟩
      | ok reached =>
          obtain ⟨started, terminal⟩ := reached
          dsimp only [Except.map]
          rw [left, drop]
          by_cases long : rest.length > maxStreamFrame
          · rw [if_pos long]
            exact ⟨nofun, fun ⟨_, _, _, short, _⟩ => absurd long (Nat.not_lt.mpr short)⟩
          · rw [if_neg long]
            constructor
            · intro same
              cases same
              exact ⟨Nat.le_of_not_lt heavy, empty, rfl, Nat.le_of_not_lt long, rfl, rfl⟩
            · obtain ⟨pending, total, started', terminal'⟩ := next
              rintro ⟨-, -, same, -, samePending, sameTotal⟩
              cases same
              dsimp only at samePending sameTotal
              rw [samePending, sameTotal]

/-- What the guard keeps stays sound. -/
theorem Guarding.Sound.chunk {state next : Guarding} (sound : state.Sound) {chunk : Bytes}
    (guarded : guardChunk serde state chunk = .ok next) : next.Sound ∧
      ∃ frames : List SseFrame, state.pending ++ chunk = Frame.stream frames ++ next.pending ∧
        followed serde (state.started, state.terminal) frames =
          some (next.started, next.terminal) ∧
        ∀ frame ∈ frames, frame.text.length ≤ maxStreamFrame := by
  obtain ⟨frames, rest, split, absent⟩ := Frame.exists_frames separator
    (state.pending ++ chunk)
  obtain ⟨-, empty, follows, -, rfl, -⟩ := (guardChunk_eq_ok sound split absent).mp guarded
  obtain ⟨short, follows, ends⟩ := followFrames_eq_ok.mp follows
  refine ⟨⟨absent, fun ended => ?_⟩, frames, split, follows, short⟩
  cases frames with
  | nil =>
      -- Nothing was read, so the state before had ended too.
      have before : state.terminal = true :=
        (congrArg Prod.snd (Option.some.inj follows)).trans ended
      rw [empty before, sound.ended before] at split
      exact split.symm
  | cons frame frames => exact ends (List.cons_ne_nil _ _) ended

/-- What the guard releases to its end is all it was given, and all of it is frames
whose events may come in that order. -/
theorem guardFrom_released {state : Guarding} (sound : state.Sound) {source : Source}
    (released : ∀ item ∈ guardFrom serde state source, ∃ piece, item = .ok piece) :
    ∃ (chunks : List Bytes) (frames : List SseFrame) (started : Bool),
      source = chunks.map .ok ∧ guardFrom serde state source = chunks.map .ok ∧
      state.pending ++ chunks.flatten = Frame.stream frames ∧
      followed serde (state.started, state.terminal) frames = some (started, true) ∧
      ∀ frame ∈ frames, frame.text.length ≤ maxStreamFrame := by
  induction source generalizing state with
  | nil =>
      unfold guardFrom at released
      split at released
      · rename_i ended
        obtain ⟨terminal, empty⟩ := Bool.and_eq_true_iff.mp ended
        refine ⟨[], [], state.started, rfl, ?_, ?_, ?_, List.forall_mem_nil _⟩
        · unfold guardFrom
          rw [if_pos ended]
          rfl
        · rw [List.isEmpty_iff.mp empty]
          rfl
        · rw [followed_nil, terminal]
      · obtain ⟨piece, failed⟩ := released _ (List.mem_singleton_self _)
        cases failed
  | cons item source ih =>
      cases item with
      | error failure =>
          obtain ⟨piece, failed⟩ := released _ (List.mem_singleton_self _)
          cases failed
      | ok chunk =>
          unfold guardFrom at released ⊢
          cases guarded : guardChunk serde state chunk with
          | error reason =>
              rw [guarded] at released
              obtain ⟨piece, failed⟩ := released _ (List.mem_singleton_self _)
              cases failed
          | ok next =>
              rw [guarded] at released
              -- The chunk completes some frames, and the rest of the source continues from there.
              obtain ⟨soundNext, done, split, follows, short⟩ := sound.chunk guarded
              obtain ⟨chunks, frames, started, rfl, passed, stream, followsLater, shortLater⟩ :=
                ih soundNext fun item mem => released item (List.mem_cons_of_mem _ mem)
              refine ⟨chunk :: chunks, done ++ frames, started, rfl, ?_, ?_, ?_,
                List.forall_mem_append.mpr ⟨short, shortLater⟩⟩
              · dsimp only
                rw [passed]
                rfl
              · rw [List.flatten_cons, ← List.append_assoc, split, List.append_assoc, stream,
                  Frame.stream_append]
              · rw [followed_append, follows]
                exact followsLater

/-- Frames whose events may come in that order are released, in whatever pieces they
come, as long as their total is within its bound, and each of them without its last byte is. -/
theorem guardFrom_of_frames {state : Guarding} (sound : state.Sound) {chunks : List Bytes}
    {frames : List SseFrame} {started : Bool}
    (stream : state.pending ++ chunks.flatten = Frame.stream frames)
    (follows : followed serde (state.started, state.terminal) frames = some (started, true))
    (short : ∀ frame ∈ frames, frame.symbols.length ≤ maxStreamFrame + 1)
    (light : state.total + chunks.flatten.length ≤ maxResponseBody) :
    guardFrom serde state (chunks.map .ok) = chunks.map .ok := by
  induction chunks generalizing state frames with
  | nil =>
      rw [List.flatten_nil, List.append_nil] at stream
      cases frames with
      | nil =>
          have ended : state.terminal = true := congrArg Prod.snd (Option.some.inj follows)
          unfold guardFrom
          rw [ended, stream]
          rfl
      | cons frame frames =>
          have found := frame.first_symbols_append (Frame.stream frames)
          rw [← Frame.stream_cons, ← stream, sound.absent] at found
          cases found
  | cons chunk chunks ih =>
      obtain ⟨done, rest, split, absent⟩ := Frame.exists_frames separator
        (state.pending ++ chunk)
      rw [List.flatten_cons, ← List.append_assoc, split, List.append_assoc] at stream
      -- Cut at this chunk, the stream is the frames it completes and those still to come.
      obtain ⟨more, rfl, later⟩ := Frame.unique stream
      rw [followed_append] at follows
      obtain ⟨⟨started', terminal'⟩, followsDone, followsMore⟩ :=
        Option.bind_eq_some_iff.mp follows
      rw [List.flatten_cons, List.length_append, ← Nat.add_assoc] at light
      have ended : terminal' = true → rest = [] := by
        rintro rfl
        rw [eq_nil_of_followed_terminal followsMore] at later
        exact (List.append_eq_nil_iff.mp later).1
      have empty : state.terminal = true → chunk = [] := by
        intro stopped
        rw [stopped] at followsDone
        have none := eq_nil_of_followed_terminal followsDone
        subst none
        have stays : terminal' = true :=
          (congrArg Prod.snd (Option.some.inj followsDone)).symm
        rw [sound.ended stopped, ended stays] at split
        exact split
      -- What is pending is part of one frame, which is within the limit.
      have fits : rest.length ≤ maxStreamFrame := by
        cases more with
        | nil =>
            rw [(List.append_eq_nil_iff.mp later).1]
            exact Nat.zero_le _
        | cons frame more =>
            have less := Frame.length_lt_of_absent absent later
            have within := short frame (List.mem_append_right _ List.mem_cons_self)
            exact Nat.le_of_lt_succ (less.trans_le within)
      have read : followFrames serde rest state.started state.terminal done =
          .ok (started', terminal') := by
        refine followFrames_eq_ok.mpr ⟨fun frame mem => ?_, followsDone, fun _ => ended⟩
        exact Nat.le_of_lt_succ
          (frame.length_text_lt.trans_le (short frame (List.mem_append_left _ mem)))
      have guarded : guardChunk serde state chunk =
          .ok ⟨rest, state.total + chunk.length, started', terminal'⟩ :=
        (guardChunk_eq_ok sound split absent).mpr
          ⟨(Nat.le_add_right _ _).trans light, empty, read, fits, rfl, rfl⟩
      have soundNext : Guarding.Sound ⟨rest, state.total + chunk.length, started', terminal'⟩ :=
        ⟨absent, ended⟩
      have passed := ih soundNext later followsMore
        (fun frame mem => short frame (List.mem_append_right _ mem)) light
      rw [List.map_cons, guardFrom, guarded]
      exact congrArg (Except.ok chunk :: ·) passed

end Guard

/-! ### The preamble, piece by piece -/

section Preamble

variable {serde} {expected canonical : String}

/-- The frame is passed over while the message start is searched. -/
def Skipped (serde : SerdeJson) (expected canonical : String) (frame : SseFrame) : Prop :=
  parseSsePreambleFrame serde frame.text expected canonical = .ok .other

/-- The frame is the message start, and this is what it becomes. -/
def Starts (serde : SerdeJson) (expected canonical : String) (frame : SseFrame)
    (canonicalFrame : Bytes) : Prop :=
  parseSsePreambleFrame serde frame.text expected canonical = .ok (.messageStart canonicalFrame)

/-- The search goes on exactly if every frame was skipped and the preamble is
within its limits. -/
theorem searchFrames_eq_more {rest before : Bytes} {bytes scanned preambleBytes : Nat}
    {frames : List SseFrame} :
    searchFrames serde expected canonical rest before bytes frames =
        .ok (.more scanned preambleBytes) ↔
      (∀ frame ∈ frames, Skipped serde expected canonical frame) ∧
        bytes + (Frame.stream frames ++ rest).length ≤ maxStreamPreamble ∧
        scanned = (before ++ Frame.stream frames).length ∧
        preambleBytes = bytes + (Frame.stream frames).length := by
  induction frames generalizing before bytes with
  | nil =>
      rw [searchFrames, Frame.stream_nil, List.nil_append, List.append_nil, List.length_nil,
        Nat.add_zero]
      split
      · rename_i heavy
        refine ⟨nofun, fun ⟨_, light, _⟩ => ?_⟩
        omega
      · constructor
        · intro same
          cases same
          exact ⟨List.forall_mem_nil _, by omega, rfl, rfl⟩
        · rintro ⟨-, -, rfl, rfl⟩
          rfl
  | cons frame frames ih =>
      rw [searchFrames, Frame.stream_cons, List.forall_mem_cons, List.append_assoc,
        List.length_append, List.length_append, List.length_append, List.length_append]
      unfold Skipped
      split
      · refine ⟨nofun, fun ⟨_, light, _⟩ => ?_⟩
        omega
      · cases parsed : parseSsePreambleFrame serde frame.text expected canonical with
        | error reject => exact ⟨nofun, fun ⟨⟨skipped, _⟩, _⟩ => nomatch skipped⟩
        | ok event =>
            cases event with
            | messageStart => exact ⟨nofun, fun ⟨⟨skipped, _⟩, _⟩ => nomatch skipped⟩
            | other =>
                dsimp only
                rw [ih, List.length_append, List.length_append, List.length_append]
                simp only [true_and, Nat.add_assoc]
                rfl

/-- The search ends at the first frame that is not skipped, if it starts the
stream. -/
theorem searchFrames_eq_found {rest before preamble : Bytes} {bytes : Nat}
    {frames : List SseFrame} :
    searchFrames serde expected canonical rest before bytes frames = .ok (.found preamble) ↔
      ∃ leading start later canonicalFrame, frames = leading ++ start :: later ∧
        (∀ frame ∈ leading, Skipped serde expected canonical frame) ∧
        Starts serde expected canonical start canonicalFrame ∧
        bytes + (Frame.stream (leading ++ [start])).length ≤ maxStreamPreamble ∧
        preamble = before ++ Frame.stream leading ++ canonicalFrame ++
          (Frame.stream later ++ rest) := by
  induction frames generalizing before bytes with
  | nil =>
      rw [searchFrames]
      constructor
      · intro found
        split at found
        · cases found
        · cases found
      · rintro ⟨leading, start, later, canonicalFrame, none, -⟩
        cases List.append_eq_nil_iff.mp none.symm |>.2
  | cons frame frames ih =>
      rw [searchFrames]
      constructor
      · intro found
        split at found
        · cases found
        · rename_i light
          split at found
          · cases found
          · -- The first frame is passed over: the start is among the later ones.
            rename_i skipped
            obtain ⟨leading, start, later, canonicalFrame, rfl, skips, starts, within, rfl⟩ :=
              ih.mp found
            refine ⟨frame :: leading, start, later, canonicalFrame, rfl,
              List.forall_mem_cons.mpr ⟨skipped, skips⟩, starts, ?_, ?_⟩
            · rw [List.cons_append, Frame.stream_cons, List.length_append, ← Nat.add_assoc]
              exact within
            · rw [Frame.stream_cons, List.append_assoc before]
          · -- The first frame is the start itself.
            rename_i canonicalFrame starts
            cases found
            refine ⟨[], frame, frames, canonicalFrame, rfl, List.forall_mem_nil _, starts, ?_, ?_⟩
            · rw [List.nil_append, Frame.stream_cons, Frame.stream_nil, List.append_nil]
              exact Nat.le_of_not_lt light
            · rw [Frame.stream_nil, List.append_nil]
      · rintro ⟨leading, start, later, canonicalFrame, split, skips, starts, within, rfl⟩
        cases leading with
        | nil =>
            obtain ⟨rfl, rfl⟩ := List.cons.inj split
            rw [List.nil_append, Frame.stream_cons, Frame.stream_nil, List.append_nil] at within
            unfold Starts at starts
            rw [if_neg (Nat.not_lt.mpr within), starts, Frame.stream_nil, List.append_nil]
        | cons first leading =>
            obtain ⟨rfl, rfl⟩ := List.cons.inj split
            obtain ⟨skipped, skips⟩ := List.forall_mem_cons.mp skips
            rw [List.cons_append, Frame.stream_cons, List.length_append, ← Nat.add_assoc] at within
            unfold Skipped at skipped
            rw [if_neg (Nat.not_lt.mpr ((Nat.le_add_right _ _).trans within)), skipped]
            dsimp only
            rw [ih]
            refine ⟨leading, start, later, canonicalFrame, rfl, skips, starts, within, ?_⟩
            simp only [Frame.stream_cons, List.append_assoc]

/-- What the search of the preamble found: frames it passed over, the message start, and
the rest of the pieces so far. -/
theorem validateFrom_released {idle : List SseFrame} {rest preamble : Bytes} {source left : Source}
    (absent : separator.first rest = none)
    (skips : ∀ frame ∈ idle, Skipped serde expected canonical frame)
    (validated : validateFrom serde expected canonical (Frame.stream idle ++ rest)
      (Frame.stream idle).length (Frame.stream idle).length source = .ok (preamble, left)) :
    ∃ (chunks : List Bytes) (leading : List SseFrame) (start : SseFrame) (later canonicalFrame : Bytes),
      source = chunks.map .ok ++ left ∧
      Frame.stream idle ++ rest ++ chunks.flatten =
        Frame.stream leading ++ start.symbols ++ later ∧
      (∀ frame ∈ leading, Skipped serde expected canonical frame) ∧
      Starts serde expected canonical start canonicalFrame ∧
      preamble = Frame.stream leading ++ canonicalFrame ++ later := by
  induction source generalizing idle rest with
  | nil => cases validated
  | cons item source ih =>
      cases item with
      | error failure => cases validated
      | ok chunk =>
          obtain ⟨done, rest', split, absent'⟩ := Frame.exists_frames separator (rest ++ chunk)
          unfold validateFrom at validated
          dsimp only at validated
          rw [List.append_assoc, split, scanPreamble_eq serde expected canonical absent'] at validated
          cases searched : searchFrames serde expected canonical rest' (Frame.stream idle)
              (Frame.stream idle).length done with
          | error reject =>
              rw [searched] at validated
              cases validated
          | ok preamble' =>
              rw [searched] at validated
              -- Found in this chunk, or the frames read so far stay idle and the next chunk
              -- goes on.
              cases preamble' with
              | found preamble' =>
                  cases validated
                  obtain ⟨leading, start, later, canonicalFrame, rfl, skipsNext, starts, -, rfl⟩ :=
                    searchFrames_eq_found.mp searched
                  refine ⟨[chunk], idle ++ leading, start, Frame.stream later ++ rest',
                    canonicalFrame, rfl, ?_, List.forall_mem_append.mpr ⟨skips, skipsNext⟩, starts,
                    ?_⟩
                  · rw [List.flatten_singleton, List.append_assoc, split]
                    simp only [Frame.stream_append, Frame.stream_cons, List.append_assoc]
                  · rw [Frame.stream_append]
              | more scanned preambleBytes =>
                  obtain ⟨skipsNext, -, rfl, rfl⟩ := searchFrames_eq_more.mp searched
                  dsimp only at validated
                  split at validated
                  · cases validated
                  · rw [← Frame.stream_append, ← List.length_append, ← Frame.stream_append,
                      ← List.append_assoc, ← Frame.stream_append] at validated
                    obtain ⟨chunks, leading, start, later, canonicalFrame, rfl, stream, skipsAll,
                      starts, rfl⟩ := ih absent' (List.forall_mem_append.mpr ⟨skips, skipsNext⟩)
                        validated
                    refine ⟨chunk :: chunks, leading, start, later, canonicalFrame, rfl, ?_, skipsAll,
                      starts, rfl⟩
                    rw [← stream, List.flatten_cons, Frame.stream_append]
                    simp only [List.append_assoc]
                    rw [← List.append_assoc rest, split, List.append_assoc]

/-- A message start behind frames that are passed over is found, in whatever pieces they
come, as long as the preamble is within its bound. -/
theorem validateFrom_of_frames {idle more later : List SseFrame} {rest canonicalFrame : Bytes}
    {start : SseFrame} {chunks : List Bytes} (absent : separator.first rest = none)
    (skips : ∀ frame ∈ more, Skipped serde expected canonical frame)
    (starts : Starts serde expected canonical start canonicalFrame)
    (stream : rest ++ chunks.flatten = Frame.stream (more ++ start :: later))
    (within : (Frame.stream idle).length + (Frame.stream (more ++ [start])).length ≤
      maxStreamPreamble) :
    ∃ (passed : Bytes) (left : List Bytes),
      validateFrom serde expected canonical (Frame.stream idle ++ rest)
          (Frame.stream idle).length (Frame.stream idle).length (chunks.map .ok) =
        .ok (Frame.stream (idle ++ more) ++ canonicalFrame ++ passed, left.map .ok) ∧
      passed ++ left.flatten = Frame.stream later := by
  induction chunks generalizing idle more rest with
  | nil =>
      -- The start is complete, so it cannot be all in a rest without a separator.
      rw [List.flatten_nil, List.append_nil] at stream
      obtain ⟨frame, frames, same⟩ : ∃ frame frames, more ++ start :: later = frame :: frames := by
        cases more with
        | nil => exact ⟨start, later, rfl⟩
        | cons frame more => exact ⟨frame, more ++ start :: later, rfl⟩
      have found := frame.first_symbols_append (Frame.stream frames)
      rw [← Frame.stream_cons, ← same, ← stream, absent] at found
      cases found
  | cons chunk chunks ih =>
      obtain ⟨done, rest', split, absent'⟩ := Frame.exists_frames separator (rest ++ chunk)
      rw [List.flatten_cons, ← List.append_assoc, split, List.append_assoc] at stream
      obtain ⟨after, frames, laterStream⟩ := Frame.unique stream
      have scanned : scanPreamble serde expected canonical
          (Frame.stream idle ++ rest ++ chunk) (Frame.stream idle).length
            (Frame.stream idle).length =
          searchFrames serde expected canonical rest' (Frame.stream idle)
            (Frame.stream idle).length done := by
        rw [List.append_assoc, split]
        exact scanPreamble_eq serde expected canonical absent' done _ _
      have notYet : ∀ missing, more = done ++ missing → after = missing ++ start :: later →
          ∃ (passed : Bytes) (left : List Bytes),
            validateFrom serde expected canonical (Frame.stream idle ++ rest)
                (Frame.stream idle).length (Frame.stream idle).length ((chunk :: chunks).map .ok) =
              .ok (Frame.stream (idle ++ more) ++ canonicalFrame ++ passed, left.map .ok) ∧
            passed ++ left.flatten = Frame.stream later := by
        rintro missing rfl rfl
        -- The rest is part of the next frame, which the bound allows for.
        have shorter : rest'.length < (Frame.stream (missing ++ [start])).length := by
          cases missing with
          | nil =>
              rw [List.nil_append, Frame.stream_cons, Frame.stream_nil, List.append_nil]
              exact Frame.length_lt_of_absent absent' laterStream
          | cons frame missing =>
              rw [List.cons_append, Frame.stream_cons, List.length_append]
              exact (Frame.length_lt_of_absent absent' laterStream).trans_le (Nat.le_add_right _ _)
        rw [List.append_assoc, Frame.stream_append, List.length_append] at within
        have searched : searchFrames serde expected canonical rest' (Frame.stream idle)
            (Frame.stream idle).length done =
              .ok (.more (Frame.stream (idle ++ done)).length
                (Frame.stream (idle ++ done)).length) := by
          refine searchFrames_eq_more.mpr
            ⟨fun frame mem => skips frame (List.mem_append_left _ mem), ?_, ?_, ?_⟩
          · rw [List.length_append]
            omega
          · rw [Frame.stream_append]
          · rw [Frame.stream_append, List.length_append]
        have withinNext : (Frame.stream (idle ++ done)).length +
            (Frame.stream (missing ++ [start])).length ≤ maxStreamPreamble := by
          rw [Frame.stream_append, List.length_append, Nat.add_assoc]
          exact within
        obtain ⟨passed, left, validated, released⟩ := ih absent'
          (fun frame mem => skips frame (List.mem_append_right _ mem)) laterStream withinNext
        have buffer : Frame.stream idle ++ rest ++ chunk = Frame.stream (idle ++ done) ++ rest' := by
          rw [List.append_assoc, split, Frame.stream_append, List.append_assoc]
        have short : ¬ (Frame.stream idle ++ rest ++ chunk).length -
            (Frame.stream (idle ++ done)).length > maxStreamPreamble := by
          rw [buffer, List.length_append, Nat.add_sub_cancel_left]
          omega
        refine ⟨passed, left, ?_, released⟩
        rw [List.map_cons, validateFrom, scanned, searched]
        dsimp only
        rw [if_neg short, buffer, validated, List.append_assoc idle]
      rcases List.append_eq_append_iff.mp frames with ⟨found, rfl, here⟩ | ⟨missing, same, rest⟩
      · cases found with
        | nil => exact notYet [] (by simp) here.symm
        | cons first found =>
            obtain ⟨rfl, rfl⟩ := List.cons.inj here
            have searched : searchFrames serde expected canonical rest' (Frame.stream idle)
                (Frame.stream idle).length (more ++ start :: found) =
                  .ok (.found (Frame.stream idle ++ Frame.stream more ++ canonicalFrame ++
                    (Frame.stream found ++ rest'))) :=
              searchFrames_eq_found.mpr
                ⟨more, start, found, canonicalFrame, rfl, skips, starts, within, rfl⟩
            refine ⟨Frame.stream found ++ rest', chunks, ?_, ?_⟩
            · rw [List.map_cons, validateFrom, scanned, searched, Frame.stream_append]
            · rw [List.append_assoc, laterStream]
              exact (Frame.stream_append _ _).symm
      · exact notYet missing same rest

end Preamble

end GmMiner.Bedrock
