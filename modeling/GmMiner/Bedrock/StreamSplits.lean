import GmMiner.Bedrock.StreamIdentity

/-!
One body in other pieces.

The bound of a frame is checked on a complete frame without its separator, and on what is pending
with the part of a separator that it may hold. So a frame at the bound passes when its separator
comes in one piece, and is refused when the separator is cut: two ways of cutting a body agree just
where no frame of it is that long (`splits_agree_iff`).
-/

namespace GmMiner.Bedrock

open GmMiner.Lib GmMiner.Json

variable (serde : SerdeJson)

/-- The guard ends cleanly, with all of the pieces released. -/
def Released (chunks : List Bytes) : Prop :=
  guardStream serde (chunks.map .ok) = chunks.map .ok

/-- The guard ends in an error. -/
def Refused (chunks : List Bytes) : Prop :=
  ∃ reason, .error reason ∈ guardStream serde (chunks.map .ok)

/-- The body is frames whose events may come in that order up to the terminal one, within the
bounds: each by its text, and all of them by their total. -/
structure Acceptable (bytes : Bytes) (frames : List SseFrame) : Prop where
  bytes_eq : bytes = Frame.stream frames
  follows : ∃ started, followed serde (false, false) frames = some (started, true)
  text_le : ∀ frame ∈ frames, frame.text.length ≤ maxStreamFrame
  total_le : bytes.length ≤ maxResponseBody

variable {serde}

theorem eq_of_map_ok {chunks pieces : List Bytes}
    (same : chunks.map Except.ok = pieces.map (Except.ok : Bytes → Except Unit Bytes)) :
    chunks = pieces :=
  List.map_injective_iff.mpr (fun _ _ => Except.ok.inj) same

theorem not_refused_of_released {chunks : List Bytes} (released : Released serde chunks) :
    ¬ Refused serde chunks := by
  rintro ⟨reason, mem⟩
  rw [released] at mem
  simp at mem

/-- What the guard does not release to the end it ends in an error. -/
theorem released_or_refused (chunks : List Bytes) :
    Released serde chunks ∨ Refused serde chunks := by
  by_cases clean : ∀ item ∈ guardStream serde (chunks.map .ok), ∃ piece, item = .ok piece
  · obtain ⟨pieces, frames, started, same, released, -⟩ := guardFrom_released initial_sound clean
    cases eq_of_map_ok same
    exact .inl released
  · right
    simp only [not_forall] at clean
    obtain ⟨item, mem, failed⟩ := clean
    cases item with
    | error reason => exact ⟨reason, mem⟩
    | ok piece => exact absurd ⟨piece, rfl⟩ failed

/-- What is released is acceptable. -/
theorem acceptable_of_released {chunks : List Bytes} (released : Released serde chunks) :
    ∃ frames, Acceptable serde chunks.flatten frames := by
  have clean : ∀ item ∈ guardStream serde (chunks.map .ok), ∃ piece, item = .ok piece := by
    intro item mem
    rw [released] at mem
    obtain ⟨piece, -, rfl⟩ := List.mem_map.mp mem
    exact ⟨piece, rfl⟩
  obtain ⟨pieces, frames, started, same, -, stream, follows, short⟩ :=
    guardFrom_released initial_sound clean
  cases eq_of_map_ok same
  have light := length_le_of_released (Nat.zero_le maxResponseBody) released
  rw [Nat.zero_add] at light
  exact ⟨frames, stream, ⟨started, follows⟩, short, light⟩

/-- An acceptable body in one piece is released. -/
theorem released_singleton {bytes : Bytes} {frames : List SseFrame}
    (acceptable : Acceptable serde bytes frames) : Released serde [bytes] := by
  obtain ⟨started, follows⟩ := acceptable.follows
  have read : followFrames serde [] false false frames = .ok (started, true) :=
    followFrames_eq_ok.mpr ⟨acceptable.text_le, follows, fun _ _ => rfl⟩
  have guarded : guardChunk serde ⟨[], 0, false, false⟩ bytes =
      .ok ⟨[], 0 + bytes.length, started, true⟩ := by
    have split : [] ++ bytes = Frame.stream frames ++ [] := by
      simpa using acceptable.bytes_eq
    refine (guardChunk_eq_ok initial_sound split rfl).mpr
      ⟨?_, nofun, read, Nat.zero_le _, rfl, rfl⟩
    simpa using acceptable.total_le
  unfold Released guardStream
  simp [guardFrom, guarded]

/-- A frame is not complete without its last byte. -/
theorem first_dropLast (frame : SseFrame) : separator.first frame.symbols.dropLast = none := by
  cases found : separator.first frame.symbols.dropLast with
  | none => rfl
  | some at_ =>
      obtain ⟨-, within⟩ := Delimiter.first_bounds found
      have whole := Delimiter.first_append found [frame.symbols.getLast frame.symbols_ne_nil]
      rw [List.dropLast_append_getLast, Frame.symbols, frame.first] at whole
      cases whole
      have pos := List.length_pos_iff.mpr frame.symbols_ne_nil
      rw [List.length_dropLast, Frame.length_symbols] at within
      rw [Frame.length_symbols] at pos
      omega

theorem flatten_cut (before after : List SseFrame) (frame : SseFrame) :
    [Frame.stream before ++ frame.symbols.dropLast,
      [frame.symbols.getLast frame.symbols_ne_nil] ++ Frame.stream after].flatten =
        Frame.stream (before ++ frame :: after) := by
  have last := List.dropLast_append_getLast frame.symbols_ne_nil
  rw [Frame.stream_append, Frame.stream_cons]
  nth_rewrite 3 [← last]
  simp

/-- A body cut before the last byte of a frame over the bound is refused. -/
theorem refused_of_cut {before : List SseFrame} {frame : SseFrame} (rest : List Bytes)
    (long : maxStreamFrame + 1 < frame.symbols.length) :
    Refused serde ((Frame.stream before ++ frame.symbols.dropLast) :: rest) := by
  have failed : ∀ next, guardChunk serde ⟨[], 0, false, false⟩
      (Frame.stream before ++ frame.symbols.dropLast) ≠ .ok next := by
    intro next guarded
    obtain ⟨-, -, -, short, -⟩ :=
      (guardChunk_eq_ok initial_sound rfl (first_dropLast frame)).mp guarded
    rw [List.length_dropLast] at short
    omega
  unfold Refused guardStream
  cases guarded : guardChunk serde ⟨[], 0, false, false⟩
      (Frame.stream before ++ frame.symbols.dropLast) with
  | ok next => exact absurd guarded (failed next)
  | error reason => exact ⟨reason, by simp [guardFrom, guarded]⟩

/-- An acceptable body with no frame that is over the bound without its last byte is released in
whatever pieces it comes. -/
theorem released_of_acceptable {chunks : List Bytes} {frames : List SseFrame}
    (acceptable : Acceptable serde chunks.flatten frames)
    (short : ∀ frame ∈ frames, frame.symbols.length ≤ maxStreamFrame + 1) :
    Released serde chunks := by
  obtain ⟨started, follows⟩ := acceptable.follows
  refine guardFrom_of_frames initial_sound acceptable.bytes_eq follows short ?_
  rw [Nat.zero_add]
  exact acceptable.total_le

/-! ### A comment at the bound -/

/-- A frame of one comment. -/
def commentText (n : Nat) : String := String.ofList (':' :: List.replicate n 'a')

theorem asBytes_commentText (n : Nat) : asBytes (commentText n) = 58 :: List.replicate n 97 := by
  have colon : String.utf8EncodeChar ':' = [58] := by decide
  have letter : String.utf8EncodeChar 'a' = [97] := by decide
  rw [asBytes_eq_flatMap, commentText, String.toList_ofList, List.flatMap_cons, colon]
  induction n with
  | zero => rfl
  | succ n ih => simpa [List.replicate_succ, letter] using ih

def paddedComment (n : Nat) : SseFrame where
  text := asBytes (commentText n)
  delimiter := lfLf
  first := by
    have blank : separator.first lfLf = some (0, 2) := rfl
    rw [Delimiter.first_skip, blank]
    · simp [lfLf, Nat.add_comm]
    · intro byte mem rest
      rw [asBytes_commentText] at mem
      rcases List.mem_cons.mp mem with rfl | mem
      · have inert : (58 : UInt8) ≠ 10 ∧ (58 : UInt8) ≠ 13 := by decide
        exact separatorAt_cons inert.1 inert.2 rest
      · have inert : (97 : UInt8) ≠ 10 ∧ (97 : UInt8) ≠ 13 := by decide
        rw [List.eq_of_mem_replicate mem]
        exact separatorAt_cons inert.1 inert.2 rest

theorem length_paddedComment (n : Nat) : (paddedComment n).text.length = n + 1 := by
  change (asBytes (commentText n)).length = _
  simp [asBytes_commentText]

/-- A padded comment is read as one. -/
theorem paddedComment_reads (n : Nat) :
    parseStreamEvent messageJson (paddedComment n).text = .ok .empty := by
  have one : ('\n' : Char) ∉ ':' :: List.replicate n 'a' := by simp
  have noReturn : stripSuffix '\r' (':' :: List.replicate n 'a') = none := by
    refine if_neg fun last => ?_
    have mem := List.mem_of_getLast? last
    simp at mem
  have split : lines (commentText n).toList = [':' :: List.replicate n 'a'] := by
    rw [commentText, String.toList_ofList]
    exact lines_last one (List.cons_ne_nil _ _)
  change parseStreamEvent messageJson (asBytes (commentText n)) = _
  unfold parseStreamEvent
  rw [fromUtf8_asBytes]
  refine bind_eq_ok.mpr ⟨commentText n, rfl, ?_⟩
  rw [split, streamFields, noReturn]
  rfl

/-- A start, a comment and a stop. -/
theorem acceptable_comment {n : Nat} (short : n + 1 ≤ maxStreamFrame) :
    Acceptable messageJson (Frame.stream [rawStart, paddedComment n, stopFrame])
      [rawStart, paddedComment n, stopFrame] where
  bytes_eq := rfl
  follows := by
    refine ⟨true, ?_⟩
    rw [followed_cons, rawStart_reads]
    change followed messageJson (true, false) _ = _
    rw [followed_cons, paddedComment_reads]
    rfl
  text_le := by
    have startShort : rawStart.text.length ≤ maxStreamFrame := by decide
    have stopShort : stopFrame.text.length ≤ maxStreamFrame := by decide
    simp [startShort, stopShort, length_paddedComment, short]
  total_le := by
    have startShort : rawStart.symbols.length ≤ 1000 := by decide
    have stopShort : stopFrame.symbols.length ≤ 1000 := by decide
    have comment : (paddedComment n).symbols.length = n + 3 := by
      rw [Frame.length_symbols, length_paddedComment]
      rfl
    have frame : maxStreamFrame = 4194304 := rfl
    have body : maxResponseBody = 33554432 := rfl
    simp only [Frame.stream_cons, Frame.stream_nil, List.length_append, List.length_nil, comment]
    omega

/-! ### All ways of cutting -/

/-- All ways of cutting a body into pieces come to the same just where the body, if it is
acceptable, has no frame that is over the bound without its last byte. -/
theorem splits_agree_iff (serde : SerdeJson) (bytes : Bytes) :
    (∀ chunks others : List Bytes, chunks.flatten = bytes → others.flatten = bytes →
      (Released serde chunks ∧ Released serde others) ∨
        (Refused serde chunks ∧ Refused serde others)) ↔
      ∀ frames, Acceptable serde bytes frames →
        ∀ frame ∈ frames, frame.symbols.length ≤ maxStreamFrame + 1 := by
  constructor
  · intro agree frames acceptable frame mem
    by_contra long
    obtain ⟨before, after, rfl⟩ := List.append_of_mem mem
    have whole := (flatten_cut before after frame).trans acceptable.bytes_eq.symm
    have released := released_singleton acceptable
    have refused : Refused serde [Frame.stream before ++ frame.symbols.dropLast,
        [frame.symbols.getLast frame.symbols_ne_nil] ++ Frame.stream after] :=
      refused_of_cut _ (Nat.lt_of_not_le long)
    rcases agree [bytes] _ (by simp) whole with ⟨-, other⟩ | ⟨one, -⟩
    · exact not_refused_of_released other refused
    · exact not_refused_of_released released one
  · intro short chunks others same sameOthers
    have together : ∀ {chunks others : List Bytes}, chunks.flatten = bytes →
        others.flatten = bytes → Released serde chunks → Released serde others := by
      intro chunks others same sameOthers released
      obtain ⟨frames, acceptable⟩ := acceptable_of_released released
      rw [same] at acceptable
      exact released_of_acceptable (sameOthers ▸ acceptable) (short frames acceptable)
    rcases released_or_refused chunks with released | refused
    · exact .inl ⟨released, together same sameOthers released⟩
    · rcases released_or_refused others with releasedOther | refusedOther
      · exact absurd refused
          (not_refused_of_released (together sameOthers same releasedOther))
      · exact .inr ⟨refused, refusedOther⟩

/-- A comment as long as the bound, with its separator cut. -/
theorem comment_cut_in_separator :
    ¬ ∀ (serde : SerdeJson) (bytes : Bytes) (chunks others : List Bytes),
      chunks.flatten = bytes → others.flatten = bytes →
      (Released serde chunks ∧ Released serde others) ∨
        (Refused serde chunks ∧ Refused serde others) := by
  intro agree
  have length : (paddedComment (maxStreamFrame - 1)).text.length = maxStreamFrame := by
    rw [length_paddedComment]
    rfl
  have acceptable := acceptable_comment (n := maxStreamFrame - 1) (le_refl _)
  have long : maxStreamFrame + 1 < (paddedComment (maxStreamFrame - 1)).symbols.length := by
    rw [Frame.length_symbols, length]
    exact Nat.lt_succ_self _
  have refused : Refused messageJson
      ((Frame.stream [rawStart] ++ (paddedComment (maxStreamFrame - 1)).symbols.dropLast) :: _) :=
    refused_of_cut
      [[(paddedComment (maxStreamFrame - 1)).symbols.getLast (Frame.symbols_ne_nil _)] ++
        Frame.stream [stopFrame]] long
  have whole := flatten_cut [rawStart] [stopFrame] (paddedComment (maxStreamFrame - 1))
  have released := released_singleton acceptable
  rcases agree messageJson _ _ _ List.flatten_singleton whole with ⟨-, other⟩ | ⟨one, -⟩
  · exact not_refused_of_released other refused
  · exact not_refused_of_released released one

end GmMiner.Bedrock
