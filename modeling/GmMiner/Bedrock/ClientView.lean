import GmMiner.Bedrock.StreamIdentity
import GmMiner.Lib.EventStream

/-!
What a client sees of a released Bedrock Mantle stream.

The adapter cuts a frame into lines at line feeds only, and passes over comments; a
client ends a line at a lone carriage return too. So a comment or an event name that
holds one can hide an event from the adapter. `SseFrame.HidesStart` says when a frame
does: `client_sees_canonical_start` is that a released stream shows a client one message
start, with the canonical model, exactly if none of its other frames hides one.
-/

namespace GmMiner.Bedrock

open GmMiner.Lib GmMiner.Lib.EventStream GmMiner.Json

/-- The frame, cut into lines at every line end, has a block that a client reads as a
message start. -/
def SseFrame.HidesStart (frame : SseFrame) : Prop :=
  ∃ text, fromUtf8 frame.symbols = some text ∧
    ∃ block ∈ blocksFrom [] (linesFrom [] text.toList), Announces "message_start".toList block

/-- A client that reads the bytes sees one message start, and it names the model. -/
def SeesOneStart (serde : SerdeJson) (model : String) (bytes : Bytes) : Prop :=
  ∃ text event, fromUtf8 bytes = some text ∧
    (events text.toList).filter (fun event => event.type = "message_start".toList) = [event] ∧
    (parseUniqueJson serde.decode (asBytes (String.ofList event.data))).bind messageModel =
      some model

variable {serde : SerdeJson} {expected canonical : String}

/-! ### A frame as a client reads it -/

/-- The frame is the bytes of a text that ends with a blank line. -/
def SseFrame.IsText (frame : SseFrame) (text : String) : Prop :=
  frame.symbols = asBytes text ∧ Closed text.toList

/-- A frame ends with one of the two blank lines. -/
theorem delimiter_text (frame : SseFrame) :
    ∃ ending, frame.delimiter = asBytes ending ∧ (ending = "\n\n" ∨ ending = "\r\n\r\n") := by
  rcases separatorAt_eq_some.mp frame.starts_delimiter with ⟨rest, split, two⟩ | ⟨rest, split, four⟩
  · have none : rest = [] := by
      rw [split, List.length_append] at two
      exact List.length_eq_zero_iff.mp (Nat.add_left_cancel two)
    exact ⟨"\n\n", by rw [split, none]; rfl, .inl rfl⟩
  · have none : rest = [] := by
      rw [split, List.length_append] at four
      exact List.length_eq_zero_iff.mp (Nat.add_left_cancel four)
    exact ⟨"\r\n\r\n", by rw [split, none]; rfl, .inr rfl⟩

/-- A frame that the adapter reads is text. -/
theorem exists_text {frame : SseFrame} {event : StreamEvent}
    (parsed : parseStreamEvent serde frame.text = .ok event) :
    ∃ text ending, fromUtf8 frame.text = some text ∧ (ending = "\n\n" ∨ ending = "\r\n\r\n") ∧
      frame.IsText (text ++ ending) := by
  unfold parseStreamEvent at parsed
  obtain ⟨text, read, -⟩ := bind_eq_ok.mp parsed
  have read := required_eq_ok.mp read
  obtain ⟨ending, delimiter, either⟩ := delimiter_text frame
  refine ⟨text, ending, read, either, ?_, ?_⟩
  · unfold Frame.symbols
    rw [asBytes_of_fromUtf8 read, delimiter, asBytes_append]
  · rw [String.toList_append]
    rcases either with rfl | rfl
    · exact ⟨text.toList, .inl rfl⟩
    · exact ⟨text.toList, .inr rfl⟩

/-- What a client sees of a frame. -/
def SseFrame.seen (frame : SseFrame) : List Event :=
  ((fromUtf8 frame.symbols).map fun text => eventsFrom .empty (linesFrom [] text.toList)).getD []

theorem SseFrame.IsText.seen_eq {frame : SseFrame} {text : String} (isText : frame.IsText text) :
    frame.seen = eventsFrom .empty (linesFrom [] text.toList) := by
  unfold SseFrame.seen
  rw [isText.1, fromUtf8_asBytes]
  rfl

/-- What a client sees of frames is what it sees of each. -/
theorem stream_text {frames : List SseFrame} (texts : ∀ frame ∈ frames, ∃ text, frame.IsText text) :
    ∃ text, Frame.stream frames = asBytes text ∧
      eventsFrom .empty (linesFrom [] text.toList) = frames.flatMap SseFrame.seen := by
  induction frames with
  | nil => exact ⟨"", rfl, rfl⟩
  | cons frame frames ih =>
      obtain ⟨⟨text, isText⟩, later⟩ := List.forall_mem_cons.mp texts
      obtain ⟨rest, stream, seen⟩ := ih later
      refine ⟨text ++ rest, ?_, ?_⟩
      · rw [Frame.stream_cons, isText.1, stream, asBytes_append]
      · rw [String.toList_append, isText.2.eventsFrom_append, seen, List.flatMap_cons,
          isText.seen_eq]

/-- The client sees no start in a frame exactly if the frame hides none. -/
theorem SseFrame.seen_start_eq_nil (frame : SseFrame) :
    frame.seen.filter (fun event => event.type = "message_start".toList) = [] ↔
      ¬ frame.HidesStart := by
  unfold SseFrame.seen SseFrame.HidesStart
  cases read : fromUtf8 frame.symbols with
  | none =>
      constructor
      · rintro - ⟨text, same, -⟩
        cases same
      · intro
        rfl
  | some text =>
      rw [Option.map_some, Option.getD_some, filter_type_eq_nil (by decide) (by decide)]
      constructor
      · rintro silent ⟨_, same, block, mem, announces⟩
        cases same
        exact silent block mem announces
      · intro silent block mem announces
        exact silent ⟨text, rfl, block, mem, announces⟩

/-! ### The byte order mark -/

/-- A byte order mark before the first line is refused. -/
theorem streamFields_mark (line : List Char) (later : List (List Char)) :
    streamFields (('\uFEFF' :: line) :: later) none none = .error .upstream := by
  obtain ⟨kept, stripped⟩ : ∃ kept,
      (stripSuffix '\r' ('\uFEFF' :: line)).getD ('\uFEFF' :: line) = '\uFEFF' :: kept := by
    rw [stripSuffix_cons (by decide)]
    cases stripSuffix '\r' line with
    | none => exact ⟨line, rfl⟩
    | some kept => exact ⟨kept, rfl⟩
  rw [streamFields, stripped]
  rfl

/-- The adapter reads no frame that begins with a byte order mark. -/
theorem head_of_parsed {frame : SseFrame} {event : StreamEvent} {text : String}
    (parsed : parseStreamEvent serde frame.text = .ok event)
    (read : fromUtf8 frame.text = some text) : text.toList.head? ≠ some '\uFEFF' := by
  intro marked
  cases chars : text.toList with
  | nil =>
      rw [chars] at marked
      cases marked
  | cons c rest =>
      rw [chars] at marked
      cases marked
      -- The first line begins with the mark, so it is none of the lines the adapter knows.
      obtain ⟨line, later, first⟩ := lines_cons (by decide : '\uFEFF' ≠ '\n') (by decide) rest
      unfold parseStreamEvent at parsed
      obtain ⟨text', read', parsed⟩ := bind_eq_ok.mp parsed
      cases read.symm.trans (required_eq_ok.mp read')
      obtain ⟨fields, failed, -⟩ := bind_eq_ok.mp parsed
      rw [chars, first, streamFields_mark] at failed
      cases failed

/-- What a client sees of a stream of frames that the adapter reads. -/
theorem stream_events {frames : List SseFrame} (nonempty : frames ≠ [])
    (parsed : ∀ frame ∈ frames, ∃ event, parseStreamEvent serde frame.text = .ok event) :
    ∃ text, fromUtf8 (Frame.stream frames) = some text ∧
      events text.toList = frames.flatMap SseFrame.seen := by
  cases frames with
  | nil => cases nonempty rfl
  | cons frame frames =>
      obtain ⟨⟨event, here⟩, later⟩ := List.forall_mem_cons.mp parsed
      obtain ⟨text, ending, read, either, isText⟩ := exists_text here
      have texts : ∀ other ∈ frames, ∃ text, other.IsText text := by
        intro other mem
        obtain ⟨event, there⟩ := later other mem
        obtain ⟨text, ending, -, -, isText⟩ := exists_text there
        exact ⟨text ++ ending, isText⟩
      obtain ⟨rest, stream, seen⟩ := stream_text texts
      refine ⟨text ++ ending ++ rest, ?_, ?_⟩
      · rw [Frame.stream_cons, isText.1, stream, ← asBytes_append, fromUtf8_asBytes]
      · have unmarked : (text ++ ending ++ rest).toList.head? ≠ some '\uFEFF' := by
          rw [String.toList_append, String.toList_append, List.append_assoc]
          cases chars : text.toList with
          | nil =>
              rcases either with rfl | rfl
              · exact fun same => absurd (Option.some.inj same) (by decide)
              · exact fun same => absurd (Option.some.inj same) (by decide)
          | cons c kept =>
              have unmarked := head_of_parsed here read
              rw [chars] at unmarked
              exact unmarked
        unfold events
        rw [if_neg unmarked, String.toList_append, isText.2.eventsFrom_append, seen,
          List.flatMap_cons, isText.seen_eq]

/-! ### The message start -/

theorem field_data (data : List Char) : field ("data: ".toList ++ data) = ("data".toList, data) := rfl

/-- A client sees the canonical frame as one message start. -/
theorem events_startFrame {data : String} (one : ∀ c ∈ data.toList, c ≠ '\n' ∧ c ≠ '\r') :
    eventsFrom .empty (linesFrom [] (startFrame data).toList) =
      [⟨"message_start".toList, data.toList⟩] := by
  have split : (startFrame data).toList = "event: message_start".toList ++ '\n' ::
      (("data: ".toList ++ data.toList) ++ '\n' :: ['\n']) := by
    have halves : "event: message_start\ndata: ".toList =
        "event: message_start".toList ++ '\n' :: "data: ".toList := by decide
    have blank : "\n\n".toList = ['\n', '\n'] := by decide
    unfold startFrame
    rw [String.toList_append, String.toList_append, halves, blank]
    simp only [List.append_assoc, List.cons_append]
  have label : ∀ c ∈ "event: message_start".toList, c ≠ '\n' ∧ c ≠ '\r' :=
    apart_of_all (by decide)
  have body : ∀ c ∈ "data: ".toList ++ data.toList, c ≠ '\n' ∧ c ≠ '\r' := by
    have plain : ∀ c ∈ "data: ".toList, c ≠ '\n' ∧ c ≠ '\r' := apart_of_all (by decide)
    exact List.forall_mem_append.mpr ⟨plain, one⟩
  rw [split, linesFrom_line [] label, linesFrom_line [] body, List.nil_append, List.nil_append]
  have read : Buffers.read ⟨"message_start".toList, []⟩ ("data: ".toList ++ data.toList) =
      ⟨"message_start".toList, data.toList ++ ['\n']⟩ := by
    unfold Buffers.read
    rw [field_data]
    rfl
  have dispatched : Buffers.dispatch ⟨"message_start".toList, data.toList ++ ['\n']⟩ =
      some ⟨"message_start".toList, data.toList⟩ := by
    unfold Buffers.dispatch
    rw [if_neg (List.append_ne_nil_of_right_ne_nil _ (List.cons_ne_nil _ _)),
      List.dropLast_concat]
    rfl
  have some_ : "data: ".toList ++ data.toList ≠ [] :=
    List.append_ne_nil_of_left_ne_nil (by decide) _
  rw [eventsFrom_cons .empty (by decide), eventsFrom_cons _ some_]
  have named : Buffers.empty.read "event: message_start".toList = ⟨"message_start".toList, []⟩ := rfl
  have blank : linesFrom [] ['\n'] = [[]] := rfl
  rw [named, read, blank, eventsFrom, dispatched]
  rfl

/-- What a client sees of a stream of the grammar's shape. -/
theorem seesOneStart_iff (faithful : serde.Faithful) {upstream : Bytes}
    {leading middle : List SseFrame} {start last : SseFrame} {value rewritten : Value}
    (shape : StreamShape serde expected upstream leading start value middle last)
    (rewrote : withModel expected canonical value = .ok rewritten) :
    SeesOneStart serde canonical (releasedBytes serde leading rewritten middle last) ↔
      ∀ frame ∈ leading ++ middle ++ [last], ¬ frame.HidesStart := by
  obtain ⟨bytes, decoded, typed⟩ := parsed_messageStart shape.start
  obtain ⟨frame, text, delimiter, back, readBack, named, parsedFrame⟩ :=
    canonical_frame faithful decoded typed rewrote
  have symbols := symbols_startFrame text delimiter
  have one := faithful.oneLine rewritten
  have stream : releasedBytes serde leading rewritten middle last =
      Frame.stream (leading ++ frame :: (middle ++ [last])) := by
    rw [Frame.stream_append, Frame.stream_cons, symbols]
    exact List.append_assoc _ _ _
  have parsed : ∀ other ∈ leading ++ frame :: (middle ++ [last]),
      ∃ event, parseStreamEvent serde other.text = .ok event := by
    intro other mem
    rcases List.mem_append.mp mem with before | after
    · obtain ⟨event, parsed, -⟩ := shape.leading other before
      exact ⟨event, parsed⟩
    · rcases List.mem_cons.mp after with rfl | after
      · exact ⟨_, parsedFrame⟩
      · rcases List.mem_append.mp after with between | final
        · obtain ⟨event, parsed, -⟩ := shape.middle other between
          exact ⟨event, parsed⟩
        · obtain ⟨event, parsed, -⟩ := shape.last
          rw [List.mem_singleton.mp final]
          exact ⟨event, parsed⟩
  -- Frame by frame, as every frame released was parsed, the rewritten one included.
  obtain ⟨whole, read, seen⟩ :=
    stream_events (List.append_ne_nil_of_right_ne_nil _ (List.cons_ne_nil _ _)) parsed
  have start : frame.seen = [⟨"message_start".toList, (serde.toString rewritten).toList⟩] := by
    unfold SseFrame.seen
    rw [symbols, fromUtf8_asBytes, Option.map_some, Option.getD_some, events_startFrame one]
  have silent : ∀ frames : List SseFrame,
      (frames.flatMap SseFrame.seen).filter (fun event => event.type = "message_start".toList) = [] ↔
        ∀ frame ∈ frames, ¬ frame.HidesStart := by
    intro frames
    rw [List.filter_flatMap, List.flatMap_eq_nil_iff]
    exact forall₂_congr fun frame _ => frame.seen_start_eq_nil
  have filtered : (events whole.toList).filter (fun event => event.type = "message_start".toList) =
      (leading.flatMap SseFrame.seen).filter (fun event => event.type = "message_start".toList) ++
        ⟨"message_start".toList, (serde.toString rewritten).toList⟩ ::
        ((middle ++ [last]).flatMap SseFrame.seen).filter
          (fun event => event.type = "message_start".toList) := by
    rw [seen, List.flatMap_append, List.flatMap_cons, start, List.filter_append,
      List.filter_append]
    rfl
  unfold SeesOneStart
  rw [stream, List.append_assoc, List.forall_mem_append, ← silent leading, ← silent]
  constructor
  · rintro ⟨text, event, read', sees, -⟩
    cases read.symm.trans read'
    rw [filtered] at sees
    -- The rewritten start is one event by itself, so no other frame may show one.
    have single := congrArg List.length sees
    rw [List.length_append, List.length_cons, List.length_singleton] at single
    exact ⟨List.length_eq_zero_iff.mp (by omega), List.length_eq_zero_iff.mp (by omega)⟩
  · rintro ⟨before, after⟩
    refine ⟨whole, ⟨"message_start".toList, (serde.toString rewritten).toList⟩, read, ?_, ?_⟩
    · rw [filtered, before, after]
      rfl
    · rw [String.ofList_toList, readBack]
      exact named

/-- A released stream shows a client one message start, with the canonical model, exactly
if no other frame hides one. -/
theorem client_sees_canonical_start (faithful : serde.Faithful) {source : Source}
    {body : List (Except StreamEnd Bytes)}
    (streamed : streamBody serde source expected canonical = .ok body)
    (released : ∀ item ∈ body, ∃ piece, item = .ok piece) :
    ∃ (chunks pieces : List Bytes) (leading : List SseFrame) (start : SseFrame)
      (value : Value) (middle : List SseFrame) (last : SseFrame),
      source = chunks.map .ok ∧ body = pieces.map .ok ∧
      StreamShape serde expected chunks.flatten leading start value middle last ∧
      (SeesOneStart serde canonical pieces.flatten ↔
        ∀ frame ∈ leading ++ middle ++ [last], ¬ frame.HidesStart) := by
  obtain ⟨chunks, pieces, leading, start, value, rewritten, middle, last, given, passed, shape,
    rewrote, same⟩ := shape_of_released faithful streamed released
  refine ⟨chunks, pieces, leading, start, value, middle, last, given, passed, shape, ?_⟩
  rw [same]
  exact seesOneStart_iff faithful shape rewrote

/-- No other frame is read as a start. -/
theorem StreamShape.not_start {upstream : Bytes} {leading middle : List SseFrame}
    {start last frame : SseFrame} {value other : Value}
    (shape : StreamShape serde expected upstream leading start value middle last)
    (mem : frame ∈ leading ++ middle ++ [last]) :
    parseStreamEvent serde frame.text ≠ .ok (.messageStart other) := by
  intro reads
  rcases List.mem_append.mp mem with before | final
  · rcases List.mem_append.mp before with early | between
    · obtain ⟨event, parsed, idle⟩ := shape.leading frame early
      cases parsed.symm.trans reads
      cases idle
    · obtain ⟨event, parsed, notStart, -⟩ := shape.middle frame between
      cases parsed.symm.trans reads
      cases notStart
  · obtain ⟨event, parsed, ends⟩ := shape.last
    rw [List.mem_singleton.mp final] at reads
    cases parsed.symm.trans reads
    cases ends

def idleComment : SseFrame := ⟨asBytes ": keep-alive", lfLf, by decide⟩

def pingFrame : SseFrame := ⟨asBytes "event: ping", lfLf, by decide⟩

/-- A comment, the start, a ping and the stop. -/
def quietFrames : List SseFrame := [idleComment, rawStart, pingFrame, stopFrame]

/-- The stream is cut within the start. -/
def quietChunks : List Bytes := [(Frame.stream quietFrames).take 40, (Frame.stream quietFrames).drop 40]

theorem flatten_quietChunks : quietChunks.flatten = Frame.stream quietFrames := by
  unfold quietChunks
  rw [List.flatten_cons, List.flatten_singleton, List.take_append_drop]

theorem quietFrames_shape : StreamShape messageJson "m" quietChunks.flatten [idleComment] rawStart
    (messageStart "m") [pingFrame] stopFrame where
  bytes := flatten_quietChunks
  leading := List.forall_mem_singleton.mpr ⟨.empty, rfl, rfl⟩
  start := rawStart_reads
  model := rfl
  middle := List.forall_mem_singleton.mpr ⟨.ping, rfl, rfl, rfl⟩
  last := ⟨.messageStop, rfl, rfl⟩

/-- No frame but the start shows one. -/
theorem quietFrames_hide_none : ∀ frame ∈ quietFrames, frame = rawStart ∨ ¬ frame.HidesStart := by
  have silent : ∀ frame ∈ [idleComment, pingFrame, stopFrame],
      frame.seen.filter (fun event => event.type = "message_start".toList) = [] := by
    decide
  intro frame mem
  by_cases same : frame = rawStart
  · exact .inl same
  · refine .inr ((SseFrame.seen_start_eq_nil frame).mp (silent frame ?_))
    simp only [quietFrames, List.mem_cons, List.not_mem_nil, or_false, same, false_or] at mem ⊢
    exact mem

/-- A comment and a ping around the start leave a client the canonical model alone. -/
theorem client_sees_canonical_start_between :
    ∃ pieces : List Bytes,
      streamBody messageJson (quietChunks.map .ok) "m" "model" = .ok (pieces.map .ok) ∧
      SeesOneStart messageJson "model" pieces.flatten := by
  obtain ⟨pieces, streamed, -⟩ := released_of_shape messageJson_faithful quietFrames_shape
    (rfl : withModel "m" "model" (messageStart "m") = .ok (messageStart "model"))
    (.of_short (by decide) rawStart_short messageStart_short stopFrame_short)
  have all : ∀ item ∈ pieces.map Except.ok, ∃ piece, item = Except.ok (ε := StreamEnd) piece := by
    intro item mem
    obtain ⟨piece, -, same⟩ := List.mem_map.mp mem
    exact ⟨piece, same.symm⟩
  obtain ⟨chunks, pieces', leading, start, value, middle, last, given, passed, shape, sees⟩ :=
    client_sees_canonical_start messageJson_faithful streamed all
  refine ⟨pieces, streamed, ?_⟩
  have samePieces : pieces = pieces' := List.map_injective_iff.mpr (fun _ _ => Except.ok.inj) passed
  have sameChunks : quietChunks = chunks :=
    List.map_injective_iff.mpr (fun _ _ => Except.ok.inj) given
  subst samePieces sameChunks
  -- The stream is cut into frames in one way.
  have bytes := shape.bytes
  rw [flatten_quietChunks, ← List.append_nil (Frame.stream quietFrames)] at bytes
  obtain ⟨later, frames, none⟩ := Frame.unique bytes
  have whole : leading ++ start :: (middle ++ [last]) = quietFrames := by
    cases later with
    | cons frame later => cases frame.symbols_ne_nil (List.append_eq_nil_iff.mp none.symm).1
    | nil => rw [frames, List.append_nil]
  refine sees.mpr fun frame mem => (quietFrames_hide_none frame ?_).resolve_left ?_
  · rw [← whole]
    simp only [List.mem_append, List.mem_cons, List.not_mem_nil, or_false] at mem ⊢
    tauto
  · rintro rfl
    exact shape.not_start mem rawStart_reads

/-- A comment that holds a message start behind carriage returns. -/
def hiddenStartText : String :=
  ":\revent: message_start\rdata: " ++
    "\x7b\"type\":\"message_start\",\"message\":\x7b\"model\":\"other\"\x7d\x7d\r\r"

def commentFrame : SseFrame := ⟨asBytes hiddenStartText, lfLf, by decide⟩

theorem commentFrame_short : commentFrame.symbols.length ≤ 1000 := by decide

/-- The adapter passes over the comment. -/
theorem commentFrame_reads : parseStreamEvent messageJson commentFrame.text = .ok .empty := by
  have spelled : String.ofList _ = hiddenStartText := ofList_append_of rfl rfl
  have comment : '\n' ∉ hiddenStartText.toList ∧ hiddenStartText.toList.head? = some ':' := by
    rw [toList_of spelled]
    decide
  exact parseStreamEvent_comment comment.1 comment.2

/-- A client reads the message start in it. -/
theorem commentFrame_hides_start : commentFrame.HidesStart := by
  have spelled : String.ofList _ = hiddenStartText := ofList_append_of rfl rfl
  have isText : commentFrame.IsText (hiddenStartText ++ "\n\n") :=
    ⟨(asBytes_append hiddenStartText "\n\n").symm, _, .inl (String.toList_append (t := "\n\n"))⟩
  by_contra hidden
  have none := (SseFrame.seen_start_eq_nil commentFrame).mpr hidden
  rw [isText.seen_eq, String.toList_append, toList_of spelled] at none
  exact absurd none (by decide)

/-- A client reads a message start out of a comment that the adapter passes over. -/
theorem comment_shows_other_model :
    ¬ ∀ (serde : SerdeJson), serde.Faithful → ∀ (expected canonical : String) (source : Source)
      (pieces : List Bytes),
      streamBody serde source expected canonical = .ok (pieces.map .ok) →
      SeesOneStart serde canonical pieces.flatten := by
  intro claim
  have shape : StreamShape messageJson "m"
      [Frame.stream [commentFrame, rawStart, stopFrame]].flatten
      [commentFrame] rawStart (messageStart "m") [] stopFrame := {
    bytes := by
      rw [List.flatten_singleton]
      rfl
    leading := List.forall_mem_singleton.mpr ⟨.empty, commentFrame_reads, rfl⟩
    start := rawStart_reads
    model := rfl
    middle := List.forall_mem_nil _
    last := ⟨.messageStop, rfl, rfl⟩ }
  have rewrote : withModel "m" "model" (messageStart "m") = .ok (messageStart "model") := rfl
  have bounds : StreamBounds messageJson [commentFrame] rawStart (messageStart "model") [] stopFrame :=
    .of_short commentFrame_short rawStart_short messageStart_short stopFrame_short
  obtain ⟨pieces, streamed, same⟩ := released_of_shape messageJson_faithful shape rewrote bounds
  have sees := claim messageJson messageJson_faithful "m" "model" _ pieces streamed
  rw [same, seesOneStart_iff messageJson_faithful shape rewrote] at sees
  exact sees commentFrame (by simp) commentFrame_hides_start

end GmMiner.Bedrock
