import GmMiner.Bedrock.MessageJson
import GmMiner.Bedrock.Streams

/-!
A stream that is released whole names the model that was asked for.

`StreamShape` is the grammar: frames that say nothing, one message start that names the
expected model, then no other message start, and a terminal event at the very end. A
response is released without an error only if its bytes are of that shape, and what is
released is the same bytes with the start rewritten; every response of that shape that
is within the bounds is released (`streams_keep_identity`), in whatever pieces it comes.
-/

namespace GmMiner.Bedrock

open GmMiner.Lib GmMiner.Json

namespace StreamEvent

/-- Empty, ping or unknown: may come before the message start. -/
def isIdle : StreamEvent → Bool
  | empty | ping | unknown => true
  | _ => false

def isStart : StreamEvent → Bool
  | messageStart _ => true
  | _ => false

def isTerminal : StreamEvent → Bool
  | messageStop | error => true
  | _ => false

end StreamEvent

/-- The frame is an event of that kind. -/
def SseFrame.Reads (serde : SerdeJson) (frame : SseFrame) (kind : StreamEvent → Prop) : Prop :=
  ∃ event, parseStreamEvent serde frame.text = .ok event ∧ kind event

/-- The grammar of a stream. -/
structure StreamShape (serde : SerdeJson) (expectedRawModel : String) (upstream : Bytes)
    (leading : List SseFrame) (start : SseFrame) (value : Value) (middle : List SseFrame)
    (last : SseFrame) : Prop where
  bytes : upstream = Frame.stream (leading ++ start :: (middle ++ [last]))
  leading : ∀ frame ∈ leading, SseFrame.Reads serde frame fun event => event.isIdle = true
  start : parseStreamEvent serde start.text = .ok (.messageStart value)
  model : messageModel value = some expectedRawModel
  middle : ∀ frame ∈ middle,
    SseFrame.Reads serde frame fun event => event.isStart = false ∧ event.isTerminal = false
  last : SseFrame.Reads serde last fun event => event.isTerminal = true

variable {serde : SerdeJson} {expected canonical : String}

/-! ### The order of events -/

theorem follow_idle {started : Bool} {event : StreamEvent} (idle : event.isIdle = true) :
    follow started false (.ok event) = some (started, false) := by
  cases event with
  | empty | ping | unknown => rfl
  | messageStart | messageStop | error | other => cases idle

/-- Neither do any number of them. -/
theorem followed_idle {frames : List SseFrame}
    (idle : ∀ frame ∈ frames, SseFrame.Reads serde frame fun event => event.isIdle = true) :
    followed serde (false, false) frames = some (false, false) := by
  induction frames with
  | nil => rfl
  | cons frame frames ih =>
      obtain ⟨⟨event, parsed, here⟩, later⟩ := List.forall_mem_cons.mp idle
      rw [followed_cons, parsed, follow_idle here]
      exact ih later

theorem follow_last {event : StreamEvent} (last : event.isTerminal = true) :
    follow true false (.ok event) = some (true, true) := by
  cases event with
  | messageStop | error => rfl
  | empty | ping | messageStart | other | unknown => cases last

theorem follow_middle {event : StreamEvent} (notStart : event.isStart = false)
    (notLast : event.isTerminal = false) :
    follow true false (.ok event) = some (true, false) := by
  cases event with
  | empty | ping | other | unknown => rfl
  | messageStart => cases notStart
  | messageStop | error => cases notLast

/-- Once started, a stream ends with the first terminal event. -/
theorem followed_started {frames : List SseFrame} {started : Bool} :
    followed serde (true, false) frames = some (started, true) ↔
      started = true ∧ ∃ middle last, frames = middle ++ [last] ∧
        (∀ frame ∈ middle, SseFrame.Reads serde frame fun event =>
          event.isStart = false ∧ event.isTerminal = false) ∧
        SseFrame.Reads serde last fun event => event.isTerminal = true := by
  induction frames with
  | nil =>
      constructor
      · intro follows
        cases follows
      · rintro ⟨-, middle, last, none, -⟩
        cases (List.append_eq_nil_iff.mp none.symm).2
  | cons frame frames ih =>
      rw [followed_cons]
      constructor
      · intro follows
        cases parsed : parseStreamEvent serde frame.text with
        | error reject =>
            rw [parsed] at follows
            cases follows
        | ok event =>
            rw [parsed] at follows
            cases starts : event.isStart with
            | true =>
                cases event with
                | messageStart => cases follows
                | empty | ping | messageStop | error | other | unknown => cases starts
            | false =>
                cases ends : event.isTerminal with
                | true =>
                    rw [follow_last ends, Option.bind_some] at follows
                    have none := eq_nil_of_followed_terminal follows
                    subst none
                    cases follows
                    exact ⟨rfl, [], frame, rfl, List.forall_mem_nil _, event, parsed, ends⟩
                | false =>
                    rw [follow_middle starts ends, Option.bind_some, ih] at follows
                    obtain ⟨rfl, middle, last, rfl, between, final⟩ := follows
                    exact ⟨rfl, frame :: middle, last, rfl,
                      List.forall_mem_cons.mpr ⟨⟨event, parsed, starts, ends⟩, between⟩, final⟩
      · rintro ⟨rfl, middle, last, split, between, final⟩
        cases middle with
        | nil =>
            obtain ⟨rfl, rfl⟩ := List.cons.inj split
            obtain ⟨event, parsed, ends⟩ := final
            rw [parsed, follow_last ends]
            rfl
        | cons first middle =>
            obtain ⟨rfl, rfl⟩ := List.cons.inj split
            obtain ⟨⟨event, parsed, starts, ends⟩, between⟩ := List.forall_mem_cons.mp between
            rw [parsed, follow_middle starts ends, Option.bind_some, ih]
            exact ⟨rfl, middle, last, rfl, between, final⟩

/-! ### The message start -/

/-- A frame is skipped exactly if it is a comment or a ping. -/
theorem skipped_iff {frame : SseFrame} : Skipped serde expected canonical frame ↔
    SseFrame.Reads serde frame fun event => event.isIdle = true := by
  unfold Skipped SseFrame.Reads parseSsePreambleFrame
  constructor
  · intro skipped
    obtain ⟨event, parsed, skipped⟩ := bind_eq_ok.mp skipped
    refine ⟨event, parsed, ?_⟩
    cases event with
    | empty | ping | unknown => rfl
    | messageStart value =>
        obtain ⟨rewritten, -, failed⟩ := bind_eq_ok.mp skipped
        cases failed
    | messageStop | error | other => cases skipped
  · rintro ⟨event, parsed, idle⟩
    refine bind_eq_ok.mpr ⟨event, parsed, ?_⟩
    cases event with
    | empty | ping | unknown => rfl
    | messageStart | messageStop | error | other => cases idle

/-- A frame starts the stream exactly if its event is a start of the expected
model. -/
theorem starts_iff {frame : SseFrame} {canonicalFrame : Bytes} :
    Starts serde expected canonical frame canonicalFrame ↔
      ∃ value rewritten, parseStreamEvent serde frame.text = .ok (.messageStart value) ∧
        withModel expected canonical value = .ok rewritten ∧
        canonicalFrame = asBytes (startFrame (serde.toString rewritten)) := by
  unfold Starts parseSsePreambleFrame
  constructor
  · intro starts
    obtain ⟨event, parsed, starts⟩ := bind_eq_ok.mp starts
    cases event with
    | messageStart value =>
        obtain ⟨rewritten, rewrote, same⟩ := bind_eq_ok.mp starts
        cases same
        exact ⟨value, rewritten, parsed, rewrote, rfl⟩
    | empty | ping | unknown | messageStop | error | other => cases starts
  · rintro ⟨value, rewritten, parsed, rewrote, rfl⟩
    exact bind_eq_ok.mpr ⟨_, parsed, bind_eq_ok.mpr ⟨rewritten, rewrote, rfl⟩⟩

/-- A message start was read from JSON of that type. -/
theorem parsed_messageStart {frame : Bytes} {value : Value}
    (parsed : parseStreamEvent serde frame = .ok (.messageStart value)) :
    ∃ bytes, parseUniqueJson serde.decode bytes = some value ∧
      value.textOf "type" = some "message_start" := by
  unfold parseStreamEvent at parsed
  obtain ⟨text, -, parsed⟩ := bind_eq_ok.mp parsed
  obtain ⟨⟨event, data⟩, -, parsed⟩ := bind_eq_ok.mp parsed
  dsimp only at parsed
  split at parsed
  · split at parsed
    · cases parsed
    · cases parsed
  · rename_i name
    split at parsed
    · split at parsed
      · split at parsed
        · cases parsed
        · cases parsed
      · cases parsed
    · obtain ⟨bytes, -, parsed⟩ := bind_eq_ok.mp parsed
      obtain ⟨read, decoded, parsed⟩ := bind_eq_ok.mp parsed
      split at parsed
      · cases parsed
      · rename_i agrees
        rw [Bool.or_eq_true, not_or, bne_iff_ne, not_not] at agrees
        split at parsed
        · cases parsed
          exact ⟨bytes, required_eq_ok.mp decoded, agrees.2⟩
        all_goals cases parsed

/-- A message that names the expected model is rewritten. -/
theorem withModel_of_messageModel {value : Value} (named : messageModel value = some expected) :
    ∃ rewritten, withModel expected canonical value = .ok rewritten := by
  obtain ⟨message, found, model⟩ := Option.bind_eq_some_iff.mp named
  obtain ⟨held, inMessage, -⟩ := Option.bind_eq_some_iff.mp model
  cases value with
  | object members =>
      cases message with
      | object inner =>
          rw [Value.get_object] at found
          unfold withModel
          dsimp only
          rw [found]
          dsimp only
          rw [model]
          exact ⟨_, if_neg (not_not.mpr rfl)⟩
      | null | bool | number | string | array => cases inMessage
  | null | bool | number | string | array => cases found

/-! ### Whole streams -/

/-- What is released of a stream: its bytes, with the start rewritten. -/
def releasedBytes (serde : SerdeJson) (leading : List SseFrame) (rewritten : Value)
    (middle : List SseFrame) (last : SseFrame) : Bytes :=
  Frame.stream leading ++ asBytes (startFrame (serde.toString rewritten)) ++
    Frame.stream (middle ++ [last])

/-- The bounds of a stream that is released: the preamble as it came, the frames and the
total as they are released. -/
structure StreamBounds (serde : SerdeJson) (leading : List SseFrame) (start : SseFrame)
    (rewritten : Value) (middle : List SseFrame) (last : SseFrame) : Prop where
  preamble : (Frame.stream (leading ++ [start])).length ≤ maxStreamPreamble
  start : (asBytes (startFrame (serde.toString rewritten))).length ≤ maxStreamFrame
  frames : ∀ frame ∈ leading ++ middle ++ [last], frame.symbols.length ≤ maxStreamFrame
  total : (releasedBytes serde leading rewritten middle last).length ≤ maxResponseBody

theorem initial_sound : Guarding.Sound ⟨[], 0, false, false⟩ := ⟨rfl, nofun⟩

/-- A body released without an error is of the grammar's shape. -/
theorem shape_of_released (faithful : serde.Faithful) {source : Source}
    {body : List (Except StreamEnd Bytes)}
    (streamed : streamBody serde source expected canonical = .ok body)
    (released : ∀ item ∈ body, ∃ piece, item = .ok piece) :
    ∃ (chunks pieces : List Bytes) (leading : List SseFrame) (start : SseFrame)
      (value rewritten : Value) (middle : List SseFrame) (last : SseFrame),
      source = chunks.map .ok ∧ body = pieces.map .ok ∧
      StreamShape serde expected chunks.flatten leading start value middle last ∧
      withModel expected canonical value = .ok rewritten ∧
      pieces.flatten = releasedBytes serde leading rewritten middle last := by
  obtain ⟨⟨preamble, left⟩, validated, same⟩ := bind_eq_ok.mp streamed
  cases same
  have searched : validateFrom serde expected canonical (Frame.stream ([] : List SseFrame) ++ [])
      (Frame.stream ([] : List SseFrame)).length (Frame.stream ([] : List SseFrame)).length source =
        .ok (preamble, left) := validated
  obtain ⟨chunks, leading, start, later, canonicalFrame, rfl, stream, skips, starts, rfl⟩ :=
    validateFrom_released rfl (List.forall_mem_nil _) searched
  obtain ⟨value, rewritten, parsed, rewrote, rfl⟩ := starts_iff.mp starts
  obtain ⟨bytes, decoded, typed⟩ := parsed_messageStart parsed
  obtain ⟨frame, text, delimiter, back, -, -, parsedFrame⟩ :=
    canonical_frame faithful decoded typed rewrote
  have symbols := symbols_startFrame text delimiter
  obtain ⟨pieces, frames, started, sources, passed, guarded, follows, -⟩ :=
    guardFrom_released initial_sound released
  cases pieces with
  | nil => cases sources
  | cons first pieces =>
      obtain ⟨sameFirst, rfl⟩ := List.cons.inj sources
      cases sameFirst
      -- The rewritten start is one frame, so the frames after it are those of the upstream.
      have cut : Frame.stream (leading ++ [frame]) ++ (later ++ pieces.flatten) =
          Frame.stream frames := by
        rw [← guarded, List.nil_append, List.flatten_cons, ← symbols, Frame.stream_append,
          Frame.stream_cons, Frame.stream_nil, List.append_nil]
        simp only [List.append_assoc]
      obtain ⟨others, rfl, rest⟩ := Frame.unique cut
      have idle : ∀ frame ∈ leading, SseFrame.Reads serde frame fun event => event.isIdle = true :=
        fun frame mem => skipped_iff.mp (skips frame mem)
      have begun : followed serde (false, false) (leading ++ [frame]) = some (true, false) := by
        rw [followed_append, followed_idle idle, Option.bind_some, followed_cons, parsedFrame]
        rfl
      rw [followed_append, begun, Option.bind_some, followed_started] at follows
      obtain ⟨-, middle, last, rfl, between, final⟩ := follows
      refine ⟨chunks ++ pieces, _ :: pieces, leading, start, value, rewritten, middle, last,
        ?_, passed, ?_, rewrote, ?_⟩
      · rw [List.map_append]
      · refine ⟨?_, idle, parsed, (withModel_eq_ok rewrote).1, between, final⟩
        rw [Frame.stream_nil, List.nil_append, List.nil_append] at stream
        rw [List.flatten_append, stream, List.append_assoc, rest, Frame.stream_append leading,
          Frame.stream_cons start, List.append_assoc]
      · unfold releasedBytes
        rw [List.flatten_cons, List.append_assoc, rest]

/-- A stream of the grammar's shape is released, if it is within the bounds. -/
theorem released_of_shape (faithful : serde.Faithful) {chunks : List Bytes}
    {leading middle : List SseFrame} {start last : SseFrame} {value rewritten : Value}
    (shape : StreamShape serde expected chunks.flatten leading start value middle last)
    (rewrote : withModel expected canonical value = .ok rewritten)
    (bounds : StreamBounds serde leading start rewritten middle last) :
    ∃ pieces : List Bytes,
      streamBody serde (chunks.map .ok) expected canonical = .ok (pieces.map .ok) ∧
      pieces.flatten = releasedBytes serde leading rewritten middle last := by
  have starts : Starts serde expected canonical start
      (asBytes (startFrame (serde.toString rewritten))) :=
    starts_iff.mpr ⟨value, rewritten, shape.start, rewrote, rfl⟩
  have skips : ∀ frame ∈ leading, Skipped serde expected canonical frame :=
    fun frame mem => skipped_iff.mpr (shape.leading frame mem)
  obtain ⟨bytes, decoded, typed⟩ := parsed_messageStart shape.start
  obtain ⟨frame, text, delimiter, back, -, -, parsedFrame⟩ :=
    canonical_frame faithful decoded typed rewrote
  have symbols := symbols_startFrame text delimiter
  have within : (Frame.stream ([] : List SseFrame)).length +
      (Frame.stream (leading ++ [start])).length ≤ maxStreamPreamble := by
    rw [Frame.stream_nil, List.length_nil, Nat.zero_add]
    exact bounds.preamble
  have upstream : [] ++ chunks.flatten = Frame.stream (leading ++ start :: (middle ++ [last])) :=
    shape.bytes
  obtain ⟨passed, left, validated, rest⟩ :=
    validateFrom_of_frames rfl skips starts upstream within
  rw [List.nil_append] at validated
  have stream : ([] : Bytes) ++ ((Frame.stream leading ++
      asBytes (startFrame (serde.toString rewritten)) ++ passed) :: left).flatten =
        Frame.stream (leading ++ frame :: (middle ++ [last])) := by
    rw [List.nil_append, List.flatten_cons, List.append_assoc, rest, ← symbols,
      Frame.stream_append leading, Frame.stream_cons frame]
    exact List.append_assoc _ _ _
  -- The rewritten frame is a start, and the others are followed as the shape says.
  have follows : followed serde (false, false) (leading ++ frame :: (middle ++ [last])) =
      some (true, true) := by
    rw [followed_append, followed_idle shape.leading, Option.bind_some, followed_cons,
      parsedFrame]
    exact followed_started.mpr ⟨rfl, middle, last, rfl, shape.middle, shape.last⟩
  have shortAll : ∀ other ∈ leading ++ frame :: (middle ++ [last]),
      other.symbols.length ≤ maxStreamFrame := by
    intro other mem
    rcases List.mem_append.mp mem with before | after
    · exact bounds.frames other (List.mem_append_left _ (List.mem_append_left _ before))
    · rcases List.mem_cons.mp after with rfl | after
      · exact symbols ▸ bounds.start
      · refine bounds.frames other ?_
        rw [List.append_assoc]
        exact List.mem_append_right _ after
  have released : ((Frame.stream leading ++ asBytes (startFrame (serde.toString rewritten)) ++
      passed) :: left).flatten = releasedBytes serde leading rewritten middle last := by
    rw [List.flatten_cons, List.append_assoc, rest]
    rfl
  refine ⟨_ :: left, bind_eq_ok.mpr ⟨_, validated, ?_⟩, released⟩
  refine congrArg Except.ok (guardFrom_of_frames initial_sound stream follows
    (fun other mem => Nat.le_succ_of_le (shortAll other mem)) ?_)
  rw [Nat.zero_add, released]
  exact bounds.total

/-- What is released is within the bound of a response. -/
theorem length_le_of_released {state : Guarding} {source : Source} {pieces : List Bytes}
    (light : state.total ≤ maxResponseBody) (released : guardFrom serde state source = pieces.map .ok) :
    state.total + pieces.flatten.length ≤ maxResponseBody := by
  induction source generalizing state pieces with
  | nil =>
      cases pieces with
      | nil =>
          rw [List.flatten_nil, List.length_nil, Nat.add_zero]
          exact light
      | cons piece pieces =>
          unfold guardFrom at released
          split at released
          · cases released
          · cases released
  | cons item source ih =>
      cases pieces with
      | nil => cases item with
          | error failure => cases released
          | ok chunk =>
              unfold guardFrom at released
              split at released
              · cases released
              · cases released
      | cons piece pieces =>
          cases item with
          | error failure => cases released
          | ok chunk =>
              unfold guardFrom at released
              cases guarded : guardChunk serde state chunk with
              | error reason =>
                  rw [guarded] at released
                  cases released
              | ok next =>
                  rw [guarded] at released
                  obtain ⟨same, later⟩ := List.cons.inj released
                  cases same
                  -- A chunk that is let through is counted whole, and the count is within the
                  -- limit.
                  have counted : next.total = state.total + piece.length ∧
                      next.total ≤ maxResponseBody := by
                    unfold guardChunk at guarded
                    dsimp only at guarded
                    split at guarded
                    · cases guarded
                    · rename_i within
                      split at guarded
                      · cases guarded
                      · split at guarded
                        · cases guarded
                        · split at guarded
                          · cases guarded
                          · cases guarded
                            dsimp only
                            omega
                  rw [List.flatten_cons, List.length_append, ← Nat.add_assoc, ← counted.1]
                  exact ih counted.2 later

theorem length_le_of_streamed {source : Source} {pieces : List Bytes}
    (streamed : streamBody serde source expected canonical = .ok (pieces.map .ok)) :
    pieces.flatten.length ≤ maxResponseBody := by
  obtain ⟨⟨first, left⟩, -, guarded⟩ := bind_eq_ok.mp streamed
  have light := length_le_of_released (Nat.zero_le maxResponseBody) (Except.ok.inj guarded)
  rw [Nat.zero_add] at light
  exact light

/-- Short frames are within every bound. -/
theorem StreamBounds.of_short {leading middle : List SseFrame} {start last : SseFrame}
    {rewritten : Value} (others : (Frame.stream (leading ++ middle)).length ≤ 1000)
    (started : start.symbols.length ≤ 1000)
    (released : (asBytes (startFrame (serde.toString rewritten))).length ≤ 1000)
    (ended : last.symbols.length ≤ 1000) :
    StreamBounds serde leading start rewritten middle last := by
  have preamble : maxStreamPreamble = 65536 := rfl
  have frame : maxStreamFrame = 4194304 := rfl
  have body : maxResponseBody = 33554432 := rfl
  have within : ∀ other ∈ leading ++ middle, other.symbols.length ≤
      (Frame.stream (leading ++ middle)).length := fun other mem =>
    (List.sublist_flatten_of_mem (List.mem_map_of_mem mem)).length_le
  rw [Frame.stream_append, List.length_append] at others within
  refine ⟨?_, by omega, ?_, ?_⟩
  · rw [Frame.stream_append, Frame.stream_cons, Frame.stream_nil, List.append_nil,
      List.length_append]
    omega
  · intro other mem
    rcases List.mem_append.mp mem with inner | isLast
    · have := within other inner
      omega
    · rw [List.mem_singleton.mp isLast]
      omega
  · unfold releasedBytes
    rw [Frame.stream_append, Frame.stream_cons, Frame.stream_nil, List.append_nil,
      List.length_append, List.length_append, List.length_append]
    omega

/-! ### A message that is a start and a stop -/

/-- The frame of a message start that names a model of one letter. -/
def rawStart : SseFrame :=
  ⟨asBytes ("event: message_start\ndata: " ++ messageStartText "m"), lfLf,
    first_start (messageJson_faithful.oneLine (messageStart "m"))⟩

theorem rawStart_reads :
    parseStreamEvent messageJson rawStart.text = .ok (.messageStart (messageStart "m")) :=
  parseStreamEvent_start (messageJson_faithful.oneLine (messageStart "m"))
    ⟨_, messageStartText_toList "m"⟩ (messageJson_readsBack "m") rfl

def stopFrame : SseFrame :=
  ⟨asBytes ("event: message_stop\ndata: " ++ messageStopText), lfLf, by decide⟩

theorem rawStart_short : rawStart.symbols.length ≤ 1000 := by decide

theorem stopFrame_short : stopFrame.symbols.length ≤ 1000 := by decide

theorem messageStart_short : (asBytes (startFrame (messageStartText "model"))).length ≤ 1000 := by
  decide

/-- A blank line between two frames. -/
def blankFrame : SseFrame := ⟨[], lfLf, rfl⟩

/-- A message start, blank lines and the message stop. -/
theorem shape_of_blanks (n : Nat) :
    StreamShape messageJson "m" (Frame.stream (rawStart :: (List.replicate n blankFrame ++ [stopFrame])))
      [] rawStart (messageStart "m") (List.replicate n blankFrame) stopFrame where
  bytes := rfl
  leading := List.forall_mem_nil _
  start := rawStart_reads
  model := rfl
  middle := fun _ mem => List.eq_of_mem_replicate mem ▸ ⟨.empty, rfl, rfl, rfl⟩
  last := ⟨.messageStop, rfl, rfl⟩

/-- A response that is released to its end without an error is a stream of that grammar,
released with its start rewritten; every such stream within the bounds is released. -/
theorem streams_keep_identity (faithful : serde.Faithful) (expected canonical : String) :
    (∀ (source : Source) (body : List (Except StreamEnd Bytes)),
      streamBody serde source expected canonical = .ok body →
      (∀ item ∈ body, ∃ piece, item = .ok piece) →
      ∃ (chunks pieces : List Bytes) (leading : List SseFrame) (start : SseFrame)
        (value rewritten : Value) (middle : List SseFrame) (last : SseFrame),
        source = chunks.map .ok ∧ body = pieces.map .ok ∧
        StreamShape serde expected chunks.flatten leading start value middle last ∧
        withModel expected canonical value = .ok rewritten ∧
        messageModel rewritten = some canonical ∧
        pieces.flatten = releasedBytes serde leading rewritten middle last) ∧
    (∀ (chunks : List Bytes) (leading : List SseFrame) (start : SseFrame) (value : Value)
      (middle : List SseFrame) (last : SseFrame),
      StreamShape serde expected chunks.flatten leading start value middle last →
      ∃ rewritten, withModel expected canonical value = .ok rewritten ∧
        (StreamBounds serde leading start rewritten middle last →
          ∃ pieces : List Bytes,
            streamBody serde (chunks.map .ok) expected canonical = .ok (pieces.map .ok) ∧
            pieces.flatten = releasedBytes serde leading rewritten middle last)) := by
  constructor
  · intro source body streamed released
    obtain ⟨chunks, pieces, leading, start, value, rewritten, middle, last, given, passed, shape,
      rewrote, same⟩ := shape_of_released faithful streamed released
    exact ⟨chunks, pieces, leading, start, value, rewritten, middle, last, given, passed, shape,
      rewrote, (withModel_eq_ok rewrote).2.1, same⟩
  · intro chunks leading start value middle last shape
    obtain ⟨rewritten, rewrote⟩ := withModel_of_messageModel shape.model
    exact ⟨rewritten, rewrote, released_of_shape faithful shape rewrote⟩

/-- A start and a stop, cut in the middle of the start. -/
theorem streams_keep_identity_in_two_pieces :
    ∃ pieces : List Bytes,
      streamBody messageJson
          ([rawStart.symbols.take 30, rawStart.symbols.drop 30 ++ stopFrame.symbols].map .ok)
          "m" "model" = .ok (pieces.map .ok) ∧
      pieces.flatten = asBytes (startFrame (messageStartText "model")) ++ stopFrame.symbols := by
  have shape := shape_of_blanks 0
  have split : Frame.stream (rawStart :: (List.replicate 0 blankFrame ++ [stopFrame])) =
      [rawStart.symbols.take 30, rawStart.symbols.drop 30 ++ stopFrame.symbols].flatten := by
    decide
  rw [split] at shape
  obtain ⟨rewritten, rewrote, released⟩ :=
    (streams_keep_identity messageJson_faithful "m" "model").2 _ _ _ _ _ _ shape
  have same : rewritten = messageStart "model" := (Except.ok.inj rewrote).symm
  subst same
  exact released (.of_short (by decide) rawStart_short messageStart_short stopFrame_short)

/-- The total is that of the rewritten stream: a stream whose own bytes are within the
bound is not released when the canonical name is longer by enough. -/
theorem total_is_counted_as_released :
    ¬ ∀ (serde : SerdeJson), serde.Faithful → ∀ (expected canonical : String)
      (chunks : List Bytes) (leading : List SseFrame) (start : SseFrame) (value : Value)
      (middle : List SseFrame) (last : SseFrame),
      StreamShape serde expected chunks.flatten leading start value middle last →
      (Frame.stream (leading ++ [start])).length ≤ maxStreamPreamble →
      (∀ frame ∈ leading ++ start :: (middle ++ [last]), frame.symbols.length ≤ maxStreamFrame) →
      chunks.flatten.length ≤ maxResponseBody →
      ∃ (rewritten : Value) (pieces : List Bytes),
        withModel expected canonical value = .ok rewritten ∧
        streamBody serde (chunks.map .ok) expected canonical = .ok (pieces.map .ok) ∧
        pieces.flatten = releasedBytes serde leading rewritten middle last := by
  intro claim
  have blanks : ∀ n, (Frame.stream (List.replicate n blankFrame)).length = 2 * n := by
    intro n
    induction n with
    | zero => rfl
    | succ n ih =>
        rw [List.replicate_succ, Frame.stream_cons, List.length_append, ih]
        exact (Nat.add_comm 2 (2 * n)).trans (Nat.mul_succ 2 n).symm
  have longer : (asBytes (startFrame (messageJson.toString (messageStart "mmm")))).length =
      rawStart.symbols.length + 2 := by decide
  have startShort := rawStart_short
  have stopShort := stopFrame_short
  have body : maxResponseBody = 33554432 := rfl
  have most : 2000 ≤ maxResponseBody := by omega
  have frame : maxStreamFrame = 4194304 := rfl
  have preamble : maxStreamPreamble = 65536 := rfl
  -- As many blank lines as the upstream bytes have room for.
  generalize count :
    (maxResponseBody - rawStart.symbols.length - stopFrame.symbols.length) / 2 = n
  have shape := shape_of_blanks n
  rw [← List.flatten_singleton (l := Frame.stream _)] at shape
  have preambleLight : (Frame.stream ([] ++ [rawStart])).length ≤ maxStreamPreamble := by
    rw [List.nil_append, Frame.stream_cons, Frame.stream_nil, List.append_nil]
    omega
  have frames : ∀ other ∈ [] ++ rawStart :: (List.replicate n blankFrame ++ [stopFrame]),
      other.symbols.length ≤ maxStreamFrame := by
    intro other mem
    rcases List.mem_cons.mp mem with rfl | mem
    · omega
    · rcases List.mem_append.mp mem with blank | last
      · have two : blankFrame.symbols.length = 2 := rfl
        rw [List.eq_of_mem_replicate blank]
        omega
      · rw [List.mem_singleton.mp last]
        omega
  have upstreamLight :
      [Frame.stream (rawStart :: (List.replicate n blankFrame ++ [stopFrame]))].flatten.length ≤
        maxResponseBody := by
    rw [List.flatten_singleton, Frame.stream_cons, List.length_append, Frame.stream_append,
      List.length_append, blanks, Frame.stream_cons, Frame.stream_nil, List.append_nil]
    omega
  obtain ⟨rewritten, pieces, rewrote, streamed, whole⟩ := claim messageJson messageJson_faithful
    "m" "mmm" _ _ _ _ _ _ shape preambleLight frames upstreamLight
  have same : rewritten = messageStart "mmm" := (Except.ok.inj rewrote).symm
  subst same
  have light := length_le_of_streamed streamed
  rw [whole] at light
  unfold releasedBytes at light
  rw [Frame.stream_nil, List.nil_append, List.length_append, Frame.stream_append,
    List.length_append, blanks, Frame.stream_cons, Frame.stream_nil, List.append_nil,
    longer] at light
  have full : ∀ start stop most blanks : Nat, (most - start - stop) / 2 = blanks → start ≤ 1000 →
      stop ≤ 1000 → 2000 ≤ most → ¬ start + 2 + (2 * blanks + stop) ≤ most := by omega
  exact full _ _ _ n count startShort stopShort most light

end GmMiner.Bedrock
