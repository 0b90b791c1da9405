import GmMiner.Chutes.Exchange
import GmMiner.Chutes.StreamSplits

/-!
A completion that an instance seals, and what becomes of it on the way to the client.

Frames that a stream may seal are released in their order (`releaseEach_acceptable`), whatever texts
they are sealed in (`relayEach_sealed`), whatever plaintext comes between the sealed texts
(`CarriesEvents`), and in whatever pieces the bytes come.
-/

namespace GmMiner.Chutes

open GmMiner.Lib GmMiner.Json

section Frames

variable {Key : Type} {parts : StreamParts Key} {model : String}

/-! ### Frames that are released -/

/-- The total of the usage that a frame carries. -/
def usageTotalOf (parts : StreamParts Key) (data : List Char) : Option Nat :=
  ((parts.fromStr data).bind usageOf).map usageTotal

/-- A frame that a stream may seal: it is JSON, names no other model, and can be billed on if it is a
usage frame. -/
structure Acceptable (parts : StreamParts Key) (model : String) (data : List Char) : Prop where
  notDone : data ≠ doneText
  read : ∃ chunk, parts.fromStr data = some chunk ∧ checkModel.{0} model chunk = .ok ⟨⟩ ∧
    ∀ usage, usageOf chunk = some usage → contentFree chunk = true → requireBillable usage = .ok ⟨⟩

/-- The frames of a completion, the last of which is a usage frame. -/
structure Completion (parts : StreamParts Key) (model : String) (frames : List (List Char))
    (usage : List Char) : Prop where
  acceptable : ∀ data ∈ frames ++ [usage], Acceptable parts model data
  rising : ((frames ++ [usage]).filterMap (usageTotalOf parts)).Pairwise (· ≤ ·)
  last : isUsageFrame parts usage = true

/-- A chunk of the model passes if its usage does not fall. -/
theorem checkChunk_of_named {state : StreamDecryptor Key} {chunk : Value}
    (named : checkModel.{0} model chunk = .ok ⟨⟩)
    (grows : ∀ usage, usageOf chunk = some usage → state.usageTotal ≤ usageTotal usage) :
    checkChunk model state chunk =
      .ok { state with usageTotal := ((usageOf chunk).map usageTotal).getD state.usageTotal } := by
  unfold checkChunk
  rw [named]
  cases carries : usageOf chunk with
  | none => rfl
  | some usage =>
      refine bind_eq_ok.mpr ⟨⟨⟩, rfl, bind_eq_ok.mpr ⟨⟨⟩, ?_, rfl⟩⟩
      exact ensure_eq_ok.mpr (decide_eq_true (grows usage carries))

/-- What a frame leaves held: itself, if it is a usage frame. -/
def heldAfter (parts : StreamParts Key) (data : List Char) : Option (List Char) :=
  if isUsageFrame parts data then some data else none

/-- Acceptable data are released if their usage does not fall. -/
theorem releaseData_acceptable {state : StreamDecryptor Key} {data : List Char}
    (acceptable : Acceptable parts model data)
    (grows : ∀ total, usageTotalOf parts data = some total → state.usageTotal ≤ total) :
    releaseData parts model state data =
      .ok ({ state with
        usageTotal := (usageTotalOf parts data).getD state.usageTotal
        heldUsage := heldAfter parts data }, (relayed parts data).toList.flatMap emit) := by
  obtain ⟨chunk, read, named, billable⟩ := acceptable.read
  have total : usageTotalOf parts data = (usageOf chunk).map usageTotal := by
    rw [usageTotalOf, read]
    rfl
  have growsHere : ∀ usage, usageOf chunk = some usage → state.usageTotal ≤ usageTotal usage :=
    fun usage carries => grows _ (by rw [total, carries]; rfl)
  have checked := checkChunk_of_named named growsHere
  unfold releaseData relayed heldAfter isUsageFrame
  rw [if_neg acceptable.notDone, read, total]
  refine bind_eq_ok.mpr ⟨chunk, rfl, ?_⟩
  cases carries : usageOf chunk with
  | none =>
      rw [carries] at checked
      refine bind_eq_ok.mpr ⟨_, checked, ?_⟩
      simp [carries]
      rfl
  | some usage =>
      rw [carries] at checked
      cases free : contentFree chunk with
      | false =>
          refine bind_eq_ok.mpr ⟨_, checked, ?_⟩
          simp [carries, free]
          rfl
      | true =>
          refine bind_eq_ok.mpr ⟨⟨⟩, billable usage carries free, bind_eq_ok.mpr ⟨_, checked, ?_⟩⟩
          simp [carries, free]
          rfl

/-- Data are released item by item. -/
theorem releaseEach_cons_eq_ok {state next : StreamDecryptor Key} {data : List Char}
    {later : List (List Char)} {output : Bytes} :
    releaseEach parts model state (data :: later) = .ok (next, output) ↔
      ∃ middle here more, releaseData parts model state data = .ok (middle, here) ∧
        releaseEach parts model middle later = .ok (next, more) ∧ output = here ++ more := by
  rw [releaseEach]
  constructor
  · intro released
    obtain ⟨⟨middle, here⟩, first, released⟩ := bind_eq_ok.mp released
    obtain ⟨⟨last, more⟩, rest, same⟩ := bind_eq_ok.mp released
    cases same
    exact ⟨middle, here, more, first, rest, rfl⟩
  · rintro ⟨middle, here, more, first, rest, rfl⟩
    exact bind_eq_ok.mpr ⟨(middle, here), first, bind_eq_ok.mpr ⟨(next, more), rest, rfl⟩⟩

/-- Data are released one list after the other. -/
theorem releaseEach_append_eq_ok {state next : StreamDecryptor Key} {lines others : List (List Char)}
    {output : Bytes} :
    releaseEach parts model state (lines ++ others) = .ok (next, output) ↔
      ∃ middle here more, releaseEach parts model state lines = .ok (middle, here) ∧
        releaseEach parts model middle others = .ok (next, more) ∧ output = here ++ more := by
  induction lines generalizing state output with
  | nil =>
      constructor
      · intro released
        exact ⟨state, [], output, rfl, released, rfl⟩
      · rintro ⟨middle, here, more, same, released, rfl⟩
        cases same
        exact released
  | cons data later ih =>
      rw [List.cons_append]
      simp only [releaseEach_cons_eq_ok, ih]
      constructor
      · rintro ⟨middle, here, more, first, ⟨last, between, rest, second, third, rfl⟩, rfl⟩
        exact ⟨last, here ++ between, rest, ⟨middle, here, between, first, second, rfl⟩, third,
          (List.append_assoc _ _ _).symm⟩
      · rintro ⟨last, here, more, ⟨middle, before, between, first, second, rfl⟩, third, rfl⟩
        exact ⟨middle, before, between ++ more, first, ⟨last, between, more, second, third, rfl⟩,
          List.append_assoc _ _ _⟩

/-- Frames whose totals do not fall are all released, and the last one decides what is held. -/
theorem releaseEach_acceptable {frames : List (List Char)}
    (acceptable : ∀ data ∈ frames, Acceptable parts model data) {state : StreamDecryptor Key}
    (rising : (state.usageTotal :: frames.filterMap (usageTotalOf parts)).Pairwise (· ≤ ·)) :
    ∃ total, releaseEach parts model state frames =
      .ok ({ state with
        usageTotal := total
        heldUsage := frames.foldl (fun _ data => heldAfter parts data) state.heldUsage },
        (frames.filterMap (relayed parts)).flatMap emit) := by
  induction frames generalizing state with
  | nil => exact ⟨state.usageTotal, rfl⟩
  | cons data later ih =>
      obtain ⟨here, rest⟩ := List.forall_mem_cons.mp acceptable
      rw [List.pairwise_cons] at rising
      have grows : ∀ total, usageTotalOf parts data = some total → state.usageTotal ≤ total :=
        fun total carries => rising.1 total (List.mem_filterMap.mpr ⟨data, List.mem_cons_self, carries⟩)
      have first := releaseData_acceptable here grows
      let middle : StreamDecryptor Key := { state with
        usageTotal := (usageTotalOf parts data).getD state.usageTotal
        heldUsage := heldAfter parts data }
      have risingLater :
          (middle.usageTotal :: later.filterMap (usageTotalOf parts)).Pairwise (· ≤ ·) := by
        show ((usageTotalOf parts data).getD state.usageTotal :: _).Pairwise _
        cases carries : usageTotalOf parts data with
        | none =>
            rw [List.filterMap_cons_none carries] at rising
            exact List.pairwise_cons.mpr rising
        | some total =>
            rw [List.filterMap_cons_some carries] at rising
            exact rising.2
      obtain ⟨total, released⟩ := ih rest risingLater
      refine ⟨total, releaseEach_cons_eq_ok.mpr ⟨_, _, _, first, released, ?_⟩⟩
      cases relays : relayed parts data with
      | none => simp [relays]
      | some payload => simp [relays]

/-- A completion and its `[DONE]` are released whole. -/
theorem Completion.released {frames : List (List Char)} {usage : List Char}
    (completion : Completion parts model frames usage) {state : StreamDecryptor Key}
    (fresh : state.usageTotal = 0) :
    ∃ next, releaseEach parts model state (frames ++ [usage] ++ [doneText]) =
        .ok (next, (frames.filterMap (relayed parts)).flatMap emit ++ (emit usage ++ emit doneText)) ∧
      next.done = true := by
  have rising : (state.usageTotal :: (frames ++ [usage]).filterMap (usageTotalOf parts)).Pairwise
      (· ≤ ·) := by
    rw [fresh]
    exact List.pairwise_cons.mpr ⟨fun total _ => Nat.zero_le total, completion.rising⟩
  obtain ⟨total, released⟩ := releaseEach_acceptable completion.acceptable rising
  have held : heldAfter parts usage = some usage := if_pos completion.last
  have unrelayed : relayed parts usage = none := if_pos completion.last
  rw [List.foldl_concat, held, List.filterMap_append, List.filterMap_cons_none unrelayed,
    List.filterMap_nil, List.append_nil] at released
  refine ⟨{ state with usageTotal := total, heldUsage := none, done := true },
    releaseEach_append_eq_ok.mpr ⟨_, _, _, released, ?_, rfl⟩, rfl⟩
  exact releaseEach_cons_eq_ok.mpr ⟨_, _, [], rfl, rfl, (List.append_nil _).symm⟩

/-! ### Texts that are sealed -/

/-- A stream is done with what it was done with, and with its `[DONE]`. -/
theorem releaseEach_done {lines : List (List Char)} {state next : StreamDecryptor Key}
    {output : Bytes} (released : releaseEach parts model state lines = .ok (next, output))
    (isDone : next.done = true) : state.done = true ∨ doneText ∈ lines := by
  induction lines generalizing state output with
  | nil =>
      cases released
      exact .inl isDone
  | cons data later ih =>
      obtain ⟨middle, here, more, first, rest, -⟩ := releaseEach_cons_eq_ok.mp released
      rcases ih rest with before | mem
      · cases releases_of_ok first with
        | done usage same => exact .inr (same ▸ List.mem_cons_self)
        | usage => exact .inl before
        | content => exact .inl before
      · exact .inr (List.mem_cons_of_mem _ mem)

/-- Texts sealed one after the other come to what their lines come to, if those behind the `[DONE]`
are blank. -/
theorem relayEach_sealed {key : Key} {values : List Value} {texts past : List (List Char)}
    (chunks : List.Forall₂ (fun value text =>
      ∃ chunk, value.asStr = some chunk ∧ parts.decryptChunk key chunk = some text) values texts)
    (blank : ∀ before text after, past ++ texts = before ++ text :: after →
      doneText ∈ before.flatMap dataLines → trim text = [])
    {state next : StreamDecryptor Key} {output : Bytes} (keyed : state.streamKey = some key)
    (known : state.done = true → doneText ∈ past.flatMap dataLines)
    (released : releaseEach parts model state (texts.flatMap dataLines) = .ok (next, output)) :
    relayEach parts model state (values.map .chunk) = .ok (next, output) := by
  induction chunks generalizing past state output with
  | nil => exact released
  | @cons value text values texts opens rest ih =>
      obtain ⟨chunk, isText, opened⟩ := opens
      rw [List.flatMap_cons] at released
      obtain ⟨middle, here, more, first, later, rfl⟩ := releaseEach_append_eq_ok.mp released
      have quiet : (!state.done || (trim text).isEmpty) = true := by
        cases done : state.done with
        | false => rfl
        | true => simp [blank past text texts rfl (known done)]
      have relays : relayRead parts model state (.chunk value) = .ok (middle, here) := by
        refine bind_eq_ok.mpr ⟨key, required_eq_ok.mpr keyed, bind_eq_ok.mpr ⟨chunk,
          required_eq_ok.mpr isText, bind_eq_ok.mpr ⟨text, required_eq_ok.mpr opened,
            bind_eq_ok.mpr ⟨⟨⟩, ensure_eq_ok.mpr quiet, ?_⟩⟩⟩⟩
        rw [releaseAll_eq]
        exact first
      have keyedLater : middle.streamKey = some key := (releaseEach_frame first).1.trans keyed
      have knownLater : middle.done = true → doneText ∈ (past ++ [text]).flatMap dataLines := by
        intro isDone
        rw [List.flatMap_append, List.flatMap_singleton, List.mem_append]
        exact (releaseEach_done first isDone).imp known id
      refine bind_eq_ok.mpr ⟨(middle, here), relays, bind_eq_ok.mpr ⟨(next, more), ?_, rfl⟩⟩
      exact ih (fun before other after split => blank before other after (by simpa using split))
        keyedLater knownLater later

/-! ### Among other plaintext -/

/-- Lines that carry events in their order; a line may also carry nothing. -/
inductive CarriesEvents (parts : StreamParts Key) : List Bytes → List RelayEvent → Prop
  | nil : CarriesEvents parts [] []
  | nothing {line : Bytes} {text : String} {lines : List Bytes} {events : List RelayEvent}
      (utf8 : fromUtf8 line = some text)
      (read : readRelayEvent parts (trimEnd text.toList) = .nothing)
      (later : CarriesEvents parts lines events) : CarriesEvents parts (line :: lines) events
  | event {line : Bytes} {text : String} {lines : List Bytes} {event : RelayEvent}
      {events : List RelayEvent} (utf8 : fromUtf8 line = some text)
      (read : readRelayEvent parts (trimEnd text.toList) = event)
      (later : CarriesEvents parts lines events) : CarriesEvents parts (line :: lines) (event :: events)

/-- Lines that carry events are relayed as the events are. -/
theorem CarriesEvents.relayAll {lines : List Bytes} {events : List RelayEvent}
    (carries : CarriesEvents parts lines events) {state next : StreamDecryptor Key} {output : Bytes}
    (relayed : relayEach parts model state events = .ok (next, output)) :
    relayAll parts model state lines = .ok (next, output) := by
  induction carries generalizing state output with
  | nil => exact relayed
  | @nothing line text lines events utf8 read later ih =>
      refine relayAll_cons_eq_ok.mpr ⟨text, state, [], output, utf8, ?_, ih relayed, rfl⟩
      rw [relayEvent_eq, read]
      rfl
  | @event line text lines event events utf8 read later ih =>
      obtain ⟨⟨middle, here⟩, first, relayed⟩ := bind_eq_ok.mp relayed
      obtain ⟨⟨last, more⟩, rest, same⟩ := bind_eq_ok.mp relayed
      cases same
      refine relayAll_cons_eq_ok.mpr ⟨text, middle, here, more, utf8, ?_, ih rest, rfl⟩
      rw [relayEvent_eq, read]
      exact first

/-- Events are relayed one list after the other. -/
theorem relayEach_append {events others : List RelayEvent} {state middle next : StreamDecryptor Key}
    {here more : Bytes} (first : relayEach parts model state events = .ok (middle, here))
    (second : relayEach parts model middle others = .ok (next, more)) :
    relayEach parts model state (events ++ others) = .ok (next, here ++ more) := by
  induction events generalizing state here with
  | nil =>
      cases first
      exact second
  | cons event events ih =>
      obtain ⟨⟨between, output⟩, head, first⟩ := bind_eq_ok.mp first
      obtain ⟨⟨last, later⟩, rest, same⟩ := bind_eq_ok.mp first
      cases same
      rw [List.append_assoc]
      exact bind_eq_ok.mpr
        ⟨(between, output), head, bind_eq_ok.mpr ⟨(next, later ++ more), ih rest, rfl⟩⟩

/-- After the sealed `[DONE]` the relay's own says nothing. -/
theorem relayEach_closing {state : StreamDecryptor Key} (isDone : state.done = true) (n : Nat) :
    relayEach parts model state (List.replicate n .done) = .ok (state, []) := by
  induction n with
  | zero => rfl
  | succ n ih =>
      refine bind_eq_ok.mpr ⟨(state, []), ?_, bind_eq_ok.mpr ⟨(state, []), ih, rfl⟩⟩
      exact bind_eq_ok.mpr ⟨⟨⟩, ensure_eq_ok.mpr isDone, rfl⟩

end Frames

/-! ### From the instance to the client -/

section Sealed

/-- The parts of a decryptor that holds a response key. -/
def streamParts (parts : WireParts) (fromStr : List Char → Option Value)
    (toString : Value → List Char) (responseKey : Bytes) : StreamParts Bytes where
  fromStr
  toString
  streamKey init := (streamKey parts responseKey init).toOption
  decryptChunk key chunk := (decryptChunk parts key chunk).toOption.map String.toList

/-- The events of texts that a responder seals, each with its own nonce, and of the relay's own
`[DONE]`, which may come any number of times. -/
def sealedEvents (parts : WireParts) (responder : Responder) (texts : List (String × Nat))
    (closing : Nat) : List RelayEvent :=
  .init (.string responder.streamInit) ::
    ((texts.map fun text => Value.string (responder.streamChunk parts text.1 text.2)).map .chunk ++
      List.replicate closing .done)

variable {parts : WireParts} {fromStr : List Char → Option Value} {toString : Value → List Char}

theorem streamKey_streamInit (lawful : parts.Lawful) (seed drawn : Nat) :
    streamKey parts (parts.generateKeypair seed).1
        (Responder.new parts (parts.generateKeypair seed).2 drawn).streamInit =
      .ok ((Responder.new parts (parts.generateKeypair seed).2 drawn).key parts infoStream) :=
  bind_eq_ok.mpr ⟨_, required_eq_ok.mpr (decodeText_encodeText _),
    derive_encapsulate lawful seed drawn infoStream⟩

theorem decryptChunk_streamChunk (lawful : parts.Lawful) (responder : Responder) (text : String)
    (nonce : Nat) :
    decryptChunk parts (responder.key parts infoStream) (responder.streamChunk parts text nonce) =
      .ok text :=
  bind_eq_ok.mpr ⟨_, required_eq_ok.mpr (decodeText_encodeText _),
    bind_eq_ok.mpr ⟨_, mapError_eq_ok.mpr (openBytes_sealBytes lawful _ _ _),
      required_eq_ok.mpr (fromUtf8_asBytes text)⟩⟩

/-- The chunks of a stream open as their texts. -/
theorem opens_streamChunks (lawful : parts.Lawful) (fromStr : List Char → Option Value)
    (toString : Value → List Char) (seed : Nat) (responder : Responder) (texts : List (String × Nat)) :
    List.Forall₂ (fun value text => ∃ chunk, value.asStr = some chunk ∧
      (streamParts parts fromStr toString (parts.generateKeypair seed).1).decryptChunk
        (responder.key parts infoStream) chunk = some text)
      (texts.map fun text => Value.string (responder.streamChunk parts text.1 text.2))
      (texts.map fun text => text.1.toList) := by
  induction texts with
  | nil => exact .nil
  | cons text texts ih =>
      refine .cons ⟨_, rfl, ?_⟩ ih
      simp only [streamParts, decryptChunk_streamChunk lawful, Except.toOption, Option.map_some]

/-- A completion that an instance seals to the public key of a request comes to the client whole: each
frame in its place without its usage, the last usage frame, and `[DONE]`. It does not matter how the
frames are cut into sealed texts, what other plaintext the relay adds, or in which pieces the bytes
come, as long as no line is too long. -/
theorem sealed_stream_comes_through (lawful : parts.Lawful) {model : String} {seed drawn : Nat}
    {frames : List (List Char)} {usage : List Char} {texts : List (String × Nat)} {closing : Nat}
    {pieces : List Bytes}
    (completion : Completion (streamParts parts fromStr toString (parts.generateKeypair seed).1) model
      frames usage)
    (whole : texts.flatMap (fun text => dataLines text.1.toList) = frames ++ [usage] ++ [doneText])
    (blank : ∀ before text after, texts = before ++ text :: after →
      doneText ∈ before.flatMap (fun text => dataLines text.1.toList) → trim text.1.toList = [])
    (carries : CarriesEvents (streamParts parts fromStr toString (parts.generateKeypair seed).1)
      (drainLines pieces.flatten).1
      (sealedEvents parts (Responder.new parts (parts.generateKeypair seed).2 drawn) texts closing))
    (short : ∀ line ∈ (drainLines pieces.flatten).1, line.length ≤ maxLineBytes + 1)
    (left : (drainLines pieces.flatten).2.length ≤ maxLineBytes) :
    decryptStream (streamParts parts fromStr toString (parts.generateKeypair seed).1) model pieces =
      .ok ((frames.filterMap (relayed (streamParts parts fromStr toString
        (parts.generateKeypair seed).1))).flatMap emit ++ (emit usage ++ emit doneText)) := by
  let key := (Responder.new parts (parts.generateKeypair seed).2 drawn).key parts infoStream
  have keyed : (streamParts parts fromStr toString (parts.generateKeypair seed).1).streamKey
      (Responder.new parts (parts.generateKeypair seed).2 drawn).streamInit = some key := by
    simp only [streamParts, streamKey_streamInit lawful, Except.toOption, key]
  -- The first event is the key, and the chunks open under it.
  let state : StreamDecryptor Bytes := { StreamDecryptor.new Bytes with streamKey := some key }
  have init : relayRead (streamParts parts fromStr toString (parts.generateKeypair seed).1) model
      (.new Bytes)
      (.init (.string (Responder.new parts (parts.generateKeypair seed).2 drawn).streamInit)) =
        .ok (state, []) :=
    bind_eq_ok.mpr ⟨⟨⟩, rfl, bind_eq_ok.mpr ⟨_, rfl, bind_eq_ok.mpr ⟨key, required_eq_ok.mpr keyed,
      rfl⟩⟩⟩
  obtain ⟨next, released, isDone⟩ := completion.released (show state.usageTotal = 0 from rfl)
  rw [← whole] at released
  have known : state.done = true → doneText ∈ ([] : List (List Char)).flatMap dataLines := by
    intro done
    cases done
  have relayed := relayEach_sealed (opens_streamChunks lawful fromStr toString seed _ texts) ?_ rfl
    known (by rw [List.flatMap_map]; exact released)
  · have all := relayEach_append relayed (relayEach_closing isDone closing)
    rw [List.append_nil] at all
    have events : relayEach (streamParts parts fromStr toString (parts.generateKeypair seed).1) model
        (.new Bytes) (sealedEvents parts
          (Responder.new parts (parts.generateKeypair seed).2 drawn) texts closing) = .ok (next, _) :=
      bind_eq_ok.mpr ⟨(state, []), init, bind_eq_ok.mpr ⟨(next, _), all, rfl⟩⟩
    have nothing : 10 ∉ (StreamDecryptor.new Bytes).pending := List.not_mem_nil
    have fed := (feedAll_eq_ok nothing).mpr
      ⟨next, carries.relayAll events, rfl, leftovers_le short left⟩
    exact bind_eq_ok.mpr ⟨_, fed, bind_eq_ok.mpr ⟨⟨⟩, ensure_eq_ok.mpr isDone, rfl⟩⟩
  · rw [List.nil_append]
    intro before text after split done
    obtain ⟨first, rest, cut, rfl, same⟩ := List.map_eq_append_iff.mp split
    obtain ⟨here, later, rfl, rfl, -⟩ := List.map_eq_cons_iff.mp same
    exact blank first here later cut (by rw [List.flatMap_map] at done; exact done)

end Sealed

/-! ### A small completion -/

def openResponder : Responder := Responder.new openParts (openParts.generateKeypair 0).2 0

def openTexts : List (String × Nat) := [("data: f\n\ndata: u\n", 0), ("data: [DONE]\n", 1), ("\n", 2)]

/-- The JSON of that completion, each text by a name. -/
def openJson (text : List Char) : Option Value :=
  if text = ['i'] then some (.object [("e2e_init", .string openResponder.streamInit)])
  else if text = ['c'] then
    some (.object [("e2e", .string (openResponder.streamChunk openParts "data: f\n\ndata: u\n" 0))])
  else if text = ['d'] then
    some (.object [("e2e", .string (openResponder.streamChunk openParts "data: [DONE]\n" 1))])
  else if text = ['b'] then
    some (.object [("e2e", .string (openResponder.streamChunk openParts "\n" 2))])
  else if text = ['f'] then some (.object [("choices", .array [.null])])
  else if text = ['u'] then some usageFrame
  else none

/-- The bytes of that completion, cut inside an event, with a line of the relay's among them. -/
def openPieces : List Bytes :=
  [asBytes "data: i\ndat", asBytes "a: c\n: relay\ndata: d\n\n", asBytes "data: b\ndata: [DONE]\n"]

def openStream : StreamParts Bytes :=
  streamParts openParts openJson (fun _ => ['v']) (openParts.generateKeypair 0).1

theorem openPieces_lines : drainLines openPieces.flatten =
    ([asBytes "data: i\n", asBytes "data: c\n", asBytes ": relay\n", asBytes "data: d\n",
      asBytes "\n", asBytes "data: b\n", asBytes "data: [DONE]\n"], []) := by
  decide

/-- The two texts make up a completion. -/
theorem openCompletion : Completion openStream "m" [['f']] ['u'] where
  acceptable data mem := by
    simp only [List.cons_append, List.nil_append, List.mem_cons, List.not_mem_nil, or_false] at mem
    rcases mem with rfl | rfl
    · exact ⟨by decide, _, rfl, rfl, nofun⟩
    · refine ⟨by decide, usageFrame, rfl, rfl, fun usage carries _ => ?_⟩
      cases carries
      rfl
  rising := List.pairwise_singleton _ _
  last := rfl

theorem openPieces_carry :
    CarriesEvents openStream (drainLines openPieces.flatten).1
      (sealedEvents openParts openResponder openTexts 1) := by
  rw [openPieces_lines]
  exact .event (fromUtf8_asBytes _) rfl (.event (fromUtf8_asBytes _) rfl (.nothing (fromUtf8_asBytes _)
    rfl (.event (fromUtf8_asBytes _) rfl (.nothing (fromUtf8_asBytes _) rfl (.event (fromUtf8_asBytes _)
      rfl (.event (fromUtf8_asBytes _) rfl .nil))))))

/-- No text comes after the end. -/
theorem openTexts_blank (before : List (String × Nat)) (text : String × Nat)
    (after : List (String × Nat)) (split : openTexts = before ++ text :: after)
    (isDone : doneText ∈ before.flatMap fun text => dataLines text.1.toList) :
    trim text.1.toList = [] := by
  rcases before with _ | ⟨first, _ | ⟨second, _ | ⟨third, before⟩⟩⟩
  · cases isDone
  · cases split
    revert isDone
    decide
  · cases split
    decide
  · have length := congrArg List.length split
    simp [openTexts] at length

/-- The stream in pieces is released as its texts. -/
theorem sealed_stream_comes_through_openly :
    decryptStream openStream "m" openPieces =
      .ok (([['f']].filterMap (relayed openStream)).flatMap emit ++ (emit ['u'] ++ emit doneText)) := by
  have whole : openTexts.flatMap (fun text => dataLines text.1.toList) =
      [['f']] ++ [['u']] ++ [doneText] := by
    decide
  have short : ∀ line ∈ (drainLines openPieces.flatten).1, line.length ≤ maxLineBytes + 1 := by
    rw [openPieces_lines]
    decide
  have left : (drainLines openPieces.flatten).2.length ≤ maxLineBytes := by
    rw [openPieces_lines]
    exact Nat.zero_le _
  exact sealed_stream_comes_through openParts_lawful openCompletion whole openTexts_blank
    openPieces_carry short left

end GmMiner.Chutes
