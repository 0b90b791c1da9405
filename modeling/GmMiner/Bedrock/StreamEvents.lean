import GmMiner.Json.Value
import GmMiner.Lib.Framing
import GmMiner.Lib.Result
import GmMiner.Text

/-!
The frames of a Bedrock Mantle event stream (`find_sse_frame`, `parse_stream_event`
and `parse_sse_preamble_frame` of `attestd/src/bedrock_mantle.rs`).

The syntax of JSON is `serde_json`'s: its reader and its writer are parameters, and
`SerdeJson.Faithful` is what the adapter relies on. `findSseFrame_eq` reads the two
searches of `find_sse_frame` as one search for either separator, so a stream is cut
into `SseFrame`s in one way.
-/

namespace GmMiner.Bedrock

open GmMiner.Lib GmMiner.Json

structure SerdeJson where
  /-- The tree a text is read as, before the check of its keys. -/
  decode : Bytes → Option Value
  /-- `serde_json::to_string`. -/
  toString : Value → String

/-- The rejections a stream can carry. -/
inductive Reject
  | upstream
  | upstreamTransport
  | modelIdentityMismatch
  deriving DecidableEq, Repr

/-! ### Separators -/

/-- Where the first window equal to a pattern begins. -/
def position (pattern : Bytes) : Bytes → Option Nat
  | [] => none
  | byte :: rest =>
      if pattern.isPrefixOf (byte :: rest) then some 0 else (position pattern rest).map (· + 1)

def lfLf : Bytes := [10, 10]

def crlfCrlf : Bytes := [13, 10, 13, 10]

/-- `find_sse_frame`. -/
def findSseFrame (bytes : Bytes) : Option (Nat × Nat) :=
  match position lfLf bytes, position crlfCrlf bytes with
  | some lf, some crlf => if crlf < lf then some (crlf, crlf + 4) else some (lf, lf + 2)
  | some lf, none => some (lf, lf + 2)
  | none, some crlf => some (crlf, crlf + 4)
  | none, none => none

/-- The length of the separator the bytes begin with. -/
def separatorAt (bytes : Bytes) : Option Nat :=
  if lfLf.isPrefixOf bytes then some 2
  else if crlfCrlf.isPrefixOf bytes then some 4
  else none

/-- A separator is one of the two blank lines. -/
theorem separatorAt_eq_some {bytes : Bytes} {length : Nat} :
    separatorAt bytes = some length ↔
      (∃ rest, bytes = lfLf ++ rest ∧ length = 2) ∨
        ∃ rest, bytes = crlfCrlf ++ rest ∧ length = 4 := by
  unfold separatorAt
  constructor
  · intro found
    split at found
    · rename_i begins
      obtain ⟨rest, rfl⟩ := List.isPrefixOf_iff_prefix.mp begins
      exact .inl ⟨rest, rfl, (Option.some.inj found).symm⟩
    · split at found
      · rename_i begins
        obtain ⟨rest, rfl⟩ := List.isPrefixOf_iff_prefix.mp begins
        exact .inr ⟨rest, rfl, (Option.some.inj found).symm⟩
      · cases found
  · rintro (⟨rest, rfl, rfl⟩ | ⟨rest, rfl, rfl⟩)
    · rfl
    · rfl

/-- Bytes that go on as an incomplete separator hold no separator. -/
private theorem separatorAt_drop {word text more rest : Bytes} (same : text ++ more = word ++ rest)
    (incomplete : text.length < word.length) (either : word = lfLf ∨ word = crlfCrlf) (n : Nat) :
    separatorAt (text.drop n) = none := by
  have begins : text <+: word :=
    List.prefix_of_prefix_length_le ⟨more, same⟩ ⟨rest, rfl⟩ incomplete.le
  have short : ∀ k < 4, ∀ n < 4, separatorAt ((lfLf.take (min k 1)).drop n) = none ∧
      separatorAt ((crlfCrlf.take k).drop n) = none := by decide
  rw [List.prefix_iff_eq_take.mp begins]
  rcases Nat.lt_or_ge n 4 with small | large
  · rcases either with rfl | rfl
    · have one : min text.length 1 = text.length := Nat.min_eq_left (Nat.le_of_lt_succ incomplete)
      exact one ▸ (short text.length (incomplete.trans (by decide)) n small).1
    · exact (short text.length incomplete n small).2
  · rw [List.drop_eq_nil_of_le]
    · rfl
    · have most : word.length ≤ 4 := by rcases either with rfl | rfl <;> decide
      rw [List.length_take]
      omega

/-- A blank line, in either line ending. -/
def separator : Delimiter UInt8 where
  starts := separatorAt
  overlap := 3
  pos := by
    intro bytes length found
    rcases separatorAt_eq_some.mp found with ⟨_, _, rfl⟩ | ⟨_, _, rfl⟩
    · exact Nat.zero_lt_two
    · exact Nat.zero_lt_succ _
  le_length := by
    intro bytes length found
    rcases separatorAt_eq_some.mp found with ⟨rest, rfl, rfl⟩ | ⟨rest, rfl, rfl⟩
    · exact List.length_append ▸ Nat.le_add_right 2 _
    · exact List.length_append ▸ Nat.le_add_right 4 _
  le_overlap := by
    intro bytes length found
    rcases separatorAt_eq_some.mp found with ⟨_, _, rfl⟩ | ⟨_, _, rfl⟩
    · decide
    · decide
  append := by
    intro bytes length more found
    rcases separatorAt_eq_some.mp found with ⟨rest, rfl, same⟩ | ⟨rest, rfl, same⟩
    · exact separatorAt_eq_some.mpr (.inl ⟨rest ++ more, List.append_assoc _ _ _, same⟩)
    · exact separatorAt_eq_some.mpr (.inr ⟨rest ++ more, List.append_assoc _ _ _, same⟩)
  of_append := by
    intro bytes more length found complete
    rcases separatorAt_eq_some.mp found with ⟨rest, same, rfl⟩ | ⟨rest, same, rfl⟩
    · obtain ⟨later, rfl⟩ := List.prefix_of_prefix_length_le ⟨rest, same.symm⟩ ⟨more, rfl⟩ complete
      exact separatorAt_eq_some.mpr (.inl ⟨later, rfl, rfl⟩)
    · obtain ⟨later, rfl⟩ := List.prefix_of_prefix_length_le ⟨rest, same.symm⟩ ⟨more, rfl⟩ complete
      exact separatorAt_eq_some.mpr (.inr ⟨later, rfl, rfl⟩)
  apart := by
    intro bytes more length found incomplete n
    rcases separatorAt_eq_some.mp found with ⟨rest, same, rfl⟩ | ⟨rest, same, rfl⟩
    · exact separatorAt_drop same incomplete (.inl rfl) n
    · exact separatorAt_drop same incomplete (.inr rfl) n

private theorem position_cons (pattern : Bytes) (byte : UInt8) (rest : Bytes) :
    position pattern (byte :: rest) =
      if pattern.isPrefixOf (byte :: rest) then some 0
      else (position pattern rest).map (· + 1) := rfl

/-- The earlier of the two finds is the first separator of either kind. -/
theorem findSseFrame_eq (bytes : Bytes) : findSseFrame bytes = separator.first bytes := by
  induction bytes with
  | nil => rfl
  | cons byte rest ih =>
      have starts : separator.starts = separatorAt := rfl
      unfold Delimiter.first
      rw [starts, ← ih]
      unfold findSseFrame separatorAt
      rw [position_cons, position_cons]
      -- Past the first byte both searches go on by themselves; only their positions are compared.
      generalize position lfLf rest = lfAt
      generalize position crlfCrlf rest = crlfAt
      by_cases lf : lfLf.isPrefixOf (byte :: rest)
      · rw [if_pos lf, if_pos lf]
        split
        · rename_i first second lfHere _
          cases lfHere
          exact if_neg (Nat.not_lt_zero second)
        · rename_i lfHere _
          cases lfHere
          rfl
        · rename_i lfHere _
          cases lfHere
        · rename_i lfHere _
          cases lfHere
      · rw [if_neg lf, if_neg lf]
        by_cases crlf : crlfCrlf.isPrefixOf (byte :: rest)
        · rw [if_pos crlf, if_pos crlf]
          cases lfAt with
          | none => rfl
          | some at_ => exact if_pos (Nat.zero_lt_succ at_)
        · rw [if_neg crlf, if_neg crlf]
          cases lfAt with
          | none =>
              cases crlfAt with
              | none => rfl
              | some at_ => exact congrArg some (Prod.ext rfl (Nat.add_right_comm at_ 1 4))
          | some lfAt =>
              cases crlfAt with
              | none => exact congrArg some (Prod.ext rfl (Nat.add_right_comm lfAt 1 2))
              | some crlfAt =>
                  dsimp only [Option.map_some]
                  by_cases earlier : crlfAt < lfAt
                  · rw [if_pos (Nat.succ_lt_succ earlier), if_pos earlier]
                    exact congrArg some (Prod.ext rfl (Nat.add_right_comm crlfAt 1 4))
                  · rw [if_neg fun less => earlier (Nat.lt_of_succ_lt_succ less), if_neg earlier]
                    exact congrArg some (Prod.ext rfl (Nat.add_right_comm lfAt 1 2))

abbrev SseFrame := Frame separator

/-- A byte that begins no separator. -/
theorem separatorAt_cons {byte : UInt8} (notLf : byte ≠ 10) (notCr : byte ≠ 13) (rest : Bytes) :
    separatorAt (byte :: rest) = none := by
  unfold separatorAt lfLf crlfCrlf
  simp [notLf.symm, notCr.symm]

/-- Two lines and a blank one are a frame. -/
theorem first_twoLines {line : Bytes} {byte : UInt8} {other : Bytes}
    (plain : ∀ b ∈ line, b ≠ 10 ∧ b ≠ 13) (plainOther : ∀ b ∈ byte :: other, b ≠ 10 ∧ b ≠ 13) :
    separator.first ((line ++ 10 :: byte :: other) ++ lfLf) =
      some ((line ++ 10 :: byte :: other).length,
        (line ++ 10 :: byte :: other).length + lfLf.length) := by
  have inert : ∀ {skipped : Bytes}, (∀ b ∈ skipped, b ≠ 10 ∧ b ≠ 13) →
      ∀ b ∈ skipped, ∀ rest, separator.starts (b :: rest) = none :=
    fun plain b mem rest => separatorAt_cons (plain b mem).1 (plain b mem).2 rest
  have between : separator.starts (10 :: ((byte :: other) ++ lfLf)) = none := by
    have notLf := (plainOther byte List.mem_cons_self).1
    change separatorAt (10 :: byte :: (other ++ lfLf)) = none
    unfold separatorAt lfLf crlfCrlf
    simp [notLf.symm]
  have blank : separator.first lfLf = some (0, 2) := rfl
  have second : separator.first (10 :: ((byte :: other) ++ lfLf)) =
      some ((byte :: other).length + 1, (byte :: other).length + 2 + 1) := by
    unfold Delimiter.first
    rw [between, Delimiter.first_skip (inert plainOther), blank]
    dsimp only [Option.map_some]
    rw [Nat.zero_add, Nat.add_comm 2]
  rw [List.append_assoc, Delimiter.first_skip (inert plain), List.cons_append, second]
  simp only [Option.map_some, Option.some.injEq, Prod.mk.injEq, List.length_append,
    List.length_cons, lfLf, List.length_nil]
  omega

/-! ### Events -/

inductive StreamEvent
  | empty
  | ping
  | messageStart (value : Value)
  | messageStop
  | error
  | other
  | unknown

/-- The event name and the data of a frame's lines. -/
def streamFields : List (List Char) → Option String → Option Bytes →
    Except Reject (Option String × Option Bytes)
  | [], event, data => .ok (event, data)
  | line :: rest, event, data =>
      let line := (stripSuffix '\r' line).getD line
      if line.isEmpty || line.head? == some ':' then streamFields rest event data
      else
        match stripPrefix "event:".toList line with
        | some value =>
            if event.isSome then .error .upstream
            else streamFields rest (some (String.ofList (trimStart value))) data
        | none =>
            match stripPrefix "data:".toList line with
            | some value =>
                if data.isSome then .error .upstream
                else streamFields rest event (some (asBytes (String.ofList (trimStart value))))
            | none => .error .upstream

variable (serde : SerdeJson)

/-- `parse_stream_event`. -/
def parseStreamEvent (frame : Bytes) : Except Reject StreamEvent := do
  let text ← required (fromUtf8 frame) .upstream
  let (event, data) ← streamFields (lines text.toList) none none
  match event with
  | none => if data.isNone then pure .empty else throw .upstream
  | some event =>
      if event = "ping" then
        match data with
        | some data =>
            if !data.isEmpty &&
                (parseUniqueJson serde.decode data).bind (Value.textOf "type") != some "ping" then
              throw .upstream
            else pure .ping
        | none => pure .ping
      else
        let data ← required (data.filter fun data => !data.isEmpty) .upstream
        let value ← required (parseUniqueJson serde.decode data) .upstream
        if event.isEmpty || Value.textOf "type" value != some event then throw .upstream
        else
          match event with
          | "message_start" => pure (.messageStart value)
          | "message_stop" => pure .messageStop
          | "error" => pure .error
          | "content_block_start" | "content_block_delta" | "content_block_stop"
          | "message_delta" => pure .other
          | _ => pure .unknown

/-- The model a message names. -/
def messageModel (value : Value) : Option String := (value.get "message").bind (Value.textOf "model")

/-- The model of a message is the text under both names. -/
theorem messageModel_eq_some {value : Value} {model : String} :
    messageModel value = some model ↔
      value.follow ["message", "model"] = some (.string model) := by
  unfold messageModel
  rw [Value.follow, Option.bind_eq_some_iff, Option.bind_eq_some_iff]
  constructor
  · rintro ⟨message, found, named⟩
    exact ⟨message, found, Value.textOf_eq_some.mp named⟩
  · rintro ⟨message, found, named⟩
    exact ⟨message, found, Value.textOf_eq_some.mpr named⟩

/-- The message names the canonical model instead of the one expected. -/
def withModel (expectedRawModel canonicalModel : String) : Value → Except Reject Value
  | .object members =>
      match members.lookup "message" with
      | some (.object message) => do
          let rawModel ← required (Value.textOf "model" (.object message)) .upstream
          if rawModel ≠ expectedRawModel then throw .modelIdentityMismatch
          else
            let message := Value.insertMember "model" (.string canonicalModel) message
            pure (.object (Value.insertMember "message" (.object message) members))
      | _ => throw .upstream
  | _ => throw .upstream

inductive StreamPreambleEvent
  | messageStart (frame : Bytes)
  | other

/-- The frame of a message start. -/
def startFrame (data : String) : String := "event: message_start\ndata: " ++ data ++ "\n\n"

/-- `parse_sse_preamble_frame`. -/
def parseSsePreambleFrame (frame : Bytes) (expectedRawModel canonicalModel : String) :
    Except Reject StreamPreambleEvent := do
  match ← parseStreamEvent serde frame with
  | .messageStart value =>
      let value ← withModel expectedRawModel canonicalModel value
      pure (.messageStart (asBytes (startFrame (serde.toString value))))
  | .empty | .ping | .unknown => pure .other
  | _ => throw .upstream

/-! ### The canonical frame -/

/-- What the rewriting needs and what it leaves. -/
theorem withModel_eq_ok {expected canonical : String} {value rewritten : Value}
    (rewrote : withModel expected canonical value = .ok rewritten) :
    messageModel value = some expected ∧ messageModel rewritten = some canonical ∧
      (∃ members, rewritten = .object members) ∧
      ∀ name, name ≠ "message" → rewritten.get name = value.get name := by
  unfold withModel at rewrote
  split at rewrote
  · rename_i members
    split at rewrote
    · rename_i message found
      obtain ⟨rawModel, named, rewrote⟩ := bind_eq_ok.mp rewrote
      rw [required_eq_ok] at named
      split at rewrote
      · cases rewrote
      · rename_i same
        cases rewrote
        refine ⟨?_, ?_, ⟨_, rfl⟩, fun name different => Value.lookup_insertMember_of_ne different⟩
        · rw [← not_not.mp same, ← named]
          unfold messageModel
          rw [Value.get_object, found]
          rfl
        · unfold messageModel
          rw [Value.get_object, Value.lookup_insertMember_self, Option.bind_some, Value.textOf,
            Value.get_object, Value.lookup_insertMember_self]
          rfl
    · cases rewrote
  · cases rewrote

/-- What the adapter relies on: compact JSON stays on one line, an object begins with
its brace, and what is written of a message that was read and whose model was replaced
is read again, every text in its place. -/
structure SerdeJson.Faithful : Prop where
  oneLine : ∀ value, ∀ c ∈ (serde.toString value).toList, c ≠ '\n' ∧ c ≠ '\r'
  object : ∀ members, ∃ rest, (serde.toString (.object members)).toList = '\x7b' :: rest
  readsBack : ∀ bytes value expected canonical rewritten,
    parseUniqueJson serde.decode bytes = some value →
    withModel expected canonical value = .ok rewritten →
    ∃ back, parseUniqueJson serde.decode (asBytes (serde.toString rewritten)) = some back ∧
      ∀ path text, rewritten.follow path = some (.string text) →
        back.follow path = some (.string text)

variable {serde}

theorem streamFields_event {value : List Char} {lines : List (List Char)} {data : Option Bytes}
    (noReturn : stripSuffix '\r' ("event:".toList ++ value) = none) :
    streamFields (("event:".toList ++ value) :: lines) none data =
      streamFields lines (some (String.ofList (trimStart value))) data := by
  rw [streamFields, noReturn, Option.getD_none, stripPrefix_eq_some.mpr rfl]
  rfl

theorem streamFields_data {value : List Char} {lines : List (List Char)} {event : Option String}
    (noReturn : stripSuffix '\r' ("data:".toList ++ value) = none) :
    streamFields (("data:".toList ++ value) :: lines) event none =
      streamFields lines event (some (asBytes (String.ofList (trimStart value)))) := by
  have notEvent : stripPrefix "event:".toList ("data:".toList ++ value) = none := rfl
  rw [streamFields, noReturn, Option.getD_none, notEvent, stripPrefix_eq_some.mpr rfl]
  rfl

/-- The lines of a message start. -/
private theorem streamFields_start {data : List Char} (one : ∀ c ∈ data, c ≠ '\n' ∧ c ≠ '\r')
    {rest : List Char} (object : data = '\x7b' :: rest) :
    streamFields (lines ("event: message_start\ndata: ".toList ++ data)) none none =
      .ok (some "message_start", some (asBytes (String.ofList data))) := by
  have named : '\n' ∉ "event: message_start".toList := by decide
  have oneLine : '\n' ∉ "data: ".toList ++ data := by
    intro mem
    rcases List.mem_append.mp mem with label | body
    · exact absurd label (by decide)
    · exact (one '\n' body).1 rfl
  have split : lines ("event: message_start\ndata: ".toList ++ data) =
      ["event: message_start".toList, "data: ".toList ++ data] := by
    have halves : "event: message_start\ndata: ".toList =
        "event: message_start".toList ++ '\n' :: "data: ".toList := by decide
    rw [halves, List.append_assoc, List.cons_append, lines_append named,
      lines_last oneLine (List.cons_ne_nil _ _)]
    rfl
  have noReturn : stripSuffix '\r' ("data:".toList ++ ' ' :: data) = none := by
    refine if_neg fun last => ?_
    rcases List.mem_append.mp (List.mem_of_getLast? last) with label | body
    · exact absurd label (by decide)
    · rcases List.mem_cons.mp body with blank | body
      · cases blank
      · exact (one '\r' body).2 rfl
  have named : streamFields [ "event:".toList ++ " message_start".toList,
      "data:".toList ++ ' ' :: data] none none =
        streamFields ["data:".toList ++ ' ' :: data] (some "message_start") none :=
    streamFields_event (by decide)
  rw [split]
  refine named.trans ((streamFields_data noReturn).trans ?_)
  rw [object]
  rfl

/-- The bytes of a message start before its separator. -/
private theorem asBytes_start (data : String) : asBytes ("event: message_start\ndata: " ++ data) =
    asBytes "event: message_start" ++ 10 :: 100 :: asBytes ("ata: " ++ data) := by
  rw [asBytes_append, asBytes_append]
  rfl

/-- A message start whose data is one line is one frame. -/
theorem first_start {data : String} (one : ∀ c ∈ data.toList, c ≠ '\n' ∧ c ≠ '\r') :
    separator.first (asBytes ("event: message_start\ndata: " ++ data) ++ lfLf) =
      some ((asBytes ("event: message_start\ndata: " ++ data)).length,
        (asBytes ("event: message_start\ndata: " ++ data)).length + lfLf.length) := by
  have plain : ∀ b ∈ asBytes ("data: " ++ data), b ≠ 10 ∧ b ≠ 13 := by
    have notIn : ∀ b : UInt8, b.toNat < 128 → (∀ c ∈ data.toList, c.toNat ≠ b.toNat) →
        ("data: ".toList.all fun c => c.toNat != b.toNat) = true → b ∉ asBytes ("data: " ++ data) := by
      intro b small body label mem
      obtain ⟨c, here, same⟩ := mem_of_mem_asBytes small mem
      rw [String.toList_append] at here
      exact (List.mem_append.mp here).elim (fun here => absurd same (bne_iff_ne.mp (List.all_eq_true.mp label c here)))
        (body c · same)
    intro b mem
    constructor
    · rintro rfl
      refine notIn 10 (by decide) (fun c here same => ?_) (by decide) mem
      exact (one c here).1 (Char.toNat_inj.mp same)
    · rintro rfl
      refine notIn 13 (by decide) (fun c here same => ?_) (by decide) mem
      exact (one c here).2 (Char.toNat_inj.mp same)
  rw [asBytes_start]
  apply first_twoLines
  · exact apart_of_all (by decide)
  · rw [asBytes_append] at plain ⊢
    exact plain

/-- A comment of one line is passed over. -/
theorem parseStreamEvent_comment {text : String} (one : '\n' ∉ text.toList)
    (comment : text.toList.head? = some ':') :
    parseStreamEvent serde (asBytes text) = .ok .empty := by
  obtain ⟨rest, spelled⟩ := List.head?_eq_some_iff.mp comment
  have lone : lines text.toList = [':' :: rest] := by
    rw [lines_last one (spelled ▸ List.cons_ne_nil _ _), spelled]
  have colon : ((stripSuffix '\r' (':' :: rest)).getD (':' :: rest)).head? = some ':' := by
    rw [stripSuffix_cons (by decide)]
    cases stripSuffix '\r' rest <;> rfl
  have fields : streamFields (lines text.toList) none none = .ok (none, none) := by
    rw [lone]
    unfold streamFields
    dsimp only
    rw [colon, if_pos (by simp)]
    rfl
  unfold parseStreamEvent
  exact bind_eq_ok.mpr ⟨_, required_eq_ok.mpr (fromUtf8_asBytes _), bind_eq_ok.mpr
    ⟨_, fields, rfl⟩⟩

/-- The adapter reads a message start whose data is one line. -/
theorem parseStreamEvent_start {data : String} {value : Value}
    (one : ∀ c ∈ data.toList, c ≠ '\n' ∧ c ≠ '\r') (object : ∃ rest, data.toList = '\x7b' :: rest)
    (read : parseUniqueJson serde.decode (asBytes data) = some value)
    (typed : value.textOf "type" = some "message_start") :
    parseStreamEvent serde (asBytes ("event: message_start\ndata: " ++ data)) =
      .ok (.messageStart value) := by
  obtain ⟨rest, object⟩ := object
  have fields := streamFields_start one object
  have nonempty : (asBytes data).isEmpty = false := by
    cases empty : asBytes data with
    | nil =>
        rw [asBytes_injective (empty.trans (rfl : asBytes "" = []).symm)] at object
        cases object
    | cons _ _ => rfl
  rw [← String.toList_append, String.ofList_toList] at fields
  unfold parseStreamEvent
  refine bind_eq_ok.mpr ⟨_, required_eq_ok.mpr (fromUtf8_asBytes _), bind_eq_ok.mpr
    ⟨_, fields, ?_⟩⟩
  dsimp only
  rw [if_neg (by decide)]
  refine bind_eq_ok.mpr ⟨asBytes data, required_eq_ok.mpr ?_, bind_eq_ok.mpr
    ⟨value, required_eq_ok.mpr read, ?_⟩⟩
  · rw [Option.filter_some, nonempty]
    rfl
  · rw [typed]
    rfl

/-- The canonical frame is one frame, and the adapter reads it as the message start it
writes. -/
theorem canonical_frame (faithful : serde.Faithful) {bytes : Bytes} {value rewritten : Value}
    {expected canonical : String} (parsed : parseUniqueJson serde.decode bytes = some value)
    (start : value.textOf "type" = some "message_start")
    (rewrote : withModel expected canonical value = .ok rewritten) :
    ∃ frame : SseFrame, frame.text = asBytes ("event: message_start\ndata: " ++
        serde.toString rewritten) ∧ frame.delimiter = lfLf ∧
      ∃ back, parseUniqueJson serde.decode (asBytes (serde.toString rewritten)) = some back ∧
        messageModel back = some canonical ∧
        parseStreamEvent serde frame.text = .ok (.messageStart back) := by
  obtain ⟨-, names, ⟨members, rfl⟩, others⟩ := withModel_eq_ok rewrote
  obtain ⟨back, readBack, texts⟩ := faithful.readsBack bytes value expected canonical _ parsed rewrote
  have typed : back.textOf "type" = some "message_start" := by
    refine Value.textOf_eq_some.mpr (texts _ _ (Value.textOf_eq_some.mp ?_))
    rw [Value.textOf, others "type" (by decide)]
    exact start
  have named : messageModel back = some canonical :=
    messageModel_eq_some.mpr (texts _ _ (messageModel_eq_some.mp names))
  have one := faithful.oneLine (.object members)
  exact ⟨⟨_, lfLf, first_start one⟩, rfl, rfl, back, readBack, named,
    parseStreamEvent_start one (faithful.object members) readBack typed⟩

theorem symbols_startFrame {frame : SseFrame} {data : String}
    (text : frame.text = asBytes ("event: message_start\ndata: " ++ data))
    (delimiter : frame.delimiter = lfLf) : frame.symbols = asBytes (startFrame data) := by
  unfold Frame.symbols startFrame
  rw [text, delimiter, asBytes_append _ "\n\n"]
  rfl

end GmMiner.Bedrock
