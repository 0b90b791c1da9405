import GmMiner.Json.Value
import GmMiner.Lib.Result
import GmMiner.Text

/-!
The decryptor of a Chutes event stream (`attestd/src/chutes_verify/stream.rs`).

The cipher and the syntax of JSON are parameters. `feed` takes the upstream lines that
its bytes complete, one at a time; a line may seal a chunk of text, whose own lines are
released one at a time (`release`). `sealedTexts` are the texts that the lines of a run
seal, and `dataLines` the data lines in them.
-/

namespace GmMiner.Chutes

open GmMiner.Lib GmMiner.Json

structure StreamParts (Key : Type) where
  /-- `serde_json::from_str`. -/
  fromStr : List Char → Option Value
  /-- `Value::to_string`. -/
  toString : Value → List Char
  /-- `ResponseKey::stream_key`, of the request's response key. -/
  streamKey : String → Option Key
  /-- `StreamKey::decrypt_chunk`. -/
  decryptChunk : Key → String → Option (List Char)

/-- Why a stream is aborted. -/
inductive StreamError
  | notUtf8
  | lineTooLong
  | endedBeforeDone
  | plaintextDone
  | secondInit
  | initNotString
  | initRejected
  | chunkBeforeInit
  | chunkNotString
  | chunkRejected
  | chunkAfterDone
  | upstreamError (error : Value)
  | doneWithoutUsage
  | chunkNotJson
  | noInteger (name : String)
  | totalIsNotSum
  | wrongModel (model : Value)
  | usageFell (before after : Nat)

/-- `MAX_LINE_BYTES`. -/
def maxLineBytes : Nat := 8 * 1024 * 1024

/-- `StreamDecryptor`; its response key and its model are parameters of the functions. -/
structure StreamDecryptor (Key : Type) where
  streamKey : Option Key
  pending : Bytes
  usageTotal : Nat
  /-- The latest content-free usage frame, released only with `[DONE]`. -/
  heldUsage : Option (List Char)
  done : Bool

/-- `StreamDecryptor::new`. -/
def StreamDecryptor.new (Key : Type) : StreamDecryptor Key := ⟨none, [], 0, none, false⟩

def doneText : List Char := "[DONE]".toList

/-! ### Usage -/

/-- The usage a chunk carries. -/
def usageOf (chunk : Value) : Option Value :=
  (chunk.get "usage").filter fun usage => match usage with | .null => false | _ => true

/-- The chunk has choices, and they are none. -/
def contentFree (chunk : Value) : Bool :=
  match (chunk.get "choices").bind Value.asArray with
  | some choices => choices.isEmpty
  | none => false

def countOf (usage : Value) (name : String) : Option Nat := (usage.get name).bind Value.asU64

/-- `u64::checked_add`. -/
def checkedAdd (left right : Nat) : Option Nat :=
  if left + right < 2 ^ 64 then some (left + right) else none

/-- `u64::saturating_add`. -/
def saturatingAdd (left right : Nat) : Nat := min (left + right) (2 ^ 64 - 1)

/-- `require_billable`. -/
def requireBillable (usage : Value) : Except StreamError PUnit := do
  let prompt ← required (countOf usage "prompt_tokens") (.noInteger "prompt_tokens")
  let completion ← required (countOf usage "completion_tokens") (.noInteger "completion_tokens")
  if (usage.get "total_tokens").isSome then
    let total ← required (countOf usage "total_tokens") (.noInteger "total_tokens")
    ensure (some total == checkedAdd prompt completion) .totalIsNotSum
  else pure .unit

/-- `usage_total`. -/
def usageTotal (usage : Value) : Nat :=
  (countOf usage "total_tokens").getD
    (saturatingAdd ((countOf usage "prompt_tokens").getD 0)
      ((countOf usage "completion_tokens").getD 0))

/-! ### The lines of a sealed chunk -/

/-- What a `data:` line holds. -/
def dataOf (line : List Char) : Option (List Char) :=
  (stripPrefix "data:".toList line).map trimStart

/-- `emit`: the bytes of an event. -/
def emit (data : List Char) : Bytes := asBytes ("data: " ++ String.ofList data ++ "\n\n")

/-- The chunk as it is relayed. -/
def withoutUsage : Value → Value
  | .object members => .object (Value.removeMember "usage" members)
  | value => value

section Decryptor

variable {Key : Type} (parts : StreamParts Key) (model : String)

/-- A chunk that names a model names the one asked for. -/
def checkModel (chunk : Value) : Except StreamError PUnit :=
  match chunk.get "model" with
  | some named => ensure (named.asStr == some model) (.wrongModel named)
  | none => .ok .unit

/-- `check_chunk`. -/
def checkChunk (state : StreamDecryptor Key) (chunk : Value) :
    Except StreamError (StreamDecryptor Key) := do
  checkModel model chunk
  match usageOf chunk with
  | some usage =>
      ensure (decide (state.usageTotal ≤ usageTotal usage))
        (.usageFell state.usageTotal (usageTotal usage))
      pure { state with usageTotal := usageTotal usage }
  | none => pure state

/-- `release` of a data line: the state after it, and what is emitted. -/
def releaseData (state : StreamDecryptor Key) (data : List Char) :
    Except StreamError (StreamDecryptor Key × Bytes) :=
  if data = doneText then do
    let usage ← required state.heldUsage .doneWithoutUsage
    pure ({ state with heldUsage := none, done := true }, emit usage ++ emit doneText)
  else do
    let chunk ← required (parts.fromStr data) .chunkNotJson
    match usageOf chunk, contentFree chunk with
    | some usage, true =>
        requireBillable usage
        let state ← checkChunk model state chunk
        pure ({ state with heldUsage := some data }, [])
    | _, _ =>
        let state ← checkChunk model state chunk
        pure ({ state with heldUsage := none }, emit (parts.toString (withoutUsage chunk)))

/-- `release` of a line of a sealed chunk. -/
def release (state : StreamDecryptor Key) (line : List Char) :
    Except StreamError (StreamDecryptor Key × Bytes) :=
  match dataOf line with
  | none => .ok (state, [])
  | some data => releaseData parts model state data

/-- The lines of a sealed chunk, released in order. -/
def releaseAll (state : StreamDecryptor Key) : List (List Char) →
    Except StreamError (StreamDecryptor Key × Bytes)
  | [] => .ok (state, [])
  | line :: later => do
      let (state, output) ← release parts model state (trimEnd line)
      let (state, more) ← releaseAll state later
      pure (state, output ++ more)

/-! ### The upstream lines -/

/-- What an upstream line is. -/
inductive RelayEvent
  | nothing
  | done
  | init (value : Value)
  | chunk (value : Value)
  | failed (error : Value)

def readRelayEvent (line : List Char) : RelayEvent :=
  match dataOf line with
  | none => .nothing
  | some data =>
      if data = doneText then .done
      else
        match parts.fromStr data with
        | some (.object members) =>
            match members.lookup "e2e_init", members.lookup "e2e", members.lookup "e2e_error" with
            | some value, _, _ => .init value
            | none, some value, _ => .chunk value
            | none, none, some error => .failed error
            | none, none, none => .nothing
        | _ => .nothing

/-- `relay_event`. -/
def relayEvent (state : StreamDecryptor Key) (line : List Char) :
    Except StreamError (StreamDecryptor Key × Bytes) :=
  match readRelayEvent parts line with
  | .nothing => .ok (state, [])
  | .done => do
      ensure state.done .plaintextDone
      pure (state, [])
  | .init value => do
      ensure state.streamKey.isNone .secondInit
      let init ← required value.asStr .initNotString
      let key ← required (parts.streamKey init) .initRejected
      pure ({ state with streamKey := some key }, [])
  | .chunk value => do
      let key ← required state.streamKey .chunkBeforeInit
      let chunk ← required value.asStr .chunkNotString
      let text ← required (parts.decryptChunk key chunk) .chunkRejected
      ensure (!state.done || (trim text).isEmpty) .chunkAfterDone
      releaseAll parts model state (lines text)
  | .failed error => .error (.upstreamError error)

/-- The complete lines of bytes, each with its line feed, and the rest. -/
def drainLines : Bytes → List Bytes × Bytes
  | [] => ([], [])
  | byte :: rest =>
      match drainLines rest with
      | (complete, left) =>
          if byte = 10 then ([byte] :: complete, left)
          else
            match complete with
            | [] => ([], byte :: left)
            | line :: later => ((byte :: line) :: later, left)

/-- The upstream lines, relayed in order. -/
def relayAll (state : StreamDecryptor Key) : List Bytes →
    Except StreamError (StreamDecryptor Key × Bytes)
  | [] => .ok (state, [])
  | line :: later => do
      let text ← required (fromUtf8 line) .notUtf8
      let (state, output) ← relayEvent parts model state (trimEnd text.toList)
      let (state, more) ← relayAll state later
      pure (state, output ++ more)

/-- `feed`. -/
def feed (state : StreamDecryptor Key) (bytes : Bytes) :
    Except StreamError (StreamDecryptor Key × Bytes) := do
  let (complete, left) := drainLines (state.pending ++ bytes)
  let (state, output) ← relayAll parts model { state with pending := left } complete
  ensure (decide (left.length ≤ maxLineBytes)) .lineTooLong
  pure (state, output)

/-- `finish`. -/
def finish (state : StreamDecryptor Key) : Except StreamError PUnit :=
  ensure state.done .endedBeforeDone

/-- A stream fed piece by piece: its output. -/
def feedAll (state : StreamDecryptor Key) : List Bytes →
    Except StreamError (StreamDecryptor Key × Bytes)
  | [] => .ok (state, [])
  | bytes :: later => do
      let (state, output) ← feed parts model state bytes
      let (state, more) ← feedAll state later
      pure (state, output ++ more)

/-- A stream fed piece by piece and finished. -/
def decryptStream (pieces : List Bytes) : Except StreamError Bytes := do
  let (state, output) ← feedAll parts model (.new Key) pieces
  finish state
  pure output

/-! ### What a stream seals -/

/-- The lines that pieces complete, after bytes still pending. -/
def completeLines (pending : Bytes) : List Bytes → List Bytes
  | [] => []
  | bytes :: later =>
      (drainLines (pending ++ bytes)).1 ++
        completeLines (drainLines (pending ++ bytes)).2 later

/-- The texts that upstream lines seal. -/
def sealedTexts (key : Option Key) : List Bytes → List (List Char)
  | [] => []
  | line :: later =>
      match (fromUtf8 line).map fun text => readRelayEvent parts (trimEnd text.toList) with
      | some (.init value) => sealedTexts (value.asStr.bind parts.streamKey) later
      | some (.chunk value) =>
          (key.bind fun key => value.asStr.bind fun chunk => parts.decryptChunk key chunk).toList ++
            sealedTexts key later
      | _ => sealedTexts key later

/-- The texts that the pieces of a stream seal. -/
def sealedTextsOf (pieces : List Bytes) : List (List Char) :=
  sealedTexts parts none (completeLines [] pieces)

/-- The data lines of a sealed text. -/
def dataLines (text : List Char) : List (List Char) :=
  (lines text).filterMap fun line => dataOf (trimEnd line)

end Decryptor

end GmMiner.Chutes
