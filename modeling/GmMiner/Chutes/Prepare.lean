import GmMiner.Chutes.Error
import GmMiner.Json.Value
import GmMiner.Lib.Headers
import GmMiner.Text

/-!
What a chat request to the Chutes proxy must be (`prepare` of
`attestd/src/chutes_verify/forward.rs`).

The value of a header is the text of its bytes. `decode` is `serde_json` on a whole body.
-/

namespace GmMiner.Chutes

open GmMiner.Lib GmMiner.Json

/-- `SELECTOR_HEADER`. -/
def selectorHeader : String := "x-gm-upstream-model"

/-- `CHAT_COMPLETIONS`. -/
def chatCompletions : String := "/v1/chat/completions"

/-- `MAX_REQUEST_BYTES`. -/
def maxRequestBytes : Nat := 16 * 1024 * 1024

/-- A request as Envoy hands it on; a body that cannot be read is `none`. -/
structure ChatRequest where
  headers : Headers
  method : String
  path : String
  body : Option Bytes

structure Prepared where
  target : ChutesTarget
  apiKey : String
  payload : List (String × Value)
  stream : Bool

def targetForModel (model : String) : Option ChutesTarget :=
  targets.find? fun target => target.model == model

/-- `HeaderValue::to_str`. -/
def toStr (value : String) : Option String :=
  if value.toList.all fun c => (' ' ≤ c && c ≤ '~') || c == '\t' then some value else none

/-- `HeaderMap::get`. -/
def header (request : ChatRequest) (name : String) : Option String :=
  (request.headers.values name).head?

/-- The target a request selects, at the one method and path it is served at. -/
def selectTarget (request : ChatRequest) : Except ChutesError ChutesTarget :=
  match header request selectorHeader with
  | none => .error (.badRequest ("missing " ++ selectorHeader))
  | some value =>
      match toStr value with
      | none => .error (.badRequest (selectorHeader ++ " is not ASCII"))
      | some selector =>
          match targetForModel selector with
          | none => .error (.badRequest (selector ++ " is not a verified Chutes model"))
          | some target =>
              if request.method = "POST" ∧ request.path = chatCompletions then .ok target
              else .error (.badRequest (target.model ++ " is served only at POST " ++
                chatCompletions ++ ", not " ++ request.method ++ " " ++ request.path))

/-- The credential Envoy injects. -/
def bearerKey (request : ChatRequest) : Option String := do
  let value ← header request "authorization"
  let value ← toStr value
  let key ← stripPrefix "Bearer ".toList value.toList
  if key = [] then none else some (String.ofList key)

/-- The members of the body. -/
def readPayload (decode : Bytes → Option Value) (request : ChatRequest) :
    Except ChutesError (List (String × Value)) :=
  match request.body.filter fun body => body.length ≤ maxRequestBytes with
  | none => .error (.badRequest ("request body exceeds " ++ toString maxRequestBytes ++ " bytes"))
  | some body =>
      match decode body with
      | some (.object payload) => .ok payload
      | _ => .error (.badRequest "request body is not a JSON object")

/-- The `stream` of a payload. -/
def readStream (payload : List (String × Value)) : Except ChutesError Bool :=
  match payload.lookup "stream" with
  | none | some (.bool false) | some .null => .ok false
  | some (.bool true) => .ok true
  | some _ => .error (.badRequest "stream must be a boolean")

/-- A stream must end in its usage. -/
def withUsage (payload : List (String × Value)) : Except ChutesError (List (String × Value)) :=
  match (payload.lookup "stream_options").getD (.object []) with
  | .object options =>
      .ok (Value.insertMember "stream_options"
        (.object (Value.insertMember "include_usage" (.bool true) options)) payload)
  | _ => .error (.badRequest "stream_options must be an object")

def prepare (decode : Bytes → Option Value) (request : ChatRequest) :
    Except ChutesError Prepared := do
  let target ← selectTarget request
  let some apiKey := bearerKey request | .error .missingCredential
  let payload ← readPayload decode request
  if payload.any fun member => "e2e_".toList.isPrefixOf member.1.toList then
    .error (.badRequest "e2e_ fields are reserved for the transport")
  if (payload.lookup "model").bind Value.asStr ≠ some target.model then
    .error (.badRequest ("body model must equal the selector " ++ target.model))
  let stream ← readStream payload
  let payload ← if stream then withUsage payload else .ok payload
  .ok { target, apiKey, payload, stream }

end GmMiner.Chutes
