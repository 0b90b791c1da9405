import GmMiner.UpstreamProxy

/-!
A chat request on its way to KubeTEE, and its response on the way back (`KubeteeVerifier::forward` of
`attestd/src/kubetee_verify/mod.rs`, `SupplierBody` of `attestd/src/kubetee_verify/pool.rs`).

The caller's bytes go out as they came, and what they name is what was selected. Of the fields, those of
the supplier are the proxy's own in either direction.
-/

namespace GmMiner.Kubetee

open GmMiner.Lib GmMiner.Json GmMiner.UpstreamProxy

/-- `HOST_NAME`. -/
def hostName : String := "llm.kubetee.ai"

def sessionIdHeader : String := "x-gm-session-id"

def litellmSessionIdHeader : String := "x-litellm-session-id"

def chatCompletions : String := "/v1/chat/completions"

/-- `TARGETS`. -/
def targets : List String :=
  ["z-ai/glm-5.2", "z-ai/glm-5.3", "z-ai/glm-5.3-flash", "deepseek/deepseek-v4.1-flash",
    "deepseek/deepseek-v4.1-flash-1017", "moonshotai/kimi-k3", "moonshotai/kimi-k3.1-pro",
    "xiaomi/mimo-v2.6-pro"]

/-- `SUPPLIER_HEADER_PREFIXES`. -/
def supplierHeaderPrefixes : List String := ["x-kubetee-", "x-litellm-"]

/-- `REQUEST_LIMIT`. -/
def requestLimit : Nat := 32 * 1024 * 1024

def isSupplierHeader (name : String) : Bool :=
  supplierHeaderPrefixes.any fun first => first.toList.isPrefixOf name.toList

/-- `strip_supplier_headers`. -/
def stripSupplierHeaders (headers : Headers) : Headers :=
  headers.keep fun name => !isSupplierHeader name

/-- `strip_supplier_trailers`. -/
def stripSupplierTrailers : Frame → Frame
  | .trailers fields => .trailers (stripSupplierHeaders fields)
  | .data bytes => .data bytes

/-- `SupplierBody`. -/
def supplierBody (frames : List Frame) : List Frame := frames.map stripSupplierTrailers

/-- `ChatModel`, by the derived `Deserialize`: the one member of the name, or the only item. -/
def chatModel : Document → Option String
  | .object members =>
      match members.filter fun member => member.1 = "model" with
      | [(_, .string model)] => some model
      | _ => none
  | .array [.string model] => some model
  | _ => none

/-- `validate_request`. -/
def validateRequest (request : Request) : Except String String := do
  ensure (request.method == "POST" && request.uri.path == chatCompletions)
    ("KubeTEE is served only at POST " ++ chatCompletions ++ ", not " ++ request.method ++ " " ++
      request.uri.path)
  match request.headers.values selectorHeader with
  | [selector] =>
      let selector ← required (toStr selector) "KubeTEE model selector is not ASCII"
      required (targets.find? (· == selector)) "unsupported KubeTEE model selector"
  | _ => .error "KubeTEE request needs exactly one model selector"

/-- `require_body_model`, of a body that was read: its bytes stand for it from then on. -/
def requireBodyModel (parse : Bytes → Option Document) (request : Request) (selector : String) :
    Except String Request := do
  let body := dataOf request.body
  ensure (decide (body.length ≤ requestLimit)) "read KubeTEE chat request: length limit exceeded"
  let model ← required ((parse body).bind chatModel) "KubeTEE chat request has no model"
  ensure (model == selector) "KubeTEE chat request names a model other than its selector"
  return { request with body := [.data body] }

def isSessionId (value : String) : Bool :=
  value.toList.length == 64 &&
    value.toList.all fun c => ('0' ≤ c && c ≤ '9') || ('a' ≤ c && c ≤ 'f')

/-- `request_session_id`. -/
def requestSessionId (request : Request) : Option String :=
  match request.headers.values sessionIdHeader with
  | [value] => if isSessionId value then some value else none
  | _ => none

/-- `upstream_request`. -/
def upstreamRequest (request : Request) : Request :=
  let headers := request.headers.remove selectorHeader
  let headers := stripSupplierHeaders headers
  let headers := headers.remove sessionIdHeader
  let headers :=
    match requestSessionId request with
    | some sessionId => headers.set litellmSessionIdHeader sessionId
    | none => headers
  { request with
    headers := (stripHopByHop headers).set "host" hostName
    body := supplierBody request.body
    uri := ⟨none, request.uri.pathAndQuery⟩ }

/-- What `forward` sends on an attested connection, of a request whose body was read in time. -/
def forwarded (parse : Bytes → Option Document) (request : Request) : Except String Request := do
  let selector ← validateRequest request
  let request ← requireBodyModel parse request selector
  return upstreamRequest request

/-- The response that `forward` releases. -/
def released (response : Response) : Response :=
  { response with
    headers := stripHopByHop (stripSupplierHeaders response.headers)
    body := supplierBody response.body }

/-! ### What is sent -/

/-- The values a field has in the request that is sent. -/
def sentValues (request : Request) (name : String) : List String :=
  if name = "host" then [hostName]
  else if name ∈ hopByHop then []
  else if name = litellmSessionIdHeader then (requestSessionId request).toList
  else if name = selectorHeader ∨ name = sessionIdHeader ∨ isSupplierHeader name = true then []
  else request.headers.values name

/-- The fields sent, name by name. -/
theorem values_upstreamRequest (request : Request) (name : String) :
    (upstreamRequest request).headers.values name = sentValues request name := by
  have supplier : isSupplierHeader litellmSessionIdHeader = true := by decide
  unfold upstreamRequest sentValues
  dsimp only
  rw [values_stripHopByHop_set]
  split
  · rfl
  · split
    · rfl
    · cases session : requestSessionId request with
      | none =>
          rw [Headers.values_remove, stripSupplierHeaders, Headers.values_keep, Headers.values_remove]
          by_cases litellm : name = litellmSessionIdHeader
          · simp [litellm, supplier]
          · by_cases selector : name = selectorHeader <;> by_cases id : name = sessionIdHeader <;>
              cases isSupplierHeader name <;> simp [litellm, selector, id]
      | some sessionId =>
          dsimp only
          rw [Headers.set, Headers.values_add, Headers.values_remove, Headers.values_remove,
            stripSupplierHeaders, Headers.values_keep, Headers.values_remove]
          by_cases litellm : name = litellmSessionIdHeader
          · simp [litellm]
          · by_cases selector : name = selectorHeader <;> by_cases id : name = sessionIdHeader <;>
              cases isSupplierHeader name <;> simp [litellm, selector, id]

/-- A request id of 64 lower-case hexadecimal digits that came once is passed on under the supplier's
name, and no other. -/
theorem requestSessionId_eq_some {request : Request} {sessionId : String} :
    requestSessionId request = some sessionId ↔
      request.headers.values sessionIdHeader = [sessionId] ∧ isSessionId sessionId = true := by
  unfold requestSessionId
  constructor
  · intro found
    split at found
    · rename_i value only
      split at found
      · rename_i digits
        cases found
        exact ⟨only, digits⟩
      · cases found
    · cases found
  · rintro ⟨only, digits⟩
    rw [only]
    exact if_pos digits

/-- A valid request is a POST of chat completions with one selector. -/
theorem validateRequest_eq_ok {request : Request} {selector : String}
    (valid : validateRequest request = .ok selector) :
    request.method = "POST" ∧ request.uri.path = chatCompletions ∧
      request.headers.values selectorHeader = [selector] ∧ selector ∈ targets := by
  unfold validateRequest at valid
  simp only [bind_eq_ok, ensure_eq_ok, Bool.and_eq_true, beq_iff_eq] at valid
  obtain ⟨-, ⟨method, path⟩, selected⟩ := valid
  split at selected
  · rename_i value only
    simp only [bind_eq_ok, required_eq_ok] at selected
    obtain ⟨text, ascii, found⟩ := selected
    have same := List.find?_some found
    rw [beq_iff_eq] at same
    have whole : selector = value := same.trans (toStr_eq_some ascii).symm
    refine ⟨method, path, ?_, List.mem_of_find?_eq_some found⟩
    rw [whole]
    exact only
  · cases selected

/-- What `forward` sends for a request. -/
structure Forwarded (parse : Bytes → Option Document) (request sent : Request) : Prop where
  /-- The method, the path and the query are the caller's; nothing says where to but the host. -/
  target : sent.method = "POST" ∧ request.method = "POST" ∧ request.uri.path = chatCompletions ∧
    sent.uri = ⟨none, request.uri.pathAndQuery⟩
  /-- The bytes are the caller's, and no trailers follow. -/
  body : sent.body = [.data (dataOf request.body)] ∧ (dataOf request.body).length ≤ requestLimit
  /-- The model that the bytes name is the one that is selected, once, and served. -/
  model : ∃ model ∈ targets, request.headers.values selectorHeader = [model] ∧
    (parse (dataOf request.body)).bind chatModel = some model
  /-- Every field has exactly these values. -/
  fields : ∀ name, sent.headers.values name = sentValues request name
  /-- The supplier's session id is the one that the caller sent, once and well formed. -/
  session : ∀ sessionId, sent.headers.values litellmSessionIdHeader = [sessionId] ↔
    request.headers.values sessionIdHeader = [sessionId] ∧ isSessionId sessionId = true

/-- The frames' data stay in their order. -/
theorem dataOf_supplierBody (frames : List Frame) : dataOf (supplierBody frames) = dataOf frames := by
  induction frames with
  | nil => rfl
  | cons frame rest ih =>
      cases frame with
      | data bytes =>
          show bytes ++ dataOf (supplierBody rest) = bytes ++ dataOf rest
          rw [ih]
      | trailers fields => exact ih

/-- The response that is released has the supplier's bytes, and its fields but for those of the hop and
of the supplier; of the latter none comes behind the body either. -/
theorem kubetee_releases_no_supplier_field (response : Response) :
    (released response).status = response.status ∧
    dataOf (released response).body = dataOf response.body ∧
    (∀ name, (released response).headers.values name =
      if name ∈ hopByHop ∨ isSupplierHeader name = true then []
      else response.headers.values name) ∧
    ∀ fields, Frame.trailers fields ∈ (released response).body → ∃ came,
      Frame.trailers came ∈ response.body ∧ ∀ name, fields.values name =
        if isSupplierHeader name = true then [] else came.values name := by
  refine ⟨rfl, dataOf_supplierBody response.body, fun name => ?_, fun fields mem => ?_⟩
  · show (stripHopByHop (stripSupplierHeaders response.headers)).values name = _
    rw [stripHopByHop, Headers.values_removeAll, stripSupplierHeaders, Headers.values_keep]
    by_cases hop : name ∈ hopByHop <;> cases isSupplierHeader name <;> simp [hop]
  · obtain ⟨frame, here, same⟩ := List.mem_map.mp mem
    cases frame with
    | data bytes => cases same
    | trailers came =>
        cases same
        refine ⟨came, here, fun name => ?_⟩
        rw [stripSupplierHeaders, Headers.values_keep]
        cases isSupplierHeader name <;> rfl

/-! ### A small request -/

/-- The body of the small request, as it is parsed. -/
def smallChat : Document :=
  .object [("messages", .array []), ("model", .string "moonshotai/kimi-k3")]

def smallChatRequest : Request where
  method := "POST"
  uri := ⟨some "127.0.0.1:8084", "/v1/chat/completions?beta=1"⟩
  headers := [("host", "gm"), ("x-gm-upstream-model", "moonshotai/kimi-k3"), ("te", "trailers"),
    ("connection", "x-secret"), ("x-secret", "s"), ("x-litellm-session-id", "mine"),
    ("x-gm-session-id", "5f1c"), ("accept", "a"), ("accept", "b")]
  body := [.data [1, 2], .data [3], .trailers [("x-litellm-key", "k")]]

/-- The small request is sent without the fields of its hop, but with `TE` and with the field that its
`Connection` names. -/
theorem smallChatRequest_sent :
    forwarded (fun bytes => if bytes = [1, 2, 3] then some smallChat else none) smallChatRequest = .ok
      { method := "POST"
        uri := ⟨none, "/v1/chat/completions?beta=1"⟩
        headers := [("te", "trailers"), ("x-secret", "s"), ("accept", "a"), ("accept", "b"),
          ("host", "llm.kubetee.ai")]
        body := [.data [1, 2, 3]] } := by
  decide +kernel

end GmMiner.Kubetee
