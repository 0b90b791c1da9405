import GmMiner.Bedrock.RequestBody
import GmMiner.Bedrock.Streams
import GmMiner.GatewayContract
import GmMiner.Lib.Decimal
import GmMiner.UpstreamProxy

/-!
One request through the Bedrock Mantle adapter (`handle_request` of
`attestd/src/bedrock_mantle.rs`).

The transport is a parameter: what it answers may depend on everything that it is sent. A request
reads the cache of bindings once, and a second time after the refresh it may have waited for. What
comes out is either an answer for the model and the revision that were asked for (`Answered`), or
one of the fixed refusals.
-/

namespace GmMiner.Bedrock

open Std (ExtTreeMap)
open GmMiner.Lib GmMiner.Lib.Decimal GmMiner.Json GmMiner.UpstreamProxy GmMiner.GatewayContract

/-- `BEDROCK_MANTLE_URL`. -/
def bedrockMantleUrl : String := "https://bedrock-mantle.us-east-1.api.aws/anthropic/v1/messages"

def anthropicVersion : String := "2023-06-01"
def executionPolicyHeader : String := "x-gm-execution-policy"
def exactCanonicalNoReplayPolicy : String := "exact-canonical-no-replay-v1"
def modelBindingRevisionHeader : String := "x-gm-model-binding-revision"
def maxAnthropicBetaHeaderBytes : Nat := 1024
def maxErrorBody : Nat := 64 * 1024
def promptTooLong : String := "prompt is too long"

/-! ### Refusals -/

/-- `Reject`. -/
inductive ExchangeReject
  | method
  | path
  | header
  | bodyTooLarge
  | invalidBody
  | unsupportedModel
  | bindingRevision
  | bindingsUnavailable
  | upstream
  | upstreamTransport
  | upstreamHttp (status : Nat)
  | upstreamThrottled (retryAfterSecs : Option Nat)
  | upstreamUnauthorized
  | upstreamForbidden
  | upstreamInvalidRequest (promptTooLong : Bool)
  | upstreamTooLarge
  | modelIdentityMismatch
  deriving DecidableEq, Repr

def BindingReject.toExchange : BindingReject → ExchangeReject
  | .bindingsUnavailable => .bindingsUnavailable
  | .unsupportedModel => .unsupportedModel
  | .bindingRevision => .bindingRevision

def BodyReject.toExchange : BodyReject → ExchangeReject
  | .bodyTooLarge => .bodyTooLarge
  | .invalidBody => .invalidBody
  | .binding reject => reject.toExchange

def Reject.toExchange : Reject → ExchangeReject
  | .upstream => .upstream
  | .upstreamTransport => .upstreamTransport
  | .modelIdentityMismatch => .modelIdentityMismatch

inductive AnswerBody
  | text (text : String)
  | document (document : Document)
  | stream (items : List (Except StreamEnd Bytes))

structure Answer where
  status : Nat
  headers : Headers
  body : AnswerBody

namespace ExchangeReject

/-- `public_error`. -/
def publicError : ExchangeReject → Nat × String × String
  | method => (405, "invalid_request_error", "Bedrock Messages requires POST")
  | path => (404, "invalid_request_error", "Bedrock Messages path or query is not allowed")
  | header => (400, "invalid_request_error", "Bedrock Messages headers are invalid")
  | bodyTooLarge =>
      (413, "invalid_request_error", "Bedrock Messages body exceeds the adapter limit")
  | invalidBody => (400, "invalid_request_error", "Bedrock Messages body is invalid")
  | unsupportedModel => (400, "invalid_request_error", "Bedrock model is not currently approved")
  | bindingRevision =>
      (409, "invalid_request_error", "Bedrock model binding revision is stale or invalid")
  | bindingsUnavailable =>
      (503, "api_error", "Bedrock model bindings are unavailable or stale")
  | upstreamThrottled _ => (429, "rate_limit_error", "Bedrock Mantle throttled the request")
  | upstreamUnauthorized =>
      (401, "authentication_error",
        "Bedrock Mantle rejected the worker credential (invalid_api_key)")
  | upstreamForbidden =>
      (403, "permission_error",
        "Bedrock Mantle denied the worker credential access (invalid_api_key)")
  | upstreamInvalidRequest true =>
      (400, "invalid_request_error", "Bedrock Mantle rejected the request: prompt is too long")
  | upstreamInvalidRequest false =>
      (400, "invalid_request_error", "Bedrock Mantle rejected the request as invalid")
  | upstreamTooLarge => (413, "request_too_large", "Bedrock Mantle rejected the request size")
  | upstream | upstreamTransport | upstreamHttp _ | modelIdentityMismatch =>
      (502, "api_error", "Bedrock Mantle request failed")

/-- The body of a refusal. -/
def bodyText (reject : ExchangeReject) : String :=
  "\x7b\"error\":\x7b\"type\":\"" ++ reject.publicError.2.1 ++ "\",\"message\":\"" ++
    reject.publicError.2.2 ++ "\"\x7d\x7d"

def retryAfter : ExchangeReject → Headers
  | upstreamThrottled (some seconds) => [("retry-after", Nat.repr seconds)]
  | _ => []

def intoResponse (reject : ExchangeReject) : Answer :=
  ⟨reject.publicError.1, ("content-type", "application/json") :: reject.retryAfter,
    .text reject.bodyText⟩

end ExchangeReject

/-! ### The request -/

/-- The only value of a field passes a test. -/
def onlyValue (headers : Headers) (name : String) (test : String → Bool) : Bool :=
  match headers.values name with
  | [value] => (toStr value).any test
  | _ => false

/-- `eq_ignore_ascii_case`. -/
def eqIgnoreAsciiCase (text other : String) : Bool :=
  toAsciiLowercase text.toList == toAsciiLowercase other.toList

/-- `is_http_token_byte`. -/
def isHttpTokenChar (c : Char) : Bool :=
  c.isAlphanum || "!#$%&'*+-.^_|~".toList.contains c || c == Char.ofNat 96

def isBetaItem (item : List Char) : Bool :=
  let name := (item.dropWhile (· == ' ')).rdropWhile (· == ' ')
  !name.isEmpty && name.all isHttpTokenChar

def validateAnthropicBetaHeader (headers : Headers) : Except ExchangeReject (Option String) :=
  match headers.values "anthropic-beta" with
  | [] => .ok none
  | [value] =>
      if value.isEmpty || decide (maxAnthropicBetaHeaderBytes < value.utf8ByteSize) ||
          value.toList.any (fun c => !(' ' ≤ c && c ≤ '~')) then .error .header
      else if (value.toList.splitOn ',').all isBetaItem then .ok (some value)
      else .error .header
  | _ => .error .header

/-- A revision as it is written. -/
def readRevision (value : String) : Option Nat :=
  ((toStr value).bind fun text => parseUnsigned 64 text.toList).filter fun revision =>
    0 < revision && value == Nat.repr revision

/-- The one revision that a request asks for. -/
def askedRevision (headers : Headers) : Option Nat :=
  match headers.values modelBindingRevisionHeader with
  | [value] => readRevision value
  | _ => none

def validateInboundHeaders (headers : Headers) : Except ExchangeReject (Nat × Option String) := do
  ensure (onlyValue headers executionPolicyHeader (· == exactCanonicalNoReplayPolicy)) .header
  ensure (onlyValue headers "content-type" (eqIgnoreAsciiCase · "application/json")) .header
  ensure (onlyValue headers "anthropic-version" (· == anthropicVersion)) .header
  let revision ← required (askedRevision headers) .header
  let anthropicBeta ← validateAnthropicBetaHeader headers
  return (revision, anthropicBeta)

/-- What a request reads of the cache, and when. -/
structure CacheReading where
  cache : BindingCache
  now : Instant

/-- The binding that `forward_request` works with: a second reading counts if the first asks for a
refresh. -/
def lookupBinding (before after : CacheReading) (revision : Nat) (model : String) :
    Except BindingReject ModelBinding :=
  let lookup := before.cache.currentBinding model revision before.now
  let lookup :=
    if lookup.needsRefresh then after.cache.currentBinding model revision after.now else lookup
  lookup.intoResult

structure UpstreamRequest where
  url : String
  headers : Headers
  body : Document

structure UpstreamResponse where
  status : Nat
  headers : Headers
  body : Source
  /-- Whether all of the body is there within `ERROR_BODY_WAIT`. -/
  errorBodyInTime : Bool

structure Adapter where
  serde : SerdeJson
  numbers : SerdeNumbers
  /-- `serde_json`'s reading of a text. -/
  read : Bytes → Option Document
  authorization : String

/-- What is asked of the upstream, and what an answer is. -/
def mediaType (streamResponse : Bool) : String :=
  if streamResponse then "text/event-stream" else "application/json"

structure Sending where
  revision : Nat
  forwarded : UpstreamBody
  request : UpstreamRequest

section Exchange

variable (adapter : Adapter)

/-- `forward_request` up to the call of the transport. -/
def sending (request : UpstreamProxy.Request) (before after : CacheReading) :
    Except ExchangeReject Sending := do
  ensure (request.method == "POST") .method
  ensure (request.uri.pathAndQuery == "/v1/messages") .path
  let (revision, anthropicBeta) ← validateInboundHeaders request.headers
  let forwarded ← (upstreamBody adapter.numbers adapter.read (lookupBinding before after revision)
    (dataOf request.body)).mapError BodyReject.toExchange
  let headers := [("authorization", adapter.authorization), ("anthropic-version", anthropicVersion),
    ("content-type", "application/json"), ("accept", mediaType forwarded.streamResponse)] ++
      (anthropicBeta.map fun value => ("anthropic-beta", value)).toList
  return ⟨revision, forwarded, bedrockMantleUrl, headers, forwarded.body⟩

/-! ### The answer -/

/-- `read_bounded_body`. -/
def readBoundedBody (limit : Nat) : Bytes → Source → Except Reject Bytes
  | body, [] => .ok body
  | _, .error _ :: _ => .error .upstreamTransport
  | body, .ok chunk :: rest =>
      if limit < body.length + chunk.length then .error .upstream
      else readBoundedBody limit (body ++ chunk) rest

def lowerByte (byte : UInt8) : UInt8 := if 65 ≤ byte && byte ≤ 90 then byte + 32 else byte

def signalsPromptTooLong (body : Bytes) : Bool :=
  decide (asBytes promptTooLong <:+: body.map lowerByte)

def retryAfterSecs (headers : Headers) : Option Nat :=
  ((headers.values "retry-after").head?.bind toStr).bind fun value =>
    let value := trim value.toList
    if value.isEmpty || !allDigits value then none else parseUnsigned 32 value

def upstreamRejection (given : UpstreamResponse) : ExchangeReject :=
  if given.status = 429 then .upstreamThrottled (retryAfterSecs given.headers)
  else if given.status = 401 then .upstreamUnauthorized
  else if given.status = 403 then .upstreamForbidden
  else if given.status = 400 then
    .upstreamInvalidRequest (given.errorBodyInTime &&
      ((readBoundedBody maxErrorBody [] given.body).toOption.any signalsPromptTooLong))
  else if given.status = 413 then .upstreamTooLarge
  else .upstreamHttp given.status

/-- Whether the answer names a media type. -/
def isOfType (headers : Headers) (expected : String) : Bool :=
  let contentType := ((headers.values "content-type").head?.bind toStr).getD ""
  eqIgnoreAsciiCase (String.ofList (trim (contentType.toList.takeWhile (· ≠ ';')))) expected

/-- `canonicalize_response_identity`. -/
def canonicalizeResponseIdentity (bytes : Bytes) (expectedRawModel canonicalModel : String) :
    Except Reject Document :=
  match parseUnique adapter.numbers adapter.read bytes with
  | some (.object fields) =>
      match (fields.lookup "model").bind Value.asStr with
      | none => .error .upstream
      | some rawModel =>
          if rawModel ≠ expectedRawModel then .error .modelIdentityMismatch
          else .ok (adapter.numbers.write
            (.object (Value.insertMember "model" (.string canonicalModel) fields)))
  | _ => .error .upstream

/-- `response_with_binding_revision` of a success. -/
def revisionAnswer (contentType : String) (body : AnswerBody) (revision : Nat) : Answer :=
  ⟨200, [("content-type", contentType), (modelBindingRevisionHeader, Nat.repr revision)], body⟩

def finishUpstreamResponse (given : UpstreamResponse) (binding : ModelBinding)
    (streamResponse : Bool) : Except ExchangeReject Answer :=
  if given.status ≠ 200 then .error (upstreamRejection given)
  else if streamResponse then do
    ensure (isOfType given.headers "text/event-stream") .upstream
    let items ← (streamBody adapter.serde given.body binding.responseModel
      binding.model).mapError Reject.toExchange
    return revisionAnswer "text/event-stream" (.stream items) binding.revision
  else do
    ensure (isOfType given.headers "application/json") .upstream
    let body ← (readBoundedBody maxResponseBody [] given.body).mapError Reject.toExchange
    let document ← (canonicalizeResponseIdentity adapter body binding.responseModel
      binding.model).mapError Reject.toExchange
    return revisionAnswer "application/json" (.document document) binding.revision

/-- `forward_request`. -/
def forwardRequest (transport : UpstreamRequest → Except Unit UpstreamResponse)
    (request : UpstreamProxy.Request) (before after : CacheReading) :
    Except ExchangeReject Answer := do
  let sending ← sending adapter request before after
  let given ← (transport sending.request).mapError fun _ => .upstreamTransport
  finishUpstreamResponse adapter given sending.forwarded.binding sending.forwarded.streamResponse

def handleRequest (transport : UpstreamRequest → Except Unit UpstreamResponse)
    (request : UpstreamProxy.Request) (before after : CacheReading) : Answer :=
  match forwardRequest adapter transport request before after with
  | .ok answer => answer
  | .error reject => reject.intoResponse

end Exchange

/-! ### Replaced models -/

section Replaced

open Document SerdeNumbers

variable {numbers : SerdeNumbers} {read : Bytes → Option Document}

/-- A document that was read as an object with the name of a model, and what is written of it with
another name. -/
theorem write_with_model {bytes : Bytes} {fields : List (String × Value)} {held : String}
    (parsed : parseUnique numbers read bytes = some (.object fields))
    (named : fields.lookup "model" = some (.string held)) :
    ∃ members, read bytes = some (.object members) ∧
      members.lookup "model" = some (.string held) ∧
        ∀ model, numbers.write (.object (Value.insertMember "model" (.string model) fields)) =
          ((object members).withMember "model" (.string model)).mapNumbers numbers.again := by
  unfold parseUnique at parsed
  obtain ⟨document, reads, visited⟩ := Option.bind_eq_some_iff.mp parsed
  have accepted : numbers.visit document = .ok (.object fields) := by
    cases result : numbers.visit document with
    | error => rw [result] at visited; cases visited
    | ok value => rw [result] at visited; cases visited; rfl
  obtain ⟨written, -⟩ := write_of_visit document accepted
  obtain ⟨members, rfl⟩ : ∃ members, document = .object members := by
    cases document with
    | object members => exact ⟨members, rfl⟩
    | _ => cases written
  have fieldsWritten : numbers.writeMap fields = mapMembers numbers.again members :=
    Document.object.inj written
  refine ⟨members, reads, ?_, fun model => ?_⟩
  · have looked :
        (members.lookup "model").map (mapNumbers numbers.again) = some (.string held) := by
      rw [← lookup_mapMembers, ← fieldsWritten, lookup_writeMap, named]
      rfl
    obtain ⟨item, found, same⟩ := Option.map_eq_some_iff.mp looked
    rw [found, mapNumbers_eq_string.mp same]
  · have present : (fields.lookup "model").isSome = true := by
      rw [named]
      rfl
    rw [write, writeMap_insertMember present, fieldsWritten, withMember_object, mapNumbers,
      mapMembers_replacing rfl]
    rfl

end Replaced

/-! ### What is sent -/

section Sent

variable {adapter : Adapter} {request : UpstreamProxy.Request} {before after : CacheReading}
  {headers : Headers}

/-- A header that is the only one of its name has one value, which passes the
test. -/
theorem values_of_onlyValue {name : String} {test : String → Bool}
    (only : onlyValue headers name test = true) :
    ∃ value, headers.values name = [value] ∧ test value = true := by
  unfold onlyValue at only
  split at only
  · rename_i value alone
    cases visible : toStr value with
    | none =>
        rw [visible] at only
        cases only
    | some text =>
        rw [visible] at only
        exact ⟨text, by rw [alone, toStr_eq_some visible], only⟩
  · cases only

/-- The beta header sent is the one received, or there is none. -/
theorem values_of_validateAnthropicBetaHeader {anthropicBeta : Option String}
    (valid : validateAnthropicBetaHeader headers = .ok anthropicBeta) :
    headers.values "anthropic-beta" = anthropicBeta.toList := by
  unfold validateAnthropicBetaHeader at valid
  split at valid
  · rename_i none_
    cases valid
    exact none_
  · rename_i value alone
    split at valid
    · cases valid
    · split at valid
      · cases valid
        exact alone
      · cases valid
  · cases valid

theorem readRevision_eq_some {value : String} {revision : Nat}
    (read : readRevision value = some revision) : 0 < revision ∧ value = Nat.repr revision := by
  unfold readRevision at read
  have holds := (Option.filter_eq_some_iff.mp read).2
  simpa using holds

theorem askedRevision_eq_some {revision : Nat} (asked : askedRevision headers = some revision) :
    0 < revision ∧ headers.values modelBindingRevisionHeader = [Nat.repr revision] := by
  unfold askedRevision at asked
  split at asked
  · rename_i value alone
    obtain ⟨positive, written⟩ := readRevision_eq_some asked
    exact ⟨positive, by rw [alone, written]⟩
  · cases asked

/-- The headers accepted name the policy, the revision and one beta value at most. -/
theorem validateInboundHeaders_eq_ok {revision : Nat} {anthropicBeta : Option String}
    (valid : validateInboundHeaders headers = .ok (revision, anthropicBeta)) :
    headers.values executionPolicyHeader = [exactCanonicalNoReplayPolicy] ∧ 0 < revision ∧
      headers.values modelBindingRevisionHeader = [Nat.repr revision] ∧
        headers.values "anthropic-beta" = anthropicBeta.toList := by
  unfold validateInboundHeaders at valid
  simp only [bind_eq_ok, ensure_eq_ok, required_eq_ok] at valid
  obtain ⟨-, policy, -, -, -, -, found, asked, beta, betaValid, same⟩ := valid
  cases same
  obtain ⟨value, alone, isPolicy⟩ := values_of_onlyValue policy
  rw [beq_iff_eq.mp isPolicy] at alone
  obtain ⟨positive, written⟩ := askedRevision_eq_some asked
  exact ⟨alone, positive, written, values_of_validateAnthropicBetaHeader betaValid⟩

/-- The binding is of one of the two readings, at the revision asked for. -/
theorem lookupBinding_eq_ok {revision : Nat} {model : String} {binding : ModelBinding}
    (found : lookupBinding before after revision model = .ok binding) :
    ∃ reading, (reading = before ∨ reading = after) ∧
      reading.cache.currentBinding model revision reading.now = .ready binding := by
  have ready : ∀ lookup : BindingLookup, lookup.intoResult = .ok binding →
      lookup = .ready binding := by
    intro lookup result
    cases lookup with
    | ready own => cases result; rfl
    | behind => cases result
    | refresh reject => cases result
  unfold lookupBinding at found
  have settled := ready _ found
  split at settled
  · exact ⟨after, .inr rfl, settled⟩
  · exact ⟨before, .inl rfl, settled⟩

/-- What a request that is sent asks for, and what of it is sent. -/
structure Sent (adapter : Adapter) (request : UpstreamProxy.Request) (before after : CacheReading)
    (model : String) (sending : Sending) : Prop where
  posted : request.method = "POST" ∧ request.uri.pathAndQuery = "/v1/messages"
  policy : request.headers.values executionPolicyHeader = [exactCanonicalNoReplayPolicy]
  revision : 0 < sending.revision ∧
    request.headers.values modelBindingRevisionHeader = [Nat.repr sending.revision]
  current : ∃ reading, (reading = before ∨ reading = after) ∧
    reading.cache.currentBinding model sending.revision reading.now =
      .ready sending.forwarded.binding
  /-- The document is the caller's, with the upstream model in the place of the model. -/
  document : ∃ members, adapter.read (dataOf request.body) = some (.object members) ∧
    members.lookup "model" = some (.string model) ∧
      sending.request.body = ((Document.object members).withMember "model"
        (.string sending.forwarded.binding.upstreamModel)).mapNumbers adapter.numbers.again
  url : sending.request.url = bedrockMantleUrl
  credential : sending.request.headers.values "authorization" = [adapter.authorization]
  accept : sending.request.headers.values "accept" = [mediaType sending.forwarded.streamResponse]
  /-- Of the caller's fields only the one of the betas is sent. -/
  fields : ∀ name, name ∉ ["authorization", "anthropic-version", "content-type", "accept"] →
    sending.request.headers.values name =
      if name = "anthropic-beta" then request.headers.values name else []

/-- The body sent is for the binding that was looked up under its model. -/
theorem upstreamBody_looked {lookup : String → Except BindingReject ModelBinding} {bytes : Bytes}
    {forwarded : UpstreamBody}
    (accepted : upstreamBody adapter.numbers adapter.read lookup bytes = .ok forwarded) :
    ∃ model members, lookup model = .ok forwarded.binding ∧
      adapter.read bytes = some (.object members) ∧
        members.lookup "model" = some (.string model) ∧
          forwarded.body = ((Document.object members).withMember "model"
            (.string forwarded.binding.upstreamModel)).mapNumbers adapter.numbers.again := by
  unfold upstreamBody at accepted
  split at accepted
  · cases accepted
  · split at accepted
    · cases accepted
    · rename_i prepared ready
      split at accepted
      · cases accepted
      · rename_i binding found
        cases accepted
        obtain ⟨parsed, named⟩ := prepareRequestBody_inv ready
        obtain ⟨members, reads, held, written⟩ := write_with_model parsed named
        exact ⟨prepared.model, members, found, reads, held, written _⟩

/-- Of the other names the request has the beta header alone, as it was received. -/
theorem values_of_sent {authorization accept name : String} {anthropicBeta : Option String}
    (other : name ∉ ["authorization", "anthropic-version", "content-type", "accept"]) :
    Headers.values ([("authorization", authorization), ("anthropic-version", anthropicVersion),
      ("content-type", "application/json"), ("accept", accept)] ++
        (anthropicBeta.map fun value => ("anthropic-beta", value)).toList) name =
      if name = "anthropic-beta" then anthropicBeta.toList else [] := by
  simp only [List.mem_cons, List.not_mem_nil, or_false, not_or] at other
  obtain ⟨notAuthorization, notVersion, notType, notAccept⟩ := other
  rw [Headers.values_append]
  simp only [Headers.values_cons, Headers.values_nil, if_neg (Ne.symm notAuthorization),
    if_neg (Ne.symm notVersion), if_neg (Ne.symm notType), if_neg (Ne.symm notAccept),
    List.nil_append]
  cases anthropicBeta with
  | none => simp
  | some value =>
      by_cases beta : name = "anthropic-beta"
      · simp [beta, Headers.values_cons]
      · simp [beta, Ne.symm beta, Headers.values_cons]

/-- A request that is sent is one `Sent` describes. -/
theorem exists_sent {sent : Sending}
    (accepted : sending adapter request before after = .ok sent) :
    ∃ model, Sent adapter request before after model sent := by
  unfold sending at accepted
  simp only [bind_eq_ok, ensure_eq_ok, mapError_eq_ok, beq_iff_eq] at accepted
  obtain ⟨-, posted, -, path, ⟨revision, anthropicBeta⟩, valid, forwarded, prepared, same⟩ :=
    accepted
  cases same
  obtain ⟨policy, positive, asked, beta⟩ := validateInboundHeaders_eq_ok valid
  obtain ⟨model, members, looked, reads, named, body⟩ := upstreamBody_looked prepared
  refine ⟨model, ⟨posted, path⟩, policy, ⟨positive, asked⟩, lookupBinding_eq_ok looked,
    ⟨members, reads, named, body⟩, rfl, ?_, ?_, fun name other => ?_⟩
  · cases anthropicBeta <;> rfl
  · cases anthropicBeta <;> rfl
  · rw [values_of_sent other]
    by_cases isBeta : name = "anthropic-beta"
    · rw [if_pos isBeta, if_pos isBeta, isBeta, beta]
    · rw [if_neg isBeta, if_neg isBeta]

end Sent

/-! ### The rows of the registry -/

section Rows

variable {decode : Bytes → Option Value} {network : String}

/-- Every row stands under its own model. -/
def BindingsSnapshot.Named (snapshot : BindingsSnapshot) : Prop :=
  ∀ (model : String) (row : ModelBinding), snapshot.bindings[model]? = some row → row.model = model

/-- Every row inserted is under its own model. -/
theorem insertRows_named {revision : Nat} {items : List Value} {bindings table : Table ModelBinding}
    (inserted : insertRows revision bindings items = .ok table)
    (named : ∀ (model : String) (row : ModelBinding), bindings[model]? = some row →
      row.model = model) :
    ∀ (model : String) (row : ModelBinding), table[model]? = some row → row.model = model := by
  induction items generalizing bindings with
  | nil =>
      cases inserted
      exact named
  | cons item rest ih =>
      rw [insertRows, bind_eq_ok] at inserted
      obtain ⟨binding, -, inserted⟩ := inserted
      split at inserted
      · cases inserted
      · refine ih inserted fun model row held => ?_
        rw [ExtTreeMap.getElem?_insert] at held
        split at held
        · rename_i equal
          cases held
          exact Std.LawfulEqCmp.eq_of_compare equal
        · exact named model row held

theorem named_of_parse {bytes : Bytes} {snapshot : BindingsSnapshot}
    (parsed : parseBindingsPayload decode bytes network = .ok snapshot) : snapshot.Named := by
  unfold parseBindingsPayload readBindingsPayload at parsed
  simp only [bind_eq_ok] at parsed
  obtain ⟨_, -, _, -, _, -, _, -, _, -, _, -, _, -, table, inserted, same⟩ := parsed
  cases same
  exact insertRows_named inserted fun model row held => by simp at held

variable (decode network)

/-- `refresh_bindings` with the body that was fetched, and when. -/
def refreshed (history : History) (fetched : Bytes × Instant) : History :=
  match parseBindingsPayload decode fetched.1 network with
  | .ok snapshot => history.offer ⟨snapshot, fetched.2⟩
  | .error _ => history

/-- The cache after the refreshes, and what it accepted. -/
def refreshes (fetches : List (Bytes × Instant)) : History :=
  fetches.foldl (refreshed decode network) .start

theorem refreshes_concat (fetches : List (Bytes × Instant)) (fetched : Bytes × Instant) :
    refreshes decode network (fetches ++ [fetched]) =
      refreshed decode network (refreshes decode network fetches) fetched := by
  simp [refreshes]

theorem History.accepted_offer (history : History) (call : Offer) :
    (history.offer call).accepted = history.accepted ∨
      (history.offer call).accepted = history.accepted ++ [call.snapshot] := by
  unfold History.offer
  split
  · exact .inr rfl
  · exact .inl rfl

/-- After any fetches the cache is as the accepted snapshots have it, and these
are named. -/
theorem sound_refreshes (fetches : List (Bytes × Instant)) :
    (refreshes decode network fetches).Sound ∧
      ∀ snapshot ∈ (refreshes decode network fetches).accepted, snapshot.Named := by
  induction fetches using List.reverseRecOn with
  | nil => exact ⟨History.sound_start, fun _ mem => by cases mem⟩
  | append_singleton fetches fetched ih =>
      obtain ⟨sound, named⟩ := ih
      rw [refreshes_concat, refreshed]
      split
      · rename_i snapshot parsed
        refine ⟨History.sound_offer sound _, fun held mem => ?_⟩
        rcases History.accepted_offer (refreshes decode network fetches) ⟨snapshot, fetched.2⟩ with
          same | grown
        · exact named held (same ▸ mem)
        · rw [grown, List.mem_append, List.mem_singleton] at mem
          rcases mem with earlier | rfl
          · exact named held earlier
          · exact named_of_parse parsed
      · exact ⟨sound, named⟩

/-- What was accepted stays accepted through further fetches. -/
theorem accepted_refreshes (fetches more : List (Bytes × Instant)) :
    (refreshes decode network fetches).accepted ⊆
      (refreshes decode network (fetches ++ more)).accepted := by
  induction more using List.reverseRecOn with
  | nil => simp
  | append_singleton more fetched ih =>
      intro snapshot mem
      rw [← List.append_assoc, refreshes_concat, refreshed]
      split
      · rename_i offered _
        rcases History.accepted_offer (refreshes decode network (fetches ++ more))
          ⟨offered, fetched.2⟩ with same | grown
        · rw [same]
          exact ih mem
        · rw [grown]
          exact List.mem_append_left _ (ih mem)
      · exact ih mem

/-- A binding that is looked up is a row of a snapshot that was accepted, under its own model. -/
theorem ready_refreshes (fetches more : List (Bytes × Instant)) {model : String} {revision : Nat}
    {now : Instant} {binding : ModelBinding}
    (found : (refreshes decode network fetches).cache.currentBinding model revision now =
      .ready binding) :
    binding.model = model ∧ binding.revision = revision ∧
      ∃ snapshot ∈ (refreshes decode network (fetches ++ more)).accepted,
        snapshot.bindings[model]? = some binding := by
  obtain ⟨sound, named⟩ := sound_refreshes decode network fetches
  obtain ⟨cached, held, row, expected⟩ := BindingCache.currentBinding_ready found
  have last := sound.latest
  rw [held, Option.map_some] at last
  have mem := List.mem_of_getLast? last.symm
  exact ⟨named _ mem model binding row, expected, cached.snapshot,
    accepted_refreshes decode network fetches more mem, row⟩

end Rows

/-! ### What is answered -/

section Answered

variable {adapter : Adapter}

/-- A body that was read came whole, and within the limit. -/
theorem readBoundedBody_eq_ok {limit : Nat} {source : Source} {start body : Bytes}
    (within : start.length ≤ limit) (read : readBoundedBody limit start source = .ok body) :
    body.length ≤ limit ∧
      ∃ chunks : List Bytes, source = chunks.map .ok ∧ body = start ++ chunks.flatten := by
  induction source generalizing start with
  | nil =>
      cases read
      exact ⟨within, [], rfl, (List.append_nil _).symm⟩
  | cons piece rest ih =>
      cases piece with
      | error failure => cases read
      | ok chunk =>
          rw [readBoundedBody] at read
          split at read
          · cases read
          · rename_i fits
            have longer : (start ++ chunk).length ≤ limit := by
              rw [List.length_append]
              omega
            obtain ⟨bounded, chunks, rfl, rfl⟩ := ih longer read
            exact ⟨bounded, chunk :: chunks, rfl, by simp⟩

/-- A response is released if it names the expected model, under the canonical
one. -/
theorem canonicalizeResponseIdentity_eq_ok {bytes : Bytes} {expected canonical : String}
    {document : Document}
    (released : canonicalizeResponseIdentity adapter bytes expected canonical = .ok document) :
    ∃ members, adapter.read bytes = some (.object members) ∧
      members.lookup "model" = some (.string expected) ∧
        document = ((Document.object members).withMember "model"
          (.string canonical)).mapNumbers adapter.numbers.again := by
  unfold canonicalizeResponseIdentity at released
  split at released
  · rename_i fields parsed
    split at released
    · cases released
    · rename_i rawModel text
      split at released
      · cases released
      · rename_i same
        cases released
        obtain ⟨held, found, isText⟩ := Option.bind_eq_some_iff.mp text
        have named : fields.lookup "model" = some (.string expected) := by
          rw [found, ← not_not.mp same]
          cases held with
          | string own => cases isText; rfl
          | _ => cases isText
        obtain ⟨members, reads, namedThere, written⟩ := write_with_model parsed named
        exact ⟨members, reads, namedThere, written canonical⟩
  · cases released

/-- The body of a success: the stream that was guarded, or the document, each with the canonical
model in the place of the one that was expected of it. -/
def ReleasedBody (adapter : Adapter) (given : UpstreamResponse) (expected canonical : String)
    (body : AnswerBody) : Prop :=
  (∃ items, body = .stream items ∧
    streamBody adapter.serde given.body expected canonical = .ok items) ∨
  ∃ (chunks : List Bytes) (members : List (String × Document)),
    given.body = chunks.map .ok ∧ chunks.flatten.length ≤ maxResponseBody ∧
      adapter.read chunks.flatten = some (.object members) ∧
        members.lookup "model" = some (.string expected) ∧
          body = .document (((Document.object members).withMember "model"
            (.string canonical)).mapNumbers adapter.numbers.again)

/-- An answer is of status 200, with the response's bytes under the canonical
model. -/
theorem finishUpstreamResponse_eq_ok {given : UpstreamResponse} {binding : ModelBinding}
    {streamResponse : Bool} {answer : Answer}
    (finished : finishUpstreamResponse adapter given binding streamResponse = .ok answer) :
    given.status = 200 ∧ answer.status = 200 ∧
      answer.headers = [("content-type", mediaType streamResponse),
        (modelBindingRevisionHeader, Nat.repr binding.revision)] ∧
          ReleasedBody adapter given binding.responseModel binding.model answer.body := by
  unfold finishUpstreamResponse at finished
  split at finished
  · cases finished
  · rename_i success
    refine ⟨not_not.mp success, ?_⟩
    cases streamResponse with
    | true =>
      simp only [if_true, bind_eq_ok, ensure_eq_ok, mapError_eq_ok] at finished
      obtain ⟨-, -, items, guarded, same⟩ := finished
      cases same
      exact ⟨rfl, rfl, .inl ⟨items, rfl, guarded⟩⟩
    | false =>
      simp only [Bool.false_eq_true, if_false, bind_eq_ok, ensure_eq_ok, mapError_eq_ok] at finished
      obtain ⟨-, -, body, read, document, released, same⟩ := finished
      cases same
      obtain ⟨bounded, chunks, source, rfl⟩ := readBoundedBody_eq_ok (Nat.zero_le _) read
      obtain ⟨members, reads, named, rfl⟩ := canonicalizeResponseIdentity_eq_ok released
      exact ⟨rfl, rfl, .inr ⟨chunks, members, source, bounded, reads, named, rfl⟩⟩

/-- An answer for the model and the revision that were asked for. -/
structure Answered (adapter : Adapter)
    (transport : UpstreamRequest → Except Unit UpstreamResponse) (request : UpstreamProxy.Request)
    (before after : CacheReading) (accepted : List BindingsSnapshot) (model : String)
    (sent : Sending) (given : UpstreamResponse) (answer : Answer) : Prop where
  asks : Sent adapter request before after model sent
  /-- The binding is the registry's for the model, at the revision. -/
  row : sent.forwarded.binding.model = model ∧ sent.forwarded.binding.revision = sent.revision ∧
    ∃ snapshot ∈ accepted, snapshot.bindings[model]? = some sent.forwarded.binding
  reached : transport sent.request = .ok given ∧ given.status = 200
  success : answer.status = 200
  headers : answer.headers = [("content-type", mediaType sent.forwarded.streamResponse),
    (modelBindingRevisionHeader, Nat.repr sent.revision)]
  released : ReleasedBody adapter given sent.forwarded.binding.responseModel model answer.body

/-- A registry with one row. -/
def oneRow : Value :=
  .object [("schema_version", .number (.posInt 1)), ("network", .string "mainnet"),
    ("revision", .number (.posInt 1)), ("bindings", .array [.object [
      ("provider", .string "anthropic"), ("model", .string "m"),
      ("upstream_model", .string "anthropic.m"), ("response_model", .string "m"),
      ("revision", .number (.posInt 1))]])]

def halfAdapter : Adapter where
  serde := ⟨fun _ => none, fun _ => ""⟩
  numbers := twoDoubles
  read _ := some halfBody
  authorization := "Bearer k"

def halfRequest : UpstreamProxy.Request where
  method := "POST"
  uri := ⟨none, "/v1/messages"⟩
  headers := [(executionPolicyHeader, exactCanonicalNoReplayPolicy),
    ("content-type", "application/json"), ("anthropic-version", anthropicVersion),
    (modelBindingRevisionHeader, "1")]
  body := [.data halfText]

def echo (_ : UpstreamRequest) : Except Unit UpstreamResponse :=
  .ok ⟨200, [("content-type", "application/json")], [.ok halfText], true⟩

def halfReading : CacheReading where
  cache := (refreshes (fun _ => some oneRow) "mainnet" [([], 0)]).cache
  now := 1

example : (handleRequest halfAdapter echo halfRequest halfReading halfReading).status = 200 := by
  decide +kernel

end Answered

/-! ### What a refusal tells -/

section Refused

/-- The refusals of a credential. -/
def ExchangeReject.refusesCredential : ExchangeReject → Bool
  | .upstreamUnauthorized | .upstreamForbidden => true
  | _ => false

/-- A refusal of each text. -/
def textRejects : List ExchangeReject :=
  [.method, .path, .header, .bodyTooLarge, .invalidBody, .unsupportedModel, .bindingRevision,
    .bindingsUnavailable, .upstream, .upstreamThrottled none, .upstreamUnauthorized,
    .upstreamForbidden, .upstreamInvalidRequest true, .upstreamInvalidRequest false,
    .upstreamTooLarge]

theorem signalsDrain_eq_any (text : List Char) :
    signalsDrain text = (drainSignals.map String.toList).any fun letters =>
      Pattern.occurs (letters.map anyCase) text := by
  rw [signalsDrain_eq, List.any_map]
  rfl

/-- Each rejection of the list drains exactly if it refuses the credential. -/
theorem signalsDrain_textRejects :
    (textRejects.map fun reject => reject.bodyText.toList).map signalsDrain =
      textRejects.map ExchangeReject.refusesCredential := by
  rw [funext signalsDrain_eq_any]
  -- The kernel is slow to decode a string, so the letters are written out first.
  conv in drainSignals.map String.toList =>
    simp only [drainSignals, List.map_cons, List.map_nil]
    repeat rw [String.toList_ofList]
  conv in textRejects.map fun reject => reject.bodyText.toList =>
    simp only [textRejects, List.map_cons, List.map_nil]
    unfold ExchangeReject.bodyText
    delta ExchangeReject.publicError
    simp only [String.toList_append]
    repeat rw [String.toList_ofList]
  decide +kernel

/-- Every rejection has the text of one of the list, and refuses alike. -/
theorem exists_textReject (reject : ExchangeReject) : ∃ known ∈ textRejects,
    known.bodyText = reject.bodyText ∧ known.refusesCredential = reject.refusesCredential := by
  cases reject with
  | upstreamTransport => exact ⟨.upstream, by simp [textRejects], rfl, rfl⟩
  | upstreamHttp status => exact ⟨.upstream, by simp [textRejects], rfl, rfl⟩
  | modelIdentityMismatch => exact ⟨.upstream, by simp [textRejects], rfl, rfl⟩
  | upstreamThrottled seconds =>
      exact ⟨.upstreamThrottled none, by simp [textRejects], rfl, rfl⟩
  | upstreamInvalidRequest tooLong =>
      exact ⟨.upstreamInvalidRequest tooLong, by cases tooLong <;> simp [textRejects], rfl, rfl⟩
  | _ => exact ⟨_, by simp [textRejects], rfl, rfl⟩

theorem signalsDrain_bodyText (reject : ExchangeReject) :
    signalsDrain reject.bodyText.toList = reject.refusesCredential := by
  obtain ⟨known, mem, text, same⟩ := exists_textReject reject
  rw [← text, ← same]
  have drains := signalsDrain_textRejects
  rw [List.map_map] at drains
  simpa only [Function.comp_apply] using List.map_inj_left.mp drains known mem

/-- A computation fails in one of some ways only. -/
def FailsAs {A : Type} (allowed : ExchangeReject → Prop) (result : Except ExchangeReject A) :
    Prop :=
  ∀ reject, result = .error reject → allowed reject

variable {A B : Type} {allowed : ExchangeReject → Prop}

/-- Two computations in a row fail as either does. -/
theorem FailsAs.bind {first : Except ExchangeReject A} {next : A → Except ExchangeReject B}
    (ofFirst : FailsAs allowed first) (ofNext : ∀ value, FailsAs allowed (next value)) :
    FailsAs allowed (first >>= next) := by
  intro reject failed
  cases first with
  | error own =>
      cases failed
      exact ofFirst _ rfl
  | ok value => exact ofNext value reject failed

theorem FailsAs.ensure {condition : Bool} {reject : ExchangeReject} (may : allowed reject) :
    FailsAs allowed (ensure condition reject) := by
  intro own failed
  cases condition with
  | true => cases failed
  | false =>
      cases failed
      exact may

theorem FailsAs.required {found : Option A} {reject : ExchangeReject} (may : allowed reject) :
    FailsAs allowed (required found reject) := by
  intro own failed
  cases found with
  | some value => cases failed
  | none =>
      cases failed
      exact may

theorem FailsAs.mapError {Other : Type} {result : Except Other A} {name : Other → ExchangeReject}
    (may : ∀ failure, allowed (name failure)) : FailsAs allowed (result.mapError name) := by
  intro own failed
  cases result with
  | ok value => cases failed
  | error failure =>
      cases failed
      exact may failure

theorem FailsAs.pure {value : A} : FailsAs allowed (pure value : Except ExchangeReject A) := by
  intro own failed
  cases failed

/-- A refusal that is not of a credential, and names no time. -/
def ExchangeReject.Plain (reject : ExchangeReject) : Prop :=
  reject.refusesCredential = false ∧ reject.retryAfter = []

variable {adapter : Adapter} {request : UpstreamProxy.Request} {before after : CacheReading}

/-- The beta header's rejections are plain. -/
theorem plain_of_validateAnthropicBetaHeader (headers : Headers) :
    FailsAs ExchangeReject.Plain (validateAnthropicBetaHeader headers) := by
  intro reject failed
  unfold validateAnthropicBetaHeader at failed
  split at failed
  · cases failed
  · split at failed
    · cases failed
      exact ⟨rfl, rfl⟩
    · split at failed
      · cases failed
      · cases failed
        exact ⟨rfl, rfl⟩
  · cases failed
    exact ⟨rfl, rfl⟩

theorem BodyReject.plain (reject : BodyReject) : reject.toExchange.Plain := by
  cases reject with
  | binding reject => cases reject <;> exact ⟨rfl, rfl⟩
  | _ => exact ⟨rfl, rfl⟩

theorem Reject.plain (reject : Reject) : reject.toExchange.Plain := by
  cases reject <;> exact ⟨rfl, rfl⟩

theorem plain_of_sending : FailsAs ExchangeReject.Plain (sending adapter request before after) := by
  have header : ExchangeReject.header.Plain := ⟨rfl, rfl⟩
  unfold sending validateInboundHeaders
  refine .bind (.ensure ⟨rfl, rfl⟩) fun _ => .bind (.ensure ⟨rfl, rfl⟩) fun _ => .bind ?_ fun _ =>
    .bind (.mapError BodyReject.plain) fun _ => .pure
  exact .bind (.ensure header) fun _ => .bind (.ensure header) fun _ => .bind (.ensure header)
    fun _ => .bind (.required header) fun _ => .bind (plain_of_validateAnthropicBetaHeader _)
      fun _ => .pure

/-- An upstream answer is refused as its status says, and a success for what it holds. -/
theorem finishUpstreamResponse_fails {given : UpstreamResponse} {binding : ModelBinding}
    {streamResponse : Bool} {reject : ExchangeReject}
    (failed : finishUpstreamResponse adapter given binding streamResponse = .error reject) :
    (given.status ≠ 200 ∧ reject = upstreamRejection given) ∨
      (given.status = 200 ∧ reject.Plain) := by
  unfold finishUpstreamResponse at failed
  split at failed
  · rename_i other
    cases failed
    exact .inl ⟨other, rfl⟩
  · rename_i success
    have upstream : ExchangeReject.upstream.Plain := ⟨rfl, rfl⟩
    refine .inr ⟨not_not.mp success, ?_⟩
    split at failed
    · exact FailsAs.bind (.ensure upstream) (fun _ => .bind (.mapError Reject.plain) fun _ => .pure)
        reject failed
    · exact FailsAs.bind (.ensure upstream) (fun _ => .bind (.mapError Reject.plain) fun _ =>
        .bind (.mapError Reject.plain) fun _ => .pure) reject failed

theorem refusesCredential_upstreamRejection (given : UpstreamResponse) :
    (upstreamRejection given).refusesCredential = true ↔
      given.status = 401 ∨ given.status = 403 := by
  unfold upstreamRejection
  split_ifs <;> simp [ExchangeReject.refusesCredential, *]

/-- A retry-after told is the upstream's, and only of a 429. -/
theorem retryAfter_upstreamRejection {given : UpstreamResponse} {value : String}
    (told : value ∈ Headers.values (upstreamRejection given).retryAfter "retry-after") :
    given.status = 429 ∧ ∃ seconds, retryAfterSecs given.headers = some seconds ∧
      value = Nat.repr seconds := by
  unfold upstreamRejection at told
  split at told
  · rename_i throttled
    cases waits : retryAfterSecs given.headers with
    | none =>
        rw [waits] at told
        cases told
    | some seconds =>
        rw [waits] at told
        refine ⟨throttled, seconds, rfl, ?_⟩
        simpa [ExchangeReject.retryAfter, Headers.values] using told
  · split_ifs at told <;> cases told

/-- A transport's answer that a request was sent for. -/
def Reaches (adapter : Adapter) (transport : UpstreamRequest → Except Unit UpstreamResponse)
    (request : UpstreamProxy.Request) (before after : CacheReading) (given : UpstreamResponse) :
    Prop :=
  ∃ sent, sending adapter request before after = .ok sent ∧ transport sent.request = .ok given

variable {transport : UpstreamRequest → Except Unit UpstreamResponse}

/-- A request fails plainly, or for the status of the upstream's answer. -/
theorem forwardRequest_fails {reject : ExchangeReject}
    (failed : forwardRequest adapter transport request before after = .error reject) :
    (reject.Plain ∧ ∀ given, Reaches adapter transport request before after given →
      given.status = 200) ∨
    ∃ given, Reaches adapter transport request before after given ∧ given.status ≠ 200 ∧
      reject = upstreamRejection given := by
  unfold forwardRequest at failed
  cases prepared : sending adapter request before after with
  | error own =>
      rw [prepared] at failed
      cases failed
      refine .inl ⟨plain_of_sending _ prepared, ?_⟩
      rintro given ⟨sent, accepted, -⟩
      rw [prepared] at accepted
      cases accepted
  | ok sent =>
      -- One request is sent at most, so there is one answer at most.
      have only : ∀ given, Reaches adapter transport request before after given →
          transport sent.request = .ok given := by
        rintro given ⟨other, accepted, transported⟩
        rw [prepared] at accepted
        cases accepted
        exact transported
      rw [prepared] at failed
      cases transported : transport sent.request with
      | error failure =>
          have same : reject = .upstreamTransport := by
            simp only [bind, Except.bind, transported, Except.mapError] at failed
            exact (Except.error.inj failed).symm
          refine .inl ⟨same ▸ ⟨rfl, rfl⟩, fun given reached => ?_⟩
          have held := only given reached
          rw [transported] at held
          cases held
      | ok given =>
          have finished : finishUpstreamResponse adapter given sent.forwarded.binding
              sent.forwarded.streamResponse = .error reject := by
            simpa only [bind, Except.bind, transported, Except.mapError] using failed
          rcases finishUpstreamResponse_fails finished with ⟨other, same⟩ | ⟨success, plain⟩
          · exact .inr ⟨given, ⟨sent, prepared, transported⟩, other, same⟩
          · refine .inl ⟨plain, fun own reached => ?_⟩
            have held := only own reached
            rw [transported] at held
            cases held
            exact success

/-- A success follows an upstream success, and has no text of the adapter's own. -/
theorem forwardRequest_succeeds {answer : Answer}
    (succeeded : forwardRequest adapter transport request before after = .ok answer) :
    (∀ text, answer.body ≠ .text text) ∧ answer.headers.values "retry-after" = [] ∧
      ∀ given, Reaches adapter transport request before after given → given.status = 200 := by
  unfold forwardRequest at succeeded
  simp only [bind_eq_ok, mapError_eq_ok] at succeeded
  obtain ⟨sent, accepted, given, transported, finished⟩ := succeeded
  obtain ⟨success, -, headers, released⟩ := finishUpstreamResponse_eq_ok finished
  refine ⟨fun text same => ?_, by rw [headers]; rfl, ?_⟩
  · rcases released with ⟨items, isStream, -⟩ | ⟨chunks, members, -, -, -, -, isDocument⟩
    · rw [isStream] at same
      cases same
    · rw [isDocument] at same
      cases same
  · rintro own ⟨other, accepted', transported'⟩
    rw [accepted] at accepted'
    cases accepted'
    rw [transported] at transported'
    cases transported'
    exact success

theorem retryAfter_intoResponse (reject : ExchangeReject) :
    reject.intoResponse.headers.values "retry-after" =
      Headers.values reject.retryAfter "retry-after" :=
  rfl

/-- A gateway takes the adapter's own text for a failure of the worker's credential exactly when the
upstream refused it, and a client is told to wait only as long as the upstream said. -/
theorem mantle_drains_on_credentials (adapter : Adapter)
    (transport : UpstreamRequest → Except Unit UpstreamResponse) (request : UpstreamProxy.Request)
    (before after : CacheReading) :
    let answer := handleRequest adapter transport request before after
    ((∃ text, answer.body = .text text ∧ signalsDrain text.toList = true) ↔
      ∃ given, Reaches adapter transport request before after given ∧
        (given.status = 401 ∨ given.status = 403)) ∧
      ∀ value ∈ answer.headers.values "retry-after",
        ∃ given, Reaches adapter transport request before after given ∧ given.status = 429 ∧
          ∃ seconds, retryAfterSecs given.headers = some seconds ∧ value = Nat.repr seconds := by
  intro answer
  cases forwarded : forwardRequest adapter transport request before after with
  | ok released =>
      have same : answer = released := by simp only [answer, handleRequest, forwarded]
      obtain ⟨noText, noWait, onlySuccess⟩ := forwardRequest_succeeds forwarded
      refine ⟨⟨?_, ?_⟩, fun value told => ?_⟩
      · rintro ⟨text, isText, -⟩
        exact absurd (same ▸ isText) (noText text)
      · rintro ⟨given, reached, refused⟩
        have success := onlySuccess given reached
        omega
      · rw [same, noWait] at told
        cases told
  | error reject =>
      have same : answer = reject.intoResponse := by
        simp only [answer, handleRequest, forwarded]
      have drains : (∃ text, answer.body = .text text ∧ signalsDrain text.toList = true) ↔
          reject.refusesCredential = true := by
        rw [← signalsDrain_bodyText, same]
        constructor
        · rintro ⟨text, isText, drained⟩
          cases isText
          exact drained
        · exact fun drained => ⟨_, rfl, drained⟩
      rw [drains, same, retryAfter_intoResponse]
      -- The mantle's own refusals name no credential and no wait; the upstream's pass theirs on.
      rcases forwardRequest_fails forwarded with ⟨plain, onlySuccess⟩ | ⟨given, reached, -, rfl⟩
      · refine ⟨iff_of_false (by simp [plain.1]) ?_, fun value told => ?_⟩
        · rintro ⟨given, reached, refused⟩
          have success := onlySuccess given reached
          omega
        · rw [plain.2] at told
          cases told
      · refine ⟨?_, fun value told => ⟨given, reached, retryAfter_upstreamRejection told⟩⟩
        rw [refusesCredential_upstreamRejection]
        constructor
        · exact fun refused => ⟨given, reached, refused⟩
        · rintro ⟨own, ⟨sent, accepted, transported⟩, refused⟩
          obtain ⟨other, accepted', transported'⟩ := reached
          rw [accepted] at accepted'
          cases accepted'
          rw [transported] at transported'
          cases transported'
          exact refused

end Refused

end GmMiner.Bedrock
