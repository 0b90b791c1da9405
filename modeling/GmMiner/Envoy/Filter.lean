import GmMiner.Lib.Headers
import GmMiner.Lib.Result
import GmMiner.Text

/-!
The data-plane Lua filter (`image/envoy/base.yaml`).

A request is its header fields, `:method` and `:path` among them; `headers:get` joins the values
of a repeated field with commas. A character stands for a byte of a field. The filter answers by
itself or lets the request go on with the headers it leaves. The metadata it writes for the access
log and for the mapping of local replies decides nothing here and is left out.
-/

namespace GmMiner.Envoy

open GmMiner.Lib

/-- An answer of the filter itself. -/
structure Reply where
  status : String
  body : String
  deriving DecidableEq, Repr

/-- The settings of a provider in the rendered `slot_config`. A direct upstream has a header to
put the key in, or the render fails. -/
structure SlotConfig where
  cloud : Bool
  disabled : Bool
  noRetry : Bool
  directEnv : String
  defaultEnv : Option String
  /-- Slot id to the variable of its key. -/
  slots : List (String × String)
  authHeader : Option String
  authPrefix : String
  direct : cloud = false → disabled = false → authHeader.isSome = true

/-- What the rendered filter runs with. -/
structure Filter where
  /-- `expected`, the node secret. -/
  expected : String
  /-- `slot_config`. -/
  slotConfig : String → Option SlotConfig
  getenv : String → Option String

/-- `path:match("^[^?]*")`. -/
def bare (path : String) : String := String.ofList (path.toList.takeWhile (· != '?'))

/-- Whether a text begins with another. -/
def startsWith (start text : String) : Bool := start.toList.isPrefixOf text.toList

theorem startsWith_iff {start text : String} :
    startsWith start text = true ↔ start.toList <+: text.toList := List.isPrefixOf_iff_prefix

theorem startsWith_trans {first second text : String} (shorter : startsWith first second = true)
    (longer : startsWith second text = true) : startsWith first text = true :=
  startsWith_iff.mpr ((startsWith_iff.mp shorter).trans (startsWith_iff.mp longer))

/-- One of two beginnings of a text begins with the other. -/
theorem startsWith_or {first second text : String} (one : startsWith first text = true)
    (other : startsWith second text = true) :
    startsWith first second = true ∨ startsWith second first = true := by
  rw [startsWith_iff, startsWith_iff]
  exact List.prefix_or_prefix_of_prefix (startsWith_iff.mp one) (startsWith_iff.mp other)

/-! ### Replies -/

/-- `string.format("\\u%04x", …)` of a byte below 32. -/
def unicodeEscape (c : Char) : List Char :=
  "\\u00".toList ++ [Nat.digitChar (c.toNat / 16), Nat.digitChar (c.toNat % 16)]

def jsonEscape (value : String) : String :=
  String.ofList (value.toList.flatMap fun c =>
    if c = '\\' then ['\\', '\\']
    else if c = '"' then ['\\', '"']
    else if c.toNat < 32 then unicodeEscape c
    else [c])

def slotUnavailable (slotId : String) : Reply :=
  ⟨"421", "\x7b\"error\":\x7b\"type\":\"gm_slot_unavailable\",\"slot_id\":\"" ++ jsonEscape slotId ++
    "\"\x7d\x7d"⟩

def reject (status message : String) : Reply :=
  ⟨status, "\x7b\"error\":\"" ++ message ++ "\"\x7d"⟩

/-! ### Headers that go -/

def authHeaders : List String := ["authorization", "x-api-key", "x-goog-api-key", "api-key"]

def stripInboundAuth (headers : Headers) : Headers := headers.removeAll authHeaders

def retryHeaders : List String :=
  ["x-envoy-retry-on", "x-envoy-retry-grpc-on", "x-envoy-max-retries",
    "x-envoy-hedge-on-per-try-timeout"]

def stripRetryHeaders (headers : Headers) : Headers := headers.removeAll retryHeaders

/-- The guarded route of the loopback adapter. -/
def Filter.keepExecutionPolicy (filter : Filter) (headers : Headers) (provider : Option String) :
    Bool :=
  provider == some "anthropic" &&
    ((provider.bind filter.slotConfig).any SlotConfig.noRetry) &&
    headers.get ":method" == some "POST" && headers.get ":path" == some "/v1/messages"

/-- The names that `strip_internal_headers` leaves. -/
def keptName (keepExecutionPolicy : Bool) (provider : Option String) (name : String) : Bool :=
  !startsWith "x-gm-" name || name == "x-gm-provider" ||
    (keepExecutionPolicy && name == "x-gm-execution-policy") ||
    (keepExecutionPolicy && name == "x-gm-model-binding-revision") ||
    ((provider == some "near" || provider == some "chutes" || provider == some "kubetee") &&
      name == "x-gm-upstream-model") ||
    (provider == some "kubetee" && name == "x-gm-session-id") ||
    (provider == some "chutes" && name == "x-gm-ordinary")

def Filter.stripInternalHeaders (filter : Filter) (headers : Headers) (provider : Option String) :
    Headers :=
  headers.keep (keptName (filter.keepExecutionPolicy headers provider) provider)

/-! ### Key slots -/

/-- `set_direct_auth`. -/
def setDirectAuth (headers : Headers) (cfg : SlotConfig) (key : String) : Headers :=
  headers.add (cfg.authHeader.getD "") (cfg.authPrefix ++ key)

/-- The variable of a requested slot, or of the default one. -/
def SlotConfig.envName (cfg : SlotConfig) : Option String → Except Reply String
  | some requested => required (cfg.slots.lookup requested) (slotUnavailable requested)
  | none => .ok (cfg.defaultEnv.getD cfg.directEnv)

def Filter.selectUpstreamSlot (filter : Filter) (headers : Headers) (provider : Option String) :
    Except Reply Headers :=
  let requested := headers.get "x-gm-upstream-slot"
  match provider.bind filter.slotConfig with
  | none =>
      match requested with
      | some slot => .error (slotUnavailable slot)
      | none => .ok headers
  | some cfg =>
      if cfg.disabled then
        match requested with
        | some slot => .error (slotUnavailable slot)
        | none => .error ⟨"400", "\x7b\"error\":\x7b\"type\":\"gm_unqualified_surface\"," ++
            "\"message\":\"inference is disabled for this upstream\"\x7d\x7d"⟩
      else if cfg.cloud then
        match requested with
        | none => .error (slotUnavailable "")
        | some slot =>
            if ((cfg.slots.lookup slot).bind filter.getenv).isSome then .ok headers
            else .error (slotUnavailable slot)
      else do
        let envName ← cfg.envName requested
        match filter.getenv envName with
        | some key => return setDirectAuth headers cfg key
        | none =>
            if envName = cfg.directEnv then return setDirectAuth headers cfg ""
            else .error (slotUnavailable (requested.getD ""))

/-! ### Selectors -/

/-- `%s` of a Lua pattern. -/
def isLuaSpace (c : Char) : Bool :=
  c == ' ' || c == '\t' || c == '\n' || c == '\x0b' || c == '\x0c' || c == '\r'

/-- `selector:lower():sub(-4) == "-tee"`. -/
def endsInTee (selector : String) : Bool :=
  "-tee".toList.isSuffixOf (selector.toList.map Char.toLower)

def Filter.chutesSelectorAccepted (filter : Filter) (headers : Headers) (bare : String) :
    Except Reply Unit :=
  match headers.get "x-gm-upstream-model" with
  | none =>
      if bare = "/v1/models" then .ok ()
      else .error (reject "400" "missing Chutes source model")
  | some selector =>
      if selector.toList.all isLuaSpace then .error (reject "400" "empty Chutes source model")
      else if selector.toList.contains ',' ∨ (headers.values "x-gm-upstream-model").length ≠ 1 then
        .error (reject "400" "ambiguous Chutes source model")
      else if endsInTee selector then
        if (filter.getenv "CHUTES_API_KEY").getD "" = "" then
          .error (reject "503" "Chutes verifier unavailable")
        else .ok ()
      else .ok ()

def Filter.nodeKeyAccepted (filter : Filter) (headers : Headers) : Except Reply Unit :=
  if filter.expected ≠ "" ∧ headers.get "x-gm-node-key" ≠ some filter.expected then
    .error (reject "401" "missing or invalid x-gm-node-key")
  else .ok ()

/-- `non_replayable_request`. -/
def Filter.nonReplayableRequest (filter : Filter) (headers : Headers) (provider : Option String)
    (bare : String) : Bool :=
  if provider = some "anthropic" then
    ((provider.bind filter.slotConfig).any SlotConfig.noRetry) &&
      headers.get ":method" == some "POST" && bare == "/v1/messages"
  else if provider ≠ some "deepinfra" ∧ provider ≠ some "kubetee" ∧ provider ≠ some "engy" then
    false
  else if bare = "/v1/videos" ∨ startsWith "/v1/videos/" bare then
    headers.get ":method" == some "POST"
  else if provider = some "engy" ∧ bare = "/v2/video_generation" then
    headers.get ":method" == some "POST"
  else if provider = some "deepinfra" then startsWith "/v1/inference/" bare
  else bare == "/v1/images/generations"

def verifiedModels : String → List String
  | "near" => ["Qwen/Qwen3.8-27B", "z-ai/glm-5.3-flash", "black-forest-labs/FLUX.2-klein-4B"]
  | "kubetee" => ["z-ai/glm-5.2", "z-ai/glm-5.3", "z-ai/glm-5.3-flash",
      "deepseek/deepseek-v4.1-flash", "deepseek/deepseek-v4.1-flash-1017", "moonshotai/kimi-k3",
      "moonshotai/kimi-k3.1-pro", "xiaomi/mimo-v2.6-pro"]
  | _ => []

def verifiedSelectorAccepted (headers : Headers) (provider : String) : Except Reply Unit :=
  if (headers.get "x-gm-upstream-model").any (verifiedModels provider).contains then .ok ()
  else
    .error (reject "400" ("missing or unsupported " ++
      (if provider = "near" then "NEAR" else "KubeTEE") ++ " source model"))

/-- `needs_verified_selector`. -/
def needsVerifiedSelector (provider : Option String) (bare : String) : Bool :=
  (provider == some "near" && bare != "/v1/models") ||
    (provider == some "kubetee" && bare == "/v1/chat/completions")

def Filter.upstreamSelectorAccepted (filter : Filter) (headers : Headers)
    (provider : Option String) (bare : String) : Except Reply Headers :=
  if provider = some "chutes" then do
    filter.chutesSelectorAccepted headers bare
    return headers
  else if needsVerifiedSelector provider bare then do
    verifiedSelectorAccepted headers (provider.getD "")
    return headers
  else .ok (headers.remove "x-gm-upstream-model")

/-! ### The filter -/

/-- The bare path of a request. -/
def barePath (headers : Headers) : String := bare ((headers.get ":path").getD "")

/-- A caller cannot ask for retries of what must not be replayed. -/
def Filter.stripRetries (filter : Filter) (headers : Headers) (provider : Option String)
    (bare : String) : Headers :=
  if filter.nonReplayableRequest headers provider bare then stripRetryHeaders headers else headers

/-- `envoy_on_request`: an answer, or the headers a request goes on with. -/
def Filter.envoyOnRequest (filter : Filter) (headers : Headers) : Except Reply Headers :=
  let bare := barePath headers
  if bare = "/attestation/info" then .ok headers
  else do
    filter.nodeKeyAccepted headers
    let headers := stripInboundAuth headers
    let provider := headers.get "x-gm-provider"
    let headers := filter.stripRetries headers provider bare
    let headers ← filter.upstreamSelectorAccepted headers provider bare
    let headers ← filter.selectUpstreamSlot headers provider
    return filter.stripInternalHeaders headers provider

/-! ### What the filter lets through -/

/-- A selector is accepted only where its provider has one. -/
theorem upstreamSelectorAccepted_ok {filter : Filter} {headers chosen : Headers}
    {provider : Option String} {bare : String}
    (accepted : filter.upstreamSelectorAccepted headers provider bare = .ok chosen) :
    (provider = some "chutes" ∧ chosen = headers ∧
        filter.chutesSelectorAccepted headers bare = .ok ()) ∨
      (provider ≠ some "chutes" ∧ needsVerifiedSelector provider bare = true ∧ chosen = headers ∧
        verifiedSelectorAccepted headers (provider.getD "") = .ok ()) ∨
      (provider ≠ some "chutes" ∧ needsVerifiedSelector provider bare = false ∧
        chosen = headers.remove "x-gm-upstream-model") := by
  unfold Filter.upstreamSelectorAccepted at accepted
  split at accepted
  · rename_i chutes
    obtain ⟨⟨⟩, passes, rest⟩ := bind_eq_ok.mp accepted
    cases rest
    exact .inl ⟨chutes, rfl, passes⟩
  · rename_i other
    split at accepted
    · rename_i needed
      obtain ⟨⟨⟩, passes, rest⟩ := bind_eq_ok.mp accepted
      cases rest
      exact .inr (.inl ⟨other, needed, rfl, passes⟩)
    · rename_i unneeded
      cases accepted
      exact .inr (.inr ⟨other, Bool.eq_false_iff.mpr unneeded, rfl⟩)

/-- What a served request has of its slot: a provider without slots was asked for none, a cloud
provider has a key for the one asked for, and a direct provider gets the key of the one asked for
or of the default one. -/
inductive Filter.Served (filter : Filter) (headers : Headers) (provider : Option String) :
    Headers → Prop
  | slotless (unknown : provider.bind filter.slotConfig = none)
      (unasked : headers.get "x-gm-upstream-slot" = none) : Served filter headers provider headers
  | cloud (cfg : SlotConfig) (slot envName key : String)
      (known : provider.bind filter.slotConfig = some cfg) (enabled : cfg.disabled = false)
      (isCloud : cfg.cloud = true) (asked : headers.get "x-gm-upstream-slot" = some slot)
      (configured : cfg.slots.lookup slot = some envName) (isSet : filter.getenv envName = some key) :
      Served filter headers provider headers
  | direct (cfg : SlotConfig) (envName key : String)
      (known : provider.bind filter.slotConfig = some cfg) (enabled : cfg.disabled = false)
      (isDirect : cfg.cloud = false)
      (named : cfg.envName (headers.get "x-gm-upstream-slot") = .ok envName)
      (isKey : filter.getenv envName = some key ∨
        filter.getenv envName = none ∧ envName = cfg.directEnv ∧ key = "") :
      Served filter headers provider (setDirectAuth headers cfg key)

/-- A request that is served has its slot's credential. -/
theorem selectUpstreamSlot_ok {filter : Filter} {headers served : Headers}
    {provider : Option String} (selected : filter.selectUpstreamSlot headers provider = .ok served) :
    filter.Served headers provider served := by
  unfold Filter.selectUpstreamSlot at selected
  dsimp only at selected
  split at selected
  · rename_i unknown
    split at selected
    · cases selected
    · rename_i unasked
      cases selected
      exact .slotless unknown unasked
  · rename_i cfg known
    split at selected
    · split at selected <;> cases selected
    · rename_i enabled
      have enabled := Bool.eq_false_iff.mpr enabled
      split at selected
      · -- A cloud backend takes the key of the slot that was asked for and fails without one.
        rename_i isCloud
        split at selected
        · cases selected
        · rename_i slot asked
          split at selected
          · rename_i isSet
            cases selected
            obtain ⟨key, found⟩ := Option.isSome_iff_exists.mp isSet
            obtain ⟨envName, configured, isSet⟩ := Option.bind_eq_some_iff.mp found
            exact .cloud cfg slot envName key known enabled isCloud asked configured isSet
          · cases selected
      · rename_i isDirect
        have isDirect := Bool.eq_false_iff.mpr isDirect
        obtain ⟨envName, named, rest⟩ := bind_eq_ok.mp selected
        split at rest
        · rename_i key isSet
          cases rest
          exact .direct cfg envName key known enabled isDirect named (.inl isSet)
        · -- An unset key passes only for the default slot, and then as the empty string.
          rename_i unset
          split at rest
          · rename_i isDefault
            cases rest
            exact .direct cfg envName "" known enabled isDirect named (.inr ⟨unset, isDefault, rfl⟩)
          · cases rest

/-- The headers that the selector and slot checks start from. -/
def Filter.stripped (filter : Filter) (headers : Headers) : Headers :=
  filter.stripRetries (stripInboundAuth headers) (headers.get "x-gm-provider") (barePath headers)

/-- A request that is let through passed every check in turn. -/
theorem envoyOnRequest_ok {filter : Filter} {headers left : Headers}
    (continues : filter.envoyOnRequest headers = .ok left)
    (away : barePath headers ≠ "/attestation/info") :
    filter.nodeKeyAccepted headers = .ok () ∧
      ∃ chosen served,
        filter.upstreamSelectorAccepted (filter.stripped headers) (headers.get "x-gm-provider")
          (barePath headers) = .ok chosen ∧
        filter.Served chosen (headers.get "x-gm-provider") served ∧
        left = filter.stripInternalHeaders served (headers.get "x-gm-provider") := by
  unfold Filter.envoyOnRequest at continues
  rw [if_neg away] at continues
  obtain ⟨⟨⟩, keyed, rest⟩ := bind_eq_ok.mp continues
  have provider : (stripInboundAuth headers).get "x-gm-provider" = headers.get "x-gm-provider" := by
    unfold stripInboundAuth
    rw [Headers.get_removeAll, if_neg (by decide)]
  dsimp only at rest
  rw [provider] at rest
  obtain ⟨chosen, accepted, rest⟩ := bind_eq_ok.mp rest
  obtain ⟨served, selected, rest⟩ := bind_eq_ok.mp rest
  cases rest
  exact ⟨keyed, chosen, served, accepted, selectUpstreamSlot_ok selected, rfl⟩

theorem envoyOnRequest_attestation {filter : Filter} {headers : Headers}
    (here : barePath headers = "/attestation/info") :
    filter.envoyOnRequest headers = .ok headers := by
  unfold Filter.envoyOnRequest
  rw [if_pos here]

/-- The auth header of a direct provider. -/
theorem setDirectAuth_values {cfg : SlotConfig} {headers : Headers} {key name : String} :
    (setDirectAuth headers cfg key).values name =
      headers.values name ++ if name = cfg.authHeader.getD "" then [cfg.authPrefix ++ key] else [] :=
  Headers.values_add

/-- Stripping takes the credential's headers and keeps the others. -/
theorem stripped_values {filter : Filter} {headers : Headers} {name : String}
    (noRetry : name ∉ retryHeaders) :
    (filter.stripped headers).values name =
      if name ∈ authHeaders then [] else headers.values name := by
  have kept : (filter.stripped headers).values name = (stripInboundAuth headers).values name := by
    unfold Filter.stripped Filter.stripRetries stripRetryHeaders
    split
    · rw [Headers.values_removeAll, if_neg noRetry]
    · rfl
  rw [kept]
  exact Headers.values_removeAll

theorem stripInternalHeaders_values {filter : Filter} {headers : Headers}
    {provider : Option String} {name : String} :
    (filter.stripInternalHeaders headers provider).values name =
      if keptName (filter.keepExecutionPolicy headers provider) provider name then
        headers.values name else [] :=
  Headers.values_keep

/-- The fields that no part of the filter touches. -/
structure Untouched (filter : Filter) (provider : Option String) (name : String) : Prop where
  noAuth : name ∉ authHeaders
  noRetry : name ∉ retryHeaders
  kept : ∀ keepExecutionPolicy, keptName keepExecutionPolicy provider name = true
  selector : name = "x-gm-upstream-model" → provider = some "chutes"
  apart : ∀ cfg, provider.bind filter.slotConfig = some cfg → cfg.cloud = false →
    cfg.authHeader.getD "" ≠ name

/-- A header that is not touched goes on as it came. -/
theorem values_of_continues {filter : Filter} {headers left : Headers} {name : String}
    (continues : filter.envoyOnRequest headers = .ok left)
    (untouched : Untouched filter (headers.get "x-gm-provider") name) :
    left.values name = headers.values name := by
  by_cases away : barePath headers = "/attestation/info"
  · rw [envoyOnRequest_attestation away] at continues
    cases continues
    rfl
  obtain ⟨-, chosen, served, accepted, isServed, rfl⟩ := envoyOnRequest_ok continues away
  rw [stripInternalHeaders_values, if_pos (untouched.kept _)]
  have start : (filter.stripped headers).values name = headers.values name := by
    rw [stripped_values untouched.noRetry, if_neg untouched.noAuth]
  have selected : chosen.values name = headers.values name := by
    rcases upstreamSelectorAccepted_ok accepted with
      ⟨-, rfl, -⟩ | ⟨-, -, rfl, -⟩ | ⟨other, -, rfl⟩
    · exact start
    · exact start
    · rw [Headers.values_remove, if_neg fun same => other (untouched.selector same), start]
  cases isServed with
  | slotless => exact selected
  | cloud => exact selected
  | direct cfg envName key known enabled isDirect =>
      rw [setDirectAuth_values, if_neg (untouched.apart cfg known isDirect).symm, List.append_nil,
        selected]

theorem get_of_continues {filter : Filter} {headers left : Headers} {name : String}
    (continues : filter.envoyOnRequest headers = .ok left)
    (untouched : Untouched filter (headers.get "x-gm-provider") name) :
    left.get name = headers.get name := by
  unfold Headers.get
  rw [values_of_continues continues untouched]

end GmMiner.Envoy
