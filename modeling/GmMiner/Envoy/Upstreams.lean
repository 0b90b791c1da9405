import GmMiner.Cli.Slots
import GmMiner.Envoy.Routes

/-!
The upstream files (`image/envoy/upstreams`) and what `render` makes of them
(`cli/src/envoy_render.rs`): the ordered routes, the clusters they lead to, and the filter's table
of key slots.

A file is a definition under its name. Of a cluster the model keeps its name and where its one
endpoint is.
-/

namespace GmMiner.Envoy

open GmMiner.Lib

/-! ### Files -/

/-- Key-slot settings of one upstream. A direct upstream's slots need an `auth_header`. -/
structure Slots where
  directEnv : String
  cloud : Bool := false
  disabled : Bool := false
  noRetry : Bool := false
  authHeader : Option String := none
  authPrefix : String := ""
  direct : cloud = false → disabled = false → authHeader.isSome = true := by decide

structure Cluster where
  name : String
  address : String
  portValue : Nat
  deriving DecidableEq, Repr

structure UpstreamFile where
  slots : Option Slots
  routes : List Route
  clusters : List Cluster

structure Upstream where
  provider : String
  file : UpstreamFile

/-- The `__GM_*_HOST__` tokens. -/
structure Hosts where
  anthropic : String
  openai : String
  benchmark : String

/-- A path and the provider. -/
def onProvider (path : PathMatch) (provider : String) : RouteMatch where
  path
  headers := [("x-gm-provider", .exactly provider)]

def retryPolicy : RetryPolicy := ⟨"reset,connect-failure,refused-stream,5xx", 1⟩

/-- `direct_env`, with the key as a bearer token. -/
def bearerSlots (directEnv : String) : Slots where
  directEnv
  authHeader := some "authorization"
  authPrefix := "Bearer "

def Cluster.loopback (name : String) (portValue : Nat) : Cluster := ⟨name, "127.0.0.1", portValue⟩

def Cluster.tls (name address : String) : Cluster := ⟨name, address, 443⟩

/-- A file whose one route takes every path to one cluster and retries. -/
def plainFile (provider address : String) (slots : Slots)
    (requestHeadersToAdd : List HeaderToAdd) : UpstreamFile where
  slots := some slots
  routes := [{
    on := onProvider (.start "/") provider
    action := .route provider (some retryPolicy)
    requestHeadersToAdd }]
  clusters := [.tls provider address]

def anthropicBedrock : UpstreamFile where
  slots := some { directEnv := "BEDROCK_API_KEY", cloud := true, noRetry := true }
  routes := [{
    on := {
      path := .path "/v1/messages"
      headers := [(":method", .exactly "POST"), ("x-gm-provider", .exactly "anthropic")] }
    action := .route "bedrock_mantle_adapter" none
    requestHeadersToRemove := ["authorization", "api-key", "x-api-key", "x-goog-api-key",
      "x-envoy-retry-on", "x-envoy-retry-grpc-on", "x-envoy-max-retries",
      "x-envoy-hedge-on-per-try-timeout"]
    requestHeadersToAdd :=
      [⟨"anthropic-version", .text "2023-06-01", .overwriteIfExistsOrAdd⟩] }]
  clusters := [.loopback "bedrock_mantle_adapter" 8085]

def anthropicDirect : UpstreamFile :=
  plainFile "anthropic" "api.anthropic.com"
    { directEnv := "ANTHROPIC_API_KEY", authHeader := some "x-api-key" }
    [⟨"anthropic-version", .text "2023-06-01", .addIfAbsent⟩]

def anthropicFoundry (hosts : Hosts) : UpstreamFile where
  slots := some { directEnv := "ANTHROPIC_API_KEY", cloud := true }
  routes := [{
    on := onProvider (.path "/v1/messages") "anthropic"
    action := .route "anthropic" none
    requestHeadersToRemove := ["authorization", "x-api-key", "api-key", "x-goog-api-key"]
    requestHeadersToAdd := [
      ⟨"x-api-key", .environment "GM_ANTHROPIC_KEY_SLOT_1", .overwriteIfExistsOrAdd⟩,
      ⟨"anthropic-version", .text "2023-06-01", .overwriteIfExistsOrAdd⟩] }]
  clusters := [.tls "anthropic" hosts.anthropic]

def benchmark (hosts : Hosts) : UpstreamFile where
  slots := none
  routes := [{
    on := onProvider (.start "/") "benchmark"
    action := .route "benchmark" none
    requestHeadersToRemove := ["authorization"] }]
  clusters := [.tls "benchmark" hosts.benchmark]

/-- A `-TEE` model marked ordinary. -/
def chutesOrdinary : Route where
  on := {
    path := .start "/"
    headers := [("x-gm-provider", .exactly "chutes"),
      ("x-gm-upstream-model", .suffixIgnoringCase "-TEE"), ("x-gm-ordinary", .exactly "1")] }
  requestHeadersToRemove := ["x-gm-upstream-model", "x-gm-ordinary"]
  action := .route "chutes" (some retryPolicy)

/-- Any other `-TEE` model. -/
def chutesVerified : Route where
  on := {
    path := .start "/"
    headers := [("x-gm-provider", .exactly "chutes"),
      ("x-gm-upstream-model", .suffixIgnoringCase "-TEE")] }
  requestHeadersToRemove := ["x-gm-ordinary"]
  action := .route "chutes_verify_proxy" none

/-- Every other request. -/
def chutesDirect : Route where
  on := onProvider (.start "/") "chutes"
  requestHeadersToRemove := ["x-gm-upstream-model", "x-gm-ordinary"]
  action := .route "chutes" (some retryPolicy)

def chutes : UpstreamFile where
  slots := some (bearerSlots "CHUTES_API_KEY")
  routes := [chutesOrdinary, chutesVerified, chutesDirect]
  clusters := [.tls "chutes" "llm.chutes.ai", .loopback "chutes_verify_proxy" 8083]

def deepinfra : UpstreamFile where
  slots := some (bearerSlots "DEEPINFRA_API_KEY")
  routes := [
    { on := onProvider (.start "/v1/inference/") "deepinfra"
      action := .route "deepinfra" none },
    { on := onProvider (.path "/v1/videos") "deepinfra"
      action := .route "deepinfra" none },
    { on := onProvider (.start "/v1/videos/") "deepinfra"
      action := .route "deepinfra" none },
    { on := onProvider (.start "/") "deepinfra"
      action := .route "deepinfra" (some retryPolicy) }]
  clusters := [.tls "deepinfra" "api.deepinfra.com"]

def engy : UpstreamFile where
  slots := some (bearerSlots "ENGY_API_KEY")
  routes := [
    { on := {
        path := .path "/v2/video_generation"
        headers := [(":method", .exactly "POST"), ("x-gm-provider", .exactly "engy")] }
      action := .route "engy" none },
    { on := onProvider (.start "/v2/query/video_generation/") "engy"
      action := .route "engy" none },
    { on := onProvider (.start "/v2/video_generation/") "engy"
      action := .route "engy" none },
    { on := onProvider (.start "/") "engy"
      action := .route "engy" (some retryPolicy) }]
  clusters := [.tls "engy" "api.engy.ai"]

def gemini : UpstreamFile :=
  plainFile "gemini" "generativelanguage.googleapis.com"
    { directEnv := "GOOGLE_API_KEY", authHeader := some "x-goog-api-key" } []

def kubetee : UpstreamFile where
  slots := some (bearerSlots "KUBETEE_API_KEY")
  routes := [
    { on := onProvider (.path "/v1/images/generations") "kubetee"
      action := .route "kubetee" none },
    { on := onProvider (.path "/v1/models") "kubetee"
      action := .route "kubetee_verify_proxy" none },
    { on := onProvider (.path "/v1/chat/completions") "kubetee"
      action := .route "kubetee_verify_proxy" none }]
  clusters := [.tls "kubetee" "llm.kubetee.ai", .loopback "kubetee_verify_proxy" 8084]

def moonmath : UpstreamFile :=
  plainFile "moonmath" "zro.moonmath.ai" (bearerSlots "MOONMATH_API_KEY") []

def moonshot : UpstreamFile :=
  plainFile "moonshot" "api.moonshot.ai" (bearerSlots "MOONSHOT_API_KEY") []

def near : UpstreamFile where
  slots := some (bearerSlots "NEAR_API_KEY")
  routes := [
    { on := onProvider (.path "/v1/models") "near"
      action := .route "near_verify_proxy" none },
    { on := onProvider (.oneOf ["/v1/chat/completions", "/v1/images/generations"]) "near"
      action := .route "near_verify_proxy" none }]
  clusters := [.loopback "near_verify_proxy" 8082]

def openaiAzure (hosts : Hosts) : UpstreamFile where
  slots := some { directEnv := "OPENAI_API_KEY", cloud := true }
  routes := [
    { on := onProvider (.path "/v1/chat/completions") "openai"
      action := .route "openai" none
      requestHeadersToRemove := ["authorization", "x-api-key", "api-key", "x-goog-api-key"]
      requestHeadersToAdd :=
        [⟨"api-key", .environment "GM_OPENAI_KEY_SLOT_1", .overwriteIfExistsOrAdd⟩] },
    { on := onProvider (.path "/v1/responses") "openai"
      action := .directResponse 400
      requestHeadersToRemove := ["authorization", "api-key", "x-api-key"] }]
  clusters := [.tls "openai" hosts.openai]

def openaiDirect : UpstreamFile :=
  plainFile "openai" "api.openai.com" (bearerSlots "OPENAI_API_KEY") []

def zai : UpstreamFile := plainFile "zai" "api.z.ai" (bearerSlots "ZAI_API_KEY") []

/-! ### Selected upstreams -/

inductive AnthropicUpstream
  | direct
  | foundry
  | bedrock
  deriving DecidableEq, Repr

inductive OpenaiUpstream
  | direct
  | azure
  deriving DecidableEq, Repr

/-- The variants that `start.sh` selects, one of each provider that ships variants. -/
structure Selections where
  anthropic : AnthropicUpstream
  openai : OpenaiUpstream
  deriving DecidableEq, Repr

def AnthropicUpstream.file (hosts : Hosts) : AnthropicUpstream → UpstreamFile
  | direct => anthropicDirect
  | foundry => anthropicFoundry hosts
  | bedrock => anthropicBedrock

def OpenaiUpstream.file (hosts : Hosts) : OpenaiUpstream → UpstreamFile
  | direct => openaiDirect
  | azure => openaiAzure hosts

/-- `load_upstreams`: the selected files in the order of their names. -/
def loadUpstreams (selections : Selections) (hosts : Hosts) : List Upstream := [
  ⟨"anthropic", selections.anthropic.file hosts⟩,
  ⟨"benchmark", benchmark hosts⟩,
  ⟨"chutes", chutes⟩,
  ⟨"deepinfra", deepinfra⟩,
  ⟨"engy", engy⟩,
  ⟨"gemini", gemini⟩,
  ⟨"kubetee", kubetee⟩,
  ⟨"moonmath", moonmath⟩,
  ⟨"moonshot", moonshot⟩,
  ⟨"near", near⟩,
  ⟨"openai", selections.openai.file hosts⟩,
  ⟨"zai", zai⟩]

/-! ### Routes -/

def gmInternalHeaders : List String := ["x-gm-request-id", "x-gm-gateway-sig", "x-gm-product",
  "x-gm-node-key", "x-gm-provider", "x-gm-upstream-slot", "x-gm-session-id"]

def keepKubeteeChatSession (route : Route) (provider : String) : Bool :=
  provider == "kubetee" && route.on.path == .path "/v1/chat/completions"

/-- `add_internal_header_strip`. -/
def addInternalHeaderStrip (route : Route) (provider : String) : Route where
  on := route.on
  action := route.action
  requestHeadersToAdd := route.requestHeadersToAdd
  requestHeadersToRemove := gmInternalHeaders.foldl
    (fun headers header =>
      if keepKubeteeChatSession route provider && header == "x-gm-session-id" then headers
      else if headers.contains header then headers
      else headers ++ [header])
    route.requestHeadersToRemove

def Upstream.routes (upstream : Upstream) : List Route :=
  upstream.file.routes.map fun route => addInternalHeaderStrip route upstream.provider

def attestationRoute : Route where
  on := ⟨.path "/attestation/info", []⟩
  action := .route "attestd" none
  requestHeadersToRemove := ["x-gm-upstream-slot"]

/-- No provider matched. -/
def catchAllRoute : Route where
  on := ⟨.start "/", []⟩
  action := .directResponse 501
  requestHeadersToRemove := ["authorization", "x-gm-upstream-slot"]

/-- The routes at `gm:upstream-routes`. -/
def providerRoutes (selections : Selections) (hosts : Hosts) : List Route :=
  (loadUpstreams selections hosts).flatMap Upstream.routes

/-- The routes of the data plane, in match order. -/
def renderedRoutes (selections : Selections) (hosts : Hosts) : List Route :=
  attestationRoute :: providerRoutes selections hosts ++ [catchAllRoute]

/-! ### Clusters -/

def renderedClusters (selections : Selections) (hosts : Hosts) : List Cluster :=
  .loopback "attestd" 8081 ::
    (loadUpstreams selections hosts).flatMap fun upstream => upstream.file.clusters

/-- Where a route leads: the endpoint of its cluster. -/
def endpoint (selections : Selections) (hosts : Hosts) (route : Route) : Option Cluster :=
  route.cluster.bind fun name =>
    (renderedClusters selections hosts).find? fun cluster => cluster.name == name

/-! ### Key slots -/

def slotPrefix (provider : String) : String := "GM_" ++ Cli.toAsciiUppercase provider

/-- The ids of `GM_<PROVIDER>_SLOT_IDS`. -/
def slotIds (env : String → Option String) (provider : String) : List String :=
  ((Cli.splitAt ';' ((env (slotPrefix provider ++ "_SLOT_IDS")).getD "").toList).filter
    (· ≠ [])).map String.ofList

/-- `slots` of a Lua table, in which a later entry of an id replaces an earlier one. -/
def slotMap (provider : String) (ids : List String) : List (String × String) :=
  (ids.zipIdx.map fun entry =>
    (entry.1, slotPrefix provider ++ "_KEY_SLOT_" ++ Nat.repr (entry.2 + 1))).reverse

/-- The settings of a provider in `slot_config_lua`. -/
def slotSettings (env : String → Option String) (provider : String) (slots : Slots) :
    SlotConfig where
  cloud := slots.cloud
  disabled := slots.disabled
  noRetry := slots.noRetry
  directEnv := slots.directEnv
  defaultEnv :=
    if slotIds env provider = [] then none else some (slotPrefix provider ++ "_KEY_SLOT_1")
  slots := slotMap provider (slotIds env provider)
  authHeader := slots.authHeader
  authPrefix := slots.authPrefix
  direct := slots.direct

/-- `slot_config_lua`, with the environment of the render. -/
def slotConfigLua (upstreams : List Upstream) (env : String → Option String) (provider : String) :
    Option SlotConfig :=
  (upstreams.find? fun upstream => upstream.provider == provider).bind fun upstream =>
    upstream.file.slots.map (slotSettings env provider)

/-- The rendered filter, in a process with an environment of its own. -/
def renderedFilter (selections : Selections) (hosts : Hosts) (env getenv : String → Option String)
    (nodeSecret : String) : Filter where
  expected := nodeSecret
  slotConfig := slotConfigLua (loadUpstreams selections hosts) env
  getenv

/-! ### The route of a request -/

/-- Every route of an upstream asks for its provider. -/
def Upstream.Asks (upstream : Upstream) : Prop :=
  ∀ route ∈ upstream.file.routes,
    ("x-gm-provider", StringMatch.exactly upstream.provider) ∈ route.on.headers

instance (upstream : Upstream) : Decidable upstream.Asks :=
  inferInstanceAs (Decidable (∀ _ ∈ _, _))

theorem mem_routes {upstream : Upstream} {route : Route} : route ∈ upstream.routes ↔
    ∃ written ∈ upstream.file.routes, addInternalHeaderStrip written upstream.provider = route :=
  List.mem_map

/-- The strip list decides nothing about which route matches. -/
theorem firstMatch_routes {upstream : Upstream} {headers : Headers} :
    firstMatch upstream.routes headers = (firstMatch upstream.file.routes headers).map fun route =>
      addInternalHeaderStrip route upstream.provider := by
  unfold firstMatch Upstream.routes
  exact List.find?_map

theorem Upstream.Asks.provider {upstream : Upstream} (asks : upstream.Asks) {headers : Headers}
    {route : Route} (mem : route ∈ upstream.routes) (holds : route.on.holds headers = true) :
    headers.get "x-gm-provider" = some upstream.provider := by
  obtain ⟨written, written_mem, rfl⟩ := mem_routes.mp mem
  have tests := (RouteMatch.holds_iff.mp holds).2
  obtain ⟨provider, found, same⟩ := tests _ (asks written written_mem)
  rw [found, beq_iff_eq.mp same]

/-- The routes of one provider decide, when every route asks for its own. -/
theorem firstMatch_flatMap {upstreams : List Upstream} {headers : Headers}
    (asks : ∀ upstream ∈ upstreams, upstream.Asks)
    (apart : (upstreams.map Upstream.provider).Nodup) :
    firstMatch (upstreams.flatMap Upstream.routes) headers =
      ((headers.get "x-gm-provider").bind fun provider =>
        upstreams.find? fun upstream => upstream.provider == provider).bind fun upstream =>
          firstMatch upstream.routes headers := by
  induction upstreams with
  | nil => cases headers.get "x-gm-provider" <;> rfl
  | cons upstream rest ih =>
      rw [List.map_cons, List.nodup_cons] at apart
      have later := ih (fun other mem => asks other (List.mem_cons_of_mem _ mem)) apart.2
      have asked : upstream.Asks := asks upstream List.mem_cons_self
      unfold firstMatch at later ⊢
      rw [List.flatMap_cons, List.find?_append, later]
      by_cases own : headers.get "x-gm-provider" = some upstream.provider
      · have absent : rest.find? (fun other => other.provider == upstream.provider) = none := by
          refine List.find?_eq_none.mpr fun other mem same => apart.1 ?_
          exact List.mem_map.mpr ⟨other, mem, beq_iff_eq.mp same⟩
        rw [own, Option.bind_some, Option.bind_some, absent, Option.bind_none, Option.or_none,
          List.find?_cons_of_pos (by exact beq_self_eq_true _), Option.bind_some]
      · have skipped : upstream.routes.find? (fun route => route.on.holds headers) = none :=
          List.find?_eq_none.mpr fun route mem holds => own (asked.provider mem holds)
        rw [skipped, Option.none_or]
        cases provider : headers.get "x-gm-provider" with
        | none => rfl
        | some name =>
            have other : (upstream.provider == name) = false :=
              beq_eq_false_iff_ne.mpr fun same => own (by rw [provider, same])
            rw [Option.bind_some, Option.bind_some, List.find?_cons, other]

/-- Routes and slots do not depend on the hosts, so what holds of those of every file without any
holds of them. -/
theorem forall_loadUpstreams {selections : Selections} {hosts : Hosts}
    {P : String → List Route → Option Slots → Prop}
    (closed : ∀ upstream ∈ loadUpstreams selections ⟨"", "", ""⟩,
      P upstream.provider upstream.file.routes upstream.file.slots) :
    ∀ upstream ∈ loadUpstreams selections hosts,
      P upstream.provider upstream.file.routes upstream.file.slots := by
  have same : (loadUpstreams selections hosts).map
        (fun upstream => (upstream.provider, upstream.file.routes, upstream.file.slots)) =
      (loadUpstreams selections ⟨"", "", ""⟩).map
        fun upstream => (upstream.provider, upstream.file.routes, upstream.file.slots) := by
    obtain ⟨anthropic, openai⟩ := selections
    cases anthropic <;> cases openai <;> rfl
  intro upstream mem
  have listed := List.mem_map_of_mem (f := fun upstream : Upstream =>
    (upstream.provider, upstream.file.routes, upstream.file.slots)) mem
  rw [same] at listed
  obtain ⟨alike, alike_mem, parts⟩ := List.mem_map.mp listed
  obtain ⟨provider, routes, slots⟩ : alike.provider = upstream.provider ∧
      alike.file.routes = upstream.file.routes ∧ alike.file.slots = upstream.file.slots := by
    simpa only [Prod.mk.injEq] using parts
  rw [← provider, ← routes, ← slots]
  exact closed alike alike_mem

theorem loadUpstreams_asks {selections : Selections} {hosts : Hosts} :
    ∀ upstream ∈ loadUpstreams selections hosts, upstream.Asks := by
  refine forall_loadUpstreams (P := fun provider routes _ =>
    ∀ route ∈ routes, ("x-gm-provider", StringMatch.exactly provider) ∈ route.on.headers) ?_
  obtain ⟨anthropic, openai⟩ := selections
  cases anthropic <;> cases openai <;> decide

theorem loadUpstreams_apart {selections : Selections} {hosts : Hosts} :
    ((loadUpstreams selections hosts).map Upstream.provider).Nodup := by
  have providers : (loadUpstreams selections hosts).map Upstream.provider =
      ["anthropic", "benchmark", "chutes", "deepinfra", "engy", "gemini", "kubetee", "moonmath",
        "moonshot", "near", "openai", "zai"] := rfl
  rw [providers]
  decide

/-- The upstream of a request. -/
def upstreamOf (selections : Selections) (hosts : Hosts) (headers : Headers) : Option Upstream :=
  (headers.get "x-gm-provider").bind fun provider =>
    (loadUpstreams selections hosts).find? fun upstream => upstream.provider == provider

theorem upstreamOf_eq {selections : Selections} {hosts : Hosts} {headers : Headers}
    {provider : String} {upstream : Upstream} (given : headers.get "x-gm-provider" = some provider)
    (loaded : (loadUpstreams selections hosts).find?
      (fun upstream => upstream.provider == provider) = some upstream) :
    upstreamOf selections hosts headers = some upstream := by
  unfold upstreamOf
  rw [given]
  exact loaded

theorem firstMatch_providerRoutes {selections : Selections} {hosts : Hosts} {headers : Headers} :
    firstMatch (providerRoutes selections hosts) headers =
      (upstreamOf selections hosts headers).bind fun upstream =>
        firstMatch upstream.routes headers :=
  firstMatch_flatMap loadUpstreams_asks loadUpstreams_apart

/-- The attestation's route comes first, then those of the providers. -/
theorem firstMatch_renderedRoutes {selections : Selections} {hosts : Hosts} {headers : Headers} :
    firstMatch (renderedRoutes selections hosts) headers =
      if barePath headers = "/attestation/info" then some attestationRoute
      else (firstMatch (providerRoutes selections hosts) headers).or
        (firstMatch [catchAllRoute] headers) := by
  unfold firstMatch renderedRoutes
  have attestation : attestationRoute.on.holds headers =
      decide (barePath headers = "/attestation/info") := by
    unfold RouteMatch.holds
    exact Bool.and_true _
  rw [List.cons_append, List.find?_cons, attestation, List.find?_append]
  by_cases info : barePath headers = "/attestation/info"
  · rw [if_pos info, decide_eq_true info]
  · rw [if_neg info, decide_eq_false info]

/-- The names that keys are put under. -/
theorem loadUpstreams_authHeader {selections : Selections} {hosts : Hosts} :
    ∀ upstream ∈ loadUpstreams selections hosts, ∀ slots, upstream.file.slots = some slots →
      slots.authHeader.getD "" ∈ "" :: authHeaders := by
  refine forall_loadUpstreams (P := fun _ _ slots =>
    ∀ written : Slots, slots = some written → written.authHeader.getD "" ∈ "" :: authHeaders) ?_
  obtain ⟨anthropic, openai⟩ := selections
  cases anthropic <;> cases openai <;> decide

theorem slotConfigLua_authHeader {selections : Selections} {hosts : Hosts}
    {env : String → Option String} {provider : String} {cfg : SlotConfig}
    (known : slotConfigLua (loadUpstreams selections hosts) env provider = some cfg) :
    cfg.authHeader.getD "" ∈ "" :: authHeaders := by
  obtain ⟨upstream, found, slotted⟩ := Option.bind_eq_some_iff.mp known
  obtain ⟨slots, written, rfl⟩ := Option.map_eq_some_iff.mp slotted
  exact loadUpstreams_authHeader upstream (List.mem_of_find?_eq_some found) slots written

end GmMiner.Envoy
