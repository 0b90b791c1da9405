import GmMiner.Cli.BedrockBindings
import GmMiner.Cli.CloudPolicy
import GmMiner.Cli.Deploy
import GmMiner.Cli.StreamingCheck

/-!
Which probes the streaming self-test sends (`cli/src/commands/streaming_check.rs`), and which of
them carry the execution policy of Bedrock.

The worker is either the oldest live one, with the coverage that the registry reports of it, or one
that was deployed just now, with no coverage. The two are approved in different ways: the first by
every row of its compose hash, the second by every row of both its hashes (`StreamingRight`).
-/

namespace GmMiner.Cli

open GmMiner.Lib GmMiner.Json GmMiner.Envoy

/-! ### What is asked for -/

/-- `SlotStatus`. -/
structure SlotStatus where
  status : Option String
  models : List String
  deriving DecidableEq, Repr

/-- `WorkerEntry`, with all that the self-test reads of it. -/
structure ReportedWorker extends LiveWorker where
  endpoint : String
  supportedModels : List (String × List String)
  providerSlotStatus : List (String × List (String × SlotStatus))

/-- `Product`. -/
structure Product where
  provider : String
  model : String
  status : String
  deriving DecidableEq, Repr

/-- A row of `GET /miners/me`. -/
structure ProductOfferStatus where
  provider : String
  model : String
  isOffered : Bool
  upstreamModel : Option String
  deriving DecidableEq, Repr

structure DeclaredOffer where
  upstreamModel : Option String
  isOffered : Bool
  deriving DecidableEq, Repr

/-- A path without a query. -/
abbrev UrlPath := { path : String // '?' ∉ path.toList }

/-- What the self-test gets to see. -/
structure StreamingWorld where
  lowercase : Lowercase
  derive : DeriveSlotId
  /-- The path of an endpoint's URL up to its last slash, if it is one. -/
  endpointPath : String → Option UrlPath
  /-- `GET /miners/{hotkey}/workers`. -/
  workers : Except Error (List ReportedWorker)
  /-- `fetch_supported_versions`. -/
  versions : Except Error (List ImageVersion)
  /-- `fetch_bedrock_model_bindings`; the revisions are 64 bits wide. -/
  bindings : Option (List BedrockModelBinding)
  revisions : ∀ rows, bindings = some rows → ∀ row ∈ rows, row.revision < 2 ^ 64
  /-- `fetch_catalog`. -/
  catalog : List Product
  /-- The products of `GET /miners/me`, if they could be read. -/
  declared : Option (List ProductOfferStatus)
  /-- `non_chat_probe_exclusions`. -/
  excluded : List (String × String)

/-- `Provider::from_str`. -/
def Provider.fromStr (lowercase : Lowercase) (text : String) : Option Provider :=
  [anthropic, openAi, gemini, chutes, zai, moonshot, deepInfra, kubetee, engy, moonmath,
    near].find? fun provider => provider.asStr == lowercase.lower text

/-! ### The worker -/

/-- The slots are sorted by id. -/
structure ProviderModelCoverage where
  unscoped : List String
  bySlot : List (String × List String)
  deriving DecidableEq, Repr

/-- `StreamingTarget`; its maps by provider are functions. -/
structure WorkerTarget where
  endpoint : String
  nodeSecret : String
  /-- `none` for a worker that was deployed just now. -/
  providerModels : Option (Provider → Option ProviderModelCoverage)
  workerBackends : Provider → Option String
  bedrockPolicyImageCapable : Bool

/-- `HashMap::insert`. -/
def insertAt {V : Type} (provider : Provider) (value : V) (map : Provider → Option V) :
    Provider → Option V :=
  fun other => if other = provider then some value else map other

def backendsFromConfig (lowercase : Lowercase) (backends : List (String × String)) :
    Provider → Option String :=
  backends.foldl (fun map entry =>
    match Provider.fromStr lowercase entry.1 with
    | some provider => insertAt provider entry.2 map
    | none => map) fun _ => none

def ProviderModelCoverage.empty : ProviderModelCoverage := ⟨[], []⟩

/-- The verified slots of a provider, each with its models. -/
def extendSlots (coverage : ProviderModelCoverage) (slots : List (String × SlotStatus)) :
    ProviderModelCoverage :=
  slots.foldl (fun coverage slot =>
    if slot.2.status ≠ some "verified" then coverage
    else
      { coverage with
        bySlot := SortedMap.insert slot.1
          ((coverage.bySlot.lookup slot.1).getD [] ++ slot.2.models) coverage.bySlot }) coverage

def workerProviderModels (lowercase : Lowercase) (worker : ReportedWorker) :
    Provider → Option ProviderModelCoverage :=
  let unscoped : Provider → Option ProviderModelCoverage :=
    worker.supportedModels.foldl (fun map entry =>
      match Provider.fromStr lowercase entry.1 with
      | none => map
      | some provider =>
          let coverage := (map provider).getD .empty
          insertAt provider { coverage with unscoped := coverage.unscoped ++ entry.2 } map)
      fun _ => none
  worker.providerSlotStatus.foldl (fun map entry =>
    match Provider.fromStr lowercase entry.1 with
    | none => map
    | some provider =>
        insertAt provider (extendSlots ((map provider).getD .empty) entry.2) map) unscoped

def validateLocalWorker (worker : WorkerRecord) : Except Error Unit := do
  ensure (!(trim worker.workerId.toList).isEmpty)
    ["the tracked worker '" ++ worker.appName ++ "' is not registered yet; rerun `gmcli deploy`"]
  ensure (!(trim worker.nodeSecret.toList).isEmpty)
    ["the tracked worker '" ++ worker.appName ++
      "' has no node secret; redeploy it with `gmcli deploy`"]

def pickTargetWorker (lowercase : Lowercase) (local_ : List WorkerRecord)
    (live : List ReportedWorker) : Except Error WorkerTarget := do
  let workerId ← required (firstLiveWorkerId (live.map fun worker => worker.toWorkerEntry))
    ["registry lists no live worker; run `gmcli deploy` first"]
  let worker ← required (live.find? fun worker => worker.workerId == workerId)
    ["internal error: live worker " ++ workerId ++ " vanished"]
  let record ← required (local_.find? fun worker => worker.workerId == workerId)
    ["registry's live worker " ++ workerId ++ " has no matching local record; run " ++
      "`gmcli worker list` and redeploy if the local record is stale"]
  validateLocalWorker record
  return {
    endpoint := worker.endpoint
    nodeSecret := record.nodeSecret
    providerModels := some (workerProviderModels lowercase worker)
    workerBackends := (record.backends.map (backendsFromConfig lowercase)).getD fun _ => none
    bedrockPolicyImageCapable := false }

def imageHasBedrockPolicyFeature (lowercase : Lowercase) (imageComposeHash : Option String)
    (versions : List ImageVersion) : Bool :=
  match imageComposeHash with
  | none => false
  | some imageComposeHash =>
      let hash := lowercase.normalizeHash imageComposeHash
      if !isSha256Hex hash then false
      else
        let matching := versions.filter fun version =>
          lowercase.normalizeHash version.composeHash == hash
        !matching.isEmpty && matching.all fun version =>
          version.status == "supported" &&
            isSha256Hex (lowercase.normalizeHash version.composeHash) &&
            version.bedrockMantleModelBindingsCapable

/-- The measured hash of the oldest live worker. -/
def currentComposeHash (live : List ReportedWorker) : Option String := do
  let workerId ← firstLiveWorkerId (live.map fun worker => worker.toWorkerEntry)
  let worker ← live.find? fun worker => worker.workerId == workerId
  worker.imageComposeHash

def StreamingWorld.resolvePrimaryWorker (world : StreamingWorld) (cfg : Config) :
    Except Error WorkerTarget := do
  let local_ := (cfg.activeNetworkEntry.map NetworkEntry.workers).getD []
  ensure (!local_.isEmpty)
    ["no deployed worker is tracked for " ++ cfg.resolvedNetwork.asStr ++
      "; run `gmcli deploy` first"]
  let live ← world.workers
  let target ← pickTargetWorker world.lowercase local_ live
  if target.workerBackends .anthropic = some "bedrock" then
    match currentComposeHash live, world.versions with
    | some hash, .ok versions =>
        return { target with
          bedrockPolicyImageCapable :=
            imageHasBedrockPolicyFeature world.lowercase (some hash) versions }
    | _, _ => return target
  else return target

/-! ### Models -/

structure SelectedProbeModel where
  model : ProbeModel
  slot : Option String
  deriving DecidableEq, Repr

def bedrockProbeModels (bindings : List BedrockModelBinding) (activeProducts : List String) :
    List ProbeModel :=
  (bindings.filter fun binding => activeProducts.contains binding.model).map fun binding =>
    { canonical := binding.model
      upstream := none
      fallback := false
      bindingRevision := some (UInt64.ofNat binding.revision) }

def sourcingProviders : List Provider := [.deepInfra, .engy, .kubetee, .moonmath, .near]

/-- `str::cmp` of two names, as a test. -/
def byName (name : Provider) (other : Provider) : Bool := decide (name.asStr ≤ other.asStr)

def providersForTarget (configured : List Provider) (target : WorkerTarget) : List Provider :=
  match target.providerModels with
  | none => configured
  | some providers =>
      (Provider.all.filter fun provider => (providers provider).isSome).mergeSort byName

def bindModelsToWorker (target : WorkerTarget) (provider : Provider) (models : List ProbeModel) :
    List ProbeModel :=
  match target.workerBackends provider with
  | none => models.map fun model => { model with upstream := none, bindingRevision := none }
  | some backend =>
      if backend = "direct" then
        models.map fun model => { model with upstream := none, bindingRevision := none }
      else if backend = "bedrock" then
        models.filterMap fun model =>
          if provider ≠ .anthropic || model.bindingRevision.isNone || model.fallback then none
          else some { model with upstream := none }
      else []

/-- The slots that serve a model: by its canonical id, or by the one on the wire. -/
def slotsFor (coverage : ProviderModelCoverage) (model : ProbeModel) : List String :=
  (coverage.bySlot.filter fun entry =>
    entry.2.contains model.canonical || entry.2.contains model.wireModel).map Prod.fst

def modelsForTarget (target : WorkerTarget) (provider : Provider) (models : List ProbeModel) :
    Option (List SelectedProbeModel) :=
  let models := bindModelsToWorker target provider models
  if models.isEmpty && (target.workerBackends provider).isSome then some []
  else
    match target.providerModels.bind fun providers => providers provider with
    | none =>
        let models :=
          if target.providerModels.isNone && !sourcingProviders.contains provider then
            models.take 1
          else models
        some (models.map fun model => ⟨model, none⟩)
    | some coverage =>
        -- A union of all slots does not say which credential serves a model.
        if !coverage.bySlot.isEmpty && coverage.bySlot.all fun entry => entry.2.isEmpty then none
        else if coverage.unscoped.isEmpty && coverage.bySlot.isEmpty then none
        else some (models.flatMap fun model =>
          let slots := slotsFor coverage model
          if slots.isEmpty && coverage.bySlot.isEmpty then
            if coverage.unscoped.contains model.canonical ||
                coverage.unscoped.contains model.wireModel then [⟨model, none⟩]
            else []
          else slots.map fun slot => ⟨model, some slot⟩)

/-- `ProbeModels`. -/
abbrev ProbeModels := Provider → Option (List ProbeModel)

def fallbackModel : Provider → String
  | .anthropic => "claude-sonnet-4-6"
  | .openAi => "gpt-5.5"
  | .gemini => "gemini-2.5-pro"
  | .chutes => "deepseek-ai/DeepSeek-V3-0324"
  | .zai | .engy | .moonmath => "glm-5.2"
  | .moonshot => "kimi-k3"
  | .deepInfra => "zai-org/GLM-5.2"
  | .kubetee => "z-ai/glm-5.2"
  | .near => "Qwen/Qwen3.8-27B"
  | .benchmark => "benchmark"

def modelsFor (models : ProbeModels) (provider : Provider) : List ProbeModel :=
  match models provider with
  | some (model :: rest) => model :: rest
  | _ => [⟨fallbackModel provider, none, true, none⟩]

/-- The active canonical models of a provider, if there are any. -/
def canonicalModels (catalog : List Product) (providers : List Provider) (provider : Provider) :
    Option (List String) :=
  let models := (catalog.filter fun product =>
    product.provider == provider.asStr && product.status == "active").map Product.model
  if providers.contains provider && !models.isEmpty then some models else none

/-- The offers of `fetch_declared_offers`; a later row replaces an earlier one. -/
def declaredOffers (lowercase : Lowercase) (products : List ProductOfferStatus) :
    List ((Provider × String) × DeclaredOffer) :=
  products.foldl (fun offers row =>
    match Provider.fromStr lowercase row.provider with
    | none => offers
    | some provider =>
        ((provider, row.model), ⟨row.upstreamModel, row.isOffered⟩) ::
          offers.filter fun entry => entry.1 != (provider, row.model)) []

def declaredModelsForProvider (declared : List ((Provider × String) × DeclaredOffer))
    (provider : Provider) : List ProbeModel :=
  ((declared.filter fun entry => entry.1.1 == provider && entry.2.isOffered).mergeSort
      fun entry other => decide (entry.1.2 ≤ other.1.2)).map fun entry =>
    ⟨entry.1.2, entry.2.upstreamModel, false, none⟩

def resolveProbeModels (providers : List Provider) (canonical : Provider → Option (List String))
    (declared : List ((Provider × String) × DeclaredOffer)) : ProbeModels := fun provider =>
  if !providers.contains provider then none
  else if sourcingProviders.contains provider then
    let models := declaredModelsForProvider declared provider
    if models.isEmpty then none else some models
  else
    (canonical provider).map fun models => models.map fun model =>
      { canonical := model
        upstream := ((declared.lookup (provider, model)).filter DeclaredOffer.isOffered).bind
          DeclaredOffer.upstreamModel
        fallback := false
        bindingRevision := none }

/-! ### The route of a probe -/

def exactCanonicalNoReplayPolicy : String := "exact-canonical-no-replay-v1"

structure ProbeRouteAuthorization where
  slot : Option String
  executionPolicy : Option String
  modelBindingRevision : Option UInt64
  deriving DecidableEq, Repr

/-- The slot of a worker that the registry covers. -/
def verifiedSlot (providers : Provider → Option ProviderModelCoverage) (provider : Provider)
    (selected : SelectedProbeModel) : Option String := do
  let slot ← selected.slot
  let coverage ← providers provider
  let models ← coverage.bySlot.lookup slot
  if models.contains selected.model.canonical then some slot else none

/-- The slot of a worker that was deployed just now. -/
def StreamingWorld.derivedSlot (world : StreamingWorld) (cfg : Config) (target : WorkerTarget) :
    Option String := do
  let keys ← cfg.providerKeys
  if keys.anthropicUpstream ≠ some "bedrock" || keys.bedrockRegion ≠ some "us-east-1" then none
  else
    let key ← keys.bedrockApiKey
    if (trim key.toList).isEmpty then none
    else
      match parseKeySlots world.derive "anthropic" key.toList target.nodeSecret with
      | .ok [slot] => some slot.id
      | _ => none

/-- The slot of a policy probe. -/
def StreamingWorld.policySlot (world : StreamingWorld) (cfg : Config) (target : WorkerTarget)
    (provider : Provider) (selected : SelectedProbeModel) : Option String :=
  match target.providerModels with
  | some providers => verifiedSlot providers provider selected
  | none => world.derivedSlot cfg target

def StreamingWorld.probeRouteAuthorization (world : StreamingWorld) (cfg : Config)
    (target : WorkerTarget) (provider : Provider) (selected : SelectedProbeModel) :
    Option ProbeRouteAuthorization :=
  let isBedrock := provider = .anthropic ∧ target.workerBackends provider = some "bedrock"
  if ¬ isBedrock then some ⟨selected.slot, none, none⟩
  else if !target.bedrockPolicyImageCapable || selected.model.fallback ||
      selected.model.bindingRevision.isNone ||
      selected.model.wireModel != selected.model.canonical then none
  else do
    let slot ← world.policySlot cfg target provider selected
    return ⟨some slot, some exactCanonicalNoReplayPolicy, selected.model.bindingRevision⟩

/-! ### The run -/

/-- A probe, and the request that it is sent with. -/
structure SentProbe where
  probe : ProviderProbe
  headers : Headers

/-- `run_provider_probe`, up to its request. -/
def StreamingWorld.runProviderProbe (world : StreamingWorld) (target : WorkerTarget)
    (probe : ProviderProbe) : Option SentProbe := do
  let path ← world.endpointPath target.endpoint
  match probeRequest ⟨path.1, target.nodeSecret, path.2⟩ probe with
  | .ok headers => return ⟨probe, headers⟩
  | .error _ => none

/-- The probes of `check_provider_streaming`. -/
def StreamingWorld.checkProviderStreaming (world : StreamingWorld) (cfg : Config)
    (target : WorkerTarget) (provider : Provider) (catalog : ProbeModels) : List SentProbe :=
  match modelsForTarget target provider (modelsFor catalog provider) with
  | none => []
  | some models =>
      if models.isEmpty then []
      else if provider = .anthropic ∧ target.workerBackends provider = some "bedrock" ∧
          target.bedrockPolicyImageCapable = false then []
      else models.filterMap fun selected =>
        if world.excluded.contains (provider.asStr, selected.model.canonical) then none
        else do
          let route ← world.probeRouteAuthorization cfg target provider selected
          world.runProviderProbe target (authorizedProbe provider selected.model route.slot
            route.executionPolicy route.modelBindingRevision)

def configuredProviders (keys : Option ProviderKeys) : Except Error (List Provider) :=
  match keys with
  | none => .ok []
  | some keys => do
      keys.validateUpstreams
      let anthropicUpstream := keys.anthropicUpstream.getD "direct"
      let openaiUpstream := keys.openaiUpstream.getD "direct"
      let configured : List (Provider × Bool) := [
        (.anthropic, (anthropicUpstream == "direct" && nonEmpty keys.anthropic) ||
          (anthropicUpstream == "bedrock" && nonEmpty keys.bedrockApiKey) ||
          (anthropicUpstream == "foundry" && nonEmpty keys.azureFoundryApiKey)),
        (.openAi, (openaiUpstream == "direct" && nonEmpty keys.openai) ||
          (openaiUpstream == "azure" && nonEmpty keys.azureOpenaiApiKey)),
        (.gemini, nonEmpty keys.google),
        (.chutes, nonEmpty keys.chutes),
        (.zai, nonEmpty keys.zai),
        (.moonshot, nonEmpty keys.moonshot),
        (.deepInfra, nonEmpty keys.deepinfra),
        (.kubetee, nonEmpty keys.kubetee),
        (.engy, nonEmpty keys.engy),
        (.moonmath, nonEmpty keys.moonmath),
        (.near, nonEmpty keys.near)]
      return (configured.filter Prod.snd).map Prod.fst

/-- The models to probe, those of a Bedrock worker from the registry's snapshot alone. -/
def StreamingWorld.modelCatalog (world : StreamingWorld) (target : WorkerTarget)
    (providers : List Provider) : ProbeModels :=
  let canonical := canonicalModels world.catalog providers
  let resolved := resolveProbeModels providers canonical
    ((world.declared.map (declaredOffers world.lowercase)).getD [])
  if target.workerBackends .anthropic = some "bedrock" then
    match world.bindings with
    | some bindings =>
        insertAt .anthropic (bedrockProbeModels bindings ((canonical .anthropic).getD [])) resolved
    | none => insertAt .anthropic [] resolved
  else resolved

def StreamingWorld.runStreamingChecks (world : StreamingWorld) (cfg : Config)
    (target : WorkerTarget) : List SentProbe :=
  match if target.providerModels.isNone then configuredProviders cfg.providerKeys else .ok [] with
  | .error _ => []
  | .ok configured =>
      let providers := providersForTarget configured target
      providers.flatMap fun provider =>
        world.checkProviderStreaming cfg target provider (world.modelCatalog target providers)

/-- The probes of `cmd_check_streaming`. -/
def StreamingWorld.cmdCheckStreaming (world : StreamingWorld) (cfg : Config) :
    Except Error (List SentProbe) := do
  let target ← world.resolvePrimaryWorker cfg
  return world.runStreamingChecks cfg target

/-- The worker that a deploy has set up. -/
def deployedTarget (lowercase : Lowercase) (cfg : Config) (endpoint nodeSecret : String)
    (bedrockPolicyImageCapable : Bool) : WorkerTarget where
  endpoint
  nodeSecret
  providerModels := none
  workerBackends := (cfg.providerKeys.map fun keys =>
    backendsFromConfig lowercase keys.workerBackends).getD fun _ => none
  bedrockPolicyImageCapable

/-- The probes of `deploy_streaming_advisory`. -/
def StreamingWorld.deployStreamingAdvisory (world : StreamingWorld) (cfg : Config)
    (endpoint nodeSecret : String) (bedrockPolicyImageCapable : Bool) : List SentProbe :=
  world.runStreamingChecks cfg
    (deployedTarget world.lowercase cfg endpoint nodeSecret bedrockPolicyImageCapable)

/-! ### What is right for a probe -/

/-- The registry lists rows, and has approved each of them for the execution policy. -/
def Approved (rows : List ImageVersion) : Prop :=
  rows ≠ [] ∧ ∀ row ∈ rows, row.status = "supported" ∧ row.bedrockMantleModelBindingsCapable = true

def rowsOfHash (lowercase : Lowercase) (versions : List ImageVersion) (hash : String) :
    List ImageVersion :=
  versions.filter fun version =>
    lowercase.normalizeHash version.composeHash == lowercase.normalizeHash hash

def rowsOfHashes (lowercase : Lowercase) (versions : List ImageVersion)
    (approved : ImageVersion) : List ImageVersion :=
  versions.filter fun version =>
    lowercase.normalizeHash version.composeHash == lowercase.normalizeHash approved.composeHash &&
      lowercase.normalizeHash version.osImageHash == lowercase.normalizeHash approved.osImageHash

/-- The registry reports that a slot of the worker is verified for a model. -/
def ReportedWorker.Verifies (worker : ReportedWorker) (lowercase : Lowercase)
    (provider : Provider) (slot model : String) : Prop :=
  ∃ slots, ∃ raw, (raw, slots) ∈ worker.providerSlotStatus ∧
    Provider.fromStr lowercase raw = some provider ∧
    ∃ status, (slot, status) ∈ slots ∧ status.status = some "verified" ∧ model ∈ status.models

/-- The one slot of the Bedrock key that is configured. -/
def StreamingWorld.Derives (world : StreamingWorld) (cfg : Config) (nodeSecret slot : String) :
    Prop :=
  ∃ keys key derived, cfg.providerKeys = some keys ∧ keys.bedrockApiKey = some key ∧
    parseKeySlots world.derive "anthropic" key.toList nodeSecret = .ok [derived] ∧
    derived.id = slot

/-- A probe under the execution policy: for a row of the snapshot that is an active product, with
the row's revision, and a slot that serves the row's model. -/
structure PolicyProbe (world : StreamingWorld) (serves : String → String → Prop)
    (row : BedrockModelBinding) (slot : String) (sent : SentProbe) : Prop where
  listed : ∃ rows, world.bindings = some rows ∧ row ∈ rows
  active : ∃ product ∈ world.catalog,
    product.provider = "anthropic" ∧ product.status = "active" ∧ product.model = row.model
  provider : sent.probe.provider = .anthropic
  notFallback : sent.probe.fallback = false
  wire : sent.probe.body.get "model" = some (.string row.model)
  executionPolicy : sent.headers.values "x-gm-execution-policy" = [exactCanonicalNoReplayPolicy]
  revision : sent.headers.values "x-gm-model-binding-revision" = [Nat.repr row.revision]
  sentSlot : sent.headers.values "x-gm-upstream-slot" = [slot]
  served : serves slot row.model

/-- A probe of a worker whose image is approved or not, and whose slots serve some models. -/
structure ProbeRight (world : StreamingWorld) (target : WorkerTarget) (approved : Prop)
    (serves : String → String → Prop) (sent : SentProbe) : Prop where
  known : ∀ backend, target.workerBackends sent.probe.provider = some backend →
    backend = "direct" ∨ backend = "bedrock"
  policy : target.workerBackends sent.probe.provider = some "bedrock" →
    approved ∧ ∃ row slot, PolicyProbe world serves row slot sent
  plain : target.workerBackends sent.probe.provider ≠ some "bedrock" →
    sent.headers.values "x-gm-execution-policy" = [] ∧
      sent.headers.values "x-gm-model-binding-revision" = []

/-! ### Models and slots -/

section Models

variable {target : WorkerTarget} {provider : Provider} {models : List ProbeModel}

/-- A model chosen is one the worker offers. -/
theorem mem_modelsForTarget {selected : SelectedProbeModel} {chosen : List SelectedProbeModel}
    (made : modelsForTarget target provider models = some chosen) (mem : selected ∈ chosen) :
    selected.model ∈ bindModelsToWorker target provider models := by
  unfold modelsForTarget at made
  dsimp only at made
  split at made
  · cases made
    cases mem
  · split at made
    · cases made
      obtain ⟨model, inside, rfl⟩ := List.mem_map.mp mem
      split at inside
      · exact List.mem_of_mem_take inside
      · exact inside
    · split at made
      · cases made
      · split at made
        · cases made
        · cases made
          obtain ⟨model, inside, selects⟩ := List.mem_flatMap.mp mem
          have same : selected.model = model := by
            split at selects
            · split at selects
              · rw [List.mem_singleton.mp selects]
              · cases selects
            · obtain ⟨slot, -, rfl⟩ := List.mem_map.mp selects
              rfl
          rwa [same]

/-- A worker with a backend of its own gets probes of known models, or none. -/
theorem mem_bindModelsToWorker {model : ProbeModel} {backend : String}
    (held : target.workerBackends provider = some backend)
    (mem : model ∈ bindModelsToWorker target provider models) :
    backend = "direct" ∨ backend = "bedrock" ∧ provider = .anthropic ∧
      ∃ row ∈ models, row.fallback = false ∧ row.bindingRevision.isSome ∧
        model = { row with upstream := none } := by
  unfold bindModelsToWorker at mem
  rw [held] at mem
  dsimp only at mem
  split at mem
  · rename_i direct
    exact .inl direct
  · split at mem
    · rename_i bedrock
      obtain ⟨row, inside, kept⟩ := List.mem_filterMap.mp mem
      split at kept
      · cases kept
      · rename_i admitted
        simp only [Bool.or_eq_true, decide_eq_true_eq, not_or, Bool.not_eq_true,
          Option.isNone_eq_false_iff, not_not] at admitted
        exact .inr ⟨bedrock, admitted.1.1, row, inside, admitted.2, admitted.1.2,
          (Option.some.inj kept).symm⟩
    · cases mem

/-- A known model is of the catalog. -/
theorem mem_modelsFor {catalog : ProbeModels} {model : ProbeModel}
    (mem : model ∈ modelsFor catalog provider) (known : model.fallback = false) :
    ∃ models, catalog provider = some models ∧ model ∈ models := by
  unfold modelsFor at mem
  split at mem
  · rename_i first rest held
    exact ⟨_, held, mem⟩
  · rw [List.mem_singleton.mp mem] at known
    cases known

/-- A canonical model is an active product's. -/
theorem mem_canonicalModels {catalog : List Product} {providers : List Provider} {model : String}
    (mem : model ∈ (canonicalModels catalog providers provider).getD []) :
    ∃ product ∈ catalog, product.provider = provider.asStr ∧ product.status = "active" ∧
      product.model = model := by
  unfold canonicalModels at mem
  dsimp only at mem
  split at mem
  · obtain ⟨product, listed, same⟩ := List.mem_map.mp mem
    rw [List.mem_filter, Bool.and_eq_true, beq_iff_eq, beq_iff_eq] at listed
    exact ⟨product, listed.1, listed.2.1, listed.2.2, same⟩
  · cases mem

/-- The models that a Bedrock worker is probed for are rows of the snapshot. -/
theorem mem_modelCatalog {world : StreamingWorld} {providers : List Provider} {model : ProbeModel}
    (bedrock : target.workerBackends .anthropic = some "bedrock")
    (mem : model ∈ modelsFor (world.modelCatalog target providers) .anthropic)
    (known : model.fallback = false) :
    ∃ rows row, world.bindings = some rows ∧ row ∈ rows ∧
      (∃ product ∈ world.catalog, product.provider = "anthropic" ∧ product.status = "active" ∧
        product.model = row.model) ∧
      model = ⟨row.model, none, false, some (UInt64.ofNat row.revision)⟩ := by
  obtain ⟨models, held, inside⟩ := mem_modelsFor mem known
  unfold StreamingWorld.modelCatalog at held
  rw [if_pos bedrock] at held
  cases read : world.bindings with
  | some rows =>
      rw [read] at held
      change insertAt _ _ _ _ = _ at held
      rw [insertAt, if_pos rfl, Option.some.injEq] at held
      rw [← held, bedrockProbeModels] at inside
      obtain ⟨row, listed, rfl⟩ := List.mem_map.mp inside
      rw [List.mem_filter, List.contains_iff_mem] at listed
      exact ⟨rows, row, rfl, listed.1, mem_canonicalModels listed.2, rfl⟩
  | none =>
      rw [read] at held
      change insertAt _ _ _ _ = _ at held
      rw [insertAt, if_pos rfl, Option.some.injEq] at held
      rw [← held] at inside
      cases inside

end Models

/-! ### Probes -/

section Probes

variable {world : StreamingWorld} {cfg : Config} {target : WorkerTarget} {provider : Provider}
  {sent : SentProbe}

theorem authorizedProbe_model {model : ProbeModel} {slot policy : Option String}
    {revision : Option UInt64} :
    (authorizedProbe provider model slot policy revision).fallback = model.fallback ∧
      (authorizedProbe provider model slot policy revision).body = probeBody model := by
  cases provider <;> exact ⟨rfl, rfl⟩

/-- How a probe comes to be sent. -/
theorem mem_checkProviderStreaming {catalog : ProbeModels}
    (mem : sent ∈ world.checkProviderStreaming cfg target provider catalog) :
    ∃ selected route path,
      selected.model ∈ bindModelsToWorker target provider (modelsFor catalog provider) ∧
      world.probeRouteAuthorization cfg target provider selected = some route ∧
      sent.probe = authorizedProbe provider selected.model route.slot route.executionPolicy
        route.modelBindingRevision ∧
      probeRequest path sent.probe = .ok sent.headers := by
  unfold StreamingWorld.checkProviderStreaming at mem
  split at mem
  · cases mem
  · rename_i chosen made
    split at mem
    · cases mem
    · split at mem
      · cases mem
      · obtain ⟨selected, inside, kept⟩ := List.mem_filterMap.mp mem
        split at kept
        · cases kept
        · obtain ⟨route, authorized, run⟩ := Option.bind_eq_some_iff.mp kept
          obtain ⟨path, -, run⟩ := Option.bind_eq_some_iff.mp run
          split at run
          · rename_i headers request
            cases run
            exact ⟨selected, route, _, mem_modelsForTarget made inside, authorized, rfl, request⟩
          · cases run

/-- The slot of a policy probe, by what is known of the worker. -/
def StreamingWorld.OwnSlot (world : StreamingWorld) (cfg : Config) (target : WorkerTarget)
    (slot model : String) : Prop :=
  match target.providerModels with
  | some providers => ∃ coverage models, providers .anthropic = some coverage ∧
      coverage.bySlot.lookup slot = some models ∧ model ∈ models
  | none => world.Derives cfg target.nodeSecret slot

/-- The slot is derived from a key of the config. -/
theorem derivedSlot_eq_some {slot : String} (derived : world.derivedSlot cfg target = some slot) :
    world.Derives cfg target.nodeSecret slot := by
  obtain ⟨keys, configured, derived⟩ := Option.bind_eq_some_iff.mp derived
  split at derived
  · cases derived
  · obtain ⟨key, set, derived⟩ := Option.bind_eq_some_iff.mp derived
    split at derived
    · cases derived
    · split at derived
      · rename_i only parsed
        cases derived
        exact ⟨keys, key, only, configured, set, parsed, rfl⟩
      · cases derived

/-- A verified slot is one the registry verified for the model. -/
theorem verifiedSlot_eq_some {providers : Provider → Option ProviderModelCoverage}
    {selected : SelectedProbeModel} {slot : String}
    (verified : verifiedSlot providers provider selected = some slot) :
    ∃ coverage models, providers provider = some coverage ∧
      coverage.bySlot.lookup slot = some models ∧ selected.model.canonical ∈ models := by
  obtain ⟨own, -, verified⟩ := Option.bind_eq_some_iff.mp verified
  obtain ⟨coverage, covered, verified⟩ := Option.bind_eq_some_iff.mp verified
  obtain ⟨models, reported, verified⟩ := Option.bind_eq_some_iff.mp verified
  split at verified
  · rename_i serves
    cases verified
    exact ⟨coverage, models, covered, reported, List.contains_iff_mem.mp serves⟩
  · cases verified

/-- A route under the execution policy. -/
theorem probeRouteAuthorization_bedrock {selected : SelectedProbeModel}
    {route : ProbeRouteAuthorization}
    (bedrock : target.workerBackends .anthropic = some "bedrock")
    (authorized : world.probeRouteAuthorization cfg target .anthropic selected = some route) :
    target.bedrockPolicyImageCapable = true ∧ selected.model.fallback = false ∧
      ∃ slot, route = ⟨some slot, some exactCanonicalNoReplayPolicy,
        selected.model.bindingRevision⟩ ∧
      world.OwnSlot cfg target slot selected.model.canonical := by
  unfold StreamingWorld.probeRouteAuthorization at authorized
  dsimp only at authorized
  rw [if_neg (not_not_intro ⟨rfl, bedrock⟩)] at authorized
  split at authorized
  · cases authorized
  · rename_i admitted
    simp only [Bool.or_eq_true, Bool.not_eq_true', not_or, Bool.not_eq_false,
      Bool.not_eq_true] at admitted
    refine ⟨admitted.1.1.1, admitted.1.1.2, ?_⟩
    obtain ⟨slot, own, same⟩ := Option.bind_eq_some_iff.mp authorized
    refine ⟨slot, (Option.some.inj same).symm, ?_⟩
    unfold StreamingWorld.policySlot at own
    unfold StreamingWorld.OwnSlot
    split at own
    · exact verifiedSlot_eq_some own
    · exact derivedSlot_eq_some own

/-- A route without it. -/
theorem probeRouteAuthorization_plain {selected : SelectedProbeModel}
    {route : ProbeRouteAuthorization}
    (other : ¬ (provider = .anthropic ∧ target.workerBackends provider = some "bedrock"))
    (authorized : world.probeRouteAuthorization cfg target provider selected = some route) :
    route = ⟨selected.slot, none, none⟩ := by
  unfold StreamingWorld.probeRouteAuthorization at authorized
  dsimp only at authorized
  rw [if_pos other, Option.some.injEq] at authorized
  exact authorized.symm

/-- Every probe of a run is right by what the run knows of the worker. -/
theorem probeRight_of_sent (mem : sent ∈ world.runStreamingChecks cfg target) :
    ProbeRight world target (target.bedrockPolicyImageCapable = true)
      (world.OwnSlot cfg target) sent := by
  unfold StreamingWorld.runStreamingChecks at mem
  split at mem
  · cases mem
  · obtain ⟨provider, -, mem⟩ := List.mem_flatMap.mp mem
    obtain ⟨selected, route, path, bound, authorized, made, request⟩ :=
      mem_checkProviderStreaming mem
    have isProvider : sent.probe.provider = provider := by rw [made, authorizedProbe_provider]
    rw [made] at request
    obtain ⟨slot, policy, revision⟩ := probeRequest_policy request
    refine ⟨?_, ?_, ?_⟩
    · intro backend held
      rw [isProvider] at held
      exact (mem_bindModelsToWorker held bound).imp_right And.left
    · intro held
      rw [isProvider] at held
      obtain direct | ⟨-, rfl, row, probed, notFallback, -, stripped⟩ :=
        mem_bindModelsToWorker held bound
      · exact absurd direct (by decide)
      obtain ⟨capable, -, own, rfl, serves⟩ := probeRouteAuthorization_bedrock held authorized
      obtain ⟨rows, binding, read, listed, active, rfl⟩ := mem_modelCatalog held probed notFallback
      refine ⟨capable, binding, own, ⟨rows, read, listed⟩, active, isProvider, ?_, ?_, policy, ?_,
        slot, ?_⟩
      · rw [made, authorizedProbe_model.1, stripped]
      · rw [made, authorizedProbe_model.2, stripped]
        rfl
      · have fits : (UInt64.ofNat binding.revision).toNat = binding.revision :=
          UInt64.toNat_ofNat_of_lt' (world.revisions rows read binding listed)
        rw [revision, stripped]
        change [Nat.repr (UInt64.ofNat binding.revision).toNat] = _
        rw [fits]
      · rwa [stripped] at serves
    · intro other
      rw [isProvider] at other
      rw [probeRouteAuthorization_plain (fun both => other both.2) authorized] at policy revision
      exact ⟨policy, revision⟩

end Probes

/-! ### The oldest live worker -/

section Reported

variable {lowercase : Lowercase} {provider : Provider}

/-- Each slot of a coverage serves the models it is listed with. -/
def ProviderModelCoverage.Backed (coverage : ProviderModelCoverage)
    (serves : String → String → Prop) : Prop :=
  ∀ slot models, coverage.bySlot.lookup slot = some models → ∀ model ∈ models, serves slot model

/-- Slots added are backed by what the registry verified. -/
theorem backed_extendSlots {coverage : ProviderModelCoverage}
    {slots : List (String × SlotStatus)} {serves : String → String → Prop}
    (backed : coverage.Backed serves)
    (own : ∀ entry ∈ slots, entry.2.status = some "verified" →
      ∀ model ∈ entry.2.models, serves entry.1 model) :
    (extendSlots coverage slots).Backed serves := by
  unfold extendSlots
  refine List.foldlRecOn (motive := fun made => ProviderModelCoverage.Backed made serves) slots _ backed
    fun coverage backed entry mem => ?_
  split
  · exact backed
  · rename_i verified
    intro slot models found model inside
    rw [SortedMap.lookup_insert] at found
    split at found
    · rename_i here
      subst here
      rw [← Option.some.inj found] at inside
      rcases List.mem_append.mp inside with before | added
      · cases held : coverage.bySlot.lookup entry.1 with
        | none =>
            rw [held] at before
            cases before
        | some models =>
            rw [held] at before
            exact backed _ models held model before
      · exact own entry mem (not_not.mp verified) model added
    · exact backed slot models found model inside

/-- A coverage that a map holds of a provider, or else the empty one. -/
theorem backed_getD {map : Provider → Option ProviderModelCoverage}
    {serves : String → String → Prop}
    (backed : ∀ coverage, map provider = some coverage → coverage.Backed serves) :
    ((map provider).getD .empty).Backed serves := by
  cases held : map provider with
  | none => intro slot models found; cases found
  | some coverage => exact backed coverage held

/-- What the registry reports is all that a worker's coverage says of its slots. -/
theorem workerProviderModels_backed {worker : ReportedWorker} {coverage : ProviderModelCoverage}
    (covered : workerProviderModels lowercase worker provider = some coverage) :
    coverage.Backed (worker.Verifies lowercase provider) := by
  let sound (map : Provider → Option ProviderModelCoverage) : Prop :=
    ∀ provider coverage, map provider = some coverage →
      coverage.Backed (worker.Verifies lowercase provider)
  have inserted : ∀ map (own : Provider) (made : ProviderModelCoverage), sound map →
      made.Backed (worker.Verifies lowercase own) → sound (insertAt own made map) := by
    intro map own made old backed provider coverage held
    unfold insertAt at held
    split at held
    · rename_i here
      rw [here, ← Option.some.inj held]
      exact backed
    · exact old provider coverage held
  refine List.foldlRecOn (motive := sound) worker.providerSlotStatus _ ?_ ?_ provider coverage
    covered
  · refine List.foldlRecOn (motive := sound) worker.supportedModels _ (fun _ _ held => ?_) ?_
    · cases held
    · intro map old entry _
      split
      · exact old
      · exact inserted _ _ _ old (backed_getD (old _))
  · intro map old entry mem
    split
    · exact old
    · rename_i own named
      refine inserted _ _ _ old (backed_extendSlots (backed_getD (old _)) ?_)
      intro slot listed verified model serves
      exact ⟨entry.2, entry.1, mem, named, slot.2, listed, verified, serves⟩

/-- An image with the feature is an approved one. -/
theorem approved_of_feature {hash : String} {versions : List ImageVersion}
    (capable : imageHasBedrockPolicyFeature lowercase (some hash) versions = true) :
    Approved (rowsOfHash lowercase versions hash) := by
  unfold imageHasBedrockPolicyFeature at capable
  dsimp only at capable
  split at capable
  · cases capable
  · rw [Bool.and_eq_true, Bool.not_eq_true', List.isEmpty_eq_false_iff, List.all_eq_true] at capable
    refine ⟨capable.1, fun row listed => ?_⟩
    have each := capable.2 row listed
    simp only [Bool.and_eq_true, beq_iff_eq] at each
    exact ⟨each.1.1, each.2⟩

variable {world : StreamingWorld} {cfg : Config} {target : WorkerTarget}

/-- The worker that `gmcli check-streaming` probes, and what its image was approved by. -/
structure PrimaryWorker (world : StreamingWorld) (target : WorkerTarget)
    (live : List ReportedWorker) (worker : ReportedWorker) : Prop where
  listed : world.workers = .ok live ∧ worker ∈ live
  oldest : firstLiveWorkerId (live.map fun worker => worker.toWorkerEntry) = some worker.workerId
  coverage : target.providerModels = some (workerProviderModels world.lowercase worker)
  approved : target.bedrockPolicyImageCapable = true →
    ∃ versions hash, world.versions = .ok versions ∧ worker.imageComposeHash = some hash ∧
      Approved (rowsOfHash world.lowercase versions hash)

/-- The worker picked is the first live one. -/
theorem pickTargetWorker_ok {records : List WorkerRecord} {live : List ReportedWorker}
    (picked : pickTargetWorker lowercase records live = .ok target) :
    ∃ worker, live.find? (fun other => other.workerId == worker.workerId) = some worker ∧
      firstLiveWorkerId (live.map fun worker => worker.toWorkerEntry) = some worker.workerId ∧
      target.providerModels = some (workerProviderModels lowercase worker) ∧
      target.bedrockPolicyImageCapable = false := by
  obtain ⟨workerId, oldest, picked⟩ := bind_eq_ok.mp picked
  obtain ⟨worker, found, picked⟩ := bind_eq_ok.mp picked
  obtain ⟨record, -, picked⟩ := bind_eq_ok.mp picked
  obtain ⟨_, -, picked⟩ := bind_eq_ok.mp picked
  rw [required_eq_ok] at oldest found
  have same : worker.workerId = workerId := by simpa using List.find?_some found
  cases picked
  rw [← same] at oldest found
  exact ⟨worker, found, oldest, rfl, rfl⟩

/-- The primary worker is the registry's. -/
theorem resolvePrimaryWorker_ok (resolved : world.resolvePrimaryWorker cfg = .ok target) :
    ∃ live worker, PrimaryWorker world target live worker := by
  unfold StreamingWorld.resolvePrimaryWorker at resolved
  obtain ⟨_, -, resolved⟩ := bind_eq_ok.mp resolved
  obtain ⟨live, listed, resolved⟩ := bind_eq_ok.mp resolved
  obtain ⟨picked, made, resolved⟩ := bind_eq_ok.mp resolved
  obtain ⟨worker, found, oldest, coverage, incapable⟩ := pickTargetWorker_ok made
  have current : currentComposeHash live = worker.imageComposeHash := by
    unfold currentComposeHash
    rw [oldest]
    change (live.find? _).bind _ = _
    rw [found]
    rfl
  have shape : target = picked ∨ ∃ versions hash, world.versions = .ok versions ∧
      worker.imageComposeHash = some hash ∧
      target = { picked with
        bedrockPolicyImageCapable :=
          imageHasBedrockPolicyFeature world.lowercase (some hash) versions } := by
    rw [current] at resolved
    split at resolved
    · split at resolved
      · rename_i hash versions held read
        exact .inr ⟨versions, hash, read, held, (Except.ok.inj resolved).symm⟩
      · exact .inl (Except.ok.inj resolved).symm
    · exact .inl (Except.ok.inj resolved).symm
  have mem := List.mem_of_find?_eq_some found
  rcases shape with rfl | ⟨versions, hash, read, held, rfl⟩
  · refine ⟨live, worker, ⟨listed, mem⟩, oldest, coverage, fun capable => ?_⟩
    rw [incapable] at capable
    cases capable
  · exact ⟨live, worker, ⟨listed, mem⟩, oldest, coverage, fun capable =>
      ⟨versions, hash, read, held, approved_of_feature capable⟩⟩

end Reported

/-! ### The self-test -/

section SelfTest

variable {world : StreamingWorld} {cfg : Config}

/-- A right probe stays right where more is approved. -/
theorem ProbeRight.mono {target : WorkerTarget} {approved approved' : Prop}
    {serves serves' : String → String → Prop} {sent : SentProbe}
    (right : ProbeRight world target approved serves sent) (image : approved → approved')
    (slots : ∀ slot model, serves slot model → serves' slot model) :
    ProbeRight world target approved' serves' sent where
  known := right.known
  plain := right.plain
  policy bedrock := by
    obtain ⟨held, row, slot, probe⟩ := right.policy bedrock
    exact ⟨image held, row, slot, { probe with served := slots _ _ probe.served }⟩

/-- What a deploy approves is listed with both hashes of the selected row. -/
theorem approved_of_required {gate : World} {backends : List (String × String)}
    {args : DeployArgs} {approved : ImageVersion} {versions : List ImageVersion}
    (required : gate.requireBedrockPolicyImage backends args approved versions = .ok true) :
    Approved (rowsOfHashes gate.lowercase versions approved) := by
  have capable : gate.imageIsBedrockMantleCapable args approved versions = true := by
    unfold World.requireBedrockPolicyImage at required
    dsimp only at required
    split at required
    · cases required
    · exact Except.ok.inj required
  unfold World.imageIsBedrockMantleCapable at capable
  dsimp only at capable
  split at capable
  · cases capable
  · split at capable
    · cases capable
    · split at capable
      · cases capable
      · split at capable
        · cases capable
        · rw [Bool.and_eq_true, Bool.not_eq_true', List.isEmpty_eq_false_iff,
            List.all_eq_true] at capable
          refine ⟨capable.1, fun row listed => ?_⟩
          have each := capable.2 row listed
          simp only [Bool.and_eq_true, beq_iff_eq] at each
          exact each.1

/-- Every probe is right, of the oldest live worker, by what the registry reports of it, and of one
that was deployed just now; `listed` are the rows that approve the latter's image. -/
structure StreamingRight (listed : Lowercase → List ImageVersion → ImageVersion → List ImageVersion)
    (world : StreamingWorld) (cfg : Config) : Prop where
  registry : ∀ probes, world.cmdCheckStreaming cfg = .ok probes →
    ∃ target live worker, world.resolvePrimaryWorker cfg = .ok target ∧
      world.workers = .ok live ∧ worker ∈ live ∧
      firstLiveWorkerId (live.map fun worker => worker.toWorkerEntry) = some worker.workerId ∧
      ∀ sent ∈ probes,
        ProbeRight world target
          (∃ versions hash, world.versions = .ok versions ∧ worker.imageComposeHash = some hash ∧
            Approved (rowsOfHash world.lowercase versions hash))
          (worker.Verifies world.lowercase .anthropic) sent
  deployed : ∀ (gate : World) backends args approved versions capable endpoint nodeSecret,
    gate.lowercase = world.lowercase →
    gate.requireBedrockPolicyImage backends args approved versions = .ok capable →
    ∀ sent ∈ world.deployStreamingAdvisory cfg endpoint nodeSecret capable,
      ProbeRight world (deployedTarget world.lowercase cfg endpoint nodeSecret capable)
        (Approved (listed world.lowercase versions approved))
        (fun slot _ => world.Derives cfg nodeSecret slot) sent

/-- Each kind of target is probed right. -/
theorem streamingRight (world : StreamingWorld) (cfg : Config) :
    StreamingRight rowsOfHashes world cfg where
  registry probes checked := by
    obtain ⟨target, resolved, same⟩ := bind_eq_ok.mp checked
    cases same
    obtain ⟨live, worker, primary⟩ := resolvePrimaryWorker_ok resolved
    refine ⟨target, live, worker, resolved, primary.listed.1, primary.listed.2, primary.oldest,
      fun sent mem => ?_⟩
    refine (probeRight_of_sent mem).mono primary.approved fun slot model own => ?_
    unfold StreamingWorld.OwnSlot at own
    rw [primary.coverage] at own
    obtain ⟨coverage, models, covered, found, serves⟩ := own
    exact workerProviderModels_backed covered slot models found model serves
  deployed gate backends args approved versions capable endpoint nodeSecret same required sent
      mem := by
    refine (probeRight_of_sent mem).mono (fun image => ?_) fun slot model own => own
    rw [show capable = true from image] at required
    rw [← same]
    exact approved_of_required required

end SelfTest

/-! ### Two measurements of one compose hash -/

def oneHash : String := "11f99ebde0d1acb944669be8fd0215086e8857de4324ae3fbeab2fcb42c72299"

/-- A row that is supported on one image of the operating system. -/
def supportedRow : ImageVersion where
  gitTag := some releaseTag
  composeHash := oneHash
  osImageHash := pinnedOsImageHash
  status := "supported"
  createdAt := "2026-10-14T00:00:00Z"
  imageRef := some "ghcr.io/taostat/gm-miner"
  features := [bedrockMantleImageFeature]

/-- The same on another image, without the stamp. -/
def unstampedRow : ImageVersion := { supportedRow with osImageHash := oneHash, features := [] }

def sonnetBinding : BedrockModelBinding :=
  ⟨"claude-sonnet-4-6", "anthropic.claude-sonnet-4-6", "claude-sonnet-4-6", 7⟩

def bedrockConfig : Config where
  networks := ∅
  providerKeys := some {
    anthropicUpstream := some "bedrock"
    bedrockRegion := some "us-east-1"
    bedrockApiKey := some "key" }

theorem sonnet_revision (rows : List BedrockModelBinding) (same : some [sonnetBinding] = some rows) :
    ∀ row ∈ rows, row.revision < 2 ^ 64 := by
  cases same
  exact List.forall_mem_singleton.mpr (by decide)

theorem root_plain : '?' ∉ "/".toList := by decide

def sonnetWorld : StreamingWorld where
  lowercase := .ascii
  derive _ _ _ := .ok "slot"
  endpointPath _ := some ⟨"/", root_plain⟩
  workers := .ok []
  versions := .ok [supportedRow, unstampedRow]
  bindings := some [sonnetBinding]
  revisions := sonnet_revision
  catalog := [⟨"anthropic", "claude-sonnet-4-6", "active"⟩]
  declared := none
  excluded := []

def deployArgs : DeployArgs := ⟨"gm-miner-1", none, none, none, 300, true⟩

def deployGate : World where
  chrono := ⟨fun _ => none, fun _ => "", fun _ _ => none⟩
  lowercase := .ascii
  derive _ _ _ := .ok "slot"
  preflightAuth := .ok ()
  liveWorkers := .ok []
  existingCvmAppId := .ok none
  acceptTermsEnv := none
  isTerminal := true
  readLine := .ok "y"
  persistAcceptedTerms := .ok ()
  requireCapability := .ok ()
  imageVersions := .ok [supportedRow, unstampedRow]
  buildImage := .ok ""
  registryCredentials _ := .ok none
  generateSecret := .ok oneHash
  persistWorkerRecord _ _ := .ok ()
  deploy _ := .ok ⟨⟨oneHash, pinnedOsImageHash⟩, "https://app.dstack.phala.network", "app"⟩
  register _ _ := .ok "worker"

theorem oneHash_digest : oneHash.length = 64 ∧ oneHash.toList.all isLowerHexDigit = true :=
  hexDigest_of
    (rfl : String.ofList _ = "11f99ebde0d1acb944669be8fd0215086e8857de4324ae3fbeab2fcb42c72299")
    (by decide) (by decide)

theorem oneHash_normal (lowercase : Lowercase) : lowercase.normalizeHash oneHash = oneHash :=
  normalizeHash_hexDigest lowercase ⟨oneHash, oneHash_digest.1, oneHash_digest.2⟩

/-- A text of 64 bytes that are lower hexadecimal digits passes for a digest. -/
theorem isSha256Hex_of {text : String} (long : text.utf8ByteSize = 64)
    (hex : text.toList.all isLowerHexDigit = true) : isSha256Hex text = true := by
  rw [isSha256Hex, long, beq_self_eq_true, Bool.true_and, List.all_eq_true]
  intro c mem
  have lower := List.all_eq_true.mp hex c mem
  unfold isLowerHexDigit at lower
  unfold isHexDigit
  rw [lower, Bool.true_or]

/-- The row that is not stamped has another measurement, so it does not count. -/
theorem supportedRow_capable : deployGate.imageIsBedrockMantleCapable deployArgs supportedRow
    [supportedRow, unstampedRow] = true := by
  have image : supportedRow.imageRef.filter (· != "") = some "ghcr.io/taostat/gm-miner" :=
    Option.filter_eq_some_iff.mpr ⟨rfl, by decide⟩
  have compose : supportedRow.composeHash = oneHash := rfl
  have os : supportedRow.osImageHash = pinnedOsImageHash := rfl
  have sameCompose : unstampedRow.composeHash = oneHash := rfl
  have otherOs : unstampedRow.osImageHash = oneHash := rfl
  have apart : (oneHash == pinnedOsImageHash) = false := by decide
  have digest := isSha256Hex_of (by decide) oneHash_digest.2
  have pinned := isSha256Hex_of (by decide) pinned_digest.2
  unfold World.imageIsBedrockMantleCapable
  dsimp only
  rw [image]
  dsimp only
  rw [compose, os, oneHash_normal, pinned_normal, List.filter_cons, List.filter_cons, compose, os,
    sameCompose, otherOs, oneHash_normal, pinned_normal]
  simp only [List.all_cons, List.all_nil, digest, pinned, apart, beq_self_eq_true, Bool.and_self]
  decide

/-- A deploy does not look at rows of its compose hash on another image of the operating system. -/
theorem unstamped_row_overlooked : ¬ ∀ world cfg, StreamingRight (fun lowercase versions approved =>
    rowsOfHash lowercase versions approved.composeHash) world cfg := by
  intro always
  have required : deployGate.requireBedrockPolicyImage [("anthropic", "bedrock")] deployArgs
      supportedRow [supportedRow, unstampedRow] = .ok true := by
    unfold World.requireBedrockPolicyImage
    dsimp only
    rw [supportedRow_capable]
    exact if_neg fun wrong => Bool.noConfusion wrong.2
  have sends : (sonnetWorld.deployStreamingAdvisory bedrockConfig "https://app.dstack.phala.network"
      oneHash true).map (fun sent => sent.probe.provider) = [.anthropic] := by decide
  obtain ⟨sent, mem, isProvider⟩ := List.mem_map.mp (sends ▸ List.mem_singleton_self _)
  have right := (always sonnetWorld bedrockConfig).deployed deployGate _ _ _ _ _ _ _ rfl required
    sent mem
  have bedrock : (deployedTarget sonnetWorld.lowercase bedrockConfig
      "https://app.dstack.phala.network" oneHash true).workerBackends .anthropic =
        some "bedrock" := by decide
  obtain ⟨approved, -⟩ := right.policy (isProvider ▸ bedrock)
  have listed : unstampedRow ∈ rowsOfHash sonnetWorld.lowercase [supportedRow, unstampedRow]
      supportedRow.composeHash :=
    List.mem_filter.mpr ⟨List.mem_cons_of_mem _ List.mem_cons_self, beq_self_eq_true _⟩
  exact absurd (approved.2 unstampedRow listed).2 (by decide)

end GmMiner.Cli
