import GmMiner.Cli.Deploy

/-!
Whether a declaration treats a provider as direct (`declaration_policy` of
`cli/src/cloud_policy.rs`).

What is known of the hotkey's workers comes from four places: the selector, the local records, the
registry's live workers and its image versions. A provider is kept in a bulk declaration only if
none of them leaves a worker open (`KeptInBulk`).
-/

namespace GmMiner.Cli

open GmMiner.Lib

structure CloudDeclarationPolicy where
  requiresCapability : Bool
  excludeFromBulk : Bool
  deriving DecidableEq, Repr

namespace CloudDeclarationPolicy

def direct : CloudDeclarationPolicy := ⟨false, false⟩

def fenced : CloudDeclarationPolicy := ⟨true, true⟩

def fencedButDirect : CloudDeclarationPolicy := ⟨true, false⟩

end CloudDeclarationPolicy

/-! ### The registry -/

structure Status where
  code : Nat
  text : String
  deriving DecidableEq, Repr

def Status.isSuccess (status : Status) : Bool := 200 ≤ status.code && status.code < 300

/-- A response: its body as text, and what the decoder makes of it. -/
structure Response (Doc : Type) where
  status : Status
  body : String
  json : Except Error Doc

/-- The field of `MinerStatus` that names the worker list. -/
structure MinerStatus where
  hotkey : String
  deriving DecidableEq, Repr

structure LiveWorker extends WorkerEntry where
  imageComposeHash : Option String
  deriving DecidableEq, Repr

/-- What the registry answers to a `GET` of a URL, with the access token where one is sent. -/
structure Registry where
  me : String → String → Except Error (Response MinerStatus)
  workers : String → String → Except Error (Response (List LiveWorker))
  imageVersions : String → Except Error (Response (List ImageVersion))

structure RegistryClient where
  config : Config
  registry : Registry
  chrono : Chrono
  lowercase : Lowercase

namespace RegistryClient

variable (client : RegistryClient)

/-- `send` of a `GET`. -/
def get {Doc : Type} (endpoint : String → String → Except Error (Response Doc)) (path : String) :
    Except Error (Response Doc) := do
  let url := client.config.apiUrl ++ path
  let token ← required (client.config.activeTokens.bind TokenEntry.accessToken)
    ["not logged in — run `gmcli login` first"]
  let response ← context (endpoint url token) ("GET " ++ url)
  ensure (response.status.code != 401) ["authentication expired — run `gmcli login` again"]
  return response

def mePath : String := "/miners/me"

/-- The body of a successful response. -/
def decoded {Doc : Type} (response : Response Doc) (request parsed : String) :
    Except Error Doc := do
  ensure response.status.isSuccess
    [request ++ " failed (" ++ response.status.text ++ "): " ++ response.body]
  context response.json ("parse " ++ parsed ++ " response")

def workersPath (miner : MinerStatus) : String := "/miners/" ++ miner.hotkey ++ "/workers"

/-- `fetch_live_workers`: nothing for a hotkey without a miner row. -/
def fetchLiveWorkers : Except Error (Option (List LiveWorker)) := do
  let response ← context (client.get client.registry.me mePath) "GET /miners/me"
  if response.status.code = 404 then return none
  else
    let miner ← decoded response "GET /miners/me" "/miners/me"
    let path := workersPath miner
    let response ← context (client.get client.registry.workers path) "GET live workers"
    let workers ← decoded response ("GET " ++ path) path
    return some workers

/-- `fetch_supported_versions`, newest first. -/
def fetchSupportedVersions : Except Error (List ImageVersion) := do
  let url := client.config.apiUrl ++ "/image-versions?status=supported"
  let response ← context (client.registry.imageVersions url) ("GET " ++ url)
  ensure (response.status.code != 404)
    ["registry returned 404 for /image-versions — your gmcli build is newer than the registry " ++
      "deployment; wait for the registry to be updated and retry"]
  let versions ← decoded response "GET /image-versions" "/image-versions"
  return newestFirst client.chrono versions

end RegistryClient

/-! ### The policy -/

def selectorOf (provider : String) (keys : ProviderKeys) : Option String :=
  if provider = "anthropic" then keys.anthropicUpstream
  else if provider = "openai" then keys.openaiUpstream
  else none

def configuredCloudBackend (cfg : Config) (provider : String) : Option String :=
  let selector := cfg.providerKeys.bind (selectorOf provider)
  if provider = "anthropic" ∧ selector = some "bedrock" then some "bedrock"
  else if provider = "anthropic" ∧ selector = some "foundry" then some "foundry"
  else if provider = "openai" ∧ selector = some "azure" then some "azure"
  else none

/-- `None` is unknown provenance, not direct provenance. -/
def recordedWorkerRequiresCloudFence (record : WorkerRecord) (provider : String) : Bool :=
  match record.backends with
  | none => true
  | some backends => (backends.lookup provider).isSome

/-- The workers recorded for the active network. -/
def Config.localWorkers (cfg : Config) : List WorkerRecord :=
  (cfg.activeNetworkEntry.map NetworkEntry.workers).getD []

def hasExplicitCloudProvenance (cfg : Config) (provider : String) : Bool :=
  (configuredCloudBackend cfg provider).isSome ||
    cfg.localWorkers.any fun worker =>
      match worker.backends with
      | none => false
      | some backends => (backends.lookup provider).isSome

/-- What the loop over the live workers has seen. -/
structure Provenance where
  hasUnknownProvenance : Bool := false
  hasCloudProvenance : Bool := false
  hasBindingImage : Bool := false
  deriving DecidableEq, Repr

section Loop

variable (lowercase : Lowercase) (versions : List ImageVersion) (localWorkers : List WorkerRecord)
  (provider : String)

/-- The listed version of a live worker's image. -/
def imageOf (worker : LiveWorker) : Option ImageVersion :=
  worker.imageComposeHash.bind fun hash =>
    versions.find? fun version =>
      lowercase.normalizeHash version.composeHash == lowercase.normalizeHash hash

def Provenance.see (seen : Provenance) (worker : LiveWorker) : Provenance :=
  match imageOf lowercase versions worker with
  | none => { seen with hasUnknownProvenance := true }
  | some image =>
      let seen :=
        { seen with hasBindingImage := seen.hasBindingImage || image.cloudBindingCapable }
      match localWorkers.find? fun record => record.workerId == worker.workerId with
      | none => { seen with hasUnknownProvenance := true }
      | some record =>
          { seen with hasCloudProvenance :=
              seen.hasCloudProvenance || recordedWorkerRequiresCloudFence record provider }

end Loop

def declarationPolicy (client : RegistryClient) (provider : String) : CloudDeclarationPolicy :=
  if provider ≠ "anthropic" ∧ provider ≠ "openai" then .direct
  else if hasExplicitCloudProvenance client.config provider then .fenced
  else
    let localWorkers := client.config.localWorkers
    let hasUnknownLocalWorker := localWorkers.any fun worker => worker.backends.isNone
    match client.fetchLiveWorkers with
    | .error _ => .fenced
    | .ok none => if hasUnknownLocalWorker then .fenced else .direct
    | .ok (some liveWorkers) =>
        if liveWorkers.isEmpty then if hasUnknownLocalWorker then .fenced else .direct
        else
          match client.fetchSupportedVersions with
          | .error _ => .fenced
          | .ok versions =>
              let seen := liveWorkers.foldl
                (Provenance.see client.lowercase versions localWorkers provider) {}
              if seen.hasCloudProvenance || seen.hasUnknownProvenance then .fenced
              else if seen.hasBindingImage then .fencedButDirect
              else .direct

/-! ### What a policy is right about -/

/-- A cloud adapter is selected for the provider. -/
def CloudSelected (cfg : Config) (provider : String) : Prop :=
  ∃ keys, cfg.providerKeys = some keys ∧
    (provider = "anthropic" ∧
        (keys.anthropicUpstream = some "bedrock" ∨ keys.anthropicUpstream = some "foundry") ∨
      provider = "openai" ∧ keys.openaiUpstream = some "azure")

/-- The worker's record has an explicit backend map, without the provider. -/
def WorkerRecord.Direct (record : WorkerRecord) (provider : String) : Prop :=
  ∃ backends, record.backends = some backends ∧ provider ∉ backends.map Prod.fst

section Policy

variable (client : RegistryClient) (provider : String)

/-- The live workers of the hotkey by the registry's word: a hotkey without a miner row has none. -/
inductive LiveWorkers : List LiveWorker → Prop
  | unregistered {response : Response MinerStatus}
      (sent : client.get client.registry.me RegistryClient.mePath = .ok response)
      (absent : response.status.code = 404) : LiveWorkers []
  | listed {response : Response MinerStatus} {miner : MinerStatus}
      {answer : Response (List LiveWorker)} {workers : List LiveWorker}
      (sent : client.get client.registry.me RegistryClient.mePath = .ok response)
      (succeeded : response.status.isSuccess = true) (parsed : response.json = .ok miner)
      (asked : client.get client.registry.workers (RegistryClient.workersPath miner) = .ok answer)
      (answered : answer.status.isSuccess = true) (listed : answer.json = .ok workers) :
      LiveWorkers workers

/-- The image of a live worker is listed, and its record says that it is direct. -/
structure Vouched (versions : List ImageVersion) (worker : LiveWorker) : Prop where
  image : ∃ hash, worker.imageComposeHash = some hash ∧ ∃ version ∈ versions,
    client.lowercase.normalizeHash version.composeHash = client.lowercase.normalizeHash hash
  record : ∃ record ∈ client.config.localWorkers,
    record.workerId = worker.workerId ∧ record.Direct provider

/-- Nothing is left open about the workers of the hotkey. -/
structure KeptInBulk (live : List LiveWorker) : Prop where
  unselected : ¬ CloudSelected client.config provider
  unnamed : ∀ record ∈ client.config.localWorkers, ∀ backends, record.backends = some backends →
    provider ∉ backends.map Prod.fst
  listed : LiveWorkers client live
  resolved :
    (live = [] ∧ ∀ record ∈ client.config.localWorkers, record.backends ≠ none) ∨
      live ≠ [] ∧ ∃ versions, client.fetchSupportedVersions = .ok versions ∧
        ∀ worker ∈ live, Vouched client provider versions worker

/-- No live worker runs an image that binds cloud models. -/
def NoBindingImage (live : List LiveWorker) : Prop :=
  live = [] ∨ ∃ versions, client.fetchSupportedVersions = .ok versions ∧
    ∀ worker ∈ live, ∀ image, imageOf client.lowercase versions worker = some image →
      image.cloudBindingCapable = false

end Policy

/-- A provider is found exactly if it is among the names. -/
theorem lookup_isSome_iff {backends : List (String × String)} {provider : String} :
    (backends.lookup provider).isSome = true ↔ provider ∈ backends.map Prod.fst := by
  induction backends with
  | nil => simp
  | cons entry rest ih =>
      rw [List.lookup_cons]
      by_cases here : provider = entry.1
      · simp [here]
      · have apart : (provider == entry.1) = false := beq_false_of_ne here
        simp [apart, here, ih]

theorem configuredCloudBackend_eq_none {cfg : Config} {provider : String}
    (none_ : configuredCloudBackend cfg provider = none) : ¬ CloudSelected cfg provider := by
  rintro ⟨keys, held, ⟨rfl, bedrock | foundry⟩ | ⟨rfl, azure⟩⟩
  · simp [configuredCloudBackend, selectorOf, held, bedrock] at none_
  · simp [configuredCloudBackend, selectorOf, held, foundry] at none_
  · simp [configuredCloudBackend, selectorOf, held, azure] at none_

theorem recordedWorkerRequiresCloudFence_eq_false {record : WorkerRecord} {provider : String} :
    recordedWorkerRequiresCloudFence record provider = false ↔ record.Direct provider := by
  rw [recordedWorkerRequiresCloudFence, WorkerRecord.Direct]
  cases record.backends with
  | none => simp
  | some backends =>
      rw [← Bool.not_eq_true, lookup_isSome_iff]
      simp

theorem decoded_eq_ok {Doc : Type} {response : Response Doc} {request parsed : String}
    {doc : Doc} (done : RegistryClient.decoded response request parsed = .ok doc) :
    response.status.isSuccess = true ∧ response.json = .ok doc := by
  obtain ⟨⟨⟩, succeeded, read⟩ := bind_eq_ok.mp done
  exact ⟨ensure_eq_ok.mp succeeded, mapError_eq_ok.mp read⟩

/-- The live workers are the registry's, or none where it has no list. -/
theorem fetchLiveWorkers_eq_ok {client : RegistryClient} {answer : Option (List LiveWorker)}
    (fetched : client.fetchLiveWorkers = .ok answer) : LiveWorkers client (answer.getD []) := by
  obtain ⟨response, sent, rest⟩ := bind_eq_ok.mp fetched
  have sent := mapError_eq_ok.mp sent
  by_cases absent : response.status.code = 404
  · rw [if_pos absent] at rest
    cases rest
    exact .unregistered sent absent
  · rw [if_neg absent] at rest
    obtain ⟨miner, decoded, rest⟩ := bind_eq_ok.mp rest
    obtain ⟨answer, asked, rest⟩ := bind_eq_ok.mp rest
    obtain ⟨workers, decodedWorkers, same⟩ := bind_eq_ok.mp rest
    cases same
    obtain ⟨succeeded, parsed⟩ := decoded_eq_ok decoded
    obtain ⟨answered, listed⟩ := decoded_eq_ok decodedWorkers
    exact .listed sent succeeded parsed (mapError_eq_ok.mp asked) answered listed

/-! ### The loop -/

section Loop

variable {client : RegistryClient} {provider : String} {versions : List ImageVersion}

abbrev seenAfter (client : RegistryClient) (versions : List ImageVersion) (provider : String) :
    Provenance → LiveWorker → Provenance :=
  Provenance.see client.lowercase versions client.config.localWorkers provider

/-- One live worker: what was seen is not forgotten, and unseen it is vouched for. -/
theorem see_clean {seen : Provenance} {worker : LiveWorker}
    (known : (seenAfter client versions provider seen worker).hasUnknownProvenance = false)
    (direct : (seenAfter client versions provider seen worker).hasCloudProvenance = false) :
    seen.hasUnknownProvenance = false ∧ seen.hasCloudProvenance = false ∧
      Vouched client provider versions worker := by
  rw [seenAfter, Provenance.see] at known direct
  cases found : imageOf client.lowercase versions worker with
  | none => simp [found] at known
  | some version =>
      rw [found] at known direct
      dsimp only at known direct
      obtain ⟨hash, hashed, first⟩ := Option.bind_eq_some_iff.mp found
      cases tracked : client.config.localWorkers.find?
          fun record => record.workerId == worker.workerId with
      | none => simp [tracked] at known
      | some record =>
          rw [tracked] at known direct
          simp only [Bool.or_eq_false_iff] at known direct
          refine ⟨known, direct.1, ⟨⟨hash, hashed, version, List.mem_of_find?_eq_some first, ?_⟩,
            ⟨record, List.mem_of_find?_eq_some tracked, ?_, ?_⟩⟩⟩
          · simpa using List.find?_some first
          · simpa using List.find?_some tracked
          · exact recordedWorkerRequiresCloudFence_eq_false.mp direct.2

/-- A worker seen leaves no binding image exactly if its own image has none. -/
theorem see_unbound {seen : Provenance} {worker : LiveWorker}
    (unbound : (seenAfter client versions provider seen worker).hasBindingImage = false) :
    seen.hasBindingImage = false ∧
      ∀ image, imageOf client.lowercase versions worker = some image →
        image.cloudBindingCapable = false := by
  rw [seenAfter, Provenance.see] at unbound
  cases found : imageOf client.lowercase versions worker with
  | none =>
      rw [found] at unbound
      exact ⟨unbound, fun _ same => nomatch same⟩
  | some version =>
      rw [found] at unbound
      have both : (seen.hasBindingImage || version.cloudBindingCapable) = false := by
        dsimp only at unbound
        split at unbound
        · exact unbound
        · exact unbound
      rw [Bool.or_eq_false_iff] at both
      refine ⟨both.1, fun image same => ?_⟩
      cases same
      exact both.2

/-- A provenance that ends clean was clean of every worker. -/
theorem foldl_see_clean {live : List LiveWorker} {seen : Provenance}
    (known : (live.foldl (seenAfter client versions provider) seen).hasUnknownProvenance = false)
    (direct : (live.foldl (seenAfter client versions provider) seen).hasCloudProvenance = false) :
    seen.hasUnknownProvenance = false ∧ seen.hasCloudProvenance = false ∧
      ∀ worker ∈ live, Vouched client provider versions worker := by
  induction live generalizing seen with
  | nil => exact ⟨known, direct, fun _ mem => nomatch mem⟩
  | cons worker rest ih =>
      obtain ⟨known, direct, vouched⟩ := ih known direct
      obtain ⟨known, direct, first⟩ := see_clean known direct
      exact ⟨known, direct, List.forall_mem_cons.mpr ⟨first, vouched⟩⟩

/-- No binding image at the end means none of any worker. -/
theorem foldl_see_unbound {live : List LiveWorker} {seen : Provenance}
    (unbound : (live.foldl (seenAfter client versions provider) seen).hasBindingImage = false) :
    seen.hasBindingImage = false ∧
      ∀ worker ∈ live, ∀ image, imageOf client.lowercase versions worker = some image →
        image.cloudBindingCapable = false := by
  induction live generalizing seen with
  | nil => exact ⟨unbound, fun _ mem => nomatch mem⟩
  | cons worker rest ih =>
      obtain ⟨unbound, later⟩ := ih unbound
      obtain ⟨unbound, first⟩ := see_unbound unbound
      exact ⟨unbound, List.forall_mem_cons.mpr ⟨first, later⟩⟩

end Loop

/-! ### The policy is right -/

/-- Without explicit provenance no cloud is selected and no record names the
provider. -/
theorem unfenced_provenance {cfg : Config} {provider : String}
    (unfenced : hasExplicitCloudProvenance cfg provider = false) :
    ¬ CloudSelected cfg provider ∧
      ∀ record ∈ cfg.localWorkers, ∀ backends, record.backends = some backends →
        provider ∉ backends.map Prod.fst := by
  obtain ⟨unselected, unnamed⟩ := Bool.or_eq_false_iff.mp unfenced
  refine ⟨configuredCloudBackend_eq_none (Option.isNone_iff_eq_none.mp (by simpa using unselected)),
    fun record mem backends held named => ?_⟩
  have direct := List.any_eq_false.mp unnamed record mem
  rw [held] at direct
  exact direct (lookup_isSome_iff.mpr named)

/-- A policy keeps a provider in a bulk declaration, or asks for no capability, only if all that is
known of the workers says so. -/
theorem declarationPolicy_right (client : RegistryClient) {provider : String}
    (cloud : provider = "anthropic" ∨ provider = "openai") :
    ((declarationPolicy client provider).excludeFromBulk = false →
      ∃ live, KeptInBulk client provider live) ∧
    ((declarationPolicy client provider).requiresCapability = false →
      ∃ live, KeptInBulk client provider live ∧ NoBindingImage client live) := by
  rw [declarationPolicy, if_neg (fun other => cloud.elim other.1 other.2)]
  by_cases explicit : hasExplicitCloudProvenance client.config provider = true
  · rw [if_pos explicit]
    exact ⟨nofun, nofun⟩
  rw [if_neg explicit]
  obtain ⟨unselected, unnamed⟩ := unfenced_provenance (Bool.eq_false_iff.mpr explicit)
  dsimp only
  -- Without live workers it is up to the local records.
  have idle (none_ : LiveWorkers client []) (policy : CloudDeclarationPolicy)
      (same : policy = if client.config.localWorkers.any fun worker => worker.backends.isNone
        then .fenced else .direct) :
      (policy.excludeFromBulk = false → ∃ live, KeptInBulk client provider live) ∧
      (policy.requiresCapability = false →
        ∃ live, KeptInBulk client provider live ∧ NoBindingImage client live) := by
    by_cases unknown : (client.config.localWorkers.any fun worker => worker.backends.isNone) = true
    · rw [if_pos unknown] at same
      subst same
      exact ⟨nofun, nofun⟩
    · have known : ∀ record ∈ client.config.localWorkers, record.backends ≠ none := by
        intro record mem none_
        refine unknown (List.any_eq_true.mpr ⟨record, mem, ?_⟩)
        rw [none_]
        rfl
      have kept : KeptInBulk client provider [] :=
        ⟨unselected, unnamed, none_, .inl ⟨rfl, known⟩⟩
      exact ⟨fun _ => ⟨[], kept⟩, fun _ => ⟨[], kept, .inl rfl⟩⟩
  cases fetched : client.fetchLiveWorkers with
  | error => exact ⟨nofun, nofun⟩
  | ok answer =>
      have listed := fetchLiveWorkers_eq_ok fetched
      cases answer with
      | none => exact idle listed _ rfl
      | some live =>
          dsimp only
          by_cases empty : live.isEmpty = true
          · rw [if_pos empty]
            cases List.isEmpty_iff.mp empty
            exact idle listed _ rfl
          rw [if_neg empty]
          cases versioned : client.fetchSupportedVersions with
          | error => exact ⟨nofun, nofun⟩
          | ok versions =>
              dsimp only
              by_cases open_ : ((live.foldl (seenAfter client versions provider)
                  {}).hasCloudProvenance || (live.foldl (seenAfter client versions provider)
                  {}).hasUnknownProvenance) = true
              · rw [if_pos open_]
                exact ⟨nofun, nofun⟩
              rw [if_neg open_]
              obtain ⟨direct, known⟩ := Bool.or_eq_false_iff.mp (Bool.eq_false_iff.mpr open_)
              have kept : KeptInBulk client provider live :=
                ⟨unselected, unnamed, listed, .inr ⟨mt List.isEmpty_iff.mpr empty, versions,
                  versioned, (foldl_see_clean known direct).2.2⟩⟩
              by_cases binding : (live.foldl (seenAfter client versions provider)
                  {}).hasBindingImage = true
              · rw [if_pos binding]
                exact ⟨fun _ => ⟨live, kept⟩, nofun⟩
              · rw [if_neg binding]
                have unbound := foldl_see_unbound (Bool.eq_false_iff.mpr binding)
                exact ⟨fun _ => ⟨live, kept⟩,
                  fun _ => ⟨live, kept, .inr ⟨versions, versioned, unbound.2⟩⟩⟩

/-- A logged in hotkey with two workers that keep the provider direct, live under their recorded ids
and listed images, in another order. -/
def directClient : RegistryClient where
  config := { networks := Finmap.singleton "mainnet" {
    tokens := some ⟨some "token", none, none⟩
    workers := [⟨"01J0A", "app", "gm-miner-1", "secret", some [], none, false⟩,
      ⟨"01J0B", "app-2", "gm-miner-2", "secret-2", some [("openai", "azure")],
        some [("openai", ["1"])], false⟩] } }
  registry := {
    me := fun _ _ => .ok ⟨⟨200, "200 OK"⟩, "", .ok ⟨"5F"⟩⟩
    workers := fun _ _ => .ok ⟨⟨200, "200 OK"⟩, "", .ok
      [⟨⟨"01J0B", none⟩, some "ef"⟩, ⟨⟨"01J0A", none⟩, some "SHA256:ab"⟩]⟩
    imageVersions := fun _ => .ok ⟨⟨200, "200 OK"⟩, "", .ok
      [⟨none, "ab", "cd", "supported", "", none, []⟩,
        ⟨some "v2", "sha256:EF", "cd", "deprecated", "", none, ["upstream-key-slots"]⟩]⟩ }
  chrono := ⟨fun _ => none, fun _ => "", fun _ _ => none⟩
  lowercase := .ascii

theorem directClient_kept :
    (∃ live, KeptInBulk directClient "anthropic" live) ∧
      ∃ live, KeptInBulk directClient "anthropic" live ∧ NoBindingImage directClient live :=
  have right := declarationPolicy_right directClient (.inl rfl)
  ⟨right.1 (by decide), right.2 (by decide)⟩

end GmMiner.Cli
