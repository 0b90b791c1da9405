import GmMiner.Cli.Compose
import GmMiner.Cli.Slots
import GmMiner.Lib.Trace

/-!
The deploy flow (`cli/src/commands/deploy.rs`, with `cli/src/terms.rs`,
`cli/src/node_secret.rs`, `cli/src/workers.rs` and `cli/src/cloud_policy.rs` where it uses
them).

A `World` holds what the registry, Phala Cloud, the terminal and the disk answer. A run logs
the calls that change something: terms and worker records written, CVMs asked for and made,
workers registered.
-/

namespace GmMiner.Cli

open GmMiner.Lib

/-! ### Inputs -/

/-- The arguments that decide a deploy; the others only reach the image build and `phala`. -/
structure DeployArgs where
  appName : String
  imageRef : Option String
  imageRepo : Option String
  version : Option Nat
  bootTimeoutSecs : Nat
  acceptTerms : Bool
  deriving DecidableEq, Repr

inductive WorkerRegistration
  | first
  | add (hotkey : String)
  deriving DecidableEq, Repr

/-- The fields of a live worker that say which is worker #1. -/
structure WorkerEntry where
  workerId : String
  createdAt : Option String
  deriving DecidableEq, Repr

/-- The arguments of `PhalaClient::deploy`. -/
structure DeployCall where
  kmsContractId : String
  renderedCompose : String
  keys : ProviderKeys
  nodeSecret : String
  registryCreds : Option RegistryCredentials
  bootTimeoutSecs : Nat
  deriving DecidableEq

structure DeployOutcome where
  hashes : DstackDeployResult
  endpoint : String
  appId : String
  deriving DecidableEq, Repr

structure WorkerImageArgs where
  composeHash : String
  osImageHash : String
  endpoint : String
  nodeSecret : Option String
  backends : Option (List (String × String))
  providerSlots : Option ProviderSlots
  acceptedTermsVersion : Option String
  deriving DecidableEq, Repr

structure World where
  chrono : Chrono
  lowercase : Lowercase
  derive : DeriveSlotId
  preflightAuth : Except Error Unit
  /-- `fetch_live_workers`. -/
  liveWorkers : Except Error (List WorkerEntry)
  existingCvmAppId : Except Error (Option String)
  /-- The variable `GMCLI_ACCEPT_TERMS`. -/
  acceptTermsEnv : Option String
  isTerminal : Bool
  /-- The line typed at the prompt. -/
  readLine : Except Error String
  persistAcceptedTerms : Except Error Unit
  /-- `RegistryClient::require_capability` of `upstream-model-echo`. -/
  requireCapability : Except Error Unit
  /-- The rows of `GET /image-versions?status=supported`, as they came. -/
  imageVersions : Except Error (List ImageVersion)
  /-- The build and push of `--image-repo`. -/
  buildImage : Except Error String
  registryCredentials : String → Except Error (Option RegistryCredentials)
  generateSecret : Except Error String
  /-- `persist_worker_record`, after the records written before. -/
  persistWorkerRecord : List WorkerRecord → WorkerRecord → Except Error Unit
  deploy : DeployCall → Except Error DeployOutcome
  register : WorkerRegistration → WorkerImageArgs → Except Error String

inductive Action
  | acceptTerms
  | persistWorkerRecord (network : String) (record : WorkerRecord)
  | deploy (call : DeployCall)
  | deployed (outcome : DeployOutcome)
  | register (registration : WorkerRegistration) (args : WorkerImageArgs)
  deriving DecidableEq

abbrev Run := Trace Action Error

/-! ### Terms -/

def currentTermsVersion : String := "2026-06-16"

/-- `str::trim` and `to_ascii_lowercase`. -/
def trimmedLower (text : String) : String :=
  String.ofList ((trim text.toList).map Char.toLower)

def envAccepts (value : Option String) : Bool :=
  match value.map trimmedLower with
  | some answer => answer == "1" || answer == "true" || answer == "yes" || answer == "y"
  | none => false

/-- `terms::Gate`. -/
inductive Gate
  | alreadyAccepted
  | acceptedNow
  deriving DecidableEq, Repr

def promptAccept (line : Except Error String) : Except Error Gate := do
  let line ← line
  let answer := trimmedLower line
  if answer = "y" ∨ answer = "yes" then return .acceptedNow
  else
    bail ("deploy declined: the gm miner terms (version " ++ currentTermsVersion ++
      ") were not accepted")

/-- `terms::gate`. -/
def World.termsGate (world : World) (storedVersion : Option String) (acceptFlag : Bool) :
    Except Error Gate :=
  if storedVersion = some currentTermsVersion then .ok .alreadyAccepted
  else if acceptFlag || envAccepts world.acceptTermsEnv then .ok .acceptedNow
  else if !world.isTerminal then
    bail ("the gm miner terms must be accepted before deploy, but this is a non-interactive " ++
      "session.\n  re-run with `--accept-terms` (or set GMCLI_ACCEPT_TERMS=1) to record " ++
      "acceptance of version " ++ currentTermsVersion)
  else promptAccept world.readLine

def World.ensureTermsAccepted (world : World) (cfg : Config) (args : DeployArgs) : Run Unit := do
  let gate ← .ofResult
    (world.termsGate (cfg.acceptedTerms.map AcceptedTerms.version) args.acceptTerms)
  match gate with
  | .alreadyAccepted => .ofResult (.ok ())
  | .acceptedNow => do
      .perform .acceptTerms
      .ofResult world.persistAcceptedTerms

/-! ### Worker #1 -/

/-- Oldest first, then by id. -/
def WorkerEntry.before (worker other : WorkerEntry) : Bool :=
  let created := worker.createdAt.getD ""
  let created' := other.createdAt.getD ""
  decide (created < created') ||
    (created == created' && decide (worker.workerId < other.workerId))

/-- `first_live_worker_id`: the first of the least. -/
def firstLiveWorkerId (live : List WorkerEntry) : Option String :=
  (live.foldl (fun least worker =>
    match least with
    | none => some worker
    | some other => if worker.before other then some worker else some other) none).map
      WorkerEntry.workerId

def isSecondaryLive (tracked : WorkerRecord) (live : List WorkerEntry) : Bool :=
  if tracked.workerId.isEmpty then tracked.provisionalSecondary
  else if !(live.any fun worker => worker.workerId == tracked.workerId) then false
  else firstLiveWorkerId live != some tracked.workerId

/-- The active network's record of a worker. -/
def Config.workerByAppName (cfg : Config) (appName : String) : Option WorkerRecord :=
  cfg.activeNetworkEntry.bind fun entry => entry.workerByAppName appName

def World.rejectSecondaryWorkerDeploy (world : World) (cfg : Config)
    (registration : WorkerRegistration) (appName : String) : Except Error Unit :=
  if registration ≠ .first then .ok ()
  else
    match cfg.workerByAppName appName with
    | none => .ok ()
    | some tracked => do
        let live ← if tracked.workerId.isEmpty then .ok [] else world.liveWorkers
        if isSecondaryLive tracked live then
          bail ("'" ++ appName ++ "' is a secondary worker; `deploy` and `register-image` only " ++
            "(re-)register worker #1. To replace this worker, `gmcli worker remove <worker_id>` " ++
            "then `gmcli worker add --app-name " ++ appName ++ "`.")
        else .ok ()

def rejectExistingCvm (appName : String) (existingAppId : Option String) : Except Error Unit :=
  match existingAppId with
  | none => .ok ()
  | some appId =>
      bail ("a Phala CVM named '" ++ appName ++ "' already exists (app_id " ++ appId ++ "), and " ++
        "`phala deploy` cannot reuse a CVM name — this deploy would fail.\n  Tear the old CVM " ++
        "down first (this destroys that CVM and its encrypted env, and it stops serving until " ++
        "the redeploy finishes; gmcli re-uploads your provider keys and reuses the worker's node " ++
        "secret):\n    phala cvms delete " ++ appId ++ "\n  then re-run this command.")

def World.preflightCvmName (world : World) (appName : String) : Except Error Unit := do
  let existing ← context world.existingCvmAppId
    ("check whether a Phala CVM named '" ++ appName ++ "' already exists")
  rejectExistingCvm appName existing

def World.deployPreflight (world : World) (cfg : Config) (args : DeployArgs)
    (registration : WorkerRegistration) : Run ProviderKeys := do
  .ofResult world.preflightAuth
  .ofResult (world.rejectSecondaryWorkerDeploy cfg registration args.appName)
  .ofResult (world.preflightCvmName args.appName)
  if registration = .first then world.ensureTermsAccepted cfg args
  let keys ← .ofResult (required (cfg.providerKeys.filter ProviderKeys.anySet)
    ["no provider keys; run `gmcli set-api-keys --anthropic <key>` (and/or --openai / --google " ++
      "/ --chutes / --zai / --moonshot / --deepinfra / --kubetee / --engy / --moonmath, or " ++
      "configure --anthropic-upstream bedrock / --openai-upstream azure) first"])
  .ofResult keys.validateUpstreams
  return keys

/-! ### Capabilities of the image that deploys -/

/-- Whether the image that deploys has a capability, by `resolve_image_source`'s precedence. -/
def imageIsCapable (capable : ImageVersion → Bool) (args : DeployArgs) (approved : ImageVersion)
    (versions : List ImageVersion) : Bool :=
  match args.imageRef with
  | some explicit => versions.any fun v => v.imageRef == some explicit && capable v
  | none => if args.imageRepo.isSome then false else capable approved

def imageIsSlotCapable : DeployArgs → ImageVersion → List ImageVersion → Bool :=
  imageIsCapable ImageVersion.slotCapable

def imageIsCloudBindingCapable : DeployArgs → ImageVersion → List ImageVersion → Bool :=
  imageIsCapable ImageVersion.cloudBindingCapable

/-- `u8::is_ascii_hexdigit`. -/
def isHexDigit (c : Char) : Bool :=
  c.isDigit || ('a' ≤ c && c ≤ 'f') || ('A' ≤ c && c ≤ 'F')

def isSha256Hex (hash : String) : Bool := hash.utf8ByteSize == 64 && hash.toList.all isHexDigit

def World.imageIsBedrockMantleCapable (world : World) (args : DeployArgs)
    (approved : ImageVersion) (versions : List ImageVersion) : Bool :=
  let normalizeHash := world.lowercase.normalizeHash
  if (args.imageRef.isNone && args.imageRepo.isSome) || approved.status != "supported" ||
      !approved.bedrockMantleModelBindingsCapable then false
  else
    match approved.imageRef.filter (· != "") with
    | none => false
    | some imageRef =>
        if args.imageRef.any (· != imageRef) then false
        else
          let composeHash := normalizeHash approved.composeHash
          let osHash := normalizeHash approved.osImageHash
          if !([composeHash, osHash].all isSha256Hex) then false
          else
            let matching := versions.filter fun version =>
              normalizeHash version.composeHash == composeHash &&
                normalizeHash version.osImageHash == osHash
            !matching.isEmpty && matching.all fun version =>
              version.status == "supported" && version.bedrockMantleModelBindingsCapable &&
                version.imageRef == some imageRef

def World.requireBedrockPolicyImage (world : World) (workerBackends : List (String × String))
    (args : DeployArgs) (approved : ImageVersion) (versions : List ImageVersion) :
    Except Error Bool :=
  let capable := world.imageIsBedrockMantleCapable args approved versions
  if workerBackends.lookup "anthropic" = some "bedrock" ∧ capable = false then
    bail ("Bedrock requires a registry-approved image with the `bedrock-mantle-model-bindings-v1` " ++
      "feature; old or locally built images cannot serve this route")
  else .ok capable

/-- `cloud_fence_required_for_worker`. -/
def cloudFenceRequiredForWorker (cfg : Config) (appName : String)
    (currentBackends : List (String × String)) : Bool :=
  (cfg.providerKeys.any fun keys => !keys.workerBackends.isEmpty) ||
    !currentBackends.isEmpty ||
    (cfg.workerByAppName appName).any fun worker =>
      match worker.backends with
      | none => true
      | some backends => !backends.isEmpty

/-- `require_cloud_registration_capability_for_worker`. -/
def World.requireCloudRegistrationCapability (world : World) (cfg : Config) (appName : String)
    (backends : List (String × String)) (operation : String) : Except Error Unit :=
  if !cloudFenceRequiredForWorker cfg appName backends then .ok ()
  else
    context world.requireCapability
      ("cloud worker " ++ operation ++ " requires registry capability upstream-model-echo")

/-! ### Target and record -/

/-- `ImageProvisioner::provision` of what `resolve_image_source` chose. -/
def World.provisionImage (world : World) (args : DeployArgs) (supportedImageRef : Option String) :
    Except Error String := do
  match ← resolveImageSource args.imageRef args.imageRepo supportedImageRef with
  | .prebuilt imageRef => .ok imageRef
  | .build => world.buildImage

/-- `resolve_and_render_target`: the document gets the stored name of the network. -/
def World.resolveAndRenderTarget (world : World) (release : Release) (cfg : Config)
    (args : DeployArgs) (supportedImageRef : Option String) : Except Error DeployTarget :=
  release.prepareDeployTarget (world.provisionImage args supportedImageRef) cfg.activeNetworkName

/-- `NetworkEntry::legacy_node_secret`. -/
def NetworkEntry.usableLegacySecret (entry : NetworkEntry) : Option String :=
  if !entry.workers.isEmpty then none
  else entry.legacyNodeSecret.filter fun secret => !isBlank secret

/-- `node_secret::for_worker`: the secret, and whether it is new. -/
def World.nodeSecretForWorker (world : World) (entry : Option NetworkEntry) (appName : String)
    (allowLegacy : Bool) : Except Error (String × Bool) :=
  let existing := (entry.bind fun entry => entry.workerByAppName appName).map
    WorkerRecord.nodeSecret
  match existing.filter fun secret => !isBlank secret with
  | some secret => .ok (secret, false)
  | none =>
      match if allowLegacy then entry.bind NetworkEntry.usableLegacySecret else none with
      | some legacy => .ok (legacy, false)
      | none => (context world.generateSecret "generate node secret").map fun secret =>
          (secret, true)

/-- The slots a record advertises. -/
def World.recordSlots (world : World) (keys : ProviderKeys) (nodeSecret : String)
    (slotCapable : Bool) : Except Error ProviderSlots :=
  if slotCapable then providerSlotsForKeys world.derive keys nodeSecret
  else do
    rejectMultikeyForLegacyImage keys
    return []

def World.prepareWorkerRecord (world : World) (cfg : Config) (args : DeployArgs)
    (registration : WorkerRegistration) (keys : ProviderKeys) (slotCapable : Bool)
    (backends : List (String × String)) : Run (List WorkerRecord × WorkerRecord) := do
  let isFirst := decide (registration = .first)
  let (nodeSecret, freshlyGenerated) ← .ofResult
    (world.nodeSecretForWorker cfg.activeNetworkEntry args.appName isFirst)
  let providerSlots ← .ofResult (world.recordSlots keys nodeSecret slotCapable)
  let record : WorkerRecord := {
    workerId := ((cfg.workerByAppName args.appName).map WorkerRecord.workerId).getD ""
    appId := ""
    appName := args.appName
    nodeSecret
    backends := some backends
    providerSlots := if providerSlots.isEmpty then none else some providerSlots
    provisionalSecondary := !isFirst }
  if freshlyGenerated then do
    .perform (.persistWorkerRecord cfg.activeNetworkName record)
    .ofResult (world.persistWorkerRecord [] record)
    return ([record], record)
  else return ([], record)

/-! ### The command -/

/-- What the checks before the first billable step settle on. -/
structure Selection where
  versions : List ImageVersion
  approved : ImageVersion
  target : DeployTarget

/-- The start of `cmd_deploy_with_kms`, from the registry's fence to the check of the hash. -/
def World.selectTarget (world : World) (release : Release) (cfg : Config) (args : DeployArgs)
    (keys : ProviderKeys) : Except Error Selection := do
  let workerBackends := keys.workerBackends
  world.requireCloudRegistrationCapability cfg args.appName workerBackends "registration"
  let versions := newestFirst world.chrono (← world.imageVersions)
  let approved ← selectVersion versions args.version
  ensure (workerBackends.isEmpty || imageIsCloudBindingCapable args approved versions)
    ["cloud upstreams require a registry-approved image with the `upstream-model-hop` feature; " ++
      "select an image with cloud model binding or wait for this image to be admitted"]
  let _ ← world.requireBedrockPolicyImage workerBackends args approved versions
  let target ← world.resolveAndRenderTarget release cfg args approved.imageRef
  let expected ← release.computeComposeHash target.imageRef cfg.resolvedNetwork
  let _ ← context (world.lowercase.verifyHashes ⟨expected.text, pinnedOsImageHash⟩ approved)
    ("bundled deployment template does not match the selected approval; no CVM was created. Use " ++
      "the matching gmcli release")
  return ⟨versions, approved, target⟩

/-- The call that creates the CVM, and all that follows. -/
def World.launch (world : World) (cfg : Config) (registration : WorkerRegistration)
    (approved : ImageVersion) (written : List WorkerRecord) (record : WorkerRecord)
    (call : DeployCall) : Run Unit := do
  .perform (.deploy call)
  let actual ← .ofResult (world.deploy call)
  .perform (.deployed actual)
  let record := { record with appId := actual.appId }
  .perform (.persistWorkerRecord cfg.activeNetworkName record)
  .ofResult (world.persistWorkerRecord written record)
  let verified ← .ofResult (world.lowercase.verifyHashes actual.hashes approved)
  let image : WorkerImageArgs := {
    composeHash := verified.composeSha256
    osImageHash := verified.osImageHash
    endpoint := actual.endpoint
    nodeSecret := some record.nodeSecret
    backends := record.backends
    providerSlots := record.providerSlots
    acceptedTermsVersion := some currentTermsVersion }
  .perform (.register registration image)
  let workerId ← .ofResult (world.register registration image)
  let registered := { record with workerId, provisionalSecondary := false }
  .perform (.persistWorkerRecord cfg.activeNetworkName registered)
  .ofResult (world.persistWorkerRecord (written ++ [record]) registered)

/-- `cmd_deploy_with_kms`. The advisory at its end has no say in the outcome. -/
def World.cmdDeployWithKms (world : World) (release : Release) (cfg : Config) (args : DeployArgs)
    (registration : WorkerRegistration) (kmsContractId : String) : Run Unit := do
  let keys ← world.deployPreflight cfg args registration
  let selection ← .ofResult (world.selectTarget release cfg args keys)
  let approved := selection.approved
  let (written, record) ← world.prepareWorkerRecord cfg args registration keys
    (imageIsSlotCapable args approved selection.versions) keys.workerBackends
  let registryCreds ← .ofResult (world.registryCredentials selection.target.imageRef)
  world.launch cfg registration approved written record {
    kmsContractId
    renderedCompose := selection.target.renderedCompose
    keys
    nodeSecret := record.nodeSecret
    registryCreds
    bootTimeoutSecs := args.bootTimeoutSecs }

end GmMiner.Cli
