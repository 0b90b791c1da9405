import GmMiner.Cli.Deploy

/-!
What a deploy has checked by the time it asks for a CVM, and by the time it registers a worker.

The compose document is rendered twice: with the stored name of the network for the CVM, with
the resolved one for the check of its hash. Nothing else stands between the two.
-/

namespace GmMiner.Cli

open GmMiner.Lib

/-! ### What is promised -/

/-- The operator has accepted the current terms, and the acceptance is on record. -/
def World.TermsAccepted (world : World) (cfg : Config) (args : DeployArgs) : Prop :=
  cfg.acceptedTerms.map AcceptedTerms.version = some currentTermsVersion ∨
    ((args.acceptTerms = true ∨ envAccepts world.acceptTermsEnv = true ∨
        world.isTerminal = true ∧ ∃ line, world.readLine = .ok line ∧
          (trimmedLower line = "y" ∨ trimmedLower line = "yes")) ∧
      world.persistAcceptedTerms = .ok ())

/-- The rows as the registry gave them, newest first, and the selected one. -/
def World.Selects (world : World) (args : DeployArgs) (versions : List ImageVersion)
    (approved : ImageVersion) : Prop :=
  ∃ rows, world.imageVersions = .ok rows ∧ versions = newestFirst world.chrono rows ∧
    selectVersion versions args.version = .ok approved

/-- A row of the selected row's two hashes. -/
def Lowercase.SameHashes (lowercase : Lowercase) (row approved : ImageVersion) : Prop :=
  lowercase.normalizeHash row.composeHash = lowercase.normalizeHash approved.composeHash ∧
    lowercase.normalizeHash row.osImageHash = lowercase.normalizeHash approved.osImageHash

/-- What holds of the image that deploys, and of the row it is measured by. -/
structure World.ImageGated (world : World) (release : Release) (cfg : Config) (args : DeployArgs)
    (call : DeployCall) (versions : List ImageVersion) (approved : ImageVersion)
    (image : String) : Prop where
  provisioned : world.provisionImage args approved.imageRef = .ok image
  rendered :
    renderCompose release.composeTemplate image cfg.activeNetworkName = .ok call.renderedCompose
  composeHash : world.lowercase.normalizeHash approved.composeHash =
    (release.documentHash call.renderedCompose).text
  osImageHash : world.lowercase.normalizeHash approved.osImageHash = pinnedOsImageHash
  cloud : call.keys.workerBackends ≠ [] →
    ∃ row ∈ versions, row.imageRef = some image ∧ row.cloudBindingCapable = true
  bedrock : call.keys.workerBackends.lookup "anthropic" = some "bedrock" →
    ∀ row ∈ versions, world.lowercase.SameHashes row approved →
      row.status = "supported" ∧ row.bedrockMantleModelBindingsCapable = true ∧
        row.imageRef = some image
  slots : (∃ key ∈ call.keys.directKeys, hasSemicolon key.2 = true) →
    ∃ row ∈ versions, row.imageRef = some image ∧ row.slotCapable = true

/-- What holds when a CVM is asked for. -/
structure World.CallGated (world : World) (release : Release) (cfg : Config) (args : DeployArgs)
    (registration : WorkerRegistration) (call : DeployCall) : Prop where
  free : world.existingCvmAppId = .ok none
  terms : registration = .first → world.TermsAccepted cfg args
  image : ∃ versions approved image, world.Selects args versions approved ∧
    world.ImageGated release cfg args call versions approved image

/-- A CVM came back, and its hashes are those of the selected row. -/
def World.Verified (world : World) (args : DeployArgs) (action : Action) : Prop :=
  ∃ outcome versions approved, action = .deployed outcome ∧
    world.Selects args versions approved ∧
    world.lowercase.normalizeHash outcome.hashes.composeSha256 =
      world.lowercase.normalizeHash approved.composeHash ∧
    world.lowercase.normalizeHash outcome.hashes.osImageHash =
      world.lowercase.normalizeHash approved.osImageHash

def Action.IsRegister (action : Action) : Prop :=
  ∃ registration image, action = .register registration image

/-- Every CVM is asked for behind its gates, every worker registered behind a verified CVM. -/
structure World.DeployGated (world : World) (release : Release) (cfg : Config) (args : DeployArgs)
    (registration : WorkerRegistration) (actions : List Action) : Prop where
  calls : ∀ call, .deploy call ∈ actions → world.CallGated release cfg args registration call
  registrations : Trace.Precedes (world.Verified args) Action.IsRegister actions

/-- The registry's answer and the pin leave one selection. -/
theorem selects_unique {world : World} {args : DeployArgs}
    {versions versions' : List ImageVersion} {approved approved' : ImageVersion}
    (one : world.Selects args versions approved) (other : world.Selects args versions' approved') :
    versions = versions' ∧ approved = approved' := by
  obtain ⟨rows, fetched, rfl, chosen⟩ := one
  obtain ⟨rows', fetched', rfl, chosen'⟩ := other
  cases fetched.symm.trans fetched'
  exact ⟨rfl, Except.ok.inj (chosen.symm.trans chosen')⟩

/-! ### Gate by gate -/

section Gates

variable {world : World} {release : Release} {cfg : Config} {args : DeployArgs}
variable {registration : WorkerRegistration}

/-- The terms were accepted before, or are accepted now. -/
theorem termsGate_ok {stored : Option String} {flag : Bool} {gate : Gate} :
    world.termsGate stored flag = .ok gate ↔
      (stored = some currentTermsVersion ∧ gate = .alreadyAccepted) ∨
      (stored ≠ some currentTermsVersion ∧ gate = .acceptedNow ∧
        (flag = true ∨ envAccepts world.acceptTermsEnv = true ∨
          world.isTerminal = true ∧ ∃ line, world.readLine = .ok line ∧
            (trimmedLower line = "y" ∨ trimmedLower line = "yes"))) := by
  unfold World.termsGate
  by_cases current : stored = some currentTermsVersion
  · rw [if_pos current]
    constructor
    · intro same
      exact .inl ⟨current, (Except.ok.inj same).symm⟩
    · rintro (⟨-, rfl⟩ | ⟨other, -⟩)
      · rfl
      · exact absurd current other
  · rw [if_neg current]
    simp only [current, false_and, false_or, not_false_eq_true, ne_eq, true_and]
    -- Not accepted before: the flag or the environment accepts at once, else the terminal is asked.
    by_cases flagged : (flag || envAccepts world.acceptTermsEnv) = true
    · rw [if_pos flagged]
      rw [Bool.or_eq_true] at flagged
      constructor
      · intro same
        exact ⟨(Except.ok.inj same).symm, flagged.elim .inl fun env => .inr (.inl env)⟩
      · rintro ⟨rfl, -⟩
        rfl
    · rw [if_neg flagged]
      rw [Bool.or_eq_true, not_or] at flagged
      simp only [flagged.1, flagged.2, Bool.false_eq_true, false_or]
      cases terminal : world.isTerminal with
      | false => simp [bail]
      | true =>
          simp only [Bool.not_true, Bool.false_eq_true, if_false, true_and]
          unfold promptAccept
          constructor
          · intro accepted
            obtain ⟨line, read, answered⟩ := bind_eq_ok.mp accepted
            dsimp only at answered
            split at answered
            · rename_i yes
              cases answered
              exact ⟨rfl, line, read, yes⟩
            · cases answered
          · rintro ⟨rfl, line, read, yes⟩
            refine bind_eq_ok.mpr ⟨line, read, ?_⟩
            dsimp only
            rw [if_pos yes]
            rfl

/-- The terms' step succeeds exactly when they are accepted. -/
theorem ensureTermsAccepted_ok :
    (world.ensureTermsAccepted cfg args).outcome = .ok () ↔ world.TermsAccepted cfg args := by
  unfold World.ensureTermsAccepted World.TermsAccepted
  rw [Trace.outcome_bind_ok]
  simp only [Trace.outcome_ofResult, termsGate_ok]
  constructor
  · rintro ⟨gate, ⟨current, rfl⟩ | ⟨-, rfl, accepted⟩, ended⟩
    · exact .inl current
    · obtain ⟨-, -, ended⟩ := Trace.outcome_bind_ok.mp ended
      exact .inr ⟨accepted, ended⟩
  · intro accepted
    by_cases current : cfg.acceptedTerms.map AcceptedTerms.version = some currentTermsVersion
    · exact ⟨_, .inl ⟨current, rfl⟩, rfl⟩
    · obtain ⟨accepted, persisted⟩ := accepted.resolve_left current
      refine ⟨_, .inr ⟨current, rfl, accepted⟩, ?_⟩
      exact Trace.outcome_bind_ok.mpr ⟨⟨⟩, rfl, persisted⟩

/-- The terms gate does nothing but accept them. -/
theorem mem_ensureTermsAccepted {action : Action}
    (mem : action ∈ (world.ensureTermsAccepted cfg args).actions) : action = .acceptTerms := by
  unfold World.ensureTermsAccepted at mem
  obtain ⟨gate, -, mem⟩ := Trace.mem_ofResult_bind.mp mem
  cases gate with
  | alreadyAccepted => exact absurd mem List.not_mem_nil
  | acceptedNow =>
      rcases Trace.mem_bind.mp mem with mem | ⟨-, -, mem⟩
      · exact List.mem_singleton.mp mem
      · exact absurd mem List.not_mem_nil

/-- The preflight passes only where no CVM has the name. -/
theorem preflightCvmName_ok {appName : String}
    (passed : world.preflightCvmName appName = .ok ()) : world.existingCvmAppId = .ok none := by
  unfold World.preflightCvmName context at passed
  obtain ⟨existing, listed, free⟩ := bind_eq_ok.mp passed
  cases answer : world.existingCvmAppId with
  | error failure =>
      rw [answer] at listed
      cases listed
  | ok found =>
      rw [answer] at listed
      cases listed
      cases existing with
      | none => rfl
      | some appId => cases free

/-- What the preflight has checked when it hands over the keys. -/
theorem deployPreflight_ok {keys : ProviderKeys}
    (passed : (world.deployPreflight cfg args registration).outcome = .ok keys) :
    world.existingCvmAppId = .ok none ∧
      (registration = .first → world.TermsAccepted cfg args) := by
  unfold World.deployPreflight at passed
  obtain ⟨⟨⟩, -, passed⟩ := Trace.outcome_bind_ok.mp passed
  obtain ⟨⟨⟩, -, passed⟩ := Trace.outcome_bind_ok.mp passed
  obtain ⟨⟨⟩, free, passed⟩ := Trace.outcome_bind_ok.mp passed
  refine ⟨preflightCvmName_ok free, fun first => ?_⟩
  rw [if_pos first] at passed
  obtain ⟨⟨⟩, accepted, -⟩ := Trace.outcome_bind_ok.mp passed
  exact ensureTermsAccepted_ok.mp accepted

/-- The preflight writes terms at most. -/
theorem mem_deployPreflight {action : Action}
    (mem : action ∈ (world.deployPreflight cfg args registration).actions) :
    action = .acceptTerms := by
  unfold World.deployPreflight at mem
  obtain ⟨⟨⟩, -, mem⟩ := Trace.mem_ofResult_bind.mp mem
  obtain ⟨⟨⟩, -, mem⟩ := Trace.mem_ofResult_bind.mp mem
  obtain ⟨⟨⟩, -, mem⟩ := Trace.mem_ofResult_bind.mp mem
  split at mem
  · rcases Trace.mem_bind.mp mem with mem | ⟨⟨⟩, -, mem⟩
    · exact mem_ensureTermsAccepted mem
    · obtain ⟨keys, -, mem⟩ := Trace.mem_ofResult_bind.mp mem
      obtain ⟨⟨⟩, -, mem⟩ := Trace.mem_ofResult_bind.mp mem
      exact absurd mem List.not_mem_nil
  · obtain ⟨keys, -, mem⟩ := Trace.mem_ofResult_bind.mp mem
    obtain ⟨⟨⟩, -, mem⟩ := Trace.mem_ofResult_bind.mp mem
    exact absurd mem List.not_mem_nil

/-- A capable image is one that a row with the capability names. -/
theorem row_of_imageIsCapable {capable : ImageVersion → Bool} {approved : ImageVersion}
    {versions : List ImageVersion} {image : String}
    (has : imageIsCapable capable args approved versions = true) (mem : approved ∈ versions)
    (provisioned : world.provisionImage args approved.imageRef = .ok image) :
    ∃ row ∈ versions, row.imageRef = some image ∧ capable row = true := by
  unfold imageIsCapable at has
  unfold World.provisionImage resolveImageSource at provisioned
  cases explicit : args.imageRef with
  | some named =>
      rw [explicit] at has provisioned
      cases provisioned
      obtain ⟨row, mem, names⟩ := List.any_eq_true.mp has
      rw [Bool.and_eq_true, beq_iff_eq] at names
      exact ⟨row, mem, names⟩
  | none =>
      rw [explicit] at has provisioned
      cases repo : args.imageRepo with
      | some repo' =>
          rw [repo] at has
          cases has
      | none =>
          rw [repo] at has provisioned
          cases named : approved.imageRef with
          | none =>
              rw [named] at provisioned
              cases provisioned
          | some supported =>
              rw [named] at provisioned
              cases provisioned
              exact ⟨approved, mem, named, has⟩

/-- Every row of the selected hashes vouches for the image a Bedrock worker runs. -/
theorem rows_of_imageIsBedrockMantleCapable {approved : ImageVersion}
    {versions : List ImageVersion} {image : String}
    (has : world.imageIsBedrockMantleCapable args approved versions = true)
    (provisioned : world.provisionImage args approved.imageRef = .ok image) :
    ∀ row ∈ versions, world.lowercase.SameHashes row approved →
      row.status = "supported" ∧ row.bedrockMantleModelBindingsCapable = true ∧
        row.imageRef = some image := by
  unfold World.imageIsBedrockMantleCapable at has
  dsimp only at has
  split at has
  · cases has
  · rename_i admitted
    split at has
    · cases has
    · rename_i named approvedRef
      split at has
      · cases has
      · rename_i explicit
        split at has
        · cases has
        · -- The approved row names an image, and every way the deployed one is chosen ends at it.
          have runs : image = named := by
            have supported := (Option.filter_eq_some_iff.mp approvedRef).1
            unfold World.provisionImage resolveImageSource at provisioned
            cases flag : args.imageRef with
            | some given =>
                rw [flag] at provisioned explicit
                cases provisioned
                simpa using explicit
            | none =>
                rw [flag] at provisioned admitted
                cases repo : args.imageRepo with
                | some built => simp [repo] at admitted
                | none =>
                    rw [repo, supported] at provisioned
                    cases provisioned
                    rfl
          subst runs
          rw [Bool.and_eq_true, List.all_eq_true] at has
          intro row mem same
          have vouches := has.2 row (List.mem_filter.mpr ⟨mem, by
            rw [Bool.and_eq_true, beq_iff_eq, beq_iff_eq]
            exact same⟩)
          simpa [Bool.and_eq_true, and_assoc] using vouches

/-- What a selection has passed. -/
theorem selectTarget_ok {keys : ProviderKeys} {selection : Selection}
    (selected : world.selectTarget release cfg args keys = .ok selection) :
    world.Selects args selection.versions selection.approved ∧
    world.provisionImage args selection.approved.imageRef = .ok selection.target.imageRef ∧
    renderCompose release.composeTemplate selection.target.imageRef cfg.activeNetworkName =
      .ok selection.target.renderedCompose ∧
    world.lowercase.normalizeHash selection.approved.composeHash =
      (release.documentHash (renderedWith release.composeTemplate selection.target.imageRef
        cfg.resolvedNetwork.asStr)).text ∧
    world.lowercase.normalizeHash selection.approved.osImageHash = pinnedOsImageHash ∧
    (keys.workerBackends ≠ [] →
      imageIsCloudBindingCapable args selection.approved selection.versions = true) ∧
    (keys.workerBackends.lookup "anthropic" = some "bedrock" →
      world.imageIsBedrockMantleCapable args selection.approved selection.versions = true) := by
  unfold World.selectTarget at selected
  obtain ⟨⟨⟩, -, selected⟩ := bind_eq_ok.mp selected
  obtain ⟨rows, fetched, selected⟩ := bind_eq_ok.mp selected
  obtain ⟨approved, chosen, selected⟩ := bind_eq_ok.mp selected
  obtain ⟨⟨⟩, cloud, selected⟩ := bind_eq_ok.mp selected
  obtain ⟨capable, bedrock, selected⟩ := bind_eq_ok.mp selected
  obtain ⟨target, prepared, selected⟩ := bind_eq_ok.mp selected
  obtain ⟨expected, computed, selected⟩ := bind_eq_ok.mp selected
  obtain ⟨verified, checked, selected⟩ := bind_eq_ok.mp selected
  cases selected
  obtain ⟨imageRef, provisioned, rendering⟩ := bind_eq_ok.mp prepared
  obtain ⟨document, rendered, made⟩ := bind_eq_ok.mp rendering
  cases made
  obtain ⟨document', rendered', hashed⟩ := computeComposeHash_eq_ok.mp computed
  -- The context only renames the error.
  have checked' : world.lowercase.verifyHashes ⟨expected.text, pinnedOsImageHash⟩ approved =
      .ok verified := by
    unfold context at checked
    cases answer : world.lowercase.verifyHashes ⟨expected.text, pinnedOsImageHash⟩ approved with
    | error failure =>
        rw [answer] at checked
        cases checked
    | ok value =>
        rw [answer] at checked
        exact checked
  obtain ⟨-, compose, os⟩ := verifyHashes_eq_ok.mp checked'
  rw [normalizeHash_hexDigest] at compose
  rw [pinned_normal] at os
  refine ⟨⟨rows, fetched, rfl, chosen⟩, provisioned, rendered, ?_, os.symm, fun some_ => ?_,
    fun backend => ?_⟩
  · rw [← renderCompose_eq rendered', hashed]
    exact compose.symm
  · have gate := ensure_eq_ok.mp cloud
    rw [Bool.or_eq_true, List.isEmpty_iff] at gate
    exact gate.resolve_left some_
  · unfold World.requireBedrockPolicyImage at bedrock
    dsimp only at bedrock
    split at bedrock
    · cases bedrock
    · rename_i refused
      rw [not_and, Bool.not_eq_false] at refused
      exact refused backend

/-- Without slots in the image, no active key holds several. -/
theorem recordSlots_ok {keys : ProviderKeys} {nodeSecret : String} {slotCapable : Bool}
    {slots : ProviderSlots}
    (made : world.recordSlots keys nodeSecret slotCapable = .ok slots)
    (several : ∃ key ∈ keys.directKeys, hasSemicolon key.2 = true) : slotCapable = true := by
  unfold World.recordSlots at made
  split at made
  · assumption
  · obtain ⟨⟨⟩, single, -⟩ := bind_eq_ok.mp made
    obtain ⟨key, mem, semicolon⟩ := several
    exact absurd semicolon (Bool.eq_false_iff.mp (noSemicolon_of_ok single key mem))

/-- A record whose slots were checked. -/
theorem prepareWorkerRecord_ok {keys : ProviderKeys} {slotCapable : Bool}
    {backends : List (String × String)} {prepared : List WorkerRecord × WorkerRecord}
    (passed : (world.prepareWorkerRecord cfg args registration keys slotCapable
      backends).outcome = .ok prepared)
    (several : ∃ key ∈ keys.directKeys, hasSemicolon key.2 = true) : slotCapable = true := by
  unfold World.prepareWorkerRecord at passed
  obtain ⟨secret, -, passed⟩ := Trace.outcome_bind_ok.mp passed
  obtain ⟨slots, made, -⟩ := Trace.outcome_bind_ok.mp passed
  exact recordSlots_ok made several

/-- Preparing a record writes it at most. -/
theorem mem_prepareWorkerRecord {keys : ProviderKeys} {slotCapable : Bool}
    {backends : List (String × String)} {action : Action}
    (mem : action ∈ (world.prepareWorkerRecord cfg args registration keys slotCapable
      backends).actions) : ∃ record, action = .persistWorkerRecord cfg.activeNetworkName record := by
  unfold World.prepareWorkerRecord at mem
  obtain ⟨⟨secret, fresh⟩, -, mem⟩ := Trace.mem_ofResult_bind.mp mem
  obtain ⟨slots, -, mem⟩ := Trace.mem_ofResult_bind.mp mem
  dsimp only at mem
  split at mem
  · rcases Trace.mem_bind.mp mem with mem | ⟨⟨⟩, -, mem⟩
    · exact ⟨_, List.mem_singleton.mp mem⟩
    · obtain ⟨⟨⟩, -, mem⟩ := Trace.mem_ofResult_bind.mp mem
      exact absurd mem List.not_mem_nil
  · exact absurd mem List.not_mem_nil

/-! ### The launch -/

variable {approved : ImageVersion} {written : List WorkerRecord} {record : WorkerRecord}
variable {call : DeployCall}

/-- A launch asks for one CVM. -/
theorem deploy_mem_launch {asked : DeployCall} :
    .deploy asked ∈ (world.launch cfg registration approved written record call).actions ↔
      asked = call := by
  unfold World.launch
  simp only [Trace.mem_bind, Trace.actions_perform, Trace.outcome_perform, Trace.actions_ofResult,
    Trace.outcome_ofResult, List.mem_singleton, List.not_mem_nil, Action.deploy.injEq, reduceCtorEq,
    and_false, exists_false, or_false]

/-- A launch registers only behind a CVM whose hashes it has verified. -/
theorem precedes_launch {versions : List ImageVersion}
    (selects : world.Selects args versions approved) :
    Trace.Precedes (world.Verified args) Action.IsRegister
      (world.launch cfg registration approved written record call).actions := by
  unfold World.launch
  refine Trace.Precedes.bind (Trace.precedes_of_none fun _ mem => ?_) fun ⟨⟩ _ =>
    Trace.precedes_ofResult_bind fun actual _ => ?_
  · cases List.mem_singleton.mp mem
    rintro ⟨_, _, ⟨⟩⟩
  · cases checked : world.lowercase.verifyHashes actual.hashes approved with
    | ok verified =>
        obtain ⟨-, compose, os⟩ := verifyHashes_eq_ok.mp checked
        exact Trace.precedes_perform_bind
          ⟨actual, versions, approved, rfl, selects, compose, os⟩ (by rintro ⟨_, _, ⟨⟩⟩)
    | error failure =>
        refine Trace.precedes_of_none ?_
        rintro _ mem ⟨registration, image, rfl⟩
        simp [Trace.mem_bind] at mem

end Gates

/-! ### The two renderings -/

section Runs

variable (world : World) (release : Release) (cfg : Config) (args : DeployArgs)
variable (registration : WorkerRegistration) (kmsContractId : String)

/-- The checks before the first billable step let the deploy through, with a selection. -/
def World.Launches (selection : Selection) : Prop :=
  ∃ keys, (world.deployPreflight cfg args registration).outcome = .ok keys ∧
    world.selectTarget release cfg args keys = .ok selection ∧
    (∃ prepared, (world.prepareWorkerRecord cfg args registration keys
      (imageIsSlotCapable args selection.approved selection.versions)
      keys.workerBackends).outcome = .ok prepared) ∧
    ∃ creds, world.registryCredentials selection.target.imageRef = .ok creds

/-- The stored name of the network and the resolved one give documents of one hash. -/
def Release.RendersAlike (imageRef : String) : Prop :=
  release.documentHash (renderedWith release.composeTemplate imageRef cfg.activeNetworkName) =
    release.documentHash
      (renderedWith release.composeTemplate imageRef cfg.resolvedNetwork.asStr)

variable {world release cfg args registration kmsContractId}

/-- A CVM is asked for once the checks are passed, with the selected document. -/
theorem deploy_mem_cmdDeployWithKms {call : DeployCall} :
    .deploy call ∈ (world.cmdDeployWithKms release cfg args registration kmsContractId).actions ↔
      ∃ keys selection prepared creds,
        (world.deployPreflight cfg args registration).outcome = .ok keys ∧
        world.selectTarget release cfg args keys = .ok selection ∧
        (world.prepareWorkerRecord cfg args registration keys
          (imageIsSlotCapable args selection.approved selection.versions)
          keys.workerBackends).outcome = .ok prepared ∧
        world.registryCredentials selection.target.imageRef = .ok creds ∧
        call = ⟨kmsContractId, selection.target.renderedCompose, keys, prepared.2.nodeSecret,
          creds, args.bootTimeoutSecs⟩ := by
  unfold World.cmdDeployWithKms
  constructor
  · intro mem
    rcases Trace.mem_bind.mp mem with mem | ⟨keys, preflight, mem⟩
    · cases mem_deployPreflight mem
    obtain ⟨selection, selected, mem⟩ := Trace.mem_ofResult_bind.mp mem
    rcases Trace.mem_bind.mp mem with mem | ⟨prepared, passed, mem⟩
    · obtain ⟨record, ⟨⟩⟩ := mem_prepareWorkerRecord mem
    obtain ⟨creds, resolved, mem⟩ := Trace.mem_ofResult_bind.mp mem
    exact ⟨keys, selection, prepared, creds, preflight, selected, passed, resolved,
      deploy_mem_launch.mp mem⟩
  · rintro ⟨keys, selection, prepared, creds, preflight, selected, passed, resolved, rfl⟩
    refine Trace.mem_bind.mpr (.inr ⟨keys, preflight, ?_⟩)
    refine Trace.mem_ofResult_bind.mpr ⟨selection, selected, ?_⟩
    refine Trace.mem_bind.mpr (.inr ⟨prepared, passed, ?_⟩)
    exact Trace.mem_ofResult_bind.mpr ⟨creds, resolved, deploy_mem_launch.mpr rfl⟩

/-- The document is verified before anything is registered. -/
theorem precedes_cmdDeployWithKms :
    Trace.Precedes (world.Verified args) Action.IsRegister
      (world.cmdDeployWithKms release cfg args registration kmsContractId).actions := by
  unfold World.cmdDeployWithKms
  refine Trace.Precedes.bind (Trace.precedes_of_none fun action mem => ?_) fun keys _ => ?_
  · rintro ⟨_, _, rfl⟩
    cases mem_deployPreflight mem
  refine Trace.precedes_ofResult_bind fun selection selected => ?_
  refine Trace.Precedes.bind (Trace.precedes_of_none fun action mem => ?_) fun prepared _ => ?_
  · rintro ⟨_, _, rfl⟩
    obtain ⟨_, ⟨⟩⟩ := mem_prepareWorkerRecord mem
  exact Trace.precedes_ofResult_bind fun creds _ => precedes_launch (selectTarget_ok selected).1

/-- Only the document can differ from what was checked. -/
theorem deploy_gated_iff :
    world.DeployGated release cfg args registration
        (world.cmdDeployWithKms release cfg args registration kmsContractId).actions ↔
      ∀ selection, world.Launches release cfg args registration selection →
        release.RendersAlike cfg selection.target.imageRef := by
  constructor
  · rintro gated selection ⟨keys, preflight, selected, ⟨prepared, passed⟩, creds, resolved⟩
    have mem : .deploy ⟨kmsContractId, selection.target.renderedCompose, keys,
        prepared.2.nodeSecret, creds, args.bootTimeoutSecs⟩ ∈
        (world.cmdDeployWithKms release cfg args registration kmsContractId).actions :=
      deploy_mem_cmdDeployWithKms.mpr
        ⟨keys, selection, prepared, creds, preflight, selected, passed, resolved, rfl⟩
    obtain ⟨versions, approved, image, selects, gate⟩ := (gated.calls _ mem).image
    obtain ⟨selects', provisioned, rendered, compose, -⟩ := selectTarget_ok selected
    obtain ⟨rfl, rfl⟩ := selects_unique selects selects'
    -- The gate is on the hashed rendering, the submission is the deployed one: equal digests
    -- are equal texts.
    have hash := gate.composeHash
    rw [compose, renderCompose_eq rendered] at hash
    exact (HexDigest.text_injective hash).symm
  · intro alike
    refine ⟨fun call mem => ?_, precedes_cmdDeployWithKms⟩
    obtain ⟨keys, selection, prepared, creds, preflight, selected, passed, resolved, rfl⟩ :=
      deploy_mem_cmdDeployWithKms.mp mem
    have same := alike selection ⟨keys, preflight, selected, ⟨prepared, passed⟩, creds, resolved⟩
    obtain ⟨free, terms⟩ := deployPreflight_ok preflight
    obtain ⟨selects, provisioned, rendered, compose, os, cloud, bedrock⟩ :=
      selectTarget_ok selected
    obtain ⟨rows, fetched, ordered, chosen⟩ := selects
    have approvedMem := (selectVersion_ok chosen).1
    refine ⟨free, terms, selection.versions, selection.approved, selection.target.imageRef,
      ⟨rows, fetched, ordered, chosen⟩, ?_⟩
    exact {
      provisioned
      rendered
      composeHash := by
        rw [compose, ← show _ = _ from same, renderCompose_eq rendered]
      osImageHash := os
      cloud := fun some_ => row_of_imageIsCapable (cloud some_) approvedMem provisioned
      bedrock := fun backend =>
        rows_of_imageIsBedrockMantleCapable (bedrock backend) provisioned
      slots := fun several => row_of_imageIsCapable
        (prepareWorkerRecord_ok passed several) approvedMem provisioned }

/-- A network that is not selected, or under its own name, is rendered as it is checked. -/
theorem rendersAlike_of_named
    (named : cfg.activeNetwork = none ∨ ∃ network : Network, cfg.activeNetwork = some network.asStr)
    (imageRef : String) : release.RendersAlike cfg imageRef := by
  have same : cfg.activeNetworkName = cfg.resolvedNetwork.asStr := by
    unfold Config.activeNetworkName Config.resolvedNetwork
    rcases named with none_ | ⟨network, some_⟩
    · rw [none_]
      rfl
    · rw [some_]
      cases network <;> decide
  unfold Release.RendersAlike
  rw [same]

end Runs

/-! ### A network stored under another name -/

def minerImage : String :=
  "ghcr.io/taostat/gm-miner@sha256:" ++
    "11f99ebde0d1acb944669be8fd0215086e8857de4324ae3fbeab2fcb42c72299"

/-- The lines of the template that are substituted, with the digests of the two documents that
they give for mainnet under its own name and under another. -/
def shortRelease : Release where
  composeTemplate := "    image: $\x7bGM_IMAGE_REF:?\x7d\n    environment:\n      " ++
    "- GM_NETWORK=__GM_NETWORK__\n"
  prelaunchScript := ""
  hashAppCompose compose :=
    if (compose.lookup "docker_compose_file").bind Json.Value.asStr =
        some ("    image: " ++ minerImage ++ "\n    environment:\n      - GM_NETWORK=mainnet\n") then
      ⟨"a0cc9fedcfc33dfc9515bf89131a6b6bcc0813f07b00104d5a3898b84fd42c34", by decide, by decide⟩
    else
      ⟨"aa9c08661cbfee8e8893c7060e462740e4aed1cec77591e145232b1edadb8e0a", by decide, by decide⟩

/-- `finney` resolves to mainnet, and is stored as it was typed. -/
def finneyConfig : Config where
  networks := ∅
  activeNetwork := some "finney"
  providerKeys := some { anthropic := some "sk-ant" }

def finneyArgs : DeployArgs := ⟨"gm-miner-1", none, none, none, 300, true⟩

def mainnetRow : ImageVersion where
  gitTag := some releaseTag
  composeHash := "a0cc9fedcfc33dfc9515bf89131a6b6bcc0813f07b00104d5a3898b84fd42c34"
  osImageHash := pinnedOsImageHash
  status := "supported"
  createdAt := "2026-10-14T00:00:00Z"
  imageRef := some minerImage
  features := []

/-- Every answer is the one the operator hopes for. -/
def willingWorld : World where
  chrono := ⟨fun _ => none, fun _ => "", fun _ _ => none⟩
  lowercase := .ascii
  derive _ _ _ := .ok ""
  preflightAuth := .ok ()
  liveWorkers := .ok []
  existingCvmAppId := .ok none
  acceptTermsEnv := none
  isTerminal := true
  readLine := .ok "y"
  persistAcceptedTerms := .ok ()
  requireCapability := .ok ()
  imageVersions := .ok [mainnetRow]
  buildImage := .ok ""
  registryCredentials _ := .ok none
  generateSecret := .ok "00112233445566778899aabbccddeeff00112233445566778899aabbccddeeff"
  persistWorkerRecord _ _ := .ok ()
  deploy call := .ok ⟨⟨(shortRelease.documentHash call.renderedCompose).text, pinnedOsImageHash⟩,
    "https://app-8080s.dstack-prod5.phala.network", "app"⟩
  register _ _ := .ok "worker"

def finneyCall : DeployCall where
  kmsContractId := "kms"
  renderedCompose :=
    "    image: " ++ minerImage ++ "\n    environment:\n      - GM_NETWORK=finney\n"
  keys := { anthropic := some "sk-ant" }
  nodeSecret := "00112233445566778899aabbccddeeff00112233445566778899aabbccddeeff"
  registryCreds := none
  bootTimeoutSecs := 300

theorem renderCompose_of_chars {template image network document : String}
    {template' image' network' document' : List Char}
    (templateChars : String.ofList template' = template)
    (imageChars : String.ofList image' = image) (networkChars : String.ofList network' = network)
    (documentChars : String.ofList document' = document)
    (placed : replaceImageRefPlaceholder template' image' ≠ template')
    (found : (splitFirst gmNetworkPlaceholder.toList
      (replaceImageRefPlaceholder template' image')).isNone = false)
    (replaced : replaceText gmNetworkPlaceholder.toList network'
      (replaceImageRefPlaceholder template' image') = document') :
    renderCompose template image network = .ok document := by
  subst templateChars imageChars networkChars documentChars
  unfold renderCompose
  simp only [String.toList_ofList]
  rw [if_neg placed, if_neg (by simp [found]), replaced]

def mainnetDocument : String :=
  "    image: " ++ minerImage ++ "\n    environment:\n      - GM_NETWORK=mainnet\n"

/-- The short template under the two names. -/
theorem renderCompose_short :
    renderCompose shortRelease.composeTemplate minerImage "mainnet" = .ok mainnetDocument ∧
      renderCompose shortRelease.composeTemplate minerImage "finney" =
        .ok finneyCall.renderedCompose := by
  -- on lists of characters: a string of the source is slow to take apart
  have image : String.ofList _ = minerImage := ofList_append_of rfl rfl
  constructor
  · refine renderCompose_of_chars (ofList_append_of rfl rfl) image rfl
      (ofList_append_of (ofList_append_of rfl image) rfl) ?_ ?_ ?_ <;> decide +kernel
  · refine renderCompose_of_chars (ofList_append_of rfl rfl) image rfl
      (ofList_append_of (ofList_append_of rfl image) rfl) ?_ ?_ ?_ <;> decide +kernel

theorem lookup_docker_compose_file (release : Release) (document : String) :
    ((release.appComposeOf document).lookup "docker_compose_file").bind Json.Value.asStr =
      some document := by
  simp [Release.appComposeOf, releaseFlags, SortedMap.lookup_insert, Json.Value.asStr]

theorem documentHash_mainnet :
    (shortRelease.documentHash mainnetDocument).text = mainnetRow.composeHash := by
  unfold Release.documentHash
  dsimp only [shortRelease]
  rw [lookup_docker_compose_file, if_pos]
  · rfl
  · rfl

/-- The document rendered under the alias has another hash. -/
theorem documentHash_finney :
    (shortRelease.documentHash finneyCall.renderedCompose).text =
      "aa9c08661cbfee8e8893c7060e462740e4aed1cec77591e145232b1edadb8e0a" := by
  unfold Release.documentHash
  dsimp only [shortRelease]
  rw [lookup_docker_compose_file, if_neg]
  intro same
  have last := (String.append_right_inj _).mp (Option.some.inj same)
  revert last
  decide

/-- The alias selects mainnet's row and its own document. -/
theorem selectTarget_finney :
    willingWorld.selectTarget shortRelease finneyConfig finneyArgs finneyCall.keys =
      .ok ⟨[mainnetRow], mainnetRow, minerImage, finneyCall.renderedCompose⟩ := by
  have target : willingWorld.resolveAndRenderTarget shortRelease finneyConfig finneyArgs
      mainnetRow.imageRef = .ok ⟨minerImage, finneyCall.renderedCompose⟩ :=
    bind_eq_ok.mpr ⟨minerImage, rfl, bind_eq_ok.mpr ⟨_, renderCompose_short.2, rfl⟩⟩
  have verified : ∃ hashes, willingWorld.lowercase.verifyHashes
      ⟨(shortRelease.documentHash mainnetDocument).text, pinnedOsImageHash⟩ mainnetRow =
        .ok hashes := by
    rw [documentHash_mainnet]
    exact ⟨_, verifyHashes_eq_ok.mpr ⟨rfl, rfl, rfl⟩⟩
  obtain ⟨hashes, verified⟩ := verified
  refine bind_eq_ok.mpr ⟨(), rfl, bind_eq_ok.mpr ⟨[mainnetRow], rfl,
    bind_eq_ok.mpr ⟨mainnetRow, rfl, bind_eq_ok.mpr ⟨(), rfl, bind_eq_ok.mpr ⟨_, rfl,
      bind_eq_ok.mpr ⟨_, target, bind_eq_ok.mpr ⟨_, computeComposeHash_eq_ok.mpr
        ⟨mainnetDocument, renderCompose_short.1, rfl⟩, bind_eq_ok.mpr ⟨hashes, ?_, rfl⟩⟩⟩⟩⟩⟩⟩⟩
  rw [verified]
  rfl

/-- A deploy under the alias is of a document that was not published. -/
theorem finney_call_not_gated :
    ¬ willingWorld.DeployGated shortRelease finneyConfig finneyArgs .first
      (willingWorld.cmdDeployWithKms shortRelease finneyConfig finneyArgs .first "kms").actions := by
  intro gated
  have asked : .deploy finneyCall ∈
      (willingWorld.cmdDeployWithKms shortRelease finneyConfig finneyArgs .first "kms").actions :=
    deploy_mem_cmdDeployWithKms.mpr
      ⟨finneyCall.keys, _, _, none, rfl, selectTarget_finney, rfl, rfl, rfl⟩
  obtain ⟨versions, approved, image, selects, gate⟩ := (gated.calls _ asked).image
  have selects' : willingWorld.Selects finneyArgs [mainnetRow] mainnetRow :=
    ⟨[mainnetRow], rfl, rfl, rfl⟩
  obtain ⟨rfl, rfl⟩ := selects_unique selects selects'
  have hash := gate.composeHash
  rw [← documentHash_mainnet, normalizeHash_hexDigest, documentHash_mainnet,
    documentHash_finney] at hash
  revert hash
  decide

end GmMiner.Cli
