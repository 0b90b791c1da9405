import GmMiner.Azure.Arm
import Mathlib.Data.String.Basic

/-!
What the verification asserts about what it read (`azure-verify/src/checks.rs`,
`azure-verify/src/checks/streaming.rs`, `azure-verify/src/binding.rs`).
-/

namespace GmMiner.Azure

open GmMiner.Lib

def aiServicesKind : String := "AIServices"

def AzureProvider.allowedAccountKinds : AzureProvider → List String
  | .openAi => ["OpenAI", aiServicesKind]
  | .foundry => [aiServicesKind]

def nonEmptyJsonValue : Json.Value → Bool
  | .null => false
  | .array values => !values.isEmpty
  | .object values => !values.isEmpty
  | .string value => !isBlank value
  | .bool _ => true
  | .number _ => true

def isNull : Json.Value → Bool
  | .null => true
  | _ => false

def assertAccountBinding (urls : Urls) (provider : AzureProvider) (endpoint : AzureEndpoint)
    (account : ArmAccount) : Except AnyError String := do
  let allowedKinds := provider.allowedAccountKinds
  ensure (allowedKinds.contains account.kind) (AnyError.msg (provider.label ++ " account kind '" ++
    account.kind ++ "' is not allowed; expected one of " ++ ", ".intercalate allowedKinds))
  let customSubdomain ← required account.properties.customSubDomainName
    (AnyError.msg "Azure account properties.customSubDomainName is missing")
  ensure (!isBlank customSubdomain)
    (AnyError.msg "Azure account properties.customSubDomainName is empty")
  let customSubdomain := toAsciiLowercase (trimmed customSubdomain)
  ensure (customSubdomain == endpoint.accountName)
    (AnyError.msg ("Azure account properties.customSubDomainName '" ++ customSubdomain ++
      "' does not match configured endpoint account label '" ++ endpoint.accountName ++ "'"))
  let armEndpoint ← required account.properties.endpoint
    (AnyError.msg "Azure account properties.endpoint is missing")
  let armUrl ← (urls.parse armEndpoint).mapError fun error =>
    (AnyError.msg error).context ("parse Azure account endpoint " ++ urls.debug armEndpoint)
  ensure (armUrl.scheme == "https")
    (AnyError.msg "Azure account properties.endpoint must use https")
  ensure (armUrl.username.isEmpty && armUrl.password.isNone)
    (AnyError.msg "Azure account properties.endpoint must not contain userinfo")
  let armHost ← required armUrl.hostStr
    (AnyError.msg "Azure account properties.endpoint must include a DNS host")
  let armHost := toAsciiLowercase armHost
  let armLabel := String.ofList (armHost.toList.takeWhile (· != '.'))
  ensure (armLabel == customSubdomain)
    (AnyError.msg (provider.label ++ " account properties.endpoint host '" ++ armHost ++
      "' is not a host of the account with customSubDomainName '" ++ customSubdomain ++ "'"))
  ensure (account.properties.raiMonitorConfig.all isNull)
    (AnyError.msg "Azure account properties.raiMonitorConfig must be null or absent")
  ensure (!account.properties.userOwnedStorage.any nonEmptyJsonValue)
    (AnyError.msg "Azure account properties.userOwnedStorage must be null, absent, or empty")
  ensure (!isBlank account.id) (AnyError.msg "Azure account id is empty")
  return account.id

/-! ### Capture surfaces -/

/-- How a diagnostic setting is named: with the categories it has enabled. -/
def DiagnosticSetting.named (setting : DiagnosticSetting) : String :=
  let categories := (setting.logs.filter DiagnosticLog.enabled).map fun log =>
    (log.category.or log.categoryGroup).getD "<unnamed>"
  if categories.isEmpty then setting.name
  else setting.name ++ " (" ++ ", ".intercalate categories ++ ")"

def assertNoDiagnosticCapture (provider : AzureProvider) (scope resourceId : String)
    (settings : DiagnosticSettingsList) : Except AnyError Unit :=
  if settings.isEmpty then .ok ()
  else
    let first := (settings.head?.map DiagnosticSetting.name).getD "<unnamed>"
    .error (.msg (provider.label ++ " " ++ scope ++ " has " ++ toString settings.length ++
      " diagnostic setting(s) (" ++ ", ".intercalate (settings.map DiagnosticSetting.named) ++
      "). A gm miner's Azure account must export nothing: a diagnostic setting is a sink for " ++
      "request data, and a disabled one can be enabled between two verification polls. Remove " ++
      "them, then redeploy:\n  az monitor diagnostic-settings delete --name '" ++ first ++
      "' --resource '" ++ resourceId ++ "'\n  az monitor diagnostic-settings list --resource '" ++
      resourceId ++ "'   # expect: []"))

/-- How a child is named: with its category, if it has one. -/
def ArmChildResource.named (child : ArmChildResource) : String :=
  match child.category with
  | some category => child.name ++ " (" ++ category ++ ")"
  | none => child.name

def assertNoCaptureChildren (provider : AzureProvider) (scope resourceId collection : String)
    (children : List ArmChildResource) : Except AnyError Unit :=
  if children.isEmpty then .ok ()
  else
    let base := "https://management.azure.com" ++ resourceId ++ "/" ++ collection
    let deletions := children.map fun child =>
      "  az rest --method delete --url \"" ++ base ++ "/" ++ child.name ++ "?api-version=" ++
        armApiVersion ++ "\""
    .error (.msg (provider.label ++ " " ++ scope ++ " has " ++ toString children.length ++ " " ++
      collection ++ " (" ++ ", ".intercalate (children.map ArmChildResource.named) ++
      "). A gm miner's Azure account must have none — they are the sinks prompt content would be " ++
      "captured to, and Azure attaches an Application Insights connection to every AI Foundry " ++
      "resource created through the portal. Remove them, then redeploy:\n" ++
      "\n".intercalate deletions ++ "\n  az rest --method get --url \"" ++ base ++
      "?api-version=" ++ armApiVersion ++ "\" # expect: value == []"))

/-! ### Deployment bindings -/

/-- `AzureDeployment`. -/
structure AzureDeployment where
  name : String
  format : Option String
  model : Option String
  version : Option String
  deriving DecidableEq, Repr

namespace AzureDeployment

/-- `AzureDeployment::from`. -/
def ofArm (deployment : ArmDeployment) : AzureDeployment :=
  ⟨deployment.name, deployment.model.format, deployment.model.name, deployment.model.version⟩

def verifyBinding (deployment : AzureDeployment) (provider : AzureProvider) :
    Except AnyError Bool :=
  if !provider.catalogIds.contains deployment.name then .ok false
  else
    let format := deployment.format.getD "<missing>"
    let model := deployment.model.getD "<missing>"
    if format != provider.modelFormat || model != deployment.name then
      .error (.msg (provider.label ++ " deployment '" ++ deployment.name ++
        "' has ARM model.format '" ++ format ++ "' and model.name '" ++ model ++
        "'; expected format '" ++ provider.modelFormat ++ "' and exact model name '" ++
        deployment.name ++ "'. Correct the deployment identity; see docs/foundry-setup.md for " ++
        "Foundry replacement instructions. This catalog-named mismatch takes the worker offline"))
    else .ok true

end AzureDeployment

def assertDeploymentBindings (provider : AzureProvider) :
    List ArmDeployment → Except AnyError Unit
  | [] => .ok ()
  | deployment :: rest =>
      match (AzureDeployment.ofArm deployment).verifyBinding provider with
      | .ok _ => assertDeploymentBindings provider rest
      | .error error => .error error

/-! ### Streaming -/

/-- The deployments Azure's RAI filter governs, and how many others there are. -/
def splitAzureGovernedDeployments (all : List ArmDeployment) : List ArmDeployment × Nat :=
  (all.filter fun deployment => deployment.model.format != some anthropicModelFormat,
    (all.filter fun deployment => deployment.model.format == some anthropicModelFormat).length)

/-- The policy a deployment names, trimmed. -/
def ArmDeployment.policyName (deployment : ArmDeployment) : Option String :=
  (deployment.raiPolicyName.map trimmed).filter fun name => !name.isEmpty

/-- The policy a deployment references, as it stands. -/
def ArmDeployment.referencedPolicy (deployment : ArmDeployment) : Option String :=
  deployment.raiPolicyName.filter fun name => !isBlank name

/-- Policies by name, with the modes read: a `BTreeMap`. -/
abbrev PolicyModes := List (String × Option String)

def retainObservableDeployments (deployments : List ArmDeployment) (policyModes : PolicyModes) :
    List ArmDeployment :=
  deployments.filter fun deployment =>
    match deployment.policyName with
    | none => true
    | some policy => (policyModes.lookup policy).isSome

inductive StreamingConfigViolation
  | missingRaiPolicy (deployment : String)
  | synchronousMode (policy : String) (mode : Option String) (deployments : List String)
  deriving DecidableEq, Repr

structure StreamingConfigAssessment where
  deploymentCount : Nat
  checkedPolicyCount : Nat
  violations : List StreamingConfigViolation
  deriving DecidableEq, Repr

def raiPolicyModeAllowsStreaming : Option String → Bool
  | some mode => mode == "Asynchronous_filter" || mode == "Deferred"
  | none => false

/-- How a deployment is named in an assessment. -/
def ArmDeployment.assessedName (deployment : ArmDeployment) : String :=
  if isBlank deployment.name then "<unnamed>" else deployment.name

/-- The deployments of each policy, in order. -/
def deploymentsByPolicy : List ArmDeployment → List (String × List String)
  | [] => []
  | deployment :: rest =>
      let later := deploymentsByPolicy rest
      match deployment.policyName with
      | some policy =>
          SortedMap.insert policy
            (deployment.assessedName :: (later.lookup policy).getD []) later
      | none => later

def assessStreamingConfiguration (deployments : List ArmDeployment) (policyModes : PolicyModes) :
    StreamingConfigAssessment :=
  let missing := deployments.filterMap fun deployment =>
    match deployment.policyName with
    | some _ => none
    | none => some (.missingRaiPolicy deployment.assessedName)
  let synchronous := (deploymentsByPolicy deployments).filterMap fun entry =>
    let mode := (policyModes.lookup entry.1).getD none
    if raiPolicyModeAllowsStreaming mode then none
    else some (.synchronousMode entry.1 mode entry.2)
  ⟨deployments.length, policyModes.length, missing ++ synchronous⟩

def StreamingConfigViolation.message : StreamingConfigViolation → String
  | missingRaiPolicy deployment =>
      "deployment '" ++ deployment ++ "' has no properties.raiPolicyName"
  | synchronousMode policy mode deployments =>
      "deployment(s) '" ++ ", ".intercalate deployments ++ "' reference RAI policy '" ++ policy ++
        "' with synchronous mode '" ++ mode.getD "<missing>" ++ "'"

def logStreamingAssessment (assessment : StreamingConfigAssessment) : Except AnyError Unit :=
  if assessment.deploymentCount == 0 then .ok ()
  else if assessment.violations.isEmpty then .ok ()
  else .error (.msg ("Azure OpenAI streaming configuration failed: " ++
    "; ".intercalate (assessment.violations.map StreamingConfigViolation.message)))

/-! ### What the deployment checks find -/

/-- A deployment named as in the catalog that is not that model in the adapter's format. -/
def Unbound (provider : AzureProvider) (deployment : ArmDeployment) : Prop :=
  deployment.name ∈ provider.catalogIds ∧
    (deployment.model.format ≠ some provider.modelFormat ∨
      deployment.model.name ≠ some deployment.name)

theorem getD_bne {found : Option String} {default wanted : String} (other : default ≠ wanted) :
    (found.getD default != wanted) = true ↔ found ≠ some wanted := by
  cases found with
  | none => simpa using other
  | some value => simp

/-- The check fails with a text exactly of an unbound row. -/
theorem AzureDeployment.verifyBinding_cases (provider : AzureProvider)
    (deployment : ArmDeployment) :
    (Unbound provider deployment ∧ ∃ text,
      (AzureDeployment.ofArm deployment).verifyBinding provider = .error (.msg text)) ∨
    (¬ Unbound provider deployment ∧ ∃ named,
      (AzureDeployment.ofArm deployment).verifyBinding provider = .ok named) := by
  have missing : ∀ name ∈ provider.catalogIds, "<missing>" ≠ name := by
    cases provider <;> decide
  have noFormat : "<missing>" ≠ provider.modelFormat := by
    cases provider <;> decide
  unfold verifyBinding ofArm Unbound
  dsimp only
  by_cases named : deployment.name ∈ provider.catalogIds
  · rw [if_neg (by simpa using named)]
    by_cases differs : deployment.model.format ≠ some provider.modelFormat ∨
        deployment.model.name ≠ some deployment.name
    · rw [if_pos (by
        rw [Bool.or_eq_true, getD_bne noFormat, getD_bne (missing _ named)]
        exact differs)]
      exact .inl ⟨⟨named, differs⟩, _, rfl⟩
    · rw [if_neg (by
        rw [Bool.or_eq_true, getD_bne noFormat, getD_bne (missing _ named)]
        exact differs)]
      exact .inr ⟨fun unbound => differs unbound.2, _, rfl⟩
  · rw [if_pos (by simpa using named)]
    exact .inr ⟨fun unbound => named unbound.1, _, rfl⟩

namespace ArmDeployment

variable {deployment : ArmDeployment}

theorem policyName_of_referenced {name : String}
    (named : deployment.referencedPolicy = some name) :
    deployment.policyName = some (trimmed name) := by
  obtain ⟨held, notBlank⟩ := Option.filter_eq_some_iff.mp named
  unfold policyName
  rw [held, Option.map_some]
  refine Option.filter_eq_some_iff.mpr ⟨rfl, ?_⟩
  simpa [trimmed, isBlank] using notBlank

/-- A row has no policy name exactly if it names none. -/
theorem policyName_eq_none : deployment.policyName = none ↔ deployment.referencedPolicy = none := by
  constructor
  · intro none_
    cases named : deployment.referencedPolicy with
    | none => rfl
    | some name =>
        rw [policyName_of_referenced named] at none_
        cases none_
  · intro none_
    unfold policyName
    refine Option.filter_eq_none_iff.mpr fun name held notEmpty => ?_
    obtain ⟨raw, same, rfl⟩ := Option.map_eq_some_iff.mp held
    refine Option.filter_eq_none_iff.mp none_ raw same ?_
    simpa [trimmed, isBlank] using notEmpty

end ArmDeployment

/-- A row is listed under the policy it names. -/
theorem lookup_deploymentsByPolicy {deployments : List ArmDeployment} {deployment : ArmDeployment}
    {policy : String} (row : deployment ∈ deployments)
    (named : deployment.policyName = some policy) :
    ∃ names, (deploymentsByPolicy deployments).lookup policy = some names ∧
      deployment.assessedName ∈ names := by
  induction deployments with
  | nil => cases row
  | cons first rest ih =>
      unfold deploymentsByPolicy
      dsimp only
      rcases List.mem_cons.mp row with rfl | later
      · rw [named]
        exact ⟨_, by rw [SortedMap.lookup_insert, if_pos rfl], List.mem_cons_self⟩
      · obtain ⟨names, found, inside⟩ := ih later
        cases firstNamed : first.policyName with
        | none => exact ⟨names, found, inside⟩
        | some other =>
            dsimp only
            rw [SortedMap.lookup_insert]
            by_cases same : policy = other
            · subst same
              exact ⟨_, if_pos rfl, by
                rw [found, Option.getD_some]
                exact List.mem_cons_of_mem _ inside⟩
            · exact ⟨names, by rw [if_neg same, found], inside⟩

/-- A policy listed is named by some row. -/
theorem named_of_mem_deploymentsByPolicy {deployments : List ArmDeployment} {policy : String}
    {names : List String} (mem : (policy, names) ∈ deploymentsByPolicy deployments) :
    ∃ deployment ∈ deployments, deployment.policyName = some policy := by
  induction deployments generalizing names with
  | nil => cases mem
  | cons first rest ih =>
      unfold deploymentsByPolicy at mem
      dsimp only at mem
      cases firstNamed : first.policyName with
      | none =>
          rw [firstNamed] at mem
          obtain ⟨deployment, row, named⟩ := ih mem
          exact ⟨deployment, List.mem_cons_of_mem _ row, named⟩
      | some other =>
          rw [firstNamed] at mem
          rcases SortedMap.mem_insert mem with same | later
          · cases same
            exact ⟨first, List.mem_cons_self, firstNamed⟩
          · obtain ⟨deployment, row, named⟩ := ih later
            exact ⟨deployment, List.mem_cons_of_mem _ row, named⟩

section Streaming

variable {deployments : List ArmDeployment} {modes : PolicyModes}

/-- What the streaming check judges: the governed deployments whose verdict is observable. -/
def observableViolations (deployments : List ArmDeployment) (modes : PolicyModes) :
    List StreamingConfigViolation :=
  (assessStreamingConfiguration (retainObservableDeployments deployments modes) modes).violations

theorem missing_mem_violations {deployment : ArmDeployment} (row : deployment ∈ deployments)
    (unnamed : deployment.referencedPolicy = none) :
    .missingRaiPolicy deployment.assessedName ∈ observableViolations deployments modes := by
  have none_ := ArmDeployment.policyName_eq_none.mpr unnamed
  refine List.mem_append_left _ (List.mem_filterMap.mpr ⟨deployment, ?_, by rw [none_]⟩)
  exact List.mem_filter.mpr ⟨row, by rw [none_]⟩

/-- A policy whose mode holds the stream back is a violation. -/
theorem synchronous_mem_violations {deployment : ArmDeployment} {policy : String}
    {mode : Option String} (row : deployment ∈ deployments)
    (named : deployment.policyName = some policy) (resolved : modes.lookup policy = some mode)
    (sync : raiPolicyModeAllowsStreaming mode = false) :
    ∃ names, .synchronousMode policy mode names ∈ observableViolations deployments modes ∧
      deployment.assessedName ∈ names := by
  have kept : deployment ∈ retainObservableDeployments deployments modes :=
    List.mem_filter.mpr ⟨row, by
      rw [named]
      exact Option.isSome_iff_exists.mpr ⟨mode, resolved⟩⟩
  obtain ⟨names, found, inside⟩ := lookup_deploymentsByPolicy kept named
  have listed : (policy, names) ∈ deploymentsByPolicy (retainObservableDeployments deployments modes) := by
    obtain ⟨before, after, split, -⟩ := List.lookup_eq_some_iff.mp found
    rw [split]
    exact List.mem_append_right _ List.mem_cons_self
  refine ⟨names, List.mem_append_right _ (List.mem_filterMap.mpr ⟨(policy, names), listed, ?_⟩),
    inside⟩
  rw [resolved, Option.getD_some, if_neg (by rw [sync]; exact Bool.false_ne_true)]

/-- A violation is of one of these two kinds. -/
theorem violation_cases {violation : StreamingConfigViolation}
    (mem : violation ∈ observableViolations deployments modes) :
    (∃ deployment ∈ deployments, deployment.referencedPolicy = none ∧
      violation = .missingRaiPolicy deployment.assessedName) ∨
    ∃ policy mode names, violation = .synchronousMode policy mode names ∧
      modes.lookup policy = some mode ∧ raiPolicyModeAllowsStreaming mode = false ∧
      ∃ deployment ∈ deployments, deployment.policyName = some policy := by
  rcases List.mem_append.mp mem with missing | synchronous
  · obtain ⟨deployment, row, same⟩ := List.mem_filterMap.mp missing
    cases named : deployment.policyName with
    | some policy =>
        rw [named] at same
        cases same
    | none =>
        rw [named] at same
        cases same
        exact .inl ⟨deployment, (List.mem_filter.mp row).1,
          ArmDeployment.policyName_eq_none.mp named, rfl⟩
  · obtain ⟨⟨policy, names⟩, entry, same⟩ := List.mem_filterMap.mp synchronous
    dsimp only at same
    split at same
    · cases same
    · rename_i sync
      cases same
      obtain ⟨deployment, row, named⟩ := named_of_mem_deploymentsByPolicy entry
      have resolved := (List.mem_filter.mp row).2
      rw [named] at resolved
      obtain ⟨mode, found⟩ := Option.isSome_iff_exists.mp resolved
      rw [found, Option.getD_some] at sync ⊢
      exact .inr ⟨policy, mode, names, rfl, found, Bool.eq_false_iff.mpr sync, deployment,
        (List.mem_filter.mp row).1, named⟩

/-- The streaming check fails exactly if it has a violation. -/
theorem logStreamingAssessment_cases (deployments : List ArmDeployment) (modes : PolicyModes) :
    (observableViolations deployments modes = [] ∧ logStreamingAssessment
      (assessStreamingConfiguration (retainObservableDeployments deployments modes) modes) =
        .ok ()) ∨
    (observableViolations deployments modes ≠ [] ∧ ∃ error, logStreamingAssessment
      (assessStreamingConfiguration (retainObservableDeployments deployments modes) modes) =
        .error error) := by
  unfold logStreamingAssessment
  by_cases none_ : observableViolations deployments modes = []
  · refine .inl ⟨none_, ?_⟩
    split
    · rfl
    · exact if_pos (List.isEmpty_iff.mpr none_)
  · refine .inr ⟨none_, ?_⟩
    have some_ : retainObservableDeployments deployments modes ≠ [] := by
      intro empty
      refine none_ ?_
      unfold observableViolations
      rw [empty]
      rfl
    split
    · rename_i zero
      exact absurd (List.eq_nil_of_length_eq_zero (eq_of_beq zero)) some_
    split
    · rename_i empty
      exact absurd (List.isEmpty_iff.mp empty) none_
    · exact ⟨_, rfl⟩

end Streaming

end GmMiner.Azure
