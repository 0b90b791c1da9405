import GmMiner.Azure.Checks

/-!
The full sweep of one Azure account (`AzureAudit`, `audit_target` and `sweep` of
`azure-verify/src/lib.rs`).

A step of the sweep takes the audit and the history so far and gives them back with
what it added, and with the failure that stopped it, if one did.
-/

namespace GmMiner.Azure

open GmMiner.Lib

def captureCollections : List String := ["connections", "capabilityHosts"]

structure AzureAudit where
  provider : AzureProvider
  host : String
  resourceId : Option String
  projectsSwept : Nat
  sweptCompletely : Bool
  findings : List String
  deployments : List AzureDeployment
  bindingVerifiedAt : Option Instant
  deriving DecidableEq, Repr

namespace AzureAudit

def new (provider : AzureProvider) (host : String) : AzureAudit :=
  ⟨provider, host, none, 0, true, [], [], none⟩

def passed (audit : AzureAudit) : Bool := audit.findings.isEmpty

def push (audit : AzureAudit) (finding : String) : AzureAudit :=
  { audit with findings := audit.findings ++ [finding] }

def record (audit : AzureAudit) : Except AnyError Unit → AzureAudit
  | .ok () => audit
  | .error error => audit.push error.chain

def intoResult (audit : AzureAudit) : Except AnyError Unit :=
  if audit.findings.isEmpty then .ok () else .error (.msg ("\n".intercalate audit.findings))

def findingsOutrank (audit : AzureAudit) (transport : AnyError) : Except AnyError AzureAudit :=
  if audit.findings.isEmpty then .error transport
  else .ok ({ audit with sweptCompletely := false }.push
    ("the sweep stopped early — a later ARM read failed (" ++ transport.chain ++
      ") — so this account may hold capture surfaces beyond the ones listed above. What is " ++
      "listed above stands regardless, and must be cleared."))

end AzureAudit

/-- What a step of the sweep ends with. -/
abbrev Swept := Except AnyError Unit × AzureAudit × History

/-- `?`: a step that failed is the last. -/
def Swept.andThen (swept : Swept) (next : AzureAudit → History → Swept) : Swept :=
  match swept.1 with
  | .ok () => next swept.2.1 swept.2.2
  | .error error => (.error error, swept.2.1, swept.2.2)

@[simp] theorem Swept.andThen_ok (audit : AzureAudit) (reads : History)
    (next : AzureAudit → History → Swept) :
    Swept.andThen (.ok (), audit, reads) next = next audit reads := rfl

@[simp] theorem Swept.andThen_error (error : AnyError) (audit : AzureAudit) (reads : History)
    (next : AzureAudit → History → Swept) :
    Swept.andThen (.error error, audit, reads) next = (.error error, audit, reads) := rfl

/-- The end of a list read: its failure is let through. -/
def release (failure : Option AnyError) (audit : AzureAudit) (reads : History) : Swept :=
  match failure with
  | some failure => (.error failure, audit, reads)
  | none => (.ok (), audit, reads)

/-- What every read in one target's sweep needs. -/
structure Sweep where
  verifier : AzureVerifier
  config : AzureVerifyConfig
  endpoint : AzureEndpoint
  token : String

structure SweptScope where
  scope : ArmScope
  resourceId : String
  hasChildCollections : Bool
  deriving DecidableEq, Repr

namespace Sweep

variable (sweep : Sweep)

/-- One collection of a scope must be empty. -/
def auditCollection (swept : SweptScope) (collection : String) (audit : AzureAudit)
    (reads : History) : Swept :=
  let (children, reads) := sweep.verifier.fetchChildren sweep.config sweep.endpoint swept.scope
    collection sweep.token reads
  let audit := audit.record (assertNoCaptureChildren sweep.config.provider swept.scope.label
    swept.resourceId collection children.items)
  release children.failure audit reads

def auditCollections (swept : SweptScope) : List String → AzureAudit → History → Swept
  | [], audit, reads => (.ok (), audit, reads)
  | collection :: rest, audit, reads =>
      (sweep.auditCollection swept collection audit reads).andThen
        (auditCollections swept rest)

def auditScope (swept : SweptScope) (audit : AzureAudit) (reads : History) : Swept :=
  match sweep.verifier.fetchDiagnosticSettings swept.scope swept.resourceId sweep.token reads with
  | (.error error, reads) => (.error error, audit, reads)
  | (.ok diagnostics, reads) =>
      let audit := audit.record (assertNoDiagnosticCapture sweep.config.provider swept.scope.label
        swept.resourceId diagnostics)
      if swept.hasChildCollections then
        sweep.auditCollections swept captureCollections audit reads
      else (.ok (), audit, reads)

def auditProjects (resourceId : String) : List ArmChildResource → AzureAudit → History → Swept
  | [], audit, reads => (.ok (), audit, reads)
  | project :: rest, audit, reads =>
      (sweep.auditScope ⟨.project project.leafName,
        resourceId ++ "/projects/" ++ project.leafName, true⟩ audit reads).andThen
        (auditProjects resourceId rest)

def auditCaptureSurfaces (resourceId : String) (hasChildCollections : Bool) (audit : AzureAudit)
    (reads : History) : Swept :=
  let (projects, reads) :=
    if hasChildCollections then
      sweep.verifier.fetchChildren sweep.config sweep.endpoint .account "projects" sweep.token reads
    else (PagedRead.none_, reads)
  let audit := { audit with projectsSwept := projects.items.length }
  (sweep.auditScope ⟨.account, resourceId, hasChildCollections⟩ audit reads).andThen
    fun audit reads => (sweep.auditProjects resourceId projects.items audit reads).andThen
      (release projects.failure)

/-! ### Streaming -/

/-- The names of a `BTreeSet`, inserted one by one. -/
def referencedPolicyNames (deployments : List ArmDeployment) : List String :=
  ((deployments.filterMap ArmDeployment.referencedPolicy).foldl
    (fun names name => SortedMap.insert name () names) []).map Prod.fst

/-- The policies are read in order, until a read fails. -/
def readPolicies : List String → PolicyModes → History →
    PolicyModes × Option AnyError × History
  | [], modes, reads => (modes, none, reads)
  | name :: rest, modes, reads =>
      match sweep.verifier.fetchArmRaiPolicy sweep.config sweep.endpoint name sweep.token reads with
      | (.ok policy, reads) => readPolicies rest (SortedMap.insert name policy.mode modes) reads
      | (.error error, reads) => (modes, some error, reads)

def auditAsyncFilterConfiguration (read : PagedRead ArmDeployment) (audit : AzureAudit)
    (reads : History) : Swept :=
  let deployments := (splitAzureGovernedDeployments read.items).1
  let (policyModes, failed, reads) :=
    sweep.readPolicies (referencedPolicyNames deployments) [] reads
  let failure := read.failure.or failed
  let observable := retainObservableDeployments deployments policyModes
  let assessment := assessStreamingConfiguration observable policyModes
  release failure (audit.record (logStreamingAssessment assessment)) reads

/-! ### Deployments -/

/-- One finding for each deployment that does not bind. -/
def recordBindings (provider : AzureProvider) : List AzureDeployment → AzureAudit → AzureAudit
  | [], audit => audit
  | deployment :: rest, audit =>
      match deployment.verifyBinding provider with
      | .ok _ => recordBindings provider rest audit
      | .error error => recordBindings provider rest (audit.push error.toString)

/-- The deployment section of `sweep`, up to the binding check. -/
def auditDeploymentBindings (audit : AzureAudit) (reads : History) :
    PagedRead ArmDeployment × AzureAudit × History :=
  let (read, reads) :=
    sweep.verifier.fetchArmDeployments sweep.config sweep.endpoint sweep.token reads
  let findingsBefore := audit.findings.length
  let deployments := read.items.map AzureDeployment.ofArm
  let audit := recordBindings sweep.config.provider deployments
    { audit with deployments := deployments }
  let audit :=
    if read.failure.isNone && audit.findings.length == findingsBefore then
      { audit with bindingVerifiedAt := some (sweep.verifier.service.now reads) }
    else audit
  (read, audit, reads)

def auditDeployments (audit : AzureAudit) (reads : History) : Swept :=
  let (read, audit, reads) := sweep.auditDeploymentBindings audit reads
  match sweep.config.provider with
  | .openAi => sweep.auditAsyncFilterConfiguration read audit reads
  | .foundry => release read.failure audit reads

end Sweep

namespace AzureVerifier

variable (verifier : AzureVerifier)

/-- `sweep`, from the token on. -/
def sweep (config : AzureVerifyConfig) (endpoint : AzureEndpoint) (audit : AzureAudit)
    (reads : History) : Swept :=
  match verifier.fetchEntraToken config reads with
  | (.error error, reads) => (.error error, audit, reads)
  | (.ok token, reads) =>
      match verifier.fetchArmAccount config endpoint token reads with
      | (.error error, reads) => (.error error, audit, reads)
      | (.ok account, reads) =>
          match assertAccountBinding verifier.urls config.provider endpoint account with
          | .error error => (.ok (), audit.record (.error error), reads)
          | .ok resourceId =>
              let sweep : Sweep := ⟨verifier, config, endpoint, token⟩
              (sweep.auditCaptureSurfaces resourceId (account.kind == aiServicesKind)
                { audit with resourceId := some resourceId } reads).andThen sweep.auditDeployments

/-- What a finished sweep amounts to: a transport failure is weighed against the findings. -/
def settle : Swept → Except AnyError AzureAudit × History
  | (.ok (), audit, reads) => (.ok audit, reads)
  | (.error transport, audit, reads) => (audit.findingsOutrank transport, reads)

/-- `audit_target`, with everything it read. -/
def auditTarget (config : AzureVerifyConfig) : Except AnyError AzureAudit × History :=
  match parseAzureEndpoint verifier.urls config.provider config.endpoint with
  | .error error => (.error error, [])
  | .ok endpoint => settle (verifier.sweep config endpoint (.new config.provider endpoint.host) [])

end AzureVerifier

end GmMiner.Azure
