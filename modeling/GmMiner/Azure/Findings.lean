import GmMiner.Azure.Audit

/-!
What the verdict of an audit says about what its sweep read.

`Visible` is a violation that something read shows, `Reported` a finding about it.
`audit_reports_what_it_read`: findings and failures are as they should be exactly if
every synchronous policy read is judged under its trimmed name too.
-/

namespace GmMiner.Azure

open GmMiner.Lib

/-! ### Violations -/

/-- The failure of an outcome. -/
def failureOf {Doc : Type} : Except AnyError Doc → Option AnyError
  | .ok _ => none
  | .error error => some error

/-- The failure a read ended with. -/
def Read.failure : Read → Option AnyError
  | .token outcome => failureOf outcome
  | .account outcome => failureOf outcome
  | .diagnostics _ outcome => failureOf outcome
  | .children _ _ outcome => failureOf outcome
  | .childrenEnd _ _ failure => failure
  | .deployments outcome => failureOf outcome
  | .deploymentsEnd failure => failure
  | .policy _ outcome => failureOf outcome

/-- What an owner can do wrong. -/
inductive Violation
  /-- The account is not bound to the endpoint. -/
  | account (error : AnyError)
  | diagnostic (scope : ArmScope) (setting : DiagnosticSetting)
  | child (scope : ArmScope) (collection : String) (child : ArmChildResource)
  /-- A catalog-named deployment does not bind. -/
  | binding (deployment : ArmDeployment)
  | noPolicy (deployment : ArmDeployment)
  | synchronous (deployment : ArmDeployment) (policy : String) (mode : Option String)

/-- A deployment whose streaming Azure's RAI filter governs. -/
def AzureGoverned (provider : AzureProvider) (deployment : ArmDeployment) : Prop :=
  provider = .openAi ∧ deployment.model.format ≠ some anthropicModelFormat

/-- A violation that something read shows. -/
inductive Visible (urls : Urls) (config : AzureVerifyConfig) (reads : History) : Violation → Prop
  | account {endpoint account error}
      (parsed : parseAzureEndpoint urls config.provider config.endpoint = .ok endpoint)
      (read : .account (.ok account) ∈ reads)
      (unbound : assertAccountBinding urls config.provider endpoint account = .error error) :
      Visible urls config reads (.account error)
  | diagnostic {scope settings setting} (read : .diagnostics scope (.ok settings) ∈ reads)
      (held : setting ∈ settings) : Visible urls config reads (.diagnostic scope setting)
  | child {scope collection page child} (read : .children scope collection (.ok page) ∈ reads)
      (capture : collection ∈ captureCollections) (held : child ∈ page.value) :
      Visible urls config reads (.child scope collection child)
  | binding {page deployment} (read : .deployments (.ok page) ∈ reads)
      (row : deployment ∈ page.value) (unbound : Unbound config.provider deployment) :
      Visible urls config reads (.binding deployment)
  | noPolicy {page deployment} (read : .deployments (.ok page) ∈ reads)
      (row : deployment ∈ page.value) (governed : AzureGoverned config.provider deployment)
      (unnamed : deployment.referencedPolicy = none) :
      Visible urls config reads (.noPolicy deployment)
  | synchronous {page deployment name policy} (read : .deployments (.ok page) ∈ reads)
      (row : deployment ∈ page.value) (governed : AzureGoverned config.provider deployment)
      (named : deployment.referencedPolicy = some name)
      (policyRead : .policy name (.ok policy) ∈ reads)
      (sync : raiPolicyModeAllowsStreaming policy.mode = false) :
      Visible urls config reads (.synchronous deployment name policy.mode)

/-! ### Findings -/

/-- The deployments a read showed. -/
def Read.rows : Read → List ArmDeployment
  | .deployments (.ok page) => page.value
  | _ => []

/-- The policy modes with what a read showed of them. -/
def Read.addMode (modes : PolicyModes) : Read → PolicyModes
  | .policy name (.ok resolved) => SortedMap.insert name resolved.mode modes
  | _ => modes

/-- What the streaming check makes of everything read. -/
def streamingAssessment (reads : History) : StreamingConfigAssessment :=
  let deployments := (splitAzureGovernedDeployments (reads.flatMap Read.rows)).1
  let modes := reads.foldl Read.addMode []
  assessStreamingConfiguration (retainObservableDeployments deployments modes) modes

/-- The streaming check's finding lists a violation. -/
def StreamingReported (reads : History) (findings : List String)
    (listed : StreamingConfigViolation → Prop) : Prop :=
  (∃ violation ∈ (streamingAssessment reads).violations, listed violation) ∧
    ∃ error, logStreamingAssessment (streamingAssessment reads) = .error error ∧
      error.chain ∈ findings

/-- A finding of the check that the violation fails, over a list with the violation in it. -/
def Reported (provider : AzureProvider) (reads : History) (findings : List String) :
    Violation → Prop
  | .account error => error.chain ∈ findings
  | .diagnostic scope setting => ∃ resourceId settings error, setting ∈ settings ∧
      assertNoDiagnosticCapture provider scope.label resourceId settings = .error error ∧
      error.chain ∈ findings
  | .child scope collection child => ∃ resourceId children error, child ∈ children ∧
      assertNoCaptureChildren provider scope.label resourceId collection children =
        .error error ∧
      error.chain ∈ findings
  | .binding deployment => ∃ error,
      (AzureDeployment.ofArm deployment).verifyBinding provider = .error error ∧
      error.chain ∈ findings
  | .noPolicy deployment => StreamingReported reads findings fun violation =>
      violation = .missingRaiPolicy deployment.assessedName
  | .synchronous deployment name _ => StreamingReported reads findings fun violation =>
      ∃ mode names, violation = .synchronousMode (trimmed name) mode names ∧
        deployment.assessedName ∈ names

/-- What is reported is among the findings. -/
theorem Reported.nonempty {provider : AzureProvider} {reads : History} {findings : List String}
    {violation : Violation} (reported : Reported provider reads findings violation) :
    findings ≠ [] := by
  cases violation with
  | account error => exact List.ne_nil_of_mem reported
  | diagnostic scope setting =>
      obtain ⟨_, _, _, -, -, mem⟩ := reported
      exact List.ne_nil_of_mem mem
  | child scope collection child =>
      obtain ⟨_, _, _, -, -, mem⟩ := reported
      exact List.ne_nil_of_mem mem
  | binding deployment =>
      obtain ⟨_, -, mem⟩ := reported
      exact List.ne_nil_of_mem mem
  | noPolicy | synchronous =>
      obtain ⟨-, _, -, mem⟩ := reported
      exact List.ne_nil_of_mem mem

/-- What is reported stays so among more findings. -/
theorem Reported.more {provider : AzureProvider} {reads : History} {findings more : List String}
    {violation : Violation} (reported : Reported provider reads findings violation)
    (among : findings ⊆ more) : Reported provider reads more violation := by
  cases violation with
  | account error => exact among reported
  | diagnostic scope setting =>
      obtain ⟨resourceId, settings, error, held, failed, mem⟩ := reported
      exact ⟨resourceId, settings, error, held, failed, among mem⟩
  | child scope collection child =>
      obtain ⟨resourceId, children, error, held, failed, mem⟩ := reported
      exact ⟨resourceId, children, error, held, failed, among mem⟩
  | binding deployment =>
      obtain ⟨error, failed, mem⟩ := reported
      exact ⟨error, failed, among mem⟩
  | noPolicy | synchronous =>
      obtain ⟨listed, error, failed, mem⟩ := reported
      exact ⟨listed, error, failed, among mem⟩

/-! ### What a finished audit should be -/

/-- The verdict of an audit over what it read. -/
structure AuditIsRight (urls : Urls) (config : AzureVerifyConfig)
    (run : Except AnyError AzureAudit × History) : Prop where
  /-- It fails only if nothing read shows a violation. -/
  fails : ∀ error, run.1 = .error error → ∀ violation, ¬ Visible urls config run.2 violation
  /-- A visible violation makes an audit with findings, and every one is reported. -/
  reports : (∃ violation, Visible urls config run.2 violation) → ∃ audit, run.1 = .ok audit ∧
    audit.findings ≠ [] ∧
    (∀ violation, Visible urls config run.2 violation →
      Reported config.provider run.2 audit.findings violation) ∧
    ∃ error, audit.intoResult = .error error ∧ classifyVerificationError error = .definitive
  /-- With none visible, a failed read's failure is the audit's. -/
  transport : (∀ violation, ¬ Visible urls config run.2 violation) →
    (∃ read ∈ run.2, read.failure ≠ none) →
    ∃ read ∈ run.2, ∃ error, read.failure = some error ∧ run.1 = .error error
  /-- The binding counts as verified only after every page, and if every row binds. -/
  bound : ∀ audit, run.1 = .ok audit → audit.bindingVerifiedAt ≠ none →
    (∃ page, .deployments (.ok page) ∈ run.2 ∧ page.nextLink = none) ∧
    (.deploymentsEnd none ∈ run.2) ∧
    ∀ outcome, .deployments outcome ∈ run.2 → ∃ page, outcome = .ok page ∧
      ∀ deployment ∈ page.value, ¬ Unbound config.provider deployment

/-- A synchronous policy that a deployment references is also there under its trimmed
name, and synchronous. -/
def SynchronousUnderTrimmedName (urls : Urls) (config : AzureVerifyConfig) (reads : History) :
    Prop :=
  ∀ deployment name mode, Visible urls config reads (.synchronous deployment name mode) →
    ∃ policy, .policy (trimmed name) (.ok policy) ∈ reads ∧
      raiPolicyModeAllowsStreaming policy.mode = false

/-! ### Capture surfaces -/

def Read.isSurface : Read → Bool
  | .diagnostics .. => true
  | .children .. => true
  | .childrenEnd .. => true
  | _ => false

/-- What a step that reads capture surfaces adds: every one it saw is reported, it reports
nothing else, and it stops at a failure. -/
structure Adds (provider : AzureProvider) (audit : AzureAudit) (reads : History) (swept : Swept)
    (news : History) (found : List String) : Prop where
  reads_eq : swept.2.2 = reads ++ news
  findings_eq : swept.2.1.findings = audit.findings ++ found
  kept : swept.2.1.bindingVerifiedAt = audit.bindingVerifiedAt
  only : ∀ read ∈ news, read.isSurface = true
  diagnostics : ∀ {scope settings setting}, .diagnostics scope (.ok settings) ∈ news →
    setting ∈ settings → ∀ whole, Reported provider whole found (.diagnostic scope setting)
  children : ∀ {scope collection page child}, .children scope collection (.ok page) ∈ news →
    collection ∈ captureCollections → child ∈ page.value →
    ∀ whole, Reported provider whole found (.child scope collection child)
  sound : found ≠ [] →
    (∃ scope settings setting, .diagnostics scope (.ok settings) ∈ news ∧ setting ∈ settings) ∨
    ∃ scope collection page child, .children scope collection (.ok page) ∈ news ∧
      collection ∈ captureCollections ∧ child ∈ page.value
  fails : ∀ error, swept.1 = .error error → ∃ read ∈ news, read.failure = some error
  ends : swept.1 = .ok () → ∀ read ∈ news, read.failure = none

/-- A step over capture surfaces, whatever it reads. -/
def AddsSurfaces (provider : AzureProvider) (audit : AzureAudit) (reads : History)
    (swept : Swept) : Prop :=
  ∃ news found, Adds provider audit reads swept news found

/-- What holds of nothing read and nothing found. -/
theorem AddsSurfaces.nothing (provider : AzureProvider) (audit : AzureAudit) (reads : History) :
    AddsSurfaces provider audit reads (.ok (), audit, reads) :=
  ⟨[], [], {
    reads_eq := (List.append_nil _).symm
    findings_eq := (List.append_nil _).symm
    kept := rfl
    only := fun _ mem => nomatch mem
    diagnostics := fun mem => nomatch mem
    children := fun mem => nomatch mem
    sound := fun some_ => absurd rfl some_
    fails := fun _ failed => nomatch failed
    ends := fun _ _ mem => nomatch mem }⟩

/-- Two steps one after the other. -/
theorem AddsSurfaces.andThen {provider : AzureProvider} {audit : AzureAudit} {reads : History}
    {swept : Swept} {next : AzureAudit → History → Swept}
    (first : AddsSurfaces provider audit reads swept)
    (second : ∀ audit reads, AddsSurfaces provider audit reads (next audit reads)) :
    AddsSurfaces provider audit reads (swept.andThen next) := by
  obtain ⟨news, found, adds⟩ := first
  obtain ⟨outcome, audit', reads'⟩ := swept
  unfold Swept.andThen
  cases outcome with
  | error error => exact ⟨news, found, { adds with fails := adds.fails, ends := fun ok => nomatch ok }⟩
  | ok done =>
      -- Both parts ran: the reads and the findings are those of the first, then those of the
      -- second.
      obtain ⟨later, foundLater, more⟩ := second audit' reads'
      have noFailure := adds.ends rfl
      refine ⟨news ++ later, found ++ foundLater, ?_⟩
      constructor
      · exact more.reads_eq.trans (by rw [show reads' = reads ++ news from adds.reads_eq,
          List.append_assoc])
      · exact more.findings_eq.trans (by
          rw [show audit'.findings = audit.findings ++ found from adds.findings_eq,
            List.append_assoc])
      · exact more.kept.trans adds.kept
      · exact fun read mem => (List.mem_append.mp mem).elim (adds.only read) (more.only read)
      · intro scope settings setting mem held whole
        rcases List.mem_append.mp mem with here | there
        · exact (adds.diagnostics here held whole).more (List.subset_append_left _ _)
        · exact (more.diagnostics there held whole).more (List.subset_append_right _ _)
      · intro scope collection page child mem capture held whole
        rcases List.mem_append.mp mem with here | there
        · exact (adds.children here capture held whole).more (List.subset_append_left _ _)
        · exact (more.children there capture held whole).more (List.subset_append_right _ _)
      · intro some_
        -- What was found belongs to the first part unless that found nothing.
        by_cases none_ : found = []
        · rcases more.sound (by rwa [none_, List.nil_append] at some_) with
            ⟨scope, settings, setting, mem, held⟩ | ⟨scope, collection, page, child, mem, rest⟩
          · exact .inl ⟨scope, settings, setting, List.mem_append_right _ mem, held⟩
          · exact .inr ⟨scope, collection, page, child, List.mem_append_right _ mem, rest⟩
        · rcases adds.sound none_ with
            ⟨scope, settings, setting, mem, held⟩ | ⟨scope, collection, page, child, mem, rest⟩
          · exact .inl ⟨scope, settings, setting, List.mem_append_left _ mem, held⟩
          · exact .inr ⟨scope, collection, page, child, List.mem_append_left _ mem, rest⟩
      · intro error failed
        obtain ⟨read, mem, same⟩ := more.fails error failed
        exact ⟨read, List.mem_append_right _ mem, same⟩
      · intro ok read mem
        rcases List.mem_append.mp mem with here | there
        · exact noFailure read here
        · exact more.ends ok read there

/-- A collection's pages and its end. -/
theorem Adds.collection {provider : AzureProvider} {audit : AzureAudit} {reads : History}
    {scope : ArmScope} {collection : String}
    {pages : List (Except AnyError ArmChildList)} {read : PagedRead ArmChildResource}
    (pagesRead : PagesRead "Azure Foundry child resources" (fun _ => .ok ()) maxArmPages pages read)
    {found : List String} {findings : AzureAudit}
    (findings_eq : findings.findings = audit.findings ++ found)
    (kept : findings.bindingVerifiedAt = audit.bindingVerifiedAt)
    (reported : collection ∈ captureCollections → ∀ child ∈ read.items, ∀ whole,
      Reported provider whole found (.child scope collection child))
    (sound : found ≠ [] → collection ∈ captureCollections ∧ read.items ≠ []) :
    Adds provider audit reads
      (release read.failure findings
        (reads ++ pages.map (.children scope collection) ++
          [.childrenEnd scope collection read.failure]))
      (pages.map (.children scope collection) ++ [.childrenEnd scope collection read.failure])
      found := by
  have pageOf : ∀ {scope' collection' outcome}, Read.children scope' collection' outcome ∈
      pages.map (Read.children scope collection) ++
        [.childrenEnd scope collection read.failure] →
      scope' = scope ∧ collection' = collection ∧ outcome ∈ pages := by
    intro scope' collection' outcome mem
    rcases List.mem_append.mp mem with here | there
    · obtain ⟨outcome', inside, same⟩ := List.mem_map.mp here
      cases same
      exact ⟨rfl, rfl, inside⟩
    · cases List.mem_singleton.mp there
  have releases : ∀ reads, (release read.failure findings reads).2 = (findings, reads) := by
    intro reads
    cases read.failure <;> rfl
  constructor
  · rw [releases, List.append_assoc]
  · rw [releases, findings_eq]
  · rw [releases, kept]
  · intro entry mem
    rcases List.mem_append.mp mem with here | there
    · obtain ⟨outcome, -, rfl⟩ := List.mem_map.mp here
      rfl
    · rw [List.mem_singleton.mp there]
      rfl
  · intro scope' settings setting mem
    rcases List.mem_append.mp mem with here | there
    · obtain ⟨outcome, -, same⟩ := List.mem_map.mp here
      cases same
    · cases List.mem_singleton.mp there
  · intro scope' collection' page child mem capture held whole
    obtain ⟨rfl, rfl, inside⟩ := pageOf mem
    exact reported capture child (pagesRead.mem_items.mpr ⟨page, inside, held⟩) whole
  · intro some_
    obtain ⟨capture, items⟩ := sound some_
    obtain ⟨child, mem⟩ := List.exists_mem_of_ne_nil _ items
    obtain ⟨page, inside, held⟩ := pagesRead.mem_items.mp mem
    exact .inr ⟨scope, collection, page, child,
      List.mem_append_left _ (List.mem_map_of_mem inside), capture, held⟩
  · intro error failed
    refine ⟨.childrenEnd scope collection read.failure,
      List.mem_append_right _ (List.mem_singleton_self _), ?_⟩
    cases failure : read.failure with
    | none =>
        rw [failure] at failed
        cases failed
    | some held =>
        rw [failure] at failed
        cases failed
        rfl
  · intro ok entry mem
    -- Let go without a failure, the paged read has none, so none of its pages failed.
    have complete : read.failure = none := by
      cases failure : read.failure with
      | none => rfl
      | some held =>
          rw [failure] at ok
          cases ok
    rcases List.mem_append.mp mem with here | there
    · obtain ⟨error | page, inside, rfl⟩ := List.mem_map.mp here
      · rw [pagesRead.failure_of_error inside] at complete
        cases complete
      · rfl
    · rw [List.mem_singleton.mp there]
      exact complete

namespace Sweep

variable (sweep : Sweep)

/-- One collection's findings are of what its read showed. -/
theorem auditCollection_adds (swept : SweptScope) {collection : String}
    (capture : collection ∈ captureCollections) (audit : AzureAudit) (reads : History) :
    AddsSurfaces sweep.config.provider audit reads
      (sweep.auditCollection swept collection audit reads) := by
  obtain ⟨pages, read, pagesRead, same⟩ := sweep.verifier.fetchChildren_read sweep.config
    sweep.endpoint swept.scope collection sweep.token reads
  unfold auditCollection
  rw [same]
  dsimp only
  by_cases none_ : read.items = []
  · have passed : assertNoCaptureChildren sweep.config.provider swept.scope.label
        swept.resourceId collection read.items = .ok () := by
      rw [none_]
      exact if_pos rfl
    rw [passed]
    refine ⟨_, [], Adds.collection pagesRead (List.append_nil _).symm rfl ?_ fun some_ => ?_⟩
    · intro _ child mem
      rw [none_] at mem
      cases mem
    · exact absurd rfl some_
  · obtain ⟨error, failed⟩ : ∃ error, assertNoCaptureChildren sweep.config.provider
        swept.scope.label swept.resourceId collection read.items = .error error := by
      unfold assertNoCaptureChildren
      rw [if_neg (by simpa using none_)]
      exact ⟨_, rfl⟩
    rw [failed]
    refine ⟨_, [error.chain], Adds.collection pagesRead rfl rfl ?_ fun _ => ⟨capture, none_⟩⟩
    intro _ child mem _
    exact ⟨swept.resourceId, read.items, error, mem, failed, List.mem_singleton_self _⟩

/-- The collections in a row, by the reads of each. -/
theorem auditCollections_adds (swept : SweptScope) {collections : List String}
    (capture : collections ⊆ captureCollections) (audit : AzureAudit) (reads : History) :
    AddsSurfaces sweep.config.provider audit reads
      (sweep.auditCollections swept collections audit reads) := by
  induction collections generalizing audit reads with
  | nil => exact .nothing _ _ _
  | cons collection rest ih =>
      exact (sweep.auditCollection_adds swept (capture List.mem_cons_self) audit reads).andThen
        fun audit reads => ih (fun _ mem => capture (List.mem_cons_of_mem _ mem)) audit reads

/-- A read of diagnostic settings that did not fail. -/
theorem diagnostics_adds (swept : SweptScope) (settings : DiagnosticSettingsList)
    (audit : AzureAudit) (reads : History) :
    AddsSurfaces sweep.config.provider audit reads
      (.ok (), audit.record (assertNoDiagnosticCapture sweep.config.provider swept.scope.label
        swept.resourceId settings), reads ++ [.diagnostics swept.scope (.ok settings)]) := by
  have only : ∀ {read : Read}, read ∈ [Read.diagnostics swept.scope (.ok settings)] →
      read = .diagnostics swept.scope (.ok settings) := List.mem_singleton.mp
  have shows : ∀ {found : List String}, (∀ setting ∈ settings, ∀ whole, Reported
      sweep.config.provider whole found (.diagnostic swept.scope setting)) →
      ∀ {scope settings' setting}, Read.diagnostics scope (.ok settings') ∈
        [Read.diagnostics swept.scope (.ok settings)] → setting ∈ settings' →
      ∀ whole, Reported sweep.config.provider whole found (.diagnostic scope setting) := by
    intro found all scope settings' setting mem held
    cases only mem
    exact all setting held
  -- The check is on the list being empty, so every setting of a list is reported by the one
  -- finding.
  by_cases none_ : settings = []
  · have passed : assertNoDiagnosticCapture sweep.config.provider swept.scope.label
        swept.resourceId settings = .ok () := by
      rw [none_]
      exact if_pos rfl
    rw [passed]
    subst none_
    exact ⟨_, [], {
      reads_eq := rfl
      findings_eq := (List.append_nil _).symm
      kept := rfl
      only := fun read mem => by rw [only mem]; rfl
      diagnostics := shows fun _ mem => nomatch mem
      children := fun mem => nomatch only mem
      sound := fun some_ => absurd rfl some_
      fails := fun _ failed => nomatch failed
      ends := fun _ read mem => by rw [only mem]; rfl }⟩
  · obtain ⟨error, failed⟩ : ∃ error, assertNoDiagnosticCapture sweep.config.provider
        swept.scope.label swept.resourceId settings = .error error := by
      unfold assertNoDiagnosticCapture
      rw [if_neg (by simpa using none_)]
      exact ⟨_, rfl⟩
    obtain ⟨first, held⟩ := List.exists_mem_of_ne_nil _ none_
    rw [failed]
    exact ⟨_, [error.chain], {
      reads_eq := rfl
      findings_eq := rfl
      kept := rfl
      only := fun read mem => by rw [only mem]; rfl
      diagnostics := shows fun setting mem _ =>
        ⟨swept.resourceId, settings, error, mem, failed, List.mem_singleton_self _⟩
      children := fun mem => nomatch only mem
      sound := fun _ =>
        .inl ⟨swept.scope, settings, first, List.mem_singleton_self _, held⟩
      fails := fun _ failed => nomatch failed
      ends := fun _ read mem => by rw [only mem]; rfl }⟩

/-- One scope's findings are of what its reads showed. -/
theorem auditScope_adds (swept : SweptScope) (audit : AzureAudit) (reads : History) :
    AddsSurfaces sweep.config.provider audit reads (sweep.auditScope swept audit reads) := by
  unfold auditScope AzureVerifier.fetchDiagnosticSettings
  dsimp only
  cases sweep.verifier.diagnosticSettings swept.resourceId sweep.token reads with
  | error error =>
      have only : ∀ {read : Read}, read ∈ [Read.diagnostics swept.scope (.error error)] →
          read = .diagnostics swept.scope (.error error) := List.mem_singleton.mp
      exact ⟨_, [], {
        reads_eq := rfl
        findings_eq := (List.append_nil _).symm
        kept := rfl
        only := fun read mem => by rw [only mem]; rfl
        diagnostics := fun mem => nomatch only mem
        children := fun mem => nomatch only mem
        sound := fun some_ => absurd rfl some_
        fails := fun _ failed => by
          cases failed
          exact ⟨_, List.mem_singleton_self _, rfl⟩
        ends := fun ok => nomatch ok }⟩
  | ok settings =>
      have read := sweep.diagnostics_adds swept settings audit reads
      dsimp only
      split
      · have both := read.andThen fun audit reads =>
          sweep.auditCollections_adds swept (List.Subset.refl captureCollections) audit reads
        rw [Swept.andThen_ok] at both
        exact both
      · exact read

theorem auditProjects_adds (resourceId : String) (projects : List ArmChildResource)
    (audit : AzureAudit) (reads : History) :
    AddsSurfaces sweep.config.provider audit reads
      (sweep.auditProjects resourceId projects audit reads) := by
  induction projects generalizing audit reads with
  | nil => exact .nothing _ _ _
  | cons project rest ih => exact (sweep.auditScope_adds _ audit reads).andThen ih

end Sweep

/-- A list read whose failure is let through after the steps over what it listed. -/
theorem AddsSurfaces.releasing {provider : AzureProvider} {audit counted : AzureAudit}
    {reads listed : History} {failure : Option AnyError} {swept : Swept}
    (inner : AddsSurfaces provider counted (reads ++ listed) swept)
    (findings_eq : counted.findings = audit.findings)
    (kept : counted.bindingVerifiedAt = audit.bindingVerifiedAt)
    (only : ∀ read ∈ listed, read.isSurface = true)
    (noSettings : ∀ scope settings, .diagnostics scope (.ok settings) ∉ listed)
    (noCapture : ∀ scope collection page, .children scope collection (.ok page) ∈ listed →
      collection ∉ captureCollections)
    (failed : ∀ error, failure = some error → ∃ read ∈ listed, read.failure = some error)
    (complete : failure = none → ∀ read ∈ listed, read.failure = none) :
    AddsSurfaces provider audit reads (swept.andThen (release failure)) := by
  obtain ⟨news, found, adds⟩ := inner
  -- Letting go of the failure at the end changes the outcome only, neither audit nor reads.
  have same : (swept.andThen (release failure)).2 = swept.2 := by
    unfold Swept.andThen
    split
    · cases failure <;> rfl
    · rfl
  refine ⟨listed ++ news, found, ?_⟩
  constructor
  · rw [same, adds.reads_eq, List.append_assoc]
  · rw [same, adds.findings_eq, findings_eq]
  · rw [same, adds.kept, kept]
  · exact fun read mem => (List.mem_append.mp mem).elim (only read) (adds.only read)
  · intro scope settings setting mem held whole
    rcases List.mem_append.mp mem with here | there
    · exact absurd here (noSettings scope settings)
    · exact adds.diagnostics there held whole
  · intro scope collection page child mem capture held whole
    rcases List.mem_append.mp mem with here | there
    · exact absurd capture (noCapture scope collection page here)
    · exact adds.children there capture held whole
  · intro some_
    rcases adds.sound some_ with
      ⟨scope, settings, setting, mem, held⟩ | ⟨scope, collection, page, child, mem, rest⟩
    · exact .inl ⟨scope, settings, setting, List.mem_append_right _ mem, held⟩
    · exact .inr ⟨scope, collection, page, child, List.mem_append_right _ mem, rest⟩
  · intro error stopped
    unfold Swept.andThen at stopped
    split at stopped
    · cases failure with
      | none => cases stopped
      | some held =>
          cases stopped
          obtain ⟨read, mem, same⟩ := failed error rfl
          exact ⟨read, List.mem_append_left _ mem, same⟩
    · rename_i inside
      cases stopped
      obtain ⟨read, mem, same⟩ := adds.fails error inside
      exact ⟨read, List.mem_append_right _ mem, same⟩
  · intro ok read mem
    unfold Swept.andThen at ok
    split at ok
    · rename_i inside
      cases failure with
      | none =>
          rcases List.mem_append.mp mem with here | there
          · exact complete rfl read here
          · exact adds.ends inside read there
      | some held => cases ok
    · cases ok

/-- The resource's own surfaces, then those of its projects. -/
theorem Sweep.auditCaptureSurfaces_adds (sweep : Sweep) (resourceId : String)
    (hasChildCollections : Bool) (audit : AzureAudit) (reads : History) :
    AddsSurfaces sweep.config.provider audit reads
      (sweep.auditCaptureSurfaces resourceId hasChildCollections audit reads) := by
  -- The source nests the projects under the account; read in sequence, the failure is let go last.
  have assoc : ∀ (swept : Swept) (projects : List ArmChildResource) (failure : Option AnyError),
      swept.andThen (fun audit reads =>
        (sweep.auditProjects resourceId projects audit reads).andThen (release failure)) =
      (swept.andThen (sweep.auditProjects resourceId projects)).andThen (release failure) := by
    rintro ⟨error | done, audit, reads⟩ projects failure
    · rfl
    · rfl
  have steps : ∀ (projects : List ArmChildResource) (audit : AzureAudit) (reads : History),
      AddsSurfaces sweep.config.provider audit reads ((sweep.auditScope
        ⟨.account, resourceId, hasChildCollections⟩ audit reads).andThen
          (sweep.auditProjects resourceId projects)) := fun projects audit reads =>
    (sweep.auditScope_adds _ audit reads).andThen (sweep.auditProjects_adds resourceId projects)
  unfold auditCaptureSurfaces
  cases hasChildCollections with
  | false =>
      rw [if_neg Bool.false_ne_true]
      dsimp only
      rw [assoc]
      have none_ : AddsSurfaces sweep.config.provider audit reads
          (Swept.andThen _ (release none)) :=
        (steps [] { audit with projectsSwept := 0 } (reads ++ [])).releasing rfl rfl
          (fun _ mem => nomatch mem) (fun _ _ mem => nomatch mem) (fun _ _ _ mem => nomatch mem)
          (fun _ failed => nomatch failed) (fun _ _ mem => nomatch mem)
      rw [List.append_nil] at none_
      exact none_
  | true =>
      obtain ⟨pages, read, pagesRead, same⟩ := sweep.verifier.fetchChildren_read sweep.config
        sweep.endpoint .account "projects" sweep.token reads
      rw [if_pos rfl, same]
      dsimp only
      rw [assoc, List.append_assoc]
      refine (steps read.items { audit with projectsSwept := read.items.length } _).releasing rfl
        rfl ?_ ?_ ?_ ?_ ?_
      · intro entry mem
        rcases List.mem_append.mp mem with here | there
        · obtain ⟨outcome, -, rfl⟩ := List.mem_map.mp here
          rfl
        · rw [List.mem_singleton.mp there]
          rfl
      · intro scope settings mem
        rcases List.mem_append.mp mem with here | there
        · obtain ⟨outcome, -, same⟩ := List.mem_map.mp here
          cases same
        · cases List.mem_singleton.mp there
      · intro scope collection page mem
        rcases List.mem_append.mp mem with here | there
        · obtain ⟨outcome, -, same⟩ := List.mem_map.mp here
          cases same
          decide
        · cases List.mem_singleton.mp there
      · intro error failed
        exact ⟨_, List.mem_append_right _ (List.mem_singleton_self _), failed⟩
      · intro complete entry mem
        rcases List.mem_append.mp mem with here | there
        · obtain ⟨error | page, inside, rfl⟩ := List.mem_map.mp here
          · rw [pagesRead.failure_of_error inside] at complete
            cases complete
          · rfl
        · rw [List.mem_singleton.mp there]
          exact complete

/-! ### Policies -/

/-- A name looked up is named by some row. -/
theorem Sweep.mem_referencedPolicyNames {deployments : List ArmDeployment} {name : String}
    (mem : name ∈ referencedPolicyNames deployments) :
    ∃ deployment ∈ deployments, deployment.referencedPolicy = some name := by
  have kept : ∀ (names : List String) (entries : List (String × Unit)),
      (name, ()) ∈ names.foldl (fun names name => SortedMap.insert name () names) entries →
      name ∈ names ∨ (name, ()) ∈ entries := by
    intro names
    induction names with
    | nil => exact fun entries mem => .inr mem
    | cons first rest ih =>
        intro entries mem
        rcases ih _ mem with later | inserted
        · exact .inl (List.mem_cons_of_mem _ later)
        · rcases SortedMap.mem_insert inserted with same | before
          · cases same
            exact .inl List.mem_cons_self
          · exact .inr before
  obtain ⟨⟨_, _⟩, entry, rfl⟩ := List.mem_map.mp mem
  rcases kept _ [] entry with named | none_
  · exact List.mem_filterMap.mp named
  · cases none_

/-- Every policy is looked up once. -/
theorem Sweep.nodup_referencedPolicyNames (deployments : List ArmDeployment) :
    (referencedPolicyNames deployments).Nodup := by
  have sorted : ∀ (names : List String) (entries : List (String × Unit)),
      SortedMap.Sorted entries →
      SortedMap.Sorted (names.foldl (fun names name => SortedMap.insert name () names) entries) := by
    intro names
    induction names with
    | nil => exact fun entries sorted => sorted
    | cons first rest ih => exact fun entries sorted => ih _ sorted.insert
  exact List.pairwise_map.mpr ((sorted _ [] List.Pairwise.nil).imp fun below => ne_of_lt below)

/-- The policies read, in order, with what each read came to: the names are a start of
those asked for, and a failure is the last. -/
theorem Sweep.readPolicies_read (sweep : Sweep) (names : List String) (modes : PolicyModes)
    (reads : History) :
    ∃ outcomes : List (String × Except AnyError ArmRaiPolicy),
      (outcomes.map Prod.fst).Sublist names ∧
      (sweep.readPolicies names modes reads).2.2 =
        reads ++ outcomes.map (fun outcome => .policy outcome.1 outcome.2) ∧
      (sweep.readPolicies names modes reads).1 =
        (outcomes.map fun outcome => Read.policy outcome.1 outcome.2).foldl Read.addMode modes ∧
      ∀ error, (sweep.readPolicies names modes reads).2.1 = some error ↔
        ∃ name, (name, .error error) ∈ outcomes := by
  induction names generalizing modes reads with
  | nil => exact ⟨[], .slnil, (List.append_nil _).symm, rfl, by simp [readPolicies]⟩
  | cons name rest ih =>
      unfold readPolicies AzureVerifier.fetchArmRaiPolicy
      dsimp only
      generalize getJson _ _ _ = outcome
      cases outcome with
      | error error =>
          refine ⟨[(name, .error error)], List.Sublist.cons_cons _ (List.nil_sublist _), rfl, rfl,
            fun error' => ?_⟩
          simp [eq_comm]
      | ok policy =>
          obtain ⟨outcomes, among, history, resolved, failed⟩ :=
            ih (SortedMap.insert name policy.mode modes) (reads ++ [.policy name (.ok policy)])
          refine ⟨(name, .ok policy) :: outcomes, among.cons_cons name, ?_, resolved,
            fun error => ?_⟩
          · dsimp only
            rw [history, List.append_assoc]
            rfl
          · rw [failed error]
            simp

/-- A mode on record was read, or was there before. -/
theorem mode_of_lookup {reads : History} {modes : PolicyModes} {name : String}
    {mode : Option String} (found : (reads.foldl Read.addMode modes).lookup name = some mode) :
    modes.lookup name = some mode ∨ .policy name (.ok ⟨mode⟩) ∈ reads := by
  induction reads generalizing modes with
  | nil => exact .inl found
  | cons read rest ih =>
      rcases ih found with before | later
      · have unchanged : (∃ other policy, read = .policy other (.ok policy)) ∨
            read.addMode modes = modes := by
          cases read with
          | policy other outcome =>
              cases outcome with
              | ok policy => exact .inl ⟨other, policy, rfl⟩
              | error error => exact .inr rfl
          | token | account | diagnostics | children | childrenEnd | deployments
          | deploymentsEnd => exact .inr rfl
        rcases unchanged with ⟨other, policy, rfl⟩ | same
        · change (SortedMap.insert other policy.mode modes).lookup name = some mode at before
          rw [SortedMap.lookup_insert] at before
          split at before
          · rename_i here
            cases before
            subst here
            exact .inr List.mem_cons_self
          · exact .inl before
        · change (read.addMode modes).lookup name = some mode at before
          rw [same] at before
          exact .inl before
      · exact .inr (List.mem_cons_of_mem _ later)

/-- A mode that was read is on record if the policy was answered in one way. -/
theorem lookup_of_mode {reads : History} {modes : PolicyModes} {name : String}
    {policy : ArmRaiPolicy} (only : ∀ other, .policy name (.ok other) ∈ reads → other = policy)
    (mem : modes.lookup name = some policy.mode ∨ .policy name (.ok policy) ∈ reads) :
    (reads.foldl Read.addMode modes).lookup name = some policy.mode := by
  induction reads generalizing modes with
  | nil =>
      rcases mem with found | none_
      · exact found
      · cases none_
  | cons read rest ih =>
      refine ih (fun other later => only other (List.mem_cons_of_mem _ later)) ?_
      -- Only a policy that was read changes the modes, and only the one of its name.
      by_cases here : ∃ other resolved, read = .policy other (.ok resolved)
      · obtain ⟨other, resolved, rfl⟩ := here
        by_cases same : name = other
        · subst same
          rw [only resolved List.mem_cons_self]
          exact .inl ((SortedMap.lookup_insert ..).trans (if_pos rfl))
        · rcases mem with found | named
          · exact .inl ((SortedMap.lookup_insert ..).trans ((if_neg same).trans found))
          · rcases List.mem_cons.mp named with first | later
            · cases first
              exact absurd rfl same
            · exact .inr later
      · have unchanged : read.addMode modes = modes := by
          cases read with
          | policy other outcome =>
              cases outcome with
              | ok resolved => exact absurd ⟨other, resolved, rfl⟩ here
              | error error => rfl
          | token | account | diagnostics | children | childrenEnd | deployments
          | deploymentsEnd => rfl
        rw [unchanged]
        rcases mem with found | named
        · exact .inl found
        · rcases List.mem_cons.mp named with first | later
          · exact absurd ⟨name, policy, first.symm⟩ here
          · exact .inr later

/-! ### Deployments -/

/-- The findings about deployments that do not bind. -/
def bindingFindings (provider : AzureProvider) (deployments : List AzureDeployment) :
    List String :=
  deployments.filterMap fun deployment =>
    match deployment.verifyBinding provider with
    | .ok _ => none
    | .error error => some error.toString

/-- The binding findings are those of the rows, in their order. -/
theorem Sweep.recordBindings_eq (provider : AzureProvider) (deployments : List AzureDeployment)
    (audit : AzureAudit) :
    recordBindings provider deployments audit =
      { audit with findings := audit.findings ++ bindingFindings provider deployments } := by
  induction deployments generalizing audit with
  | nil => exact congrArg (fun findings => { audit with findings }) (List.append_nil _).symm
  | cons deployment rest ih =>
      unfold recordBindings bindingFindings
      rw [List.filterMap_cons]
      cases deployment.verifyBinding provider with
      | ok named => exact ih audit
      | error error =>
          dsimp only
          rw [ih]
          unfold AzureAudit.push
          rw [List.append_assoc]
          rfl

/-- A binding finding is of an unbound row. -/
theorem mem_bindingFindings {provider : AzureProvider} {rows : List ArmDeployment}
    {finding : String} (mem : finding ∈ bindingFindings provider (rows.map .ofArm)) :
    ∃ deployment ∈ rows, Unbound provider deployment := by
  obtain ⟨row, inside, failed⟩ := List.mem_filterMap.mp mem
  obtain ⟨deployment, held, rfl⟩ := List.mem_map.mp inside
  rcases AzureDeployment.verifyBinding_cases provider deployment with
    ⟨unbound, -⟩ | ⟨-, named, passed⟩
  · exact ⟨deployment, held, unbound⟩
  · rw [passed] at failed
    cases failed

/-- An unbound row has its finding. -/
theorem bindingFinding_of_unbound {provider : AzureProvider} {rows : List ArmDeployment}
    {deployment : ArmDeployment} (held : deployment ∈ rows)
    (unbound : Unbound provider deployment) :
    ∃ error, (AzureDeployment.ofArm deployment).verifyBinding provider = .error error ∧
      error.chain ∈ bindingFindings provider (rows.map .ofArm) := by
  rcases AzureDeployment.verifyBinding_cases provider deployment with
    ⟨-, text, failed⟩ | ⟨bound, -⟩
  · refine ⟨_, failed, List.mem_filterMap.mpr ⟨_, List.mem_map_of_mem held, ?_⟩⟩
    rw [failed]
    rfl
  · exact absurd unbound bound

/-- The governed deployments of what was read. -/
def governedRows (reads : History) : List ArmDeployment :=
  (splitAzureGovernedDeployments (reads.flatMap Read.rows)).1

/-- The governed rows are those of the pages, less those of Anthropic's format. -/
theorem mem_governedRows {reads : History} {deployment : ArmDeployment} :
    deployment ∈ governedRows reads ↔
      (∃ page, .deployments (.ok page) ∈ reads ∧ deployment ∈ page.value) ∧
      deployment.model.format ≠ some anthropicModelFormat := by
  unfold governedRows splitAzureGovernedDeployments
  rw [List.mem_filter, List.mem_flatMap, bne_iff_ne]
  refine and_congr_left' ⟨?_, ?_⟩
  · rintro ⟨read, mem, row⟩
    cases read with
    | deployments outcome =>
        cases outcome with
        | ok page => exact ⟨page, mem, row⟩
        | error error => cases row
    | token | account | diagnostics | children | childrenEnd | policy | deploymentsEnd => cases row
  · rintro ⟨page, mem, row⟩
    exact ⟨_, mem, row⟩

/-- Whether a read is one of the deployment section. -/
def Read.isDeployment : Read → Bool
  | .deployments _ => true
  | .deploymentsEnd _ => true
  | .policy _ _ => true
  | _ => false

theorem Read.isDeployment_of_isSurface {read : Read} (surface : read.isSurface = true) :
    read.isDeployment = false := by
  cases read with
  | diagnostics | children | childrenEnd => rfl
  | token | account | deployments | deploymentsEnd | policy => cases surface

/-- Reads before the deployment section do not matter to the streaming check. -/
theorem streamingAssessment_append {before news : History}
    (other : ∀ read ∈ before, read.isDeployment = false) :
    streamingAssessment (before ++ news) = streamingAssessment news := by
  have rows : before.flatMap Read.rows = [] := by
    refine List.flatMap_eq_nil_iff.mpr fun read mem => ?_
    have no := other read mem
    cases read with
    | deployments => cases no
    | token | account | diagnostics | children | childrenEnd | policy | deploymentsEnd => rfl
  have modes : before.foldl Read.addMode [] = [] := by
    induction before with
    | nil => rfl
    | cons read rest ih =>
        have no := other read List.mem_cons_self
        have same : Read.addMode [] read = [] := by
          cases read with
          | policy => cases no
          | token | account | diagnostics | children | childrenEnd | deployments
          | deploymentsEnd => rfl
        rw [List.foldl_cons, same]
        refine ih (fun read mem => other read (List.mem_cons_of_mem _ mem)) ?_
        rw [List.flatMap_cons] at rows
        exact (List.append_eq_nil_iff.mp rows).2
  unfold streamingAssessment
  rw [List.flatMap_append, rows, List.foldl_append, modes, List.nil_append]

/-- What the deployment section adds. -/
structure AddsDeployments (provider : AzureProvider) (audit : AzureAudit) (reads : History)
    (swept : Swept) (news : History) (found : List String) : Prop where
  reads_eq : swept.2.2 = reads ++ news
  findings_eq : swept.2.1.findings = audit.findings ++ found
  only : ∀ read ∈ news, read.isDeployment = true
  bindings : ∀ {page deployment}, .deployments (.ok page) ∈ news → deployment ∈ page.value →
    Unbound provider deployment → ∃ error,
      (AzureDeployment.ofArm deployment).verifyBinding provider = .error error ∧
      error.chain ∈ found
  streaming : provider = .openAi → (streamingAssessment news).violations ≠ [] → ∃ error,
    logStreamingAssessment (streamingAssessment news) = .error error ∧ error.chain ∈ found
  sound : found ≠ [] →
    (∃ page deployment, .deployments (.ok page) ∈ news ∧ deployment ∈ page.value ∧
      Unbound provider deployment) ∨
    (provider = .openAi ∧ (streamingAssessment news).violations ≠ [])
  functional : ∀ {name policy other}, .policy name (.ok policy) ∈ news →
    .policy name (.ok other) ∈ news → other = policy
  referenced : ∀ {name outcome}, .policy name outcome ∈ news → provider = .openAi ∧
    ∃ deployment ∈ governedRows news, deployment.referencedPolicy = some name
  fails : ∀ error, swept.1 = .error error → ∃ read ∈ news, read.failure = some error
  ends : swept.1 = .ok () → ∀ read ∈ news, read.failure = none
  bound : swept.2.1.bindingVerifiedAt ≠ audit.bindingVerifiedAt →
    (∃ page, .deployments (.ok page) ∈ news ∧ page.nextLink = none) ∧
    (.deploymentsEnd none ∈ news) ∧
    ∀ outcome, .deployments outcome ∈ news → ∃ page, outcome = .ok page ∧
      ∀ deployment ∈ page.value, ¬ Unbound provider deployment

/-- The reads of a deployment list. -/
def listReads (pages : List (Except AnyError ArmDeploymentList)) (failure : Option AnyError) :
    History :=
  pages.map .deployments ++ [.deploymentsEnd failure]

section ListReads

variable {pages : List (Except AnyError ArmDeploymentList)} {failure : Option AnyError}

/-- The deployment reads are the pages. -/
theorem mem_listReads {outcome : Except AnyError ArmDeploymentList} :
    .deployments outcome ∈ listReads pages failure ↔ outcome ∈ pages := by
  constructor
  · intro mem
    rcases List.mem_append.mp mem with here | there
    · obtain ⟨outcome', inside, same⟩ := List.mem_map.mp here
      cases same
      exact inside
    · cases List.mem_singleton.mp there
  · exact fun inside => List.mem_append_left _ (List.mem_map_of_mem inside)

theorem listReads_only {read : Read} (mem : read ∈ listReads pages failure) :
    (∃ outcome ∈ pages, read = .deployments outcome) ∨ read = .deploymentsEnd failure := by
  rcases List.mem_append.mp mem with here | there
  · obtain ⟨outcome, inside, rfl⟩ := List.mem_map.mp here
    exact .inl ⟨outcome, inside, rfl⟩
  · exact .inr (List.mem_singleton.mp there)

theorem foldl_addMode_listReads (pages : List (Except AnyError ArmDeploymentList))
    (failure : Option AnyError) : (listReads pages failure).foldl Read.addMode [] = [] := by
  induction pages with
  | nil => rfl
  | cons page rest ih => exact ih

/-- The streaming assessment is of the rows of the pages and the modes read after
them. -/
theorem streamingAssessment_listReads (failure : Option AnyError) {label : String} {left : Nat}
    {read : PagedRead ArmDeployment} (pagesRead : PagesRead label (fun _ => .ok ()) left pages read)
    (outcomes : List (String × Except AnyError ArmRaiPolicy)) :
    streamingAssessment (listReads pages failure ++
      outcomes.map fun outcome => .policy outcome.1 outcome.2) =
    (let modes := (outcomes.map fun outcome => Read.policy outcome.1 outcome.2).foldl
      Read.addMode []
    assessStreamingConfiguration
      (retainObservableDeployments (splitAzureGovernedDeployments read.items).1 modes) modes) := by
  have rows : (listReads pages failure ++ outcomes.map fun outcome =>
      Read.policy outcome.1 outcome.2).flatMap Read.rows = read.items := by
    have none_ : (outcomes.map fun outcome => Read.policy outcome.1 outcome.2).flatMap Read.rows =
        [] := by
      refine List.flatMap_eq_nil_iff.mpr fun read mem => ?_
      obtain ⟨outcome, -, rfl⟩ := List.mem_map.mp mem
      rfl
    rw [List.flatMap_append, none_, List.append_nil, pagesRead.items_eq]
    unfold listReads
    rw [List.flatMap_append, List.flatMap_map]
    refine (List.append_nil _).trans (List.flatMap_congr fun outcome _ => ?_)
    cases outcome <;> rfl
  unfold streamingAssessment
  rw [rows, List.foldl_append, foldl_addMode_listReads]

end ListReads

theorem AzureAudit.record_findings (audit : AzureAudit) (verdict : Except AnyError Unit) :
    (audit.record verdict).findings =
      audit.findings ++ (failureOf verdict).toList.map AnyError.chain := by
  cases verdict with
  | ok done => exact (List.append_nil _).symm
  | error error => rfl

theorem AzureAudit.record_bindingVerifiedAt (audit : AzureAudit) (verdict : Except AnyError Unit) :
    (audit.record verdict).bindingVerifiedAt = audit.bindingVerifiedAt := by
  cases verdict <;> rfl

namespace Sweep

variable (sweep : Sweep)

/-- The binding check over the list read. -/
theorem auditDeploymentBindings_read (audit : AzureAudit) (reads : History) :
    ∃ pages read audit',
      PagesRead "Azure OpenAI deployments" (fun _ => .ok ()) maxArmPages pages read ∧
      sweep.auditDeploymentBindings audit reads =
        (read, audit', reads ++ listReads pages read.failure) ∧
      audit'.findings = audit.findings ++
        bindingFindings sweep.config.provider (read.items.map .ofArm) ∧
      (audit'.bindingVerifiedAt ≠ audit.bindingVerifiedAt → read.failure = none ∧
        bindingFindings sweep.config.provider (read.items.map .ofArm) = []) := by
  obtain ⟨pages, read, pagesRead, same⟩ := sweep.verifier.fetchArmDeployments_read sweep.config
    sweep.endpoint sweep.token reads
  unfold auditDeploymentBindings
  rw [same]
  dsimp only
  rw [recordBindings_eq, List.append_assoc]
  dsimp only
  split
  · rename_i verified
    obtain ⟨noFailure, noFinding⟩ := Bool.and_eq_true_iff.mp verified
    refine ⟨pages, read, _, pagesRead, rfl, rfl, fun _ =>
      ⟨Option.isNone_iff_eq_none.mp noFailure, ?_⟩⟩
    have lengths := eq_of_beq noFinding
    rw [List.length_append] at lengths
    exact List.eq_nil_of_length_eq_zero (Nat.add_eq_left.mp lengths)
  · exact ⟨pages, read, _, pagesRead, rfl, rfl, fun moved => absurd rfl moved⟩

/-- What holds of a list read and its findings, whatever comes after. -/
theorem listReads_facts (provider : AzureProvider) {label : String} {left : Nat}
    {pages : List (Except AnyError ArmDeploymentList)} {read : PagedRead ArmDeployment}
    (pagesRead : PagesRead label (fun _ => .ok ()) left pages read) :
    (∀ {page deployment}, .deployments (.ok page) ∈ listReads pages read.failure →
      deployment ∈ page.value → Unbound provider deployment → ∃ error,
        (AzureDeployment.ofArm deployment).verifyBinding provider = .error error ∧
        error.chain ∈ bindingFindings provider (read.items.map .ofArm)) ∧
    (bindingFindings provider (read.items.map .ofArm) ≠ [] → ∃ page deployment,
      .deployments (.ok page) ∈ listReads pages read.failure ∧ deployment ∈ page.value ∧
        Unbound provider deployment) ∧
    (read.failure = none → ∀ entry ∈ listReads pages read.failure, entry.failure = none) ∧
    (read.failure = none → bindingFindings provider (read.items.map .ofArm) = [] →
      (∃ page, .deployments (.ok page) ∈ listReads pages read.failure ∧ page.nextLink = none) ∧
      (.deploymentsEnd none ∈ listReads pages read.failure) ∧
      ∀ outcome, .deployments outcome ∈ listReads pages read.failure → ∃ page,
        outcome = .ok page ∧ ∀ deployment ∈ page.value, ¬ Unbound provider deployment) := by
  refine ⟨fun mem row unbound => ?_, fun some_ => ?_, fun complete entry mem => ?_,
    fun complete none_ => ⟨?_, ?_, fun outcome mem => ?_⟩⟩
  · exact bindingFinding_of_unbound
      (pagesRead.mem_items.mpr ⟨_, mem_listReads.mp mem, row⟩) unbound
  · obtain ⟨finding, mem⟩ := List.exists_mem_of_ne_nil _ some_
    obtain ⟨deployment, held, unbound⟩ := mem_bindingFindings mem
    obtain ⟨page, inside, row⟩ := pagesRead.mem_items.mp held
    exact ⟨page, deployment, mem_listReads.mpr inside, row, unbound⟩
  · rcases listReads_only mem with ⟨error | page, inside, rfl⟩ | rfl
    · rw [pagesRead.failure_of_error inside] at complete
      cases complete
    · rfl
    · exact complete
  · obtain ⟨page, inside, noLink⟩ := pagesRead.last_of_complete complete
    exact ⟨page, mem_listReads.mpr inside, noLink⟩
  · rw [complete]
    exact List.mem_append_right _ (List.mem_singleton_self _)
  · have inside := mem_listReads.mp mem
    cases outcome with
    | error error =>
        rw [pagesRead.failure_of_error inside] at complete
        cases complete
    | ok page =>
        refine ⟨page, rfl, fun deployment row unbound => ?_⟩
        obtain ⟨error, -, found⟩ := bindingFinding_of_unbound
          (pagesRead.mem_items.mpr ⟨page, inside, row⟩) unbound
        rw [none_] at found
        cases found

/-- The deployments' findings are of what the list and the policies showed. -/
theorem auditDeployments_adds (audit : AzureAudit) (reads : History) :
    ∃ news found, AddsDeployments sweep.config.provider audit reads
      (sweep.auditDeployments audit reads) news found := by
  obtain ⟨pages, read, audit', pagesRead, same, findings, moved⟩ :=
    sweep.auditDeploymentBindings_read audit reads
  obtain ⟨bindings, sound, complete, bound⟩ :=
    listReads_facts sweep.config.provider pagesRead
  unfold auditDeployments
  rw [same]
  dsimp only
  have releases : ∀ (failure : Option AnyError) (audit : AzureAudit) (reads : History),
      (release failure audit reads).2 = (audit, reads) := by
    intro failure audit reads
    cases failure <;> rfl
  have stops : ∀ {failure : Option AnyError} {audit : AzureAudit} {reads : History},
      (∀ error, (release failure audit reads).1 = .error error → failure = some error) ∧
        ((release failure audit reads).1 = .ok () → failure = none) := by
    intro failure audit reads
    cases failure with
    | none => exact ⟨fun _ failed => (nomatch failed), fun _ => rfl⟩
    | some held =>
        refine ⟨fun error failed => ?_, fun ok => nomatch ok⟩
        cases failed
        rfl
  have endMem : Read.deploymentsEnd read.failure ∈ listReads pages read.failure :=
    List.mem_append_right _ (List.mem_singleton_self _)
  have noPolicy : ∀ {name outcome}, Read.policy name outcome ∉ listReads pages read.failure := by
    intro name outcome mem
    rcases listReads_only mem with ⟨_, -, same⟩ | same <;> cases same
  cases provider : sweep.config.provider with
  | foundry =>
      rw [provider] at findings bindings sound bound moved
      refine ⟨listReads pages read.failure, bindingFindings .foundry (read.items.map .ofArm), ?_⟩
      constructor
      · rw [releases]
      · rw [releases, findings]
      · intro entry mem
        rcases listReads_only mem with ⟨_, -, rfl⟩ | rfl <;> rfl
      · exact bindings
      · intro other
        cases other
      · exact fun some_ => .inl (sound some_)
      · exact fun mem => absurd mem noPolicy
      · exact fun mem => absurd mem noPolicy
      · exact fun error failed => ⟨_, endMem, stops.1 error failed⟩
      · exact fun ok => complete (stops.2 ok)
      · intro verified
        rw [releases] at verified
        exact bound (moved verified).1 (moved verified).2
  | openAi =>
      rw [provider] at findings bindings sound bound moved
      obtain ⟨outcomes, among, history, resolved, failedIff⟩ := sweep.readPolicies_read
        (referencedPolicyNames (splitAzureGovernedDeployments read.items).1) []
        (reads ++ listReads pages read.failure)
      have assessed := streamingAssessment_listReads read.failure pagesRead outcomes
      unfold auditAsyncFilterConfiguration
      dsimp only
      rcases got : sweep.readPolicies
        (referencedPolicyNames (splitAzureGovernedDeployments read.items).1) []
        (reads ++ listReads pages read.failure) with ⟨modes, failed, after⟩
      rw [got] at history resolved failedIff
      dsimp only at history resolved failedIff ⊢
      dsimp only at assessed
      rw [← resolved] at assessed
      rw [← assessed]
      have verdicts := logStreamingAssessment_cases (splitAzureGovernedDeployments read.items).1 modes
      unfold observableViolations at verdicts
      rw [← assessed] at verdicts
      generalize news : listReads pages read.failure ++
        (outcomes.map fun outcome => Read.policy outcome.1 outcome.2) = all at assessed verdicts ⊢
      generalize reported : logStreamingAssessment (streamingAssessment all) = verdict at verdicts ⊢
      -- a read of the section is one of the list or one of a policy
      have cases_ : ∀ {entry}, entry ∈ all → entry ∈ listReads pages read.failure ∨
          ∃ outcome ∈ outcomes, entry = .policy outcome.1 outcome.2 := by
        intro entry mem
        rw [← news] at mem
        rcases List.mem_append.mp mem with listed | policy
        · exact .inl listed
        · obtain ⟨outcome, inside, rfl⟩ := List.mem_map.mp policy
          exact .inr ⟨outcome, inside, rfl⟩
      have listed : ∀ {entry}, entry ∈ listReads pages read.failure → entry ∈ all := by
        intro entry mem
        rw [← news]
        exact List.mem_append_left _ mem
      have paged : ∀ {outcome}, Read.deployments outcome ∈ all →
          Read.deployments outcome ∈ listReads pages read.failure := by
        intro outcome mem
        rcases cases_ mem with inside | ⟨policy, -, same⟩
        · exact inside
        · cases same
      have policyMem : ∀ {name outcome}, Read.policy name outcome ∈ all →
          (name, outcome) ∈ outcomes := by
        intro name outcome mem
        rcases cases_ mem with inside | ⟨⟨name', outcome'⟩, inside, same⟩
        · exact absurd inside noPolicy
        · cases same
          exact inside
      refine ⟨all, bindingFindings .openAi (read.items.map .ofArm) ++
        (failureOf verdict).toList.map AnyError.chain, ?_⟩
      constructor
      · rw [releases, history, List.append_assoc, news]
      · rw [releases, AzureAudit.record_findings, findings, List.append_assoc]
      · intro entry mem
        rcases cases_ mem with inside | ⟨policy, -, rfl⟩
        · rcases listReads_only inside with ⟨_, -, rfl⟩ | rfl <;> rfl
        · rfl
      · intro page deployment mem row unbound
        obtain ⟨error, failed, found⟩ := bindings (paged mem) row unbound
        exact ⟨error, failed, List.mem_append_left _ found⟩
      · intro _ some_
        rcases verdicts with ⟨none_, -⟩ | ⟨-, error, failed⟩
        · exact absurd none_ some_
        · refine ⟨error, reported.trans failed, List.mem_append_right _ ?_⟩
          rw [failed]
          exact List.mem_singleton_self _
      · intro some_
        rcases verdicts with ⟨-, passed⟩ | ⟨some_, -⟩
        · rw [passed] at some_
          obtain ⟨page, deployment, mem, row, unbound⟩ :=
            sound (fun none_ => some_ (by rw [none_]; rfl))
          exact .inl ⟨page, deployment, listed mem, row, unbound⟩
        · exact .inr ⟨rfl, some_⟩
      · intro name policy other mem mem'
        have nodup := among.nodup (nodup_referencedPolicyNames _)
        have same := List.inj_on_of_nodup_map nodup (policyMem mem) (policyMem mem') rfl
        cases same
        rfl
      · intro name outcome mem
        refine ⟨rfl, ?_⟩
        obtain ⟨deployment, held, named⟩ :=
          mem_referencedPolicyNames (among.subset (List.mem_map_of_mem (policyMem mem)))
        obtain ⟨inside, governed⟩ := List.mem_filter.mp held
        obtain ⟨page, paged, row⟩ := pagesRead.mem_items.mp inside
        exact ⟨deployment, mem_governedRows.mpr
          ⟨⟨page, listed (mem_listReads.mpr paged), row⟩, bne_iff_ne.mp governed⟩, named⟩
      · intro error stopped
        rcases Option.or_eq_some_iff.mp (stops.1 error stopped) with ofList | ⟨-, ofPolicy⟩
        · exact ⟨_, listed endMem, ofList⟩
        · obtain ⟨name, inside⟩ := (failedIff error).mp ofPolicy
          refine ⟨.policy name (.error error), ?_, rfl⟩
          rw [← news]
          exact List.mem_append_right _ (List.mem_map.mpr ⟨_, inside, rfl⟩)
      · intro ok entry mem
        obtain ⟨noList, noPolicyFailure⟩ := Option.or_eq_none_iff.mp (stops.2 ok)
        rcases cases_ mem with inside | ⟨⟨name, error | policy⟩, inside, rfl⟩
        · exact complete noList entry inside
        · rw [(failedIff error).mpr ⟨name, inside⟩] at noPolicyFailure
          cases noPolicyFailure
        · rfl
      · intro verified
        rw [releases, AzureAudit.record_bindingVerifiedAt] at verified
        obtain ⟨last, endRead, every⟩ := bound (moved verified).1 (moved verified).2
        obtain ⟨page, mem, noLink⟩ := last
        exact ⟨⟨page, listed mem, noLink⟩, listed endRead, fun outcome mem =>
          every outcome (paged mem)⟩

end Sweep

/-- A step that reads nothing adds nothing. -/
theorem AddsDeployments.nothing (provider : AzureProvider) (audit : AzureAudit)
    (reads : History) : AddsDeployments provider audit reads (.ok (), audit, reads) [] [] where
  reads_eq := (List.append_nil _).symm
  findings_eq := (List.append_nil _).symm
  only := fun _ mem => nomatch mem
  bindings := fun mem => nomatch mem
  streaming := fun _ some_ => absurd rfl some_
  sound := fun some_ => absurd rfl some_
  functional := fun mem => nomatch mem
  referenced := fun mem => nomatch mem
  fails := fun _ failed => nomatch failed
  ends := fun _ _ mem => nomatch mem
  bound := fun moved => absurd rfl moved

/-! ### The whole sweep -/

/-- What a sweep that came to an outcome says about what it read. -/
structure SweepFacts (urls : Urls) (config : AzureVerifyConfig) (outcome : Except AnyError Unit)
    (audit : AzureAudit) (reads : History) : Prop where
  reported : ∀ violation, Visible urls config reads violation →
    (∀ deployment name mode, violation = .synchronous deployment name mode →
      ∃ policy, .policy (trimmed name) (.ok policy) ∈ reads ∧
        raiPolicyModeAllowsStreaming policy.mode = false) →
    Reported config.provider reads audit.findings violation
  sound : audit.findings ≠ [] → ∃ violation, Visible urls config reads violation
  fails : ∀ error, outcome = .error error → ∃ read ∈ reads, read.failure = some error
  ends : outcome = .ok () → ∀ read ∈ reads, read.failure = none
  bound : audit.bindingVerifiedAt ≠ none →
    (∃ page, .deployments (.ok page) ∈ reads ∧ page.nextLink = none) ∧
    (.deploymentsEnd none ∈ reads) ∧
    ∀ outcome, .deployments outcome ∈ reads → ∃ page, outcome = .ok page ∧
      ∀ deployment ∈ page.value, ¬ Unbound config.provider deployment

/-- A synchronous policy is reported only under a trimmed name that was read. -/
theorem policy_of_reported {provider : AzureProvider} {reads : History} {findings : List String}
    {deployment : ArmDeployment} {name : String} {mode : Option String}
    (reported : Reported provider reads findings (.synchronous deployment name mode)) :
    ∃ policy, .policy (trimmed name) (.ok policy) ∈ reads ∧
      raiPolicyModeAllowsStreaming policy.mode = false := by
  obtain ⟨⟨violation, mem, mode', names, rfl, -⟩, -⟩ := reported
  rcases violation_cases mem with ⟨_, -, -, same⟩ | ⟨policy, resolved, _, same, found, sync, -⟩
  · cases same
  · cases same
    rcases mode_of_lookup found with none_ | read
    · cases none_
    · exact ⟨⟨mode'⟩, read, sync⟩

section Verdict

variable {urls : Urls} {config : AzureVerifyConfig}

/-- The facts about a sweep make the verdict right, if every synchronous policy is judged. -/
theorem SweepFacts.right {outcome : Except AnyError Unit} {audit : AzureAudit} {reads : History}
    (facts : SweepFacts urls config outcome audit reads)
    (judged : SynchronousUnderTrimmedName urls config reads) :
    AuditIsRight urls config (AzureVerifier.settle (outcome, audit, reads)) := by
  have reported : ∀ violation, Visible urls config reads violation →
      Reported config.provider reads audit.findings violation := by
    intro violation visible
    refine facts.reported violation visible fun deployment name mode same => ?_
    exact judged deployment name mode (same ▸ visible)
  have intoResult : ∀ audit : AzureAudit, audit.findings ≠ [] → ∃ error,
      audit.intoResult = .error error ∧ classifyVerificationError error = .definitive := by
    intro audit some_
    exact ⟨_, if_neg fun empty => some_ (List.isEmpty_iff.mp empty), rfl⟩
  cases outcome with
  | ok done =>
      refine ⟨fun _ failed => (nomatch failed), fun ⟨violation, visible⟩ => ?_,
        fun noneVisible ⟨read, mem, failed⟩ => ?_, fun audit' same verified => ?_⟩
      · have some_ := (reported violation visible).nonempty
        exact ⟨audit, rfl, some_, reported, intoResult audit some_⟩
      · exact absurd (facts.ends rfl read mem) failed
      · cases same
        exact facts.bound verified
  | error transport =>
      -- Findings outrank a failure: it is reported behind them, and alone only where there are
      -- none.
      by_cases none_ : audit.findings = []
      · have outranked : audit.findingsOutrank transport = .error transport :=
          if_pos (List.isEmpty_iff.mpr none_)
        unfold AzureVerifier.settle
        dsimp only
        rw [outranked]
        refine ⟨fun _ _ violation visible => (reported violation visible).nonempty none_,
          fun ⟨violation, visible⟩ => absurd none_ (reported violation visible).nonempty,
          fun _ _ => ?_, fun _ same => nomatch same⟩
        obtain ⟨read, mem, failed⟩ := facts.fails transport rfl
        exact ⟨read, mem, transport, failed, rfl⟩
      · obtain ⟨stopped, outranked, findings, verified⟩ : ∃ stopped,
            audit.findingsOutrank transport = .ok stopped ∧
            (∃ text, stopped.findings = audit.findings ++ [text]) ∧
            stopped.bindingVerifiedAt = audit.bindingVerifiedAt :=
          ⟨_, if_neg fun empty => none_ (List.isEmpty_iff.mp empty), ⟨_, rfl⟩, rfl⟩
        obtain ⟨text, findings⟩ := findings
        have some_ : stopped.findings ≠ [] := by
          rw [findings]
          exact List.append_ne_nil_of_right_ne_nil _ (List.cons_ne_nil _ _)
        unfold AzureVerifier.settle
        dsimp only
        rw [outranked]
        refine ⟨fun _ failed => (nomatch failed), fun _ => ⟨stopped, rfl, some_,
          fun violation visible => ?_, intoResult stopped some_⟩, fun noneVisible _ => ?_,
          fun audit' same moved => ?_⟩
        · rw [findings]
          exact (reported violation visible).more (List.subset_append_left _ _)
        · obtain ⟨violation, visible⟩ := facts.sound none_
          exact absurd visible (noneVisible violation)
        · cases same
          rw [verified] at moved
          exact facts.bound moved

/-- A right verdict judges every synchronous policy. -/
theorem AuditIsRight.judged {run : Except AnyError AzureAudit × History}
    (right : AuditIsRight urls config run) : SynchronousUnderTrimmedName urls config run.2 := by
  intro deployment name mode visible
  obtain ⟨audit, -, -, reported, -⟩ := right.reports ⟨_, visible⟩
  exact policy_of_reported (reported _ visible)

/-- The sweep of a bound account: its token and account, then the surfaces, then the
deployments, the last of them perhaps cut short. -/
theorem sweepFacts_of_bound {endpoint : AzureEndpoint} {account : ArmAccount} {resourceId : String}
    (parsed : parseAzureEndpoint urls config.provider config.endpoint = .ok endpoint)
    (isBound : assertAccountBinding urls config.provider endpoint account = .ok resourceId)
    (token : String) (outcome : Except AnyError Unit) (audit'' : AzureAudit)
    {news later : History} {found foundLater : List String} {audit audit' : AzureAudit}
    {reads reads' : History} {swept swept' : Swept}
    (first : Adds config.provider audit reads swept news found)
    (second : AddsDeployments config.provider audit' reads' swept' later foundLater)
    (findings_eq : audit''.findings = found ++ foundLater)
    (fails : ∀ error, outcome = .error error →
      (∃ read ∈ news, read.failure = some error) ∨ ∃ read ∈ later, read.failure = some error)
    (ends : outcome = .ok () →
      (∀ read ∈ news, read.failure = none) ∧ ∀ read ∈ later, read.failure = none)
    (verified : audit''.bindingVerifiedAt ≠ none →
      swept'.2.1.bindingVerifiedAt ≠ audit'.bindingVerifiedAt) :
    SweepFacts urls config outcome audit''
      ([.token (.ok token), .account (.ok account)] ++ news ++ later) := by
  have cases_ : ∀ {read}, read ∈ [Read.token (.ok token), .account (.ok account)] ++ news ++ later →
      read = .token (.ok token) ∨ read = .account (.ok account) ∨ read ∈ news ∨ read ∈ later := by
    intro read mem
    simp only [List.mem_append, List.mem_cons, List.not_mem_nil, or_false] at mem
    exact (or_assoc.mp mem).elim (fun start => start.elim .inl fun rest => .inr (.inl rest))
      fun rest => .inr (.inr rest)
  -- A read tells by its kind which half of the sweep it is from.
  have surface : ∀ {read}, read ∈ [Read.token (.ok token), .account (.ok account)] ++ news ++
      later → read.isSurface = true → read ∈ news := by
    intro read mem isSurface
    rcases cases_ mem with rfl | rfl | inside | inside
    · cases isSurface
    · cases isSurface
    · exact inside
    · exact absurd (second.only read inside)
        (Bool.eq_false_iff.mp (Read.isDeployment_of_isSurface isSurface))
  have deployment : ∀ {read}, read ∈ [Read.token (.ok token), .account (.ok account)] ++ news ++
      later → read.isDeployment = true → read ∈ later := by
    intro read mem isDeployment
    rcases cases_ mem with rfl | rfl | inside | inside
    · cases isDeployment
    · cases isDeployment
    · exact absurd isDeployment
        (Bool.eq_false_iff.mp (Read.isDeployment_of_isSurface (first.only read inside)))
    · exact inside
  have inLater : ∀ {read}, read ∈ later →
      read ∈ [Read.token (.ok token), .account (.ok account)] ++ news ++ later :=
    fun mem => List.mem_append_right _ mem
  have inNews : ∀ {read}, read ∈ news →
      read ∈ [Read.token (.ok token), .account (.ok account)] ++ news ++ later :=
    fun mem => List.mem_append_left _ (List.mem_append_right _ mem)
  have assessed : streamingAssessment
      ([Read.token (.ok token), .account (.ok account)] ++ news ++ later) =
      streamingAssessment later := by
    refine streamingAssessment_append fun read mem => ?_
    rcases List.mem_append.mp mem with start | inside
    · simp only [List.mem_cons, List.not_mem_nil, or_false] at start
      rcases start with rfl | rfl <;> rfl
    · exact Read.isDeployment_of_isSurface (first.only read inside)
  have streamed : config.provider = .openAi → ∀ violation ∈ (streamingAssessment later).violations,
      ∀ listed : StreamingConfigViolation → Prop, listed violation →
      StreamingReported ([Read.token (.ok token), .account (.ok account)] ++ news ++ later)
        audit''.findings listed := by
    intro openAi violation mem listed holds
    obtain ⟨error, failed, inFound⟩ := second.streaming openAi (List.ne_nil_of_mem mem)
    unfold StreamingReported
    rw [assessed, findings_eq]
    exact ⟨⟨violation, mem, holds⟩, error, failed, List.mem_append_right _ inFound⟩
  constructor
  · intro violation visible judged
    cases visible with
    | account parsed' read unbound =>
        rcases cases_ read with same | same | inside | inside
        · cases same
        · cases same
          cases parsed.symm.trans parsed'
          cases isBound.symm.trans unbound
        · cases first.only _ inside
        · cases second.only _ inside
    | diagnostic read held =>
        rw [findings_eq]
        exact (first.diagnostics (surface read rfl) held _).more (List.subset_append_left _ _)
    | child read capture held =>
        rw [findings_eq]
        exact (first.children (surface read rfl) capture held _).more (List.subset_append_left _ _)
    | binding read row unbound =>
        obtain ⟨error, failed, inFound⟩ := second.bindings (deployment read rfl) row unbound
        exact ⟨error, failed, by
          rw [findings_eq]
          exact List.mem_append_right _ inFound⟩
    | noPolicy read row governed unnamed =>
        exact streamed governed.1 _ (missing_mem_violations
          (mem_governedRows.mpr ⟨⟨_, deployment read rfl, row⟩, governed.2⟩) unnamed) _ rfl
    -- The mode was looked up by the trimmed name, which is why its policy has to be
    -- synchronous too.
    | synchronous read row governed named policyRead sync =>
        obtain ⟨policy, trimmedRead, trimmedSync⟩ := judged _ _ _ rfl
        have resolved := lookup_of_mode
          (fun other mem => second.functional (deployment trimmedRead rfl) mem)
          (.inr (deployment trimmedRead rfl) : List.lookup (trimmed _) [] = some policy.mode ∨ _)
        obtain ⟨names, mem, inside⟩ := synchronous_mem_violations
          (mem_governedRows.mpr ⟨⟨_, deployment read rfl, row⟩, governed.2⟩)
          (ArmDeployment.policyName_of_referenced named) resolved trimmedSync
        exact streamed governed.1 _ mem _ ⟨_, names, rfl, inside⟩
  · intro some_
    rw [findings_eq] at some_
    -- From the findings back to what was read: first the surfaces, else the deployments.
    by_cases none_ : found = []
    · rw [none_, List.nil_append] at some_
      rcases second.sound some_ with ⟨page, row, mem, held, unbound⟩ | ⟨openAi, violations⟩
      · exact ⟨_, .binding (inLater mem) held unbound⟩
      · obtain ⟨violation, mem⟩ := List.exists_mem_of_ne_nil _ violations
        rcases violation_cases mem with
          ⟨row, held, unnamed, -⟩ | ⟨policy, mode, _, -, resolved, sync, -⟩
        · obtain ⟨⟨page, paged, inside⟩, governed⟩ := mem_governedRows.mp held
          exact ⟨_, .noPolicy (inLater paged) inside ⟨openAi, governed⟩ unnamed⟩
        · rcases mode_of_lookup resolved with nothing | read
          · cases nothing
          · obtain ⟨-, row, held, named⟩ := second.referenced read
            obtain ⟨⟨page, paged, inside⟩, governed⟩ := mem_governedRows.mp held
            exact ⟨_, .synchronous (inLater paged) inside ⟨openAi, governed⟩ named (inLater read)
              sync⟩
    · rcases first.sound none_ with
        ⟨scope, settings, setting, mem, held⟩ | ⟨scope, collection, page, child, mem, capture, held⟩
      · exact ⟨_, .diagnostic (inNews mem) held⟩
      · exact ⟨_, .child (inNews mem) capture held⟩
  · intro error failed
    rcases fails error failed with ⟨read, mem, same⟩ | ⟨read, mem, same⟩
    · exact ⟨read, inNews mem, same⟩
    · exact ⟨read, inLater mem, same⟩
  · intro ok read mem
    rcases cases_ mem with rfl | rfl | inside | inside
    · rfl
    · rfl
    · exact (ends ok).1 read inside
    · exact (ends ok).2 read inside
  · intro moved
    obtain ⟨⟨page, mem, noLink⟩, endRead, every⟩ := second.bound (verified moved)
    exact ⟨⟨page, inLater mem, noLink⟩, inLater endRead, fun outcome read =>
      every outcome (deployment read rfl)⟩

/-- Whether a read can show a violation. -/
def Read.shows : Read → Bool
  | .account (.ok _) => true
  | read => read.isSurface || read.isDeployment

/-- A violation visible in the reads is shown by one of them. -/
theorem Visible.shown {reads : History} {violation : Violation}
    (visible : Visible urls config reads violation) : ∃ read ∈ reads, read.shows = true := by
  cases visible with
  | account _ read _ => exact ⟨_, read, rfl⟩
  | diagnostic read _ => exact ⟨_, read, rfl⟩
  | child read _ _ => exact ⟨_, read, rfl⟩
  | binding read _ _ => exact ⟨_, read, rfl⟩
  | noPolicy read _ _ _ => exact ⟨_, read, rfl⟩
  | synchronous read _ _ _ _ _ => exact ⟨_, read, rfl⟩

/-- A sweep that stopped before it had a bound account. -/
theorem sweepFacts_of_failed {error : AnyError} {audit : AzureAudit} {reads : History}
    (clean : audit.findings = [] ∧ audit.bindingVerifiedAt = none)
    (blank : ∀ read ∈ reads, read.shows = false)
    (last : ∃ read ∈ reads, read.failure = some error) :
    SweepFacts urls config (.error error) audit reads where
  reported violation visible := by
    obtain ⟨read, mem, shows⟩ := visible.shown
    exact absurd shows (Bool.eq_false_iff.mp (blank read mem))
  sound some_ := absurd clean.1 some_
  fails := fun _ failed => by
    cases failed
    exact last
  ends := fun ok => nomatch ok
  bound moved := absurd clean.2 moved

/-- A sweep that ended because the account is not bound. -/
theorem sweepFacts_of_unbound {endpoint : AzureEndpoint} {account : ArmAccount} {token : String}
    {error : AnyError} {audit : AzureAudit}
    (parsed : parseAzureEndpoint urls config.provider config.endpoint = .ok endpoint)
    (unbound : assertAccountBinding urls config.provider endpoint account = .error error)
    (clean : audit.findings = [] ∧ audit.bindingVerifiedAt = none) :
    SweepFacts urls config (.ok ()) (audit.record (.error error))
      [.token (.ok token), .account (.ok account)] where
  reported violation visible _ := by
    have only : ∀ {read}, read ∈ [Read.token (.ok token), .account (.ok account)] →
        read.isSurface = false ∧ read.isDeployment = false := by
      intro read mem
      simp only [List.mem_cons, List.not_mem_nil, or_false] at mem
      rcases mem with rfl | rfl
      · exact ⟨rfl, rfl⟩
      · exact ⟨rfl, rfl⟩
    cases visible with
    | account parsed' read unbound' =>
        simp only [List.mem_cons, List.not_mem_nil, or_false] at read
        rcases read with same | same
        · cases same
        · cases same
          cases parsed.symm.trans parsed'
          cases unbound.symm.trans unbound'
          exact List.mem_append_right _ (List.mem_singleton_self _)
    | diagnostic read _ => cases (only read).1
    | child read _ _ => cases (only read).1
    | binding read _ _ => cases (only read).2
    | noPolicy read _ _ _ => cases (only read).2
    | synchronous read _ _ _ _ _ => cases (only read).2
  sound _ := ⟨_, .account parsed (List.mem_cons_of_mem _ (List.mem_singleton_self _)) unbound⟩
  fails := fun _ failed => nomatch failed
  ends := fun _ read mem => by
    simp only [List.mem_cons, List.not_mem_nil, or_false] at mem
    rcases mem with rfl | rfl
    · rfl
    · rfl
  bound moved := absurd clean.2 moved

end Verdict

namespace AzureVerifier

variable (verifier : AzureVerifier) (config : AzureVerifyConfig)

/-- What one sweep adds, from the endpoint's parse to its last read. -/
theorem sweep_facts {endpoint : AzureEndpoint}
    (parsed : parseAzureEndpoint verifier.urls config.provider config.endpoint = .ok endpoint) :
    SweepFacts verifier.urls config
      (verifier.sweep config endpoint (.new config.provider endpoint.host) []).1
      (verifier.sweep config endpoint (.new config.provider endpoint.host) []).2.1
      (verifier.sweep config endpoint (.new config.provider endpoint.host) []).2.2 := by
  unfold sweep fetchEntraToken
  dsimp only
  generalize (do
    let token ← (verifier.service.token [] _).outcome _ _ _
    ensure (!isBlank token) (AnyError.msg "Entra token response had an empty access_token")
    return token : Except AnyError String) = tokenOutcome
  cases tokenOutcome with
  | error error =>
      refine sweepFacts_of_failed ⟨rfl, rfl⟩ (fun read mem => ?_) ⟨_, List.mem_singleton_self _, rfl⟩
      rw [List.mem_singleton.mp mem]
      rfl
  | ok token =>
      unfold fetchArmAccount
      dsimp only
      generalize getJson _ _ _ = accountOutcome
      cases accountOutcome with
      | error error =>
          refine sweepFacts_of_failed ⟨rfl, rfl⟩ (fun read mem => ?_)
            ⟨_, List.mem_append_right _ (List.mem_singleton_self _), rfl⟩
          simp only [List.nil_append, List.cons_append, List.mem_cons, List.not_mem_nil,
            or_false] at mem
          rcases mem with rfl | rfl
          · rfl
          · rfl
      | ok account =>
          dsimp only
          cases binding : assertAccountBinding verifier.urls config.provider endpoint account with
          -- An account that is not the endpoint's is the only finding, and nothing more is read.
          | error error => exact sweepFacts_of_unbound parsed binding ⟨rfl, rfl⟩
          | ok resourceId =>
              dsimp only
              obtain ⟨audit, fresh⟩ : ∃ audit, { AzureAudit.new config.provider endpoint.host with
                resourceId := some resourceId } = audit := ⟨_, rfl⟩
              have clean : audit.findings = [] ∧ audit.bindingVerifiedAt = none := by
                rw [← fresh]
                exact ⟨rfl, rfl⟩
              rw [fresh]
              have surfaces := Sweep.auditCaptureSurfaces_adds ⟨verifier, config, endpoint, token⟩
                resourceId (account.kind == aiServicesKind) audit
                ([.token (.ok token)] ++ [.account (.ok account)])
              obtain ⟨news, found, adds⟩ := surfaces
              -- Cut off in the surfaces, the deployments were not read; else their reads follow.
              rcases swept : Sweep.auditCaptureSurfaces ⟨verifier, config, endpoint, token⟩
                resourceId (account.kind == aiServicesKind) audit
                ([.token (.ok token)] ++ [.account (.ok account)]) with
                ⟨error | done, audit', reads'⟩
              · rw [List.nil_append, swept, Swept.andThen_error]
                rw [swept] at adds
                have reads_eq := adds.reads_eq
                have facts := sweepFacts_of_bound parsed binding token (.error error) audit' adds
                  (.nothing config.provider audit' reads')
                  (by rw [show audit'.findings = _ from adds.findings_eq, clean.1]; simp)
                  (fun error same => .inl (adds.fails error same)) (fun ok => nomatch ok)
                  (fun moved => absurd (adds.kept.trans clean.2) moved)
                rw [List.append_nil] at facts
                rw [show reads' = _ from reads_eq]
                exact facts
              · rw [List.nil_append, swept, Swept.andThen_ok]
                rw [swept] at adds
                obtain ⟨later, foundLater, addsLater⟩ := Sweep.auditDeployments_adds
                  ⟨verifier, config, endpoint, token⟩ audit' reads'
                have reads_eq : reads' = _ := adds.reads_eq
                have findings_eq : audit'.findings = _ := adds.findings_eq
                have kept : audit'.bindingVerifiedAt = _ := adds.kept
                rw [addsLater.reads_eq]
                generalize Sweep.auditDeployments _ audit' reads' = swept' at addsLater ⊢
                rw [reads_eq]
                exact sweepFacts_of_bound parsed binding token _ _ adds addsLater
                  (by rw [addsLater.findings_eq, findings_eq, clean.1, List.nil_append])
                  (fun error same => .inr (addsLater.fails error same))
                  (fun ok => ⟨adds.ends rfl, addsLater.ends ok⟩)
                  (fun moved => by rwa [kept, clean.2])

end AzureVerifier

/-- An audit is right about what its sweep read exactly if every synchronous policy that a
deployment references is there under its trimmed name too. -/
theorem audit_reports_what_it_read (verifier : AzureVerifier) (config : AzureVerifyConfig) :
    AuditIsRight verifier.urls config (verifier.auditTarget config) ↔
      SynchronousUnderTrimmedName verifier.urls config (verifier.auditTarget config).2 := by
  refine ⟨AuditIsRight.judged, ?_⟩
  unfold AzureVerifier.auditTarget
  cases parsed : parseAzureEndpoint verifier.urls config.provider config.endpoint with
  | error error =>
      have nothing : ∀ violation, ¬ Visible verifier.urls config [] violation := by
        intro violation visible
        obtain ⟨read, mem, -⟩ := visible.shown
        cases mem
      intro _
      exact ⟨fun _ _ => nothing, fun ⟨violation, visible⟩ => absurd visible (nothing violation),
        fun _ ⟨_, mem, _⟩ => (nomatch mem), fun _ same => nomatch same⟩
  | ok endpoint =>
      have facts := verifier.sweep_facts config parsed
      dsimp only
      generalize verifier.sweep config endpoint (.new config.provider endpoint.host) [] = swept
        at facts ⊢
      obtain ⟨error | done, audit, reads⟩ := swept
      · exact facts.right
      · exact facts.right

/-! ### A padded policy name -/

/-- A deployment that names its policy with a blank in front. -/
def paddedDeployment : ArmDeployment := ⟨"my-gpt", some " strict", ⟨some "OpenAI", none, none⟩⟩

/-- An account with nothing else wrong, whose policy blocks streaming. -/
def paddedVerifier : AzureVerifier where
  service := {
    token := fun _ _ => .response ⟨200, "200 OK"⟩ "" (.ok "token")
    account := fun _ _ => .response ⟨200, "200 OK"⟩ "" (.ok ⟨"/subscriptions/s/accounts/acct",
      "OpenAI", ⟨some "acct", some "https://acct.openai.azure.com", none, none⟩⟩)
    diagnostics := fun _ _ => .response ⟨200, "200 OK"⟩ "" (.ok [])
    children := fun _ _ => .response ⟨404, "404 Not Found"⟩ "" (.ok ⟨[], none⟩)
    deployments := fun _ _ => .response ⟨200, "200 OK"⟩ "" (.ok ⟨[paddedDeployment], none⟩)
    policy := fun _ _ => .response ⟨200, "200 OK"⟩ "" (.ok ⟨some "Blocking"⟩)
    now := fun _ => 0 }
  urls := ⟨fun _ => .ok ⟨"https", "", none, some "acct.openai.azure.com"⟩, id⟩
  managementBase := "https://management.azure.com"
  loginBase := "https://login.microsoftonline.com"

def paddedConfig : AzureVerifyConfig :=
  ⟨.openAi, "https://acct.openai.azure.com", "t", "s", "g", "c", "x"⟩

/-- A policy named with a blank around it goes unreported. -/
theorem padded_policy_goes_unreported :
    ¬ AuditIsRight paddedVerifier.urls paddedConfig (paddedVerifier.auditTarget paddedConfig) := by
  -- One evaluation of the sweep for all three facts: nothing found, the deployment and its
  -- policy read.
  obtain ⟨passed, listed, resolved⟩ :
      (paddedVerifier.auditTarget paddedConfig).1.toOption.map AzureAudit.findings = some [] ∧
      ((paddedVerifier.auditTarget paddedConfig).2.any fun read => match read with
        | .deployments outcome => outcome.toOption == some ⟨[paddedDeployment], none⟩
        | _ => false) = true ∧
      ((paddedVerifier.auditTarget paddedConfig).2.any fun read => match read with
        | .policy name outcome => name == " strict" && outcome.toOption == some ⟨some "Blocking"⟩
        | _ => false) = true := by
    decide +kernel
  intro right
  obtain ⟨list, listMem, isList⟩ := List.any_eq_true.mp listed
  obtain ⟨policy, policyMem, isPolicy⟩ := List.any_eq_true.mp resolved
  split at isList
  · rename_i outcome
    split at isPolicy
    · rename_i name policyOutcome
      obtain ⟨sameName, samePolicy⟩ := Bool.and_eq_true_iff.mp isPolicy
      cases outcome with
      | error => cases eq_of_beq isList
      | ok page =>
          cases policyOutcome with
          | error => cases eq_of_beq samePolicy
          | ok policy =>
              cases eq_of_beq isList
              cases eq_of_beq samePolicy
              cases eq_of_beq sameName
              have visible : Visible paddedVerifier.urls paddedConfig
                  (paddedVerifier.auditTarget paddedConfig).2
                  (.synchronous paddedDeployment " strict" (some "Blocking")) :=
                .synchronous listMem (List.mem_singleton_self _) ⟨rfl, by decide⟩
                  (by decide) policyMem (by decide)
              obtain ⟨audit, same, some_, -⟩ := right.reports ⟨_, visible⟩
              rw [same] at passed
              have none_ : audit.findings = [] := Option.some.inj passed
              exact some_ none_
    · cases isPolicy
  · cases isList

end GmMiner.Azure
