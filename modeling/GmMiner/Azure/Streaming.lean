import GmMiner.Azure.Findings

/-!
The streaming verdict of a sweep whose reads all succeed (`audit_async_filter_configuration` of
`azure-verify/src/lib.rs`).

Policies are read under their names as they stand, and looked up under the trimmed ones. The verdict
is right exactly if that makes no difference: the trimmed spelling of every name is a name of its
own, and its policy does not pass for one that blocks.
-/

namespace GmMiner.Azure

open GmMiner.Lib

/-! ### A complete reading of the policies -/

/-- The modes of the policies read, in the order of the reads. -/
def modesRead (policies : List (String × ArmRaiPolicy)) (modes : PolicyModes) : PolicyModes :=
  policies.foldl (fun modes read => SortedMap.insert read.1 read.2.mode modes) modes

def policyReads (policies : List (String × ArmRaiPolicy)) : History :=
  policies.map fun read => .policy read.1 (.ok read.2)

/-- A mode is on record if its policy was read, or was not and the mode was there
before. -/
theorem lookup_modesRead {policies : List (String × ArmRaiPolicy)} {modes : PolicyModes}
    {name : String} {mode : Option String} (distinct : (policies.map Prod.fst).Nodup) :
    (modesRead policies modes).lookup name = some mode ↔
      (∃ policy, (name, policy) ∈ policies ∧ policy.mode = mode) ∨
        name ∉ policies.map Prod.fst ∧ modes.lookup name = some mode := by
  induction policies generalizing modes with
  | nil => simp [modesRead]
  | cons read rest ih =>
      obtain ⟨other, policy⟩ := read
      obtain ⟨apart, distinct⟩ := List.nodup_cons.mp distinct
      change (modesRead rest (SortedMap.insert other policy.mode modes)).lookup name = some mode ↔ _
      rw [ih distinct, SortedMap.lookup_insert]
      by_cases here : name = other
      · subst here
        have first : ∀ later, (name, later) ∉ rest := by
          intro later mem
          exact apart (List.mem_map.mpr ⟨_, mem, rfl⟩)
        have apart' : name ∉ rest.map Prod.fst := apart
        simp [first, apart']
      · simp [here]

/-- A complete sweep read every policy once. -/
theorem Sweep.readPolicies_complete (sweep : Sweep) {names : List String} {modes : PolicyModes}
    {reads : History} (complete : (sweep.readPolicies names modes reads).2.1 = none) :
    ∃ policies : List (String × ArmRaiPolicy), policies.map Prod.fst = names ∧
      sweep.readPolicies names modes reads =
        (modesRead policies modes, none, reads ++ policyReads policies) := by
  induction names generalizing modes reads with
  | nil => exact ⟨[], rfl, by simp [readPolicies, modesRead, policyReads]⟩
  | cons name rest ih =>
      unfold readPolicies AzureVerifier.fetchArmRaiPolicy at complete ⊢
      dsimp only at complete ⊢
      generalize getJson _ _ _ = outcome at complete ⊢
      cases outcome with
      | error error => cases complete
      | ok policy =>
          obtain ⟨policies, read, same⟩ := ih complete
          refine ⟨(name, policy) :: policies, by rw [List.map_cons, read], ?_⟩
          dsimp only
          rw [same, List.append_assoc]
          rfl

/-- The names looked up are those the rows name. -/
theorem Sweep.referencedPolicyNames_iff {deployments : List ArmDeployment} {name : String} :
    name ∈ referencedPolicyNames deployments ↔
      ∃ deployment ∈ deployments, deployment.referencedPolicy = some name := by
  refine ⟨mem_referencedPolicyNames, fun ⟨deployment, held, named⟩ => ?_⟩
  have kept : ∀ (names : List String) (entries : List (String × Unit)),
      name ∈ names ∨ name ∈ entries.map Prod.fst →
      name ∈ (names.foldl (fun names name => SortedMap.insert name () names) entries).map
        Prod.fst := by
    intro names
    induction names with
    | nil => exact fun entries held => held.resolve_left List.not_mem_nil
    | cons first rest ih =>
        intro entries held
        apply ih
        rw [SortedMap.mem_keys_insert]
        rcases held with here | before
        · rcases List.mem_cons.mp here with rfl | later
          · exact .inr (.inr rfl)
          · exact .inl later
        · exact .inr (.inl before)
  exact kept _ [] (.inl (List.mem_filterMap.mpr ⟨deployment, held, named⟩))

/-! ### The verdict -/

/-- The mode that a read of the policy returned lets its deployments stream. -/
def Streams (answers : History) (name : String) : Prop :=
  ∃ policy, .policy name (.ok policy) ∈ answers ∧ raiPolicyModeAllowsStreaming policy.mode = true

/-- Every deployment names a policy, and as it is spelled here that policy streams. -/
def AllStream (answers : History) (spelled : String → String) (deployments : List ArmDeployment) :
    Prop :=
  ∀ deployment ∈ deployments,
    ∃ name, deployment.referencedPolicy = some name ∧ Streams answers (spelled name)

/-- The trimmed spelling of every policy name is a name as well. -/
def TrimmedNamed (deployments : List ArmDeployment) : Prop :=
  ∀ deployment ∈ deployments, ∀ name, deployment.referencedPolicy = some name →
    ∃ other ∈ deployments, other.referencedPolicy = some (trimmed name)

section Verdict

variable {deployments : List ArmDeployment} {modes : PolicyModes}

/-- All rows are kept exactly if every name has a mode under its trimmed form. -/
theorem retainObservableDeployments_eq_self :
    retainObservableDeployments deployments modes = deployments ↔
      ∀ deployment ∈ deployments, ∀ name, deployment.referencedPolicy = some name →
        ∃ mode, modes.lookup (trimmed name) = some mode := by
  rw [retainObservableDeployments, List.filter_eq_self]
  refine forall_congr' fun deployment => forall_congr' fun _ => ?_
  cases named : deployment.referencedPolicy with
  | none =>
      rw [ArmDeployment.policyName_eq_none.mpr named]
      simp
  | some name =>
      rw [ArmDeployment.policyName_of_referenced named]
      simp [Option.isSome_iff_exists]

/-- There is no violation exactly if every row names a policy, and each mode found
lets the stream through. -/
theorem observableViolations_eq_nil :
    observableViolations deployments modes = [] ↔
      ∀ deployment ∈ deployments, ∃ name, deployment.referencedPolicy = some name ∧
        ∀ mode, modes.lookup (trimmed name) = some mode →
          raiPolicyModeAllowsStreaming mode = true := by
  constructor
  · intro none_ deployment row
    cases named : deployment.referencedPolicy with
    | none =>
        have missing : _ ∈ observableViolations deployments modes :=
          missing_mem_violations row named
        rw [none_] at missing
        cases missing
    | some name =>
        refine ⟨name, rfl, fun mode resolved => ?_⟩
        by_contra sync
        obtain ⟨names, mem, -⟩ := synchronous_mem_violations row
          (ArmDeployment.policyName_of_referenced named) resolved (Bool.eq_false_iff.mpr sync)
        rw [none_] at mem
        cases mem
  · intro all
    refine List.eq_nil_iff_forall_not_mem.mpr fun violation mem => ?_
    rcases violation_cases mem with
      ⟨deployment, row, unnamed, -⟩ | ⟨policy, mode, _, -, resolved, sync, deployment, row, named⟩
    · obtain ⟨name, named, -⟩ := all deployment row
      rw [unnamed] at named
      cases named
    · obtain ⟨name, referenced, streams⟩ := all deployment row
      rw [ArmDeployment.policyName_of_referenced referenced] at named
      cases named
      rw [streams mode resolved] at sync
      cases sync

end Verdict

theorem AzureAudit.record_eq_self {audit : AzureAudit} {verdict : Except AnyError Unit} :
    audit.record verdict = audit ↔ verdict = .ok () := by
  cases verdict with
  | ok => exact ⟨fun _ => rfl, fun _ => rfl⟩
  | error error =>
      refine ⟨fun same => ?_, fun same => nomatch same⟩
      have longer := congrArg (fun audit => audit.findings.length) same
      simp [AzureAudit.record, AzureAudit.push] at longer

/-- With every policy read, the check drops no deployment and gives the verdict of the modes
returned under the conditions on the spellings. -/
theorem verdict_of_policies {deployments : List ArmDeployment}
    {policies : List (String × ArmRaiPolicy)}
    (names : policies.map Prod.fst = Sweep.referencedPolicyNames deployments) :
    (retainObservableDeployments deployments (modesRead policies []) = deployments ∧
      (observableViolations deployments (modesRead policies []) = [] ↔
        AllStream (policyReads policies) id deployments)) ↔
    TrimmedNamed deployments ∧ (AllStream (policyReads policies) trimmed deployments →
      AllStream (policyReads policies) id deployments) := by
  have distinct : (policies.map Prod.fst).Nodup :=
    names ▸ Sweep.nodup_referencedPolicyNames deployments
  have lookup_iff : ∀ {name mode}, (modesRead policies []).lookup name = some mode ↔
      ∃ policy, (name, policy) ∈ policies ∧ policy.mode = mode := by
    intro name mode
    rw [lookup_modesRead distinct]
    simp
  have named_iff : ∀ {name}, (∃ policy, (name, policy) ∈ policies) ↔
      ∃ deployment ∈ deployments, deployment.referencedPolicy = some name := by
    intro name
    rw [← Sweep.referencedPolicyNames_iff, ← names]
    simp
  have streams_iff : ∀ {name}, Streams (policyReads policies) name ↔
      ∃ policy, (name, policy) ∈ policies ∧
        raiPolicyModeAllowsStreaming policy.mode = true := by
    intro name
    refine exists_congr fun policy => and_congr_left fun _ => ?_
    simp [policyReads]
  -- A deployment is kept exactly if its trimmed name was read.
  have kept_iff : retainObservableDeployments deployments (modesRead policies []) = deployments ↔
      TrimmedNamed deployments := by
    rw [retainObservableDeployments_eq_self]
    refine forall_congr' fun deployment => forall_congr' fun _ => forall_congr' fun name =>
      imp_congr_right fun _ => ?_
    rw [← named_iff]
    simp [lookup_iff]
  -- It is judged by the answer under that name.
  have judged_iff (trimmedNamed : TrimmedNamed deployments) :
      observableViolations deployments (modesRead policies []) = [] ↔
        AllStream (policyReads policies) trimmed deployments := by
    rw [observableViolations_eq_nil]
    refine forall_congr' fun deployment => imp_congr_right fun row => exists_congr fun name =>
      and_congr_right fun named => ?_
    obtain ⟨policy, mem⟩ := named_iff.mpr (trimmedNamed deployment row name named)
    rw [streams_iff]
    constructor
    · intro streams
      exact ⟨policy, mem, streams _ (lookup_iff.mpr ⟨policy, mem, rfl⟩)⟩
    · rintro ⟨other, otherMem, streams⟩ mode resolved
      rw [lookup_iff.mpr ⟨other, otherMem, rfl⟩] at resolved
      cases resolved
      exact streams
  -- The trimmed names are names themselves, so they stream where all names do.
  have fewer (trimmedNamed : TrimmedNamed deployments)
      (all : AllStream (policyReads policies) id deployments) :
      AllStream (policyReads policies) trimmed deployments := by
    intro deployment row
    obtain ⟨name, named, -⟩ := all deployment row
    obtain ⟨other, otherRow, otherNamed⟩ := trimmedNamed deployment row name named
    obtain ⟨name', named', streams⟩ := all other otherRow
    rw [otherNamed] at named'
    cases named'
    exact ⟨name, named, streams⟩
  rw [kept_iff]
  refine and_congr_right fun trimmedNamed => ?_
  rw [judged_iff trimmedNamed]
  exact ⟨fun same => same.mp, fun right => ⟨right, fewer trimmedNamed⟩⟩

/-- In a sweep whose reads all succeed no deployment is dropped and the verdict recorded is that of
the modes returned, exactly if the trimmed spelling of each policy name is a name too and never
passes for one that blocks. -/
theorem Sweep.streaming_verdict_iff (sweep : Sweep) (read : PagedRead ArmDeployment)
    (audit : AzureAudit) (reads : History)
    (complete : (sweep.auditAsyncFilterConfiguration read audit reads).1 = .ok ()) :
    ∃ answers, (sweep.auditAsyncFilterConfiguration read audit reads).2.2 = reads ++ answers ∧
      let governed := (splitAzureGovernedDeployments read.items).1
      let modes := (sweep.readPolicies (referencedPolicyNames governed) [] reads).1
      ((retainObservableDeployments governed modes = governed ∧
        ((sweep.auditAsyncFilterConfiguration read audit reads).2.1 = audit ↔
          AllStream answers id governed)) ↔
      TrimmedNamed governed ∧
        (AllStream answers trimmed governed → AllStream answers id governed)) := by
  rw [auditAsyncFilterConfiguration] at complete ⊢
  dsimp only at complete ⊢
  generalize (splitAzureGovernedDeployments read.items).1 = governed at complete ⊢
  obtain ⟨paged, readAll⟩ : read.failure = none ∧
      (sweep.readPolicies (referencedPolicyNames governed) [] reads).2.1 = none := by
    rw [← Option.or_eq_none_iff]
    cases failure : read.failure.or
        (sweep.readPolicies (referencedPolicyNames governed) [] reads).2.1 with
    | none => rfl
    | some error =>
        rw [failure] at complete
        cases complete
  obtain ⟨policies, names, same⟩ := sweep.readPolicies_complete readAll
  rw [same, paged]
  refine ⟨policyReads policies, rfl, ?_⟩
  have recorded : audit.record (logStreamingAssessment (assessStreamingConfiguration
      (retainObservableDeployments governed (modesRead policies [])) (modesRead policies []))) =
        audit ↔ observableViolations governed (modesRead policies []) = [] := by
    rw [AzureAudit.record_eq_self]
    rcases logStreamingAssessment_cases governed (modesRead policies []) with
      ⟨none_, passed⟩ | ⟨some_, error, failed⟩
    · exact ⟨fun _ => none_, fun _ => passed⟩
    · rw [failed]
      exact ⟨(fun same => nomatch same), fun none_ => absurd none_ some_⟩
  change (_ ∧ (audit.record _ = audit ↔ _)) ↔ _
  rw [recorded]
  exact verdict_of_policies names

/-! ### Several deployments -/

/-- Two that name one policy, one of them padded, one that names another, and one that is not Azure's
to govern. -/
def severalDeployments : List ArmDeployment :=
  [⟨"my-gpt", some "lenient", ⟨some "OpenAI", none, none⟩⟩,
    ⟨"your-gpt", some " lenient", ⟨some "OpenAI", none, none⟩⟩,
    ⟨"their-gpt", some "strict", ⟨some "OpenAI", none, none⟩⟩,
    ⟨"my-claude", none, ⟨some anthropicModelFormat, none, none⟩⟩]

/-- The last of the three policies that are asked for blocks. -/
def severalVerifier : AzureVerifier :=
  { paddedVerifier with
    service := { paddedVerifier.service with
      policy := fun reads _ => .response ⟨200, "200 OK"⟩ ""
        (.ok ⟨some (if reads.length < 2 then "Asynchronous_filter" else "Blocking")⟩) } }

def severalSweep : Sweep :=
  ⟨severalVerifier, paddedConfig, ⟨"acct.openai.azure.com", "acct", ".openai.azure.com"⟩, "token"⟩

def paddedAudit : AzureAudit := .new .openAi "acct.openai.azure.com"

/-- The sweep of several deployments passes though one policy blocks. -/
theorem severalSweep_verdict :
    (severalSweep.auditAsyncFilterConfiguration ⟨severalDeployments, none⟩ paddedAudit []).1 = .ok () ∧
      ∃ answers, (severalSweep.auditAsyncFilterConfiguration ⟨severalDeployments, none⟩ paddedAudit
          []).2.2 = [] ++ answers ∧
        let governed := (splitAzureGovernedDeployments severalDeployments).1
        let modes := (severalSweep.readPolicies (Sweep.referencedPolicyNames governed) [] []).1
        ((retainObservableDeployments governed modes = governed ∧
          ((severalSweep.auditAsyncFilterConfiguration ⟨severalDeployments, none⟩ paddedAudit
            []).2.1 = paddedAudit ↔ AllStream answers id governed)) ↔
        TrimmedNamed governed ∧
          (AllStream answers trimmed governed → AllStream answers id governed)) :=
  ⟨by rfl, Sweep.streaming_verdict_iff severalSweep ⟨severalDeployments, none⟩ paddedAudit []
    (by rfl)⟩

/-! ### A padded policy name -/

def paddedSweep : Sweep :=
  ⟨paddedVerifier, paddedConfig, ⟨"acct.openai.azure.com", "acct", ".openai.azure.com"⟩, "token"⟩

/-- The deployment is dropped and the sweep passes, though the policy it names blocks. -/
theorem paddedSweep_passes :
    let swept :=
      paddedSweep.auditAsyncFilterConfiguration ⟨[paddedDeployment], none⟩ paddedAudit []
    swept.1 = .ok () ∧ swept.2.1 = paddedAudit ∧
      retainObservableDeployments [paddedDeployment] (paddedSweep.readPolicies
        (Sweep.referencedPolicyNames [paddedDeployment]) [] []).1 = [] ∧
      ∀ name, paddedDeployment.referencedPolicy = some name → ¬ Streams swept.2.2 name := by
  refine ⟨by rfl, by decide, by decide, fun name named => ?_⟩
  have same : name = " strict" := by
    have := named.symm
    exact Option.some.inj (this.trans (by decide))
  rintro ⟨policy, mem, streams⟩
  have reads : (paddedSweep.auditAsyncFilterConfiguration ⟨[paddedDeployment], none⟩ paddedAudit
      []).2.2 = [.policy " strict" (.ok ⟨some "Blocking"⟩)] := by rfl
  rw [reads] at mem
  cases List.mem_singleton.mp mem
  exact absurd streams (by decide)

end GmMiner.Azure
