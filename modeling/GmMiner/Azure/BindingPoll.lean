import GmMiner.Azure.Checks

/-!
The poll of an account's deployments between two sweeps (`verify_deployment_bindings` of
`azure-verify/src/lib.rs`).

It reads the same list as the sweep, and stops at the first page that holds a deployment which does not
bind. So no later page can stall what has been found (`deployment_poll`).
-/

namespace GmMiner.Azure

open GmMiner.Lib

namespace AzureVerifier

variable (verifier : AzureVerifier)

def verifyArmDeploymentPages (config : AzureVerifyConfig) (endpoint : AzureEndpoint) (token : String)
    (reads : History) : Except AnyError Unit × History :=
  let (read, reads) := fetchPagedChecked (verifier.getDeployments "Azure deployment bindings" token)
    "Azure deployment bindings" (assertDeploymentBindings config.provider)
    (verifier.deploymentsUrl config endpoint) reads
  match read.failure with
  | some failure => (.error failure, reads)
  | none => (.ok (), reads)

/-- `verify_deployment_bindings`, with everything it read. -/
def verifyDeploymentBindings (config : AzureVerifyConfig) : Except AnyError Unit × History :=
  match parseAzureEndpoint verifier.urls config.provider config.endpoint with
  | .error error => (.error error, [])
  | .ok endpoint =>
      match verifier.fetchEntraToken config [] with
      | (.error error, reads) => (.error error, reads)
      | (.ok token, reads) =>
          match verifier.fetchArmAccount config endpoint token reads with
          | (.error error, reads) => (.error error, reads)
          | (.ok account, reads) =>
              match assertAccountBinding verifier.urls config.provider endpoint account with
              | .error error => (.error error, reads)
              | .ok _ => verifier.verifyArmDeploymentPages config endpoint token reads

end AzureVerifier

/-! ### The check of a page -/

/-- The assertion holds exactly if every row is bound. -/
theorem assertDeploymentBindings_eq_ok {provider : AzureProvider} {rows : List ArmDeployment} :
    assertDeploymentBindings provider rows = .ok () ↔ ∀ row ∈ rows, ¬ Unbound provider row := by
  induction rows with
  | nil => exact iff_of_true rfl nofun
  | cons row rest ih =>
      unfold assertDeploymentBindings
      rw [List.forall_mem_cons, ← ih]
      rcases AzureDeployment.verifyBinding_cases provider row with
        ⟨unbound, text, failed⟩ | ⟨bound, named, passed⟩
      · rw [failed]
        exact iff_of_false nofun fun both => both.1 unbound
      · rw [passed]
        exact (and_iff_right bound).symm

/-! ### What a poll finds -/

/-- What a poll comes to. -/
structure Poll (verifier : AzureVerifier) (config : AzureVerifyConfig)
    (polled : Except AnyError Unit × History) : Prop where
  /-- The account that was read is the endpoint's, and the list was read to its end. -/
  passed : polled.1 = .ok () →
    (∃ endpoint account resourceId,
      parseAzureEndpoint verifier.urls config.provider config.endpoint = .ok endpoint ∧
      .account (.ok account) ∈ polled.2 ∧
      assertAccountBinding verifier.urls config.provider endpoint account = .ok resourceId) ∧
    ∃ page, .deployments (.ok page) ∈ polled.2 ∧ page.nextLink = none
  /-- A page with a deployment that does not bind is the last, and fails the poll. -/
  stopped : ∀ page, .deployments (.ok page) ∈ polled.2 →
    ∀ row ∈ page.value, Unbound config.provider row →
      polled.2.getLast? = some (.deployments (.ok page)) ∧
        assertDeploymentBindings config.provider page.value = polled.1 ∧ polled.1 ≠ .ok ()

section Poll

variable {verifier : AzureVerifier} {config : AzureVerifyConfig}

/-- The pages of a poll. -/
theorem verifyArmDeploymentPages_read (verifier : AzureVerifier) (config : AzureVerifyConfig) (endpoint : AzureEndpoint)
    (token : String) (reads : History) :
    ∃ pages read, PagesRead "Azure deployment bindings" (assertDeploymentBindings config.provider)
        maxArmPages pages read ∧
      verifier.verifyArmDeploymentPages config endpoint token reads =
        (match read.failure with
          | some failure => .error failure
          | none => .ok (), reads ++ pages.map .deployments) := by
  unfold AzureVerifier.verifyArmDeploymentPages fetchPagedChecked
  obtain ⟨pages, read, pagesRead, same⟩ := fetchPages_read
    (verifier.getDeployments "Azure deployment bindings" token) "Azure deployment bindings"
    (assertDeploymentBindings config.provider) .deployments (fun _ _ => rfl) maxArmPages
    (verifier.deploymentsUrl config endpoint) [] reads
  refine ⟨pages, read, pagesRead, ?_⟩
  rw [same]
  cases read.failure <;> rfl

theorem mem_pages_of_mem {before : History} (none_ : ∀ page, Read.deployments (.ok page) ∉ before)
    {pages : List (Except AnyError ArmDeploymentList)} {page : ArmDeploymentList}
    (mem : Read.deployments (.ok page) ∈ before ++ pages.map Read.deployments) :
    .ok page ∈ pages := by
  obtain ⟨_, here, same⟩ := List.mem_map.mp ((List.mem_append.mp mem).resolve_left (none_ page))
  cases same
  exact here

/-- A poll that came to the list of the right account. -/
theorem poll_of_pages {endpoint : AzureEndpoint} {account : ArmAccount} {resourceId : String}
    (parsed : parseAzureEndpoint verifier.urls config.provider config.endpoint = .ok endpoint)
    (bound : assertAccountBinding verifier.urls config.provider endpoint account = .ok resourceId)
    (token : String) {before : History} (read : .account (.ok account) ∈ before)
    (none_ : ∀ page, Read.deployments (.ok page) ∉ before) :
    Poll verifier config (verifier.verifyArmDeploymentPages config endpoint token before) := by
  obtain ⟨pages, whole, pagesRead, same⟩ :=
    verifyArmDeploymentPages_read verifier config endpoint token before
  rw [same]
  refine ⟨fun passed => ⟨⟨endpoint, account, resourceId, parsed, List.mem_append_left _ read, bound⟩,
    ?_⟩, fun page mem row inside unbound => ?_⟩
  · have complete : whole.failure = none := by
      cases failure : whole.failure with
      | none => rfl
      | some error =>
          rw [failure] at passed
          cases passed
    obtain ⟨page, mem, last⟩ := pagesRead.last_of_complete complete
    exact ⟨page, List.mem_append_right _ (List.mem_map_of_mem mem), last⟩
  · have mem := mem_pages_of_mem none_ mem
    cases checked : assertDeploymentBindings config.provider page.value with
    | ok done => exact absurd unbound (assertDeploymentBindings_eq_ok.mp checked row inside)
    | error error =>
        obtain ⟨last, failed⟩ := pagesRead.last_of_rejected mem checked
        refine ⟨?_, ?_⟩
        · rw [List.getLast?_append, List.getLast?_map, last]
          rfl
        · rw [failed]
          exact ⟨rfl, nofun⟩

variable (verifier config) in
/-- A poll that passes has read the whole list of the right account, and one that meets a deployment
which does not bind fails there. -/
theorem deployment_poll : Poll verifier config (verifier.verifyDeploymentBindings config) := by
  have early {error : AnyError} {reads : History}
      (none_ : ∀ page, Read.deployments (.ok page) ∉ reads) :
      Poll verifier config (.error error, reads) :=
    ⟨nofun, fun page mem => absurd mem (none_ page)⟩
  unfold AzureVerifier.verifyDeploymentBindings
  cases parsed : parseAzureEndpoint verifier.urls config.provider config.endpoint with
  | error error => exact early fun page => List.not_mem_nil
  | ok endpoint =>
      obtain ⟨token, tokenRead⟩ : ∃ outcome,
          verifier.fetchEntraToken config [] = (outcome, [.token outcome]) := ⟨_, rfl⟩
      dsimp only
      rw [tokenRead]
      cases token with
      | error error => exact early (by simp)
      | ok token =>
          obtain ⟨account, accountRead⟩ : ∃ outcome,
              verifier.fetchArmAccount config endpoint token [.token (.ok token)] =
                (outcome, [.token (.ok token), .account outcome]) := ⟨_, rfl⟩
          dsimp only
          rw [accountRead]
          cases account with
          | error error => exact early (by simp)
          | ok account =>
              dsimp only
              cases bound : assertAccountBinding verifier.urls config.provider endpoint account with
              | error error => exact early (by simp)
              | ok resourceId => exact poll_of_pages parsed bound token (by simp) (by simp)

end Poll

end GmMiner.Azure
