import GmMiner.Azure.Endpoint
import GmMiner.Json.Value
import GmMiner.Time

/-!
The ARM and Entra reads of the verification (`azure-verify/src/arm.rs`).

`ArmService` is what the other side answers, which may depend on everything read
before; an answer comes decoded, or with the decoder's failure. Every read is kept
in a history, oldest first.
-/

namespace GmMiner.Azure

open GmMiner.Lib

def managementScope : String := "https://management.azure.com/.default"
def armApiVersion : String := "2026-05-01"
def diagnosticSettingsApiVersion : String := "2021-05-01-preview"
def maxArmPages : Nat := 100

/-! ### Documents -/

structure ArmAccountProperties where
  customSubDomainName : Option String
  endpoint : Option String
  raiMonitorConfig : Option Json.Value
  userOwnedStorage : Option Json.Value

structure ArmAccount where
  id : String
  kind : String
  properties : ArmAccountProperties

structure DiagnosticLog where
  category : Option String
  categoryGroup : Option String
  enabled : Bool
  deriving DecidableEq, Repr

structure DiagnosticSetting where
  name : String
  logs : List DiagnosticLog
  deriving DecidableEq, Repr

abbrev DiagnosticSettingsList := List DiagnosticSetting

structure ArmChildResource where
  name : String
  category : Option String
  deriving DecidableEq, Repr

/-- The last component of the name ARM qualifies with its parent. -/
def ArmChildResource.leafName (child : ArmChildResource) : String :=
  String.ofList (child.name.toList.rtakeWhile (· != '/'))

structure ArmDeploymentModel where
  format : Option String
  name : Option String
  version : Option String
  deriving DecidableEq, Repr

structure ArmDeployment where
  name : String
  raiPolicyName : Option String
  model : ArmDeploymentModel
  deriving DecidableEq, Repr

def anthropicModelFormat : String := "Anthropic"

structure ArmRaiPolicy where
  mode : Option String
  deriving DecidableEq, Repr

/-- An ARM list response: a page of items and the link to the next. -/
structure ArmPage (Item : Type) where
  value : List Item
  nextLink : Option String
  deriving DecidableEq, Repr

abbrev ArmChildList := ArmPage ArmChildResource
abbrev ArmDeploymentList := ArmPage ArmDeployment

/-- Which scope a child collection hangs off. -/
inductive ArmScope
  | account
  | project (name : String)
  deriving DecidableEq, Repr

def ArmScope.label : ArmScope → String
  | account => "account"
  | project name => "project '" ++ name ++ "'"

/-! ### Reads -/

/-- What a request comes back with: a failure to send it, or a response with what the
decoder makes of its body. -/
inductive Reply (Doc : Type)
  | unsent (error : ReqwestError) (sources : List Cause)
  | response (status : StatusCode) (body : String)
      (json : Except (ReqwestError × List Cause) Doc)

/-- One read and its outcome; a list read is its pages and then how it ended. -/
inductive Read
  | token (outcome : Except AnyError String)
  | account (outcome : Except AnyError ArmAccount)
  | diagnostics (scope : ArmScope) (outcome : Except AnyError DiagnosticSettingsList)
  | children (scope : ArmScope) (collection : String) (outcome : Except AnyError ArmChildList)
  | childrenEnd (scope : ArmScope) (collection : String) (failure : Option AnyError)
  | deployments (outcome : Except AnyError ArmDeploymentList)
  | deploymentsEnd (failure : Option AnyError)
  | policy (name : String) (outcome : Except AnyError ArmRaiPolicy)

abbrev History := List Read

/-- A `GET` with a bearer token. -/
structure ArmRequest where
  url : String
  token : String
  deriving DecidableEq, Repr

/-- The `POST` of a client's credentials. -/
structure EntraRequest where
  url : String
  grantType : String
  clientId : String
  clientSecret : String
  scope : String
  deriving DecidableEq, Repr

/-- The other side, and the clock. -/
structure ArmService where
  token : History → EntraRequest → Reply String
  account : History → ArmRequest → Reply ArmAccount
  diagnostics : History → ArmRequest → Reply DiagnosticSettingsList
  children : History → ArmRequest → Reply ArmChildList
  deployments : History → ArmRequest → Reply ArmDeploymentList
  policy : History → ArmRequest → Reply ArmRaiPolicy
  now : History → Instant

def StatusCode.isSuccess (status : StatusCode) : Bool := 200 ≤ status.code && status.code < 300

/-- What a reply amounts to. -/
def Reply.outcome {Doc : Type} (reply : Reply Doc) (sent parsed label : String) :
    Except AnyError Doc :=
  match reply with
  | .unsent error sources => .error (AnyError.context (.reqwest error :: sources) sent)
  | .response status body json =>
      if status.isSuccess then
        json.mapError fun error => AnyError.context (.reqwest error.1 :: error.2) parsed
      else .error [.status ⟨label, status, body⟩]

/-- `get_json`. -/
def getJson {Doc : Type} (reply : Reply Doc) (url label : String) : Except AnyError Doc :=
  reply.outcome ("GET " ++ url) ("parse " ++ label ++ " response") label

def hexDigit (nibble : Nat) : Char :=
  if nibble < 10 then Char.ofNat (48 + nibble) else Char.ofNat (55 + nibble)

def encodePathSegment (input : String) : String :=
  String.ofList ((asBytes input).flatMap fun byte =>
    let c := Char.ofNat byte.toNat
    if c.isAlphanum || c == '-' || c == '.' || c == '_' || c == '~' then [c]
    else ['%', hexDigit (byte.toNat / 16), hexDigit (byte.toNat % 16)])

/-- The verifier: what it talks to, and where. -/
structure AzureVerifier where
  service : ArmService
  urls : Urls
  managementBase : String
  loginBase : String

namespace AzureVerifier

variable (verifier : AzureVerifier)

def accountUrl (config : AzureVerifyConfig) (endpoint : AzureEndpoint) : String :=
  verifier.managementBase ++ "/subscriptions/" ++ encodePathSegment config.subscriptionId ++
    "/resourceGroups/" ++ encodePathSegment config.resourceGroup ++
    "/providers/Microsoft.CognitiveServices/accounts/" ++ encodePathSegment endpoint.accountName

def fetchEntraToken (config : AzureVerifyConfig) (reads : History) :
    Except AnyError String × History :=
  let url := verifier.loginBase ++ "/" ++ encodePathSegment config.tenantId ++ "/oauth2/v2.0/token"
  let reply := verifier.service.token reads
    ⟨url, "client_credentials", config.clientId, config.clientSecret, managementScope⟩
  let outcome := do
    let token ← reply.outcome ("POST " ++ url) "parse Entra token response" "Entra token"
    ensure (!isBlank token) (AnyError.msg "Entra token response had an empty access_token")
    return token
  (outcome, reads ++ [.token outcome])

def fetchArmAccount (config : AzureVerifyConfig) (endpoint : AzureEndpoint) (token : String)
    (reads : History) : Except AnyError ArmAccount × History :=
  let url := verifier.accountUrl config endpoint ++ "?api-version=" ++ armApiVersion
  let outcome := getJson (verifier.service.account reads ⟨url, token⟩) url
    "Azure Cognitive Services account"
  (outcome, reads ++ [.account outcome])

/-- What the read of the diagnostic settings comes to. -/
def diagnosticSettings (resourceId token : String) (reads : History) :
    Except AnyError DiagnosticSettingsList := do
  let path ← required (stripPrefix ['/'] resourceId.toList)
    (AnyError.msg ("ARM resource id must start with '/': " ++ resourceId))
  let url := verifier.managementBase ++ "/" ++ String.ofList path ++
    "/providers/Microsoft.Insights/diagnosticSettings?api-version=" ++
    diagnosticSettingsApiVersion
  getJson (verifier.service.diagnostics reads ⟨url, token⟩) url "Azure diagnostic settings"

def fetchDiagnosticSettings (scope : ArmScope) (resourceId token : String) (reads : History) :
    Except AnyError DiagnosticSettingsList × History :=
  let outcome := verifier.diagnosticSettings resourceId token reads
  (outcome, reads ++ [.diagnostics scope outcome])

end AzureVerifier

/-! ### Paged reads -/

/-- What a paginated read observed, and the failure that stopped it, if one did. -/
structure PagedRead (Item : Type) where
  items : List Item
  failure : Option AnyError
  deriving DecidableEq, Repr

namespace PagedRead

variable {Item : Type}

def complete (items : List Item) : PagedRead Item := ⟨items, none⟩

def truncated (items : List Item) (failure : AnyError) : PagedRead Item := ⟨items, some failure⟩

def none_ : PagedRead Item := complete []

end PagedRead

section Paging

variable {Item : Type} (get : String → History → Except AnyError (ArmPage Item) × History)
  (label : String) (check : List Item → Except AnyError Unit)

def emptyNextLink (label : String) : AnyError :=
  .msg (label ++ " response had an empty nextLink")

def paginatedPast (label : String) : AnyError :=
  .msg (label ++ " paginated past " ++ toString maxArmPages ++
    " pages; refusing to follow further")

/-- The loop of `fetch_paged_checked`, with the pages it may still follow. -/
def fetchPages : Nat → String → List Item → History → PagedRead Item × History
  | 0, _, items, reads => (.truncated items (paginatedPast label), reads)
  | left + 1, url, items, reads =>
      match get url reads with
      | (.error error, reads) => (.truncated items error, reads)
      | (.ok page, reads) =>
          let items := items ++ page.value
          match check page.value with
          | .error error => (.truncated items error, reads)
          | .ok () =>
              match page.nextLink with
              | none => (.complete items, reads)
              | some nextLink =>
                  if isBlank nextLink then (.truncated items (emptyNextLink label), reads)
                  else fetchPages left nextLink items reads

def fetchPagedChecked (url : String) (reads : History) : PagedRead Item × History :=
  fetchPages get label check maxArmPages url [] reads

def fetchPaged (url : String) (reads : History) : PagedRead Item × History :=
  fetchPagedChecked get label (fun _ => .ok ()) url reads

/-- The pages a paged read gets, in order, and what it makes of them. -/
inductive PagesRead : Nat → List (Except AnyError (ArmPage Item)) → PagedRead Item → Prop
  | exhausted : PagesRead 0 [] (.truncated [] (paginatedPast label))
  | failed {left error} : PagesRead (left + 1) [.error error] (.truncated [] error)
  | rejected {left page error} (found : check page.value = .error error) :
      PagesRead (left + 1) [.ok page] (.truncated page.value error)
  | last {left page} (passed : check page.value = .ok ()) (noLink : page.nextLink = none) :
      PagesRead (left + 1) [.ok page] (.complete page.value)
  | blank {left page link} (passed : check page.value = .ok ())
      (linked : page.nextLink = some link) (blank : isBlank link = true) :
      PagesRead (left + 1) [.ok page] (.truncated page.value (emptyNextLink label))
  | next {left page link pages read} (passed : check page.value = .ok ())
      (linked : page.nextLink = some link) (follows : isBlank link = false)
      (rest : PagesRead left pages read) :
      PagesRead (left + 1) (.ok page :: pages) ⟨page.value ++ read.items, read.failure⟩

/-- The loop reads pages one after the other, into the history and the items. -/
theorem fetchPages_read (entry : Except AnyError (ArmPage Item) → Read)
    (logged : ∀ url reads, (get url reads).2 = reads ++ [entry (get url reads).1]) (left : Nat)
    (url : String) (items : List Item) (reads : History) :
    ∃ pages read, PagesRead label check left pages read ∧
      fetchPages get label check left url items reads =
        (⟨items ++ read.items, read.failure⟩, reads ++ pages.map entry) := by
  induction left generalizing url items reads with
  | zero => exact ⟨[], _, .exhausted, by simp [fetchPages, PagedRead.truncated]⟩
  | succ left ih =>
      have step := logged url reads
      unfold fetchPages
      rcases got : get url reads with ⟨error | page, after⟩
      · rw [got] at step
        dsimp only at step
        subst step
        exact ⟨[.error error], .truncated [] error, .failed, by simp [PagedRead.truncated]⟩
      · rw [got] at step
        dsimp only at step
        subst step
        dsimp only
        rcases found : check page.value with error | ⟨⟩
        · exact ⟨_, _, .rejected found, rfl⟩
        · dsimp only
          rcases linked : page.nextLink with _ | link
          · exact ⟨_, _, .last found linked, rfl⟩
          · dsimp only
            by_cases blank : isBlank link = true
            · rw [if_pos blank]
              exact ⟨_, _, .blank found linked blank, rfl⟩
            · rw [if_neg blank]
              obtain ⟨pages, read, rest, same⟩ :=
                ih link (items ++ page.value) (reads ++ [entry (.ok page)])
              refine ⟨_, _, .next found linked (Bool.eq_false_iff.mpr blank) rest, ?_⟩
              rw [same, List.append_assoc, List.append_assoc]
              rfl

namespace PagesRead

variable {label check}
variable {left : Nat} {pages : List (Except AnyError (ArmPage Item))} {read : PagedRead Item}

/-- The items are those of the pages read, in order. -/
theorem items_eq (pagesRead : PagesRead label check left pages read) :
    read.items = pages.flatMap fun outcome => match outcome with
      | .ok page => page.value
      | .error _ => [] := by
  induction pagesRead with
  | exhausted | failed => rfl
  | rejected | last | blank => exact (List.append_nil _).symm
  | next passed linked follows rest ih => rw [List.flatMap_cons, ← ih]

/-- The items read are those of the pages that came. -/
theorem mem_items (pagesRead : PagesRead label check left pages read) {item : Item} :
    item ∈ read.items ↔ ∃ page, .ok page ∈ pages ∧ item ∈ page.value := by
  rw [pagesRead.items_eq, List.mem_flatMap]
  constructor
  · rintro ⟨error | page, mem, inside⟩
    · cases inside
    · exact ⟨page, mem, inside⟩
  · rintro ⟨page, mem, inside⟩
    exact ⟨_, mem, inside⟩

/-- A page that cannot be read is the last, and its failure that of the read. -/
theorem failure_of_error (pagesRead : PagesRead label check left pages read) {error : AnyError}
    (mem : .error error ∈ pages) : read.failure = some error := by
  induction pagesRead with
  | exhausted => cases mem
  | failed =>
      cases List.mem_singleton.mp mem
      rfl
  | rejected | last | blank => cases List.mem_singleton.mp mem
  | next passed linked follows rest ih =>
      rcases List.mem_cons.mp mem with here | later
      · cases here
      · exact ih later

/-- A read without a failure came to a page without a link. -/
theorem last_of_complete (pagesRead : PagesRead label check left pages read)
    (complete : read.failure = none) : ∃ page, .ok page ∈ pages ∧ page.nextLink = none := by
  induction pagesRead with
  | exhausted | failed | rejected | blank => cases complete
  | last passed noLink => exact ⟨_, List.mem_singleton_self _, noLink⟩
  | next passed linked follows rest ih =>
      obtain ⟨page, mem, noLink⟩ := ih complete
      exact ⟨page, List.mem_cons_of_mem _ mem, noLink⟩

/-- A page that does not pass the check is the last, and what it fails with is the failure of the
read. -/
theorem last_of_rejected (pagesRead : PagesRead label check left pages read)
    {page : ArmPage Item} {error : AnyError} (mem : .ok page ∈ pages)
    (found : check page.value = .error error) :
    pages.getLast? = some (.ok page) ∧ read.failure = some error := by
  induction pagesRead with
  | exhausted => cases mem
  | failed => cases List.mem_singleton.mp mem
  | rejected rejects =>
      cases List.mem_singleton.mp mem
      cases rejects.symm.trans found
      exact ⟨rfl, rfl⟩
  | last passed | blank passed =>
      cases List.mem_singleton.mp mem
      cases passed.symm.trans found
  | next passed linked follows rest ih =>
      rcases List.mem_cons.mp mem with here | later
      · cases here
        cases passed.symm.trans found
      · obtain ⟨last, failed⟩ := ih later
        refine ⟨?_, failed⟩
        rw [List.getLast?_cons, last]
        rfl

end PagesRead

end Paging

namespace AzureVerifier

variable (verifier : AzureVerifier)

/-- One page of a child collection. -/
def getChildren (scope : ArmScope) (collection token : String) (url : String) (reads : History) :
    Except AnyError ArmChildList × History :=
  let outcome := getJson (verifier.service.children reads ⟨url, token⟩) url
    "Azure Foundry child resources"
  (outcome, reads ++ [.children scope collection outcome])

/-- One page of the deployments, read under a label. -/
def getDeployments (label token : String) (url : String) (reads : History) :
    Except AnyError ArmDeploymentList × History :=
  let outcome := getJson (verifier.service.deployments reads ⟨url, token⟩) url label
  (outcome, reads ++ [.deployments outcome])

def deploymentsUrl (config : AzureVerifyConfig) (endpoint : AzureEndpoint) : String :=
  verifier.accountUrl config endpoint ++ "/deployments?api-version=" ++ armApiVersion

def fetchArmDeployments (config : AzureVerifyConfig) (endpoint : AzureEndpoint) (token : String)
    (reads : History) : PagedRead ArmDeployment × History :=
  let (read, reads) := fetchPaged (verifier.getDeployments "Azure OpenAI deployments" token)
    "Azure OpenAI deployments" (verifier.deploymentsUrl config endpoint) reads
  (read, reads ++ [.deploymentsEnd read.failure])

def childrenUrl (config : AzureVerifyConfig) (endpoint : AzureEndpoint) (scope : ArmScope)
    (collection : String) : String :=
  let projectSegment := match scope with
    | .account => ""
    | .project project => "/projects/" ++ encodePathSegment project
  verifier.accountUrl config endpoint ++ projectSegment ++ "/" ++ collection ++
    "?api-version=" ++ armApiVersion

def fetchChildren (config : AzureVerifyConfig) (endpoint : AzureEndpoint) (scope : ArmScope)
    (collection token : String) (reads : History) : PagedRead ArmChildResource × History :=
  let (read, reads) := fetchPaged (verifier.getChildren scope collection token)
    "Azure Foundry child resources" (verifier.childrenUrl config endpoint scope collection) reads
  (read, reads ++ [.childrenEnd scope collection read.failure])

def fetchArmRaiPolicy (config : AzureVerifyConfig) (endpoint : AzureEndpoint)
    (policyName token : String) (reads : History) : Except AnyError ArmRaiPolicy × History :=
  let url := verifier.accountUrl config endpoint ++ "/raiPolicies/" ++
    encodePathSegment policyName ++ "?api-version=" ++ armApiVersion
  let outcome := getJson (verifier.service.policy reads ⟨url, token⟩) url "Azure OpenAI RAI policy"
  (outcome, reads ++ [.policy policyName outcome])

/-- A child collection is its pages and how it ended. -/
theorem fetchChildren_read (config : AzureVerifyConfig) (endpoint : AzureEndpoint)
    (scope : ArmScope) (collection token : String) (reads : History) :
    ∃ pages read,
      PagesRead "Azure Foundry child resources" (fun _ => .ok ()) maxArmPages pages read ∧
      verifier.fetchChildren config endpoint scope collection token reads =
        (read, reads ++ pages.map (.children scope collection) ++
          [.childrenEnd scope collection read.failure]) := by
  unfold fetchChildren fetchPaged fetchPagedChecked
  obtain ⟨pages, read, pagesRead, same⟩ := fetchPages_read
    (verifier.getChildren scope collection token) "Azure Foundry child resources"
    (fun _ => .ok ()) (.children scope collection) (fun _ _ => rfl) maxArmPages
    (verifier.childrenUrl config endpoint scope collection) [] reads
  exact ⟨pages, read, pagesRead, by rw [same]; rfl⟩

/-- The deployments are read page by page, and the reads recorded. -/
theorem fetchArmDeployments_read (config : AzureVerifyConfig) (endpoint : AzureEndpoint)
    (token : String) (reads : History) :
    ∃ pages read,
      PagesRead "Azure OpenAI deployments" (fun _ => .ok ()) maxArmPages pages read ∧
      verifier.fetchArmDeployments config endpoint token reads =
        (read, reads ++ pages.map .deployments ++ [.deploymentsEnd read.failure]) := by
  unfold fetchArmDeployments fetchPaged fetchPagedChecked
  obtain ⟨pages, read, pagesRead, same⟩ := fetchPages_read
    (verifier.getDeployments "Azure OpenAI deployments" token) "Azure OpenAI deployments"
    (fun _ => .ok ()) .deployments (fun _ _ => rfl) maxArmPages
    (verifier.deploymentsUrl config endpoint) [] reads
  exact ⟨pages, read, pagesRead, by rw [same]; rfl⟩

end AzureVerifier

end GmMiner.Azure
