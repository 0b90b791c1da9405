import GmMiner.Cli.CloudPolicy
import GmMiner.Lib.Trace
import GmMiner.Lib.Url
import Mathlib

/-!
Withdrawing an offer: `offer_path` and `delete_offer` of `cli/src/commands/products.rs`.

The registry finds the offer by the path of the URL, so nothing of a provider or a model may end the
path, move it or be lost from it.
-/

namespace GmMiner.Cli

open GmMiner.Lib Url

/-! ### The request -/

/-- What `OFFER_PATH` leaves out. -/
def offerPathKeeps (c : Char) : Bool :=
  c.isAlphanum || c == '-' || c == '.' || c == '_' || c == '~' || c == '/'

def utf8PercentEncode (text : String) : String :=
  String.ofList (percentEncode offerPathKeeps text.toList)

def offerPath (provider model : String) : String :=
  "/miners/products/" ++ utf8PercentEncode provider ++ "/" ++ utf8PercentEncode model

def rejectDotSegments (debug : String → String) (model : String) : Except Error Unit :=
  if (model.toList.splitOn '/').any fun seg => seg == ['.'] || seg == ['.', '.'] then
    bail ("invalid model id " ++ debug model ++ ": `.` and `..` are not model path segments")
  else .ok ()

/-- Requests that are sent, by their URL. -/
abbrev Sent := Trace String Error

def Sent.context {A : Type} (run : Sent A) (text : String) : Sent A :=
  ⟨run.actions, Cli.context run.outcome text⟩

/-- The registry's client, as far as it sends a `DELETE`. -/
structure DeleteClient where
  config : Config
  /-- What the registry answers, by URL and access token. -/
  respond : String → String → Except Error (Response Unit)
  /-- The detail of an error's body. -/
  detail : String → String

namespace DeleteClient

variable (client : DeleteClient)

/-- `send` of a `DELETE`. -/
def delete (path : String) : Sent (Response Unit) := do
  let url := client.config.apiUrl ++ path
  let token ← .ofResult (required (client.config.activeTokens.bind TokenEntry.accessToken)
    ["not logged in — run `gmcli login` first"])
  .perform url
  let response ← .ofResult (context (client.respond url token) ("DELETE " ++ url))
  .ofResult (ensure (response.status.code != 401) ["authentication expired — run `gmcli login` again"])
  return response

def statusError (op : String) (response : Response Unit) : String :=
  op ++ " failed (" ++ response.status.text ++ "): " ++ client.detail response.body

def deleteOffer (debug : String → String) (provider model : String) : Sent Unit := do
  .ofResult (rejectDotSegments debug model)
  let path := offerPath provider model
  let response ← (client.delete path).context ("DELETE " ++ path)
  .ofResult (ensure (response.status.code != 404)
    ["no offer for " ++ provider ++ "/" ++ model ++ " — nothing to withdraw; `gmcli status` lists " ++
      "what you have declared"])
  .ofResult (ensure response.status.isSuccess [client.statusError "undeclare-product" response])

end DeleteClient

/-! ### What is encoded -/

/-- The characters kept are ASCII. -/
theorem offerPathKeeps_ascii {c : Char} (kept : offerPathKeeps c = true) : c.toNat < 128 := by
  simp only [offerPathKeeps, Char.isAlphanum, Char.isAlpha, Char.isUpper, Char.isLower, Char.isDigit,
    Bool.or_eq_true, Bool.and_eq_true, decide_eq_true_eq, beq_iff_eq, ge_iff_le,
    UInt32.le_iff_toNat_le] at kept
  change c.val.toNat < 128
  rcases kept with ((((((⟨-, upper⟩ | ⟨-, lower⟩) | ⟨-, digit⟩) | rfl) | rfl) | rfl) | rfl) | rfl
  · exact upper.trans_lt (by decide)
  · exact lower.trans_lt (by decide)
  · exact digit.trans_lt (by decide)
  all_goals decide

/-- None of them has a meaning in a path. -/
theorem offerPathKeeps_safe : PathSafe offerPathKeeps where
  plain c kept := by
    have small := offerPathKeeps_ascii kept
    have each : ∀ n < 128, offerPathKeeps (Char.ofNat n) = true → isPlain (Char.ofNat n) = true := by
      decide
    rw [← Char.ofNat_toNat c] at kept ⊢
    exact each _ small kept
  percent := by decide
  slash := by decide

/-- A model is accepted exactly if no segment is one dot or two. -/
theorem rejectDotSegments_eq_ok {debug : String → String} {model : String} :
    rejectDotSegments debug model = .ok () ↔
      ∀ s ∈ model.toList.splitOn '/', s ≠ ['.'] ∧ s ≠ ['.', '.'] := by
  unfold rejectDotSegments
  split
  · rename_i found
    obtain ⟨segment, mem, dots⟩ := List.any_eq_true.mp found
    refine iff_of_false nofun fun none_ => ?_
    have other := none_ segment mem
    simp [other.1, other.2] at dots
  · rename_i none_
    refine iff_of_true rfl fun segment mem => ?_
    rw [Bool.not_eq_true, List.any_eq_false] at none_
    simpa using none_ segment mem

/-- A provider as the registry spells it. -/
structure ProviderName where
  text : String
  noSlash : '/' ∉ text.toList
  notDot : text ≠ "."
  notDots : text ≠ ".."

def miners : List Char := "miners".toList

def products : List Char := "products".toList

/-- The offer of a pair, as the registry's path has it behind its first slash. -/
def offerText (provider : ProviderName) (model : String) : List Char :=
  miners ++ '/' :: (products ++ '/' :: (provider.text.toList ++ '/' :: model.toList))

theorem slash_miners_products :
    "/miners/products/".toList = '/' :: (miners ++ '/' :: (products ++ ['/'])) := by
  decide +kernel

theorem percentEncode_offerText (provider : ProviderName) (model : String) :
    percentEncode offerPathKeeps (offerText provider model) =
      miners ++ '/' :: (products ++ '/' :: (percentEncode offerPathKeeps provider.text.toList ++
        '/' :: percentEncode offerPathKeeps model.toList)) := by
  have kept : percentEncode offerPathKeeps miners = miners ∧
      percentEncode offerPathKeeps products = products := by
    decide +kernel
  simp only [offerText, percentEncode_cut offerPathKeeps_safe, kept]

theorem toList_joined (first second third fourth : String) :
    (first ++ second ++ third ++ fourth).toList =
      first.toList ++ (second.toList ++ (third.toList ++ fourth.toList)) := by
  simp

/-- The path is the encoded text behind a slash. -/
theorem offerPath_eq (provider : ProviderName) (model : String) :
    (offerPath provider.text model).toList =
      '/' :: percentEncode offerPathKeeps (offerText provider model) := by
  have encoded : ∀ text, (utf8PercentEncode text).toList = percentEncode offerPathKeeps text.toList :=
    fun _ => String.toList_ofList
  have slash : "/".toList = ['/'] := rfl
  calc (offerPath provider.text model).toList
      = "/miners/products/".toList ++ ((utf8PercentEncode provider.text).toList ++
          ("/".toList ++ (utf8PercentEncode model).toList)) := toList_joined _ _ _ _
    _ = ('/' :: (miners ++ '/' :: (products ++ ['/']))) ++
          (percentEncode offerPathKeeps provider.text.toList ++
            (['/'] ++ percentEncode offerPathKeeps model.toList)) :=
        congrArg₂ (· ++ ·) slash_miners_products
          (congrArg₂ (· ++ ·) (encoded _) (congrArg₂ (· ++ ·) slash (encoded _)))
    _ = '/' :: percentEncode offerPathKeeps (offerText provider model) := by
        simp [percentEncode_offerText]

/-- An accepted model makes no dot segments. -/
theorem offerText_noDots {debug : String → String} (provider : ProviderName) {model : String}
    (accepted : rejectDotSegments debug model = .ok ()) :
    ∀ s ∈ (offerText provider model).splitOn '/', s ≠ ['.'] ∧ s ≠ ['.', '.'] := by
  have notDot : ∀ dots : String, provider.text ≠ dots → provider.text.toList ≠ dots.toList :=
    fun dots other same => other (String.toList_injective same)
  rw [offerText, List.splitOn_append_cons_self_of_not_mem (by decide),
    List.splitOn_append_cons_self_of_not_mem (by decide),
    List.splitOn_append_cons_self_of_not_mem provider.noSlash]
  simp only [List.forall_mem_cons]
  exact ⟨by decide, by decide, ⟨notDot "." provider.notDot, notDot ".." provider.notDots⟩,
    rejectDotSegments_eq_ok.mp accepted⟩

/-! ### The offer that is addressed -/

variable {Host : Type} {readHost : List Char → Option Host}

/-- A URL that paths are put behind: it has no query and no fragment. -/
structure BaseUrl (readHost : List Char → Option Host) where
  text : String
  url : Url Host
  parsed : parse readHost (text.toList ++ ['/']) = some url
  query : url.query = none
  fragment : url.fragment = none

def BaseUrl.path (base : BaseUrl readHost) : List (List Char) := base.url.path.dropLast

/-- Behind a base, a URL names the offer of a pair, and nothing else. -/
structure Addresses (base : BaseUrl readHost) (provider : ProviderName) (model : String)
    (url : Url Host) : Prop where
  scheme : url.scheme = base.url.scheme
  host : url.host = base.url.host
  path : percentDecode (pathText url.path) = percentDecode (pathText base.path) ++
    asBytes ("/miners/products/" ++ provider.text ++ "/" ++ model)
  query : url.query = none
  fragment : url.fragment = none

/-- The client's URL of an accepted model is parsed, with the offer's path. -/
theorem addresses (base : BaseUrl readHost) {debug : String → String} (provider : ProviderName)
    {model : String} (accepted : rejectDotSegments debug model = .ok ()) :
    ∃ url, parse readHost (base.text ++ offerPath provider.text model).toList = some url ∧
      Addresses base provider model url := by
  have parsed := parse_append_percentEncode offerPathKeeps_safe base.parsed base.query base.fragment
    (offerText_noDots provider accepted)
  rw [String.toList_append, offerPath_eq]
  refine ⟨_, parsed, rfl, rfl, ?_, base.query, base.fragment⟩
  rw [percentDecode_pathText offerPathKeeps_safe, BaseUrl.path, asBytes_eq_flatMap]
  simp only [String.toList_append, List.append_assoc]
  rfl

/-- One path names one offer. -/
theorem Addresses.unique {base : BaseUrl readHost} {provider other : ProviderName}
    {model model' : String} {url url' : Url Host} (here : Addresses base provider model url)
    (there : Addresses base other model' url')
    (same : percentDecode (pathText url.path) = percentDecode (pathText url'.path)) :
    provider.text = other.text ∧ model = model' := by
  rw [here.path, there.path] at same
  have texts := congrArg String.toList (asBytes_injective (List.append_cancel_left same))
  simp only [String.toList_append, List.append_assoc] at texts
  have pairs : provider.text.toList ++ '/' :: model.toList =
      other.text.toList ++ '/' :: model'.toList := List.append_cancel_left texts
  have cuts := congrArg (KeyedLines.splitOnce '/') pairs
  rw [KeyedLines.splitOnce_append provider.noSlash, KeyedLines.splitOnce_append other.noSlash,
    Option.some.injEq, Prod.mk.injEq] at cuts
  exact ⟨String.toList_injective cuts.1, String.toList_injective cuts.2⟩

/-- The path sent is the one asked for. -/
theorem mem_delete {client : DeleteClient} {path sent : String}
    (mem : sent ∈ (client.delete path).actions) : sent = client.config.apiUrl ++ path := by
  unfold DeleteClient.delete at mem
  obtain ⟨token, -, mem⟩ := Trace.mem_ofResult_bind.mp mem
  rcases Trace.mem_bind.mp mem with performed | ⟨⟨⟩, -, later⟩
  · exact List.mem_singleton.mp performed
  · obtain ⟨response, -, later⟩ := Trace.mem_ofResult_bind.mp later
    obtain ⟨⟨⟩, -, later⟩ := Trace.mem_ofResult_bind.mp later
    cases later

/-- What a withdrawal sends is its one request, and for an accepted model only. -/
theorem mem_deleteOffer {client : DeleteClient} {debug : String → String}
    {provider model sent : String}
    (mem : sent ∈ (client.deleteOffer debug provider model).actions) :
    rejectDotSegments debug model = .ok () ∧
      sent = client.config.apiUrl ++ offerPath provider model := by
  unfold DeleteClient.deleteOffer at mem
  obtain ⟨_, accepted, mem⟩ := Trace.mem_ofResult_bind.mp mem
  refine ⟨accepted, ?_⟩
  rcases Trace.mem_bind.mp mem with asked | ⟨response, -, later⟩
  · exact mem_delete asked
  · obtain ⟨⟨⟩, -, later⟩ := Trace.mem_ofResult_bind.mp later
    cases later

/-- What is asked of withdrawals behind a base URL. -/
structure OffersApart (base : BaseUrl readHost) (debug : String → String) : Prop where
  addressed : ∀ (provider : ProviderName) (model : String),
    rejectDotSegments debug model = .ok () →
      ∃ url, parse readHost (base.text ++ offerPath provider.text model).toList = some url ∧
        Addresses base provider model url
  apart : ∀ (provider other : ProviderName) (model model' : String) (url url' : Url Host),
    rejectDotSegments debug model = .ok () → rejectDotSegments debug model' = .ok () →
      parse readHost (base.text ++ offerPath provider.text model).toList = some url →
        parse readHost (base.text ++ offerPath other.text model').toList = some url' →
          percentDecode (pathText url.path) = percentDecode (pathText url'.path) →
            provider.text = other.text ∧ model = model'
  sent : ∀ client : DeleteClient, client.config.apiUrl = base.text →
    ∀ (provider : ProviderName) (model sent : String),
      sent ∈ (client.deleteOffer debug provider.text model).actions →
        ∃ url, parse readHost sent.toList = some url ∧ Addresses base provider model url

/-- Withdrawals address the offer of their pair, whatever the provider's name and the model. -/
theorem offersApart (base : BaseUrl readHost) (debug : String → String) :
    OffersApart base debug := by
  have addressed := fun (provider : ProviderName) (model : String)
    (accepted : rejectDotSegments debug model = .ok ()) => addresses base provider accepted
  refine ⟨addressed, ?_, ?_⟩
  · intro provider other model model' url url' accepted accepted' parsed parsed' same
    obtain ⟨found, here, right⟩ := addressed provider model accepted
    obtain ⟨found', there, right'⟩ := addressed other model' accepted'
    cases here.symm.trans parsed
    cases there.symm.trans parsed'
    exact right.unique right' same
  · intro client configured provider model sent mem
    obtain ⟨accepted, rfl⟩ := mem_deleteOffer mem
    rw [configured]
    exact addressed provider model accepted

/-- The default registry of the main network. -/
def mainnetBase : BaseUrl some where
  text := "https://registry.saygm.com"
  url := ⟨"https".toList, "registry.saygm.com".toList, [[]], none, none⟩
  parsed := by decide +kernel
  query := rfl
  fragment := rfl

example : (parse some (mainnetBase.text ++ offerPath "openai" "a#b/..c").toList).map Url.path =
    some (["miners", "products", "openai", "a%23b", "..c"].map String.toList) := by
  decide +kernel

end GmMiner.Cli
