import GmMiner.Envoy.Filter

/-!
Routes of the data plane: which one a request takes, and what it sends on.

A request takes the first route that matches. Matchers compare the path without its query, and a
header with all its values joined by commas. Of a route the model keeps where it leads, whether it
retries, and which headers it removes and adds; hosts, timeouts and path rewrites decide nothing
here.
-/

namespace GmMiner.Envoy

open GmMiner.Lib

/-! ### Matching -/

inductive PathMatch
  | path (text : String)
  /-- `prefix`. -/
  | start (text : String)
  /-- A `safe_regex` of some whole paths. -/
  | oneOf (texts : List String)
  deriving DecidableEq, Repr

def PathMatch.holds : PathMatch → String → Bool
  | path text, bare => bare == text
  | start text, bare => startsWith text bare
  | oneOf texts, bare => texts.contains bare

inductive StringMatch
  | exactly (text : String)
  /-- `suffix` with `ignore_case`. -/
  | suffixIgnoringCase (text : String)
  deriving DecidableEq, Repr

def StringMatch.holds : StringMatch → String → Bool
  | exactly text, value => value == text
  | suffixIgnoringCase text, value =>
      (text.toList.map Char.toLower).isSuffixOf (value.toList.map Char.toLower)

structure RouteMatch where
  path : PathMatch
  headers : List (String × StringMatch)
  deriving DecidableEq, Repr

def RouteMatch.holds (route : RouteMatch) (headers : Headers) : Bool :=
  route.path.holds (barePath headers) &&
    route.headers.all fun test => (headers.get test.1).any test.2.holds

theorem RouteMatch.holds_iff {route : RouteMatch} {headers : Headers} :
    route.holds headers = true ↔ route.path.holds (barePath headers) = true ∧
      ∀ test ∈ route.headers, ∃ value, headers.get test.1 = some value ∧
        test.2.holds value = true := by
  unfold RouteMatch.holds
  rw [Bool.and_eq_true, List.all_eq_true]
  simp only [Option.any_eq_true]

/-! ### Routes -/

structure RetryPolicy where
  retryOn : String
  numRetries : Nat
  deriving DecidableEq, Repr

inductive RouteAction
  | route (cluster : String) (retryPolicy : Option RetryPolicy)
  | directResponse (status : Nat)
  deriving DecidableEq, Repr

/-- `append_action`. -/
inductive AppendAction
  | addIfAbsent
  | overwriteIfExistsOrAdd
  deriving DecidableEq, Repr

inductive HeaderValue
  | text (value : String)
  /-- `%ENVIRONMENT(…)%`. -/
  | environment (name : String)
  deriving DecidableEq, Repr

structure HeaderToAdd where
  key : String
  value : HeaderValue
  appendAction : AppendAction
  deriving DecidableEq, Repr

structure Route where
  on : RouteMatch
  action : RouteAction
  requestHeadersToRemove : List String := []
  requestHeadersToAdd : List HeaderToAdd := []
  deriving DecidableEq, Repr

def Route.retries (route : Route) : Bool :=
  match route.action with
  | .route _ retryPolicy => retryPolicy.isSome
  | .directResponse _ => false

/-- The cluster that a request is sent to, if it is. -/
def Route.cluster (route : Route) : Option String :=
  match route.action with
  | .route cluster _ => some cluster
  | .directResponse _ => none

/-- The first matching route. -/
def firstMatch (routes : List Route) (headers : Headers) : Option Route :=
  routes.find? fun route => route.on.holds headers

def HeaderToAdd.apply (getenv : String → Option String) (headers : Headers) (field : HeaderToAdd) :
    Headers :=
  let value := match field.value with
    | .text value => value
    -- an unset variable is a dash
    | .environment name => (getenv name).getD "-"
  match field.appendAction with
  | .addIfAbsent =>
      if (headers.get field.key).isSome then headers else headers.add field.key value
  | .overwriteIfExistsOrAdd => headers.set field.key value

/-- The headers that a route sends on: what it removes goes before what it adds. -/
def Route.forward (route : Route) (getenv : String → Option String) (headers : Headers) : Headers :=
  route.requestHeadersToAdd.foldl (HeaderToAdd.apply getenv)
    (headers.removeAll route.requestHeadersToRemove)

/-! ### What matching depends on -/

/-- Routes that look at some headers only give equal first matches where these agree. -/
theorem firstMatch_congr {routes : List Route} {headers other : Headers}
    (samePath : barePath headers = barePath other)
    (same : ∀ route ∈ routes, ∀ test ∈ route.on.headers, headers.get test.1 = other.get test.1) :
    firstMatch routes headers = firstMatch routes other := by
  induction routes with
  | nil => rfl
  | cons route rest ih =>
      have here : route.on.holds headers = route.on.holds other := by
        unfold RouteMatch.holds
        rw [samePath]
        refine congrArg (_ && ·) (Bool.eq_iff_iff.mpr ?_)
        rw [List.all_eq_true, List.all_eq_true]
        exact forall₂_congr fun test mem => by rw [same route List.mem_cons_self test mem]
      unfold firstMatch
      rw [List.find?_cons, List.find?_cons, here]
      split
      · rfl
      · exact ih fun later mem => same later (List.mem_cons_of_mem _ mem)

theorem firstMatch_some {routes : List Route} {headers : Headers} {route : Route}
    (found : firstMatch routes headers = some route) :
    route ∈ routes ∧ route.on.holds headers = true := by
  have holds := List.find?_some found
  exact ⟨List.mem_of_find?_eq_some found, holds⟩

/-- When one of the first routes matches, the first match is one of them. -/
theorem mem_take_of_firstMatch (n : Nat) {routes : List Route} {headers : Headers} {found : Route}
    (early : ∃ route ∈ routes.take n, route.on.holds headers = true)
    (first : firstMatch routes headers = some found) : found ∈ routes.take n := by
  obtain ⟨route, mem, holds⟩ := early
  unfold firstMatch at first
  rw [← List.take_append_drop n routes, List.find?_append] at first
  cases taken : (routes.take n).find? fun route => route.on.holds headers with
  | none => exact absurd holds (List.find?_eq_none.mp taken route mem)
  | some other =>
      rw [taken, Option.some_or] at first
      cases first
      exact List.mem_of_find?_eq_some taken

/-- A name that no addition of a route has, and that it removes, is gone. -/
theorem get_forward {route : Route} {getenv : String → Option String} {headers : Headers}
    {name : String} (apart : ∀ field ∈ route.requestHeadersToAdd, field.key ≠ name) :
    (route.forward getenv headers).get name =
      (headers.removeAll route.requestHeadersToRemove).get name := by
  unfold Route.forward
  generalize headers.removeAll route.requestHeadersToRemove = kept
  revert apart
  generalize route.requestHeadersToAdd = added
  intro apart
  induction added generalizing kept with
  | nil => rfl
  | cons field rest ih =>
      rw [List.foldl_cons, ih _ fun later mem => apart later (List.mem_cons_of_mem _ mem)]
      have other := apart field List.mem_cons_self
      unfold HeaderToAdd.apply
      dsimp only
      cases field.appendAction with
      | addIfAbsent =>
          dsimp only
          split
          · rfl
          · exact Headers.get_add_of_ne other.symm
      | overwriteIfExistsOrAdd =>
          exact (Headers.get_add_of_ne other.symm).trans (Headers.get_remove_of_ne other.symm)

end GmMiner.Envoy
