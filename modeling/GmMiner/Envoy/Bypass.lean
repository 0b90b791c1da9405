import GmMiner.Envoy.Upstreams

/-!
No way around the gates of the data plane.

The filter and the routes decide on the same fields with different tests. What the filter leaves
keeps every field that a route looks at, so a request takes one and the same route before and after
the filter, and what the filter asked of it holds of that route.
-/

namespace GmMiner.Envoy

open GmMiner.Lib

variable {selections : Selections} {hosts : Hosts} {env getenv : String → Option String}
  {secret : String} {headers left : Headers}

/-! ### The same route at both moments -/

/-- The fields that routes look at. -/
def routedFields : List String :=
  [":path", ":method", "x-gm-provider", "x-gm-upstream-model", "x-gm-ordinary"]

/-- The filter leaves what a route of the provider looks at. -/
theorem untouched_of_routed {name : String} (routed : name ∈ routedFields)
    (chutes : name = "x-gm-upstream-model" ∨ name = "x-gm-ordinary" →
      headers.get "x-gm-provider" = some "chutes") :
    Untouched (renderedFilter selections hosts env getenv secret) (headers.get "x-gm-provider")
      name where
  noAuth := by
    have all : ∀ name ∈ routedFields, name ∉ authHeaders := by decide
    exact all name routed
  noRetry := by
    have all : ∀ name ∈ routedFields, name ∉ retryHeaders := by decide
    exact all name routed
  kept keepExecutionPolicy := by
    by_cases ofChutes : name = "x-gm-upstream-model" ∨ name = "x-gm-ordinary"
    · rw [chutes ofChutes]
      rcases ofChutes with rfl | rfl <;> cases keepExecutionPolicy <;> decide
    · have plain : ∀ name ∈ routedFields, ¬ (name = "x-gm-upstream-model" ∨ name = "x-gm-ordinary") →
          (!startsWith "x-gm-" name || name == "x-gm-provider") = true := by decide
      unfold keptName
      rw [plain name routed ofChutes]
      rfl
  selector same := chutes (.inl same)
  apart cfg known _ same := by
    obtain ⟨provider, -, configured⟩ := Option.bind_eq_some_iff.mp known
    have mem := slotConfigLua_authHeader configured
    rw [same] at mem
    have all : ∀ name ∈ routedFields, name ∉ "" :: authHeaders := by decide
    exact all name routed mem

/-- Only routes of Chutes look at the selector and at the ordinary marker. -/
theorem loadUpstreams_tests : ∀ upstream ∈ loadUpstreams selections hosts,
    ∀ route ∈ upstream.file.routes, ∀ test ∈ route.on.headers, test.1 ∈ routedFields ∧
      (test.1 = "x-gm-upstream-model" ∨ test.1 = "x-gm-ordinary" →
        upstream.provider = "chutes") := by
  refine forall_loadUpstreams (P := fun provider routes _ => ∀ route ∈ routes,
    ∀ test ∈ route.on.headers, test.1 ∈ routedFields ∧
      (test.1 = "x-gm-upstream-model" ∨ test.1 = "x-gm-ordinary" → provider = "chutes")) ?_
  obtain ⟨anthropic, openai⟩ := selections
  cases anthropic <;> cases openai <;> decide

theorem upstreamOf_some {upstream : Upstream}
    (found : upstreamOf selections hosts headers = some upstream) :
    upstream ∈ loadUpstreams selections hosts ∧
      headers.get "x-gm-provider" = some upstream.provider := by
  obtain ⟨provider, given, found⟩ := Option.bind_eq_some_iff.mp found
  have same := List.find?_some found
  rw [given, ← beq_iff_eq.mp same]
  exact ⟨List.mem_of_find?_eq_some found, rfl⟩

/-- The route is the same on the headers as received and as the filter leaves them. -/
theorem firstMatch_of_continues
    (continues : (renderedFilter selections hosts env getenv secret).envoyOnRequest headers =
      .ok left) :
    firstMatch (renderedRoutes selections hosts) left =
      firstMatch (renderedRoutes selections hosts) headers := by
  have kept : ∀ name ∈ routedFields, (name = "x-gm-upstream-model" ∨ name = "x-gm-ordinary" →
      headers.get "x-gm-provider" = some "chutes") → left.get name = headers.get name :=
    fun name routed chutes => get_of_continues continues (untouched_of_routed routed chutes)
  have samePath : barePath left = barePath headers := by
    unfold barePath
    rw [kept ":path" (by decide) (by simp)]
  have sameUpstream : upstreamOf selections hosts left = upstreamOf selections hosts headers := by
    unfold upstreamOf
    rw [kept "x-gm-provider" (by decide) (by simp)]
  have sameCatchAll : firstMatch [catchAllRoute] left = firstMatch [catchAllRoute] headers :=
    firstMatch_congr samePath (by simp [catchAllRoute])
  have sameProviderRoute : firstMatch (providerRoutes selections hosts) left =
      firstMatch (providerRoutes selections hosts) headers := by
    rw [firstMatch_providerRoutes, firstMatch_providerRoutes, sameUpstream]
    refine Option.bind_congr fun upstream found =>
      firstMatch_congr samePath fun route mem test tested => ?_
    obtain ⟨written, written_mem, rfl⟩ := mem_routes.mp mem
    obtain ⟨loaded, given⟩ := upstreamOf_some found
    obtain ⟨routed, chutes⟩ := loadUpstreams_tests upstream loaded written written_mem test tested
    exact kept test.1 routed fun gated => by rw [given, chutes gated]
  rw [firstMatch_renderedRoutes, firstMatch_renderedRoutes, samePath, sameProviderRoute,
    sameCatchAll]

/-! ### Where a request goes -/

/-- The endpoint that a request is sent to, if it is. -/
def reached (selections : Selections) (hosts : Hosts) (headers : Headers) : Option Cluster :=
  (firstMatch (renderedRoutes selections hosts) headers).bind (endpoint selections hosts)

/-- Away from the attestation surface a request goes where a route of its provider's file leads. -/
theorem route_away {provider : String} {upstream : Upstream} {route : Route} {cluster : Cluster}
    (given : headers.get "x-gm-provider" = some provider)
    (loaded : (loadUpstreams selections hosts).find?
      (fun upstream => upstream.provider == provider) = some upstream)
    (away : barePath headers ≠ "/attestation/info")
    (found : firstMatch (renderedRoutes selections hosts) headers = some route)
    (leads : endpoint selections hosts route = some cluster) :
    ∃ written, firstMatch upstream.file.routes headers = some written ∧
      addInternalHeaderStrip written upstream.provider = route := by
  rw [firstMatch_renderedRoutes, if_neg away, firstMatch_providerRoutes,
    upstreamOf_eq given loaded, Option.bind_some, firstMatch_routes] at found
  rcases Option.or_eq_some_iff.mp found with found | ⟨-, found⟩
  · exact Option.map_eq_some_iff.mp found
  · have mem := (firstMatch_some found).1
    rw [List.mem_singleton] at mem
    rw [mem] at leads
    cases leads

/-- A request away from the attestation goes to its provider's upstream. -/
theorem reached_away {provider : String} {upstream : Upstream} {cluster : Cluster}
    (given : headers.get "x-gm-provider" = some provider)
    (loaded : (loadUpstreams selections hosts).find?
      (fun upstream => upstream.provider == provider) = some upstream)
    (away : barePath headers ≠ "/attestation/info")
    (sent : reached selections hosts headers = some cluster) :
    ∃ written, firstMatch upstream.file.routes headers = some written ∧
      endpoint selections hosts written = some cluster := by
  obtain ⟨route, found, leads⟩ := Option.bind_eq_some_iff.mp sent
  obtain ⟨written, first, rfl⟩ := route_away given loaded away found leads
  exact ⟨written, first, leads⟩

/-- The one endpoint of a named cluster. -/
theorem endpoint_eq {route : Route} {cluster other : Cluster} {name : String}
    (leads : endpoint selections hosts route = some cluster) (named : route.cluster = some name)
    (known : (renderedClusters selections hosts).find? (fun cluster => cluster.name == name) =
      some other) : cluster = other := by
  unfold endpoint at leads
  rw [named] at leads
  exact Option.some.inj (leads.symm.trans known)

/-- The loopback clusters. -/
theorem find_loopback {name : String} {portValue : Nat}
    (listed : (name, portValue) ∈ [("near_verify_proxy", 8082), ("chutes_verify_proxy", 8083),
      ("kubetee_verify_proxy", 8084)]) :
    (renderedClusters selections hosts).find? (fun cluster => cluster.name == name) =
      some (.loopback name portValue) := by
  obtain ⟨anthropic, openai⟩ := selections
  simp only [List.mem_cons, Prod.mk.injEq, List.not_mem_nil, or_false] at listed
  rcases listed with ⟨rfl, rfl⟩ | ⟨rfl, rfl⟩ | ⟨rfl, rfl⟩ <;>
    cases anthropic <;> cases openai <;> rfl

theorem near_reached {cluster : Cluster} (provider : headers.get "x-gm-provider" = some "near")
    (away : barePath headers ≠ "/attestation/info")
    (sent : reached selections hosts headers = some cluster) :
    cluster = .loopback "near_verify_proxy" 8082 := by
  obtain ⟨route, found, leads⟩ := reached_away provider rfl away sent
  have named : ∀ route ∈ near.routes, route.cluster = some "near_verify_proxy" := by decide
  exact endpoint_eq leads (named route (firstMatch_some found).1) (find_loopback (by simp))

/-- What reaches KubeTEE goes through its verifying proxy. -/
theorem kubetee_reached {cluster : Cluster}
    (provider : headers.get "x-gm-provider" = some "kubetee")
    (away : barePath headers ≠ "/attestation/info")
    (sent : reached selections hosts headers = some cluster) :
    cluster = .loopback "kubetee_verify_proxy" 8084 ∨
      barePath headers = "/v1/images/generations" := by
  obtain ⟨route, found, leads⟩ := reached_away provider rfl away sent
  obtain ⟨mem, holds⟩ := firstMatch_some found
  have either : ∀ route ∈ kubetee.routes, route.cluster = some "kubetee_verify_proxy" ∨
      route.on.path = .path "/v1/images/generations" := by decide
  rcases either route mem with named | images
  · exact .inl (endpoint_eq leads named (find_loopback (by simp)))
  · right
    have path := (RouteMatch.holds_iff.mp holds).1
    rw [images] at path
    exact beq_iff_eq.mp path

/-- What reaches Bedrock goes through its adapter. -/
theorem bedrock_reached {cluster : Cluster} (bedrock : selections.anthropic = .bedrock)
    (provider : headers.get "x-gm-provider" = some "anthropic")
    (away : barePath headers ≠ "/attestation/info")
    (sent : reached selections hosts headers = some cluster) :
    cluster = .loopback "bedrock_mantle_adapter" 8085 ∧ headers.get ":method" = some "POST" ∧
      barePath headers = "/v1/messages" := by
  obtain ⟨anthropic, openai⟩ := selections
  obtain rfl : anthropic = .bedrock := bedrock
  obtain ⟨route, found, leads⟩ := reached_away provider rfl away sent
  obtain ⟨mem, holds⟩ := firstMatch_some found
  rw [List.mem_singleton.mp mem] at holds leads
  obtain ⟨path, tests⟩ := RouteMatch.holds_iff.mp holds
  obtain ⟨given, isMethod, same⟩ := tests (":method", .exactly "POST") List.mem_cons_self
  rw [beq_iff_eq.mp same] at isMethod
  refine ⟨?_, isMethod, beq_iff_eq.mp path⟩
  cases openai <;> exact endpoint_eq leads rfl rfl

/-! ### Chutes -/

/-- The selector passes the matcher of the verifier's route just when the filter takes it for one
of the verifier's. -/
theorem suffixIgnoringCase_eq {selector : String} :
    (StringMatch.suffixIgnoringCase "-TEE").holds selector = endsInTee selector := by
  have lower : "-TEE".toList.map Char.toLower = "-tee".toList := by decide
  exact congrArg (fun text => List.isSuffixOf text (selector.toList.map Char.toLower)) lower

/-- A path that some route of Chutes takes is one that all of them take. -/
theorem chutes_path {route : Route} (mem : route ∈ chutes.routes)
    (holds : route.on.holds headers = true) : startsWith "/" (barePath headers) = true := by
  have shape : ∀ route ∈ chutes.routes, route.on.path = .start "/" := by decide
  have path := (RouteMatch.holds_iff.mp holds).1
  rw [shape route mem] at path
  exact path

/-- A TEE model of Chutes goes through its verifying proxy. -/
theorem chutes_reached {cluster : Cluster} {selector : String}
    (provider : headers.get "x-gm-provider" = some "chutes")
    (selected : headers.get "x-gm-upstream-model" = some selector)
    (tee : endsInTee selector = true) (away : barePath headers ≠ "/attestation/info")
    (sent : reached selections hosts headers = some cluster) :
    cluster = .loopback "chutes_verify_proxy" 8083 ∨ headers.values "x-gm-ordinary" = ["1"] := by
  obtain ⟨route, found, leads⟩ := reached_away provider rfl away sent
  obtain ⟨mem, holds⟩ := firstMatch_some found
  have gated : chutesVerified.on.holds headers = true := by
    refine RouteMatch.holds_iff.mpr ⟨chutes_path mem holds, ?_⟩
    unfold chutesVerified
    rw [List.forall_mem_cons, List.forall_mem_singleton]
    exact ⟨⟨"chutes", provider, beq_self_eq_true _⟩,
      selector, selected, suffixIgnoringCase_eq.trans tee⟩
  -- the verifier's route is the second one, so the first match is that or the ordinary one
  have first := mem_take_of_firstMatch 2
    ⟨chutesVerified, List.mem_cons_of_mem _ List.mem_cons_self, gated⟩ found
  rcases List.mem_pair.mp first with rfl | rfl
  · right
    have tests := (RouteMatch.holds_iff.mp holds).2
    obtain ⟨marker, given, same⟩ := tests ("x-gm-ordinary", .exactly "1") (by decide)
    rw [beq_iff_eq.mp same] at given
    exact Headers.values_of_get given (by decide)
  · exact .inl (endpoint_eq leads rfl (find_loopback (by simp)))

/-- What goes to Chutes itself has neither the selector nor the marker. -/
theorem chutes_forwards {route : Route} {cluster : Cluster}
    (provider : headers.get "x-gm-provider" = some "chutes")
    (found : firstMatch (renderedRoutes selections hosts) headers = some route)
    (leads : endpoint selections hosts route = some cluster)
    (direct : cluster.address = "llm.chutes.ai") :
    ∀ name ∈ ["x-gm-upstream-model", "x-gm-ordinary"],
      (route.forward getenv left).get name = none := by
  have away : barePath headers ≠ "/attestation/info" := by
    intro here
    rw [firstMatch_renderedRoutes, if_pos here] at found
    cases found
    obtain rfl : cluster = .loopback "attestd" 8081 := endpoint_eq leads rfl rfl
    exact absurd direct (by decide)
  obtain ⟨written, first, rfl⟩ := route_away provider rfl away found leads
  have either : ∀ route ∈ chutes.routes, route.cluster = some "chutes_verify_proxy" ∨
      (addInternalHeaderStrip route "chutes").requestHeadersToAdd = [] ∧
        ∀ name ∈ ["x-gm-upstream-model", "x-gm-ordinary"],
          name ∈ (addInternalHeaderStrip route "chutes").requestHeadersToRemove := by
    decide
  rcases either written (firstMatch_some first).1 with verified | ⟨nothing, removed⟩
  · obtain rfl : cluster = .loopback "chutes_verify_proxy" 8083 :=
      endpoint_eq leads verified (find_loopback (by simp))
    exact absurd direct (by decide)
  · intro name named
    rw [get_forward (by rw [nothing]; simp), Headers.get_removeAll, if_pos (removed name named)]

/-! ### No bypass -/

/-- What the filter and the routes guarantee together of a request that is let through.

A request skips the node key when it is let through whatever the secret is. The clauses of a
provider are about what is not for the attestation surface, which anyone may ask. -/
structure NoBypass (selections : Selections) (hosts : Hosts) (filter : Filter)
    (headers left : Headers) : Prop where
  sameRoute : firstMatch (renderedRoutes selections hosts) left =
    firstMatch (renderedRoutes selections hosts) headers
  skipsNodeKey :
    (∀ secret, ∃ passed, { filter with expected := secret }.envoyOnRequest headers = .ok passed) ↔
      firstMatch (renderedRoutes selections hosts) headers = some attestationRoute
  near : headers.get "x-gm-provider" = some "near" → barePath headers ≠ "/attestation/info" →
    ∀ cluster, reached selections hosts left = some cluster →
      cluster = .loopback "near_verify_proxy" 8082
  kubetee : headers.get "x-gm-provider" = some "kubetee" →
    barePath headers ≠ "/attestation/info" →
    ∀ cluster, reached selections hosts left = some cluster →
      cluster = .loopback "kubetee_verify_proxy" 8084 ∨
        barePath headers = "/v1/images/generations"
  chutes : headers.get "x-gm-provider" = some "chutes" → barePath headers ≠ "/attestation/info" →
    ∀ selector, headers.get "x-gm-upstream-model" = some selector → endsInTee selector = true →
    ∀ cluster, reached selections hosts left = some cluster →
      cluster = .loopback "chutes_verify_proxy" 8083 ∨ headers.values "x-gm-ordinary" = ["1"]
  chutesDirect : headers.get "x-gm-provider" = some "chutes" →
    ∀ route, firstMatch (renderedRoutes selections hosts) left = some route →
    ∀ cluster, endpoint selections hosts route = some cluster →
      cluster.address = "llm.chutes.ai" →
      ∀ name ∈ ["x-gm-upstream-model", "x-gm-ordinary"],
        (route.forward filter.getenv left).get name = none
  bedrock : selections.anthropic = .bedrock → headers.get "x-gm-provider" = some "anthropic" →
    barePath headers ≠ "/attestation/info" →
    ∀ cluster, reached selections hosts left = some cluster →
      cluster = .loopback "bedrock_mantle_adapter" 8085 ∧ headers.get ":method" = some "POST" ∧
        barePath headers = "/v1/messages"

theorem firstMatch_attestation : firstMatch (renderedRoutes selections hosts) headers =
    some attestationRoute ↔ barePath headers = "/attestation/info" := by
  constructor
  · intro found
    exact beq_iff_eq.mp (RouteMatch.holds_iff.mp (firstMatch_some found).2).1
  · intro here
    rw [firstMatch_renderedRoutes, if_pos here]

/-- With a secret other than the key that came, only the attestation surface is let through. -/
theorem skipsNodeKey_iff {filter : Filter} :
    (∀ secret, ∃ passed, { filter with expected := secret }.envoyOnRequest headers = .ok passed) ↔
      barePath headers = "/attestation/info" := by
  constructor
  · intro always
    by_contra away
    -- a secret longer than the key
    let longer := (headers.get "x-gm-node-key").getD "" ++ "!"
    have length : longer.length = ((headers.get "x-gm-node-key").getD "").length + 1 :=
      String.length_append _ _
    obtain ⟨passed, continues⟩ := always longer
    obtain ⟨keyed, -⟩ := envoyOnRequest_ok continues away
    unfold Filter.nodeKeyAccepted at keyed
    split at keyed
    · cases keyed
    · rename_i accepted
      refine accepted ⟨fun (empty : longer = "") => ?_, fun same => ?_⟩
      · rw [empty] at length
        exact absurd length (by simp)
      · have same : headers.get "x-gm-node-key" = some longer := same
        rw [same, Option.getD_some] at length
        omega
  · intro here secret
    exact ⟨headers, envoyOnRequest_attestation here⟩

theorem filter_no_bypass
    (continues : (renderedFilter selections hosts env getenv secret).envoyOnRequest headers =
      .ok left) :
    NoBypass selections hosts (renderedFilter selections hosts env getenv secret) headers left := by
  have sameRoute := firstMatch_of_continues continues
  have sameReach : reached selections hosts left = reached selections hosts headers := by
    unfold reached
    rw [sameRoute]
  exact {
    sameRoute
    skipsNodeKey := skipsNodeKey_iff.trans firstMatch_attestation.symm
    near := fun provider away cluster sent => near_reached provider away (sameReach ▸ sent)
    kubetee := fun provider away cluster sent => kubetee_reached provider away (sameReach ▸ sent)
    chutes := fun provider away selector selected tee cluster sent =>
      chutes_reached provider selected tee away (sameReach ▸ sent)
    chutesDirect := fun provider route found cluster leads direct =>
      chutes_forwards provider (sameRoute ▸ found) leads direct
    bedrock := fun isBedrock provider away cluster sent =>
      bedrock_reached isBedrock provider away (sameReach ▸ sent) }

/-- A chat for NEAR. -/
theorem filter_no_bypass_near :
    NoBypass ⟨.direct, .direct⟩ ⟨"", "", ""⟩
      (renderedFilter ⟨.direct, .direct⟩ ⟨"", "", ""⟩ (fun _ => none) (fun _ => none) "secret")
      [(":method", "POST"), (":path", "/v1/chat/completions"), ("x-gm-node-key", "secret"),
        ("x-gm-provider", "near"), ("x-gm-upstream-model", "Qwen/Qwen3.8-27B")]
      [(":method", "POST"), (":path", "/v1/chat/completions"), ("x-gm-provider", "near"),
        ("x-gm-upstream-model", "Qwen/Qwen3.8-27B"), ("authorization", "Bearer ")] :=
  filter_no_bypass (by rfl)

/-- Whoever names NEAR may still ask for the attestation, which attestd answers. -/
theorem near_reaches_attestd : ¬ ∀ (selections : Selections) (hosts : Hosts)
    (env getenv : String → Option String) (secret : String) (headers left : Headers),
    (renderedFilter selections hosts env getenv secret).envoyOnRequest headers = .ok left →
    headers.get "x-gm-provider" = some "near" →
    ∀ cluster, reached selections hosts left = some cluster →
      cluster = .loopback "near_verify_proxy" 8082 := by
  intro always
  have attestd := always ⟨.direct, .direct⟩ ⟨"", "", ""⟩ (fun _ => none) (fun _ => none) "secret"
    [(":method", "GET"), (":path", "/attestation/info"), ("x-gm-provider", "near")] _
    (envoyOnRequest_attestation (by decide)) (by decide) (.loopback "attestd" 8081) (by rfl)
  exact absurd attestd (by decide)

end GmMiner.Envoy
