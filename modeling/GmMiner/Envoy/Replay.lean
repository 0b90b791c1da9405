import GmMiner.Envoy.Upstreams

/-!
Requests that must not be replayed.

The filter classifies them by provider, method and path; whether Envoy replays one is up to the
retry policy of the route it takes. The two lists agree but for Engy, whose catch-all route retries
requests that the filter classifies.
-/

namespace GmMiner.Envoy

open GmMiner.Lib

variable {selections : Selections} {hosts : Hosts} {env getenv : String → Option String}
  {secret : String} {headers left : Headers} {filter : Filter}

/-- What `envoy_on_request` classifies a request as. -/
def Filter.nonReplayable (filter : Filter) (headers : Headers) : Bool :=
  filter.nonReplayableRequest (stripInboundAuth headers) (headers.get "x-gm-provider")
    (barePath headers)

/-- A request that must not be replayed is handed on at most once: its provider's route does not
retry, and it carries no retry header of its caller. -/
def HandedOnce (selections : Selections) (hosts : Hosts) (filter : Filter) (headers : Headers) :
    Prop :=
  filter.nonReplayable headers = true →
    (∀ route, firstMatch (providerRoutes selections hosts) headers = some route →
      route.retries = false) ∧
    ∀ left, filter.envoyOnRequest headers = .ok left →
      ∀ route, firstMatch (renderedRoutes selections hosts) left = some route →
        ∀ name ∈ retryHeaders, (route.forward filter.getenv left).get name = none

/-- A video's creation, or a path under it. -/
def isVideo (bare : String) : Bool := bare == "/v1/videos" || startsWith "/v1/videos/" bare

/-- The requests that take Engy's catch-all route though the filter classifies them. -/
def Retried (headers : Headers) : Prop :=
  headers.get "x-gm-provider" = some "engy" ∧
    (barePath headers = "/v1/images/generations" ∨
      headers.get ":method" = some "POST" ∧ isVideo (barePath headers) = true)

/-! ### What the filter classifies -/

/-- The requests that the filter classifies, provider by provider. -/
inductive Classified (filter : Filter) (headers : Headers) : Prop
  | anthropic (provider : headers.get "x-gm-provider" = some "anthropic")
      (noRetry : (filter.slotConfig "anthropic").any SlotConfig.noRetry = true)
      (post : headers.get ":method" = some "POST") (messages : barePath headers = "/v1/messages")
  | video (post : headers.get ":method" = some "POST") (video : isVideo (barePath headers) = true)
      (provider : headers.get "x-gm-provider" = some "deepinfra" ∨
        headers.get "x-gm-provider" = some "kubetee" ∨ headers.get "x-gm-provider" = some "engy")
  | engyVideo (provider : headers.get "x-gm-provider" = some "engy")
      (post : headers.get ":method" = some "POST")
      (video : barePath headers = "/v2/video_generation")
  | inference (provider : headers.get "x-gm-provider" = some "deepinfra")
      (inference : startsWith "/v1/inference/" (barePath headers) = true)
  | images (provider : headers.get "x-gm-provider" = some "kubetee" ∨
        headers.get "x-gm-provider" = some "engy")
      (images : barePath headers = "/v1/images/generations")

theorem stripInboundAuth_method :
    (stripInboundAuth headers).get ":method" = headers.get ":method" := by
  unfold stripInboundAuth
  rw [Headers.get_removeAll, if_neg (by decide)]

/-- A request that is not to be replayed is one of these kinds. -/
theorem classified (nonReplayable : filter.nonReplayable headers = true) :
    Classified filter headers := by
  unfold Filter.nonReplayable Filter.nonReplayableRequest at nonReplayable
  rw [stripInboundAuth_method] at nonReplayable
  split at nonReplayable
  · rename_i provider
    rw [Bool.and_eq_true, Bool.and_eq_true, provider, Option.bind_some] at nonReplayable
    exact .anthropic provider nonReplayable.1.1 (beq_iff_eq.mp nonReplayable.1.2)
      (beq_iff_eq.mp nonReplayable.2)
  · split at nonReplayable
    · cases nonReplayable
    · rename_i known
      have provider : headers.get "x-gm-provider" = some "deepinfra" ∨
          headers.get "x-gm-provider" = some "kubetee" ∨
          headers.get "x-gm-provider" = some "engy" := by
        by_contra apart
        rw [not_or, not_or] at apart
        exact known apart
      split at nonReplayable
      · rename_i video
        refine .video (beq_iff_eq.mp nonReplayable) ?_ provider
        rw [isVideo, Bool.or_eq_true, beq_iff_eq]
        exact video
      · split at nonReplayable
        · rename_i video
          exact .engyVideo video.1 (beq_iff_eq.mp nonReplayable) video.2
        · split at nonReplayable
          · rename_i deepinfra
            exact .inference deepinfra nonReplayable
          · rename_i other
            exact .images (provider.resolve_left other) (beq_iff_eq.mp nonReplayable)

/-- A request that was retried is not to be replayed. -/
theorem nonReplayable_of_retried (retried : Retried headers) :
    filter.nonReplayable headers = true := by
  obtain ⟨provider, paths⟩ := retried
  unfold Filter.nonReplayable Filter.nonReplayableRequest
  rw [stripInboundAuth_method, provider]
  rcases paths with images | ⟨post, video⟩
  · rw [images, if_neg (by decide), if_neg (by decide), if_neg (by decide), if_neg (by decide),
      if_neg (by decide)]
    rfl
  · rw [isVideo, Bool.or_eq_true, beq_iff_eq] at video
    rw [post, if_neg (by decide), if_neg (by decide), if_pos video]
    rfl

/-! ### Routes that do not retry -/

/-- The written route that decides among those of a provider. -/
theorem providerRoute {provider : String} {upstream : Upstream} {route : Route}
    (given : headers.get "x-gm-provider" = some provider)
    (loaded : (loadUpstreams selections hosts).find?
      (fun upstream => upstream.provider == provider) = some upstream)
    (found : firstMatch (providerRoutes selections hosts) headers = some route) :
    ∃ written, firstMatch upstream.file.routes headers = some written ∧
      addInternalHeaderStrip written upstream.provider = route := by
  rw [firstMatch_providerRoutes, upstreamOf_eq given loaded, Option.bind_some,
    firstMatch_routes] at found
  exact Option.map_eq_some_iff.mp found

theorem onProvider_holds {path : PathMatch} {provider : String}
    (given : headers.get "x-gm-provider" = some provider)
    (fits : path.holds (barePath headers) = true) :
    (onProvider path provider).holds headers = true := by
  refine RouteMatch.holds_iff.mpr ⟨fits, ?_⟩
  unfold onProvider
  rw [List.forall_mem_singleton]
  exact ⟨provider, given, beq_self_eq_true _⟩

/-- The routes of inference and of videos are not retried. -/
theorem deepinfra_once {written : Route} (provider : headers.get "x-gm-provider" = some "deepinfra")
    (found : firstMatch deepinfra.routes headers = some written)
    (paths : startsWith "/v1/inference/" (barePath headers) = true ∨
      isVideo (barePath headers) = true) : written.retries = false := by
  have early : ∃ route ∈ deepinfra.routes.take 3, route.on.holds headers = true := by
    rcases paths with inference | video
    · exact ⟨_, List.mem_cons_self, onProvider_holds provider inference⟩
    · rcases Bool.or_eq_true_iff.mp video with exactly | under
      · exact ⟨_, List.mem_cons_of_mem _ List.mem_cons_self, onProvider_holds provider exactly⟩
      · exact ⟨_, List.mem_cons_of_mem _ (List.mem_cons_of_mem _ List.mem_cons_self),
          onProvider_holds provider under⟩
  have unretried : ∀ route ∈ deepinfra.routes.take 3, route.retries = false := by decide
  exact unretried written (mem_take_of_firstMatch 3 early found)

/-- The route of Engy's video is not retried. -/
theorem engy_once {written : Route} (provider : headers.get "x-gm-provider" = some "engy")
    (found : firstMatch engy.routes headers = some written)
    (post : headers.get ":method" = some "POST")
    (video : barePath headers = "/v2/video_generation") : written.retries = false := by
  have early : ∃ route ∈ engy.routes.take 1, route.on.holds headers = true := by
    refine ⟨_, List.mem_cons_self, RouteMatch.holds_iff.mpr ⟨beq_iff_eq.mpr video, ?_⟩⟩
    rw [List.forall_mem_cons, List.forall_mem_singleton]
    exact ⟨⟨"POST", post, beq_self_eq_true _⟩, "engy", provider, beq_self_eq_true _⟩
  have unretried : ∀ route ∈ engy.routes.take 1, route.retries = false := by decide
  exact unretried written (mem_take_of_firstMatch 1 early found)

/-- Whatever is classified and not among Engy's leftovers takes a route that does not retry. -/
theorem unretried_of_classified
    (nonReplayable : (renderedFilter selections hosts env getenv secret).nonReplayable headers =
      true) (kept : ¬ Retried headers) {route : Route}
    (found : firstMatch (providerRoutes selections hosts) headers = some route) :
    route.retries = false := by
  have kubeteeOnce : ∀ route ∈ kubetee.routes, route.retries = false := by decide
  cases classified nonReplayable with
  | anthropic provider noRetry =>
      obtain ⟨written, first, rfl⟩ := providerRoute provider rfl found
      obtain ⟨anthropic, openai⟩ := selections
      cases anthropic with
      | direct => exact absurd (show false = true from noRetry) Bool.false_ne_true
      | foundry => exact absurd (show false = true from noRetry) Bool.false_ne_true
      | bedrock =>
          have bedrockOnce : ∀ route ∈ anthropicBedrock.routes, route.retries = false := by decide
          exact bedrockOnce written (firstMatch_some first).1
  | video post video providers =>
      rcases providers with provider | provider | provider
      · obtain ⟨written, first, rfl⟩ := providerRoute provider rfl found
        have once := deepinfra_once provider first (.inr video)
        exact once
      · obtain ⟨written, first, rfl⟩ := providerRoute provider rfl found
        exact kubeteeOnce written (firstMatch_some first).1
      · exact absurd ⟨provider, .inr ⟨post, video⟩⟩ kept
  | engyVideo provider post video =>
      obtain ⟨written, first, rfl⟩ := providerRoute provider rfl found
      have once := engy_once provider first post video
      exact once
  | inference provider inference =>
      obtain ⟨written, first, rfl⟩ := providerRoute provider rfl found
      have once := deepinfra_once provider first (.inl inference)
      exact once
  | images providers images =>
      rcases providers with provider | provider
      · obtain ⟨written, first, rfl⟩ := providerRoute provider rfl found
        exact kubeteeOnce written (firstMatch_some first).1
      · exact absurd ⟨provider, .inl images⟩ kept

/-! ### Retry headers of the caller -/

theorem stripped_retry (nonReplayable : filter.nonReplayable headers = true) {name : String}
    (retry : name ∈ retryHeaders) : (filter.stripped headers).values name = [] := by
  unfold Filter.stripped Filter.stripRetries
  rw [if_pos (show filter.nonReplayableRequest _ _ _ = true from nonReplayable)]
  unfold stripRetryHeaders
  rw [Headers.values_removeAll, if_pos retry]

/-- The filter adds no retry header. -/
theorem left_retry (nonReplayable :
      (renderedFilter selections hosts env getenv secret).nonReplayable headers = true)
    (continues : (renderedFilter selections hosts env getenv secret).envoyOnRequest headers =
      .ok left) {name : String} (retry : name ∈ retryHeaders) : left.values name = [] := by
  have away : barePath headers ≠ "/attestation/info" := by
    intro here
    have paths := classified nonReplayable
    cases paths with
    | anthropic _ _ _ messages => exact absurd (here.symm.trans messages) (by decide)
    | video _ video _ =>
        rw [here] at video
        exact absurd video (by decide)
    | engyVideo _ _ video => exact absurd (here.symm.trans video) (by decide)
    | inference _ inference =>
        rw [here] at inference
        exact absurd inference (by decide)
    | images _ images => exact absurd (here.symm.trans images) (by decide)
  obtain ⟨-, chosen, served, accepted, isServed, rfl⟩ := envoyOnRequest_ok continues away
  have start := stripped_retry nonReplayable retry
  have selected : chosen.values name = [] := by
    rcases upstreamSelectorAccepted_ok accepted with ⟨-, rfl, -⟩ | ⟨-, -, rfl, -⟩ | ⟨-, -, rfl⟩
    · exact start
    · exact start
    · rw [Headers.values_remove, start, ite_self]
  have slotted : served.values name = [] := by
    cases isServed with
    | slotless => exact selected
    | cloud => exact selected
    | direct cfg envName key known =>
        obtain ⟨provider, -, configured⟩ := Option.bind_eq_some_iff.mp known
        have apart : ∀ name ∈ retryHeaders, name ∉ "" :: authHeaders := by decide
        have header := slotConfigLua_authHeader configured
        have other : name ≠ cfg.authHeader.getD "" := fun same => apart name retry (by rwa [same])
        rw [setDirectAuth_values, selected, if_neg other]
        rfl
  rw [stripInternalHeaders_values, slotted, ite_self]

/-- No route adds a retry header. -/
theorem renderedRoutes_adds : ∀ route ∈ renderedRoutes selections hosts,
    ∀ field ∈ route.requestHeadersToAdd, field.key ∉ retryHeaders := by
  have written : ∀ upstream ∈ loadUpstreams selections hosts, ∀ route ∈ upstream.file.routes,
      ∀ field ∈ route.requestHeadersToAdd, field.key ∉ retryHeaders := by
    refine forall_loadUpstreams (P := fun _ routes _ => ∀ route ∈ routes,
      ∀ field ∈ route.requestHeadersToAdd, field.key ∉ retryHeaders) ?_
    obtain ⟨anthropic, openai⟩ := selections
    cases anthropic <;> cases openai <;> decide
  intro route mem
  rcases List.mem_cons.mp mem with rfl | mem
  · simp [attestationRoute]
  rcases List.mem_append.mp mem with mem | mem
  · obtain ⟨upstream, loaded, mem⟩ := List.mem_flatMap.mp mem
    obtain ⟨route, route_mem, rfl⟩ := mem_routes.mp mem
    exact written upstream loaded route route_mem
  · rw [List.mem_singleton.mp mem]
    simp [catchAllRoute]

/-! ### Handed on at most once -/

/-- The paths of Engy's routes that do not retry. -/
def engyOnce : List PathMatch := [.path "/v2/video_generation",
  .start "/v2/query/video_generation/", .start "/v2/video_generation/"]

/-- A video's path is none of Engy's. -/
theorem engyOnce_video {bare : String} (video : isVideo bare = true) :
    startsWith "/" bare = true ∧ ∀ path ∈ engyOnce, path.holds bare = false := by
  rcases Bool.or_eq_true_iff.mp video with exactly | under
  · rw [beq_iff_eq.mp exactly]
    decide
  · refine ⟨startsWith_trans (by decide) under, ?_⟩
    have starts : ∀ start ∈ ["/v2/query/video_generation/", "/v2/video_generation/"],
        startsWith start bare = false := by
      intro start mem
      rw [Bool.eq_false_iff]
      intro begins
      have apart : ∀ start ∈ ["/v2/query/video_generation/", "/v2/video_generation/"],
          ¬ (startsWith "/v1/videos/" start = true ∨ startsWith start "/v1/videos/" = true) := by
        decide
      exact apart start mem (startsWith_or under begins)
    have path : (PathMatch.path "/v2/video_generation").holds bare = false := by
      refine beq_eq_false_iff_ne.mpr fun same => ?_
      rw [same] at under
      exact absurd under (by decide)
    unfold engyOnce
    rw [List.forall_mem_cons, List.forall_mem_cons, List.forall_mem_singleton]
    exact ⟨path, starts _ (by decide), starts _ (by decide)⟩

/-- Engy's catch-all route takes what the filter classifies but no other route of Engy's does. -/
theorem retries_of_retried (retried : Retried headers) :
    ∃ route, firstMatch (providerRoutes selections hosts) headers = some route ∧
      route.retries = true := by
  obtain ⟨provider, paths⟩ := retried
  have apart : startsWith "/" (barePath headers) = true ∧
      ∀ path ∈ engyOnce, path.holds (barePath headers) = false := by
    rcases paths with images | ⟨-, video⟩
    · rw [images]
      decide
    · exact engyOnce_video video
  have catches : ∃ route ∈ engy.routes, route.on.holds headers = true :=
    ⟨_, List.mem_of_getElem? (i := 3) rfl, onProvider_holds provider apart.1⟩
  obtain ⟨written, first⟩ := Option.isSome_iff_exists.mp (List.find?_isSome.mpr catches)
  have either : ∀ route ∈ engy.routes, route.retries = true ∨ route.on.path ∈ engyOnce := by
    decide
  refine ⟨addInternalHeaderStrip written "engy", ?_, ?_⟩
  · rw [firstMatch_providerRoutes, upstreamOf_eq provider rfl, Option.bind_some, firstMatch_routes]
    exact congrArg (Option.map _) first
  · obtain ⟨mem, holds⟩ := firstMatch_some first
    rcases either written mem with retries | listed
    · exact retries
    · have path := (RouteMatch.holds_iff.mp holds).1
      rw [apart.2 _ listed] at path
      cases path

/-- A request is handed on at most once just when Engy's catch-all route does not take it though
the filter classifies it. -/
theorem handedOnce_iff :
    HandedOnce selections hosts (renderedFilter selections hosts env getenv secret) headers ↔
      ¬ Retried headers := by
  constructor
  · intro once retried
    obtain ⟨route, found, retries⟩ := retries_of_retried retried
    rw [(once (nonReplayable_of_retried retried)).1 route found] at retries
    cases retries
  · intro kept nonReplayable
    refine ⟨fun route found => unretried_of_classified nonReplayable kept found, ?_⟩
    intro left continues route found name retry
    have added := renderedRoutes_adds route (firstMatch_some found).1
    rw [get_forward fun field mem same => added field mem (by rwa [same]), Headers.get_removeAll]
    split
    · rfl
    · unfold Headers.get
      rw [left_retry nonReplayable continues retry]
      rfl

/-- A video posted to Engy takes the catch-all route, which retries. -/
theorem engy_video_retried : ¬ ∀ (selections : Selections) (hosts : Hosts)
    (env getenv : String → Option String) (secret : String) (headers : Headers),
    HandedOnce selections hosts (renderedFilter selections hosts env getenv secret) headers := by
  intro always
  have once := always ⟨.direct, .direct⟩ ⟨"", "", ""⟩ (fun _ => none) (fun _ => none) ""
    [(":method", "POST"), (":path", "/v1/videos"), ("x-gm-provider", "engy")] (by decide)
  have retried := once.1 (addInternalHeaderStrip (engy.routes.getLast (by decide)) "engy")
    (by decide)
  exact absurd retried (by decide)

end GmMiner.Envoy
