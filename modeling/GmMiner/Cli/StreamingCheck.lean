import GmMiner.Cli.Config
import GmMiner.Envoy.Filter
import GmMiner.Json.Value

/-!
Probes of the streaming self-test (`cli/src/commands/streaming_check.rs`) against the gates of the
worker's filter.

A worker endpoint is the path that probes are joined to. The fields that the HTTP client adds by
itself are left out.
-/

namespace GmMiner.Cli

open GmMiner.Lib GmMiner.Json GmMiner.Envoy

/-! ### Probes -/

structure StreamingTarget where
  /-- The path of the endpoint's URL up to its last slash. -/
  basePath : String
  nodeSecret : String
  /-- A URL's path has no query. -/
  noQuery : '?' ∉ basePath.toList

structure ProbeModel where
  canonical : String
  upstream : Option String
  fallback : Bool
  bindingRevision : Option UInt64
  deriving DecidableEq, Repr

/-- The id to place in the request body. -/
def ProbeModel.wireModel (model : ProbeModel) : String := model.upstream.getD model.canonical

structure ProviderProbe where
  provider : Provider
  model : String
  slot : Option String
  fallback : Bool
  executionPolicy : Option String
  modelBindingRevision : Option UInt64
  path : String
  body : Value

def maxTokens : UInt64 := 32

def probePrompt : String := "Count from one to eight, one number per line."

/-- The body of every probe. -/
def probeBody (model : ProbeModel) : Value := .object [
  ("model", .string model.wireModel),
  ("max_tokens", .number (.posInt maxTokens)),
  ("stream", .bool true),
  ("messages", .array [.object [("role", .string "user"), ("content", .string probePrompt)]])]

def openaiCompatibleProbe (provider : Provider) (model : ProbeModel) (slot : Option String)
    (path : String) : ProviderProbe where
  provider
  model := model.canonical
  slot
  fallback := model.fallback
  executionPolicy := none
  modelBindingRevision := none
  path
  body := probeBody model

def buildProbe (provider : Provider) (model : ProbeModel) (slot : Option String) : ProviderProbe :=
  match provider with
  | .anthropic =>
      { provider
        model := model.canonical
        slot
        fallback := model.fallback
        executionPolicy := none
        modelBindingRevision := model.bindingRevision
        path := "/v1/messages"
        body := probeBody model }
  | .gemini => openaiCompatibleProbe provider model slot "/v1beta/openai/chat/completions"
  | .openAi | .chutes | .zai | .moonshot | .deepInfra | .kubetee | .engy | .moonmath | .near
  | .benchmark => openaiCompatibleProbe provider model slot "/v1/chat/completions"

/-- `endpoint_url`: the path of a probe relative to the endpoint. -/
def endpointPath (target : StreamingTarget) (path : String) : String :=
  target.basePath ++ String.ofList (path.toList.dropWhile (· == '/'))

/-- A field that is sent when it has a value. -/
def optionalField (name : String) (value : Option String) : Headers :=
  (value.map fun value => (name, value)).toList

/-- The selector of a probe of a verified upstream. -/
def probeSelector (probe : ProviderProbe) : Except Error (Option String) :=
  if probe.provider = .near ∨ probe.provider = .kubetee then do
    let selector ← required ((probe.body.get "model").bind Value.asStr)
      [probe.provider.asStr ++ " probe has no upstream source model"]
    return some selector
  else .ok none

/-- The fields of every probe. -/
def probeFields (target : StreamingTarget) (probe : ProviderProbe) : Headers :=
  [(":method", "POST"), (":path", endpointPath target probe.path), ("accept", "text/event-stream"),
    ("content-type", "application/json"), ("x-gm-node-key", target.nodeSecret),
    ("x-gm-provider", probe.provider.asStr)]

/-- The request of `run_provider_probe`. -/
def probeRequest (target : StreamingTarget) (probe : ProviderProbe) : Except Error Headers := do
  let selector ← probeSelector probe
  return probeFields target probe ++
    optionalField "x-gm-upstream-model" selector ++
    optionalField "x-gm-upstream-slot" probe.slot ++
    optionalField "x-gm-execution-policy" probe.executionPolicy ++
    optionalField "x-gm-model-binding-revision"
      (probe.modelBindingRevision.map fun revision => Nat.repr revision.toNat)

/-! ### The gates of the filter -/

/-- The node-key and selector checks accept a request. -/
def AcceptedByGates (filter : Filter) (headers : Headers) : Prop :=
  filter.nodeKeyAccepted headers = .ok () ∧
    ∃ chosen, filter.upstreamSelectorAccepted (filter.stripped headers)
      (headers.get "x-gm-provider") (barePath headers) = .ok chosen

theorem values_optionalField {name other : String} {value : Option String} :
    (optionalField name value).values other = if name = other then value.toList else [] := by
  cases value with
  | none => simp [optionalField]
  | some value => simp [optionalField, Headers.values_cons]

/-- The probe of a product, with what its route authorizes. -/
def authorizedProbe (provider : Provider) (model : ProbeModel) (slot policy : Option String)
    (revision : Option UInt64) : ProviderProbe :=
  { buildProbe provider model slot with
    executionPolicy := policy
    modelBindingRevision := revision }

section Fields

variable {target : StreamingTarget} {provider : Provider} {model : ProbeModel}
  {slot policy : Option String} {revision : Option UInt64} {headers : Headers}

theorem probeSelector_authorized :
    probeSelector (authorizedProbe provider model slot policy revision) =
      .ok (if provider = .near ∨ provider = .kubetee then some model.wireModel else none) := by
  cases provider <;> rfl

theorem authorizedProbe_provider :
    (authorizedProbe provider model slot policy revision).provider = provider := by
  cases provider <;> rfl

theorem authorizedProbe_path :
    (authorizedProbe provider model slot policy revision).path ∈
      ["/v1/messages", "/v1beta/openai/chat/completions", "/v1/chat/completions"] := by
  cases provider <;> simp [authorizedProbe, buildProbe, openaiCompatibleProbe]

/-- The values that a probe is sent with. -/
theorem values_probeRequest
    (sent : probeRequest target (authorizedProbe provider model slot policy revision) =
      .ok headers) (name : String) :
    headers.values name =
      (probeFields target (authorizedProbe provider model slot policy revision)).values name ++
      (if "x-gm-upstream-model" = name then
        (if provider = .near ∨ provider = .kubetee then some model.wireModel else none).toList
      else []) ++
      (if "x-gm-upstream-slot" = name then slot.toList else []) ++
      (if "x-gm-execution-policy" = name then policy.toList else []) ++
      if "x-gm-model-binding-revision" = name then
        (revision.map fun revision => Nat.repr revision.toNat).toList
      else [] := by
  unfold probeRequest at sent
  rw [probeSelector_authorized] at sent
  obtain ⟨selector, selected, sent⟩ := bind_eq_ok.mp sent
  rw [← Except.ok.inj selected] at sent
  rw [← Except.ok.inj sent]
  simp only [Headers.values_append, values_optionalField]
  cases provider <;> rfl

/-- What the gates read of a probe. -/
theorem probeRequest_values
    (sent : probeRequest target (authorizedProbe provider model slot policy revision) =
      .ok headers) :
    headers.values "x-gm-node-key" = [target.nodeSecret] ∧
      headers.values "x-gm-provider" = [provider.asStr] ∧
      headers.values "x-gm-upstream-model" =
        (if provider = .near ∨ provider = .kubetee then [model.wireModel] else []) ∧
      headers.values ":path" =
        [endpointPath target (authorizedProbe provider model slot policy revision).path] := by
  simp only [values_probeRequest sent]
  have isProvider : (authorizedProbe provider model slot policy revision).provider = provider :=
    authorizedProbe_provider
  refine ⟨?_, ?_, ?_, ?_⟩
  · simp [probeFields, Headers.values_cons]
  · simp [probeFields, Headers.values_cons, isProvider]
  · by_cases verified : provider = .near ∨ provider = .kubetee <;>
      simp [probeFields, Headers.values_cons, verified]
  · simp [probeFields, Headers.values_cons]

/-- What the adapter of Bedrock reads of a probe. -/
theorem probeRequest_policy
    (sent : probeRequest target (authorizedProbe provider model slot policy revision) =
      .ok headers) :
    headers.values "x-gm-upstream-slot" = slot.toList ∧
      headers.values "x-gm-execution-policy" = policy.toList ∧
      headers.values "x-gm-model-binding-revision" =
        (revision.map fun revision => Nat.repr revision.toNat).toList := by
  simp only [values_probeRequest sent]
  refine ⟨?_, ?_, ?_⟩ <;> simp [probeFields, Headers.values_cons]

/-- A probe's path has no query. -/
theorem barePath_probe
    (sent : probeRequest target (authorizedProbe provider model slot policy revision) =
      .ok headers) :
    barePath headers =
      endpointPath target (authorizedProbe provider model slot policy revision).path := by
  obtain ⟨-, -, -, path⟩ := probeRequest_values sent
  have plain : ∀ c ∈ (endpointPath target
      (authorizedProbe provider model slot policy revision).path).toList, (c != '?') = true := by
    intro c mem
    unfold endpointPath at mem
    rw [String.toList_append, List.mem_append] at mem
    rw [bne_iff_ne]
    rintro rfl
    have fixed : ∀ path ∈ ["/v1/messages", "/v1beta/openai/chat/completions",
        "/v1/chat/completions"],
        '?' ∉ (String.ofList (path.toList.dropWhile (· == '/'))).toList := by decide
    exact mem.elim target.noQuery (fixed _ authorizedProbe_path)
  unfold barePath bare Headers.get
  rw [path]
  refine String.toList_inj.mp ?_
  rw [String.toList_ofList]
  exact List.takeWhile_eq_self_iff.mpr plain

/-- No probe asks for the model list. -/
theorem barePath_probe_ne
    (sent : probeRequest target (authorizedProbe provider model slot policy revision) =
      .ok headers) : barePath headers ≠ "/v1/models" := by
  rw [barePath_probe sent]
  intro same
  have long : ∀ path ∈ ["/v1/messages", "/v1beta/openai/chat/completions", "/v1/chat/completions"],
      11 ≤ (String.ofList (path.toList.dropWhile (· == '/'))).length := by decide
  have bound := long (authorizedProbe provider model slot policy revision).path authorizedProbe_path
  have length := congrArg String.length same
  unfold endpointPath at length
  rw [String.length_append] at length
  have models : "/v1/models".length = 10 := by decide
  omega

/-- Every probe but those of Chutes passes the gates of a worker whose node key it has. -/
theorem probe_accepted_iff {filter : Filter} (rightKey : filter.expected = target.nodeSecret)
    (verified : provider = .near ∨ provider = .kubetee →
      model.wireModel ∈ verifiedModels provider.asStr)
    (sent : probeRequest target (authorizedProbe provider model slot policy revision) =
      .ok headers) :
    AcceptedByGates filter headers ↔ provider ≠ .chutes := by
  obtain ⟨key, isProvider, selectors, -⟩ := probeRequest_values sent
  have given := Headers.get_of_values isProvider
  have stripped : (filter.stripped headers).values "x-gm-upstream-model" =
      headers.values "x-gm-upstream-model" := by
    rw [stripped_values (by decide), if_neg (by decide)]
  unfold AcceptedByGates
  rw [given]
  constructor
  · rintro ⟨-, chosen, accepted⟩ isChutes
    -- No selector is sent for Chutes, and the filter asks Chutes for one.
    rw [isChutes, if_neg (by decide)] at selectors
    rcases upstreamSelectorAccepted_ok accepted with ⟨-, -, passes⟩ | ⟨other, -⟩ | ⟨other, -⟩
    · have absent : (filter.stripped headers).get "x-gm-upstream-model" = none := by
        unfold Headers.get
        rw [stripped, selectors]
        rfl
      unfold Filter.chutesSelectorAccepted at passes
      rw [absent] at passes
      dsimp only at passes
      rw [if_neg (barePath_probe_ne sent)] at passes
      cases passes
    · exact other (by rw [isChutes]; rfl)
    · exact other (by rw [isChutes]; rfl)
  · intro notChutes
    refine ⟨?_, ?_⟩
    · unfold Filter.nodeKeyAccepted
      rw [Headers.get_of_values key, rightKey]
      exact if_neg fun rejected => rejected.2 rfl
    · have other : some provider.asStr ≠ some "chutes" := fun same =>
        notChutes (Provider.asStr_injective (Option.some.inj same))
      unfold Filter.upstreamSelectorAccepted
      rw [if_neg other]
      split
      · rename_i needed
        -- The two that need a verified selector are the two the probe names the model for.
        have isVerified : provider = .near ∨ provider = .kubetee := by
          revert needed
          cases provider <;> simp [needsVerifiedSelector, Provider.asStr]
        rw [if_pos isVerified] at selectors
        have selected : (filter.stripped headers).get "x-gm-upstream-model" =
          some model.wireModel := Headers.get_of_values (stripped.trans selectors)
        refine ⟨filter.stripped headers, bind_eq_ok.mpr ⟨.unit, ?_, rfl⟩⟩
        unfold verifiedSelectorAccepted
        rw [selected, Option.any_some, Option.getD_some]
        exact if_pos (List.contains_iff_mem.mpr (verified isVerified))
      · exact ⟨_, rfl⟩

end Fields

/-! ### The probes of Chutes -/

/-- A worker at the root of its endpoint. -/
def rootTarget (nodeSecret : String) : StreamingTarget where
  basePath := "/"
  nodeSecret
  noQuery := by decide

def plainModel (canonical : String) : ProbeModel := ⟨canonical, none, false, none⟩

/-- A NEAR probe passes the filter. -/
theorem probe_accepted_near :
    AcceptedByGates ⟨"secret", fun _ => none, fun _ => none⟩
      [(":method", "POST"), (":path", "/v1/chat/completions"), ("accept", "text/event-stream"),
        ("content-type", "application/json"), ("x-gm-node-key", "secret"),
        ("x-gm-provider", "near"), ("x-gm-upstream-model", "Qwen/Qwen3.8-27B")] ↔
      Provider.near ≠ Provider.chutes :=
  @probe_accepted_iff (rootTarget "secret") .near (plainModel "Qwen/Qwen3.8-27B") none none none _
    ⟨"secret", fun _ => none, fun _ => none⟩ rfl (fun _ => by decide) (by rfl)

/-- No probe of Chutes names its source model, so the filter answers it. -/
theorem chutes_probe_refused : ¬ ∀ (filter : Filter) (target : StreamingTarget)
    (provider : Provider) (model : ProbeModel) (slot policy : Option String)
    (revision : Option UInt64) (headers : Headers),
    filter.expected = target.nodeSecret →
    (provider = .near ∨ provider = .kubetee → model.wireModel ∈ verifiedModels provider.asStr) →
    ',' ∉ model.wireModel.toList → ¬ model.wireModel.toList.all isLuaSpace →
    (endsInTee model.wireModel = true → (filter.getenv "CHUTES_API_KEY").getD "" ≠ "") →
    probeRequest target (authorizedProbe provider model slot policy revision) = .ok headers →
    AcceptedByGates filter headers := by
  intro always
  let filter : Filter := ⟨"secret", fun _ => none, fun _ => none⟩
  have accepted := always filter (rootTarget "secret") .chutes
    (plainModel "deepseek-ai/DeepSeek-V3-0324") none none none
    [(":method", "POST"), (":path", "/v1/chat/completions"), ("accept", "text/event-stream"),
      ("content-type", "application/json"), ("x-gm-node-key", "secret"),
      ("x-gm-provider", "chutes")]
    rfl (by simp) (by decide) (by decide) (fun tee => absurd tee (by decide)) (by rfl)
  obtain ⟨-, chosen, accepted⟩ := accepted
  have refused : filter.upstreamSelectorAccepted (filter.stripped
        [(":method", "POST"), (":path", "/v1/chat/completions"), ("accept", "text/event-stream"),
          ("content-type", "application/json"), ("x-gm-node-key", "secret"),
          ("x-gm-provider", "chutes")]) (some "chutes") "/v1/chat/completions" =
      .error (reject "400" "missing Chutes source model") := by rfl
  cases refused.symm.trans accepted

end GmMiner.Cli
