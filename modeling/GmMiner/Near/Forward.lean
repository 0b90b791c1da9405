import GmMiner.UpstreamProxy

/-!
A request on its way to NEAR (`NearVerifier::forward` of `attestd/src/near_verify.rs`).

The selector names the target, the target its host and its one path; the body is passed on as it is.
-/

namespace GmMiner.Near

open GmMiner.Lib GmMiner.UpstreamProxy

structure NearTarget where
  model : String
  host : String
  path : String
  deriving DecidableEq, Repr

def chatCompletions : String := "/v1/chat/completions"

def imagesGenerations : String := "/v1/images/generations"

/-- `TARGETS`. -/
def targets : List NearTarget :=
  [⟨"Qwen/Qwen3.8-27B", "qwen3-8-27b.completions.near.ai", chatCompletions⟩,
    ⟨"z-ai/glm-5.3-flash", "glm-5-3-flash.completions.near.ai", chatCompletions⟩,
    ⟨"black-forest-labs/FLUX.2-klein-4B", "flux2-klein.completions.near.ai", imagesGenerations⟩]

def targetForModel (model : String) : Option NearTarget :=
  targets.find? fun target => target.model == model

/-- `validate_request`. -/
def validateRequest (request : Request) (target : NearTarget) : Except String PUnit :=
  ensure (request.method == "POST" && request.uri.path == target.path)
    (target.model ++ " is served only at POST " ++ target.path ++ ", not " ++ request.method ++ " " ++
      request.uri.path)

/-- `upstream_request`. -/
def upstreamRequest (request : Request) (target : NearTarget) : Request :=
  { request with
    headers := (stripHopByHop (request.headers.remove selectorHeader)).set "host" target.host
    uri := ⟨none, request.uri.pathAndQuery⟩ }

/-- What `forward` sends, and to which target. -/
def forwarded (request : Request) : Except String (NearTarget × Request) := do
  let value ← required (request.headers.values selectorHeader).head? "missing NEAR model selector"
  let selector ← required (toStr value) "NEAR model selector is not valid ASCII"
  let target ← required (targetForModel selector) "unsupported NEAR model selector"
  validateRequest request target
  return (target, upstreamRequest request target)

/-- The models of the targets are apart, so a selector names one target. -/
theorem target_unique {target other : NearTarget} (mem : target ∈ targets) (mem' : other ∈ targets)
    (same : target.model = other.model) : target = other := by
  simp only [targets, List.mem_cons, List.not_mem_nil, or_false] at mem mem'
  rcases mem with rfl | rfl | rfl <;> rcases mem' with rfl | rfl | rfl <;> simp at same ⊢

/-- What `forward` sends for a request. -/
structure Forwarded (request : Request) (target : NearTarget) (sent : Request) : Prop where
  /-- The target is the only one of the model that the first selector names. -/
  selected : target ∈ targets ∧
    (request.headers.values selectorHeader).head? = some target.model ∧
      ∀ other ∈ targets, other.model = target.model → other = target
  /-- The method, the path, the query and the body are the caller's. -/
  addressed : sent.method = "POST" ∧ request.method = "POST" ∧ request.uri.path = target.path ∧
    sent.uri = ⟨none, request.uri.pathAndQuery⟩ ∧ sent.body = request.body
  /-- Every field has exactly these values. -/
  fields : ∀ name, sent.headers.values name =
    if name = "host" then [target.host]
    else if name ∈ hopByHop ∨ name = selectorHeader then []
    else request.headers.values name

/-- Every request that is sent to NEAR goes to the one target that its first selector names, at that
target's path, and is the caller's but for its fields: the host is the target's, no selector and no
field of a hop is left, and all others have their values in their order. -/
theorem near_sends_to_the_selected_target {request sent : Request} {target : NearTarget}
    (accepted : forwarded request = .ok (target, sent)) : Forwarded request target sent := by
  unfold forwarded validateRequest at accepted
  simp only [bind_eq_ok, ensure_eq_ok, required_eq_ok, Bool.and_eq_true, beq_iff_eq] at accepted
  obtain ⟨value, first, selector, ascii, found, listed, -, ⟨method, path⟩, whole⟩ := accepted
  cases whole
  have named := List.find?_some listed
  rw [beq_iff_eq] at named
  have mem : target ∈ targets := List.mem_of_find?_eq_some listed
  refine ⟨⟨mem, ?_, fun other mem' same => target_unique mem' mem same⟩,
    ⟨method, method, path, rfl, rfl⟩, fun name => ?_⟩
  · rw [first, named, toStr_eq_some ascii]
  · show ((stripHopByHop (request.headers.remove selectorHeader)).set "host" target.host).values
      name = _
    rw [values_stripHopByHop_set, Headers.values_remove]
    by_cases hop : name ∈ hopByHop <;> by_cases selector : name = selectorHeader <;>
      simp [hop, selector]

def smallImageRequest : Request where
  method := "POST"
  uri := ⟨none, "/v1/images/generations"⟩
  headers := [("host", "gm"), ("x-gm-upstream-model", "black-forest-labs/FLUX.2-klein-4B"),
    ("keep-alive", "5"), ("accept", "a")]
  body := [.data [1]]

def smallTarget : NearTarget :=
  ⟨"black-forest-labs/FLUX.2-klein-4B", "flux2-klein.completions.near.ai", imagesGenerations⟩

theorem near_sends_the_small_request :
    Forwarded smallImageRequest smallTarget (upstreamRequest smallImageRequest smallTarget) := by
  have accepted : forwarded smallImageRequest =
      .ok (smallTarget, upstreamRequest smallImageRequest smallTarget) := by
    decide
  exact near_sends_to_the_selected_target accepted

end GmMiner.Near
