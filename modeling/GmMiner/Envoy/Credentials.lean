import GmMiner.Envoy.Filter

/-!
What the filter lets through: a request under the node secret, without a credential of its caller
and without an internal field that its provider does not read. A direct provider gets the key of
the slot that was asked for, or of the default one; a cloud provider is asked for a configured slot.
-/

namespace GmMiner.Envoy

open GmMiner.Lib

variable {filter : Filter} {headers chosen served left : Headers} {provider : Option String}
  {name : String}

/-- The variable of the slot that is asked for, or else of the default one. -/
def SlotConfig.Names (cfg : SlotConfig) (envName : String) : Option String → Prop
  | some id => cfg.slots.lookup id = some envName
  | none => envName = cfg.defaultEnv.getD cfg.directEnv

/-- The key in a variable: a variable that is not set has one only as the provider's own, an empty
one. -/
def Filter.Holds (filter : Filter) (cfg : SlotConfig) (envName key : String) : Prop :=
  filter.getenv envName = some key ∨
    filter.getenv envName = none ∧ envName = cfg.directEnv ∧ key = ""

/-- A call of the guarded adapter. -/
structure Filter.Guarded (filter : Filter) (provider : Option String) (headers : Headers) :
    Prop where
  anthropic : provider = some "anthropic"
  noRetry : ∃ cfg, filter.slotConfig "anthropic" = some cfg ∧ cfg.noRetry = true
  post : headers.get ":method" = some "POST"
  messages : headers.get ":path" = some "/v1/messages"

/-- The internal fields that a provider reads. -/
inductive Filter.Reads (filter : Filter) (provider : Option String) (left : Headers) :
    String → Prop
  | route : Reads filter provider left "x-gm-provider"
  | selector (verified : provider = some "near" ∨ provider = some "chutes" ∨
      provider = some "kubetee") : Reads filter provider left "x-gm-upstream-model"
  | session (kubetee : provider = some "kubetee") : Reads filter provider left "x-gm-session-id"
  | ordinary (chutes : provider = some "chutes") : Reads filter provider left "x-gm-ordinary"
  | policy (guarded : filter.Guarded provider left) :
      Reads filter provider left "x-gm-execution-policy"
  | revision (guarded : filter.Guarded provider left) :
      Reads filter provider left "x-gm-model-binding-revision"

/-- A request as it came, and what goes on of it. -/
structure Filter.LetThrough (filter : Filter) (headers left : Headers) : Prop where
  nodeKey : headers.get "x-gm-node-key" = some filter.expected
  /-- The caller's credentials are gone. -/
  dropped : ∀ name ∈ authHeaders,
    (∀ cfg, (headers.get "x-gm-provider").bind filter.slotConfig = some cfg →
      cfg.cloud = false → cfg.authHeader ≠ some name) → left.values name = []
  /-- A direct provider gets one key, of the slot that was asked for or of the default one. -/
  direct : ∀ cfg, (headers.get "x-gm-provider").bind filter.slotConfig = some cfg →
    cfg.cloud = false → ∃ envName key, cfg.Names envName (headers.get "x-gm-upstream-slot") ∧
      filter.Holds cfg envName key ∧ ∀ name ∈ authHeaders,
        left.values name = if cfg.authHeader = some name then [cfg.authPrefix ++ key] else []
  cloud : ∀ cfg, (headers.get "x-gm-provider").bind filter.slotConfig = some cfg →
    cfg.cloud = true → ∃ slot envName key, headers.get "x-gm-upstream-slot" = some slot ∧
      cfg.slots.lookup slot = some envName ∧ filter.getenv envName = some key
  enabled : ∀ cfg, (headers.get "x-gm-provider").bind filter.slotConfig = some cfg →
    cfg.disabled = false
  /-- No slot is asked for where there are none. -/
  slotless : (headers.get "x-gm-provider").bind filter.slotConfig = none →
    headers.get "x-gm-upstream-slot" = none
  internal : ∀ name, startsWith "x-gm-" name = true → left.values name ≠ [] →
    filter.Reads (headers.get "x-gm-provider") left name

/-! ### The parts of the filter -/

theorem nodeKey_of_accepted (registered : filter.expected ≠ "")
    (accepted : filter.nodeKeyAccepted headers = .ok ()) :
    headers.get "x-gm-node-key" = some filter.expected := by
  by_contra other
  rw [Filter.nodeKeyAccepted, if_pos ⟨registered, other⟩] at accepted
  cases accepted

/-- The selector is the one field that its check may take away. -/
theorem values_of_selected {bare : String}
    (accepted : filter.upstreamSelectorAccepted headers provider bare = .ok chosen)
    (other : name ≠ "x-gm-upstream-model") : chosen.values name = headers.values name := by
  rcases upstreamSelectorAccepted_ok accepted with ⟨-, rfl, -⟩ | ⟨-, -, rfl, -⟩ | ⟨-, -, rfl⟩
  · rfl
  · rfl
  · rw [Headers.values_remove, if_neg other]

theorem authHeaders_other : ∀ name ∈ authHeaders,
    name ∉ retryHeaders ∧ name ≠ "x-gm-upstream-model" ∧ startsWith "x-gm-" name = false := by
  decide

/-- Neither check of the slot starts from a credential of the caller. -/
theorem chosen_auth {bare : String} (accepted :
    filter.upstreamSelectorAccepted (filter.stripped headers) provider bare = .ok chosen)
    (auth : name ∈ authHeaders) : chosen.values name = [] := by
  obtain ⟨noRetry, noSelector, -⟩ := authHeaders_other name auth
  rw [values_of_selected accepted noSelector, stripped_values noRetry, if_pos auth]

theorem chosen_slot {bare : String} (accepted :
    filter.upstreamSelectorAccepted (filter.stripped headers) provider bare = .ok chosen) :
    chosen.get "x-gm-upstream-slot" = headers.get "x-gm-upstream-slot" := by
  have same : chosen.values "x-gm-upstream-slot" = headers.values "x-gm-upstream-slot" := by
    rw [values_of_selected accepted (by decide), stripped_values (by decide), if_neg (by decide)]
  rw [Headers.get, Headers.get, same]

theorem left_auth (auth : name ∈ authHeaders) :
    (filter.stripInternalHeaders served provider).values name = served.values name := by
  have plain := (authHeaders_other name auth).2.2
  simp [stripInternalHeaders_values, keptName, plain]

theorem left_pseudo (keep : ∀ policy, keptName policy provider name = true) :
    (filter.stripInternalHeaders served provider).get name = served.get name := by
  rw [Headers.get, Headers.get, stripInternalHeaders_values, if_pos (keep _)]

/-- What is left is read, a policy by the guarded adapter only. -/
theorem reads_of_kept (isInternal : startsWith "x-gm-" name = true)
    (there : (filter.stripInternalHeaders served provider).values name ≠ []) :
    filter.Reads provider (filter.stripInternalHeaders served provider) name := by
  rw [stripInternalHeaders_values] at there
  have kept : keptName (filter.keepExecutionPolicy served provider) provider name = true := by
    by_contra gone
    exact there (if_neg gone)
  have guarded (policy : filter.keepExecutionPolicy served provider = true) :
      filter.Guarded provider (filter.stripInternalHeaders served provider) := by
    simp only [Filter.keepExecutionPolicy, Bool.and_eq_true, beq_iff_eq] at policy
    obtain ⟨⟨⟨anthropic, noRetry⟩, post⟩, messages⟩ := policy
    refine ⟨anthropic, ?_, ?_, ?_⟩
    · rw [anthropic, Option.bind_some, Option.any_eq_true] at noRetry
      exact noRetry
    · rw [left_pseudo (fun _ => rfl), post]
    · rw [left_pseudo (fun _ => rfl), messages]
  simp only [keptName, isInternal, Bool.not_true, Bool.false_or, Bool.or_eq_true,
    Bool.and_eq_true, beq_iff_eq] at kept
  rcases kept with ((((rfl | ⟨policy, rfl⟩) | ⟨policy, rfl⟩) | ⟨verified, rfl⟩) | ⟨kubetee, rfl⟩) |
    ⟨chutes, rfl⟩
  · exact .route
  · exact .policy (guarded policy)
  · exact .revision (guarded policy)
  · exact .selector (or_assoc.mp verified)
  · exact .session kubetee
  · exact .ordinary chutes

/-! ### The slot -/

theorem names_of_envName {cfg : SlotConfig} {requested : Option String} {envName : String}
    (named : cfg.envName requested = .ok envName) : cfg.Names envName requested := by
  cases requested with
  | none =>
      cases named
      rfl
  | some id => exact required_eq_ok.mp named

/-- One key goes under the header of a direct provider, and nothing under the others. -/
theorem direct_auth {cfg : SlotConfig} {key : String} (enabled : cfg.disabled = false)
    (isDirect : cfg.cloud = false) (clean : chosen.values name = []) :
    (setDirectAuth chosen cfg key).values name =
      if cfg.authHeader = some name then [cfg.authPrefix ++ key] else [] := by
  obtain ⟨header, named⟩ := Option.isSome_iff_exists.mp (cfg.direct isDirect enabled)
  rw [setDirectAuth_values, clean, List.nil_append, named, Option.getD_some]
  simp [eq_comm]

/-- A request that goes on has no credential but the key of its slot, and no internal field but
those that its provider reads. -/
theorem letThrough_of_continues (registered : filter.expected ≠ "")
    (away : barePath headers ≠ "/attestation/info")
    (continues : filter.envoyOnRequest headers = .ok left) : filter.LetThrough headers left := by
  obtain ⟨keyed, chosen, served, accepted, isServed, rfl⟩ := envoyOnRequest_ok continues away
  have clean {name : String} (auth : name ∈ authHeaders) := chosen_auth accepted auth
  have nodeKey := nodeKey_of_accepted registered keyed
  -- One of three ways: no slots for the provider, a cloud backend's key, a direct key.
  cases isServed with
  | slotless unknown unasked =>
      rw [chosen_slot accepted] at unasked
      exact {
        nodeKey
        dropped := fun name auth _ => by rw [left_auth auth, clean auth]
        direct := fun cfg known => absurd (unknown.symm.trans known) nofun
        cloud := fun cfg known => absurd (unknown.symm.trans known) nofun
        enabled := fun cfg known => absurd (unknown.symm.trans known) nofun
        slotless := fun _ => unasked
        internal := fun name => reads_of_kept }
  | cloud cfg slot envName key known enabled isCloud asked configured isSet =>
      rw [chosen_slot accepted] at asked
      have only {other : SlotConfig}
          (known' : (headers.get "x-gm-provider").bind filter.slotConfig = some other) :
          other = cfg := Option.some.inj (known'.symm.trans known)
      exact {
        nodeKey
        dropped := fun name auth _ => by rw [left_auth auth, clean auth]
        direct := fun other known' isDirect => by
          rw [only known', isCloud] at isDirect
          cases isDirect
        cloud := fun other known' _ => ⟨slot, envName, key, asked, by rw [only known', configured],
          isSet⟩
        enabled := fun other known' => by rw [only known', enabled]
        slotless := fun unknown => absurd (unknown.symm.trans known) nofun
        internal := fun name => reads_of_kept }
  | direct cfg envName key known enabled isDirect named isKey =>
      rw [chosen_slot accepted] at named
      have only {other : SlotConfig}
          (known' : (headers.get "x-gm-provider").bind filter.slotConfig = some other) :
          other = cfg := Option.some.inj (known'.symm.trans known)
      have values {name : String} (auth : name ∈ authHeaders) :=
        @direct_auth chosen name cfg key enabled isDirect (clean auth)
      exact {
        nodeKey
        dropped := fun name auth other => by
          rw [left_auth auth, values auth, if_neg (other cfg known isDirect)]
        direct := fun other known' _ => by
          rw [only known']
          refine ⟨envName, key, names_of_envName named, isKey, fun name auth => ?_⟩
          rw [left_auth auth, values auth]
        cloud := fun other known' isCloud => by
          rw [only known', isDirect] at isCloud
          cases isCloud
        enabled := fun other known' => by rw [only known', enabled]
        slotless := fun unknown => absurd (unknown.symm.trans known) nofun
        internal := fun name => reads_of_kept }

/-! ### A request with a credential of its own -/

/-- OpenAI with one slot. -/
def oneSlot : SlotConfig where
  cloud := false
  disabled := false
  noRetry := false
  directEnv := "OPENAI_API_KEY"
  defaultEnv := some "GM_OPENAI_KEY_SLOT_1"
  slots := [("BSDXFMDZSHYS", "GM_OPENAI_KEY_SLOT_1")]
  authHeader := some "authorization"
  authPrefix := "Bearer "
  direct := fun _ _ => rfl

def oneSlotFilter : Filter where
  expected := "0123456789abcdef"
  slotConfig provider := if provider = "openai" then some oneSlot else none
  getenv name := if name = "GM_OPENAI_KEY_SLOT_1" then some "sk-1" else none

def ownCredential : Headers := [(":method", "POST"), (":path", "/v1/chat/completions"),
  ("authorization", "Bearer sk-caller"), ("x-gm-node-key", "0123456789abcdef"),
  ("x-gm-provider", "openai"), ("x-gm-upstream-slot", "BSDXFMDZSHYS")]

/-- The caller's own credential is replaced. -/
theorem ownCredential_replaced : oneSlotFilter.LetThrough ownCredential
    [(":method", "POST"), (":path", "/v1/chat/completions"), ("x-gm-provider", "openai"),
      ("authorization", "Bearer sk-1")] :=
  letThrough_of_continues (by decide) (by decide) rfl

end GmMiner.Envoy
