import GmMiner.Cli.TokenRefresh

/-!
What a run of `ensure_fresh_token_with` leaves in memory and on disk.

The refresh tokens handed out form chains: a refresh grant continues the chain of
the token presented, a device login begins another, and an answer without a
refresh token keeps the one before it. With a registry override only the chain of
the stored token may reach the config file.
-/

namespace GmMiner.Cli

open GmMiner.Lib

/-! ### Chains of refresh tokens -/

/-- The refresh tokens so far. -/
structure RefreshChain where
  /-- The last one issued, which the next grant presents. -/
  newest : Option String
  /-- Whether it descends from the stored one. -/
  descends : Bool
  /-- The last one that descends from the stored one. -/
  ofChain : Option String
  deriving DecidableEq, Repr

namespace RefreshChain

/-- The chain of the token stored at the start. -/
def start (stored : Option String) : RefreshChain := ⟨stored, true, stored⟩

/-- One more answer. -/
def extend (chain : RefreshChain) (acquisition : Acquisition) : RefreshChain :=
  match acquisition.token.refreshToken with
  | none => chain
  | some refresh =>
      if acquisition.fromRefreshGrant && chain.descends then ⟨some refresh, true, some refresh⟩
      else ⟨some refresh, false, chain.ofChain⟩

/-- The chains after these answers. -/
def after (stored : Option String) (acquired : List Acquisition) : RefreshChain :=
  acquired.foldl extend (start stored)

@[simp] theorem after_nil (stored : Option String) : after stored [] = start stored := rfl

@[simp] theorem after_append (stored : Option String) (acquired : List Acquisition)
    (acquisition : Acquisition) :
    after stored (acquired ++ [acquisition]) = (after stored acquired).extend acquisition :=
  List.foldl_concat _ _ _ _

/-- The newest token is the last one answered. -/
theorem extend_newest (chain : RefreshChain) (acquisition : Acquisition) :
    (chain.extend acquisition).newest =
      acquisition.token.refreshToken.or chain.newest := by
  unfold extend
  split
  · rename_i omitted
    rw [omitted, Option.none_or]
  · rename_i refresh issued
    rw [issued, Option.some_or]
    split <;> rfl

/-- A login leaves the stored chain where it is. -/
theorem extend_ofChain_of_login (chain : RefreshChain) {acquisition : Acquisition}
    (login : acquisition.fromRefreshGrant = false) :
    (chain.extend acquisition).ofChain = chain.ofChain := by
  unfold extend
  split
  · rfl
  · rw [login, Bool.false_and, if_neg Bool.false_ne_true]

/-- As long as every answer is a grant's, the newest token is the stored chain's. -/
theorem after_of_grants {stored : Option String} {acquired : List Acquisition}
    (grants : ∀ acquisition ∈ acquired, acquisition.fromRefreshGrant = true) :
    (after stored acquired).descends = true ∧
      (after stored acquired).newest = (after stored acquired).ofChain := by
  induction acquired using List.reverseRecOn with
  | nil => exact ⟨rfl, rfl⟩
  | append_singleton acquired last ih =>
      obtain ⟨descends, newest⟩ := ih fun acquisition mem =>
        grants acquisition (List.mem_append_left _ mem)
      rw [after_append]
      unfold extend
      split
      · exact ⟨descends, newest⟩
      · rw [grants last (List.mem_append_right _ (List.mem_singleton_self _)), descends,
          Bool.true_and, if_pos rfl]
        exact ⟨rfl, rfl⟩

end RefreshChain

/-! ### The claim of a run -/

/-- The entry the answers so far make, each keeping the refresh token it omits. `none`: the
date library panicked on one. -/
def lastObtained (env : RefreshEnv) (start : TokenEntry) (acquired : List Acquisition) :
    Option TokenEntry :=
  acquired.foldl (fun held acquisition => held.bind fun entry =>
    acquisition.token.toEntryKeeping env.chrono (env.clock acquisition.attempt).issue
      entry.refreshToken) (some start)

@[simp] theorem lastObtained_nil (env : RefreshEnv) (start : TokenEntry) :
    lastObtained env start [] = some start := rfl

theorem lastObtained_append (env : RefreshEnv) (start : TokenEntry) (acquired : List Acquisition)
    (acquisition : Acquisition) :
    lastObtained env start (acquired ++ [acquisition]) =
      (lastObtained env start acquired).bind fun entry =>
        acquisition.token.toEntryKeeping env.chrono (env.clock acquisition.attempt).issue
          entry.refreshToken :=
  List.foldl_concat _ _ _ _

/-- The stored config is right about the tokens handed out. -/
structure StoredRight (env : RefreshEnv) (cfg disk : Config) (start : TokenEntry)
    (state : RefreshState) : Prop where
  /-- Without an override the stored entry is the last one obtained. -/
  plain : cfg.apiUrlOverride = none →
    state.disk.tokensOf cfg.activeNetworkName = lastObtained env start state.acquired ∧
    (state.disk.tokensOf cfg.activeNetworkName).bind TokenEntry.refreshToken =
      (RefreshChain.after start.refreshToken state.acquired).newest
  /-- With one only the refresh token changes, along the stored chain. -/
  overridden : cfg.apiUrlOverride ≠ none →
    state.disk.tokensOf cfg.activeNetworkName =
      some { start with
        refreshToken := (RefreshChain.after start.refreshToken state.acquired).ofChain } ∧
    (state.disk.networks.lookup cfg.activeNetworkName).bind NetworkEntry.apiUrl =
      (disk.networks.lookup cfg.activeNetworkName).bind NetworkEntry.apiUrl

/-- What `ensure_fresh_token_with` promises of a run: of every state at the end of a turn, and
of the outcome. -/
structure FreshTokenKept (env : RefreshEnv) (cfg disk : Config) (start : TokenEntry)
    (run : List RefreshState × EnsureOutcome) : Prop where
  acquisitions : ∀ state ∈ run.1, state.acquisitions ≤ 2
  waits : ∀ state ∈ run.1, state.waits.length ≤ 1 ∧
    ∀ secs ∈ state.waits, secs ≤ tokenExpiryMarginSecs + 5
  fresh : ∀ cfg', run.2 = .ok cfg' → ∃ state entry, run.1.getLast? = some state ∧
    cfg'.activeTokens = some entry ∧ entry.isExpiredOrNear env.chrono state.checkedAt = false
  stored : ∀ state ∈ run.1, StoredRight env cfg disk start state

/-- The clock can be moved on by the lifetime of the answer. -/
def Representable (env : RefreshEnv) (acquisition : Acquisition) : Prop :=
  (acquisition.token.toEntry env.chrono (env.clock acquisition.attempt).issue).isSome

/-- When the stored config comes out right: every lifetime is one the date library can add to
the clock and, with an override, the stored chain's token is rotated before any login only. -/
def SafelyAnswered (env : RefreshEnv) (cfg : Config) (start : TokenEntry)
    (acquired : List Acquisition) : Prop :=
  ∀ before acquisition later, acquired = before ++ acquisition :: later →
    (cfg.apiUrlOverride = none → Representable env acquisition) ∧
    (cfg.apiUrlOverride ≠ none →
      (RefreshChain.after start.refreshToken (before ++ [acquisition])).ofChain ≠
        (RefreshChain.after start.refreshToken before).ofChain →
      Representable env acquisition ∧ ∀ earlier ∈ before, earlier.fromRefreshGrant = true)

section Turns

variable {env : RefreshEnv} {cfg disk : Config} {start : TokenEntry}

/-- One more answer is right exactly if those before it are and it is. -/
theorem safelyAnswered_append {acquired : List Acquisition} {acquisition : Acquisition} :
    SafelyAnswered env cfg start (acquired ++ [acquisition]) ↔
      SafelyAnswered env cfg start acquired ∧
      (cfg.apiUrlOverride = none → Representable env acquisition) ∧
      (cfg.apiUrlOverride ≠ none →
        (RefreshChain.after start.refreshToken (acquired ++ [acquisition])).ofChain ≠
          (RefreshChain.after start.refreshToken acquired).ofChain →
        Representable env acquisition ∧
          ∀ earlier ∈ acquired, earlier.fromRefreshGrant = true) := by
  constructor
  · intro safe
    refine ⟨fun before one later split => ?_, safe acquired acquisition [] rfl⟩
    exact safe before one (later ++ [acquisition]) (by rw [split]; simp)
  · rintro ⟨safe, last⟩ before one later split
    rcases List.eq_nil_or_concat later with rfl | ⟨later', final, rfl⟩
    · obtain ⟨rfl, same⟩ := List.append_inj' split rfl
      cases same
      exact last
    · have cut : acquired ++ [acquisition] = (before ++ one :: later') ++ [final] := by
        rw [split, List.concat_eq_append]
        simp
      obtain ⟨same, -⟩ := List.append_inj' cut rfl
      exact safe before one later' same

theorem safelyAnswered_nil : SafelyAnswered env cfg start [] := by
  intro before one later split
  cases before <;> cases split

/-! ### One turn -/

/-- What one turn of the loop does. -/
inductive Turn (env : RefreshEnv) (attempt : Nat) (state : RefreshState) :
    RefreshState × Option EnsureOutcome → Prop
  /-- The token is good. -/
  | good (far : needsRefresh env (env.clock attempt).check state.cfg = false) :
      Turn env attempt state
        ({ state with checkedAt := (env.clock attempt).check }, some (.ok state.cfg))
  | failed (error : Error) :
      Turn env attempt state
        ({ state with
            checkedAt := (env.clock attempt).check
            acquisitions := state.acquisitions + 1 }, some (.err error))
  | panicked {token : TokenResponse} {grant : Bool}
      (lost : token.toEntryKeeping env.chrono (env.clock attempt).issue
        (state.cfg.activeTokens.bind TokenEntry.refreshToken) = none) :
      Turn env attempt state
        ({ state with
            checkedAt := (env.clock attempt).check
            acquisitions := state.acquisitions + 1
            acquired := state.acquired ++ [⟨attempt, token, grant⟩] }, some .panicked)
  /-- A token was entered, and is good, or waited for, or given up. -/
  | entered {token : TokenResponse} {grant : Bool} {entry : TokenEntry} {waits : List Int}
      {outcome : Option EnsureOutcome}
      (made : token.toEntryKeeping env.chrono (env.clock attempt).issue
        (state.cfg.activeTokens.bind TokenEntry.refreshToken) = some entry)
      (ends : outcome = none →
        attempt + 1 < maxAttempts ∧
        ∃ secs, secs ≤ tokenExpiryMarginSecs + 5 ∧ waits = state.waits ++ [secs])
      (kept : outcome ≠ none → waits = state.waits)
      (far : ∀ cfg', outcome = some (.ok cfg') →
        cfg' = state.cfg.modifyActiveEntry (fun held => { held with tokens := some entry }) ∧
        needsRefresh env (env.clock attempt).recheck cfg' = false) :
      Turn env attempt state
        (⟨state.cfg.modifyActiveEntry fun held => { held with tokens := some entry },
          state.followsStoredRefresh && grant,
          persistRefreshedTokens state.disk state.cfg.activeNetworkName entry
            state.cfg.apiUrlOverride.isSome (state.followsStoredRefresh && grant),
          state.acquisitions + 1, state.acquired ++ [⟨attempt, token, grant⟩], waits,
          (env.clock attempt).recheck⟩, outcome)

theorem waitSecs_le (now : DateTime) (cfg : Config) :
    waitSecs env now cfg ≤ tokenExpiryMarginSecs + 5 :=
  Int.add_le_add_right (min_le_right _ _) 5

/-- One attempt is one turn, whatever the issuer answers. -/
theorem refreshAttempt_turn (attempt : Nat) (state : RefreshState) :
    Turn env attempt state (refreshAttempt env attempt state) := by
  unfold refreshAttempt
  dsimp only
  cases needed : needsRefresh env (env.clock attempt).check state.cfg with
  | false =>
      rw [if_neg Bool.false_ne_true]
      exact .good needed
  | true =>
      rw [if_pos rfl]
      cases obtainFreshToken env.issuer attempt state.cfg with
      | error error => exact .failed error
      | ok given =>
          obtain ⟨token, grant⟩ := given
          unfold enterToken
          dsimp only
          cases made : token.toEntryKeeping env.chrono (env.clock attempt).issue
              (state.cfg.activeTokens.bind TokenEntry.refreshToken) with
          | none => exact .panicked made
          | some entry =>
              rw [Option.bind_eq_bind, Option.bind_some]
              change Turn _ _ _ (settleAttempt _ _ _)
              unfold settleAttempt
              dsimp only
              split
              · split
                · rename_i more
                  exact .entered made (fun _ => ⟨more, _, waitSecs_le _ _, rfl⟩)
                    (fun other => absurd rfl other) (fun _ same => nomatch same)
                · exact .entered made (fun same => nomatch same) (fun _ => rfl)
                    (fun _ same => nomatch same)
              · rename_i far
                refine .entered made (fun same => nomatch same) (fun _ => rfl) fun cfg' same => ?_
                cases same
                exact ⟨rfl, Bool.eq_false_iff.mpr far⟩

/-! ### Persisting an entry -/

theorem tokensOf_persistActiveTokens (disk : Config) (network : String) (entry : TokenEntry) :
    (persistActiveTokens disk network entry).tokensOf network = some entry := by
  unfold persistActiveTokens
  rw [Config.tokensOf_stored, Config.tokensOf_modifyEntry]

theorem tokensOf_persistRotatedRefreshToken {disk : Config} {network : String}
    {entry : TokenEntry} (stored : disk.tokensOf network = some entry) (rotated : String) :
    (persistRotatedRefreshToken disk network rotated).tokensOf network =
      some { entry with refreshToken := some rotated } := by
  obtain ⟨held, found, tokens⟩ := Option.bind_eq_some_iff.mp stored
  unfold persistRotatedRefreshToken
  rw [Config.tokensOf_stored, Config.tokensOf_modifyEntry, found, Option.getD_some, tokens,
    Option.getD_some]

theorem apiUrl_persistRotatedRefreshToken {disk : Config} {network : String}
    {entry : TokenEntry} (stored : disk.tokensOf network = some entry) (rotated : String) :
    ((persistRotatedRefreshToken disk network rotated).networks.lookup network).bind
        NetworkEntry.apiUrl = (disk.networks.lookup network).bind NetworkEntry.apiUrl := by
  obtain ⟨held, found, -⟩ := Option.bind_eq_some_iff.mp stored
  unfold persistRotatedRefreshToken
  rw [Config.networks_stored, Config.lookup_modifyEntry, if_pos rfl, found, Option.getD_some,
    Option.bind_some, Option.bind_some]

/-! ### The invariant of the loop -/

/-- What holds at the top of a turn. -/
structure AtTurn (env : RefreshEnv) (cfg disk : Config) (start : TokenEntry)
    (state : RefreshState) : Prop where
  network : state.cfg.activeNetworkName = cfg.activeNetworkName
  override : state.cfg.apiUrlOverride = cfg.apiUrlOverride
  held : ∃ entry, state.cfg.activeTokens = some entry ∧
    lastObtained env start state.acquired = some entry ∧
    entry.refreshToken = (RefreshChain.after start.refreshToken state.acquired).newest
  follows : state.followsStoredRefresh = state.acquired.all Acquisition.fromRefreshGrant
  right : StoredRight env cfg disk start state

theorem AtTurn.begin (tokens : cfg.activeTokens = some start)
    (onDisk : disk.tokensOf cfg.activeNetworkName = some start) :
    AtTurn env cfg disk start ⟨cfg, true, disk, 0, [], [], 0⟩ where
  network := rfl
  override := rfl
  held := ⟨start, tokens, rfl, rfl⟩
  follows := rfl
  right := ⟨fun _ => ⟨onDisk, by rw [onDisk]; rfl⟩, fun _ => ⟨onDisk, rfl⟩⟩

/-- A turn that gets no answer leaves the stored config as right as it was. -/
theorem StoredRight.of_same {state state' : RefreshState}
    (right : StoredRight env cfg disk start state) (sameDisk : state'.disk = state.disk)
    (sameAcquired : state'.acquired = state.acquired) : StoredRight env cfg disk start state' where
  plain none_ := by
    rw [sameDisk, sameAcquired]
    exact right.plain none_
  overridden some_ := by
    rw [sameDisk, sameAcquired]
    exact right.overridden some_

/-- An answer that panics is lost: the stored config stays as it was. -/
theorem AtTurn.panicked {state : RefreshState} (at_ : AtTurn env cfg disk start state)
    (safe : SafelyAnswered env cfg start state.acquired) (state' : RefreshState)
    (acquisition : Acquisition)
    (lost : acquisition.token.toEntryKeeping env.chrono (env.clock acquisition.attempt).issue
      (state.cfg.activeTokens.bind TokenEntry.refreshToken) = none)
    (sameDisk : state'.disk = state.disk)
    (more : state'.acquired = state.acquired ++ [acquisition]) :
    StoredRight env cfg disk start state' ↔ SafelyAnswered env cfg start state'.acquired := by
  have unrepresented : ¬ Representable env acquisition := by
    intro represented
    obtain ⟨entry, made⟩ := Option.isSome_iff_exists.mp represented
    rw [TokenResponse.toEntryKeeping, made] at lost
    cases lost
  obtain ⟨entry, active, last, -⟩ := at_.held
  rw [more, safelyAnswered_append]
  constructor
  · intro right
    refine ⟨safe, fun none_ => ?_, fun some_ moved => ?_⟩
    · have stored := (right.plain none_).1
      rw [sameDisk, (at_.right.plain none_).1, more, lastObtained_append, last,
        Option.bind_some] at stored
      rw [active, Option.bind_some, ← stored] at lost
      cases lost
    · have stored := (right.overridden some_).1
      rw [sameDisk, (at_.right.overridden some_).1, more] at stored
      have same := congrArg TokenEntry.refreshToken (Option.some.inj stored)
      exact absurd same.symm moved
  · rintro ⟨-, plain, overridden⟩
    refine ⟨fun none_ => absurd (plain none_) unrepresented, fun some_ => ?_⟩
    have unmoved : (RefreshChain.after start.refreshToken (state.acquired ++ [acquisition])).ofChain
        = (RefreshChain.after start.refreshToken state.acquired).ofChain := by
      by_contra moved
      exact unrepresented (overridden some_ moved).1
    rw [sameDisk, more, unmoved]
    exact at_.right.overridden some_

/-- An entry made and persisted is right exactly if its answer came in time. -/
theorem AtTurn.entered {state : RefreshState} (at_ : AtTurn env cfg disk start state)
    (safe : SafelyAnswered env cfg start state.acquired) (state' : RefreshState)
    (acquisition : Acquisition) {entry : TokenEntry}
    (made : acquisition.token.toEntryKeeping env.chrono (env.clock acquisition.attempt).issue
      (state.cfg.activeTokens.bind TokenEntry.refreshToken) = some entry)
    (persisted : state'.disk = persistRefreshedTokens state.disk state.cfg.activeNetworkName entry
      state.cfg.apiUrlOverride.isSome (state.followsStoredRefresh && acquisition.fromRefreshGrant))
    (more : state'.acquired = state.acquired ++ [acquisition]) :
    (lastObtained env start state'.acquired = some entry ∧
      entry.refreshToken = (RefreshChain.after start.refreshToken state'.acquired).newest) ∧
    (StoredRight env cfg disk start state' ↔
      SafelyAnswered env cfg start state'.acquired) := by
  have represented : Representable env acquisition := by
    obtain ⟨plain, ofToken, -⟩ := Option.map_eq_some_iff.mp made
    exact Option.isSome_iff_exists.mpr ⟨plain, ofToken⟩
  obtain ⟨previous, active, last, newest⟩ := at_.held
  rw [active, Option.bind_some] at made
  have obtained : lastObtained env start state'.acquired = some entry := by
    rw [more, lastObtained_append, last, Option.bind_some, made]
  have refresh : entry.refreshToken =
      (RefreshChain.after start.refreshToken state'.acquired).newest := by
    rw [TokenResponse.toEntryKeeping_refreshToken made, more, RefreshChain.after_append,
      RefreshChain.extend_newest, newest]
  refine ⟨⟨obtained, refresh⟩, ?_⟩
  rw [at_.network, at_.override] at persisted
  cases override : cfg.apiUrlOverride with
  | none =>
      rw [override, Option.isSome_none, persistRefreshedTokens, if_neg Bool.false_ne_true]
        at persisted
      refine ⟨fun _ => ?_, fun _ => ⟨fun _ => ?_, fun some_ => absurd override some_⟩⟩
      · rw [more, safelyAnswered_append]
        exact ⟨safe, fun _ => represented, fun some_ => absurd override some_⟩
      · rw [persisted, tokensOf_persistActiveTokens, Option.bind_some]
        exact ⟨obtained.symm, refresh⟩
  | some url =>
      have some_ : cfg.apiUrlOverride ≠ none := fun none_ => nomatch override.symm.trans none_
      obtain ⟨onDisk, url⟩ := at_.right.overridden some_
      rw [override, Option.isSome_some, persistRefreshedTokens, if_pos rfl, at_.follows]
        at persisted
      cases grants : state.acquired.all Acquisition.fromRefreshGrant &&
          acquisition.fromRefreshGrant with
      | true =>
          -- Every answer so far is a grant's: the entry's token is the stored chain's.
          obtain ⟨before, grant⟩ := Bool.and_eq_true_iff.mp grants
          have all : ∀ one ∈ state'.acquired, one.fromRefreshGrant = true := by
            intro one mem
            rw [more] at mem
            rcases List.mem_append.mp mem with earlier | here
            · exact List.all_eq_true.mp before one earlier
            · cases List.mem_singleton.mp here
              exact grant
          have ofChain : entry.refreshToken =
              (RefreshChain.after start.refreshToken state'.acquired).ofChain :=
            refresh.trans (RefreshChain.after_of_grants all).2
          rw [grants, if_pos rfl] at persisted
          refine ⟨fun _ => ?_, fun _ => ⟨fun none_ => absurd none_ some_, fun _ => ?_⟩⟩
          · rw [more, safelyAnswered_append]
            exact ⟨safe, fun _ => represented, fun _ _ =>
              ⟨represented, List.all_eq_true.mp before⟩⟩
          · rw [← ofChain]
            cases held : entry.refreshToken with
            | none =>
                rw [held] at persisted
                have kept : (RefreshChain.after start.refreshToken state.acquired).ofChain =
                    none := by
                  rw [← (RefreshChain.after_of_grants (List.all_eq_true.mp before)).2, ← newest]
                  rw [TokenResponse.toEntryKeeping_refreshToken made] at held
                  exact (Option.or_eq_none_iff.mp held).2
                rw [persisted, onDisk, kept]
                exact ⟨rfl, url⟩
            | some rotated =>
                rw [held] at persisted
                rw [persisted]
                exact ⟨tokensOf_persistRotatedRefreshToken onDisk rotated,
                  (apiUrl_persistRotatedRefreshToken onDisk rotated).trans url⟩
      | false =>
          rw [grants, if_neg Bool.false_ne_true] at persisted
          have unmoved_iff : StoredRight env cfg disk start state' ↔
              (RefreshChain.after start.refreshToken state'.acquired).ofChain =
                (RefreshChain.after start.refreshToken state.acquired).ofChain := by
            constructor
            · intro right
              have stored := (right.overridden some_).1
              rw [persisted, onDisk] at stored
              exact (congrArg TokenEntry.refreshToken (Option.some.inj stored)).symm
            · intro unmoved
              refine ⟨fun none_ => absurd none_ some_, fun _ => ?_⟩
              rw [persisted, unmoved]
              exact ⟨onDisk, url⟩
          rw [unmoved_iff, more, safelyAnswered_append]
          refine ⟨fun unmoved => ⟨safe, fun _ => represented, fun _ moved => absurd unmoved moved⟩,
            ?_⟩
          rintro ⟨-, -, overridden⟩
          by_contra moved
          obtain ⟨-, before⟩ := overridden some_ moved
          rw [List.all_eq_true.mpr before, Bool.true_and] at grants
          rw [RefreshChain.after_append] at moved
          exact moved (RefreshChain.extend_ofChain_of_login _ grants)

/-- One turn: the stored config is right after it exactly if the answers came in time, and then
the loop goes on as before. -/
theorem AtTurn.turn {attempt : Nat} {state state' : RefreshState}
    {outcome : Option EnsureOutcome} (at_ : AtTurn env cfg disk start state)
    (safe : SafelyAnswered env cfg start state.acquired)
    (turn : Turn env attempt state (state', outcome)) :
    (StoredRight env cfg disk start state' ↔ SafelyAnswered env cfg start state'.acquired) ∧
    (outcome = none → StoredRight env cfg disk start state' →
      AtTurn env cfg disk start state') := by
  cases turn with
  | good => exact ⟨⟨fun _ => safe, fun _ => at_.right.of_same rfl rfl⟩, fun same => nomatch same⟩
  | failed => exact ⟨⟨fun _ => safe, fun _ => at_.right.of_same rfl rfl⟩, fun same => nomatch same⟩
  | panicked lost =>
      exact ⟨at_.panicked safe _ ⟨attempt, _, _⟩ lost rfl rfl, fun same => nomatch same⟩
  | entered made =>
      obtain ⟨⟨obtained, refresh⟩, right_iff⟩ :=
        at_.entered safe ⟨_, _, _, _, _, _, _⟩ ⟨attempt, _, _⟩ made rfl rfl
      refine ⟨right_iff, fun _ right => ⟨at_.network, at_.override, ⟨_, ?_, obtained, refresh⟩, ?_,
        right⟩⟩
      · exact Config.activeTokens_modifyActiveEntry _ _
      · dsimp only
        rw [List.all_append, at_.follows, List.all_cons, List.all_nil, Bool.and_true]

/-! ### The whole run -/

/-- Every state of a run is right exactly if every one's answers came in time. -/
theorem refreshLoop_right (attempts : List Nat) (state : RefreshState)
    (at_ : AtTurn env cfg disk start state)
    (safe : SafelyAnswered env cfg start state.acquired) :
    (∀ state' ∈ (refreshLoop env attempts state).1, StoredRight env cfg disk start state') ↔
      ∀ state' ∈ (refreshLoop env attempts state).1,
        SafelyAnswered env cfg start state'.acquired := by
  induction attempts generalizing state with
  | nil => simp [refreshLoop]
  | cons attempt rest ih =>
      have turn : Turn env attempt state (refreshAttempt env attempt state) :=
        refreshAttempt_turn attempt state
      unfold refreshLoop
      generalize refreshAttempt env attempt state = result at turn
      obtain ⟨state', outcome⟩ := result
      obtain ⟨right_iff, next⟩ := at_.turn safe turn
      cases outcome with
      | some outcome =>
          dsimp only
          rw [List.forall_mem_singleton, List.forall_mem_singleton]
          exact right_iff
      | none =>
          dsimp only
          rw [List.forall_mem_cons, List.forall_mem_cons, right_iff]
          refine and_congr_right fun safe' => ?_
          exact ih state' (next rfl (right_iff.mpr safe')) safe'

/-- A run asks for a token at most once a turn, and waits only before another one. -/
theorem refreshLoop_counts (attempts : List Nat) (state : RefreshState)
    (bounded : ∀ secs ∈ state.waits, secs ≤ tokenExpiryMarginSecs + 5) :
    ∀ state' ∈ (refreshLoop env attempts state).1,
      state'.acquisitions ≤ state.acquisitions + attempts.length ∧
      state'.waits.length ≤
        state.waits.length + attempts.countP (fun attempt => attempt + 1 < maxAttempts) ∧
      ∀ secs ∈ state'.waits, secs ≤ tokenExpiryMarginSecs + 5 := by
  induction attempts generalizing state with
  | nil => simp [refreshLoop]
  | cons attempt rest ih =>
      have turn : Turn env attempt state (refreshAttempt env attempt state) :=
        refreshAttempt_turn attempt state
      unfold refreshLoop
      generalize refreshAttempt env attempt state = result at turn
      obtain ⟨state', outcome⟩ := result
      -- One turn asks at most once, and waits only if it goes on.
      have once : state'.acquisitions ≤ state.acquisitions + 1 := by
        cases turn <;> dsimp only <;> omega
      have waited : outcome = none → attempt + 1 < maxAttempts ∧
          ∃ secs, secs ≤ tokenExpiryMarginSecs + 5 ∧ state'.waits = state.waits ++ [secs] := by
        cases turn with
        | good => exact fun same => nomatch same
        | failed => exact fun same => nomatch same
        | panicked => exact fun same => nomatch same
        | entered made ends => exact ends
      have kept : outcome ≠ none → state'.waits = state.waits := by
        cases turn with
        | good => exact fun _ => rfl
        | failed => exact fun _ => rfl
        | panicked => exact fun _ => rfl
        | entered made ends kept => exact kept
      cases outcome with
      | some outcome =>
          dsimp only
          rw [List.forall_mem_singleton, kept (Option.some_ne_none _), List.length_cons]
          exact ⟨by omega, Nat.le_add_right _ _, bounded⟩
      | none =>
          obtain ⟨more, secs, short, appended⟩ := waited rfl
          have bounded' : ∀ secs ∈ state'.waits, secs ≤ tokenExpiryMarginSecs + 5 := by
            intro other mem
            rw [appended] at mem
            rcases List.mem_append.mp mem with earlier | here
            · exact bounded other earlier
            · exact List.mem_singleton.mp here ▸ short
          have length : state'.waits.length = state.waits.length + 1 := by
            rw [appended, List.length_append, List.length_singleton]
          dsimp only
          rw [List.countP_cons_of_pos (by simpa using more), List.length_cons]
          rintro one (_ | ⟨_, later⟩)
          · exact ⟨by omega, by omega, bounded'⟩
          · obtain ⟨asked, waits, all⟩ := ih state' bounded' one later
            exact ⟨by omega, by omega, all⟩

/-- A config is returned right after a check that found its token good. -/
theorem refreshLoop_ok (attempts : List Nat) (state : RefreshState) (some_ : attempts ≠ [])
    (ends : ∀ last, attempts.getLast? = some last → ¬ last + 1 < maxAttempts)
    {held : TokenEntry} (active : state.cfg.activeTokens = some held) {cfg' : Config}
    (returned : (refreshLoop env attempts state).2 = .ok cfg') :
    ∃ state' entry, (refreshLoop env attempts state).1.getLast? = some state' ∧
      cfg'.activeTokens = some entry ∧
      entry.isExpiredOrNear env.chrono state'.checkedAt = false := by
  induction attempts generalizing state held with
  | nil => exact absurd rfl some_
  | cons attempt rest ih =>
      have turn : Turn env attempt state (refreshAttempt env attempt state) :=
        refreshAttempt_turn attempt state
      unfold refreshLoop at returned ⊢
      generalize refreshAttempt env attempt state = result at turn returned
      obtain ⟨state', outcome⟩ := result
      cases outcome with
      | some outcome =>
          cases returned
          refine ⟨state', ?_⟩
          cases turn with
          | good far =>
              rw [needsRefresh, active, Option.any_some] at far
              exact ⟨held, rfl, active, far⟩
          | entered made ends kept far =>
              obtain ⟨rfl, far⟩ := far _ rfl
              rw [needsRefresh, Config.activeTokens_modifyActiveEntry, Option.any_some] at far
              exact ⟨_, rfl, Config.activeTokens_modifyActiveEntry _ _, far⟩
      | none =>
          cases turn with
          | entered made goesOn =>
              obtain ⟨more, -⟩ := goesOn rfl
              cases rest with
              | nil => exact absurd more (ends attempt rfl)
              | cons next later =>
                  dsimp only at returned ⊢
                  obtain ⟨final, entry, last, found, far⟩ := ih _ (List.cons_ne_nil _ _)
                    (fun last same => ends last (by rwa [List.getLast?_cons_cons]))
                    (Config.activeTokens_modifyActiveEntry _ _) returned
                  exact ⟨final, entry, by rw [List.getLast?_cons, last]; rfl, found, far⟩

end Turns

/-- A run of `ensure_fresh_token_with` keeps its promises exactly if every answer's lifetime can
be added to the clock and, with an override, the stored chain's token is rotated before any
login only. -/
theorem fresh_token_kept_iff (env : RefreshEnv) {cfg disk : Config} {start : TokenEntry}
    (tokens : cfg.activeTokens = some start)
    (onDisk : disk.tokensOf cfg.activeNetworkName = some start) :
    FreshTokenKept env cfg disk start (ensureFreshTokenWith env cfg disk) ↔
      ∀ state ∈ (ensureFreshTokenWith env cfg disk).1,
        SafelyAnswered env cfg start state.acquired := by
  have right_iff := @refreshLoop_right env _ _ _ (List.range maxAttempts) _
    (AtTurn.begin tokens onDisk) safelyAnswered_nil
  have counts := @refreshLoop_counts env (List.range maxAttempts)
    ⟨cfg, true, disk, 0, [], [], 0⟩ (fun _ mem => nomatch mem)
  constructor
  · intro kept
    exact right_iff.mp kept.stored
  · intro safe
    refine ⟨fun state mem => (counts state mem).1, fun state mem => ?_, fun cfg' returned => ?_,
      right_iff.mpr safe⟩
    · exact ⟨(counts state mem).2.1, (counts state mem).2.2⟩
    · refine refreshLoop_ok _ _ (by decide) (fun last same => ?_) tokens returned
      cases same
      decide

/-! ### A rotation that is lost -/

/-- The dates of the epoch's first hour that the run below meets. -/
def epochChrono : Chrono where
  parse text :=
    if text = "1970-01-01T00:01:00+00:00" then some (60 * nanosPerSec)
    else if text = "1970-01-01T00:00:02+00:00" then some (2 * nanosPerSec)
    else if text = "1970-01-01T01:00:00+00:00" then some (3600 * nanosPerSec)
    else none
  render date :=
    if date = 2 * nanosPerSec then "1970-01-01T00:00:02+00:00" else "1970-01-01T01:00:00+00:00"
  addSeconds now secs := some (now + secs * nanosPerSec)

/-- The stored refresh token is rejected once, the login issues none, and the retry's grant
rotates the stored one. -/
def flappingEnv : RefreshEnv where
  chrono := epochChrono
  issuer := {
    getAuthConfig := fun _ _ => .ok ⟨"https://auth/device", "https://auth/token", "cli", []⟩
    refreshToken := fun attempt _ _ =>
      .ok (if attempt = 0 then .rejected else .refreshed ⟨"fresh", some 3600, some "rotated"⟩)
    deviceLogin := fun _ _ => .ok ⟨"boundary", some 2, none⟩ }
  clock := fun _ => ⟨0, 0, 0, 0⟩

def nearExpiry : TokenEntry := ⟨some "stale", some "1970-01-01T00:01:00+00:00", some "stored"⟩

def nearExpiryConfig : Config where
  networks := Finmap.singleton "mainnet" { tokens := some nearExpiry }
  apiUrlOverride := some "https://override.invalid"

/-- A rotation of the stored token after a login is not written. -/
theorem rotation_after_login_is_lost :
    ¬ FreshTokenKept flappingEnv nearExpiryConfig nearExpiryConfig.stored nearExpiry
      (ensureFreshTokenWith flappingEnv nearExpiryConfig nearExpiryConfig.stored) := by
  have lost : (ensureFreshTokenWith flappingEnv nearExpiryConfig nearExpiryConfig.stored).1.any
      (fun state => state.disk.tokensOf "mainnet" == some nearExpiry &&
        (RefreshChain.after (some "stored") state.acquired).ofChain == some "rotated") = true := by
    decide
  intro kept
  obtain ⟨state, mem, both⟩ := List.any_eq_true.mp lost
  obtain ⟨onDisk, rotated⟩ := Bool.and_eq_true_iff.mp both
  have stored := ((kept.stored state mem).overridden (Option.some_ne_none _)).1
  have same := (eq_of_beq onDisk).symm.trans stored
  have refresh : some "stored" =
      (RefreshChain.after (some "stored") state.acquired).ofChain :=
    congrArg TokenEntry.refreshToken (Option.some.inj same)
  rw [eq_of_beq rotated] at refresh
  exact absurd refresh (by decide)

theorem fresh_token_kept_iff_flapping :
    FreshTokenKept flappingEnv nearExpiryConfig nearExpiryConfig.stored nearExpiry
        (ensureFreshTokenWith flappingEnv nearExpiryConfig nearExpiryConfig.stored) ↔
      ∀ state ∈ (ensureFreshTokenWith flappingEnv nearExpiryConfig nearExpiryConfig.stored).1,
        SafelyAnswered flappingEnv nearExpiryConfig nearExpiry state.acquired :=
  fresh_token_kept_iff flappingEnv (by decide) (by decide)

end GmMiner.Cli
