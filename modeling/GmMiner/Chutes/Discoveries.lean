import GmMiner.Chutes.Error
import GmMiner.Lib.HashMap
import GmMiner.Lib.Machine
import GmMiner.Lib.SlidingWindow
import GmMiner.Time

/-!
Discovery and evidence budgets (`Budget` and `Discoveries` of
`attestd/src/chutes_verify/admission.rs`).

Each credential has a budget: two sliding windows, one for discoveries and one
for evidence calls, and two backoff maps. `succeeded` clears a chute from
`backoff` only, so what a refusal records in `evidenceBackoff` outlives a
success. Idle budgets are dropped whenever the budgets are locked; `sweep_budget`
says that this cannot be observed, since a dropped budget is a fresh one.

`discoveriesMachine` runs the operations in any order at non-decreasing
instants and keeps, beside the budgets, the charges granted so far.
-/

namespace GmMiner.Chutes

open GmMiner.Lib

/-- A credential, held only as its SHA-256. -/
abbrev Credential := List UInt8

def evidencePerMinute : Nat := targets.length
def discoveriesPerMinute : Nat := 30
def discoveryWindow : Duration := Duration.fromSecs 60
def backoffStart : Duration := Duration.fromSecs 5
def backoffMax : Duration := Duration.fromSecs 60
def refusalBackoff : Duration := Duration.fromSecs (30 * 60)
def rateWindow : Duration := Duration.fromSecs 60
def rateWindowSlack : Duration := Duration.fromSecs 1
def maxCredentials : Nat := 4096

/-- Time from `wall` (since the Unix epoch) until just after Chutes' next fixed
rate-limit window opens. -/
def untilNextWindow (wall : Duration) : Duration :=
  rateWindow - wall % rateWindow + rateWindowSlack

def backoffWait (error : ChutesError) (step wall spread : Duration) : Duration :=
  match error with
  | .rateLimited _ => max step (untilNextWindow wall + spread)
  | .belowEvidenceMinimum => refusalBackoff
  | _ => step

structure Backoff where
  untilAt : Instant
  step : Duration
  cause : String
  deriving DecidableEq, Repr

structure Budget where
  /-- References to the single-flight lock besides the budget's own. -/
  inFlight : Nat
  recent : List Instant
  evidence : List Instant
  backoff : HashMap String Backoff
  evidenceBackoff : HashMap String Backoff
  deriving DecidableEq

namespace Budget

def fresh : Budget := ⟨0, [], [], ∅, ∅⟩

def prune (budget : Budget) (now : Instant) : Budget :=
  { budget with
    recent := dropPassed discoveryWindow now budget.recent
    evidence := dropPassed discoveryWindow now budget.evidence
    backoff := budget.backoff.retain fun _ backoff => now < backoff.untilAt + 2 * backoffMax
    evidenceBackoff := budget.evidenceBackoff.retain fun _ backoff =>
      now < backoff.untilAt + 2 * backoffMax }

/-- When evidence calls for `chuteId` may resume, while either backoff runs. -/
def evidenceBlockedUntil (budget : Budget) (chuteId : String) (now : Instant) : Option Instant :=
  ([budget.backoff, budget.evidenceBackoff].filterMap fun backoffs =>
    ((backoffs.lookup chuteId).map Backoff.untilAt).filter fun untilAt => now < untilAt).max?

/-- The refusal while a backoff of `backoffs` runs for `chuteId`. -/
def checkRunning (backoffs : HashMap String Backoff) (chuteId : String) (now : Instant) :
    Except ChutesError Unit :=
  match (backoffs.lookup chuteId).filter fun backoff => now < backoff.untilAt with
  | some backoff => .error (.unavailable
      ("chute " ++ chuteId ++ " is backing off after: " ++ backoff.cause))
  | none => .ok ()

def checkBackoff (budget : Budget) (chuteId : String) (now : Instant) : Except ChutesError Unit :=
  checkRunning budget.backoff chuteId now

def checkRate (budget : Budget) : Except ChutesError Unit :=
  if discoveriesPerMinute ≤ budget.recent.length then
    .error (.unavailable
      ("discovery budget of " ++ toString discoveriesPerMinute ++ " per minute is spent"))
  else .ok ()

def checkEvidenceRate (budget : Budget) : Except ChutesError Unit :=
  if evidencePerMinute ≤ budget.evidence.length then
    .error (.unavailable
      ("evidence budget of " ++ toString evidencePerMinute ++ " per minute is spent"))
  else .ok ()

def idle (budget : Budget) : Bool :=
  budget.recent.isEmpty && budget.evidence.isEmpty && budget.backoff.size == 0 &&
    budget.evidenceBackoff.size == 0 && budget.inFlight == 0

/-- Run a check; change the budget only if it passes. -/
def guarded (budget : Budget) (check : Except ChutesError Unit) (pass : Budget) :
    Except ChutesError Unit × Budget :=
  match check with
  | .ok () => (.ok (), pass)
  | .error error => (.error error, budget)

/-- What `claim` does to the locked budget: the result holds the single-flight lock. -/
def claim (budget : Budget) (chuteId : String) (now : Instant) :
    Except ChutesError Unit × Budget :=
  budget.guarded (do budget.checkBackoff chuteId now; budget.checkRate)
    { budget with inFlight := budget.inFlight + 1 }

def charge (budget : Budget) (chuteId : String) (now : Instant) :
    Except ChutesError Unit × Budget :=
  budget.guarded (do budget.checkBackoff chuteId now; budget.checkRate)
    { budget with recent := budget.recent ++ [now] }

def chargeEvidence (budget : Budget) (chuteId : String) (now : Instant) :
    Except ChutesError Unit × Budget :=
  budget.guarded
    (do
      budget.checkBackoff chuteId now
      checkRunning budget.evidenceBackoff chuteId now
      budget.checkEvidenceRate)
    { budget with evidence := budget.evidence ++ [now] }

end Budget

/-- What one `back_off` reads: the monotonic clock, the wall clock and the
jitter source. -/
structure Reading where
  now : Instant
  wall : Duration
  spread : Duration
  deriving DecidableEq, Repr

/-- `Discoveries::back_off`: the next backoff of `chuteId`. An overlapping
failure never shortens a longer backoff already recorded. -/
def backOff (current : HashMap String Backoff) (chuteId : String) (error : ChutesError)
    (reading : Reading) : Backoff :=
  let existing := current.lookup chuteId
  let step := existing.elim backoffStart fun backoff => min (backoff.step * 2) backoffMax
  let untilAt := reading.now + backoffWait error step reading.wall reading.spread
  match existing with
  | some backoff =>
      if untilAt < backoff.untilAt then ⟨backoff.untilAt, step, backoff.cause⟩
      else ⟨untilAt, step, error.toString⟩
  | none => ⟨untilAt, step, error.toString⟩

/-- The failures that hold evidence calls even once a cached admission serves. -/
def evidenceRefused : ChutesError → Bool
  | .rateLimited _ => true
  | .belowEvidenceMinimum => true
  | _ => false

structure Discoveries where
  budgets : HashMap Credential Budget
  deriving DecidableEq

namespace Discoveries

def empty : Discoveries := ⟨∅⟩

/-- A credential's budget; `entry(..).or_default()` reads an absent one as fresh. -/
def budget (discoveries : Discoveries) (credential : Credential) : Budget :=
  (discoveries.budgets.lookup credential).getD .fresh

def setBudget (discoveries : Discoveries) (credential : Credential) (budget : Budget) :
    Discoveries :=
  ⟨discoveries.budgets.insert credential budget⟩

/-- Prune every budget and drop the idle ones. -/
def sweep (discoveries : Discoveries) (now : Instant) : Discoveries :=
  ⟨(discoveries.budgets.mapValues fun _ budget => budget.prune now).retain
    fun _ budget => !budget.idle⟩

/-- `Discoveries::with_budget` at the instant `now`. -/
def withBudget (discoveries : Discoveries) (credential : Credential) (now : Instant)
    (useBudget : Budget → Except ChutesError Unit × Budget) :
    Except ChutesError Unit × Discoveries :=
  let swept := discoveries.sweep now
  if credential ∉ swept.budgets ∧ maxCredentials ≤ swept.budgets.size then
    (.error (.unavailable
      ("discovery budgets for " ++ toString maxCredentials ++ " credentials are in use")), swept)
  else
    let used := useBudget (swept.budget credential)
    (used.1, swept.setBudget credential used.2)

def claim (discoveries : Discoveries) (credential : Credential) (chuteId : String)
    (now : Instant) : Except ChutesError Unit × Discoveries :=
  discoveries.withBudget credential now fun budget => budget.claim chuteId now

def charge (discoveries : Discoveries) (credential : Credential) (chuteId : String)
    (now : Instant) : Except ChutesError Unit × Discoveries :=
  discoveries.withBudget credential now fun budget => budget.charge chuteId now

def chargeEvidence (discoveries : Discoveries) (credential : Credential) (chuteId : String)
    (now : Instant) : Except ChutesError Unit × Discoveries :=
  discoveries.withBudget credential now fun budget => budget.chargeEvidence chuteId now

/-- `Discoveries::failed`; each `back_off` takes its own readings. -/
def failed (discoveries : Discoveries) (credential : Credential) (chuteId : String)
    (error : ChutesError) (first second : Reading) : Discoveries :=
  let budget := discoveries.budget credential
  let backoff := backOff budget.backoff chuteId error first
  let evidenceBackoff :=
    if evidenceRefused error then
      budget.evidenceBackoff.insert chuteId
        (backOff budget.evidenceBackoff chuteId error second)
    else budget.evidenceBackoff
  discoveries.setBudget credential
    { budget with
      evidenceBackoff := evidenceBackoff
      backoff := budget.backoff.insert chuteId backoff }

/-- `Discoveries::evidence_failed`: back off evidence calls after a renewal failed. -/
def evidenceFailed (discoveries : Discoveries) (credential : Credential) (chuteId : String)
    (error : ChutesError) (reading : Reading) : Discoveries :=
  let budget := discoveries.budget credential
  discoveries.setBudget credential
    { budget with
      evidenceBackoff := budget.evidenceBackoff.insert chuteId
        (backOff budget.evidenceBackoff chuteId error reading) }

/-- Change a credential's budget if it has one: `budgets.get_mut`. -/
def modifyHeld (discoveries : Discoveries) (credential : Credential) (change : Budget → Budget) :
    Discoveries :=
  match discoveries.budgets.lookup credential with
  | some budget => discoveries.setBudget credential (change budget)
  | none => discoveries

def succeeded (discoveries : Discoveries) (credential : Credential) (chuteId : String) :
    Discoveries :=
  discoveries.modifyHeld credential fun budget =>
    { budget with backoff := budget.backoff.erase chuteId }

def evidenceBlockedUntil (discoveries : Discoveries) (credential : Credential) (chuteId : String)
    (now : Instant) : Option Instant :=
  (discoveries.budgets.lookup credential).bind fun budget =>
    budget.evidenceBlockedUntil chuteId now

/-- A claimed single-flight lock is let go. -/
def release (discoveries : Discoveries) (credential : Credential) : Discoveries :=
  discoveries.modifyHeld credential fun budget => { budget with inFlight := budget.inFlight - 1 }

end Discoveries

/-! ### What each operation does to each budget -/

theorem Budget.prune_fresh (now : Instant) : Budget.fresh.prune now = .fresh := by
  have empty : ∀ keep : String → Backoff → Bool,
      (∅ : HashMap String Backoff).retain keep = ∅ := fun keep =>
    Finmap.ext_lookup fun key => by simp
  simp [prune, fresh, empty]

/-- An idle budget is indistinguishable from a fresh one. -/
theorem Budget.eq_fresh_of_idle {budget : Budget} (idle : budget.idle = true) :
    budget = .fresh := by
  have none_left : ∀ map : HashMap String Backoff, map.size = 0 → map = ∅ := by
    intro map size
    exact Finmap.ext (Multiset.card_eq_zero.mp size)
  obtain ⟨inFlight, recent, evidence, backoff, evidenceBackoff⟩ := budget
  simp only [Budget.idle, Bool.and_eq_true, List.isEmpty_iff, beq_iff_eq] at idle
  obtain ⟨⟨⟨⟨rfl, rfl⟩, noBackoff⟩, noEvidence⟩, rfl⟩ := idle
  rw [none_left backoff noBackoff, none_left evidenceBackoff noEvidence]
  rfl

namespace Discoveries

@[simp] theorem budget_empty (credential : Credential) : empty.budget credential = .fresh := by
  simp [budget, empty]

/-- Setting one credential's budget leaves the others'. -/
theorem budget_setBudget (discoveries : Discoveries) (credential other : Credential)
    (budget : Budget) :
    (discoveries.setBudget credential budget).budget other =
      if other = credential then budget else discoveries.budget other := by
  unfold Discoveries.budget setBudget
  by_cases same : other = credential
  · subst same
    simp
  · simp [same]

/-- Dropping idle budgets cannot be observed: the sweep prunes every budget. -/
theorem sweep_budget (discoveries : Discoveries) (now : Instant) (credential : Credential) :
    (discoveries.sweep now).budget credential = (discoveries.budget credential).prune now := by
  unfold budget sweep
  rw [Finmap.lookup_retain, Finmap.lookup_mapValues]
  cases discoveries.budgets.lookup credential with
  | none => simp [Budget.prune_fresh]
  | some budget =>
      by_cases idle : (budget.prune now).idle = true
      · simpa [Option.filter, idle] using (Budget.eq_fresh_of_idle idle).symm
      · simp [Option.filter, idle]

/-- Locking the budgets prunes all of them and then changes at most one, by the
operation's own effect on it. -/
theorem withBudget_budget (discoveries : Discoveries) (credential : Credential) (now : Instant)
    (useBudget : Budget → Except ChutesError Unit × Budget) :
    ((∃ error, (discoveries.withBudget credential now useBudget).1 = .error error) ∧
      ∀ other, (discoveries.withBudget credential now useBudget).2.budget other =
        (discoveries.budget other).prune now) ∨
    (discoveries.withBudget credential now useBudget).1 =
        (useBudget ((discoveries.budget credential).prune now)).1 ∧
      ∀ other, (discoveries.withBudget credential now useBudget).2.budget other =
        if other = credential then (useBudget ((discoveries.budget credential).prune now)).2
        else (discoveries.budget other).prune now := by
  unfold withBudget
  dsimp only
  split
  · exact .inl ⟨⟨_, rfl⟩, fun other => sweep_budget discoveries now other⟩
  · refine .inr ⟨by rw [sweep_budget], fun other => ?_⟩
    rw [budget_setBudget, sweep_budget, sweep_budget]

/-- A change that keeps a fresh budget fresh need not ask whether there is one. -/
theorem modifyHeld_budget (discoveries : Discoveries) (credential other : Credential)
    {change : Budget → Budget} (keepsFresh : change .fresh = .fresh) :
    (discoveries.modifyHeld credential change).budget other =
      if other = credential then change (discoveries.budget other)
      else discoveries.budget other := by
  unfold modifyHeld
  cases held : discoveries.budgets.lookup credential with
  | some budget =>
      rw [budget_setBudget]
      by_cases same : other = credential
      · subst same
        simp [Discoveries.budget, held]
      · simp [same]
  | none =>
      by_cases same : other = credential
      · subst same
        simp [Discoveries.budget, held, keepsFresh]
      · simp [same]

/-- A guarded operation changes the credential's pruned budget only if its check
passes, and otherwise leaves every budget pruned and nothing more. -/
theorem withBudget_guarded (discoveries : Discoveries) (credential : Credential) (now : Instant)
    (check : Budget → Except ChutesError Unit) (pass : Budget → Budget) :
    let pruned := (discoveries.budget credential).prune now
    let after := discoveries.withBudget credential now fun budget =>
      budget.guarded (check budget) (pass budget)
    (after.1 = .ok () ∧ check pruned = .ok () ∧ ∀ other, after.2.budget other =
      if other = credential then pass pruned else (discoveries.budget other).prune now) ∨
    (∃ error, after.1 = .error error) ∧
      ∀ other, after.2.budget other = (discoveries.budget other).prune now := by
  intro pruned after
  rcases discoveries.withBudget_budget credential now fun budget =>
    budget.guarded (check budget) (pass budget) with full | ⟨answer, budgets⟩
  · exact .inr full
  · cases checked : check pruned with
    | ok done =>
        refine .inl ⟨?_, rfl, fun other => ?_⟩
        · exact answer.trans (by simp only [Budget.guarded, pruned, checked])
        · exact (budgets other).trans (by simp only [Budget.guarded, pruned, checked])
    | error error =>
        refine .inr ⟨⟨error, ?_⟩, fun other => ?_⟩
        · exact answer.trans (by simp only [Budget.guarded, pruned, checked])
        · refine (budgets other).trans ?_
          by_cases same : other = credential
          · subst same
            simp only [Budget.guarded, pruned, checked, if_true]
          · simp only [same, if_false]

/-- A success ends the chute's backoff, of its own credential alone. -/
theorem succeeded_budget (discoveries : Discoveries) (credential other : Credential)
    (chuteId : String) :
    (discoveries.succeeded credential chuteId).budget other =
      if other = credential then
        { discoveries.budget other with
          backoff := (discoveries.budget other).backoff.erase chuteId }
      else discoveries.budget other := by
  have nothing : (∅ : HashMap String Backoff).erase chuteId = ∅ :=
    Finmap.ext_lookup fun key => by
      by_cases same : key = chuteId
      · subst same
        simp
      · simp [same]
  exact modifyHeld_budget discoveries credential other (by simp [Budget.fresh, nothing])

theorem release_budget (discoveries : Discoveries) (credential other : Credential) :
    (discoveries.release credential).budget other =
      if other = credential then
        { discoveries.budget other with inFlight := (discoveries.budget other).inFlight - 1 }
      else discoveries.budget other :=
  modifyHeld_budget discoveries credential other rfl

end Discoveries

/-! ### Runs of operations -/

/-- An operation under the budget lock, with the readings it takes there. -/
inductive Op
  | claim (credential : Credential) (chuteId : String) (now : Instant)
  | charge (credential : Credential) (chuteId : String) (now : Instant)
  | chargeEvidence (credential : Credential) (chuteId : String) (now : Instant)
  | failed (credential : Credential) (chuteId : String) (error : ChutesError)
      (first second : Reading)
  | evidenceFailed (credential : Credential) (chuteId : String) (error : ChutesError)
      (reading : Reading)
  | succeeded (credential : Credential) (chuteId : String) (now : Instant)
  | release (credential : Credential) (now : Instant)
  deriving DecidableEq, Repr

inductive ChargeKind
  | discovery
  | evidence
  deriving DecidableEq, Repr

structure Charge where
  kind : ChargeKind
  credential : Credential
  at_ : Instant
  deriving DecidableEq, Repr

def ChargeKind.limit : ChargeKind → Nat
  | .discovery => discoveriesPerMinute
  | .evidence => evidencePerMinute

def Budget.queue (budget : Budget) : ChargeKind → List Instant
  | .discovery => budget.recent
  | .evidence => budget.evidence

namespace Op

def starts : Op → Instant
  | .claim _ _ now | .charge _ _ now | .chargeEvidence _ _ now => now
  | .failed _ _ _ first _ => first.now
  | .evidenceFailed _ _ _ reading => reading.now
  | .succeeded _ _ now | .release _ now => now

def ends : Op → Instant
  | .claim _ _ now | .charge _ _ now | .chargeEvidence _ _ now => now
  | .failed _ _ _ _ second => second.now
  | .evidenceFailed _ _ _ reading => reading.now
  | .succeeded _ _ now | .release _ now => now

def perform (discoveries : Discoveries) : Op → Except ChutesError Unit × Discoveries
  | .claim credential chuteId now => discoveries.claim credential chuteId now
  | .charge credential chuteId now => discoveries.charge credential chuteId now
  | .chargeEvidence credential chuteId now => discoveries.chargeEvidence credential chuteId now
  | .failed credential chuteId error first second =>
      (.ok (), discoveries.failed credential chuteId error first second)
  | .evidenceFailed credential chuteId error reading =>
      (.ok (), discoveries.evidenceFailed credential chuteId error reading)
  | .succeeded credential chuteId _ => (.ok (), discoveries.succeeded credential chuteId)
  | .release credential _ => (.ok (), discoveries.release credential)

/-- What the operation charges if it is granted. -/
def charged : Op → Option Charge
  | .charge credential _ now => some ⟨.discovery, credential, now⟩
  | .chargeEvidence credential _ now => some ⟨.evidence, credential, now⟩
  | _ => none

/-- The failure after which the operation holds evidence calls, and the readings
its deadline is computed from. -/
def evidenceHeld : Op → Option (Credential × String × ChutesError × Reading)
  | .failed credential chuteId error _ second =>
      if evidenceRefused error then some (credential, chuteId, error, second) else none
  | .evidenceFailed credential chuteId error reading => some (credential, chuteId, error, reading)
  | _ => none

end Op

/-- The budgets, the last instant read and every charge granted, oldest first. -/
structure BudgetRun where
  discoveries : Discoveries
  clock : Instant
  granted : List Charge
  deriving DecidableEq

namespace BudgetRun

def charges (run : BudgetRun) (kind : ChargeKind) (credential : Credential) : List Instant :=
  (run.granted.filter fun charge =>
    charge.kind = kind ∧ charge.credential = credential).map Charge.at_

/-- The charges an operation with this answer adds to the log. -/
def newlyGranted (answer : Except ChutesError Unit) (op : Op) : List Charge :=
  match answer with
  | .ok () => op.charged.toList
  | .error _ => []

def step (run : BudgetRun) (op : Op) : Option BudgetRun :=
  if run.clock ≤ op.starts ∧ op.starts ≤ op.ends then
    let done := op.perform run.discoveries
    some ⟨done.2, op.ends, run.granted ++ newlyGranted done.1 op⟩
  else none

end BudgetRun

def discoveriesMachine : Machine BudgetRun Op where
  init := ⟨.empty, 0, []⟩
  step := BudgetRun.step

/-! ### Windows -/

theorem Budget.prune_queue (budget : Budget) (now : Instant) (kind : ChargeKind) :
    (budget.prune now).queue kind = dropPassed discoveryWindow now (budget.queue kind) := by
  cases kind <;> rfl

theorem Budget.room_of_checkRate {budget : Budget} (passed : budget.checkRate = .ok ()) :
    budget.recent.length < discoveriesPerMinute := by
  unfold checkRate at passed
  split at passed
  · cases passed
  · omega

theorem Budget.room_of_checkEvidenceRate {budget : Budget}
    (passed : budget.checkEvidenceRate = .ok ()) : budget.evidence.length < evidencePerMinute := by
  unfold checkEvidenceRate at passed
  split at passed
  · cases passed
  · omega

/-- A check is passed only if each of its parts is. -/
private theorem passed_of_then {first second : Except ChutesError Unit}
    (passed : (do first; second) = .ok ()) : first = .ok () ∧ second = .ok () := by
  cases first with
  | error error => cases passed
  | ok done => exact ⟨rfl, passed⟩

/-- A charge is granted within every limit, or refused without a trace but the
pruning. -/
theorem Discoveries.charge_cases (discoveries : Discoveries) (credential : Credential)
    (chuteId : String) (now : Instant) :
    let pruned := (discoveries.budget credential).prune now
    let after := discoveries.charge credential chuteId now
    (after.1 = .ok () ∧ pruned.recent.length < discoveriesPerMinute ∧
      ∀ other, after.2.budget other =
        if other = credential then { pruned with recent := pruned.recent ++ [now] }
        else (discoveries.budget other).prune now) ∨
    (∃ error, after.1 = .error error) ∧
      ∀ other, after.2.budget other = (discoveries.budget other).prune now := by
  intro pruned after
  rcases discoveries.withBudget_guarded credential now
    (fun budget => do budget.checkBackoff chuteId now; budget.checkRate)
    (fun budget => { budget with recent := budget.recent ++ [now] }) with
    ⟨answer, checked, budgets⟩ | refused
  · exact .inl ⟨answer, Budget.room_of_checkRate (passed_of_then checked).2, budgets⟩
  · exact .inr refused

/-- The same of a charge for evidence. -/
theorem Discoveries.chargeEvidence_cases (discoveries : Discoveries) (credential : Credential)
    (chuteId : String) (now : Instant) :
    let pruned := (discoveries.budget credential).prune now
    let after := discoveries.chargeEvidence credential chuteId now
    (after.1 = .ok () ∧ pruned.evidence.length < evidencePerMinute ∧
      Budget.checkRunning pruned.evidenceBackoff chuteId now = .ok () ∧
      ∀ other, after.2.budget other =
        if other = credential then { pruned with evidence := pruned.evidence ++ [now] }
        else (discoveries.budget other).prune now) ∨
    (∃ error, after.1 = .error error) ∧
      ∀ other, after.2.budget other = (discoveries.budget other).prune now := by
  intro pruned after
  rcases discoveries.withBudget_guarded credential now
    (fun budget => do
      budget.checkBackoff chuteId now
      Budget.checkRunning budget.evidenceBackoff chuteId now
      budget.checkEvidenceRate)
    (fun budget => { budget with evidence := budget.evidence ++ [now] }) with
    ⟨answer, checked, budgets⟩ | refused
  · obtain ⟨notRunning, room⟩ := passed_of_then (passed_of_then checked).2
    exact .inl ⟨answer, Budget.room_of_checkEvidenceRate room, notRunning, budgets⟩
  · exact .inr refused

/-- `claim` charges nothing: it takes a reference to the single-flight lock, or
is refused. -/
theorem Discoveries.claim_budget (discoveries : Discoveries) (credential other : Credential)
    (chuteId : String) (now : Instant) :
    ∃ inFlight, ((discoveries.claim credential chuteId now).2.budget other) =
      { (discoveries.budget other).prune now with inFlight := inFlight } := by
  rcases discoveries.withBudget_guarded credential now
    (fun budget => do budget.checkBackoff chuteId now; budget.checkRate)
    (fun budget => { budget with inFlight := budget.inFlight + 1 }) with
    ⟨-, -, budgets⟩ | ⟨-, budgets⟩
  · by_cases same : other = credential
    · subst same
      exact ⟨_, (budgets other).trans (if_pos rfl)⟩
    · exact ⟨_, (budgets other).trans (if_neg same)⟩
  · exact ⟨_, budgets other⟩

/-- A failure backs the chute off, under its own credential alone. -/
theorem Discoveries.failed_budget (discoveries : Discoveries) (credential other : Credential)
    (chuteId : String) (error : ChutesError) (first second : Reading) :
    (discoveries.failed credential chuteId error first second).budget other =
      if other = credential then
        { discoveries.budget other with
          backoff := (discoveries.budget other).backoff.insert chuteId
            (backOff (discoveries.budget other).backoff chuteId error first)
          evidenceBackoff :=
            if evidenceRefused error then
              (discoveries.budget other).evidenceBackoff.insert chuteId
                (backOff (discoveries.budget other).evidenceBackoff chuteId error second)
            else (discoveries.budget other).evidenceBackoff }
      else discoveries.budget other := by
  rw [failed, budget_setBudget]
  by_cases same : other = credential
  · subst same
    rfl
  · simp only [same, if_false]

/-- A failure of evidence backs the chute's evidence off, under its own credential
alone. -/
theorem Discoveries.evidenceFailed_budget (discoveries : Discoveries)
    (credential other : Credential) (chuteId : String) (error : ChutesError) (reading : Reading) :
    (discoveries.evidenceFailed credential chuteId error reading).budget other =
      if other = credential then
        { discoveries.budget other with
          evidenceBackoff := (discoveries.budget other).evidenceBackoff.insert chuteId
            (backOff (discoveries.budget other).evidenceBackoff chuteId error reading) }
      else discoveries.budget other := by
  rw [evidenceFailed, budget_setBudget]
  by_cases same : other = credential
  · subst same
    rfl
  · simp only [same, if_false]

/-- What one operation does to the queue of one kind of charge of one credential:
it grants a charge while the pruned queue has room, or at most prunes it. -/
theorem Op.perform_queue (op : Op) (discoveries : Discoveries) (kind : ChargeKind)
    (credential : Credential) :
    let done := op.perform discoveries
    let before := (discoveries.budget credential).queue kind
    let pruned := dropPassed discoveryWindow op.ends before
    let after := (done.2.budget credential).queue kind
    (BudgetRun.newlyGranted done.1 op = [⟨kind, credential, op.ends⟩] ∧
      pruned.length < kind.limit ∧ after = pruned ++ [op.ends]) ∨
    ((∀ charge ∈ BudgetRun.newlyGranted done.1 op,
      ¬(charge.kind = kind ∧ charge.credential = credential)) ∧
      (after = before ∨ after = pruned)) := by
  intro done before pruned after
  -- An operation that never charges only has to leave the queue as it is, or prune it.
  have uncharged : op.charged = none → after = before ∨ after = pruned →
      (∀ charge ∈ BudgetRun.newlyGranted done.1 op,
        ¬(charge.kind = kind ∧ charge.credential = credential)) ∧
      (after = before ∨ after = pruned) := by
    intro nothing queue
    refine ⟨?_, queue⟩
    unfold BudgetRun.newlyGranted
    rw [nothing]
    cases done.1 <;> simp
  -- A refused charge prunes; a granted one prunes and adds its instant to its own queue.
  have charges : ∀ mineKind mine, op.charged = some ⟨mineKind, mine, op.ends⟩ →
      (done.1 = .ok () ∧
        (dropPassed discoveryWindow op.ends
          ((discoveries.budget mine).queue mineKind)).length < mineKind.limit ∧
        after = if kind = mineKind ∧ credential = mine then pruned ++ [op.ends] else pruned) ∨
      ((∃ error, done.1 = .error error) ∧ after = pruned) →
      (BudgetRun.newlyGranted done.1 op = [⟨kind, credential, op.ends⟩] ∧
        pruned.length < kind.limit ∧ after = pruned ++ [op.ends]) ∨
      ((∀ charge ∈ BudgetRun.newlyGranted done.1 op,
        ¬(charge.kind = kind ∧ charge.credential = credential)) ∧
        (after = before ∨ after = pruned)) := by
    intro mineKind mine charged outcome
    unfold BudgetRun.newlyGranted
    rcases outcome with ⟨answer, room, queue⟩ | ⟨⟨error, answer⟩, queue⟩
    · rw [answer, charged]
      by_cases same : kind = mineKind ∧ credential = mine
      · obtain ⟨rfl, rfl⟩ := same
        exact .inl ⟨rfl, room, queue.trans (if_pos ⟨rfl, rfl⟩)⟩
      · refine .inr ⟨?_, .inr (queue.trans (if_neg same))⟩
        simp only [Option.toList_some, List.mem_singleton, forall_eq]
        exact fun other => same ⟨other.1.symm, other.2.symm⟩
    · rw [answer]
      exact .inr ⟨by simp, .inr queue⟩
  cases op with
  | claim mine chuteId now =>
      refine .inr (uncharged rfl (.inr ?_))
      obtain ⟨inFlight, budget⟩ := discoveries.claim_budget mine credential chuteId now
      exact (congrArg (Budget.queue · kind) budget).trans
        (Budget.prune_queue (discoveries.budget credential) now kind)
  | charge mine chuteId now =>
      refine charges .discovery mine rfl ?_
      rcases discoveries.charge_cases mine chuteId now with
        ⟨answer, room, budgets⟩ | ⟨refused, budgets⟩
      · refine .inl ⟨answer, room, (congrArg (Budget.queue · kind) (budgets credential)).trans ?_⟩
        by_cases same : credential = mine
        · subst same
          cases kind <;> simp [Budget.queue, Budget.prune, pruned, before, Op.ends]
        · simp [same, Budget.prune_queue, pruned, before, Op.ends]
      · exact .inr ⟨refused, (congrArg (Budget.queue · kind) (budgets credential)).trans
          (Budget.prune_queue (discoveries.budget credential) now kind)⟩
  | chargeEvidence mine chuteId now =>
      refine charges .evidence mine rfl ?_
      rcases discoveries.chargeEvidence_cases mine chuteId now with
        ⟨answer, room, -, budgets⟩ | ⟨refused, budgets⟩
      · refine .inl ⟨answer, room, (congrArg (Budget.queue · kind) (budgets credential)).trans ?_⟩
        by_cases same : credential = mine
        · subst same
          cases kind <;> simp [Budget.queue, Budget.prune, pruned, before, Op.ends]
        · simp [same, Budget.prune_queue, pruned, before, Op.ends]
      · exact .inr ⟨refused, (congrArg (Budget.queue · kind) (budgets credential)).trans
          (Budget.prune_queue (discoveries.budget credential) now kind)⟩
  | failed mine chuteId error first second =>
      refine .inr (uncharged rfl (.inl ?_))
      have budget := discoveries.failed_budget mine credential chuteId error first second
      refine (congrArg (Budget.queue · kind) budget).trans ?_
      split
      · cases kind <;> rfl
      · rfl
  | evidenceFailed mine chuteId error reading =>
      refine .inr (uncharged rfl (.inl ?_))
      have budget := discoveries.evidenceFailed_budget mine credential chuteId error reading
      refine (congrArg (Budget.queue · kind) budget).trans ?_
      split
      · cases kind <;> rfl
      · rfl
  | succeeded mine chuteId now =>
      refine .inr (uncharged rfl (.inl ?_))
      refine (congrArg (Budget.queue · kind)
        (discoveries.succeeded_budget mine credential chuteId)).trans ?_
      split
      · cases kind <;> rfl
      · rfl
  | release mine now =>
      refine .inr (uncharged rfl (.inl ?_))
      refine (congrArg (Budget.queue · kind) (discoveries.release_budget mine credential)).trans ?_
      split
      · cases kind <;> rfl
      · rfl

namespace BudgetRun

/-- Every queue meters the charges granted from it. -/
def AllMetered (run : BudgetRun) : Prop :=
  ∀ kind credential, Metered kind.limit discoveryWindow (run.charges kind credential)
    ((run.discoveries.budget credential).queue kind) run.clock

/-- An operation starts no earlier than the last one ended, and its grants are
logged. -/
theorem step_eq_some {run next : BudgetRun} {op : Op} (stepped : run.step op = some next) :
    run.clock ≤ op.starts ∧ op.starts ≤ op.ends ∧
      next = ⟨(op.perform run.discoveries).2, op.ends,
        run.granted ++ newlyGranted (op.perform run.discoveries).1 op⟩ := by
  unfold step at stepped
  split at stepped
  · rename_i ordered
    exact ⟨ordered.1, ordered.2, (Option.some.inj stepped).symm⟩
  · cases stepped

/-- An operation keeps every queue metered. -/
theorem AllMetered.next {run next : BudgetRun} {op : Op} (metered : run.AllMetered)
    (stepped : run.step op = some next) : next.AllMetered := by
  obtain ⟨started, ended, rfl⟩ := step_eq_some stepped
  have later : run.clock ≤ op.ends := started.trans ended
  intro kind credential
  have meter := metered kind credential
  rcases op.perform_queue run.discoveries kind credential with
    ⟨granted, room, queue⟩ | ⟨others, queue⟩
  · have charges : (⟨(op.perform run.discoveries).2, op.ends,
        run.granted ++ newlyGranted (op.perform run.discoveries).1 op⟩ : BudgetRun).charges kind
          credential = run.charges kind credential ++ [op.ends] := by
      simp [BudgetRun.charges, granted]
    rw [charges, queue]
    exact (meter.prune later).grant room
  · have charges : (⟨(op.perform run.discoveries).2, op.ends,
        run.granted ++ newlyGranted (op.perform run.discoveries).1 op⟩ : BudgetRun).charges kind
          credential = run.charges kind credential := by
      have nothing : (newlyGranted (op.perform run.discoveries).1 op).filter (fun charge =>
          charge.kind = kind ∧ charge.credential = credential) = [] :=
        List.filter_eq_nil_iff.mpr fun charge mem => by simpa using others charge mem
      simp only [BudgetRun.charges, List.filter_append, nothing, List.append_nil]
    rw [charges]
    rcases queue with kept | pruned
    · rw [kept]
      exact meter.tick later
    · rw [pruned]
      exact meter.prune later

/-- In every reachable state every queue is metered. -/
theorem AllMetered.reachable {run : BudgetRun} (reached : discoveriesMachine.Reachable run) :
    run.AllMetered :=
  reached.invariant
    (fun kind credential => by
      have queue : (Discoveries.empty.budget credential).queue kind = [] := by
        cases kind <;> simp [Budget.queue, Budget.fresh]
      change Metered kind.limit discoveryWindow []
        ((Discoveries.empty.budget credential).queue kind) 0
      rw [queue]
      exact Metered.start _ _ 0)
    (fun _ _ _ metered stepped => metered.next stepped)

end BudgetRun

/-! ### Evidence deadlines -/

/-- Evidence calls for the chute are held until `deadline` at least. -/
def Discoveries.HeldUntil (discoveries : Discoveries) (credential : Credential)
    (chuteId : String) (deadline : Instant) : Prop :=
  ∃ held, (discoveries.budget credential).evidenceBackoff.lookup chuteId = some held ∧
    deadline ≤ held.untilAt

theorem le_backOff_untilAt {current : HashMap String Backoff} {chuteId : String}
    {held : Backoff} (recorded : current.lookup chuteId = some held) (error : ChutesError)
    (reading : Reading) : held.untilAt ≤ (backOff current chuteId error reading).untilAt := by
  simp only [backOff, recorded]
  split
  · exact le_rfl
  · exact not_lt.mp ‹_›

theorem Budget.prune_evidenceBackoff {budget : Budget} {chuteId : String} {held : Backoff}
    {now : Instant} (recorded : budget.evidenceBackoff.lookup chuteId = some held)
    (running : now < held.untilAt) :
    (budget.prune now).evidenceBackoff.lookup chuteId = some held :=
  Finmap.lookup_retain_eq_some.mpr
    ⟨recorded, by simpa using running.trans_le (Nat.le_add_right _ _)⟩

namespace Discoveries.HeldUntil

variable {discoveries : Discoveries} {credential : Credential} {chuteId : String}
  {deadline : Instant}

/-- An operation that leaves the credential's evidence backoffs as they are, or
only prunes them, keeps the deadline. -/
private theorem of_pruned {after : Discoveries} {now : Instant}
    (held : discoveries.HeldUntil credential chuteId deadline) (running : now < deadline)
    (pruned : (after.budget credential).evidenceBackoff =
      ((discoveries.budget credential).prune now).evidenceBackoff) :
    after.HeldUntil credential chuteId deadline := by
  obtain ⟨backoff, recorded, late⟩ := held
  exact ⟨backoff, pruned ▸ Budget.prune_evidenceBackoff recorded (running.trans_le late), late⟩

/-- Recording another failure never brings a deadline forward. -/
private theorem of_insert {after : Discoveries} {other : String} {error : ChutesError}
    {reading : Reading} (held : discoveries.HeldUntil credential chuteId deadline)
    (inserted : (after.budget credential).evidenceBackoff =
      (discoveries.budget credential).evidenceBackoff.insert other
        (backOff (discoveries.budget credential).evidenceBackoff other error reading)) :
    after.HeldUntil credential chuteId deadline := by
  obtain ⟨backoff, recorded, late⟩ := held
  unfold Discoveries.HeldUntil
  rw [inserted]
  by_cases same : chuteId = other
  · subst same
    exact ⟨_, Finmap.lookup_insert _, late.trans (le_backOff_untilAt recorded error reading)⟩
  · exact ⟨backoff, (Finmap.lookup_insert_of_ne _ same).trans recorded, late⟩

private theorem of_same {after : Discoveries}
    (held : discoveries.HeldUntil credential chuteId deadline)
    (same : (after.budget credential).evidenceBackoff =
      (discoveries.budget credential).evidenceBackoff) :
    after.HeldUntil credential chuteId deadline := by
  unfold Discoveries.HeldUntil
  rw [same]
  exact held

/-- No operation before the deadline shortens it, whatever it records or clears. -/
theorem perform (held : discoveries.HeldUntil credential chuteId deadline) (op : Op)
    (running : op.ends < deadline) :
    (op.perform discoveries).2.HeldUntil credential chuteId deadline := by
  cases op with
  | claim mine other now =>
      obtain ⟨inFlight, budget⟩ := discoveries.claim_budget mine credential other now
      have backoffs := congrArg Budget.evidenceBackoff budget
      exact held.of_pruned running backoffs
  | charge mine other now =>
      rcases discoveries.charge_cases mine other now with ⟨-, -, budgets⟩ | ⟨-, budgets⟩
      · refine held.of_pruned running ((congrArg Budget.evidenceBackoff (budgets _)).trans ?_)
        by_cases same : credential = mine
        · rw [if_pos same, same]
          rfl
        · rw [if_neg same]
          rfl
      · exact held.of_pruned running (congrArg Budget.evidenceBackoff (budgets _))
  | chargeEvidence mine other now =>
      rcases discoveries.chargeEvidence_cases mine other now with ⟨-, -, -, budgets⟩ | ⟨-, budgets⟩
      · refine held.of_pruned running ((congrArg Budget.evidenceBackoff (budgets _)).trans ?_)
        by_cases same : credential = mine
        · rw [if_pos same, same]
          rfl
        · rw [if_neg same]
          rfl
      · exact held.of_pruned running (congrArg Budget.evidenceBackoff (budgets _))
  | failed mine other error first second =>
      have budget := congrArg Budget.evidenceBackoff
        (discoveries.failed_budget mine credential other error first second)
      by_cases same : credential = mine
      · rw [if_pos same] at budget
        by_cases refused : evidenceRefused error = true
        · exact held.of_insert (budget.trans (if_pos refused))
        · exact held.of_same (budget.trans (if_neg refused))
      · exact held.of_same (budget.trans (by rw [if_neg same]))
  | evidenceFailed mine other error reading =>
      have budget := congrArg Budget.evidenceBackoff
        (discoveries.evidenceFailed_budget mine credential other error reading)
      by_cases same : credential = mine
      · exact held.of_insert (budget.trans (by rw [if_pos same]))
      · exact held.of_same (budget.trans (by rw [if_neg same]))
  | succeeded mine other now =>
      refine held.of_same ((congrArg Budget.evidenceBackoff
        (discoveries.succeeded_budget mine credential other)).trans ?_)
      split <;> rfl
  | release mine now =>
      refine held.of_same ((congrArg Budget.evidenceBackoff
        (discoveries.release_budget mine credential)).trans ?_)
      split <;> rfl

/-- Before the deadline an evidence charge is refused and nothing is counted. -/
theorem refused (held : discoveries.HeldUntil credential chuteId deadline) {now : Instant}
    (running : now < deadline) :
    ∃ refusal, (discoveries.chargeEvidence credential chuteId now).1 = .error refusal ∧
      ((discoveries.chargeEvidence credential chuteId now).2.budget credential).evidence =
        dropPassed discoveryWindow now (discoveries.budget credential).evidence := by
  rcases discoveries.chargeEvidence_cases credential chuteId now with
    ⟨-, -, notRunning, -⟩ | ⟨⟨refusal, answer⟩, budgets⟩
  · obtain ⟨backoff, recorded, late⟩ := held
    have still := running.trans_le late
    have lookup := Budget.prune_evidenceBackoff recorded still
    simp [Budget.checkRunning, lookup, Option.filter, still] at notRunning
  · exact ⟨refusal, answer, congrArg Budget.evidence (budgets credential)⟩

end Discoveries.HeldUntil

namespace BudgetRun

/-- The operations that hold evidence calls record the deadline they compute. -/
theorem step_evidenceHeld {run next : BudgetRun} {op : Op} (stepped : run.step op = some next)
    {credential : Credential} {chuteId : String} {error : ChutesError} {reading : Reading}
    (holds : op.evidenceHeld = some (credential, chuteId, error, reading)) :
    (next.discoveries.budget credential).evidenceBackoff.lookup chuteId =
      some (backOff (run.discoveries.budget credential).evidenceBackoff chuteId error reading) := by
  obtain ⟨-, -, rfl⟩ := step_eq_some stepped
  cases op with
  | failed mine other cause first second =>
      by_cases refused : evidenceRefused cause = true
      · rw [Op.evidenceHeld, if_pos refused] at holds
        cases holds
        change Finmap.lookup chuteId ((run.discoveries.failed credential chuteId error first
          reading).budget credential).evidenceBackoff = _
        rw [run.discoveries.failed_budget, if_pos rfl]
        simp [refused]
      · rw [Op.evidenceHeld, if_neg refused] at holds
        cases holds
  | evidenceFailed mine other cause at_ =>
      cases holds
      change Finmap.lookup chuteId ((run.discoveries.evidenceFailed credential chuteId error
        reading).budget credential).evidenceBackoff = _
      rw [run.discoveries.evidenceFailed_budget, if_pos rfl]
      simp
  | claim | charge | chargeEvidence | succeeded | release => cases holds

/-- A deadline is held until it passes. -/
theorem exec_heldUntil {run after : BudgetRun} {ops : List Op} {credential : Credential}
    {chuteId : String} {deadline : Instant}
    (held : run.discoveries.HeldUntil credential chuteId deadline)
    (ran : discoveriesMachine.exec run ops = some after) (running : after.clock < deadline) :
    after.discoveries.HeldUntil credential chuteId deadline := by
  -- The clock never goes back, so the whole run is before the deadline.
  refine Machine.exec_invariant (P := fun state => state.clock < deadline →
    state.discoveries.HeldUntil credential chuteId deadline) ?_ (fun _ => held) ran running
  intro state op next kept stepped before
  obtain ⟨started, ended, rfl⟩ := step_eq_some stepped
  exact (kept ((started.trans ended).trans_lt before)).perform op before

end BudgetRun

/-- Both provider limits, over every run. No window of the length of
`discoveryWindow` holds more charges of a credential than the kind's limit. Once
a failure records an evidence deadline, every evidence charge for that credential
and chute before it is refused and not counted, whatever runs in between. -/
theorem budgets_keep_provider_limits :
    (∀ run, discoveriesMachine.Reachable run → ∀ kind credential start,
      ((run.charges kind credential).filter fun at_ =>
        start ≤ at_ ∧ at_ < start + discoveryWindow).length ≤ kind.limit ∧
      ((run.charges kind credential).filter fun at_ =>
        start < at_ ∧ at_ ≤ start + discoveryWindow).length ≤ kind.limit) ∧
    (∀ before op recorded ops after credential chuteId error reading now,
      discoveriesMachine.Reachable before →
      discoveriesMachine.step before op = some recorded →
      op.evidenceHeld = some (credential, chuteId, error, reading) →
      discoveriesMachine.exec recorded ops = some after →
      after.clock ≤ now →
      now < (backOff (before.discoveries.budget credential).evidenceBackoff chuteId error
        reading).untilAt →
      (recorded.discoveries.budget credential).evidenceBackoff.lookup chuteId =
        some (backOff (before.discoveries.budget credential).evidenceBackoff chuteId error
          reading) ∧
      ∃ refusal, (after.discoveries.chargeEvidence credential chuteId now).1 = .error refusal ∧
        ((after.discoveries.chargeEvidence credential chuteId now).2.budget credential).evidence =
          dropPassed discoveryWindow now (after.discoveries.budget credential).evidence) := by
  refine ⟨fun run reached kind credential start => ?_, ?_⟩
  · have meter := BudgetRun.AllMetered.reachable reached kind credential
    constructor
    · simpa using meter.within _ (narrow_closedOpen discoveryWindow start)
    · simpa using meter.within _ (narrow_openClosed discoveryWindow start)
  · intro before op recorded ops after credential chuteId error reading now _ stepped holds ran
      reading_le running
    have lookup := BudgetRun.step_evidenceHeld stepped holds
    have held : recorded.discoveries.HeldUntil credential chuteId _ := ⟨_, lookup, le_rfl⟩
    exact ⟨lookup, (BudgetRun.exec_heldUntil held ran (reading_le.trans_lt running)).refused
      running⟩

/-- One evidence call more than a minute allows. -/
def spendingOps : List Op :=
  (List.range (evidencePerMinute + 1)).map fun at_ => .chargeEvidence [7] "kimi-k3" at_

/-- The evidence budget of a minute is spent and the call after that is not counted; then a
chute below its evidence minimum, and a success: evidence is still refused. -/
theorem budgets_keep_provider_limits_after_success : ∃ spent after refusal,
    discoveriesMachine.run spendingOps = some spent ∧
      spent.charges .evidence [7] = List.range evidencePerMinute ∧
      ((spent.charges .evidence [7]).filter fun at_ =>
        0 ≤ at_ ∧ at_ < 0 + discoveryWindow).length ≤ evidencePerMinute ∧
      discoveriesMachine.exec spent
        [.failed [7] "kimi-k3" .belowEvidenceMinimum ⟨50, 0, 0⟩ ⟨60, 0, 0⟩,
          .succeeded [7] "kimi-k3" 80] = some after ∧
      (after.discoveries.chargeEvidence [7] "kimi-k3" 90).1 = .error refusal := by
  have spends : (discoveriesMachine.run spendingOps).map (fun spent =>
      decide (spent.charges .evidence [7] = List.range evidencePerMinute ∧ spent.clock ≤ 50 ∧
        (spent.discoveries.budget [7]).evidenceBackoff.lookup "kimi-k3" = none)) = some true := by
    decide
  obtain ⟨spent, ran, all⟩ := Option.map_eq_some_iff.mp spends
  obtain ⟨charged, clock, noBackoff⟩ := of_decide_eq_true all
  let op : Op := .failed [7] "kimi-k3" .belowEvidenceMinimum ⟨50, 0, 0⟩ ⟨60, 0, 0⟩
  have stepped : discoveriesMachine.step spent op =
      some ⟨(op.perform spent.discoveries).2, 60, spent.granted ++ []⟩ :=
    if_pos ⟨clock, by decide⟩
  obtain ⟨-, refusal, refused, -⟩ := budgets_keep_provider_limits.2 spent op _
    [.succeeded [7] "kimi-k3" 80] _ [7] "kimi-k3" .belowEvidenceMinimum ⟨60, 0, 0⟩ 90
    ⟨_, ran⟩ stepped rfl rfl (show (80 : Nat) ≤ 90 by decide)
    (by rw [backOff, noBackoff]; decide)
  refine ⟨spent, _, refusal, ran, charged,
    (budgets_keep_provider_limits.1 spent ⟨_, ran⟩ .evidence [7] 0).1, ?_, refused⟩
  exact (Machine.exec_cons_eq_some _).mpr ⟨_, stepped, rfl⟩

end GmMiner.Chutes
