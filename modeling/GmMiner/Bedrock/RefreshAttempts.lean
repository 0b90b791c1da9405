import GmMiner.Bedrock.Refresher
import Mathlib.Data.List.Induction

/-!
When the bindings are refreshed.

An attempt starts when it is due by itself or when a pending nudge may start one, and both instants
keep the distance and the backoff after the attempt before (`Refresher.Sound`). A nudge that is
pending reached the generation that is current, so an attempt ahead of its time has one behind it;
while no nudge is ahead of the generations there have been, it came after the attempt before.
-/

namespace GmMiner.Bedrock

open GmMiner.Lib RefreshLog

/-! ### The delay after a failure -/

/-- The predecessor stops at zero. -/
theorem saturatingPred_toNat (n : UInt32) : (saturatingPred n).toNat = n.toNat - 1 := by
  unfold saturatingPred
  split
  · rename_i zero
    rw [zero]
    rfl
  · rename_i some_
    have pos : 0 < n.toNat := Nat.pos_of_ne_zero fun zero => some_ (UInt32.toNat_inj.mp zero)
    rw [UInt32.toNat_sub_of_le _ _ (show (1 : UInt32) ≤ n from pos)]
    rfl

/-- The successor stops at the largest count. -/
theorem saturatingSucc_toNat (n : UInt32) :
    (saturatingSucc n).toNat = min (n.toNat + 1) (2 ^ 32 - 1) := by
  have bound := n.toNat_lt
  unfold saturatingSucc
  split
  · rename_i top
    rw [top]
    rfl
  · rename_i below
    have lt : n.toNat ≠ 2 ^ 32 - 1 := fun top => below (UInt32.toNat_inj.mp top)
    rw [UInt32.toNat_add]
    simp only [UInt32.toNat_one]
    omega

/-- The shift loses nothing that matters below the cap. -/
theorem min_le_shifted : ∀ shift < 64, min (3 * 2 ^ shift) 35 ≤ 3 * 2 ^ shift % 2 ^ 64 := by
  decide

/-- The backoff after some failures, in seconds. -/
theorem backoffSecs_ge (failures : UInt32) :
    min (3 * 2 ^ (failures.toNat - 1)) 35 ≤
      (min ((checkedShl bindingsRetryInitialDelay (saturatingPred failures)).getD
        (UInt64.ofNat (2 ^ 64 - 1))) bindingsRetryMaxDelay).toNat := by
  have shift := saturatingPred_toNat failures
  have minNat : ∀ a b : UInt64, (min a b).toNat = min a.toNat b.toNat := by
    intro a b
    rw [UInt64.toNat_min]
  rw [minNat]
  refine le_min ?_ (min_le_right _ _)
  unfold checkedShl
  split
  · rename_i small
    have small : (saturatingPred failures).toNat < 64 := small
    have shifted : (bindingsRetryInitialDelay <<< (saturatingPred failures).toUInt64).toNat =
        3 * 2 ^ (saturatingPred failures).toNat % 2 ^ 64 := by
      rw [UInt64.toNat_shiftLeft, Nat.shiftLeft_eq, UInt32.toNat_toUInt64, Nat.mod_eq_of_lt small]
      rfl
    rw [Option.getD_some, shifted, ← shift]
    exact min_le_shifted _ small
  · exact (min_le_right _ _).trans (by decide)

theorem nextDelay_ge (failures : UInt32) (jitter : Duration → Duration) :
    Duration.fromSecs (min (3 * 2 ^ (failures.toNat - 1)) 35) ≤ nextDelay failures jitter := by
  have base := Duration.fromSecs_mono (backoffSecs_ge failures)
  have cap : Duration.fromSecs (min (3 * 2 ^ (failures.toNat - 1)) 35) ≤ maxDuration :=
    (Duration.fromSecs_mono (min_le_right _ 35)).trans (by decide)
  exact le_min (base.trans (Nat.le_add_right _ _)) cap

/-- Counting the failures stops where the backoff has long been at its cap. -/
theorem backoff_saturates (k : Nat) :
    min (3 * 2 ^ (k - 1)) 35 ≤ min (3 * 2 ^ (min k (2 ^ 32 - 1) - 1)) 35 := by
  rcases le_total k (2 ^ 32 - 1) with small | large
  · rw [min_eq_left small]
  · rw [min_eq_right large]
    have capped : 35 ≤ 3 * 2 ^ (2 ^ 32 - 1 - 1) := by
      have four : 4 ≤ 2 ^ 32 - 1 - 1 := by decide
      generalize 2 ^ 32 - 1 - 1 = shift at four
      have power := Nat.pow_le_pow_right (show 0 < 2 by decide) four
      omega
    exact le_min ((min_le_right _ _).trans capped) (min_le_right _ _)

/-! ### The invariant -/

/-- What an attempt that starts at `now` has behind it. -/
structure LawfulStart (now : Instant) (before : RefreshLog) : Prop where
  alone : running before = false
  gap : ∀ completedAt periodicAt, lastCompletion before = some (completedAt, periodicAt) →
    completedAt + bindingsOnDemandMinInterval ≤ now
  backoff : ∀ completedAt periodicAt, lastCompletion before = some (completedAt, periodicAt) →
    0 < failuresInRow before →
      completedAt + Duration.fromSecs (min (3 * 2 ^ (failuresInRow before - 1)) 35) ≤ now
  demanded : ∀ completedAt periodicAt, lastCompletion before = some (completedAt, periodicAt) →
    now < periodicAt → completions before < 2 ^ 64 →
      ∃ generation, .nudged generation ∈ before ∧ completions before ≤ generation.toNat

def LoopPoint.isRefreshing : LoopPoint → Bool
  | refreshing => true
  | _ => false

/-- The demand the loop goes on with. -/
def LoopPoint.demand : LoopPoint → Option Instant
  | asleep demandAt _ | awake demandAt => demandAt
  | _ => none

/-- A demand is for the current generation, and keeps the gap and the backoff. -/
structure Demand (generation value : UInt64) (log : RefreshLog) (at_ : Instant) : Prop where
  current : generation.toNat ≤ value.toNat
  gap : ∀ completedAt periodicAt, lastCompletion log = some (completedAt, periodicAt) →
    completedAt + bindingsOnDemandMinInterval ≤ at_
  backoff : ∀ completedAt periodicAt, lastCompletion log = some (completedAt, periodicAt) →
    0 < failuresInRow log → periodicAt ≤ at_

namespace Refresher

structure Sound (s : Refresher) : Prop where
  failures : s.consecutiveFailures.toNat = min (failuresInRow s.log) (2 ^ 32 - 1)
  last : s.lastCompletedAt = (lastCompletion s.log).map Prod.fst
  next : s.nextAttemptAt = (lastCompletion s.log).map Prod.snd
  generation : s.currentGeneration = UInt64.ofNat (completions s.log)
  published : s.status.generation = s.currentGeneration
  reads : ∀ generation ∈ s.read, generation.toNat ≤ completions s.log
  counted : (lastCompletion s.log).isSome = true → 0 < completions s.log
  gap : ∀ completedAt periodicAt, lastCompletion s.log = some (completedAt, periodicAt) →
    completedAt + bindingsOnDemandMinInterval ≤ periodicAt
  backoff : ∀ completedAt periodicAt, lastCompletion s.log = some (completedAt, periodicAt) →
    0 < failuresInRow s.log →
      completedAt + Duration.fromSecs (min (3 * 2 ^ (failuresInRow s.log - 1)) 35) ≤ periodicAt
  value : s.nudge.value = 0 ∨ .nudged s.nudge.value ∈ s.log
  pending : s.nudgePending = true → s.currentGeneration.toNat ≤ s.nudge.value.toNat
  demand : ∀ at_, s.point.demand = some at_ →
    Demand s.currentGeneration s.nudge.value s.log at_
  running : running s.log = s.point.isRefreshing
  starts : EachStart LawfulStart s.log

variable {s next : Refresher}

/-- At the start there was no attempt. -/
theorem Sound.init : Refresher.init.Sound where
  failures := rfl
  last := rfl
  next := rfl
  generation := rfl
  published := rfl
  reads := nofun
  counted := nofun
  gap := nofun
  backoff := nofun
  value := .inl rfl
  pending := nofun
  demand := nofun
  running := rfl
  starts := trivial

theorem failures_pos (sound : s.Sound) (pos : 0 < failuresInRow s.log) :
    0 < s.consecutiveFailures := by
  have counted := sound.failures
  change 0 < s.consecutiveFailures.toNat
  omega

/-- A nudge taken leaves the log as the counters have it. -/
theorem Sound.takeNudge (sound : s.Sound) (point : LoopPoint)
    (running : RefreshLog.running s.log = point.isRefreshing) (none_ : point.demand = none) :
    Sound { s.takeNudge with point } :=
  { sound with
    pending := fun pending => of_decide_eq_true pending
    demand := fun at_ demands => by
      rw [none_] at demands
      cases demands
    running := running }

/-- A nudge heard at the top of the loop leaves it so too. -/
theorem Sound.hearNudge (sound : s.Sound) (top : s.point = .top) : s.hearNudge.Sound := by
  unfold Refresher.hearNudge
  split
  · have heard := sound.takeNudge .top (by rw [sound.running, top]) rfl
    have same : { s.takeNudge with point := .top } = s.takeNudge := by
      unfold Refresher.takeNudge
      rw [← top]
    rwa [same] at heard
  · exact sound

/-- A demand keeps its distance. -/
theorem Sound.demandAt (sound : s.Sound) {now at_ : Instant}
    (demands : s.demandAt now = some at_) :
    Demand s.currentGeneration s.nudge.value s.log at_ := by
  unfold Refresher.demandAt at demands
  split at demands
  · rename_i pending
    cases demands
    refine ⟨sound.pending pending, ?_, ?_⟩
    · intro completedAt periodicAt last
      simp only [sound.last, last, Option.map_some, Option.getD_some]
      exact le_max_left _ _
    · intro completedAt periodicAt last failed
      simp only [sound.next, last, Option.map_some, Option.getD_some,
        if_pos (failures_pos sound failed)]
      exact le_max_right _ _
  · cases demands

theorem Sound.generation_toNat (sound : s.Sound) (few : completions s.log < 2 ^ 64) :
    s.currentGeneration.toNat = completions s.log := by
  rw [sound.generation, UInt64.toNat_ofNat', Nat.mod_eq_of_lt few]

/-- An attempt starts lawfully. -/
theorem Sound.start (sound : s.Sound) {demandAt : Option Instant} {now : Instant}
    (awake : s.point = .awake demandAt) (due : s.due demandAt now = true) :
    LawfulStart now s.log := by
  have demand : ∀ at_, demandAt = some at_ →
      Demand s.currentGeneration s.nudge.value s.log at_ := by
    intro at_ is
    exact sound.demand at_ (by rw [awake]; exact is)
  unfold Refresher.due at due
  rw [Bool.or_eq_true, Option.any_eq_true] at due
  -- Due by the period, or by a demand whose time has come.
  have periodic : ∀ completedAt periodicAt,
      lastCompletion s.log = some (completedAt, periodicAt) →
        periodicAt ≤ now ∨
          ∃ at_, Demand s.currentGeneration s.nudge.value s.log at_ ∧ at_ ≤ now := by
    intro completedAt periodicAt last
    rcases due with byItself | ⟨at_, is, reached⟩
    · rw [sound.next, last] at byItself
      exact .inl (of_decide_eq_true byItself)
    · exact .inr ⟨at_, demand at_ is, of_decide_eq_true reached⟩
  refine ⟨?_, ?_, ?_, ?_⟩
  · rw [sound.running, awake]
    rfl
  · intro completedAt periodicAt last
    rcases periodic _ _ last with byItself | ⟨at_, demand, reached⟩
    · exact (sound.gap _ _ last).trans byItself
    · exact (demand.gap _ _ last).trans reached
  · intro completedAt periodicAt last failed
    refine (sound.backoff _ _ last failed).trans ?_
    rcases periodic _ _ last with byItself | ⟨at_, demand, reached⟩
    · exact byItself
    · exact (demand.backoff _ _ last failed).trans reached
  · intro completedAt periodicAt last ahead few
    rcases periodic _ _ last with byItself | ⟨at_, demand, reached⟩
    · exact absurd byItself (Nat.not_le.mpr ahead)
    · have current := demand.current
      rw [sound.generation_toNat few] at current
      have counted := sound.counted (by rw [last]; rfl)
      refine ⟨s.nudge.value, ?_, current⟩
      -- A generation above those published was nudged: nothing else sets the value.
      rcases sound.value with zero | logged
      · rw [zero, UInt64.toNat_zero] at current
        exact absurd counted (Nat.not_lt.mpr current)
      · exact logged

theorem atTime_eq_some {now : Instant} {then_ : Refresher}
    (stepped : s.atTime now then_ = some next) : next = { then_ with clock := now } := by
  unfold Refresher.atTime at stepped
  split at stepped
  · exact (Option.some.inj stepped).symm
  · cases stepped

theorem Sound.atTime {then_ : Refresher} {now : Instant} (sound : then_.Sound)
    (stepped : s.atTime now then_ = some next) : next.Sound := by
  rw [atTime_eq_some stepped]
  exact { sound with }

/-- A nudge raises what the channel holds. -/
theorem Sound.nudge (sound : s.Sound) (generation : UInt64) :
    Sound { s with
      nudge := { s.nudge with value := max s.nudge.value generation, changed := true }
      log := .nudged generation :: s.log } :=
  have raised : s.nudge.value.toNat ≤ (max s.nudge.value generation).toNat := by
    rw [UInt64.toNat_max]
    exact le_max_left _ _
  { sound with
    value := by
      rcases le_total s.nudge.value.toNat generation.toNat with larger | smaller
      · have same : max s.nudge.value generation = generation :=
          UInt64.toNat_inj.mp (by rw [UInt64.toNat_max, max_eq_right larger])
        right
        rw [same]
        exact List.mem_cons_self
      · have same : max s.nudge.value generation = s.nudge.value :=
          UInt64.toNat_inj.mp (by rw [UInt64.toNat_max, max_eq_left smaller])
        rw [same]
        exact sound.value.imp_right (List.mem_cons_of_mem _)
    pending := fun pending => (sound.pending pending).trans raised
    demand := fun at_ demands =>
      { sound.demand at_ demands with current := (sound.demand at_ demands).current.trans raised } }

/-- The delay after a refresh, by what it ended in. -/
theorem delay_ge (sound : s.Sound) (jitter : Duration → Duration) :
    let failed := nextDelay (saturatingSucc s.consecutiveFailures) jitter
    Duration.fromSecs (min (3 * 2 ^ failuresInRow s.log) 35) ≤ failed ∧
      bindingsOnDemandMinInterval ≤ failed := by
  intro failed
  have counts : (saturatingSucc s.consecutiveFailures).toNat =
      min (failuresInRow s.log + 1) (2 ^ 32 - 1) := by
    rw [saturatingSucc_toNat, sound.failures]
    omega
  have delayed := nextDelay_ge (saturatingSucc s.consecutiveFailures) jitter
  rw [counts] at delayed
  have backoff := (Duration.fromSecs_mono (backoff_saturates (failuresInRow s.log + 1))).trans
    delayed
  rw [Nat.add_sub_cancel] at backoff
  have three : 3 ≤ min (3 * 2 ^ failuresInRow s.log) 35 := by
    have power : 0 < 2 ^ failuresInRow s.log := Nat.pow_pos (by decide)
    omega
  exact ⟨backoff, (Duration.fromSecs_mono three).trans backoff⟩

/-- After an attempt, whatever the times are. -/
theorem Sound.settled (sound : s.Sound) {completedAt nextAttempt : Instant} {failures : UInt32}
    {succeeded : Bool} {status : RefreshStatus}
    (counts : failures.toNat =
      min (if succeeded then 0 else failuresInRow s.log + 1) (2 ^ 32 - 1))
    (published : status.generation = s.currentGeneration + 1)
    (gap : completedAt + bindingsOnDemandMinInterval ≤ nextAttempt)
    (backoff : succeeded = false →
      completedAt + Duration.fromSecs (min (3 * 2 ^ failuresInRow s.log) 35) ≤ nextAttempt) :
    Sound (Refresher.takeNudge { s with
      consecutiveFailures := failures
      lastCompletedAt := some completedAt
      nextAttemptAt := some nextAttempt
      currentGeneration := s.currentGeneration + 1
      point := .top
      status
      log := .completed completedAt succeeded nextAttempt :: s.log }) where
  failures := counts
  last := rfl
  next := rfl
  generation := by
    change s.currentGeneration + 1 = UInt64.ofNat (completions s.log + 1)
    rw [sound.generation, UInt64.ofNat_add]
    rfl
  published := published
  reads := fun generation mem => (sound.reads generation mem).trans (Nat.le_succ _)
  counted := fun _ => Nat.succ_pos _
  gap := by
    intro at_ periodicAt same
    cases same
    exact gap
  backoff := by
    intro at_ periodicAt same failed
    cases same
    cases succeeded with
    | true => exact absurd failed (lt_irrefl 0)
    | false => exact backoff rfl
  value := sound.value.imp_right (List.mem_cons_of_mem _)
  pending := fun pending => of_decide_eq_true pending
  demand := nofun
  running := rfl
  starts := sound.starts

/-- A completion is counted as it is logged. -/
theorem Sound.completed (sound : s.Sound) (completedAt : Instant) (succeeded : Bool)
    (jitter : Duration → Duration) : (s.completed completedAt succeeded jitter).Sound := by
  obtain ⟨backoff, gap⟩ := delay_ge sound jitter
  have counts : (saturatingSucc s.consecutiveFailures).toNat =
      min (failuresInRow s.log + 1) (2 ^ 32 - 1) := by
    rw [saturatingSucc_toNat, sound.failures]
    omega
  unfold Refresher.completed
  cases succeeded with
  | true =>
      have interval : bindingsOnDemandMinInterval ≤ bindingsRefreshInterval :=
        Duration.fromSecs_mono (by decide)
      simp only [if_true]
      exact sound.settled rfl rfl (Nat.add_le_add_left interval completedAt) nofun
  | false =>
      simp only [Bool.false_eq_true, if_false]
      exact sound.settled counts rfl (Nat.add_le_add_left gap completedAt)
        fun _ => Nat.add_le_add_left backoff completedAt

theorem hearNudge_point (s : Refresher) : s.hearNudge.point = s.point := by
  unfold Refresher.hearNudge
  split <;> rfl

theorem hearNudge_log (s : Refresher) : s.hearNudge.log = s.log := by
  unfold Refresher.hearNudge
  split <;> rfl

theorem point_cases (now wakeAt : Instant) (demandAt : Option Instant) :
    let point := if now < wakeAt then LoopPoint.asleep demandAt wakeAt else .awake demandAt
    point.demand = demandAt ∧ point.isRefreshing = false := by
  intro point
  unfold point
  split <;> exact ⟨rfl, rfl⟩

/-- Every step keeps the counters as the log has them. -/
theorem Sound.step (sound : s.Sound) {event : RefreshEvent}
    (stepped : s.step event = some next) : next.Sound := by
  cases event with
  | read =>
      cases stepped
      refine { sound with reads := ?_ }
      intro generation mem
      rcases List.mem_cons.mp mem with rfl | before
      · rw [sound.published, sound.generation, UInt64.toNat_ofNat']
        exact Nat.mod_le _ _
      · exact sound.reads generation before
  | nudge generation =>
      cases stepped
      exact sound.nudge generation
  | close =>
      cases stepped
      exact { sound with }
  -- At the top of the loop a nudge is heard first, then the wait is chosen.
  | look now =>
      simp only [Refresher.step] at stepped
      split at stepped
      · rename_i top
        have heard := sound.hearNudge top
        refine Sound.atTime ?_ stepped
        obtain ⟨demands, waits⟩ := point_cases now
          (wakeAt (s.hearNudge.nextAttemptAt.getD now) (s.hearNudge.demandAt now))
          (s.hearNudge.demandAt now)
        refine { heard with
          demand := fun at_ is => heard.demandAt (demands.symm.trans is)
          running := ?_ }
        rw [heard.running, hearNudge_point, top]
        exact waits.symm
      · cases stepped
  | wake now =>
      simp only [Refresher.step] at stepped
      split at stepped
      · rename_i demandAt wakeAt asleep
        split at stepped
        · refine Sound.atTime ?_ stepped
          refine { sound with
            demand := fun at_ demands => sound.demand at_ (by rw [asleep]; exact demands)
            running := ?_ }
          rw [sound.running, asleep]
          rfl
        · cases stepped
      · cases stepped
  -- While asleep a nudge starts the loop over, and a closed channel ends it.
  | hear =>
      simp only [Refresher.step] at stepped
      split at stepped
      · rename_i demandAt wakeAt asleep
        split at stepped
        · cases stepped
          exact sound.takeNudge .top (by rw [sound.running, asleep]; rfl) rfl
        · split at stepped
          · cases stepped
            refine { sound with demand := nofun, running := ?_ }
            rw [sound.running, asleep]
            rfl
          · cases stepped
      · cases stepped
  -- Awake, the attempt is made only where it is due.
  | attempt now =>
      simp only [Refresher.step] at stepped
      split at stepped
      · rename_i demandAt awake
        refine Sound.atTime ?_ stepped
        split
        · rename_i due
          exact { sound with
            published := rfl
            value := sound.value.imp_right (List.mem_cons_of_mem _)
            demand := nofun
            running := rfl
            starts := ⟨sound.start awake due, sound.starts⟩ }
        · refine { sound with demand := nofun, running := ?_ }
          rw [sound.running, awake]
          rfl
      · cases stepped
  | complete now succeeded jitter =>
      simp only [Refresher.step] at stepped
      split at stepped
      · exact (sound.completed now succeeded jitter).atTime stepped
      · cases stepped

theorem Sound.reachable (reached : runBindingRefresher.Reachable s) : s.Sound :=
  reached.invariant (P := Refresher.Sound) Sound.init
    fun _ _ _ sound stepped => sound.step stepped

/-- A request nudges with a generation it has read, and none of these is ahead of the attempts. -/
theorem read_le_completions (reached : runBindingRefresher.Reachable s) :
    ∀ generation ∈ s.read, generation.toNat ≤ completions s.log :=
  (Sound.reachable reached).reads

end Refresher

/-! ### Attempts and nudges -/

namespace RefreshLog

/-- The completions of two logs add up. -/
theorem completions_append (newer older : RefreshLog) :
    completions (newer ++ older) = completions newer + completions older := by
  induction newer with
  | nil => exact (Nat.zero_add _).symm
  | cons entry newer ih =>
      cases entry with
      | completed =>
          change completions (newer ++ older) + 1 = completions newer + 1 + completions older
          rw [ih, Nat.add_right_comm]
      | nudged | started => exact ih

/-- What started last has not completed. -/
theorem running_of_started {newer older : RefreshLog} {at_ : Instant}
    (started : .started at_ ∈ newer) (none_ : completions newer = 0) :
    running (newer ++ older) = true := by
  induction newer with
  | nil => cases started
  | cons entry newer ih =>
      cases entry with
      | started => rfl
      | completed => cases none_
      | nudged generation =>
          rcases List.mem_cons.mp started with same | later
          · cases same
          · exact ih later none_

/-- No nudge was ahead of the generations there had been when it came. -/
def NotAhead (log : RefreshLog) : Prop :=
  ∀ newer generation older, log = newer ++ .nudged generation :: older →
    generation.toNat ≤ completions older

end RefreshLog

/-- An attempt ahead of its time has a nudge that came after every earlier attempt. -/
theorem LawfulStart.unserved {now completedAt periodicAt : Instant} {before : RefreshLog}
    (lawful : LawfulStart now before) (honest : NotAhead before)
    (last : lastCompletion before = some (completedAt, periodicAt)) (ahead : now < periodicAt)
    (few : completions before < 2 ^ 64) :
    ∃ newer generation older, before = newer ++ .nudged generation :: older ∧
      generation.toNat = completions before ∧ completions newer = 0 ∧
        ∀ at_, .started at_ ∉ newer := by
  obtain ⟨generation, nudged, reached⟩ := lawful.demanded completedAt periodicAt last ahead few
  obtain ⟨newer, older, rfl⟩ := List.append_of_mem nudged
  have notAhead := honest newer generation older rfl
  have counts : completions (newer ++ .nudged generation :: older) =
      completions newer + completions older := completions_append _ _
  refine ⟨newer, generation, older, rfl, by omega, by omega, fun at_ started => ?_⟩
  have running := @running_of_started newer (.nudged generation :: older) at_ started (by omega)
  rw [lawful.alone] at running
  cases running

/-- In every run, with nudges of any generations at any times: an attempt starts when no other is
running, no earlier than the on-demand gap and the backoff after the one before. One that starts
ahead of its own time has a nudge that reaches the generation current since the attempt before,
until the generations have been through all their values; and if no nudge was ahead of them when it
came, that nudge came after every earlier attempt. -/
theorem refresh_attempts {s : Refresher} (reached : runBindingRefresher.Reachable s) {now : Instant}
    {after before : RefreshLog} (attempt : s.log = after ++ .started now :: before) :
    LawfulStart now before ∧ (NotAhead before → ∀ completedAt periodicAt,
      lastCompletion before = some (completedAt, periodicAt) → now < periodicAt →
        completions before < 2 ^ 64 →
          ∃ newer generation older, before = newer ++ .nudged generation :: older ∧
            generation.toNat = completions before ∧ completions newer = 0 ∧
              ∀ at_, .started at_ ∉ newer) := by
  have starts := (Refresher.Sound.reachable reached).starts
  rw [attempt] at starts
  have lawful := starts.of_append
  exact ⟨lawful, fun honest _ _ last ahead few => lawful.unserved honest last ahead few⟩

/-! ### Requests that nudge as they have read -/

/-- A step logs nothing, or one entry, and a nudge only if it is one. -/
theorem Refresher.step_log {s next : Refresher} {event : RefreshEvent}
    (stepped : s.step event = some next) :
    next.log = s.log ∨ ∃ entry, next.log = entry :: s.log ∧
      ∀ generation, entry = .nudged generation → event = .nudge generation := by
  cases event with
  | read =>
      cases stepped
      exact .inl rfl
  | nudge generation =>
      cases stepped
      refine .inr ⟨_, rfl, ?_⟩
      rintro _ ⟨⟩
      rfl
  | close =>
      cases stepped
      exact .inl rfl
  | look now =>
      simp only [Refresher.step] at stepped
      split at stepped
      · rw [atTime_eq_some stepped]
        exact .inl s.hearNudge_log
      · cases stepped
  | wake now =>
      simp only [Refresher.step] at stepped
      split at stepped
      · split at stepped
        · rw [atTime_eq_some stepped]
          exact .inl rfl
        · cases stepped
      · cases stepped
  | hear =>
      simp only [Refresher.step] at stepped
      split at stepped
      · split at stepped
        · cases stepped
          exact .inl rfl
        · split at stepped
          · cases stepped
            exact .inl rfl
          · cases stepped
      · cases stepped
  | attempt now =>
      simp only [Refresher.step] at stepped
      split at stepped
      · rw [atTime_eq_some stepped]
        split
        · exact .inr ⟨_, rfl, nofun⟩
        · exact .inl rfl
      · cases stepped
  | complete now succeeded jitter =>
      simp only [Refresher.step] at stepped
      split at stepped
      · rw [atTime_eq_some stepped]
        exact .inr ⟨_, rfl, nofun⟩
      · cases stepped

/-- Every nudge of a schedule is of a generation that a request has read before it. -/
def Relayed (events : List RefreshEvent) : Prop :=
  ∀ before generation after, events = before ++ .nudge generation :: after →
    ∃ s, runBindingRefresher.run before = some s ∧ generation ∈ s.read

/-- A nudge that is not ahead of the generations leaves none ahead of them. -/
theorem RefreshLog.NotAhead.cons {log : RefreshLog} {entry : RefreshEntry} (notAhead : NotAhead log)
    (here : ∀ generation, entry = .nudged generation → generation.toNat ≤ completions log) :
    NotAhead (entry :: log) := by
  intro newer generation older split
  cases newer with
  | nil =>
      obtain ⟨same, rest⟩ := List.cons.inj split
      exact rest ▸ here generation same
  | cons first newer => exact notAhead newer generation older (List.cons.inj split).2

/-- A nudge relayed was read of a completion already logged. -/
theorem Relayed.notAhead {events : List RefreshEvent} (relayed : Relayed events) {s : Refresher}
    (ran : runBindingRefresher.run events = some s) : NotAhead s.log := by
  induction events using List.reverseRecOn generalizing s with
  | nil =>
      cases ran
      intro newer generation older split
      cases newer <;> cases split
  | append_singleton events event ih =>
      obtain ⟨mid, earlier, last⟩ := runBindingRefresher.exec_append_eq_some.mp ran
      obtain ⟨_, stepped, ⟨⟩⟩ := runBindingRefresher.exec_cons_eq_some.mp last
      have before : NotAhead mid.log := by
        refine ih (fun front generation after split => ?_) earlier
        exact relayed front generation (after ++ [event]) (by rw [split]; simp)
      rcases Refresher.step_log stepped with same | ⟨entry, logged, nudges⟩
      · rw [same]
        exact before
      · rw [logged]
        refine before.cons fun generation isNudge => ?_
        obtain ⟨reader, reads, mem⟩ := relayed events generation [] (by rw [nudges _ isNudge])
        cases reads.symm.trans earlier
        exact Refresher.read_le_completions ⟨events, earlier⟩ generation mem

/-- Where requests nudge with what they have read, every attempt ahead of its time is for a nudge that
came after every earlier attempt. -/
theorem relayed_attempt {events : List RefreshEvent} (relayed : Relayed events) {s : Refresher}
    (ran : runBindingRefresher.run events = some s) {now completedAt periodicAt : Instant}
    {after before : RefreshLog} (attempt : s.log = after ++ .started now :: before)
    (last : lastCompletion before = some (completedAt, periodicAt)) (ahead : now < periodicAt)
    (few : completions before < 2 ^ 64) :
    ∃ newer generation older, before = newer ++ .nudged generation :: older ∧
      generation.toNat = completions before ∧ completions newer = 0 ∧
        ∀ at_, .started at_ ∉ newer := by
  have starts := (Refresher.Sound.reachable ⟨events, ran⟩).starts
  rw [attempt] at starts
  refine starts.of_append.unserved (fun newer generation older split => ?_) last ahead few
  refine relayed.notAhead ran (after ++ .started now :: newer) generation older ?_
  rw [attempt, split, List.append_assoc]
  rfl

/-! ### A nudge ahead of its time -/

/-- A nudge of generation five comes after the first attempt, and two attempts follow it. -/
def earlyNudge : List RefreshEvent :=
  [.look 0, .attempt 0, .complete (Duration.fromSecs 1) true id, .nudge 5,
    .look (Duration.fromSecs 2), .wake (Duration.fromSecs 4), .attempt (Duration.fromSecs 4),
    .complete (Duration.fromSecs 4) true id, .look (Duration.fromSecs 4),
    .wake (Duration.fromSecs 7), .attempt (Duration.fromSecs 7)]

def earlyNudgeBefore : RefreshLog :=
  [.completed (Duration.fromSecs 4) true (Duration.fromSecs 64), .started (Duration.fromSecs 4),
    .nudged 5, .completed (Duration.fromSecs 1) true (Duration.fromSecs 61), .started 0]

theorem earlyNudge_runs : ∃ s, runBindingRefresher.run earlyNudge = some s ∧
    s.log = [] ++ .started (Duration.fromSecs 7) :: earlyNudgeBefore := by
  have ran : (runBindingRefresher.run earlyNudge).map Refresher.log =
      some (.started (Duration.fromSecs 7) :: earlyNudgeBefore) := by
    decide
  exact Option.map_eq_some_iff.mp ran

/-- The second of them is ahead of its time, and the one nudge there is was served by the first. -/
theorem earlyNudge_served_twice : ∃ s after before now completedAt periodicAt,
    runBindingRefresher.Reachable s ∧ s.log = after ++ .started now :: before ∧
      lastCompletion before = some (completedAt, periodicAt) ∧ now < periodicAt ∧
        ∀ newer generation older, before = newer ++ .nudged generation :: older →
          ∃ at_, .started at_ ∈ newer := by
  obtain ⟨s, run, log⟩ := earlyNudge_runs
  refine ⟨s, _, _, _, _, _, ⟨earlyNudge, run⟩, log, rfl, by decide, ?_⟩
  intro newer generation older split
  unfold earlyNudgeBefore at split
  rcases newer with _ | ⟨first, _ | ⟨second, newer⟩⟩
  · cases split
  · cases split
  · obtain ⟨-, split⟩ := List.cons.inj split
    obtain ⟨rfl, -⟩ := List.cons.inj split
    exact ⟨_, List.mem_cons_of_mem _ List.mem_cons_self⟩

/-! ### Nudges of generations that there had been -/

/-- A nudge of the generation before the first attempt comes late, and one of the current generation
after it. -/
def currentNudge : List RefreshEvent :=
  [.read, .look 0, .attempt 0, .complete (Duration.fromSecs 1) true id, .nudge 0, .read, .nudge 1,
    .look (Duration.fromSecs 2), .wake (Duration.fromSecs 4), .attempt (Duration.fromSecs 4)]

def currentNudgeBefore : RefreshLog :=
  [.nudged 1, .nudged 0, .completed (Duration.fromSecs 1) true (Duration.fromSecs 61), .started 0]

theorem currentNudge_runs : ∃ s, runBindingRefresher.run currentNudge = some s ∧
    s.log = [] ++ .started (Duration.fromSecs 4) :: currentNudgeBefore := by
  have ran : (runBindingRefresher.run currentNudge).map Refresher.log =
      some (.started (Duration.fromSecs 4) :: currentNudgeBefore) := by
    decide
  exact Option.map_eq_some_iff.mp ran

/-- No nudge of that schedule is ahead of the completions. -/
theorem currentNudge_notAhead : NotAhead currentNudgeBefore := by
  intro newer generation older split
  unfold currentNudgeBefore at split
  rcases newer with _ | ⟨first, _ | ⟨second, _ | ⟨third, _ | ⟨fourth, newer⟩⟩⟩⟩
  · cases split
    decide
  · cases split
    decide
  · cases split
  · cases split
  · simp at split

/-- The attempt is ahead of its time, and the nudge for it is not served yet. -/
theorem currentNudge_attempt : LawfulStart (Duration.fromSecs 4) currentNudgeBefore ∧
    ∃ newer generation older, currentNudgeBefore = newer ++ .nudged generation :: older ∧
      generation.toNat = completions currentNudgeBefore ∧ completions newer = 0 ∧
        ∀ at_, .started at_ ∉ newer := by
  obtain ⟨s, run, log⟩ := currentNudge_runs
  obtain ⟨lawful, unserved⟩ := refresh_attempts ⟨currentNudge, run⟩ log
  exact ⟨lawful, unserved currentNudge_notAhead _ _ rfl (by decide) (by decide)⟩

end GmMiner.Bedrock
