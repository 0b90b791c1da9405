import GmMiner.Lib.Machine
import GmMiner.Time

/-!
The task that refreshes the registry bindings (`next_delay`, `wait_for_binding_refresh` and
`run_binding_refresher` of `attestd/src/bedrock_mantle.rs`).

The task waits for its next attempt, or for a request's nudge; a nudge names the generation of the
status the request read, and comes through a watch channel that keeps the largest. Every piece of
the loop between two waits is one event, at a reading of the clock of its own; nudges of any
generation come in between. What an attempt ends in, when, and with which jitter is up to the
schedule. `log` keeps nudges and attempts, the newest first.
-/

namespace GmMiner.Bedrock

open GmMiner.Lib

def bindingsRefreshInterval : Duration := Duration.fromSecs 60
def bindingsOnDemandMinInterval : Duration := Duration.fromSecs 3
def bindingsRefreshTimeout : Duration := Duration.fromSecs 15

/-- `BINDINGS_RETRY_INITIAL_DELAY`, in seconds. -/
def bindingsRetryInitialDelay : UInt64 := 3

/-- `BINDINGS_RETRY_MAX_DELAY`, in seconds. -/
def bindingsRetryMaxDelay : UInt64 := 35

/-- `u64::checked_shl`. -/
def checkedShl (n : UInt64) (shift : UInt32) : Option UInt64 :=
  if shift < 64 then some (n <<< shift.toUInt64) else none

/-- `u32::saturating_sub` of one. -/
def saturatingPred (n : UInt32) : UInt32 := if n = 0 then 0 else n - 1

/-- `u32::saturating_add` of one. -/
def saturatingSucc (n : UInt32) : UInt32 := if n = UInt32.ofNat (2 ^ 32 - 1) then n else n + 1

/-- The most a duration holds. -/
def maxDuration : Duration := Duration.fromSecs (2 ^ 64) - 1

/-- `jitter` is the product with a quarter of the jitter fraction. -/
def nextDelay (failures : UInt32) (jitter : Duration → Duration) : Duration :=
  let shift := saturatingPred failures
  let baseSeconds :=
    min ((checkedShl bindingsRetryInitialDelay shift).getD (UInt64.ofNat (2 ^ 64 - 1)))
      bindingsRetryMaxDelay
  let base := Duration.fromSecs baseSeconds.toNat
  min (base + jitter base) maxDuration

/-- `BindingRefreshStatus`. -/
inductive RefreshStatus
  | inFlight (generation : UInt64) (deadline : Instant)
  | failureBackoff (generation : UInt64) (untilAt : Instant)
  | onDemandGap (generation : UInt64) (untilAt : Instant)
  deriving DecidableEq, Repr

def RefreshStatus.generation : RefreshStatus → UInt64
  | inFlight generation _ | failureBackoff generation _ | onDemandGap generation _ => generation

/-- The receiver's end of `refresh_nudge`. -/
structure NudgeChannel where
  value : UInt64
  /-- There is a value the receiver has not seen. -/
  changed : Bool
  /-- Every sender is gone. -/
  closed : Bool
  deriving DecidableEq, Repr

inductive RefreshEntry
  | nudged (generation : UInt64)
  | started (at_ : Instant)
  | completed (at_ : Instant) (succeeded : Bool) (nextAttemptAt : Instant)
  deriving DecidableEq, Repr

/-- Where the loop stands. -/
inductive LoopPoint
  | top
  /-- In the `select!`. -/
  | asleep (demandAt : Option Instant) (wakeAt : Instant)
  /-- Behind it. -/
  | awake (demandAt : Option Instant)
  | refreshing
  | returned
  deriving DecidableEq, Repr

structure Refresher where
  consecutiveFailures : UInt32
  lastCompletedAt : Option Instant
  nextAttemptAt : Option Instant
  currentGeneration : UInt64
  nudgePending : Bool
  point : LoopPoint
  nudge : NudgeChannel
  status : RefreshStatus
  /-- The generations requests have read in `wait_for_binding_refresh`. -/
  read : List UInt64
  clock : Instant
  log : List RefreshEntry
  deriving DecidableEq

inductive RefreshEvent
  /-- A request reads the status. -/
  | read
  /-- `refresh_nudge.send_modify`. -/
  | nudge (generation : UInt64)
  /-- The last sender is gone. -/
  | close
  /-- The start of the loop's body. -/
  | look (now : Instant)
  /-- `sleep_until` ends. -/
  | wake (now : Instant)
  /-- `nudge.changed` ends. -/
  | hear
  /-- What follows the `select!`. -/
  | attempt (now : Instant)
  | complete (now : Instant) (succeeded : Bool) (jitter : Duration → Duration)

namespace Refresher

def init : Refresher :=
  ⟨0, none, none, 0, false, .top, ⟨0, false, false⟩, .onDemandGap 0 0, [], 0, []⟩

/-- `borrow_and_update`, for what it says about a nudge. -/
def takeNudge (s : Refresher) : Refresher :=
  { s with
    nudgePending := s.currentGeneration ≤ s.nudge.value
    nudge := { s.nudge with changed := false } }

/-- `has_changed` is an error once the senders are gone. -/
def hearNudge (s : Refresher) : Refresher :=
  if s.nudge.changed && !s.nudge.closed then s.takeNudge else s

/-- When a pending nudge may start an attempt. -/
def demandAt (s : Refresher) (now : Instant) : Option Instant :=
  if s.nudgePending then
    let minIntervalAt := (s.lastCompletedAt.map (· + bindingsOnDemandMinInterval)).getD now
    let backoffAt := if 0 < s.consecutiveFailures then s.nextAttemptAt.getD now else now
    some (max minIntervalAt backoffAt)
  else none

def wakeAt (periodicAt : Instant) : Option Instant → Instant
  | some demandAt => min periodicAt demandAt
  | none => periodicAt

/-- What a refresh leaves. -/
def completed (s : Refresher) (completedAt : Instant) (succeeded : Bool)
    (jitter : Duration → Duration) : Refresher :=
  let failures := if succeeded then 0 else saturatingSucc s.consecutiveFailures
  let delay := if succeeded then bindingsRefreshInterval else nextDelay failures jitter
  let nextAttempt := completedAt + delay
  let generation := s.currentGeneration + 1
  takeNudge { s with
    consecutiveFailures := failures
    lastCompletedAt := some completedAt
    nextAttemptAt := some nextAttempt
    currentGeneration := generation
    point := .top
    status :=
      if succeeded then .onDemandGap generation (completedAt + bindingsOnDemandMinInterval)
      else .failureBackoff generation nextAttempt
    log := .completed completedAt succeeded nextAttempt :: s.log }

/-- Whether the time the task wakes at is reached. -/
def due (s : Refresher) (demandAt : Option Instant) (now : Instant) : Bool :=
  s.nextAttemptAt.all (· ≤ now) || demandAt.any (· ≤ now)

/-- An event at a reading of the clock. -/
def atTime (s : Refresher) (now : Instant) (next : Refresher) : Option Refresher :=
  if s.clock ≤ now then some { next with clock := now } else none

def step (s : Refresher) : RefreshEvent → Option Refresher
  | .read => some { s with read := s.status.generation :: s.read }
  | .nudge generation =>
      some { s with
        nudge := { s.nudge with value := max s.nudge.value generation, changed := true }
        log := .nudged generation :: s.log }
  | .close => some { s with nudge := { s.nudge with closed := true } }
  | .look now =>
      match s.point with
      | .top =>
          let s' := s.hearNudge
          let demandAt := s'.demandAt now
          let wakeAt := wakeAt (s'.nextAttemptAt.getD now) demandAt
          s.atTime now { s' with
            point := if now < wakeAt then .asleep demandAt wakeAt else .awake demandAt }
      | _ => none
  | .wake now =>
      match s.point with
      | .asleep demandAt wakeAt =>
          if wakeAt ≤ now then s.atTime now { s with point := .awake demandAt } else none
      | _ => none
  | .hear =>
      match s.point with
      | .asleep _ _ =>
          if s.nudge.changed then some { s.takeNudge with point := .top }
          else if s.nudge.closed then some { s with point := .returned }
          else none
      | _ => none
  | .attempt now =>
      match s.point with
      | .awake demandAt =>
          s.atTime now <|
            if s.due demandAt now then
              { s with
                point := .refreshing
                nudge := { s.nudge with changed := false }
                status := .inFlight s.currentGeneration (now + bindingsRefreshTimeout)
                log := .started now :: s.log }
            else { s with point := .top }
      | _ => none
  | .complete now succeeded jitter =>
      match s.point with
      | .refreshing => s.atTime now (s.completed now succeeded jitter)
      | _ => none

end Refresher

/-- `run_binding_refresher`, with the requests that nudge it. -/
def runBindingRefresher : Machine Refresher RefreshEvent where
  init := Refresher.init
  step := Refresher.step

/-! ### What the log says -/

abbrev RefreshLog := List RefreshEntry

namespace RefreshLog

/-- When the latest attempt completed, and when the next one is due by itself. -/
def lastCompletion : RefreshLog → Option (Instant × Instant)
  | [] => none
  | .completed at_ _ nextAttemptAt :: _ => some (at_, nextAttemptAt)
  | _ :: log => lastCompletion log

/-- The attempts that failed since one succeeded. -/
def failuresInRow : RefreshLog → Nat
  | [] => 0
  | .completed _ succeeded _ :: log => if succeeded then 0 else failuresInRow log + 1
  | _ :: log => failuresInRow log

def completions : RefreshLog → Nat
  | [] => 0
  | .completed _ _ _ :: log => completions log + 1
  | _ :: log => completions log

/-- An attempt is running. -/
def running : RefreshLog → Bool
  | [] => false
  | .started _ :: _ => true
  | .completed _ _ _ :: _ => false
  | .nudged _ :: log => running log

/-- Every attempt is started as a condition has it, on the instant and what went before. -/
def EachStart (P : Instant → RefreshLog → Prop) : RefreshLog → Prop
  | [] => True
  | .started now :: before => P now before ∧ EachStart P before
  | _ :: before => EachStart P before

theorem EachStart.of_append {P : Instant → RefreshLog → Prop} {after before : RefreshLog}
    {now : Instant} (each : EachStart P (after ++ .started now :: before)) : P now before := by
  induction after with
  | nil => exact each.1
  | cons entry after ih =>
      cases entry with
      | started => exact ih each.2
      | nudged | completed => exact ih each

end RefreshLog

end GmMiner.Bedrock
