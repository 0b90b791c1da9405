import GmMiner.Azure.Endpoint
import GmMiner.Lib.Timeline
import GmMiner.Time
import Mathlib.Data.List.Basic

/-!
The periodic verification of an Azure account (`azure-verify/src/periodic.rs`).

Two loops poll each account: one audits all of it, the other one checks its deployment bindings, and
the latter ends when no check has passed for two of its intervals. What a check finds, and how long
it takes, is up to the other side. The interval is a minute, so that no sum here leaves the range of
the clock.
-/

namespace GmMiner.Azure

open GmMiner.Lib

/-! ### Failures in a row -/

/-- `u32::MAX`. -/
def maxFailures : Nat := 2 ^ 32 - 1

structure TargetState where
  config : AzureVerifyConfig
  captureFailures : Nat
  deploymentFailures : Nat
  deriving DecidableEq, Repr

inductive VerificationOperation
  | captureAudit
  | deploymentBinding
  deriving DecidableEq, Repr

namespace VerificationOperation

def label : VerificationOperation → String
  | captureAudit => "owner-capture verification"
  | deploymentBinding => "deployment binding verification"

end VerificationOperation

namespace TargetState

/-- `TargetState::new`. -/
def new (config : AzureVerifyConfig) : TargetState := ⟨config, 0, 0⟩

/-- The counter of an operation. -/
def failures (state : TargetState) : VerificationOperation → Nat
  | .captureAudit => state.captureFailures
  | .deploymentBinding => state.deploymentFailures

def setFailures (state : TargetState) (operation : VerificationOperation) (count : Nat) :
    TargetState :=
  match operation with
  | .captureAudit => { state with captureFailures := count }
  | .deploymentBinding => { state with deploymentFailures := count }

@[simp] theorem setFailures_config (state : TargetState) (operation : VerificationOperation)
    (count : Nat) : (state.setFailures operation count).config = state.config := by
  cases operation <;> rfl

@[simp] theorem setFailures_failures (state : TargetState) (operation : VerificationOperation)
    (count : Nat) : (state.setFailures operation count).failures operation = count := by
  cases operation <;> rfl

theorem setFailures_other {operation other : VerificationOperation} (apart : other ≠ operation)
    (state : TargetState) (count : Nat) :
    (state.setFailures operation count).failures other = state.failures other := by
  cases operation <;> cases other <;> first | rfl | exact absurd rfl apart

@[simp] theorem new_failures (config : AzureVerifyConfig) (operation : VerificationOperation) :
    (new config).failures operation = 0 := by
  cases operation <;> rfl

end TargetState

/-- What a check of an account found. -/
abbrev CheckResult := Except AnyError Unit

/-- `record_result`: the reason to stop, if there is one. -/
def recordResult (state : TargetState) (result : CheckResult) (operation : VerificationOperation)
    (transientFailureLimit : UInt32) : Option String × TargetState :=
  let provider := state.config.provider.label
  match result with
  | .ok () => (none, state.setFailures operation 0)
  | .error error =>
      match classifyVerificationError error with
      | .definitive =>
          (some ("definitive " ++ provider ++ " " ++ operation.label ++ " failure: " ++ error.chain),
            state)
      | .transient =>
          let transientFailures := min (state.failures operation + 1) maxFailures
          let state := state.setFailures operation transientFailures
          if transientFailureLimit.toNat ≤ transientFailures then
            (some (provider ++ " " ++ operation.label ++ " had " ++ toString transientFailures ++
              " consecutive transient failures (limit " ++ toString transientFailureLimit.toNat ++
              "): " ++ error.chain), state)
          else (none, state)

/-- A failure that is worth a retry. -/
def CheckResult.transient : CheckResult → Bool
  | .ok () => false
  | .error error => classifyVerificationError error = .transient

def CheckResult.definitive : CheckResult → Bool
  | .ok () => false
  | .error error => classifyVerificationError error = .definitive

/-- The results of two operations as they come in, all recorded in one state. -/
def recordAll (transientFailureLimit : UInt32) (state : TargetState)
    (results : List (VerificationOperation × CheckResult)) : TargetState :=
  results.foldl (fun state entry =>
    (recordResult state entry.2 entry.1 transientFailureLimit).2) state

/-- The results of one operation, in their order. -/
def resultsOf (operation : VerificationOperation)
    (results : List (VerificationOperation × CheckResult)) : List CheckResult :=
  (results.filter fun entry => entry.1 = operation).map Prod.snd

/-- How many transient failures a history ends with. -/
def transientStreak (results : List CheckResult) : Nat :=
  (results.reverse.takeWhile CheckResult.transient).length

theorem transientStreak_concat (results : List CheckResult) (result : CheckResult) :
    transientStreak (results ++ [result]) =
      if result.transient then transientStreak results + 1 else 0 := by
  unfold transientStreak
  rw [List.reverse_concat, List.takeWhile_cons]
  split <;> simp

/-- A result is one more of its own operation. -/
theorem resultsOf_concat (operation : VerificationOperation)
    (results : List (VerificationOperation × CheckResult))
    (entry : VerificationOperation × CheckResult) :
    resultsOf operation (results ++ [entry]) =
      if entry.1 = operation then resultsOf operation results ++ [entry.2]
      else resultsOf operation results := by
  unfold resultsOf
  rw [List.filter_append]
  by_cases same : entry.1 = operation
  · simp [same]
  · simp [same]

theorem recordAll_concat (limit : UInt32) (state : TargetState)
    (results : List (VerificationOperation × CheckResult))
    (entry : VerificationOperation × CheckResult) :
    recordAll limit state (results ++ [entry]) =
      (recordResult (recordAll limit state results) entry.2 entry.1 limit).2 := by
  simp [recordAll]

/-- What recording a result does to the counters: only that of its operation changes, a success clears
it, a transient failure adds one, a definitive failure leaves it. -/
theorem recordResult_failures (state : TargetState) (result : CheckResult)
    (operation other : VerificationOperation) (limit : UInt32) :
    (recordResult state result operation limit).2.failures other =
      if other = operation then
        if result.transient then min (state.failures operation + 1) maxFailures
        else if result.definitive then state.failures operation else 0
      else state.failures other := by
  by_cases same : other = operation
  · subst same
    rw [if_pos rfl]
    cases result with
    | ok => simp [recordResult, CheckResult.transient, CheckResult.definitive]
    | error error =>
        cases kind : classifyVerificationError error with
        | definitive => simp [recordResult, CheckResult.transient, CheckResult.definitive, kind]
        | transient =>
            simp only [recordResult, CheckResult.transient, kind]
            split <;> simp
  · rw [if_neg same]
    cases result with
    | ok => simp [recordResult, TargetState.setFailures_other same]
    | error error =>
        cases kind : classifyVerificationError error with
        | definitive => simp [recordResult, kind]
        | transient =>
            simp only [recordResult, kind]
            split <;> simp [TargetState.setFailures_other same]

/-- A result stops the loop if it is definitive, or if it brings the counter to the limit. -/
theorem recordResult_stops (state : TargetState) (result : CheckResult)
    (operation : VerificationOperation) (limit : UInt32) :
    (recordResult state result operation limit).1.isSome = true ↔
      result.definitive ∨ result.transient ∧
        limit.toNat ≤ min (state.failures operation + 1) maxFailures := by
  cases result with
  | ok => simp [recordResult, CheckResult.transient, CheckResult.definitive]
  | error error =>
      cases kind : classifyVerificationError error with
      | definitive => simp [recordResult, CheckResult.transient, CheckResult.definitive, kind]
      | transient =>
          simp only [recordResult, CheckResult.transient, CheckResult.definitive, kind]
          split <;> simp_all

/-- The counter of an operation is the length of the streak its own results end with. -/
theorem recordAll_failures (limit : UInt32) (config : AzureVerifyConfig)
    (operation : VerificationOperation) (results : List (VerificationOperation × CheckResult))
    (going : ∀ result ∈ resultsOf operation results, result.definitive = false) :
    (recordAll limit (.new config) results).failures operation =
      min (transientStreak (resultsOf operation results)) maxFailures := by
  induction results using List.reverseRecOn with
  | nil => simp [recordAll, resultsOf, transientStreak]
  | append_singleton results entry ih =>
      rw [resultsOf_concat] at going ⊢
      rw [recordAll_concat, recordResult_failures]
      by_cases same : operation = entry.1
      · subst same
        simp only [if_true, List.mem_append, List.mem_singleton] at going ⊢
        rw [ih fun result mem => going result (.inl mem), transientStreak_concat,
          going entry.2 (.inr rfl)]
        split
        · omega
        · simp
      · rw [if_neg (Ne.symm same)] at going ⊢
        rw [if_neg same]
        exact ih going

/-- A target stops at a definitive result, or at the end of a streak as long as
the limit. -/
theorem stops_iff_of_history {limit : UInt32} {config : AzureVerifyConfig}
    {operation : VerificationOperation} {results : List (VerificationOperation × CheckResult)}
    {result : CheckResult}
    (going : ∀ earlier ∈ resultsOf operation results, earlier.definitive = false) :
    (recordResult (recordAll limit (.new config) results) result operation limit).1.isSome = true ↔
      result.definitive ∨ result.transient ∧
        limit.toNat ≤ transientStreak (resultsOf operation results ++ [result]) := by
  rw [recordResult_stops, recordAll_failures limit config operation results going,
    transientStreak_concat]
  have small : limit.toNat ≤ maxFailures := by
    have := limit.toNat_lt
    unfold maxFailures
    omega
  cases kind : result.transient with
  | false => simp
  | true =>
      have step : limit.toNat ≤ min
          (min (transientStreak (resultsOf operation results)) maxFailures + 1) maxFailures ↔
          limit.toNat ≤ transientStreak (resultsOf operation results) + 1 := by
        omega
      simp [step]

/-- The first reason to stop that a sequence of results gives. -/
def firstReason (transientFailureLimit : UInt32) :
    TargetState → List (VerificationOperation × CheckResult) → Option String
  | _, [] => none
  | state, (operation, result) :: rest =>
      match recordResult state result operation transientFailureLimit with
      | (some reason, _) => some reason
      | (none, state) => firstReason transientFailureLimit state rest

/-- The first reason stays, or is the last result's. -/
theorem firstReason_concat (limit : UInt32) (state : TargetState)
    (results : List (VerificationOperation × CheckResult))
    (entry : VerificationOperation × CheckResult) :
    firstReason limit state (results ++ [entry]) =
      (firstReason limit state results).or
        (recordResult (recordAll limit state results) entry.2 entry.1 limit).1 := by
  induction results generalizing state with
  | nil =>
      simp only [List.nil_append, firstReason, recordAll, List.foldl_nil, Option.none_or]
      split <;> simp_all
  | cons first rest ih =>
      obtain ⟨operation, result⟩ := first
      simp only [List.cons_append, firstReason, recordAll, List.foldl_cons]
      cases recorded : recordResult state result operation limit with
      | mk reason next =>
          cases reason with
          | some reason => rfl
          | none => exact ih next

/-- A result that is a reason to stop, after what its operation found before: it is definitive, or it
ends a streak of transient failures that is as long as the limit. -/
def IsReason (limit : UInt32) (earlier : List CheckResult) (result : CheckResult) : Prop :=
  result.definitive = true ∨
    result.transient = true ∧ limit.toNat ≤ transientStreak (earlier ++ [result])

/-- Two operations report into one state, in any order. There is a reason to stop exactly if the
results of one operation, by themselves, give one. -/
theorem operations_stop_apart (limit : UInt32) (config : AzureVerifyConfig)
    (results : List (VerificationOperation × CheckResult)) :
    (firstReason limit (.new config) results).isSome = true ↔
      ∃ operation earlier result, earlier ++ [result] <+: resultsOf operation results ∧
        IsReason limit earlier result := by
  induction results using List.reverseRecOn with
  | nil =>
      constructor
      · exact nofun
      · rintro ⟨operation, earlier, result, within, -⟩
        have nothing := List.prefix_nil.mp within
        simp at nothing
  | append_singleton results entry ih =>
      rw [firstReason_concat, Option.isSome_or, Bool.or_eq_true, ih]
      constructor
      · rintro (⟨operation, earlier, result, within, reason⟩ | stops)
        · refine ⟨operation, earlier, result, within.trans ?_, reason⟩
          rw [resultsOf_concat]
          split
          · exact List.prefix_append _ _
          · exact List.prefix_rfl
        · by_cases going : ∀ earlier ∈ resultsOf entry.1 results, earlier.definitive = false
          · refine ⟨entry.1, resultsOf entry.1 results, entry.2, ?_,
              (stops_iff_of_history going).mp stops⟩
            rewrite [resultsOf_concat, if_pos rfl]
            exact List.prefix_rfl
          · -- A definitive result among the earlier ones was a reason by itself.
            simp only [not_forall, Bool.not_eq_false] at going
            obtain ⟨result, mem, definitive⟩ := going
            obtain ⟨before, after, cut⟩ := List.append_of_mem mem
            refine ⟨entry.1, before, result, ?_, .inl definitive⟩
            rw [resultsOf_concat, if_pos rfl, cut]
            exact ⟨after ++ [entry.2], by simp⟩
      · rintro ⟨operation, earlier, result, within, reason⟩
        rw [resultsOf_concat] at within
        by_cases same : entry.1 = operation
        · subst same
          rw [if_pos rfl, List.prefix_concat_iff] at within
          rcases within with last | before
          · by_cases going : ∀ earlier ∈ resultsOf entry.1 results, earlier.definitive = false
            · right
              obtain ⟨rfl, one⟩ := List.append_inj' last rfl
              cases one
              exact (stops_iff_of_history going).mpr reason
            · left
              simp only [not_forall, Bool.not_eq_false] at going
              obtain ⟨result', mem, definitive⟩ := going
              obtain ⟨before, after, cut⟩ := List.append_of_mem mem
              exact ⟨entry.1, before, result', ⟨after, by rw [cut]; simp⟩, .inl definitive⟩
          · exact .inl ⟨entry.1, earlier, result, before, reason⟩
        · rw [if_neg same] at within
          exact .inl ⟨operation, earlier, result, within, reason⟩

/-! ### The loops -/

/-- `PeriodicAzureVerifySettings`. -/
structure PeriodicAzureVerifySettings where
  interval : Duration
  deploymentInterval : Duration
  transientFailureLimit : UInt32
  deriving DecidableEq, Repr

/-- `DEPLOYMENT_STALE_INTERVALS`. -/
def deploymentStaleIntervals : Nat := 2

/-- How long a binding counts as fresh after its check: the loop's `cycle_timeout`, and the window
of `AzureBindingReadiness`. -/
def PeriodicAzureVerifySettings.cycleTimeout (settings : PeriodicAzureVerifySettings) : Duration :=
  settings.deploymentInterval * deploymentStaleIntervals

/-- What the timers of the runtime leave open: the instant an interval's next tick is due, from when
the last one was due and when it was taken (`MissedTickBehavior::Delay`), and whether a future that
is ready at the very deadline still counts. -/
structure Timers where
  nextTick : (due taken : Instant) → Instant
  readyAtDeadline : Bool

/-- Ticks are at least a period apart. -/
structure Timers.Lawful (timers : Timers) (period : Duration) : Prop where
  apart : ∀ due taken, due ≤ taken → due + period ≤ timers.nextTick due taken

/-- `timeout_at`: whether a future that is ready at an instant is ready in time. -/
def Timers.inTime (timers : Timers) (deadline ready : Instant) : Bool :=
  ready < deadline || (ready = deadline && timers.readyAtDeadline)

theorem Timers.le_of_inTime {timers : Timers} {deadline ready : Instant}
    (inTime : timers.inTime deadline ready = true) : ready ≤ deadline := by
  simp only [Timers.inTime, Bool.or_eq_true, Bool.and_eq_true, decide_eq_true_eq] at inTime
  rcases inTime with before | ⟨same, -⟩
  · exact before.le
  · exact same.le

/-- One answer of the other side: what is found, and after how long. -/
structure Check where
  result : CheckResult
  duration : Duration

def staleFailureMessage : String :=
  "deployment binding verification became stale after " ++ toString deploymentStaleIntervals ++
    " deployment intervals without a successful verification"

def staleFailure : AnyError := .msg staleFailureMessage

def cycleTimeoutFailure : AnyError :=
  .msg ("deployment binding verification exceeded its " ++ toString deploymentStaleIntervals ++
    "-interval cycle timeout")

/-- The state of `run_deployment_binding_loop` before a turn, with the value its watch shows. -/
structure BindingLoop where
  target : TargetState
  due : Instant
  staleDeadline : Instant
  bindingVerifiedAt : Instant

/-- The reason that is sent, and the value the watch keeps. -/
structure BindingEnd where
  reason : String
  bindingVerifiedAt : Instant

/-- The state of `run_capture_audit_loop` before a turn. -/
structure CaptureLoop where
  target : TargetState
  due : Instant

section Loops

variable (timers : Timers) (settings : PeriodicAzureVerifySettings)

namespace BindingLoop

/-- The loop of an account that was verified at some instant. -/
def new (config : AzureVerifyConfig) (verifiedAt : Instant) : BindingLoop where
  target := .new config
  due := verifiedAt + settings.deploymentInterval
  staleDeadline := verifiedAt + settings.cycleTimeout
  bindingVerifiedAt := verifiedAt

/-- The wait for the next tick, unless the deadline comes first. -/
def wait (since : Instant) (loop : BindingLoop) : Option Instant :=
  if loop.staleDeadline ≤ since then none
  else if timers.inTime loop.staleDeadline (max since loop.due) then some (max since loop.due)
  else none

/-- The check under its two timeouts: when it is over, and with what. -/
def poll (loop : BindingLoop) (started : Instant) (check : Check) : Instant × CheckResult :=
  let cycleDeadline := started + settings.cycleTimeout
  let inTime := timers.inTime cycleDeadline (started + check.duration)
  let ready := if inTime then started + check.duration else cycleDeadline
  if timers.inTime loop.staleDeadline ready then
    if inTime then (ready, check.result)
    else if loop.staleDeadline ≤ ready then (ready, .error staleFailure)
    else (ready, .error cycleTimeoutFailure)
  else (max started loop.staleDeadline, .error staleFailure)

/-- What a turn finds, if it gets to a check. -/
def verdict (since : Instant) (loop : BindingLoop) (check : Check) : Option (Instant × CheckResult) :=
  (loop.wait timers since).map fun started => loop.poll timers settings started check

/-- One turn of the loop. -/
def turn (since : Instant) (loop : BindingLoop) (check : Check) : Stage BindingLoop BindingEnd :=
  match loop.wait timers since with
  | none => .ended (max since loop.staleDeadline) ⟨staleFailureMessage, loop.bindingVerifiedAt⟩
  | some started =>
      let (finished, result) := loop.poll timers settings started check
      match recordResult loop.target result .deploymentBinding settings.transientFailureLimit with
      | (some reason, _) => .ended finished ⟨reason, loop.bindingVerifiedAt⟩
      | (none, target) =>
          let due := timers.nextTick loop.due started
          match result with
          | .ok () => .running finished {
              target
              due
              staleDeadline := finished + settings.cycleTimeout
              bindingVerifiedAt := finished }
          | .error _ => .running finished { loop with target, due }

end BindingLoop

namespace CaptureLoop

/-- The boot audited everything, so the first tick is passed over. -/
def new (config : AzureVerifyConfig) (start : Instant) : CaptureLoop where
  target := .new config
  due := timers.nextTick start start

/-- One turn of the loop. -/
def turn (since : Instant) (loop : CaptureLoop) (audit : Check) : Stage CaptureLoop String :=
  let started := max since loop.due
  let finished := started + audit.duration
  match recordResult loop.target audit.result .captureAudit settings.transientFailureLimit with
  | (some reason, _) => .ended finished reason
  | (none, target) => .running finished { target, due := timers.nextTick loop.due started }

end CaptureLoop

end Loops

end GmMiner.Azure
