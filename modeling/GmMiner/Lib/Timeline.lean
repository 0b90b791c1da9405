import Mathlib.Algebra.Order.Group.Nat
import Mathlib.Data.Nat.Find
import Mathlib.Order.Monotone.Basic

/-!
Loops in time. A loop takes turns: each begins at the instant the last one ended, and ends at a later
one or at the same, with a state for the next turn or with what the loop came to. Where the turns get
past every instant, the loop has exactly one stage at each.
-/

namespace GmMiner.Lib

universe u v w

/-- Where a loop stands: before a turn, since some instant, or at its end. -/
inductive Stage (σ : Type u) (ρ : Type v)
  | running (since : Nat) (state : σ)
  | ended (at_ : Nat) (result : ρ)

namespace Stage

variable {σ : Type u} {ρ : Type v} {ι : Type w}

def instant : Stage σ ρ → Nat
  | running since _ => since
  | ended at_ _ => at_

def isEnded : Stage σ ρ → Bool
  | running _ _ => false
  | ended _ _ => true

@[simp] theorem instant_running (since : Nat) (state : σ) :
    (running since state : Stage σ ρ).instant = since := rfl

@[simp] theorem instant_ended (at_ : Nat) (result : ρ) :
    (ended at_ result : Stage σ ρ).instant = at_ := rfl

/-- The stages of a loop, turn after turn; an ended loop stays as it is. -/
def run (turn : Nat → σ → ι → Stage σ ρ) (first : Stage σ ρ) (inputs : Nat → ι) : Nat → Stage σ ρ
  | 0 => first
  | n + 1 =>
      match run turn first inputs n with
      | .running since state => turn since state (inputs n)
      | .ended at_ result => .ended at_ result

section Run

variable {turn : Nat → σ → ι → Stage σ ρ} {first : Stage σ ρ} {inputs : Nat → ι}

/-- While the loop runs, the next instant takes one more turn. -/
theorem run_running {n since : Nat} {state : σ}
    (running : run turn first inputs n = .running since state) :
    run turn first inputs (n + 1) = turn since state (inputs n) := by
  rw [run, running]

/-- Once it ended, the loop stays ended. -/
theorem run_ended {n m at_ : Nat} {result : ρ}
    (ended : run turn first inputs n = .ended at_ result) (later : n ≤ m) :
    run turn first inputs m = .ended at_ result := by
  induction later with
  | refl => exact ended
  | step _ ih => rw [run, ih]

/-- What the first stage has and every turn keeps, all stages have. -/
theorem run_invariant {P : Nat → Stage σ ρ → Prop} (start : P 0 first)
    (kept : ∀ n since state, run turn first inputs n = .running since state →
      P n (.running since state) → P (n + 1) (turn since state (inputs n)))
    (stays : ∀ n at_ result, run turn first inputs n = .ended at_ result →
      P n (.ended at_ result) → P (n + 1) (.ended at_ result)) (n : Nat) :
    P n (run turn first inputs n) := by
  induction n with
  | zero => exact start
  | succ n ih =>
      cases stage : run turn first inputs n with
      | running since state =>
          rw [run_running stage]
          rw [stage] at ih
          exact kept n since state stage ih
      | ended at_ result =>
          rw [run_ended stage (Nat.le_succ n)]
          rw [stage] at ih
          exact stays n at_ result stage ih

/-- Turns that do not go back in time. -/
theorem run_monotone
    (forward : ∀ n since state, run turn first inputs n = .running since state →
      since ≤ (turn since state (inputs n)).instant) :
    Monotone fun n => (run turn first inputs n).instant := by
  apply monotone_nat_of_le_succ
  intro n
  cases stage : run turn first inputs n with
  | running since state =>
      rw [run_running stage]
      exact forward n since state stage
  | ended at_ result => rw [run_ended stage (Nat.le_succ n)]

end Run

/-- The stage of a loop at some instant. -/
def Current (stages : Nat → Stage σ ρ) (t : Nat) (stage : Stage σ ρ) : Prop :=
  ∃ n, stages n = stage ∧ stage.instant ≤ t ∧
    (stage.isEnded = true ∨ t < (stages (n + 1)).instant)

/-- A loop that is in the middle of a turn. -/
def Busy (stages : Nat → Stage σ ρ) (t : Nat) : Prop :=
  ∃ since state, Current stages t (.running since state)

def EndedBy (stages : Nat → Stage σ ρ) (t : Nat) : Prop :=
  ∃ at_ result, Current stages t (.ended at_ result)

/-- There is a stage at every instant from the first one on, if the turns that do not end get past
it. -/
theorem exists_current {stages : Nat → Stage σ ρ} {t : Nat} (start : (stages 0).instant ≤ t)
    (progress : ∃ n, (stages n).isEnded = true ∨ t < (stages n).instant) :
    ∃ stage, Current stages t stage := by
  classical
  let n := Nat.find progress
  have found : (stages n).isEnded = true ∨ t < (stages n).instant := Nat.find_spec progress
  by_cases beyond : t < (stages n).instant
  · obtain ⟨m, before⟩ : ∃ m, n = m + 1 := by
      apply Nat.exists_eq_succ_of_ne_zero
      intro zero
      rw [zero] at beyond
      exact absurd start (Nat.not_le.mpr beyond)
    rw [before] at beyond
    have notYet := Nat.find_min progress (m := m) (by omega)
    rw [not_or, Nat.not_lt] at notYet
    exact ⟨stages m, m, rfl, notYet.2, .inr beyond⟩
  · exact ⟨stages n, n, rfl, Nat.not_lt.mp beyond, .inl (found.resolve_right beyond)⟩

/-- There is one stage at an instant only. -/
theorem Current.unique {stages : Nat → Stage σ ρ} {t : Nat}
    (forward : Monotone fun n => (stages n).instant)
    (stays : ∀ n m, n ≤ m → (stages n).isEnded = true → stages m = stages n)
    {first second : Stage σ ρ} (one : Current stages t first) (other : Current stages t second) :
    first = second := by
  obtain ⟨n, rfl, began, lasts⟩ := one
  obtain ⟨m, rfl, began', lasts'⟩ := other
  -- Of two stages the earlier one is over when the later one begins, unless it ended the loop.
  have same : ∀ {n m}, n < m → (stages m).instant ≤ t →
      ((stages n).isEnded = true ∨ t < (stages (n + 1)).instant) → stages n = stages m := by
    intro n m before reached lasts
    rcases lasts with ended | later
    · exact (stays n m before.le ended).symm
    · have passed : (stages (n + 1)).instant ≤ (stages m).instant := forward before
      omega
  rcases Nat.lt_trichotomy n m with before | rfl | after
  · exact same before began' lasts
  · rfl
  · exact (same after began lasts').symm

end Stage

end GmMiner.Lib
