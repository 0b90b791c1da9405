import Mathlib.Data.List.TakeWhile

/-!
A sliding-window meter: a queue of the instants at which something was granted,
oldest first. Entries whose window has passed are dropped from the front, and a
grant is allowed while the queue is shorter than the limit. `Metered` relates
the queue to everything ever granted, and its `within` field is the guarantee
the meter exists for: no window holds more grants than the limit.
-/

namespace GmMiner.Lib

/-- A set of instants of which no two are a whole window apart. -/
def Narrow (window : Nat) (member : Nat → Bool) : Prop :=
  ∀ a b, member a = true → member b = true → b < a + window

/-- The half-open interval that includes its start is narrow. -/
theorem narrow_closedOpen (window start : Nat) :
    Narrow window fun at_ => decide (start ≤ at_) && decide (at_ < start + window) := by
  intro a b ha hb
  simp only [Bool.and_eq_true, decide_eq_true_eq] at ha hb
  omega

/-- The half-open interval that includes its end is narrow. -/
theorem narrow_openClosed (window start : Nat) :
    Narrow window fun at_ => decide (start < at_) && decide (at_ ≤ start + window) := by
  intro a b ha hb
  simp only [Bool.and_eq_true, decide_eq_true_eq] at ha hb
  omega

/-- Drop the entries at the front whose window has passed. -/
def dropPassed (window now : Nat) (queue : List Nat) : List Nat :=
  queue.dropWhile fun at_ => decide (at_ + window ≤ now)

@[simp] theorem dropPassed_nil (window now : Nat) : dropPassed window now [] = [] := rfl

/-- `queue` meters `granted`: what left the queue has had its whole window by
`clock`, and no narrow set of instants holds more grants than `limit`. -/
structure Metered (limit window : Nat) (granted queue : List Nat) (clock : Nat) : Prop where
  passed : ∃ old, granted = old ++ queue ∧ ∀ at_ ∈ old, at_ + window ≤ clock
  within : ∀ member, Narrow window member → (granted.filter member).length ≤ limit

namespace Metered

variable {limit window clock : Nat} {granted queue : List Nat}

/-- An empty queue meters no grants. -/
theorem start (limit window clock : Nat) : Metered limit window [] [] clock where
  passed := ⟨[], rfl, by simp⟩
  within := by simp

/-- The clock alone changes nothing. -/
theorem tick (meter : Metered limit window granted queue clock) {now : Nat} (later : clock ≤ now) :
    Metered limit window granted queue now where
  passed := by
    obtain ⟨old, split, passed⟩ := meter.passed
    exact ⟨old, split, fun at_ mem => le_trans (passed at_ mem) later⟩
  within := meter.within

/-- Dropping the passed instants leaves the meter right. -/
theorem prune (meter : Metered limit window granted queue clock) {now : Nat} (later : clock ≤ now) :
    Metered limit window granted (dropPassed window now queue) now where
  passed := by
    obtain ⟨old, split, passed⟩ := meter.passed
    refine ⟨old ++ queue.takeWhile fun at_ => decide (at_ + window ≤ now), ?_, fun at_ mem => ?_⟩
    · rw [split, List.append_assoc, dropPassed, List.takeWhile_append_dropWhile]
    · rcases List.mem_append.mp mem with before | now_gone
      · exact le_trans (passed at_ before) later
      · simpa using List.mem_takeWhile_imp now_gone
  within := meter.within

/-- A grant while the queue is short keeps every window within the limit: the
grants that share a window with it are still in the queue. -/
theorem grant (meter : Metered limit window granted queue clock) (room : queue.length < limit) :
    Metered limit window (granted ++ [clock]) (queue ++ [clock]) clock where
  passed := by
    obtain ⟨old, split, passed⟩ := meter.passed
    exact ⟨old, by rw [split, List.append_assoc], passed⟩
  within := by
    intro member narrow
    rw [List.filter_append, List.length_append]
    cases here : member clock with
    | false => simpa [here] using meter.within member narrow
    | true =>
        obtain ⟨old, split, passed⟩ := meter.passed
        have noneOld : old.filter member = [] := by
          refine List.filter_eq_nil_iff.mpr fun at_ mem inside => ?_
          have := narrow at_ clock inside here
          have := passed at_ mem
          omega
        have short : (granted.filter member).length ≤ queue.length := by
          rw [split, List.filter_append, noneOld, List.nil_append]
          exact List.length_filter_le _ _
        simp only [here, List.filter_cons_of_pos, List.filter_nil, List.length_singleton]
        omega

end Metered

end GmMiner.Lib
