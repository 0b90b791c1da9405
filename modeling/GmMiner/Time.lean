import Mathlib.Algebra.Order.Group.Nat

/-!
Clock readings and spans of time, both counted in nanoseconds.

An `Instant` is a reading of the monotonic clock, counted from an arbitrary
origin; only differences mean anything. A `Duration` is a length of time.
Natural numbers model both: a subtraction that would go below zero saturates,
as `Duration::saturating_sub` does, and `checkedSub` is `Instant::checked_sub`.
A `DateTime` is a wall time, counted from the Unix epoch, and may go back.
-/

namespace GmMiner

abbrev Duration := Nat
abbrev Instant := Nat
/-- `DateTime<Utc>`. -/
abbrev DateTime := Int

namespace Duration

/-- `Duration::from_secs`. -/
def fromSecs (secs : Nat) : Duration := secs * 1000000000

theorem fromSecs_mono {a b : Nat} (h : a ≤ b) : fromSecs a ≤ fromSecs b :=
  Nat.mul_le_mul_right _ h

end Duration

/-- `Instant::checked_sub`: `none` below the clock's origin. -/
def Instant.checkedSub (at_ : Instant) (by_ : Duration) : Option Instant :=
  if by_ ≤ at_ then some (at_ - by_) else none

theorem Instant.checkedSub_getD_lt {at_ by_ now : Nat} (default : Nat) (due : default ≤ now)
    (before : now < (Instant.checkedSub at_ by_).getD default) : now + by_ < at_ := by
  unfold Instant.checkedSub at before
  split at before
  · simp only [Option.getD_some] at before
    omega
  · simp only [Option.getD_none] at before
    omega

end GmMiner
