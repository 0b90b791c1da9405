import Mathlib.Algebra.Field.Rat
import Mathlib.Tactic.FieldSimp
import Mathlib.Tactic.Ring

/-!
Decimal texts: unsigned integers read and written, padded with zeros in front, and fractions with the
zeros at their end dropped.

`value` is the number that `whole.fraction` writes. Zeros at the end of a fraction do not change it
(`value_append_zeros`), so what `trimZeros` drops is none of its digits.
-/

namespace GmMiner.Lib.Decimal

/-- The integer some digits write. -/
def ofDigits (digits : List Char) : Nat := Nat.ofDigitChars 10 digits 0

def allDigits (text : List Char) : Bool := text.all Char.isDigit

/-- The number that `whole.fraction` writes. -/
def value (whole fraction : List Char) : ℚ :=
  ofDigits whole + ofDigits fraction / 10 ^ fraction.length

/-- An unsigned integer of so many bits, as `str::parse` reads it. -/
def parseUnsigned (bits : Nat) (text : List Char) : Option Nat :=
  let digits :=
    match text with
    | '+' :: rest => rest
    | _ => text
  if digits ≠ [] ∧ allDigits digits = true ∧ ofDigits digits < 2 ^ bits then some (ofDigits digits)
  else none

/-- `{:0width}`. -/
def padded (width n : Nat) : List Char :=
  List.replicate (width - (Nat.toDigits 10 n).length) '0' ++ Nat.toDigits 10 n

/-- Pop zeros from the end of a reversed text that is longer than `least`. -/
def popZeros (least : Nat) : List Char → List Char
  | [] => []
  | c :: rest => if least < rest.length + 1 ∧ c = '0' then popZeros least rest else c :: rest

/-- A fraction without the zeros at its end, of at least so many digits. -/
def trimZeros (least : Nat) (fraction : List Char) : List Char :=
  (popZeros least fraction.reverse).reverse

/-! ### Integers -/

@[simp] theorem ofDigits_toDigits (n : Nat) : ofDigits (Nat.toDigits 10 n) = n :=
  Nat.ofDigitChars_ten_toDigits

/-- A number is written in digits alone. -/
theorem isDigit_of_mem_toDigits {n : Nat} : ∀ c ∈ Nat.toDigits 10 n, c.isDigit = true := by
  intro c mem
  exact Nat.isDigit_of_mem_toDigits (by decide) (by decide) mem

theorem allDigits_toDigits (n : Nat) : allDigits (Nat.toDigits 10 n) = true :=
  List.all_eq_true.mpr fun _ mem => isDigit_of_mem_toDigits _ mem

/-- Two numbers written alike are the same. -/
theorem toDigits_injective {n m : Nat} (same : Nat.toDigits 10 n = Nat.toDigits 10 m) : n = m := by
  rw [← ofDigits_toDigits n, same, ofDigits_toDigits]

/-- The digits before others count for as many powers of ten. -/
theorem ofDigits_append (first second : List Char) :
    ofDigits (first ++ second) = 10 ^ second.length * ofDigits first + ofDigits second := by
  unfold ofDigits
  rw [Nat.ofDigitChars_append, Nat.ofDigitChars_eq_ofDigitChars_zero]

theorem ofDigits_zeros (k : Nat) : ofDigits (List.replicate k '0') = 0 := by
  simp [ofDigits]

/-- A text of digits reads below the power of ten of its length. -/
theorem ofDigits_lt {digits : List Char} (all : allDigits digits = true) :
    ofDigits digits < 10 ^ digits.length := by
  induction digits with
  | nil => decide
  | cons c rest ih =>
      rw [allDigits, List.all_cons, Bool.and_eq_true] at all
      obtain ⟨digit, ofRest⟩ := all
      simp only [Char.isDigit, Bool.and_eq_true, decide_eq_true_eq, UInt32.le_iff_toNat_le] at digit
      have first : ofDigits [c] ≤ 9 := by
        have small : c.toNat ≤ 57 := digit.2
        simp only [ofDigits, Nat.ofDigitChars_cons, Nat.ofDigitChars_nil]
        change 10 * 0 + (c.toNat - 48) ≤ 9
        omega
      have later := ih ofRest
      calc ofDigits (c :: rest) = 10 ^ rest.length * ofDigits [c] + ofDigits rest :=
            ofDigits_append [c] rest
        _ < 10 ^ rest.length * ofDigits [c] + 10 ^ rest.length := by omega
        _ = 10 ^ rest.length * (ofDigits [c] + 1) := (Nat.mul_succ _ _).symm
        _ ≤ 10 ^ rest.length * 10 := Nat.mul_le_mul_left _ (by omega)
        _ = 10 ^ (c :: rest).length := (Nat.pow_succ ..).symm

/-- Of digits alone only those are refused that are too large. -/
theorem parseUnsigned_of_digits {bits : Nat} {digits : List Char} (some_ : digits ≠ [])
    (all : allDigits digits = true) :
    parseUnsigned bits digits = if ofDigits digits < 2 ^ bits then some (ofDigits digits) else none := by
  unfold parseUnsigned
  split
  · rename_i rest
    cases (List.all_eq_true.mp all '+' List.mem_cons_self)
  · simp [some_, all]

/-- A number that fits is read back from its digits. -/
theorem parseUnsigned_toDigits {bits n : Nat} (fits : n < 2 ^ bits) :
    parseUnsigned bits (Nat.toDigits 10 n) = some n := by
  rw [parseUnsigned_of_digits Nat.toDigits_ne_nil (allDigits_toDigits n), ofDigits_toDigits,
    if_pos fits]

@[simp] theorem ofDigits_padded (width n : Nat) : ofDigits (padded width n) = n := by
  unfold padded
  rw [ofDigits_append, ofDigits_zeros, Nat.mul_zero, Nat.zero_add, ofDigits_toDigits]

/-- A number that fits its width is padded to exactly that. -/
theorem length_padded {width n : Nat} (positive : 0 < width) (fits : n < 10 ^ width) :
    (padded width n).length = width := by
  have bound := (Nat.length_toDigits_le_iff (b := 10) (by decide) positive).mpr fits
  unfold padded
  rw [List.length_append, List.length_replicate]
  omega

/-- Padding adds digits only. -/
theorem allDigits_padded (width n : Nat) : allDigits (padded width n) = true := by
  have zeros : (List.replicate (width - (Nat.toDigits 10 n).length) '0').all Char.isDigit = true := by
    rw [List.all_replicate]
    split <;> rfl
  unfold padded allDigits
  rw [List.all_append, zeros]
  exact allDigits_toDigits n

/-! ### Fractions -/

/-- Zeros at the end of a fraction leave its value. -/
theorem value_append_zeros (whole fraction : List Char) (k : Nat) :
    value whole (fraction ++ List.replicate k '0') = value whole fraction := by
  unfold value
  rw [ofDigits_append, ofDigits_zeros, List.length_append, List.length_replicate, pow_add]
  push_cast
  field_simp
  ring

/-- What is popped is zeros. -/
theorem popZeros_spec (least : Nat) (reversed : List Char) :
    ∃ k, reversed = List.replicate k '0' ++ popZeros least reversed ∧
      (least ≤ reversed.length → least ≤ (popZeros least reversed).length) ∧
        (least < (popZeros least reversed).length →
          (popZeros least reversed).head? ≠ some '0') := by
  induction reversed with
  | nil => exact ⟨0, rfl, id, nofun⟩
  | cons c rest ih =>
      unfold popZeros
      split
      · rename_i popped
        obtain ⟨k, shape, long, last⟩ := ih
        refine ⟨k + 1, ?_, fun _ => long (by omega), last⟩
        rw [List.replicate_succ, List.cons_append, ← shape, popped.2]
      · rename_i kept
        refine ⟨0, rfl, id, fun longer => ?_⟩
        intro isZero
        exact kept ⟨longer, Option.some.inj isZero⟩

/-- What is trimmed is zeros, and no zero is left at the end of a longer fraction. -/
theorem trimZeros_spec (least : Nat) (fraction : List Char) :
    ∃ k, fraction = trimZeros least fraction ++ List.replicate k '0' ∧
      (least ≤ fraction.length → least ≤ (trimZeros least fraction).length) ∧
        (least < (trimZeros least fraction).length →
          (trimZeros least fraction).getLast? ≠ some '0') := by
  obtain ⟨k, shape, long, last⟩ := popZeros_spec least fraction.reverse
  rw [List.length_reverse] at long
  unfold trimZeros
  rw [List.length_reverse, List.getLast?_reverse]
  refine ⟨k, ?_, long, last⟩
  calc fraction = fraction.reverse.reverse := (List.reverse_reverse _).symm
    _ = (List.replicate k '0' ++ popZeros least fraction.reverse).reverse := by rw [← shape]
    _ = (popZeros least fraction.reverse).reverse ++ List.replicate k '0' := by simp

end GmMiner.Lib.Decimal
