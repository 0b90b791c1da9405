import GmMiner.Cli.Pricing
import GmMiner.Lib.Result
import Mathlib.Data.List.DropRight
import Mathlib.Tactic.NormNum

/-!
The argument `--discount-pct` (`parse_discount_pct` and `format_discount_pct` of
`cli/src/pricing.rs`).

A percentage is read exactly: what is accepted are digits with up to two decimals, and the basis
points are a hundred times the number they write (`Percent`). `debug` is how a text stands in a
message (`{:?}`).
-/

namespace GmMiner.Cli.Pricing

open GmMiner.Lib GmMiner.Lib.Decimal

/-- `str::len`. -/
def byteLength (text : List Char) : Nat := (text.map Char.utf8Size).sum

section Parse

variable (debug : String → String)

def invalidDiscount (text reason : String) : String :=
  "invalid --discount-pct " ++ debug text ++ ": " ++ reason

/-- The decimals, in hundredths. -/
def parseCents (text : String) : Option (List Char) → Except String Nat
  | none => .ok 0
  | some [] => .ok 0
  | some cents =>
      if 2 < byteLength cents then .error (invalidDiscount debug text "use at most 2 decimal places")
      else if allDigits cents then do
        let value ← required (parseUnsigned 32 cents)
          (invalidDiscount debug text "decimal percent is not parseable")
        return if byteLength cents = 1 then value * 10 else value
      else .error (invalidDiscount debug text "decimal percent must contain digits only")

/-- `whole.checked_mul(100)` and `checked_add`, in 32 bits. -/
def basisPoints (whole cents : Nat) : Option Nat :=
  if whole * 100 < 2 ^ 32 ∧ whole * 100 + cents < 2 ^ 32 then some (whole * 100 + cents) else none

def parseDiscountPct (text : String) : Except String Nat := do
  let parts := text.toList.splitOn '.'
  let whole := parts.headD []
  ensure parts[2]?.isNone
    (invalidDiscount debug text "use a percent in [0, 99.90] with at most one decimal point")
  ensure (!whole.isEmpty && allDigits whole)
    (invalidDiscount debug text "whole percent must be non-negative digits")
  let whole ← required (parseUnsigned 32 whole)
    (invalidDiscount debug text "whole percent is too large")
  let cents ← parseCents debug text parts[1]?
  let parsed ← required (basisPoints whole cents)
    (invalidDiscount debug text "percent is too large")
  ensure (decide (parsed ≤ maxDiscountBp))
    ("--discount-pct " ++ debug text ++ " is above the cap of 99.90%; " ++
      "the registry rejects anything above 9990 bp")
  return parsed

end Parse

def formatDiscountPct (discountBp : Nat) : String :=
  let whole := discountBp / 100
  let cents := discountBp % 100
  if cents = 0 then toString whole
  else
    let text := Nat.toDigits 10 whole ++ '.' :: padded 2 cents
    String.ofList ((text.rdropWhile (· == '0')).rdropWhile (· == '.'))

/-! ### What is accepted -/

/-- A percentage of at most two decimals, in basis points. -/
def Percent (text : List Char) (bp : Nat) : Prop :=
  ∃ whole cents, (text = whole ∧ cents = [] ∨ text = whole ++ '.' :: cents) ∧
    whole ≠ [] ∧ allDigits whole = true ∧ allDigits cents = true ∧ cents.length ≤ 2 ∧
      value whole cents ≤ 9990 / 100 ∧ (bp : ℚ) = 100 * value whole cents

/-- Digits are one byte each. -/
theorem byteLength_digits {digits : List Char} (all : allDigits digits = true) :
    byteLength digits = digits.length := by
  have one : ∀ c ∈ digits, c.utf8Size = 1 := by
    intro c mem
    have digit := List.all_eq_true.mp all c mem
    simp only [Char.isDigit, Bool.and_eq_true, decide_eq_true_eq] at digit
    refine Char.utf8Size_eq_one_iff.mpr (UInt32.le_trans digit.2 ?_)
    decide
  unfold byteLength
  rw [List.map_congr_left one]
  simp

theorem dot_not_mem_digits {digits : List Char} (all : allDigits digits = true) : '.' ∉ digits := by
  intro mem
  cases List.all_eq_true.mp all '.' mem

/-- The parts of a text with at most one dot. -/
theorem parts_inv {text : List Char} (two : (text.splitOn '.')[2]? = none) :
    (text = (text.splitOn '.').headD [] ∧ (text.splitOn '.')[1]? = none) ∨
      ∃ cents, (text.splitOn '.')[1]? = some cents ∧
        text = (text.splitOn '.').headD [] ++ '.' :: cents := by
  have joined : ['.'].intercalate (text.splitOn '.') = text := List.intercalate_splitOn '.'
  cases parts : text.splitOn '.' with
  | nil => exact absurd parts (List.splitOn_ne_nil _ _)
  | cons whole rest =>
      rw [parts] at joined two
      cases rest with
      | nil => exact .inl ⟨by simpa using joined.symm, rfl⟩
      | cons cents rest =>
          cases rest with
          | nil => exact .inr ⟨cents, rfl, by simpa using joined.symm⟩
          | cons third rest => cases two

theorem parts_of_digits {whole cents : List Char} (ofWhole : allDigits whole = true)
    (ofCents : allDigits cents = true) :
    whole.splitOn '.' = [whole] ∧ (whole ++ '.' :: cents).splitOn '.' = [whole, cents] := by
  refine ⟨List.splitOn_eq_singleton (dot_not_mem_digits ofWhole), ?_⟩
  rw [List.splitOn_append_cons_self_of_not_mem (dot_not_mem_digits ofWhole),
    List.splitOn_eq_singleton (dot_not_mem_digits ofCents)]

variable {debug : String → String}

/-- The cents are at most two digits, the first one of tens. -/
theorem parseCents_eq_ok {text : String} {part : Option (List Char)} {hundredths : Nat} :
    parseCents debug text part = .ok hundredths ↔
      allDigits (part.getD []) = true ∧ (part.getD []).length ≤ 2 ∧
        hundredths = ofDigits (part.getD []) * 10 ^ (2 - (part.getD []).length) := by
  unfold parseCents
  split
  · simp [allDigits, ofDigits, eq_comm]
  · simp [allDigits, ofDigits, eq_comm]
  · rename_i cents notEmpty
    rw [Option.getD_some]
    by_cases all : allDigits cents = true
    · have size := byteLength_digits all
      have small := ofDigits_lt all
      have positive : 0 < cents.length := List.length_pos_iff.mpr notEmpty
      rw [size]
      by_cases short : cents.length ≤ 2
      · have fits : ofDigits cents < 2 ^ 32 := by
          have le : 10 ^ cents.length ≤ 10 ^ 2 := Nat.pow_le_pow_right (by decide) short
          omega
        rw [if_neg (by omega), if_pos all, parseUnsigned_of_digits notEmpty all, if_pos fits]
        simp only [bind_eq_ok, required_eq_ok, Option.some.injEq, exists_eq_left', all, short,
          true_and]
        obtain one | two : cents.length = 1 ∨ cents.length = 2 := by omega
        · simp [one, pure, Except.pure, eq_comm]
        · simp [two, pure, Except.pure, eq_comm]
      · rw [if_pos (by omega)]
        simp [short]
    · refine iff_of_false ?_ fun accepted => all accepted.1
      split
      · intro refused
        cases refused
      · intro refused
        cases refused

/-- The decimal value in hundredths. -/
theorem value_of_cents {whole cents : List Char} (short : cents.length ≤ 2) :
    100 * value whole cents =
      (ofDigits whole * 100 + ofDigits cents * 10 ^ (2 - cents.length) : Nat) := by
  have hundred : (10 : ℚ) ^ (2 - cents.length) * 10 ^ cents.length = 100 := by
    rw [← pow_add, Nat.sub_add_cancel short]
    norm_num
  have nonzero : (10 : ℚ) ^ cents.length ≠ 0 := by positivity
  have cleared : 100 * ((ofDigits cents : ℚ) / 10 ^ cents.length) =
      ofDigits cents * 10 ^ (2 - cents.length) := by
    rw [← hundred]
    field_simp
  unfold value
  rw [mul_add, cleared]
  push_cast
  ring

/-- The basis points are the sum if it is within the cap. -/
theorem basisPoints_eq_some {whole cents parsed : Nat} (cap : parsed ≤ maxDiscountBp) :
    basisPoints whole cents = some parsed ↔ whole * 100 + cents = parsed := by
  have small : maxDiscountBp = 9990 := rfl
  unfold basisPoints
  split
  · exact Option.some_inj
  · rename_i wide
    refine iff_of_false nofun fun same => wide ?_
    omega

/-- The value is below the cap just if its basis points are. -/
theorem percent_cap_iff {whole cents : List Char} {bp : Nat}
    (exact_ : (bp : ℚ) = 100 * value whole cents) :
    value whole cents ≤ 9990 / 100 ↔ bp ≤ maxDiscountBp := by
  have small : maxDiscountBp = 9990 := rfl
  rw [small, le_div_iff₀ (by norm_num), mul_comm, ← exact_]
  exact_mod_cast Iff.rfl

/-- What is accepted is a percentage, and is read exactly. -/
theorem parseDiscountPct_eq_ok {text : String} {bp : Nat} :
    parseDiscountPct debug text = .ok bp ↔ Percent text.toList bp := by
  unfold parseDiscountPct
  simp only [bind_eq_ok, required_eq_ok, ensure_eq_ok, parseCents_eq_ok, Option.isNone_iff_eq_none,
    Bool.and_eq_true, Bool.not_eq_true', decide_eq_true_eq]
  constructor
  · rintro ⟨-, two, -, ⟨notEmpty, ofWhole⟩, whole, read, hundredths, ⟨ofCents, short, rfl⟩, parsed,
      sum, -, cap, returned⟩
    cases returned
    -- Accepted: the whole part and the cents are digits, and the cap is on their sum.
    have some_ : (text.toList.splitOn '.').headD [] ≠ [] := by simpa using notEmpty
    rw [parseUnsigned_of_digits some_ ofWhole] at read
    split at read
    · cases read
      have exact_ : 100 * value ((text.toList.splitOn '.').headD []) _ = _ := value_of_cents short
      rw [(basisPoints_eq_some cap).mp sum] at exact_
      refine ⟨_, _, ?_, some_, ofWhole, ofCents, short, (percent_cap_iff exact_.symm).mpr cap,
        exact_.symm⟩
      rcases parts_inv two with ⟨whole, alone⟩ | ⟨cents, here, whole⟩
      · exact .inl ⟨whole, by rw [alone]; rfl⟩
      · exact .inr (by rw [here]; exact whole)
    · cases read
  · rintro ⟨whole, cents, shape, notEmpty, ofWhole, ofCents, short, cap, exact_⟩
    -- Written so: within the cap the whole part is small, so reading it cannot overflow.
    have capped := (percent_cap_iff exact_).mp cap
    have sum : ofDigits whole * 100 + ofDigits cents * 10 ^ (2 - cents.length) = bp := by
      rw [value_of_cents short] at exact_
      exact_mod_cast exact_.symm
    have small : maxDiscountBp = 9990 := rfl
    have fits : ofDigits whole < 2 ^ 32 := by omega
    have read : parseUnsigned 32 whole = some (ofDigits whole) := by
      rw [parseUnsigned_of_digits notEmpty ofWhole, if_pos fits]
    have parts : (text.toList.splitOn '.').headD [] = whole ∧
        (text.toList.splitOn '.')[2]? = none ∧
          ((text.toList.splitOn '.')[1]?).getD [] = cents := by
      obtain ⟨one, two⟩ := parts_of_digits ofWhole ofCents
      rcases shape with ⟨same, rfl⟩ | same
      · rw [same, one]
        exact ⟨rfl, rfl, rfl⟩
      · rw [same, two]
        exact ⟨rfl, rfl, rfl⟩
    rw [parts.1, parts.2.1, parts.2.2]
    exact ⟨⟨⟩, rfl, ⟨⟩, ⟨by simpa using notEmpty, ofWhole⟩, _, read, _, ⟨ofCents, short, rfl⟩, bp,
      (basisPoints_eq_some capped).mpr sum, ⟨⟩, capped, rfl⟩

/-! ### Written and read again -/

theorem rdropWhile_of_last {text : List Char} {last dropped : Char} (apart : last ≠ dropped) :
    (text ++ [last]).rdropWhile (· == dropped) = text ++ [last] :=
  List.rdropWhile_concat_neg _ _ _ (by simpa using apart)

/-- Two decimals that are not both zero end, without a zero, in one of them. -/
theorem trimmed_cents (whole : List Char) {tens ones : Char}
    (digits : allDigits [tens, ones] = true) (some_ : ofDigits [tens, ones] ≠ 0) :
    ∃ cents, cents.length ≤ 2 ∧ allDigits cents = true ∧
      ofDigits cents * 10 ^ (2 - cents.length) = ofDigits [tens, ones] ∧
        ((whole ++ '.' :: [tens, ones]).rdropWhile (· == '0')).rdropWhile (· == '.') =
          whole ++ '.' :: cents := by
  have ofTens : allDigits [tens] = true := by
    simp only [allDigits, List.all_cons, Bool.and_eq_true] at digits ⊢
    exact ⟨digits.1, rfl⟩
  have notDot : tens ≠ '.' ∧ ones ≠ '.' := by
    have apart := dot_not_mem_digits digits
    simp only [List.mem_cons, not_or] at apart
    exact ⟨Ne.symm apart.1, Ne.symm apart.2.1⟩
  by_cases zero : ones = '0'
  · subst zero
    have value : ofDigits [tens, '0'] = 10 * ofDigits [tens] := ofDigits_append [tens] ['0']
    have tensSome : tens ≠ '0' := by
      rintro rfl
      exact some_ (by decide)
    have shape : whole ++ '.' :: [tens, '0'] = ((whole ++ ['.']) ++ [tens]) ++ ['0'] := by simp
    refine ⟨[tens], Nat.le_succ 1, ofTens, ?_, ?_⟩
    · rw [value, Nat.mul_comm]
      rfl
    · rw [shape, List.rdropWhile_concat_pos _ _ _ (by simp), rdropWhile_of_last tensSome,
        rdropWhile_of_last notDot.1, List.append_assoc]
      rfl
  · have shape : whole ++ '.' :: [tens, ones] = (whole ++ ['.', tens]) ++ [ones] := by simp
    refine ⟨[tens, ones], Nat.le_refl 2, digits, Nat.mul_one _, ?_⟩
    rw [shape, rdropWhile_of_last zero, rdropWhile_of_last notDot.2]

/-- What is written has no zero at its end. -/
theorem formatDiscountPct_toList (bp : Nat) :
    ∃ cents, cents.length ≤ 2 ∧ allDigits cents = true ∧
      ofDigits cents * 10 ^ (2 - cents.length) = bp % 100 ∧
        ((formatDiscountPct bp).toList = Nat.toDigits 10 (bp / 100) ∧ cents = [] ∨
          (formatDiscountPct bp).toList = Nat.toDigits 10 (bp / 100) ++ '.' :: cents) := by
  unfold formatDiscountPct
  by_cases none : bp % 100 = 0
  · refine ⟨[], by decide, rfl, by rw [none]; rfl, .inl ⟨?_, rfl⟩⟩
    simp only [none, if_true, Nat.toString_eq_repr, Nat.toList_repr]
  · have two : (padded 2 (bp % 100)).length = 2 :=
      length_padded (by decide) (Nat.mod_lt _ (by decide))
    have digits := allDigits_padded 2 (bp % 100)
    have held := ofDigits_padded 2 (bp % 100)
    obtain ⟨tens, ones, shape⟩ := List.length_eq_two.mp two
    rw [shape] at digits held
    obtain ⟨cents, short, ofCents, hundredths, trimmed⟩ :=
      trimmed_cents (Nat.toDigits 10 (bp / 100)) digits (held ▸ none)
    refine ⟨cents, short, ofCents, hundredths.trans held, .inr ?_⟩
    simp only [none, if_false, shape, String.toList_ofList]
    exact trimmed

theorem parse_formatDiscountPct {bp : Nat} (cap : bp ≤ maxDiscountBp) :
    parseDiscountPct debug (formatDiscountPct bp) = .ok bp := by
  obtain ⟨cents, short, ofCents, hundredths, shape⟩ := formatDiscountPct_toList bp
  have exact_ : (bp : ℚ) = 100 * value (Nat.toDigits 10 (bp / 100)) cents := by
    rw [value_of_cents short, ofDigits_toDigits, hundredths]
    exact_mod_cast (Nat.div_add_mod' bp 100).symm
  exact parseDiscountPct_eq_ok.mpr ⟨_, cents, shape, Nat.toDigits_ne_nil,
    allDigits_toDigits _, ofCents, short, (percent_cap_iff exact_).mpr cap, exact_⟩

/-- The argument is read exactly, and a percentage is read as it was written. -/
theorem discountPct_spec (debug : String → String) :
    (∀ text bp, parseDiscountPct debug text = .ok bp ↔ Percent text.toList bp) ∧
      ∀ bp ≤ maxDiscountBp, parseDiscountPct debug (formatDiscountPct bp) = .ok bp :=
  ⟨fun _ _ => parseDiscountPct_eq_ok, fun _ => parse_formatDiscountPct⟩

end GmMiner.Cli.Pricing
