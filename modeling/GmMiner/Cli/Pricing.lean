import GmMiner.Cli.Config
import GmMiner.Lib.Decimal
import GmMiner.Lib.Split
import Mathlib.Data.List.ReduceOption

/-!
Discounts and prices (`cli/src/pricing.rs`), in nano-dollars and basis points.

A product's prices are a vector of dimensions of which some are absent. A discount applies to each
that is there and to nothing else (`effectiveDimensions_eq`), and the summary counts those it does
not show. Amounts are written exactly, with as many decimals as they need (`Renders`).
-/

namespace GmMiner.Cli.Pricing

open GmMiner.Lib GmMiner.Lib.Decimal

/-- `MAX_DISCOUNT_BP`. -/
def maxDiscountBp : Nat := 9990

/-! ### The discount -/

/-- `effective_per_mtok_ndollars`, in 128 bits. -/
def effectivePerMtokNdollars (retailNdollars : UInt64) (discountBp : UInt32) : UInt64 :=
  let bp := min discountBp.toNat maxDiscountBp
  let effective := retailNdollars.toNat * (10000 - bp) % 2 ^ 128 / 10000
  if effective < 2 ^ 64 then .ofNat effective else retailNdollars

structure RetailDimensions where
  inputPerMtokNdollars : UInt64
  outputPerMtokNdollars : UInt64
  cacheReadPerMtokNdollars : Option UInt64
  cacheWrite5mPerMtokNdollars : Option UInt64
  cacheWrite1hPerMtokNdollars : Option UInt64
  audioInputPerMtokNdollars : Option UInt64
  audioOutputPerMtokNdollars : Option UInt64
  imageInputPerMtokNdollars : Option UInt64
  imageOutputPerMtokNdollars : Option UInt64
  outputPerImageNdollars : Option UInt64
  outputPerVideoSecondNdollars : Option UInt64
  cacheStoragePerMtokHourNdollars : Option UInt64
  longContextThresholdTokens : Option UInt64
  longContextInputPerMtokNdollars : Option UInt64
  longContextOutputPerMtokNdollars : Option UInt64
  deriving DecidableEq, Repr

/-- A price of the vector: its label, whether it is one of the two every product has, and how it is
read and written. -/
structure PriceDimension where
  label : String
  anchor : Bool
  get : RetailDimensions → Option UInt64
  set : RetailDimensions → UInt64 → RetailDimensions

/-- `PRICE_DIMENSIONS`. -/
def priceDimensions : List PriceDimension := [
  { label := "input"
    anchor := true
    get := fun d => some d.inputPerMtokNdollars
    set := fun d v => { d with inputPerMtokNdollars := v } },
  { label := "output"
    anchor := true
    get := fun d => some d.outputPerMtokNdollars
    set := fun d v => { d with outputPerMtokNdollars := v } },
  { label := "cache read"
    anchor := false
    get := fun d => d.cacheReadPerMtokNdollars
    set := fun d v => { d with cacheReadPerMtokNdollars := some v } },
  { label := "cache write 5m"
    anchor := false
    get := fun d => d.cacheWrite5mPerMtokNdollars
    set := fun d v => { d with cacheWrite5mPerMtokNdollars := some v } },
  { label := "cache write 1h"
    anchor := false
    get := fun d => d.cacheWrite1hPerMtokNdollars
    set := fun d v => { d with cacheWrite1hPerMtokNdollars := some v } },
  { label := "audio input"
    anchor := false
    get := fun d => d.audioInputPerMtokNdollars
    set := fun d v => { d with audioInputPerMtokNdollars := some v } },
  { label := "audio output"
    anchor := false
    get := fun d => d.audioOutputPerMtokNdollars
    set := fun d v => { d with audioOutputPerMtokNdollars := some v } },
  { label := "image input"
    anchor := false
    get := fun d => d.imageInputPerMtokNdollars
    set := fun d v => { d with imageInputPerMtokNdollars := some v } },
  { label := "image output"
    anchor := false
    get := fun d => d.imageOutputPerMtokNdollars
    set := fun d v => { d with imageOutputPerMtokNdollars := some v } },
  { label := "per image"
    anchor := false
    get := fun d => d.outputPerImageNdollars
    set := fun d v => { d with outputPerImageNdollars := some v } },
  { label := "per video second"
    anchor := false
    get := fun d => d.outputPerVideoSecondNdollars
    set := fun d v => { d with outputPerVideoSecondNdollars := some v } },
  { label := "cache storage/hr"
    anchor := false
    get := fun d => d.cacheStoragePerMtokHourNdollars
    set := fun d v => { d with cacheStoragePerMtokHourNdollars := some v } },
  { label := "long-ctx input"
    anchor := false
    get := fun d => d.longContextInputPerMtokNdollars
    set := fun d v => { d with longContextInputPerMtokNdollars := some v } },
  { label := "long-ctx output"
    anchor := false
    get := fun d => d.longContextOutputPerMtokNdollars
    set := fun d v => { d with longContextOutputPerMtokNdollars := some v } }]

/-- One turn of the loop of `effective_dimensions`. -/
def discount (retail : RetailDimensions) (discountBp : UInt32) (effective : RetailDimensions)
    (dim : PriceDimension) : RetailDimensions :=
  match dim.get retail with
  | some value => dim.set effective (effectivePerMtokNdollars value discountBp)
  | none => effective

def effectiveDimensions (retail : RetailDimensions) (discountBp : UInt32) : RetailDimensions :=
  priceDimensions.foldl (discount retail discountBp) retail

/-- Every price that is there, changed alike. -/
def RetailDimensions.mapPrices (f : UInt64 → UInt64) (retail : RetailDimensions) :
    RetailDimensions where
  inputPerMtokNdollars := f retail.inputPerMtokNdollars
  outputPerMtokNdollars := f retail.outputPerMtokNdollars
  cacheReadPerMtokNdollars := retail.cacheReadPerMtokNdollars.map f
  cacheWrite5mPerMtokNdollars := retail.cacheWrite5mPerMtokNdollars.map f
  cacheWrite1hPerMtokNdollars := retail.cacheWrite1hPerMtokNdollars.map f
  audioInputPerMtokNdollars := retail.audioInputPerMtokNdollars.map f
  audioOutputPerMtokNdollars := retail.audioOutputPerMtokNdollars.map f
  imageInputPerMtokNdollars := retail.imageInputPerMtokNdollars.map f
  imageOutputPerMtokNdollars := retail.imageOutputPerMtokNdollars.map f
  outputPerImageNdollars := retail.outputPerImageNdollars.map f
  outputPerVideoSecondNdollars := retail.outputPerVideoSecondNdollars.map f
  cacheStoragePerMtokHourNdollars := retail.cacheStoragePerMtokHourNdollars.map f
  longContextThresholdTokens := retail.longContextThresholdTokens
  longContextInputPerMtokNdollars := retail.longContextInputPerMtokNdollars.map f
  longContextOutputPerMtokNdollars := retail.longContextOutputPerMtokNdollars.map f

section Discount

variable (retail : RetailDimensions) (discountBp : UInt32)

theorem product_le (price : UInt64) :
    price.toNat * (10000 - min discountBp.toNat maxDiscountBp) ≤ price.toNat * 10000 :=
  Nat.mul_le_mul_left _ (Nat.sub_le _ _)

/-- The product fits in 128 bits, and the quotient in 64. -/
theorem effective_toNat (price : UInt64) :
    price.toNat * (10000 - min discountBp.toNat maxDiscountBp) < 2 ^ 128 ∧
      (effectivePerMtokNdollars price discountBp).toNat =
        price.toNat * (10000 - min discountBp.toNat maxDiscountBp) / 10000 := by
  have small := price.toNat_lt
  have le := product_le discountBp price
  have product : price.toNat * (10000 - min discountBp.toNat maxDiscountBp) < 2 ^ 128 := by omega
  have quotient : price.toNat * (10000 - min discountBp.toNat maxDiscountBp) / 10000 < 2 ^ 64 := by
    omega
  refine ⟨product, ?_⟩
  unfold effectivePerMtokNdollars
  simp only [Nat.mod_eq_of_lt product]
  rw [if_pos quotient, UInt64.toNat_ofNat_of_lt' quotient]

theorem effective_le (price : UInt64) :
    (effectivePerMtokNdollars price discountBp).toNat ≤ price.toNat := by
  have le := product_le discountBp price
  rw [(effective_toNat discountBp price).2]
  omega

theorem effective_antitone {less more : UInt32} (le : less.toNat ≤ more.toNat) (price : UInt64) :
    (effectivePerMtokNdollars price more).toNat ≤ (effectivePerMtokNdollars price less).toNat := by
  rw [(effective_toNat more price).2, (effective_toNat less price).2]
  refine Nat.div_le_div_right (Nat.mul_le_mul_left _ ?_)
  omega

variable {retail discountBp}

theorem discount_of_priced {effective : RetailDimensions} {dim : PriceDimension} {price : UInt64}
    (priced : dim.get retail = some price) :
    discount retail discountBp effective dim =
      dim.set effective (effectivePerMtokNdollars price discountBp) := by
  unfold discount
  rw [priced]

/-- An optional price is discounted if it is there. -/
theorem discount_optional (put : RetailDimensions → Option UInt64 → RetailDimensions)
    {effective : RetailDimensions} {dim : PriceDimension}
    (sets : ∀ d v, dim.set d v = put d (some v))
    (keeps : put effective (dim.get retail) = effective) :
    discount retail discountBp effective dim =
      put effective ((dim.get retail).map fun price =>
        effectivePerMtokNdollars price discountBp) := by
  unfold discount
  cases priced : dim.get retail with
  | some price => exact sets _ _
  | none =>
      rw [priced] at keeps
      exact keeps.symm

variable (retail discountBp)

/-- A discount applies to every price that is there, and to nothing else. -/
theorem effectiveDimensions_eq :
    effectiveDimensions retail discountBp =
      retail.mapPrices fun price => effectivePerMtokNdollars price discountBp := by
  rw [effectiveDimensions, priceDimensions, List.foldl_cons, discount_of_priced rfl,
    List.foldl_cons, discount_of_priced rfl,
    List.foldl_cons, discount_optional fun d v => { d with cacheReadPerMtokNdollars := v },
    List.foldl_cons, discount_optional fun d v => { d with cacheWrite5mPerMtokNdollars := v },
    List.foldl_cons, discount_optional fun d v => { d with cacheWrite1hPerMtokNdollars := v },
    List.foldl_cons, discount_optional fun d v => { d with audioInputPerMtokNdollars := v },
    List.foldl_cons, discount_optional fun d v => { d with audioOutputPerMtokNdollars := v },
    List.foldl_cons, discount_optional fun d v => { d with imageInputPerMtokNdollars := v },
    List.foldl_cons, discount_optional fun d v => { d with imageOutputPerMtokNdollars := v },
    List.foldl_cons, discount_optional fun d v => { d with outputPerImageNdollars := v },
    List.foldl_cons, discount_optional fun d v => { d with outputPerVideoSecondNdollars := v },
    List.foldl_cons, discount_optional fun d v => { d with cacheStoragePerMtokHourNdollars := v },
    List.foldl_cons, discount_optional fun d v => { d with longContextInputPerMtokNdollars := v },
    List.foldl_cons, discount_optional fun d v => { d with longContextOutputPerMtokNdollars := v },
    List.foldl_nil]
  all_goals intros; rfl

end Discount

/-! ### Amounts -/

def formatUsd (ndollars : Nat) : String :=
  String.ofList ('$' :: (Nat.toDigits 10 (ndollars / 1000000000) ++
    '.' :: trimZeros 3 (padded 9 (ndollars % 1000000000))))

/-- `earnings::dollars`. -/
def dollars (amount : String) : Except Error String :=
  match parseUnsigned 128 amount.toList with
  | none => bail "invalid registry nano-dollar amount"
  | some amount =>
      .ok (String.ofList ('$' :: (Nat.toDigits 10 (amount / 1000000000) ++
        '.' :: trimZeros 3 (padded 9 (amount % 1000000000)))))

/-- A text is an amount in dollars, with three decimals or as many as it needs. -/
structure Renders (text : String) (ndollars : Nat) (whole fraction : List Char) : Prop where
  shape : text.toList = '$' :: (whole ++ '.' :: fraction)
  digits : allDigits whole = true ∧ allDigits fraction = true
  exact : value whole fraction = ndollars / 10 ^ 9
  least : 3 ≤ fraction.length
  most : fraction.length ≤ 9
  needed : 3 < fraction.length → fraction.getLast? ≠ some '0'

/-- The fraction that is left has the value of the remainder, and all of its digits. -/
theorem formatUsd_renders (ndollars : Nat) :
    Renders (formatUsd ndollars) ndollars (Nat.toDigits 10 (ndollars / 1000000000))
      (trimZeros 3 (padded 9 (ndollars % 1000000000))) := by
  have nine : (padded 9 (ndollars % 1000000000)).length = 9 :=
    length_padded (by decide) (Nat.mod_lt _ (by decide))
  obtain ⟨k, shape, long, last⟩ := trimZeros_spec 3 (padded 9 (ndollars % 1000000000))
  have all := allDigits_padded 9 (ndollars % 1000000000)
  have same : ((ndollars % 1000000000 : Nat) : ℚ) =
      ndollars - 1000000000 * (ndollars / 1000000000 : Nat) := by
    rw [eq_sub_iff_add_eq]
    exact_mod_cast Nat.mod_add_div ndollars 1000000000
  refine ⟨by simp [formatUsd], ⟨allDigits_toDigits _, ?_⟩, ?_, long (by omega), ?_, last⟩
  · rw [shape, allDigits, List.all_append, Bool.and_eq_true] at all
    exact all.1
  · rw [← value_append_zeros _ _ k, ← shape, value, nine, ofDigits_toDigits, ofDigits_padded, same]
    field_simp
    ring
  · have longer := congrArg List.length shape
    rw [nine, List.length_append] at longer
    omega

/-- Earnings are written alike. -/
theorem dollars_eq {ndollars : Nat} (fits : ndollars < 2 ^ 128) :
    dollars (toString ndollars) = .ok (formatUsd ndollars) := by
  unfold dollars
  rw [Nat.toString_eq_repr, Nat.toList_repr, parseUnsigned_toDigits fits]
  rfl

/-- A text is one amount's only. -/
theorem Renders.amount_eq {text : String} {one other : Nat}
    {whole fraction whole' fraction' : List Char} (first : Renders text one whole fraction)
    (second : Renders text other whole' fraction') : one = other := by
  have noDot : ∀ {digits : List Char}, allDigits digits = true → '.' ∉ digits := by
    intro digits all mem
    cases List.all_eq_true.mp all '.' mem
  have parts : some (whole, fraction) = some (whole', fraction') := by
    rw [← splitOnce_eq_some.mpr ⟨rfl, noDot first.digits.1⟩,
      ← splitOnce_eq_some.mpr ⟨rfl, noDot second.digits.1⟩]
    exact congrArg _ (List.cons.inj (first.shape.symm.trans second.shape)).2
  obtain ⟨rfl, rfl⟩ := Prod.mk.inj (Option.some.inj parts)
  have same : (one : ℚ) / 10 ^ 9 = other / 10 ^ 9 := first.exact.symm.trans second.exact
  have clear : (one : ℚ) = other := by
    field_simp at same
    exact same
  exact_mod_cast clear

/-- Both formatters write every amount exactly, and alike. -/
theorem amounts_written :
    (∀ ndollars : UInt64, ∃ whole fraction,
      Renders (formatUsd ndollars.toNat) ndollars.toNat whole fraction ∧
        dollars (toString ndollars.toNat) = .ok (formatUsd ndollars.toNat)) ∧
      (Function.Injective fun ndollars : UInt64 => formatUsd ndollars.toNat) ∧
        Function.Injective fun ndollars : UInt64 => dollars (toString ndollars.toNat) := by
  have fits : ∀ ndollars : UInt64, ndollars.toNat < 2 ^ 128 := fun ndollars =>
    ndollars.toNat_lt.trans (by decide)
  have injective : Function.Injective fun ndollars : UInt64 => formatUsd ndollars.toNat := by
    intro one other same
    have first := formatUsd_renders one.toNat
    simp only at same
    rw [same] at first
    exact UInt64.toNat_inj.mp (first.amount_eq (formatUsd_renders other.toNat))
  refine ⟨fun ndollars => ⟨_, _, formatUsd_renders _, dollars_eq (fits ndollars)⟩, injective, ?_⟩
  intro one other same
  simp only [dollars_eq (fits one), dollars_eq (fits other), Except.ok.injEq] at same
  exact injective same

/-! ### The summary of a rate -/

/-- `extra_dimension_count`. -/
def extraDimensionCount (retail : RetailDimensions) : Nat :=
  (priceDimensions.filter fun dim => !dim.anchor && (dim.get retail).isSome).length

/-- The prices per image and per second that the summary shows. -/
def shownUnitPrices (effective : RetailDimensions) : Nat :=
  effective.outputPerImageNdollars.isSome.toNat +
    effective.outputPerVideoSecondNdollars.isSome.toNat

def effectiveRateSummary (retail : RetailDimensions) (discountBp : UInt32) : String :=
  let effective := effectiveDimensions retail discountBp
  let summary := formatUsd effective.inputPerMtokNdollars.toNat ++ " in / " ++
    formatUsd effective.outputPerMtokNdollars.toNat ++ " out per Mtok"
  let summary :=
    match effective.outputPerImageNdollars with
    | some price => formatUsd price.toNat ++ " per image; " ++ summary
    | none => summary
  let summary :=
    match effective.outputPerVideoSecondNdollars with
    | some price => formatUsd price.toNat ++ " per video second; " ++ summary
    | none => summary
  match extraDimensionCount retail - shownUnitPrices effective with
  | 0 => summary
  | n => summary ++ " (+" ++ toString n ++ " more)"

/-- The prices that the summary does not show. -/
def RetailDimensions.unshownPrices (retail : RetailDimensions) : List UInt64 :=
  [retail.cacheReadPerMtokNdollars, retail.cacheWrite5mPerMtokNdollars,
    retail.cacheWrite1hPerMtokNdollars, retail.audioInputPerMtokNdollars,
    retail.audioOutputPerMtokNdollars, retail.imageInputPerMtokNdollars,
    retail.imageOutputPerMtokNdollars, retail.cacheStoragePerMtokHourNdollars,
    retail.longContextInputPerMtokNdollars, retail.longContextOutputPerMtokNdollars].reduceOption

theorem length_filter_cons {α : Type} (keep : α → Bool) (first : α) (rest : List α) :
    ((first :: rest).filter keep).length = (keep first).toNat + (rest.filter keep).length := by
  cases kept : keep first <;> simp [kept, Nat.add_comm]

theorem length_reduceOption_cons {α : Type} (first : Option α) (rest : List (Option α)) :
    (first :: rest).reduceOption.length = first.isSome.toNat + rest.reduceOption.length := by
  cases first <;> simp [List.reduceOption, Nat.add_comm]

/-- Besides input and output a price is shown or counted. -/
theorem extraDimensionCount_eq (retail : RetailDimensions) (discountBp : UInt32) :
    extraDimensionCount retail =
      retail.unshownPrices.length + shownUnitPrices (effectiveDimensions retail discountBp) := by
  simp only [extraDimensionCount, priceDimensions, length_filter_cons, List.filter_nil,
    RetailDimensions.unshownPrices, length_reduceOption_cons, List.reduceOption_nil,
    shownUnitPrices, effectiveDimensions_eq, RetailDimensions.mapPrices, Option.isSome_map,
    Bool.not_true, Bool.not_false, Bool.false_and, Bool.true_and, Bool.toNat_false,
    List.length_nil]
  omega

/-- The rates that the summary shows. -/
def shownRates (effective : RetailDimensions) : List String :=
  [effective.outputPerVideoSecondNdollars.map fun price =>
      formatUsd price.toNat ++ " per video second; ",
    effective.outputPerImageNdollars.map fun price => formatUsd price.toNat ++ " per image; ",
    some (formatUsd effective.inputPerMtokNdollars.toNat ++ " in / " ++
      formatUsd effective.outputPerMtokNdollars.toNat ++ " out per Mtok")].reduceOption

/-- How the summary ends, with so many prices that it does not show. -/
def unshownText : Nat → String
  | 0 => ""
  | n => " (+" ++ toString n ++ " more)"

/-- The summary shows the five rates and counts the others. -/
theorem effectiveRateSummary_eq (retail : RetailDimensions) (discountBp : UInt32) :
    effectiveRateSummary retail discountBp =
      String.join (shownRates (effectiveDimensions retail discountBp)) ++
        unshownText retail.unshownPrices.length := by
  have count : extraDimensionCount retail - shownUnitPrices (effectiveDimensions retail discountBp) =
      retail.unshownPrices.length := by
    have whole := extraDimensionCount_eq retail discountBp
    omega
  have ended (summary : String) (n : Nat) :
      (match n with
        | 0 => summary
        | n => summary ++ " (+" ++ toString n ++ " more)") = summary ++ unshownText n := by
    cases n with
    | zero => exact String.append_empty.symm
    | succ n => simp only [unshownText, String.append_assoc]
  unfold effectiveRateSummary shownRates
  dsimp only
  rw [count]
  refine (ended _ _).trans (congrArg (· ++ _) ?_)
  -- The prices per image and per second go before the others, each if it is there.
  cases (effectiveDimensions retail discountBp).outputPerVideoSecondNdollars <;>
    cases (effectiveDimensions retail discountBp).outputPerImageNdollars <;>
      simp [List.reduceOption, String.append_assoc]

/-- A discount changes every price alike and by no more than it says, and the summary counts the
prices that it does not show. -/
theorem effectiveDimensions_spec (retail : RetailDimensions) (discountBp : UInt32) :
    (effectiveDimensions retail discountBp =
      retail.mapPrices fun price => effectivePerMtokNdollars price discountBp) ∧
    (∀ price : UInt64,
      price.toNat * (10000 - min discountBp.toNat maxDiscountBp) < 2 ^ 128 ∧
      (effectivePerMtokNdollars price discountBp).toNat =
        price.toNat * (10000 - min discountBp.toNat maxDiscountBp) / 10000 ∧
      (effectivePerMtokNdollars price discountBp).toNat ≤ price.toNat ∧
      ∀ more : UInt32, discountBp.toNat ≤ more.toNat →
        (effectivePerMtokNdollars price more).toNat ≤
          (effectivePerMtokNdollars price discountBp).toNat) ∧
    shownUnitPrices (effectiveDimensions retail discountBp) ≤ extraDimensionCount retail ∧
    extraDimensionCount retail - shownUnitPrices (effectiveDimensions retail discountBp) =
      retail.unshownPrices.length ∧
    effectiveRateSummary retail discountBp =
      String.join (shownRates (effectiveDimensions retail discountBp)) ++
        unshownText retail.unshownPrices.length := by
  have count := extraDimensionCount_eq retail discountBp
  refine ⟨effectiveDimensions_eq retail discountBp, fun price => ?_, by omega, by omega,
    effectiveRateSummary_eq retail discountBp⟩
  obtain ⟨product, quotient⟩ := effective_toNat discountBp price
  exact ⟨product, quotient, effective_le discountBp price,
    fun more le => effective_antitone le price⟩

end GmMiner.Cli.Pricing
