import GmMiner.Lib.Decimal
import Mathlib.Algebra.Order.Field.Rat
import Mathlib.Data.Char
import Mathlib.Data.Rat.Cast.Defs
import Mathlib.Algebra.Order.Field.Basic
import Mathlib.Tactic.NormNum
import Mathlib.Tactic.Positivity

/-!
RFC 3339 date-times: how one is written, and the instant it names.

Different texts may name one instant, and texts are in the order of their instants only when they
are written alike: same offset, same number of decimals (`Stamp.text_lt_iff`).
-/

namespace GmMiner.Lib.Rfc3339

open Decimal

def isLeap (year : Nat) : Bool := year % 4 == 0 && (year % 100 != 0 || year % 400 == 0)

def daysInMonth (year month : Nat) : Nat :=
  if month = 2 then if isLeap year then 29 else 28
  else if month = 4 ∨ month = 6 ∨ month = 9 ∨ month = 11 then 30
  else 31

/-- Days from the start of year 0 to that of a year. -/
def daysBeforeYear (year : Nat) : Nat :=
  365 * year + (year + 3) / 4 + (year + 399) / 400 - (year + 99) / 100

/-- Days from the start of a year to that of one of its months. -/
def daysBeforeMonth (year : Nat) : Nat → Nat
  | 0 => 0
  | 1 => 0
  | month + 1 => daysBeforeMonth year month + daysInMonth year month

inductive Offset
  | zulu (lower : Bool)
  | ahead (hours minutes : Nat)
  | behind (hours minutes : Nat)
  deriving DecidableEq, Repr

namespace Offset

def valid : Offset → Bool
  | zulu _ => true
  | ahead hours minutes => hours < 24 && minutes < 60
  | behind hours minutes => hours < 24 && minutes < 60

/-- How many seconds local time is ahead. -/
def seconds : Offset → Int
  | zulu _ => 0
  | ahead hours minutes => hours * 3600 + minutes * 60
  | behind hours minutes => -(hours * 3600 + minutes * 60)

def text : Offset → List Char
  | zulu lower => if lower then ['z'] else ['Z']
  | ahead hours minutes => '+' :: (padded 2 hours ++ ':' :: padded 2 minutes)
  | behind hours minutes => '-' :: (padded 2 hours ++ ':' :: padded 2 minutes)

end Offset

/-- A date-time of the RFC; a fraction without digits is none. -/
structure Stamp where
  year : Nat
  month : Nat
  day : Nat
  lowerT : Bool
  hour : Nat
  minute : Nat
  second : Nat
  fraction : List Char
  offset : Offset
  year_ : year < 10000
  month_ : 1 ≤ month ∧ month ≤ 12
  day_ : 1 ≤ day ∧ day ≤ daysInMonth year month
  hour_ : hour < 24
  minute_ : minute < 60
  /-- 60 in a leap second. -/
  second_ : second ≤ 60
  fraction_ : allDigits fraction = true
  offset_ : offset.valid = true

namespace Stamp

def text (stamp : Stamp) : List Char :=
  padded 4 stamp.year ++ '-' :: (padded 2 stamp.month ++ '-' :: (padded 2 stamp.day ++
    (if stamp.lowerT then 't' else 'T') :: (padded 2 stamp.hour ++ ':' :: (padded 2 stamp.minute ++
      ':' :: (padded 2 stamp.second ++
        ((if stamp.fraction = [] then [] else '.' :: stamp.fraction) ++ stamp.offset.text))))))

/-- Seconds from the start of year 0, UTC, without the fraction. -/
def wholeSeconds (stamp : Stamp) : Int :=
  (((daysBeforeYear stamp.year + daysBeforeMonth stamp.year stamp.month + (stamp.day - 1)) * 86400 +
    stamp.hour * 3600 + stamp.minute * 60 + stamp.second : Nat) : Int) - stamp.offset.seconds

def instant (stamp : Stamp) : ℚ :=
  stamp.wholeSeconds + ofDigits stamp.fraction / 10 ^ stamp.fraction.length

end Stamp

/-! ### Texts of digits in order -/

/-- Texts of one length in front decide, and what follows them if they are the same. -/
theorem append_lt_append_iff {front front' rest rest' : List Char}
    (same : front.length = front'.length) :
    front ++ rest < front' ++ rest' ↔ front < front' ∨ (front = front' ∧ rest < rest') := by
  induction front generalizing front' with
  | nil =>
      rw [List.length_nil, eq_comm, List.length_eq_zero_iff] at same
      subst same
      simp
  | cons c front ih =>
      cases front' with
      | nil => cases same
      | cons d front' =>
          have tails := ih (Nat.succ.inj same)
          simp only [List.cons_append, List.cons_lt_cons_iff, tails, List.cons.injEq]
          tauto

/-- Digits are ordered as characters as they are as numbers. -/
theorem lt_iff_of_isDigit {c d : Char} (digit : c.isDigit = true) (digit' : d.isDigit = true) :
    c < d ↔ ofDigits [c] < ofDigits [d] := by
  simp only [Char.isDigit, Bool.and_eq_true, decide_eq_true_eq,
    UInt32.le_iff_toNat_le] at digit digit'
  have low : 48 ≤ c.toNat := digit.1
  have low' : 48 ≤ d.toNat := digit'.1
  simp only [ofDigits, Nat.ofDigitChars_cons, Nat.ofDigitChars_nil]
  change c.toNat < d.toNat ↔ 10 * 0 + (c.toNat - 48) < 10 * 0 + (d.toNat - 48)
  omega

/-- Digits of one length are in the order of their numbers. -/
theorem digits_lt_iff {digits digits' : List Char} (all : allDigits digits = true)
    (all' : allDigits digits' = true) (same : digits.length = digits'.length) :
    digits < digits' ↔ ofDigits digits < ofDigits digits' := by
  induction digits generalizing digits' with
  | nil =>
      rw [List.length_nil, eq_comm, List.length_eq_zero_iff] at same
      subst same
      simp
  | cons c digits ih =>
      cases digits' with
      | nil => cases same
      | cons d digits' =>
          simp only [allDigits, List.all_cons, Bool.and_eq_true] at all all'
          have lengths := Nat.succ.inj same
          have tails := ih all.2 all'.2 lengths
          have bound := ofDigits_lt all.2
          have bound' := ofDigits_lt all'.2
          have number := ofDigits_append [c] digits
          have number' := ofDigits_append [d] digits'
          rw [List.singleton_append] at number number'
          rw [lengths] at bound number
          rw [List.cons_lt_cons_iff, lt_iff_of_isDigit all.1 all'.1, tails, number, number']
          constructor
          · -- A smaller first digit decides, whatever the later ones are.
            rintro (first | ⟨rfl, later⟩)
            · calc _ < 10 ^ digits'.length * (ofDigits [c] + 1) := by rw [Nat.mul_succ]; omega
                _ ≤ 10 ^ digits'.length * ofDigits [d] := Nat.mul_le_mul_left _ first
                _ ≤ _ := Nat.le_add_right _ _
            · omega
          · intro less
            rcases lt_trichotomy (ofDigits [c]) (ofDigits [d]) with first | equal | later
            · exact .inl first
            · have chars : c = d := by
                by_contra other
                rcases lt_or_gt_of_ne other with below | above
                · exact absurd ((lt_iff_of_isDigit all.1 all'.1).mp below) (by omega)
                · exact absurd ((lt_iff_of_isDigit all'.1 all.1).mp above) (by omega)
              rw [equal] at less
              exact .inr ⟨chars, by omega⟩
            · have more : 10 ^ digits'.length * (ofDigits [d] + 1) ≤
                  10 ^ digits'.length * ofDigits [c] := Nat.mul_le_mul_left _ later
              rw [Nat.mul_succ] at more
              omega

/-- Fields of one width in front decide, and what follows them if they are the same. -/
theorem padded_lt_iff {width n n' : Nat} (positive : 0 < width) (fits : n < 10 ^ width)
    (fits' : n' < 10 ^ width) (rest rest' : List Char) :
    padded width n ++ rest < padded width n' ++ rest' ↔ n < n' ∨ (n = n' ∧ rest < rest') := by
  have lengths : (padded width n).length = (padded width n').length := by
    rw [length_padded positive fits, length_padded positive fits']
  rw [append_lt_append_iff lengths,
    digits_lt_iff (allDigits_padded _ _) (allDigits_padded _ _) lengths, ofDigits_padded,
    ofDigits_padded]
  have same : padded width n = padded width n' ↔ n = n' := by
    refine ⟨fun texts => ?_, fun numbers => numbers ▸ rfl⟩
    rw [← ofDigits_padded width n, texts, ofDigits_padded]
  rw [same]

/-- Texts that begin alike are ordered by what follows. -/
theorem cons_lt_cons_same (c : Char) (rest rest' : List Char) :
    c :: rest < c :: rest' ↔ rest < rest' := by
  simp

/-! ### Days in order -/

/-- A year has 365 days, or 366 if it is a leap year. -/
theorem daysBeforeYear_succ (year : Nat) :
    daysBeforeYear (year + 1) = daysBeforeYear year + if isLeap year then 366 else 365 := by
  -- each quotient grows in the years that its divisor divides
  have four : (year + 1 + 3) / 4 = (year + 3) / 4 + if year % 4 = 0 then 1 else 0 := by
    split <;> omega
  have hundred : (year + 1 + 99) / 100 = (year + 99) / 100 + if year % 100 = 0 then 1 else 0 := by
    split <;> omega
  have fourHundred :
      (year + 1 + 399) / 400 = (year + 399) / 400 + if year % 400 = 0 then 1 else 0 := by
    split <;> omega
  have fewer : (year + 99) / 100 ≤ (year + 3) / 4 := by omega
  unfold daysBeforeYear
  rw [four, hundred, fourHundred]
  generalize (year + 3) / 4 = fours, (year + 99) / 100 = hundreds,
    (year + 399) / 400 = fourHundreds at fewer
  clear four hundred fourHundred
  unfold isLeap
  by_cases of4 : year % 4 = 0
  · by_cases of100 : year % 100 = 0
    · by_cases of400 : year % 400 = 0
      · simp [of4, of100, of400]
        omega
      · simp [of4, of100, of400]
        omega
    · have of400 : ¬ year % 400 = 0 := by omega
      simp [of4, of100, of400]
      omega
  · have of100 : ¬ year % 100 = 0 := by omega
    have of400 : ¬ year % 400 = 0 := by omega
    simp [of4, of100, of400]
    omega

/-- Later years begin on later days. -/
theorem daysBeforeYear_mono {year year' : Nat} (before : year ≤ year') :
    daysBeforeYear year ≤ daysBeforeYear year' := by
  induction before with
  | refl => exact Nat.le_refl _
  | step _ ih =>
      rw [Nat.succ_eq_add_one, daysBeforeYear_succ]
      omega

/-- A month begins where the one before it ends. -/
theorem daysBeforeMonth_succ (year : Nat) {month : Nat} (positive : 1 ≤ month) :
    daysBeforeMonth year (month + 1) = daysBeforeMonth year month + daysInMonth year month := by
  cases month with
  | zero => cases positive
  | succ month => rfl

/-- Later months of a year begin on later days. -/
theorem daysBeforeMonth_mono (year : Nat) {month month' : Nat} (positive : 1 ≤ month)
    (before : month ≤ month') : daysBeforeMonth year month ≤ daysBeforeMonth year month' := by
  induction before with
  | refl => exact Nat.le_refl _
  | step inside ih =>
      rw [Nat.succ_eq_add_one, daysBeforeMonth_succ year (positive.trans inside)]
      omega

/-- The twelve months make up the year. -/
theorem daysBeforeMonth_thirteen (year : Nat) :
    daysBeforeMonth year 13 = if isLeap year then 366 else 365 := by
  simp only [daysBeforeMonth, daysInMonth]
  cases isLeap year <;> rfl

namespace Stamp

/-- Days from the start of year 0. -/
def dayNumber (stamp : Stamp) : Nat :=
  daysBeforeYear stamp.year + daysBeforeMonth stamp.year stamp.month + (stamp.day - 1)

variable {a b : Stamp}

/-- A day lies in its month. -/
theorem day_lt_month (a : Stamp) :
    daysBeforeMonth a.year a.month + (a.day - 1) < daysBeforeMonth a.year (a.month + 1) := by
  have day := a.day_
  rw [daysBeforeMonth_succ a.year a.month_.1]
  omega

/-- A day lies in its year. -/
theorem dayNumber_lt_year (a : Stamp) : a.dayNumber < daysBeforeYear (a.year + 1) := by
  have inMonth := a.day_lt_month
  have inYear : daysBeforeMonth a.year (a.month + 1) ≤ daysBeforeMonth a.year 13 :=
    daysBeforeMonth_mono a.year (Nat.succ_pos a.month) (Nat.succ_le_succ a.month_.2)
  rw [daysBeforeMonth_thirteen] at inYear
  rw [daysBeforeYear_succ, dayNumber]
  omega

/-- A date of an earlier year has a smaller day number. -/
theorem dayNumber_lt_of_year (years : a.year < b.year) : a.dayNumber < b.dayNumber := by
  calc a.dayNumber < daysBeforeYear (a.year + 1) := a.dayNumber_lt_year
    _ ≤ daysBeforeYear b.year := daysBeforeYear_mono years
    _ ≤ b.dayNumber := by rw [dayNumber, Nat.add_assoc]; exact Nat.le_add_right _ _

/-- In one year, a date of an earlier month has a smaller day number. -/
theorem dayNumber_lt_of_month (years : a.year = b.year) (months : a.month < b.month) :
    a.dayNumber < b.dayNumber := by
  have inMonth := a.day_lt_month
  have later : daysBeforeMonth a.year (a.month + 1) ≤ daysBeforeMonth a.year b.month :=
    daysBeforeMonth_mono a.year (Nat.succ_pos a.month) months
  rw [dayNumber, dayNumber, ← years]
  omega

/-- In one month, an earlier date has a smaller day number. -/
theorem dayNumber_lt_of_day (years : a.year = b.year) (months : a.month = b.month)
    (days : a.day < b.day) : a.dayNumber < b.dayNumber := by
  have day := a.day_
  rw [dayNumber, dayNumber, years, months]
  omega

/-! ### Date-times written alike -/

/-- One offset, one separator, one number of decimals, and no leap second. -/
structure Alike (a b : Stamp) : Prop where
  lowerT : a.lowerT = b.lowerT
  decimals : a.fraction.length = b.fraction.length
  offset : a.offset = b.offset
  second : a.second < 60
  second' : b.second < 60

/-- Field by field. -/
def Precedes (a b : Stamp) : Prop :=
  a.year < b.year ∨ (a.year = b.year ∧ (a.month < b.month ∨ (a.month = b.month ∧
    (a.day < b.day ∨ (a.day = b.day ∧ (a.hour < b.hour ∨ (a.hour = b.hour ∧
      (a.minute < b.minute ∨ (a.minute = b.minute ∧ (a.second < b.second ∨
        (a.second = b.second ∧ ofDigits a.fraction < ofDigits b.fraction)))))))))))

/-- Texts written alike are ordered field by field. -/
theorem text_lt_iff_precedes (alike : Alike a b) : a.text < b.text ↔ a.Precedes b := by
  have aMonth : a.month < 10 ^ 2 := a.month_.2.trans_lt (by decide)
  have bMonth : b.month < 10 ^ 2 := b.month_.2.trans_lt (by decide)
  have most : ∀ year month, daysInMonth year month < 10 ^ 2 := by
    intro year month
    unfold daysInMonth
    split
    · split <;> decide
    · split <;> decide
  have aDay : a.day < 10 ^ 2 := a.day_.2.trans_lt (most _ _)
  have bDay : b.day < 10 ^ 2 := b.day_.2.trans_lt (most _ _)
  have hour := a.hour_
  have hour' := b.hour_
  have minute := a.minute_
  have minute' := b.minute_
  have second := alike.second
  have second' := alike.second'
  -- Written alike, both have a fraction of one length or neither has one.
  have fractions : (if a.fraction = [] then [] else '.' :: a.fraction) ++ a.offset.text <
      (if b.fraction = [] then [] else '.' :: b.fraction) ++ b.offset.text ↔
        ofDigits a.fraction < ofDigits b.fraction := by
    rw [← digits_lt_iff a.fraction_ b.fraction_ alike.decimals, alike.offset]
    have lengths := alike.decimals
    by_cases none_ : a.fraction = []
    · rw [none_, List.length_nil, eq_comm, List.length_eq_zero_iff] at lengths
      simp [none_, lengths]
    · have none_' : b.fraction ≠ [] := by
        intro empty
        rw [empty, List.length_nil, List.length_eq_zero_iff] at lengths
        exact none_ lengths
      rw [if_neg none_, if_neg none_', List.cons_append, List.cons_append, cons_lt_cons_same,
        append_lt_append_iff lengths]
      simp
  unfold text Precedes
  rw [padded_lt_iff (by decide) a.year_ b.year_, cons_lt_cons_same,
    padded_lt_iff (by decide) aMonth bMonth, cons_lt_cons_same,
    padded_lt_iff (by decide) aDay bDay, alike.lowerT, cons_lt_cons_same,
    padded_lt_iff (by decide) (by omega) (by omega), cons_lt_cons_same,
    padded_lt_iff (by decide) (by omega) (by omega), cons_lt_cons_same,
    padded_lt_iff (by decide) (by omega) (by omega), fractions]

/-- Seconds of the day, local time. -/
def secondOfDay (stamp : Stamp) : Nat := stamp.hour * 3600 + stamp.minute * 60 + stamp.second

/-- A second of the day is below 86400 if no leap second is written. -/
theorem secondOfDay_lt (second : a.second < 60) : a.secondOfDay < 86400 := by
  have hour := a.hour_
  have minute := a.minute_
  rw [secondOfDay]
  omega

/-- The seconds since the epoch, from the day and the second of it. -/
theorem wholeSeconds_eq (a : Stamp) :
    a.wholeSeconds = (a.dayNumber * 86400 + a.secondOfDay : Nat) - a.offset.seconds := by
  rw [wholeSeconds, dayNumber, secondOfDay]
  simp only [Nat.add_assoc]

/-- A whole second more than makes up for decimals. -/
theorem instant_lt_of_wholeSeconds (seconds : a.wholeSeconds < b.wholeSeconds) :
    a.instant < b.instant := by
  have fraction : (ofDigits a.fraction : ℚ) / 10 ^ a.fraction.length < 1 := by
    rw [div_lt_one (by positivity)]
    exact_mod_cast ofDigits_lt a.fraction_
  have whole : (a.wholeSeconds : ℚ) + 1 ≤ b.wholeSeconds := by exact_mod_cast seconds
  have positive : 0 ≤ (ofDigits b.fraction : ℚ) / 10 ^ b.fraction.length := by positivity
  calc a.instant < a.wholeSeconds + 1 := by rw [instant]; gcongr
    _ ≤ b.wholeSeconds := whole
    _ ≤ b.instant := by rw [instant]; exact le_add_of_nonneg_right positive

/-- With one offset, an earlier day is an earlier instant, whatever the second. -/
theorem instant_lt_of_days (alike : Alike a b) (days : a.dayNumber < b.dayNumber) :
    a.instant < b.instant := by
  have ofDay := secondOfDay_lt alike.second
  apply instant_lt_of_wholeSeconds
  rw [wholeSeconds_eq, wholeSeconds_eq, alike.offset]
  omega

/-- The stamp whose fields come first is of the earlier instant. -/
theorem instant_lt_of_precedes (alike : Alike a b) (before : a.Precedes b) :
    a.instant < b.instant := by
  have minute := a.minute_
  have second := alike.second
  rcases before with year | ⟨years, month | ⟨months, day | ⟨days, time⟩⟩⟩
  · exact instant_lt_of_days alike (dayNumber_lt_of_year year)
  · exact instant_lt_of_days alike (dayNumber_lt_of_month years month)
  · exact instant_lt_of_days alike (dayNumber_lt_of_day years months day)
  · have sameDay : a.dayNumber = b.dayNumber := by
      rw [dayNumber, dayNumber, years, months, days]
    rcases time with hour | ⟨hours, minute' | ⟨minutes, second' | ⟨seconds, fraction⟩⟩⟩
    case inl | inr.inl | inr.inr.inl =>
      apply instant_lt_of_wholeSeconds
      rw [wholeSeconds_eq, wholeSeconds_eq, alike.offset, sameDay, secondOfDay, secondOfDay]
      omega
    · have whole : a.wholeSeconds = b.wholeSeconds := by
        rw [wholeSeconds_eq, wholeSeconds_eq, alike.offset, sameDay, secondOfDay, secondOfDay,
          hours, minutes, seconds]
      rw [instant, instant, whole, alike.decimals]
      have number : (ofDigits a.fraction : ℚ) < ofDigits b.fraction := by exact_mod_cast fraction
      gcongr

theorem Alike.symm (alike : Alike a b) : Alike b a :=
  ⟨alike.lowerT.symm, alike.decimals.symm, alike.offset.symm, alike.second', alike.second⟩

/-- Date-times written alike that do not precede each other are the same. -/
theorem instant_eq_of_not_precedes (alike : Alike a b) (notBefore : ¬ a.Precedes b)
    (notAfter : ¬ b.Precedes a) : a.instant = b.instant := by
  unfold Precedes at notBefore notAfter
  have year : a.year = b.year := by omega
  have month : a.month = b.month := by omega
  have day : a.day = b.day := by omega
  have hour : a.hour = b.hour := by omega
  have minute : a.minute = b.minute := by omega
  have second : a.second = b.second := by omega
  have fraction : ofDigits a.fraction = ofDigits b.fraction := by omega
  rw [instant, instant, wholeSeconds, wholeSeconds, year, month, day, hour, minute, second, fraction,
    alike.offset, alike.decimals]

/-- Texts written alike are in the order of their instants. -/
theorem text_lt_iff (alike : Alike a b) : a.text < b.text ↔ a.instant < b.instant := by
  rw [text_lt_iff_precedes alike]
  constructor
  · exact instant_lt_of_precedes alike
  · intro less
    by_contra notBefore
    by_cases after : b.Precedes a
    · exact lt_asymm less (instant_lt_of_precedes alike.symm after)
    · exact less.ne (instant_eq_of_not_precedes alike notBefore after)

end Stamp

end GmMiner.Lib.Rfc3339
