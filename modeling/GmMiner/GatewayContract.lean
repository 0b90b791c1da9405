import GmMiner.Json.Escape

/-!
The phrases by which a gateway takes an error body for a failure of the worker's account at its
provider (`attestd/src/gateway_contract.rs`).

`marked` says which texts bring such a phrase into a JSON body when they are written there as a
string.
-/

namespace GmMiner.GatewayContract

open GmMiner.Lib GmMiner.Lib.Pattern GmMiner.Json

/-- `DRAIN_SIGNALS`. -/
def drainSignals : List String :=
  ["insufficient_quota", "exceeded your current quota", "add credits to your account",
    "billing_hard_limit_reached", "billing hard limit", "credit balance is too low",
    "reached your specified api usage limits", "account is not active",
    "account has been deactivated", "invalid_api_key", "incorrect api key",
    "pay with fiat or send tao", "exceeded_current_quota_error"]

/-- `str::to_ascii_lowercase`. -/
def toAsciiLowercase (text : List Char) : List Char := text.map Char.toLower

def signalsDrain (body : List Char) : Bool :=
  let lower := toAsciiLowercase body
  drainSignals.any fun signal => decide (signal.toList <:+: lower)

/-! ### The signals as patterns -/

/-- A letter in either case. -/
def anyCase (letter c : Char) : Bool := c.toLower == letter

/-- A signal in any case. -/
def pattern (signal : String) : Pattern Char := signal.toList.map anyCase

/-- A pattern of letters in any case is found where the lower-cased text has them. -/
theorem startsWith_map_anyCase {letters text : List Char} :
    startsWith (letters.map anyCase) text = decide (letters <+: toAsciiLowercase text) := by
  induction letters generalizing text with
  | nil => simp [startsWith]
  | cons letter letters ih =>
      cases text with
      | nil => simp [startsWith, toAsciiLowercase]
      | cons c text =>
          rw [List.map_cons, startsWith, ih, Bool.eq_iff_iff, Bool.and_eq_true, decide_eq_true_iff,
            decide_eq_true_iff, anyCase, beq_iff_eq, eq_comm]
          exact List.cons_prefix_cons.symm

/-- The same for an occurrence anywhere. -/
theorem occurs_map_anyCase {letters text : List Char} :
    occurs (letters.map anyCase) text = decide (letters <:+: toAsciiLowercase text) := by
  induction text with
  | nil =>
      rw [occurs, startsWith_map_anyCase]
      simp [toAsciiLowercase]
  | cons c text ih =>
      rw [occurs, ih, startsWith_map_anyCase, Bool.eq_iff_iff, Bool.or_eq_true, decide_eq_true_iff,
        decide_eq_true_iff, decide_eq_true_iff, toAsciiLowercase, toAsciiLowercase, List.map_cons,
        List.infix_cons_iff]

theorem signalsDrain_eq (body : List Char) :
    signalsDrain body = drainSignals.any fun signal => occurs (pattern signal) body := by
  unfold signalsDrain pattern
  simp only [occurs_map_anyCase]

/-- The letters of the signals. A string is slow to take apart, so it is done here once. -/
def signalLetters : { letters : List (List Char) // letters.map String.ofList = drainSignals } :=
  ⟨[_, _, _, _, _, _, _, _, _, _, _, _, _], rfl⟩

theorem toList_drainSignals : drainSignals.map String.toList = signalLetters.val := by
  have strings : (signalLetters.val.map String.ofList).map String.toList = signalLetters.val := by
    rw [List.map_map]
    exact (List.map_congr_left fun _ _ => String.toList_ofList).trans (List.map_id _)
  exact (congrArg (List.map String.toList) signalLetters.property).symm.trans strings

/-- What the signals are written in: letters that are neither escaped nor within an escape. -/
def isSignalLetter (c : Char) : Bool := ('a' ≤ c && c ≤ 'z') || c == '_' || c == ' '

theorem drainSignals_letters : ∀ signal ∈ drainSignals,
    signal.toList.all isSignalLetter = true ∧ ∀ first ∈ signal.toList.head?, first ≠ 'u' := by
  have checked : (signalLetters.val.all fun letters =>
      letters.all isSignalLetter && letters.head?.all (· != 'u')) = true := by decide
  intro signal known
  have mem : signal.toList ∈ signalLetters.val :=
    toList_drainSignals ▸ List.mem_map_of_mem known
  have both := List.all_eq_true.mp checked _ mem
  rw [Bool.and_eq_true, Option.all_eq_true] at both
  exact ⟨both.1, fun first here => bne_iff_ne.mp (both.2 first here)⟩

/-- No escaped character is in a signal, in whatever case. -/
theorem isSignalLetter_of_isEscaped {c : Char} (escaped : isEscaped c = true) :
    c.toLower = c ∧ isSignalLetter c = false := by
  unfold isEscaped at escaped
  rw [Bool.or_eq_true, decide_eq_true_iff] at escaped
  rcases escaped with byLetter | control
  · unfold letterEscape at byLetter
    split at byLetter
    all_goals first
      | exact ⟨rfl, rfl⟩
      | cases byLetter
  · have low : c.toNat < 32 := control
    have apart : ∀ d : Char, 32 ≤ d.toNat → c ≠ d := by
      rintro d high rfl
      omega
    constructor
    · exact dif_neg fun upper => absurd (show 65 ≤ c.toNat from upper.1) (by omega)
    · have notLower : ¬ 'a' ≤ c := fun lower => absurd (show 97 ≤ c.toNat from lower) (by omega)
      unfold isSignalLetter
      rw [decide_eq_false notLower, beq_false_of_ne (apart '_' (by decide)),
        beq_false_of_ne (apart ' ' (by decide))]
      rfl

section Signals

variable {signal : String}

theorem mem_pattern {accepts : Char → Bool} (known : signal ∈ drainSignals)
    (mem : accepts ∈ pattern signal) :
    ∃ letter, accepts = anyCase letter ∧ isSignalLetter letter = true := by
  obtain ⟨letter, here, rfl⟩ := List.mem_map.mp mem
  exact ⟨letter, rfl, List.all_eq_true.mp (drainSignals_letters signal known).1 letter here⟩

theorem pattern_ne_nil (known : signal ∈ drainSignals) : pattern signal ≠ [] := by
  have some_ : ∀ signal ∈ drainSignals, signal.toList ≠ [] := by decide
  exact fun none => some_ signal known (List.map_eq_nil_iff.mp none)

/-- The patterns of the signals are free of escaped characters. -/
theorem pattern_unescaped (known : signal ∈ drainSignals) : Unescaped (pattern signal) where
  stops := by
    intro c escaped accepts mem
    obtain ⟨letter, rfl, isLetter⟩ := mem_pattern known mem
    obtain ⟨same, notLetter⟩ := isSignalLetter_of_isEscaped escaped
    refine beq_false_of_ne fun met => ?_
    rw [same] at met
    rw [met, isLetter] at notLetter
    cases notLetter
  starts := by
    intro c inside more
    have apart : ∀ letter, isSignalLetter letter = true → letter ≠ 'u' →
        anyCase letter c = false := by
      intro letter isLetter notU
      simp only [List.mem_cons, List.not_mem_nil, or_false] at inside
      refine beq_false_of_ne fun met => ?_
      rcases inside with rfl | rfl | rfl
      · exact notU met.symm
      all_goals
        rw [← met] at isLetter
        exact absurd isLetter (by decide)
    have first := (drainSignals_letters signal known).2
    have letters := (drainSignals_letters signal known).1
    have some_ := pattern_ne_nil known
    unfold pattern at some_ ⊢
    cases text : signal.toList with
    | nil =>
        rw [text] at some_
        exact absurd rfl some_
    | cons letter rest =>
        rw [text, List.all_cons, Bool.and_eq_true] at letters
        rw [text] at first
        rw [List.map_cons, startsWith, apart letter letters.1 (first letter rfl), Bool.false_and]

end Signals

/-- A text that brings a signal into a body when it is written there as a string: a signal stands
in it, in any case, or from the second letter on behind a character whose escape ends in the
first. -/
def marked (text : List Char) : Bool :=
  drainSignals.any fun signal => occurs (asWritten (pattern signal)) text

/-- What stands around a string of a body holds no signal. -/
def unmarked (text : List Char) : Bool :=
  drainSignals.all fun signal => !occurs (pattern signal) text

theorem marked_eq (text : List Char) : marked text =
    signalLetters.val.any fun letters => occurs (asWritten (letters.map anyCase)) text := by
  rw [← toList_drainSignals, List.any_map]
  rfl

theorem unmarked_eq (text : List Char) : unmarked text =
    signalLetters.val.all fun letters => !occurs (letters.map anyCase) text := by
  rw [← toList_drainSignals, List.all_map]
  rfl

/-- A body drains through a quoted text alone if nothing around it holds a mark. -/
theorem signalsDrain_quoted {before after : List Char} (clean : unmarked before = true)
    (clean' : unmarked after = true) (text : List Char) :
    signalsDrain (before ++ (quoted text ++ after)) = marked text := by
  rw [signalsDrain_eq, marked, Bool.eq_iff_iff, List.any_eq_true, List.any_eq_true]
  refine exists_congr fun signal => and_congr_right fun known => ?_
  have none := List.all_eq_true.mp clean signal known
  have none' := List.all_eq_true.mp clean' signal known
  rw [Bool.not_eq_true'] at none none'
  rw [occurs_quoted (pattern_unescaped known) (pattern_ne_nil known), none, none', Bool.false_or,
    Bool.or_false]

theorem marked_congr {text other : List Char} (same : ∀ signal ∈ drainSignals,
    occurs (asWritten (pattern signal)) text = occurs (asWritten (pattern signal)) other) :
    marked text = marked other := by
  unfold marked
  rw [Bool.eq_iff_iff, List.any_eq_true, List.any_eq_true]
  exact exists_congr fun signal => and_congr_right fun known => by rw [same signal known]

/-- No signal stands in a text, nor across its end. -/
def opening (text : List Char) : Bool :=
  drainSignals.all fun signal =>
    unbegun (asWritten (pattern signal)) text && !occurs (asWritten (pattern signal)) text

theorem opening_eq (text : List Char) : opening text = signalLetters.val.all fun letters =>
    unbegun (asWritten (letters.map anyCase)) text &&
      !occurs (asWritten (letters.map anyCase)) text := by
  rw [← toList_drainSignals, List.all_map]
  rfl

theorem marked_opening {text : List Char} (apart : opening text = true) (after : List Char) :
    marked (text ++ after) = marked after := by
  refine marked_congr fun signal known => ?_
  have holds := List.all_eq_true.mp apart signal known
  rw [Bool.and_eq_true, Bool.not_eq_true'] at holds
  rw [occurs_append_of_unbegun (asWritten_ne_nil (pattern_ne_nil known)) holds.1, holds.2,
    Bool.false_or]

/-- No signal stands across the start of a text. -/
def closing (text : List Char) : Bool :=
  drainSignals.all fun signal => unended (asWritten (pattern signal)).tail text

theorem closing_eq (text : List Char) : closing text =
    signalLetters.val.all fun letters => unended (asWritten (letters.map anyCase)).tail text := by
  rw [← toList_drainSignals, List.all_map]
  rfl

/-- No signal crosses the seam, so a text drains if one of its sides does. -/
theorem marked_seam {between : List Char} (starts : closing between = true)
    (ends : opening between = true) (before after : List Char) :
    marked (before ++ (between ++ after)) = (marked before || marked after) := by
  rw [← marked_opening ends after]
  unfold marked
  rw [Bool.eq_iff_iff]
  simp only [List.any_eq_true, Bool.or_eq_true, ← exists_or, ← and_or_left]
  refine exists_congr fun signal => and_congr_right fun known => ?_
  have apart := List.all_eq_true.mp starts signal known
  rw [occurs_append_of_unended (asWritten_ne_nil (pattern_ne_nil known)) before apart,
    Bool.or_eq_true]

end GmMiner.GatewayContract
