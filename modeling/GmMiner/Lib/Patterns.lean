import Mathlib.Data.List.Infix

/-!
Whether a pattern occurs in a text.

A pattern is what each of its symbols may be, so one scan covers a search that ignores case. A
symbol that a pattern has nowhere stops it: on both sides of such a symbol the search goes on by
itself (`occurs_append_stop`). Where two texts meet without one, a pattern can only stand across
the seam if it is begun at the end of the one (`occurs_append_of_unbegun`) and ended at the start
of the other (`occurs_append_of_unended`). A text that is written symbol by symbol is searched
through what its symbols are written as (`occurs_flatMap`).
-/

namespace GmMiner.Lib

universe u

variable {Symbol : Type u}

abbrev Pattern (Symbol : Type u) := List (Symbol → Bool)

namespace Pattern

/-- The text begins with the pattern. -/
def startsWith : Pattern Symbol → List Symbol → Bool
  | [], _ => true
  | _ :: _, [] => false
  | accepts :: pattern, symbol :: text => accepts symbol && startsWith pattern text

/-- The pattern stands somewhere in the text. -/
def occurs (pattern : Pattern Symbol) : List Symbol → Bool
  | [] => startsWith pattern []
  | symbol :: text => startsWith pattern (symbol :: text) || occurs pattern text

/-- The pattern has the symbol nowhere. -/
def Stops (pattern : Pattern Symbol) (symbol : Symbol) : Prop :=
  ∀ accepts ∈ pattern, accepts symbol = false

/-- The text is a first part of what the pattern accepts, and not all of it. -/
def begun (pattern : Pattern Symbol) (text : List Symbol) : Bool :=
  decide (text.length < pattern.length) && startsWith (pattern.take text.length) text

variable {pattern : Pattern Symbol}

/-- A symbol that stops a pattern stops its rest. -/
theorem Stops.tail {accepts : Symbol → Bool} {symbol : Symbol}
    (stops : Stops (accepts :: pattern) symbol) : Stops pattern symbol :=
  fun other mem => stops other (List.mem_cons_of_mem _ mem)

/-- No occurrence begins at a symbol that stops the pattern. -/
theorem startsWith_of_stops {symbol : Symbol} (stops : Stops pattern symbol)
    (some_ : pattern ≠ []) (text : List Symbol) : startsWith pattern (symbol :: text) = false := by
  cases pattern with
  | nil => exact absurd rfl some_
  | cons accepts rest => simp [startsWith, stops accepts List.mem_cons_self]

/-- An occurrence at the start of a text does not reach past a symbol that stops
it. -/
theorem startsWith_append_stop {symbol : Symbol} (stops : Stops pattern symbol)
    (text more : List Symbol) :
    startsWith pattern (text ++ symbol :: more) = startsWith pattern text := by
  induction pattern generalizing text with
  | nil => simp [startsWith]
  | cons accepts rest ih =>
      cases text with
      | nil => simp [startsWith, stops accepts List.mem_cons_self]
      | cons first text => simp [startsWith, ih stops.tail]

/-- A pattern occurs on one side of a symbol that stops it. -/
theorem occurs_append_stop {symbol : Symbol} (stops : Stops pattern symbol) (some_ : pattern ≠ [])
    (text more : List Symbol) :
    occurs pattern (text ++ symbol :: more) = (occurs pattern text || occurs pattern more) := by
  induction text with
  | nil =>
      have none : startsWith pattern [] = false := by
        cases pattern with
        | nil => exact absurd rfl some_
        | cons => rfl
      simp [occurs, none, startsWith_of_stops stops some_]
  | cons first text ih =>
      have whole := startsWith_append_stop stops (first :: text) more
      rw [List.cons_append] at whole ⊢
      simp [occurs, whole, ih, Bool.or_assoc]

/-- A text that goes on begins with the pattern if it did, or if it has begun it and goes on with
the rest. -/
theorem startsWith_append (pattern : Pattern Symbol) (text more : List Symbol) :
    startsWith pattern (text ++ more) =
      (startsWith pattern text ||
        (begun pattern text && startsWith (pattern.drop text.length) more)) := by
  induction pattern generalizing text with
  | nil => simp [startsWith]
  | cons accepts rest ih =>
      cases text with
      | nil => simp [startsWith, begun]
      | cons first text =>
          simp only [List.cons_append, startsWith, ih, begun, List.length_cons, List.take_succ_cons,
            List.drop_succ_cons, Nat.add_lt_add_iff_right]
          cases accepts first <;> simp

/-- No end of the text begins the pattern. -/
def unbegun (pattern : Pattern Symbol) : List Symbol → Bool
  | [] => true
  | first :: text => !begun pattern (first :: text) && unbegun pattern text

/-- Whatever of the pattern has gone before, its rest does not stand at the start of the text,
however the text goes on. -/
def unended : Pattern Symbol → List Symbol → Bool
  | [], _ => true
  | accepts :: pattern, text =>
      !startsWith (accepts :: pattern) text && !begun (accepts :: pattern) text &&
        unended pattern text

/-- No part of the pattern is left to go on after an ended text. -/
theorem unended_drop {text : List Symbol} {k : Nat} (ended : unended pattern text = true)
    (short : k < pattern.length) (more : List Symbol) :
    startsWith (pattern.drop k) (text ++ more) = false := by
  induction pattern generalizing k with
  | nil => exact absurd short (Nat.not_lt_zero _)
  | cons accepts rest ih =>
      simp only [unended, Bool.and_eq_true, Bool.not_eq_true'] at ended
      obtain ⟨⟨whole, part⟩, behind⟩ := ended
      cases k with
      | zero =>
          rw [List.drop_zero, startsWith_append, whole, part]
          rfl
      | succ k => exact ih behind (Nat.lt_of_succ_lt_succ short)

theorem occurs_nil_left {more : List Symbol} (some_ : pattern ≠ []) :
    occurs pattern more = (occurs pattern [] || occurs pattern more) := by
  cases pattern with
  | nil => exact absurd rfl some_
  | cons => rfl

/-- A pattern occurs in one of the parts if none of it begins at the end of the
first. -/
theorem occurs_append_of_unbegun (some_ : pattern ≠ []) {text : List Symbol}
    (apart : unbegun pattern text) (more : List Symbol) :
    occurs pattern (text ++ more) = (occurs pattern text || occurs pattern more) := by
  induction text with
  | nil => exact occurs_nil_left some_
  | cons first text ih =>
      obtain ⟨whole, rest⟩ := Bool.and_eq_true_iff.mp apart
      have not_begun : begun pattern (first :: text) = false := by simpa using whole
      have goes_on := startsWith_append pattern (first :: text) more
      rw [not_begun, Bool.false_and, Bool.or_false, List.cons_append] at goes_on
      rw [List.cons_append, occurs, occurs, goes_on, ih rest, Bool.or_assoc]

/-- A seam that ends no part of the pattern divides its occurrences. -/
theorem occurs_append_of_unended (some_ : pattern ≠ []) (text : List Symbol) {seam : List Symbol}
    (apart : unended pattern.tail seam) (more : List Symbol) :
    occurs pattern (text ++ (seam ++ more)) =
      (occurs pattern text || occurs pattern (seam ++ more)) := by
  induction text with
  | nil => exact occurs_nil_left some_
  | cons first text ih =>
      have across : (begun pattern (first :: text) &&
          startsWith (pattern.drop (first :: text).length) (seam ++ more)) = false := by
        by_cases shorter : (first :: text).length < pattern.length
        · have short : text.length < pattern.tail.length := by
            simp only [List.length_cons, List.length_tail] at shorter ⊢
            omega
          have ended := unended_drop apart short more
          rw [List.drop_tail] at ended
          rw [List.length_cons, ended, Bool.and_false]
        · simp only [begun, decide_eq_false shorter, Bool.false_and]
      have goes_on := startsWith_append pattern (first :: text) (seam ++ more)
      rw [across, Bool.or_false, List.cons_append] at goes_on
      rw [List.cons_append, occurs, occurs, goes_on, ih, Bool.or_assoc]

/-! ### Texts that are written -/

section Written

variable {write : Symbol → List Symbol} {last : Symbol → Symbol} {accepts : Symbol → Bool}

/-- What is written of a text begins with the pattern exactly if the text does. -/
theorem startsWith_flatMap
    (within : ∀ rest, rest <:+ pattern → ∀ symbol more,
      startsWith rest (write symbol ++ more) = startsWith rest (symbol :: more))
    {rest : Pattern Symbol} (part : rest <:+ pattern) (text : List Symbol) :
    startsWith rest (text.flatMap write) = startsWith rest text := by
  induction text generalizing rest with
  | nil => rfl
  | cons symbol text ih =>
      rw [List.flatMap_cons, within rest part]
      cases rest with
      | nil => rfl
      | cons accepts rest =>
          rw [startsWith, startsWith, ih ((List.suffix_cons accepts rest).trans part)]

/-- Behind its first symbol a pattern is met in what is written just where it is met in the text;
its first symbol may be the end of what a symbol is written as. -/
theorem occurs_flatMap
    (within : ∀ rest, rest <:+ pattern → ∀ symbol more,
      startsWith rest (write symbol ++ more) = startsWith rest (symbol :: more))
    (ends : ∀ symbol more, occurs (accepts :: pattern) (write symbol ++ more) =
      occurs (accepts :: pattern) (last symbol :: more)) (text : List Symbol) :
    occurs (accepts :: pattern) (text.flatMap write) =
      occurs ((fun symbol => accepts (last symbol)) :: pattern) text := by
  induction text with
  | nil => rfl
  | cons symbol text ih =>
      rw [List.flatMap_cons, ends, occurs, occurs, ih, startsWith, startsWith,
        startsWith_flatMap within List.suffix_rfl]

end Written

end Pattern

end GmMiner.Lib
