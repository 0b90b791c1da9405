import Mathlib.Data.List.Infix

/-!
The first place of a text where a pattern stands (`str::find`).

In a text that goes on with the pattern after some part, the pattern is found right there if it does
not stand earlier, nor begin in the part and end in the pattern (`findAt_append`).
-/

namespace GmMiner.Lib

universe u

variable {Symbol : Type u} [DecidableEq Symbol]

/-- What stands before the pattern, and the text from there on. -/
def findAt (pattern : List Symbol) : List Symbol → Option (List Symbol × List Symbol)
  | [] => if pattern = [] then some ([], []) else none
  | symbol :: text =>
      if pattern.isPrefixOf (symbol :: text) then some ([], symbol :: text)
      else (findAt pattern text).map fun parts => (symbol :: parts.1, parts.2)

variable {pattern : List Symbol}

/-- A text that begins with the pattern is found at once. -/
theorem findAt_of_starts {text : List Symbol} (here : pattern <+: text) :
    findAt pattern text = some ([], text) := by
  cases text with
  | nil => rw [findAt, if_pos (List.prefix_nil.mp here)]
  | cons symbol text => rw [findAt, if_pos (List.isPrefixOf_iff_prefix.mpr here)]

/-- A symbol where the pattern does not begin is passed over. -/
theorem findAt_cons {symbol : Symbol} {text : List Symbol} (other : ¬ pattern <+: symbol :: text) :
    findAt pattern (symbol :: text) =
      (findAt pattern text).map fun parts => (symbol :: parts.1, parts.2) := by
  rw [findAt, if_neg (mt List.isPrefixOf_iff_prefix.mp other)]

/-- What is found begins with the pattern, and the parts make up the text. -/
theorem findAt_eq_some {text before found : List Symbol}
    (at_ : findAt pattern text = some (before, found)) :
    text = before ++ found ∧ pattern <+: found := by
  induction text generalizing before with
  | nil =>
      rw [findAt] at at_
      split at at_
      · rename_i empty
        cases at_
        exact ⟨rfl, List.prefix_nil.mpr empty⟩
      · cases at_
  | cons symbol text ih =>
      by_cases here : pattern <+: symbol :: text
      · rw [findAt_of_starts here] at at_
        cases at_
        exact ⟨rfl, here⟩
      · rw [findAt_cons here, Option.map_eq_some_iff] at at_
        obtain ⟨⟨first, rest⟩, later, same⟩ := at_
        cases same
        obtain ⟨shape, begins⟩ := ih later
        exact ⟨congrArg (symbol :: ·) shape, begins⟩

/-- Nothing is found exactly if the pattern occurs nowhere. -/
theorem findAt_eq_none_iff (some_ : pattern ≠ []) {text : List Symbol} :
    findAt pattern text = none ↔ ¬ pattern <:+: text := by
  induction text with
  | nil => simp [findAt, some_, List.infix_nil]
  | cons symbol text ih =>
      rw [List.infix_cons_iff, not_or]
      by_cases here : pattern <+: symbol :: text
      · simp [findAt_of_starts here, here]
      · rw [findAt_cons here, Option.map_eq_none_iff, ih]
        exact (and_iff_right here).symm

/-- What stands before the pattern neither holds nor begins it. -/
theorem findAt_clean {text before found : List Symbol}
    (at_ : findAt pattern text = some (before, found)) :
    pattern = [] ∨ ¬ pattern <:+: before ++ pattern.dropLast := by
  by_cases empty : pattern = []
  · exact Or.inl empty
  have short : ¬ pattern <:+: pattern.dropLast := by
    intro inside
    have length := inside.length_le
    rw [List.length_dropLast] at length
    have := List.length_pos_iff.mpr empty
    omega
  right
  induction text generalizing before with
  | nil =>
      rw [findAt, if_neg empty] at at_
      cases at_
  | cons symbol text ih =>
      -- Found here, nothing is in front; found later, it does not begin here either.
      by_cases here : pattern <+: symbol :: text
      · rw [findAt_of_starts here] at at_
        cases at_
        exact short
      · rw [findAt_cons here, Option.map_eq_some_iff] at at_
        obtain ⟨⟨first, rest⟩, later, same⟩ := at_
        cases same
        obtain ⟨shape, begins⟩ := findAt_eq_some later
        rw [List.cons_append, List.infix_cons_iff, not_or]
        refine ⟨fun start => here (start.trans ?_), ih later⟩
        rw [shape, ← List.cons_append, ← List.cons_append]
        exact (List.prefix_append_right_inj _).mpr ((List.dropLast_prefix _).trans begins)

/-- The pattern is found after a part that neither holds nor begins it. -/
theorem findAt_append {part : List Symbol} (clean : ¬ pattern <:+: part ++ pattern.dropLast)
    (rest : List Symbol) :
    findAt pattern (part ++ (pattern ++ rest)) = some (part, pattern ++ rest) := by
  induction part with
  | nil => exact findAt_of_starts (List.prefix_append _ _)
  | cons symbol part ih =>
      obtain ⟨tail, shape⟩ : pattern.dropLast <+: pattern ++ rest :=
        (List.dropLast_prefix pattern).trans (List.prefix_append _ _)
      have other : ¬ pattern <+: symbol :: (part ++ (pattern ++ rest)) := by
        intro here
        refine clean (List.IsPrefix.isInfix (List.prefix_of_prefix_length_le here ?_ ?_))
        · exact ⟨tail, by rw [← shape]; simp⟩
        · simp only [List.cons_append, List.length_cons, List.length_append, List.length_dropLast]
          omega
      have clean' : ¬ pattern <:+: part ++ pattern.dropLast := fun inside =>
        clean (inside.trans (List.suffix_cons _ _).isInfix)
      rw [List.cons_append, findAt_cons other, ih clean']
      rfl

end GmMiner.Lib
