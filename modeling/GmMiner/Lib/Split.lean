import GmMiner.Lib.KeyedLines

/-!
Texts cut at a separator: at the first one, at the last one, and at every one (`List.splitOn`).
-/

namespace GmMiner.Lib

open KeyedLines

universe u

variable {α : Type u} [DecidableEq α]

/-- Cut a text at its last separator. -/
def rsplitOnce (separator : α) (text : List α) : Option (List α × List α) :=
  (splitOnce separator text.reverse).map fun parts => (parts.2.reverse, parts.1.reverse)

variable {separator : α}

/-- What stands before the first separator holds none. -/
theorem splitOnce_eq_some {text before after : List α} :
    splitOnce separator text = some (before, after) ↔
      text = before ++ separator :: after ∧ separator ∉ before := by
  constructor
  · intro cut
    unfold splitOnce at cut
    split at cut
    · cases cut
    · rename_i c value rest
      cases cut
      have first : c = separator := by
        have stops := List.head?_dropWhile_not (fun a => decide (a ≠ separator)) text
        rw [rest] at stops
        simpa using stops
      subst first
      refine ⟨?_, fun mem => ?_⟩
      · rw [← rest, List.takeWhile_append_dropWhile]
      · simpa using List.mem_takeWhile_imp mem
  · rintro ⟨rfl, plain⟩
    exact splitOnce_append plain after

/-- There is no split exactly if there is no separator. -/
theorem splitOnce_eq_none {text : List α} : splitOnce separator text = none ↔ separator ∉ text := by
  constructor
  · intro uncut mem
    obtain ⟨before, after, rfl, plain⟩ := List.eq_append_cons_of_mem mem
    rw [splitOnce_append plain] at uncut
    cases uncut
  · intro absent
    cases cut : splitOnce separator text with
    | none => rfl
    | some parts =>
        obtain ⟨rfl, -⟩ := splitOnce_eq_some.mp cut
        exact absurd (List.mem_append_right _ List.mem_cons_self) absent

/-- There is no split from the end exactly if there is no separator. -/
theorem rsplitOnce_eq_none {text : List α} : rsplitOnce separator text = none ↔ separator ∉ text := by
  rw [rsplitOnce, Option.map_eq_none_iff, splitOnce_eq_none, List.mem_reverse]

/-- What stands after the last separator holds none. -/
theorem rsplitOnce_eq_some {text before after : List α} :
    rsplitOnce separator text = some (before, after) ↔
      text = before ++ separator :: after ∧ separator ∉ after := by
  unfold rsplitOnce
  rw [Option.map_eq_some_iff]
  constructor
  · rintro ⟨⟨first, second⟩, cut, same⟩
    obtain ⟨reversed, plain⟩ := splitOnce_eq_some.mp cut
    cases same
    refine ⟨?_, fun mem => plain (List.mem_reverse.mp mem)⟩
    rw [← List.reverse_reverse text, reversed]
    simp
  · rintro ⟨rfl, plain⟩
    refine ⟨(after.reverse, before.reverse), splitOnce_eq_some.mpr ⟨by simp, ?_⟩, by simp⟩
    exact fun mem => plain (List.mem_reverse.mp mem)

end GmMiner.Lib
