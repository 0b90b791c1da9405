import Mathlib.Order.Lattice
import Mathlib.Data.List.Basic
import Mathlib.Tactic.Tauto

/-!
Ordered maps as lists of entries, keys strictly increasing. `insert` replaces the
value of a key that is there.
-/

namespace GmMiner.Lib.SortedMap

universe u v

variable {K : Type u} {V : Type v} [LinearOrder K]

/-- The keys of the entries strictly increase. -/
def Sorted (entries : List (K × V)) : Prop :=
  entries.Pairwise fun first second => first.1 < second.1

def insert (key : K) (value : V) : List (K × V) → List (K × V)
  | [] => [(key, value)]
  | (other, held) :: rest =>
      if key < other then (key, value) :: (other, held) :: rest
      else if key = other then (key, value) :: rest
      else (other, held) :: insert key value rest

/-- An entry after an insertion is the new one or an old one. -/
theorem mem_insert {key : K} {value : V} {entries : List (K × V)} {entry : K × V}
    (mem : entry ∈ insert key value entries) : entry = (key, value) ∨ entry ∈ entries := by
  induction entries with
  | nil => exact .inl (List.mem_singleton.mp mem)
  | cons head rest ih =>
      unfold insert at mem
      split at mem
      · exact List.mem_cons.mp mem
      · split at mem
        · exact (List.mem_cons.mp mem).imp_right (List.mem_cons_of_mem _)
        · rcases List.mem_cons.mp mem with here | later
          · exact .inr (List.mem_cons.mpr (.inl here))
          · exact (ih later).imp_right (List.mem_cons_of_mem _)

/-- An insertion keeps the keys in order. -/
theorem Sorted.insert {key : K} {value : V} {entries : List (K × V)} (sorted : Sorted entries) :
    Sorted (insert key value entries) := by
  induction entries with
  | nil => exact List.pairwise_singleton _ _
  | cons head rest ih =>
      obtain ⟨above, sortedRest⟩ := List.pairwise_cons.mp sorted
      unfold SortedMap.insert
      split
      · rename_i below
        refine List.pairwise_cons.mpr ⟨fun entry mem => ?_, sorted⟩
        rcases List.mem_cons.mp mem with rfl | later
        · exact below
        · exact lt_trans below (above entry later)
      · rename_i notBelow
        split
        · rename_i same
          exact List.pairwise_cons.mpr ⟨fun entry mem => same ▸ above entry mem, sortedRest⟩
        · -- Neither below nor the same, so the key is above the head.
          rename_i apart
          refine List.pairwise_cons.mpr ⟨fun entry mem => ?_, ih sortedRest⟩
          rcases mem_insert mem with rfl | later
          · exact lt_of_le_of_ne (not_lt.mp notBelow) (Ne.symm apart)
          · exact above entry later

/-- The keys after an insertion. -/
theorem mem_keys_insert {key other : K} {value : V} {entries : List (K × V)} :
    other ∈ (insert key value entries).map Prod.fst ↔
      other ∈ entries.map Prod.fst ∨ key = other := by
  induction entries with
  | nil => simp [insert, eq_comm]
  | cons head rest ih =>
      unfold insert
      split
      · rw [List.map_cons, List.mem_cons, eq_comm, or_comm]
      · split
        · rename_i same
          rw [List.map_cons, List.map_cons, List.mem_cons, List.mem_cons, same]
          tauto
        · rw [List.map_cons, List.map_cons, List.mem_cons, List.mem_cons, ih]
          tauto

/-- Sorted entries are determined by which entries they are. -/
theorem Sorted.eq_of_perm {entries others : List (K × V)} (sorted : Sorted entries)
    (sortedOthers : Sorted others) (perm : entries.Perm others) : entries = others :=
  List.Perm.eq_of_pairwise
    (fun _ _ _ _ below above => absurd (lt_trans below above) (lt_irrefl _)) sorted sortedOthers perm

variable [BEq K] [LawfulBEq K]

theorem lookup_cons (key other : K) (value : V) (rest : List (K × V)) :
    ((key, value) :: rest).lookup other = if other = key then some value else rest.lookup other := by
  by_cases here : other = key
  · rw [if_pos here, here, List.lookup_cons_self]
  · rw [if_neg here, List.lookup_cons, beq_false_of_ne here]

/-- An insertion changes the lookup of its own key alone. -/
theorem lookup_insert (key other : K) (value : V) (entries : List (K × V)) :
    (insert key value entries).lookup other =
      if other = key then some value else entries.lookup other := by
  induction entries with
  | nil => exact lookup_cons key other value []
  | cons head rest ih =>
      unfold insert
      split
      · exact lookup_cons key other value _
      · split
        · rename_i same
          rw [lookup_cons, lookup_cons]
          by_cases here : other = key
          · rw [if_pos here, if_pos here]
          · rw [if_neg here, if_neg here, if_neg fun at_ => here (at_.trans same.symm)]
        · rename_i apart
          rw [lookup_cons, lookup_cons, ih]
          by_cases here : other = key
          · rw [if_pos here, if_pos here, if_neg fun at_ => apart (here.symm.trans at_)]
          · rw [if_neg here, if_neg here]

end GmMiner.Lib.SortedMap
