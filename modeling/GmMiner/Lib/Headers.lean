import Mathlib.Data.List.Basic
import Mathlib.Data.String.Basic

/-!
A multimap of HTTP fields: names in lower case, with the values of a name in their order. Fields
are read joined or one by one, removed by name, and added at the end.
-/

namespace GmMiner.Lib

/-- Name and value of each field. -/
abbrev Headers := List (String × String)

namespace Headers

/-- The values of a name. -/
def values (headers : Headers) (name : String) : List String :=
  (headers.filter fun field => field.1 == name).map Prod.snd

/-- Several values as one list of them, as a field that comes repeatedly is read. -/
def join : List String → Option String
  | [] => none
  | values => some (",".intercalate values)

/-- The values of a name as one. -/
def get (headers : Headers) (name : String) : Option String := join (headers.values name)

/-- The fields whose name passes a test. -/
def keep (test : String → Bool) (headers : Headers) : Headers :=
  headers.filter fun field => test field.1

def remove (headers : Headers) (name : String) : Headers := headers.keep (· != name)

/-- Every field of some names goes. -/
def removeAll (headers : Headers) (names : List String) : Headers :=
  headers.keep fun name => !names.contains name

def add (headers : Headers) (name value : String) : Headers := headers ++ [(name, value)]

/-- One value in the place of those that are there. -/
def set (headers : Headers) (name value : String) : Headers := (headers.remove name).add name value

variable {headers : Headers} {name other value : String} {test : String → Bool}

/-- Keeping the names that pass keeps all of their values, and none of the
others'. -/
theorem values_keep : (headers.keep test).values name =
    if test name then headers.values name else [] := by
  unfold keep values
  rw [List.filter_filter]
  cases passes : test name with
  | true =>
      rw [if_pos rfl]
      refine congrArg (List.map Prod.snd) (List.filter_congr fun field _ => ?_)
      by_cases same : field.1 = name
      · rw [same, passes, Bool.and_true]
      · rw [beq_eq_false_iff_ne.mpr same, Bool.false_and]
  | false =>
      rw [if_neg Bool.false_ne_true]
      refine List.map_eq_nil_iff.mpr (List.filter_eq_nil_iff.mpr fun field _ both => ?_)
      rw [Bool.and_eq_true, beq_iff_eq] at both
      rw [both.1, passes] at both
      exact absurd both.2 Bool.false_ne_true

/-- Removing a name takes all of its values and no other's. -/
theorem values_remove : (headers.remove name).values other =
    if other = name then [] else headers.values other := by
  unfold remove
  rw [values_keep]
  by_cases same : other = name <;> simp [same]

/-- Removing a name leaves nothing to get under it, and every other as it was. -/
theorem get_remove : (headers.remove name).get other =
    if other = name then none else headers.get other := by
  unfold get
  rw [values_remove]
  split <;> rfl

@[simp] theorem get_remove_self : (headers.remove name).get name = none := by
  rw [get_remove, if_pos rfl]

theorem get_remove_of_ne (apart : other ≠ name) :
    (headers.remove name).get other = headers.get other := by
  rw [get_remove, if_neg apart]

/-- Removing a list of names takes the values of each. -/
theorem values_removeAll {names : List String} : (headers.removeAll names).values name =
    if name ∈ names then [] else headers.values name := by
  unfold removeAll
  rw [values_keep]
  by_cases mem : name ∈ names <;> simp [mem]

/-- Nothing is left to get under a name of the list. -/
theorem get_removeAll {names : List String} : (headers.removeAll names).get name =
    if name ∈ names then none else headers.get name := by
  unfold get
  rw [values_removeAll]
  split <;> rfl

/-- Adding a field appends its value to those of the name. -/
theorem values_add : (headers.add name value).values other =
    headers.values other ++ if other = name then [value] else [] := by
  unfold add values
  rw [List.filter_append, List.map_append]
  refine congrArg (_ ++ ·) ?_
  by_cases same : other = name
  · simp [same]
  · simp [same, Ne.symm same]

/-- A field added under one name is not got under another. -/
theorem get_add_of_ne (apart : other ≠ name) :
    (headers.add name value).get other = headers.get other := by
  unfold get
  rw [values_add, if_neg apart, List.append_nil]

/-- The values of two maps, one after the other. -/
theorem values_append {more : Headers} :
    Headers.values (headers ++ more) name = headers.values name ++ more.values name := by
  unfold values
  rw [List.filter_append, List.map_append]

theorem values_cons {field : String × String} : Headers.values (field :: headers) name =
    if field.1 = name then field.2 :: headers.values name else headers.values name := by
  unfold values
  by_cases same : field.1 = name <;> simp [same]

@[simp] theorem values_nil : Headers.values [] name = [] := rfl

/-- A name with one value is got as that value. -/
theorem get_of_values (only : headers.values name = [value]) : headers.get name = some value := by
  unfold get
  rw [only]
  exact congrArg some String.intercalate_singleton

/-- A value without a comma is the only one of its name. -/
theorem values_of_get (found : headers.get name = some value) (single : ',' ∉ value.toList) :
    headers.values name = [value] := by
  unfold get at found
  cases listed : headers.values name with
  | nil =>
      rw [listed] at found
      cases found
  | cons first rest =>
      rw [listed] at found
      have joined := Option.some.inj found
      cases rest with
      | nil =>
          rw [String.intercalate_singleton] at joined
          rw [joined]
      | cons second rest =>
          rw [String.intercalate_cons_cons] at joined
          refine absurd ?_ single
          rw [← joined, String.toList_append, String.toList_append]
          exact List.mem_append_left _ (List.mem_append_right _ List.mem_cons_self)

end Headers

end GmMiner.Lib
