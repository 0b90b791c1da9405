import Mathlib.Data.Finmap

/-!
Unordered finite maps: Mathlib's `Finmap`, and the operations of a hash map it
lacks. `retain` keeps the entries a test accepts, `mapValues` rewrites every
value, `size` counts the entries and `total` adds up a weight of each. A
`Finmap` has no iteration order, and its equality is extensional.
-/

universe u v

namespace Finmap

section Size

variable {K : Type u} {β : K → Type v}

/-- The number of entries. -/
def size (map : Finmap β) : Nat := map.entries.card

/-- Keep the entries that pass a test. -/
def retain (keep : (key : K) → β key → Bool) (map : Finmap β) : Finmap β where
  entries := map.entries.filter fun entry => keep entry.1 entry.2
  nodupKeys := by
    obtain ⟨⟨entries⟩, nodup⟩ := map
    exact List.NodupKeys.sublist List.filter_sublist nodup

@[simp] theorem size_empty : size (∅ : Finmap β) = 0 := rfl

/-- Retaining never adds entries. -/
theorem size_retain_le (keep : (key : K) → β key → Bool) (map : Finmap β) :
    (map.retain keep).size ≤ map.size :=
  Multiset.card_le_card (Multiset.filter_le _ _)

theorem size_eq_card_keys (map : Finmap β) : map.size = map.keys.card := by
  obtain ⟨entries, nodup⟩ := map
  simp [size, Finmap.keys, Multiset.keys]

end Size

section Lookup

variable {K : Type u} {β : K → Type v} [DecidableEq K]

/-- The entries retained are those that pass. -/
theorem lookup_retain_eq_some {keep : (key : K) → β key → Bool} {map : Finmap β} {key : K}
    {value : β key} :
    (map.retain keep).lookup key = some value ↔ map.lookup key = some value ∧ keep key value := by
  have retained := mem_lookup_iff (s := map.retain keep) (a := key) (b := value)
  have stored := mem_lookup_iff (s := map) (a := key) (b := value)
  rw [Option.mem_def] at retained stored
  rw [retained, stored]
  simp [retain]

@[simp] theorem lookup_retain (keep : (key : K) → β key → Bool) (map : Finmap β) (key : K) :
    (map.retain keep).lookup key = (map.lookup key).filter (keep key) := by
  ext value
  rw [lookup_retain_eq_some, Option.filter_eq_some_iff]

/-- A key is retained if its entry passes. -/
theorem mem_retain {keep : (key : K) → β key → Bool} {map : Finmap β} {key : K} :
    key ∈ map.retain keep ↔ ∃ value, map.lookup key = some value ∧ keep key value := by
  simp only [mem_iff, lookup_retain_eq_some]

/-- What is retained was there. -/
theorem mem_of_mem_retain {keep : (key : K) → β key → Bool} {map : Finmap β} {key : K}
    (mem : key ∈ map.retain keep) : key ∈ map := by
  obtain ⟨value, found, _⟩ := mem_retain.mp mem
  exact mem_of_lookup_eq_some found

/-- A new key adds one entry. -/
theorem size_insert_of_notMem {map : Finmap β} {key : K} (value : β key) (absent : key ∉ map) :
    (map.insert key value).size = map.size + 1 := by
  rw [size, entries_insert_of_notMem absent, Multiset.card_cons, size]

/-- A key that was there adds none. -/
theorem size_insert_of_mem {map : Finmap β} {key : K} (value : β key) (present : key ∈ map) :
    (map.insert key value).size = map.size := by
  rw [size_eq_card_keys, size_eq_card_keys]
  congr 1
  ext other
  rw [mem_keys, mem_keys, mem_insert]
  exact ⟨fun h => h.elim (fun same => same ▸ present) id, Or.inr⟩

/-- Erasing a key that was there takes one entry. -/
theorem size_erase_of_mem {map : Finmap β} {key : K} (present : key ∈ map) :
    (map.erase key).size + 1 = map.size := by
  rw [size_eq_card_keys, size_eq_card_keys, keys_erase]
  exact Finset.card_erase_add_one (mem_keys.mpr present)

/-- Erasing never adds entries. -/
theorem size_erase_le (map : Finmap β) (key : K) : (map.erase key).size ≤ map.size := by
  rw [size_eq_card_keys, size_eq_card_keys, keys_erase]
  exact Finset.card_erase_le

end Lookup

section Values

variable {K : Type u} {V : Type v}

/-- An insertion changes the lookup of its own key alone. -/
theorem lookup_insert_eq [DecidableEq K] (map : Finmap fun _ : K => V) (key other : K)
    (value : V) : (map.insert key value).lookup other =
      if other = key then some value else map.lookup other := by
  by_cases same : other = key
  · subst same
    simp
  · simp [same]

/-- Rewrite every value. -/
def mapValues (f : K → V → V) (map : Finmap fun _ : K => V) : Finmap fun _ : K => V where
  entries := map.entries.map fun entry => ⟨entry.1, f entry.1 entry.2⟩
  nodupKeys := by
    obtain ⟨⟨entries⟩, nodup⟩ := map
    have keys : (entries.map fun entry : Sigma fun _ : K => V =>
        (⟨entry.1, f entry.1 entry.2⟩ : Sigma fun _ : K => V)).keys = entries.keys := by
      simp [List.keys]
    exact (congrArg List.Nodup keys).mpr nodup

@[simp] theorem lookup_mapValues [DecidableEq K] (f : K → V → V) (map : Finmap fun _ : K => V)
    (key : K) : (map.mapValues f).lookup key = (map.lookup key).map (f key) := by
  ext value
  have rewritten := mem_lookup_iff (s := map.mapValues f) (a := key) (b := value)
  rw [Option.mem_def] at rewritten
  rw [rewritten, Option.map_eq_some_iff]
  simp only [mapValues, Multiset.mem_map]
  constructor
  · rintro ⟨⟨k, v⟩, mem, same⟩
    cases same
    exact ⟨v, Option.mem_def.mp (mem_lookup_iff.mpr mem), rfl⟩
  · rintro ⟨v, found, rfl⟩
    exact ⟨⟨key, v⟩, mem_lookup_iff.mp (Option.mem_def.mpr found), rfl⟩

end Values

section Total

variable {K : Type u} {V : Type v}

/-- The sum of every entry's weight. -/
def total (weight : K → V → Nat) (map : Finmap fun _ : K => V) : Nat :=
  (map.entries.map fun entry => weight entry.1 entry.2).sum

@[simp] theorem total_empty (weight : K → V → Nat) :
    total weight (∅ : Finmap fun _ : K => V) = 0 := rfl

variable [DecidableEq K] (weight : K → V → Nat) {map : Finmap fun _ : K => V} {key : K}

/-- A new entry adds its weight to the total. -/
theorem total_insert_of_notMem (value : V) (absent : key ∉ map) :
    (map.insert key value).total weight = map.total weight + weight key value := by
  rw [total, entries_insert_of_notMem absent, Multiset.map_cons, Multiset.sum_cons, add_comm,
    total]

/-- Taking an entry out takes its weight out. -/
theorem total_erase {value : V} (found : map.lookup key = some value) :
    (map.erase key).total weight + weight key value = map.total weight := by
  have restored : (map.erase key).insert key value = map := ext_lookup fun other => by
    rw [lookup_insert_eq]
    by_cases same : other = key
    · subst same
      simp [found]
    · simp [same]
  rw [← total_insert_of_notMem weight value notMem_erase_self, restored]

/-- Replacing an entry exchanges the weights. -/
theorem total_insert {value : V} (found : map.lookup key = some value) (other : V) :
    (map.insert key other).total weight + weight key value =
      map.total weight + weight key other := by
  have replaced : map.insert key other = (map.erase key).insert key other :=
    ext_lookup fun at_ => by
      rw [lookup_insert_eq, lookup_insert_eq]
      by_cases same : at_ = key
      · simp [same]
      · simp [same]
  rw [replaced, total_insert_of_notMem weight other notMem_erase_self, add_right_comm,
    total_erase weight found]

/-- The same, where a key that is absent counts as one of no weight. -/
theorem total_insert_getD {absent : V} (weightless : weight key absent = 0) (other : V) :
    (map.insert key other).total weight + weight key ((map.lookup key).getD absent) =
      map.total weight + weight key other := by
  cases found : map.lookup key with
  | none =>
      rw [Option.getD_none, weightless, add_zero]
      exact total_insert_of_notMem weight other (lookup_eq_none.mp found)
  | some value => exact total_insert weight found other

/-- No entry weighs more than the total. -/
theorem le_total {value : V} (found : map.lookup key = some value) :
    weight key value ≤ map.total weight :=
  total_erase weight found ▸ Nat.le_add_left _ _

/-- Two entries weigh no more than the whole map. -/
theorem add_le_total {other : K} (distinct : other ≠ key) {value second : V}
    (found : map.lookup key = some value) (also : map.lookup other = some second) :
    weight key value + weight other second ≤ map.total weight := by
  have rest : (map.erase key).lookup other = some second := (lookup_erase_ne distinct).trans also
  rw [← total_erase weight found, add_comm]
  exact Nat.add_le_add_right (le_total weight rest) _

end Total

end Finmap

namespace GmMiner.Lib

/-- A hash map: keys of one type, values of another, no order. -/
abbrev HashMap (K : Type u) (V : Type v) := Finmap fun _ : K => V

end GmMiner.Lib
