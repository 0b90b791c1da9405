import Mathlib.Data.List.Basic

/-!
Lists of records that are updated in place: a record supersedes all that match it and stands where
the first of them stood; a removal drops the first that matches.
-/

namespace GmMiner.Lib.Records

universe u

variable {α : Type u} (concerns : α → Bool)

/-- Replace what is concerned by a record. -/
def upsert (record : α) (records : List α) : List α :=
  match records.findIdx? concerns with
  | some index =>
      let kept := records.filter fun other => !concerns other
      kept.insertIdx (min index kept.length) record
  | none => records ++ [record]

/-- Drop the first that is concerned. -/
def remove (records : List α) : List α × Option α :=
  match records.findIdx? concerns with
  | some index => (records.eraseIdx index, records[index]?)
  | none => (records, none)

/-- A record stands where the first that is concerned stood, and no other that is concerned is
left. -/
inductive Upserted (record : α) : List α → List α → Prop
  | inPlace {before after : List α} {first : α} (apart : ∀ other ∈ before, concerns other = false)
      (here : concerns first = true) :
      Upserted record (before ++ first :: after)
        (before ++ record :: after.filter fun other => !concerns other)
  | atEnd {records : List α} (apart : ∀ other ∈ records, concerns other = false) :
      Upserted record records (records ++ [record])

/-- The first that is concerned is gone, if there is one. -/
inductive Removed : List α → List α × Option α → Prop
  | first {before after : List α} {dropped : α}
      (apart : ∀ other ∈ before, concerns other = false) (here : concerns dropped = true) :
      Removed (before ++ dropped :: after) (before ++ after, some dropped)
  | absent {records : List α} (apart : ∀ other ∈ records, concerns other = false) :
      Removed records (records, none)

variable {concerns}

/-- The record found divides the list: none before it concerns the key. -/
theorem split_of_findIdx? {records : List α} {index : Nat}
    (found : records.findIdx? concerns = some index) :
    ∃ before first after, records = before ++ first :: after ∧ before.length = index ∧
      (∀ other ∈ before, concerns other = false) ∧ concerns first = true := by
  induction records generalizing index with
  | nil => cases found
  | cons record rest ih =>
      rw [List.findIdx?_cons] at found
      split at found
      · rename_i here
        cases found
        exact ⟨[], record, rest, rfl, rfl, nofun, here⟩
      · rename_i here
        obtain ⟨later, foundLater, rfl⟩ := Option.map_eq_some_iff.mp found
        obtain ⟨before, first, after, rfl, rfl, apart, at_⟩ := ih foundLater
        refine ⟨record :: before, first, after, rfl, rfl, ?_, at_⟩
        intro other mem
        rcases List.mem_cons.mp mem with rfl | mem
        · simpa using here
        · exact apart other mem

/-- An insertion at the length of the first part stands between the parts. -/
theorem insertIdx_after (record : α) (before after : List α) :
    (before ++ after).insertIdx before.length record = before ++ record :: after := by
  induction before with
  | nil => rfl
  | cons first rest ih => rw [List.cons_append, List.length_cons, List.insertIdx_succ_cons, ih,
      List.cons_append]

/-- The computed upsert is one. -/
theorem upserted_upsert (record : α) (records : List α) :
    Upserted concerns record records (upsert concerns record records) := by
  unfold upsert
  split
  · rename_i index found
    obtain ⟨before, first, after, rfl, rfl, apart, here⟩ := split_of_findIdx? found
    have keeps : before.filter (fun other => !concerns other) = before :=
      List.filter_eq_self.mpr fun other mem => by rw [apart other mem]; rfl
    have shape : (before ++ first :: after).filter (fun other => !concerns other) =
        before ++ after.filter fun other => !concerns other := by
      rw [List.filter_append, keeps, List.filter_cons_of_neg (by simp [here])]
    have place : (before ++ after.filter fun other => !concerns other).insertIdx before.length
        record = before ++ record :: after.filter fun other => !concerns other := by
      exact insertIdx_after record before _
    have index : min before.length
        (before ++ after.filter fun other => !concerns other).length = before.length :=
      Nat.min_eq_left (by simp)
    simp only [shape, index, place]
    exact .inPlace apart here
  · rename_i none
    exact .atEnd fun other mem => by simpa using List.findIdx?_eq_none_iff.mp none other mem

/-- The computed removal is one. -/
theorem removed_remove (records : List α) : Removed concerns records (remove concerns records) := by
  unfold remove
  split
  · rename_i index found
    obtain ⟨before, first, after, rfl, rfl, apart, here⟩ := split_of_findIdx? found
    have dropped : (before ++ first :: after).eraseIdx before.length = before ++ after := by
      rw [List.eraseIdx_append_of_length_le (Nat.le_refl _), Nat.sub_self, List.eraseIdx_cons_zero]
    have at_ : (before ++ first :: after)[before.length]? = some first := by
      rw [List.getElem?_append_right (Nat.le_refl _), Nat.sub_self]
      rfl
    rw [dropped, at_]
    exact .first apart here
  · rename_i none
    exact .absent fun other mem => by simpa using List.findIdx?_eq_none_iff.mp none other mem

/-! ### Records apart from each other -/

section Apart

variable {R : α → α → Prop}

/-- Records stay apart if what is not concerned is apart from the new one. -/
theorem Upserted.pairwise {record : α} {records next : List α}
    (upserted : Upserted concerns record records next) (symmetric : ∀ a b, R a b → R b a)
    (free : ∀ other, concerns other = false → R other record) (apart : records.Pairwise R) :
    next.Pairwise R := by
  cases upserted with
  -- The record takes the first place it concerns, and the later ones it concerns go.
  | inPlace unconcerned here =>
      rename_i before after first
      obtain ⟨left, right, across⟩ := List.pairwise_append.mp apart
      have kept : ∀ other ∈ after.filter fun other => !concerns other,
          other ∈ after ∧ concerns other = false := by
        intro other mem
        simpa using List.mem_filter.mp mem
      refine List.pairwise_append.mpr ⟨left, List.pairwise_cons.mpr ⟨?_, ?_⟩, ?_⟩
      · intro other mem
        exact symmetric _ _ (free other (kept other mem).2)
      · exact (List.pairwise_cons.mp right).2.filter _
      · intro one inBefore other mem
        rcases List.mem_cons.mp mem with rfl | mem
        · exact free one (unconcerned one inBefore)
        · exact across one inBefore other (List.mem_cons_of_mem _ (kept other mem).1)
  | atEnd unconcerned =>
      refine List.pairwise_append.mpr ⟨apart, List.pairwise_singleton _ _, ?_⟩
      intro one mem other same
      rw [List.mem_singleton.mp same]
      exact free one (unconcerned one mem)

/-- A removal keeps what holds of every two records. -/
theorem Removed.pairwise {records : List α} {next : List α × Option α}
    (removed : Removed concerns records next) (apart : records.Pairwise R) :
    next.1.Pairwise R := by
  cases removed with
  | first => exact apart.sublist (List.Sublist.append_left (List.sublist_cons_self _ _) _)
  | absent => exact apart

end Apart

/-- The record returned is the one of the key. -/
theorem Removed.concerned {records : List α} {next : List α × Option α}
    (removed : Removed concerns records next) {dropped : α} (returned : next.2 = some dropped) :
    concerns dropped = true := by
  cases removed with
  | first apart here =>
      cases returned
      exact here
  | absent => cases returned

/-- Where no two are concerned, none is left. -/
theorem Removed.none_left {records : List α} {next : List α × Option α}
    (removed : Removed concerns records next)
    (one : records.Pairwise fun a b => concerns a = true → concerns b = false) :
    ∀ other ∈ next.1, concerns other = false := by
  cases removed with
  | first apart here =>
      obtain ⟨-, right, -⟩ := List.pairwise_append.mp one
      intro other mem
      rcases List.mem_append.mp mem with inBefore | inAfter
      · exact apart other inBefore
      · exact (List.pairwise_cons.mp right).1 other inAfter here
  | absent apart => exact apart

end GmMiner.Lib.Records
