import Mathlib.Init

/-!
Results of fallible steps, `?` by `?`.
-/

namespace GmMiner.Lib

universe u v

variable {Failure : Type u} {A B : Type v}

/-- Two steps succeed when the first does and the second does on what it gives. -/
theorem bind_eq_ok {first : Except Failure A} {next : A → Except Failure B} {result : B} :
    (first >>= next) = .ok result ↔ ∃ given, first = .ok given ∧ next given = .ok result := by
  cases first with
  | error failure =>
      constructor
      · intro failed
        cases failed
      · rintro ⟨given, failed, -⟩
        cases failed
  | ok given =>
      constructor
      · intro succeeded
        exact ⟨given, rfl, succeeded⟩
      · rintro ⟨given', same, succeeded⟩
        cases same
        exact succeeded

/-- `ensure!`: go on if the condition holds. -/
def ensure (condition : Bool) (failure : Failure) : Except Failure PUnit :=
  if condition then .ok .unit else .error failure

@[simp] theorem ensure_eq_ok {condition : Bool} {failure : Failure} {result : PUnit} :
    ensure condition failure = .ok result ↔ condition = true := by
  cases condition <;> simp [ensure]

/-- `Option::context`: nothing is a failure. -/
def required (found : Option A) (failure : Failure) : Except Failure A :=
  match found with
  | some value => .ok value
  | none => .error failure

@[simp] theorem required_eq_ok {found : Option A} {failure : Failure} {value : A} :
    required found failure = .ok value ↔ found = some value := by
  cases found <;> simp [required]

@[simp] theorem mapError_eq_ok {Other : Type u} {result : Except Failure A} {f : Failure → Other}
    {value : A} : result.mapError f = .ok value ↔ result = .ok value := by
  cases result with
  | error failure => exact iff_of_false nofun nofun
  | ok found => exact ⟨fun same => by cases same; rfl, fun same => by cases same; rfl⟩

/-- A check of each member passes when it passes of all. -/
theorem forM_eq_ok {I : Type v} {members : List I} {check : I → Except Failure PUnit} :
    members.forM check = .ok ⟨⟩ ↔ ∀ member ∈ members, check member = .ok ⟨⟩ := by
  induction members with
  | nil => exact ⟨fun _ => nofun, fun _ => rfl⟩
  | cons member rest ih =>
      rw [List.forM, bind_eq_ok, List.forall_mem_cons, ← ih]
      constructor
      · rintro ⟨⟨⟩, both⟩
        exact both
      · exact fun both => ⟨⟨⟩, both⟩

/-- A step that succeeds for each member gives the results of the members, and no others. -/
theorem exists_of_mapM_eq_ok {I : Type v} {members : List I} {step : I → Except Failure A} {results : List A}
    (succeeded : members.mapM step = .ok results) :
    (∀ member ∈ members, ∃ result ∈ results, step member = .ok result) ∧
      ∀ result ∈ results, ∃ member ∈ members, step member = .ok result := by
  induction members generalizing results with
  | nil =>
      cases succeeded
      exact ⟨nofun, nofun⟩
  | cons member rest ih =>
      rw [List.mapM_cons, bind_eq_ok] at succeeded
      obtain ⟨first, own, succeeded⟩ := succeeded
      obtain ⟨later, others, same⟩ := bind_eq_ok.mp succeeded
      cases same
      obtain ⟨each, back⟩ := ih others
      rw [List.forall_mem_cons, List.forall_mem_cons]
      refine ⟨⟨⟨first, .head _, own⟩, fun m mem => ?_⟩, ⟨member, .head _, own⟩, fun r mem => ?_⟩
      · obtain ⟨r, among, given⟩ := each m mem
        exact ⟨r, .tail _ among, given⟩
      · obtain ⟨m, among, given⟩ := back r mem
        exact ⟨m, .tail _ among, given⟩

end GmMiner.Lib
