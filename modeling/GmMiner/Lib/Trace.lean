import Mathlib.Init

/-!
Fallible computations that log the actions they do. A run is its actions, in order, and the
way it ended: the actions before a failure stay done.
-/

namespace GmMiner.Lib

universe u v w

structure Trace (Action : Type u) (Failure : Type v) (A : Type w) where
  actions : List Action
  outcome : Except Failure A
  deriving Repr

namespace Trace

variable {Action : Type u} {Failure : Type v} {A B : Type w}

/-- A step that does nothing outside. -/
def ofResult (result : Except Failure A) : Trace Action Failure A := ⟨[], result⟩

/-- Do an action. -/
def perform (action : Action) : Trace Action Failure PUnit := ⟨[action], .ok ⟨⟩⟩

/-- The next step runs only if the first succeeded. -/
protected def bind (first : Trace Action Failure A) (next : A → Trace Action Failure B) :
    Trace Action Failure B :=
  match first.outcome with
  | .error failure => ⟨first.actions, .error failure⟩
  | .ok given => ⟨first.actions ++ (next given).actions, (next given).outcome⟩

instance : Monad (Trace Action Failure) where
  pure value := ofResult (.ok value)
  bind := Trace.bind

variable {first : Trace Action Failure A} {next : A → Trace Action Failure B}
variable {action : Action}

@[simp] theorem actions_ofResult (result : Except Failure A) :
    (ofResult result : Trace Action Failure A).actions = [] := rfl

@[simp] theorem outcome_ofResult (result : Except Failure A) :
    (ofResult result : Trace Action Failure A).outcome = result := rfl

@[simp] theorem actions_pure (value : A) :
    (pure value : Trace Action Failure A).actions = [] := rfl

@[simp] theorem outcome_pure (value : A) :
    (pure value : Trace Action Failure A).outcome = .ok value := rfl

@[simp] theorem actions_perform (action : Action) :
    (perform action : Trace Action Failure PUnit).actions = [action] := rfl

@[simp] theorem outcome_perform (action : Action) :
    (perform action : Trace Action Failure PUnit).outcome = .ok ⟨⟩ := rfl

/-- A failure ends the computation with the actions it took. -/
theorem bind_of_error {failure : Failure} (failed : first.outcome = .error failure) :
    first >>= next = ⟨first.actions, .error failure⟩ := by
  change first.bind next = _
  unfold Trace.bind
  rw [failed]

/-- After a success the computation goes on, behind the actions taken. -/
theorem bind_of_ok {given : A} (succeeded : first.outcome = .ok given) :
    first >>= next = ⟨first.actions ++ (next given).actions, (next given).outcome⟩ := by
  change first.bind next = _
  unfold Trace.bind
  rw [succeeded]

/-- An action of a sequence is one of the first step, or one of the next after the first
succeeded. -/
theorem mem_bind : action ∈ (first >>= next).actions ↔
    action ∈ first.actions ∨
      ∃ given, first.outcome = .ok given ∧ action ∈ (next given).actions := by
  cases ended : first.outcome with
  | error failure =>
      rw [bind_of_error ended]
      exact ⟨.inl, fun | .inl mem => mem | .inr ⟨_, succeeded, _⟩ => nomatch succeeded⟩
  | ok given =>
      rw [bind_of_ok ended, List.mem_append]
      refine or_congr_right ⟨fun mem => ⟨given, rfl, mem⟩, ?_⟩
      rintro ⟨given', same, mem⟩
      cases same
      exact mem

/-- A step without actions only decides whether and with what the next runs. -/
theorem mem_ofResult_bind {result : Except Failure A} :
    action ∈ (ofResult result >>= next).actions ↔
      ∃ given, result = .ok given ∧ action ∈ (next given).actions := by
  rw [mem_bind, actions_ofResult, outcome_ofResult]
  exact ⟨fun | .inr found => found | .inl mem => absurd mem List.not_mem_nil, .inr⟩

/-- Two computations succeed if the first does and then the second. -/
theorem outcome_bind_ok {result : B} : (first >>= next).outcome = .ok result ↔
    ∃ given, first.outcome = .ok given ∧ (next given).outcome = .ok result := by
  cases ended : first.outcome with
  | error failure =>
      rw [bind_of_error ended]
      exact ⟨nofun, fun ⟨_, succeeded, _⟩ => nomatch succeeded⟩
  | ok given =>
      rw [bind_of_ok ended]
      refine ⟨fun succeeded => ⟨given, rfl, succeeded⟩, ?_⟩
      rintro ⟨given', same, succeeded⟩
      cases same
      exact succeeded

/-! ### What comes before what -/

/-- Every action of one kind comes after one of another. -/
def Precedes (earlier later : Action → Prop) (actions : List Action) : Prop :=
  ∀ before action rest, actions = before ++ action :: rest → later action →
    ∃ done ∈ before, earlier done

variable {earlier later : Action → Prop}

theorem precedes_of_none {actions : List Action} (none_ : ∀ action ∈ actions, ¬ later action) :
    Precedes earlier later actions := fun before action _ split is =>
  absurd is (none_ action (split ▸ List.mem_append_right before List.mem_cons_self))

/-- What holds of two parts holds of the whole. -/
theorem Precedes.append {actions more : List Action} (left : Precedes earlier later actions)
    (right : Precedes earlier later more) : Precedes earlier later (actions ++ more) := by
  intro before action after split is
  rcases List.append_eq_append_iff.mp split with ⟨rest, rfl, split'⟩ | ⟨rest, same, split'⟩
  · obtain ⟨done, mem, was⟩ := right rest action after split' is
    exact ⟨done, List.mem_append_right _ mem, was⟩
  · cases rest with
    | nil =>
        obtain ⟨done, mem, -⟩ := right [] action after split'.symm is
        exact absurd mem List.not_mem_nil
    | cons head rest =>
        obtain ⟨rfl, -⟩ := List.cons.inj split'
        exact left before action rest same is

/-- After one of the earlier kind, anything may come. -/
theorem precedes_of_mem {actions more : List Action} {done : Action} (mem : done ∈ actions)
    (was : earlier done) (left : Precedes earlier later actions) :
    Precedes earlier later (actions ++ more) := by
  intro before action after split is
  rcases List.append_eq_append_iff.mp split with ⟨rest, rfl, -⟩ | ⟨rest, same, split'⟩
  · exact ⟨done, List.mem_append_left _ mem, was⟩
  · cases rest with
    | nil =>
        rw [List.append_nil] at same
        exact ⟨done, same ▸ mem, was⟩
    | cons head rest =>
        obtain ⟨rfl, -⟩ := List.cons.inj split'
        exact left before action rest same is

/-- The order of two computations in a row: of the first, then of the second if
the first succeeds. -/
theorem Precedes.bind (left : Precedes earlier later first.actions)
    (right : ∀ given, first.outcome = .ok given → Precedes earlier later (next given).actions) :
    Precedes earlier later (first >>= next).actions := by
  cases ended : first.outcome with
  | error failure =>
      rw [bind_of_error ended]
      exact left
  | ok given =>
      rw [bind_of_ok ended]
      exact left.append (right given ended)

/-- A step without actions. -/
theorem precedes_ofResult_bind {result : Except Failure A}
    (right : ∀ given, result = .ok given → Precedes earlier later (next given).actions) :
    Precedes earlier later (ofResult result >>= next).actions :=
  Precedes.bind (precedes_of_none fun _ mem => absurd mem List.not_mem_nil) right

variable {later' : PUnit → Trace Action Failure B}

/-- Behind one of the earlier kind, anything may come. -/
theorem precedes_perform_bind (was : earlier action) (isnt : ¬ later action) :
    Precedes earlier later (perform action >>= later').actions := by
  rw [bind_of_ok (outcome_perform action)]
  exact precedes_of_mem (List.mem_singleton_self action) was
    (precedes_of_none fun _ mem => List.mem_singleton.mp mem ▸ isnt)

end Trace

end GmMiner.Lib
