import Mathlib.Data.List.Basic

/-!
What a history shows around each of its events. A history is a list of events,
oldest first, that only grows at its end. `AfterEach mark P` says that whatever
came after any marked event satisfies `P`, and `Justified allows` that what came
before any event allows it; since a history grows one event at a time,
`AfterEach.snoc` and `Justified.snoc` are all an invariant over it needs.
-/

namespace GmMiner.Lib

universe u

variable {Event : Type u} {mark : Event → Prop} {P Q : List Event → Prop}

/-- What comes after each marked event of the history satisfies `P`. -/
def AfterEach (mark : Event → Prop) (P : List Event → Prop) (history : List Event) : Prop :=
  ∀ before event after, history = before ++ event :: after → mark event → P after

theorem AfterEach.nil : AfterEach mark P [] := by
  intro before event after split
  simp at split

/-- A weaker condition still holds after each marked event. -/
theorem AfterEach.mono {history : List Event} (each : AfterEach mark P history)
    (weaker : ∀ after, P after → Q after) : AfterEach mark Q history :=
  fun before event after split marked => weaker after (each before event after split marked)

/-- A place in a history that grew by one event is a place it had before, or the
new event itself. -/
theorem split_snoc {history before after : List Event} {event last : Event}
    (split : history ++ [last] = before ++ event :: after) :
    (∃ rest, after = rest ++ [last] ∧ history = before ++ event :: rest) ∨
      after = [] ∧ event = last ∧ history = before := by
  rcases List.eq_nil_or_concat after with none | ⟨rest, final, concat⟩
  · subst none
    obtain ⟨same, here⟩ := List.append_inj' split rfl
    cases here
    exact .inr ⟨rfl, rfl, same⟩
  · rw [List.concat_eq_append] at concat
    subst concat
    have split' : history ++ [last] = (before ++ event :: rest) ++ [final] := by simpa using split
    obtain ⟨same, here⟩ := List.append_inj' split' rfl
    cases here
    exact .inl ⟨rest, rfl, same⟩

/-- A history grows by one event. -/
theorem AfterEach.snoc {history : List Event} {last : Event} (each : AfterEach mark P history)
    (later : ∀ after, P after → Q (after ++ [last])) (here : mark last → Q []) :
    AfterEach mark Q (history ++ [last]) := by
  intro before event after split marked
  rcases split_snoc split with ⟨rest, rfl, earlier⟩ | ⟨rfl, rfl, -⟩
  · exact later rest (each before event rest earlier marked)
  · exact here marked

/-- A history grows by unmarked events. -/
theorem AfterEach.append {history events : List Event} (each : AfterEach mark P history)
    (grows : ∀ after event, P after → P (after ++ [event]))
    (unmarked : ∀ event ∈ events, ¬ mark event) : AfterEach mark P (history ++ events) := by
  induction events generalizing history with
  | nil => simpa using each
  | cons event rest ih =>
      have one : AfterEach mark P (history ++ [event]) :=
        each.snoc (fun after => grows after event)
          fun marked => absurd marked (unmarked event List.mem_cons_self)
      simpa using ih one fun e mem => unmarked e (List.mem_cons_of_mem _ mem)

/-- What came before each event of the history allows it. -/
def Justified (allows : List Event → Event → Prop) (history : List Event) : Prop :=
  ∀ before event after, history = before ++ event :: after → allows before event

theorem Justified.nil {allows : List Event → Event → Prop} : Justified allows [] := by
  intro before event after split
  simp at split

/-- A history grows by an event that it allows. -/
theorem Justified.snoc {allows : List Event → Event → Prop} {history : List Event} {last : Event}
    (justified : Justified allows history) (here : allows history last) :
    Justified allows (history ++ [last]) := by
  intro before event after split
  rcases split_snoc split with ⟨rest, -, earlier⟩ | ⟨-, rfl, rfl⟩
  · exact justified before event rest earlier
  · exact here

end GmMiner.Lib
