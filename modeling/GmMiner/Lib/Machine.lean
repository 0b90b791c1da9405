import Mathlib.Data.List.Basic

/-!
Deterministic transition systems driven by a schedule of events. A schedule is
the only source of nondeterminism: whatever the environment decides (timing,
interleaving, answers of other parties) is carried by the events, so one
schedule replays to one run. `step` answers `none` for an event that is not
enabled. `exec_invariant` is the induction every safety proof over runs uses.
-/

namespace GmMiner.Lib

universe u v

/-- A start state and what each event does to a state, if it is enabled there. -/
structure Machine (State : Type u) (Event : Type v) where
  init : State
  step : State → Event → Option State

namespace Machine

variable {State : Type u} {Event : Type v} (m : Machine State Event)

/-- Execute a schedule from a given state; `none` if some event is not enabled. -/
def exec : State → List Event → Option State
  | state, [] => some state
  | state, event :: rest => (m.step state event).bind fun next => exec next rest

/-- Execute a schedule from the start state. -/
def run (events : List Event) : Option State := m.exec m.init events

/-- The states some schedule reaches. -/
def Reachable (state : State) : Prop := ∃ events, m.run events = some state

@[simp] theorem exec_nil (state : State) : m.exec state [] = some state := rfl

theorem exec_cons (state : State) (event : Event) (rest : List Event) :
    m.exec state (event :: rest) = (m.step state event).bind fun next => m.exec next rest := rfl

/-- A run of one more event is a step and then a run. -/
theorem exec_cons_eq_some {state final : State} {event : Event} {rest : List Event} :
    m.exec state (event :: rest) = some final ↔
      ∃ next, m.step state event = some next ∧ m.exec next rest = some final := by
  rw [exec_cons, Option.bind_eq_some_iff]

/-- A run of two lists of events is a run of the second from where the first
ended. -/
theorem exec_append (state : State) (first second : List Event) :
    m.exec state (first ++ second) = (m.exec state first).bind fun mid => m.exec mid second := by
  induction first generalizing state with
  | nil => rfl
  | cons event rest ih =>
      rw [List.cons_append, exec_cons, exec_cons]
      cases m.step state event with
      | none => rfl
      | some next => exact ih next

/-- A run divides wherever its events do. -/
theorem exec_append_eq_some {state final : State} {first second : List Event} :
    m.exec state (first ++ second) = some final ↔
      ∃ mid, m.exec state first = some mid ∧ m.exec mid second = some final := by
  rw [exec_append, Option.bind_eq_some_iff]

variable {m}

/-- What every enabled event of a schedule preserves, the schedule preserves. -/
theorem exec_invariant_of {P : State → Prop} (allowed : Event → Prop)
    (preserved : ∀ state event next, allowed event → P state → m.step state event = some next →
      P next) {events : List Event} (all : ∀ event ∈ events, allowed event) {state final : State}
    (holds : P state) (exec : m.exec state events = some final) : P final := by
  induction events generalizing state with
  | nil =>
      cases exec
      exact holds
  | cons event rest ih =>
      obtain ⟨next, stepped, exec⟩ := m.exec_cons_eq_some.mp exec
      exact ih (fun e he => all e (List.mem_cons_of_mem _ he))
        (preserved state event next (all event List.mem_cons_self) holds stepped) exec

/-- What every step preserves, a run preserves. -/
theorem exec_invariant {P : State → Prop}
    (preserved : ∀ state event next, P state → m.step state event = some next → P next)
    {events : List Event} {state final : State} (holds : P state)
    (exec : m.exec state events = some final) : P final :=
  exec_invariant_of (fun _ => True) (fun state event next _ => preserved state event next)
    (fun _ _ => trivial) holds exec

/-- The invariant rule: what holds at the start and is kept by every enabled
event holds in every reachable state. -/
theorem Reachable.invariant {P : State → Prop} (start : P m.init)
    (preserved : ∀ state event next, P state → m.step state event = some next → P next)
    {state : State} (reached : m.Reachable state) : P state := by
  obtain ⟨events, run⟩ := reached
  exact exec_invariant preserved start run

theorem Reachable.start : m.Reachable m.init := ⟨[], rfl⟩

/-- A step from a reachable state reaches one. -/
theorem Reachable.next {state next : State} {event : Event} (reached : m.Reachable state)
    (stepped : m.step state event = some next) : m.Reachable next := by
  obtain ⟨events, run⟩ := reached
  exact ⟨events ++ [event], m.exec_append_eq_some.mpr
    ⟨state, run, m.exec_cons_eq_some.mpr ⟨next, stepped, rfl⟩⟩⟩

/-- The invariant rule with what is already known of reachable states. -/
theorem Reachable.invariant_along {P : State → Prop} (start : P m.init)
    (preserved : ∀ state event next, m.Reachable state → P state →
      m.step state event = some next → P next)
    {state : State} (reached : m.Reachable state) : P state :=
  (reached.invariant (P := fun state => m.Reachable state ∧ P state) ⟨Reachable.start, start⟩
    fun state event next known stepped =>
      ⟨known.1.next stepped, preserved state event next known.1 known.2 stepped⟩).2

end Machine

end GmMiner.Lib
