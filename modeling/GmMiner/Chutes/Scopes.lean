import GmMiner.Chutes.Discoveries

/-!
Who holds a chute scope's state cell (`Scope`, `Admissions::scope`, `forget`,
`invalidate`, `ticket` and `retry_ticket` of
`attestd/src/chutes_verify/admission.rs`).

A cell is an `Arc`: the scope map holds one reference, every request that uses
the scope holds its own, and a renewal that upgraded its `Weak` holds one while
it has the cell locked. `scope` runs under the map's mutex but reads reference
counts that other tasks change without it, so it is a sequence of steps here and
the other tasks run between them. An upgrade takes no lock and can fall between
a count being read and the entry being dropped; it is therefore always enabled.

What the requests do under the cell's lock is the subject of other modules; here
a phase says which references a request has and whether it holds the lock.
-/

namespace GmMiner.Chutes

open GmMiner.Lib

def admissionTtl : Duration := Duration.fromSecs (15 * 60)

/-- A chute under one credential. -/
abbrev ChuteScope := Credential × String

/-- Which allocation an `Arc<Mutex<ChuteState>>` points to. -/
abbrev Cell := Nat

structure Scope where
  state : Cell
  lastUsed : Instant
  deriving DecidableEq, Repr

/-- Where a request stands. The references it holds are its own `Arc`s: `waiting`
adds the one inside `lock_owned`, which the owned guard keeps. -/
inductive Phase
  /-- In `scope`, inside `retain`: these entries are still to be looked at. -/
  | sweeping (now : Instant) (todo : Finset ChuteScope)
  /-- In `scope`, about to take the entry or insert one. -/
  | inserting (now : Instant)
  /-- `scope` refused the request. -/
  | refused (error : ChutesError)
  /-- In `ticket`, waiting for the cell's lock. -/
  | waiting (cell : Cell)
  /-- The admission task runs under the guard; `ticket` waits for it. -/
  | admitting (cell : Cell)
  /-- The caller went away; the admission task runs on under its guard. -/
  | detached (cell : Cell)
  /-- The task gave the guard back. -/
  | judged (cell : Cell)
  /-- In `invalidate`, waiting for the cell's lock. -/
  | invalidating (cell : Cell)
  /-- In `invalidate`, resetting the locked state. -/
  | resetting (cell : Cell)
  /-- About to call `forget`, the guard dropped. -/
  | forgetting (cell : Cell)
  /-- `forget` removed the scope; the request's own reference is the last. -/
  | forgot (cell : Cell)
  /-- About to drop its reference. -/
  | leaving (cell : Cell)
  /-- In `retry_ticket`, waiting for the cell's lock. -/
  | retrying (cell : Cell)
  /-- In `retry_ticket`, holding the cell's lock. -/
  | retryLocked (cell : Cell)
  deriving DecidableEq

namespace Phase

/-- The cell the request has a reference to. -/
def cell : Phase → Option Cell
  | sweeping _ _ | inserting _ | refused _ => none
  | waiting cell | admitting cell | detached cell | judged cell | invalidating cell
  | resetting cell | forgetting cell | forgot cell | leaving cell | retrying cell
  | retryLocked cell => some cell

/-- The cell of a request that has not itself removed the scope. -/
def held : Phase → Option Cell
  | forgot _ => none
  | phase => phase.cell

def references : Phase → Nat
  | sweeping _ _ | inserting _ | refused _ => 0
  | waiting _ | admitting _ | judged _ => 2
  | detached _ | invalidating _ | resetting _ | forgetting _ | forgot _ | leaving _ | retrying _
  | retryLocked _ => 1

/-- Whether the request, or its admission task, holds the cell's lock. -/
def locks : Phase → Bool
  | admitting _ | detached _ | judged _ | resetting _ | retryLocked _ => true
  | _ => false

/-- Whether the request holds the mutex of the scope map. -/
def inScope : Phase → Bool
  | sweeping _ _ | inserting _ => true
  | _ => false

/-- Taking the cell's lock. -/
def acquire : Phase → Option Phase
  | waiting cell => some (admitting cell)
  | invalidating cell => some (resetting cell)
  | retrying cell => some (retryLocked cell)
  | _ => none

/-- Whether nothing but dropping its reference, and with it any guard, is left. -/
def ends : Phase → Bool
  | refused _ | leaving _ | forgot _ | detached _ | retrying _ | retryLocked _ => true
  | _ => false

end Phase

/-- What a request does on its own, neither taking a lock nor touching the map. -/
inductive Move
  /-- `SCOPE_WAIT` passed, or the caller went away while it waited. -/
  | giveUp
  /-- The caller went away during admission. -/
  | detach
  | finish
  /-- The admission task failed, dropping its guard. -/
  | crash
  /-- `ticket` returns with the admissions it has, dropping the guard. -/
  | serve
  /-- Nothing cached is left: the guard is dropped before `forget`. -/
  | discard
  deriving DecidableEq, Repr

def Phase.move : Phase → Move → Option Phase
  | .waiting cell, .giveUp => some (.leaving cell)
  | .invalidating cell, .giveUp => some (.leaving cell)
  | .admitting cell, .detach => some (.detached cell)
  | .admitting cell, .finish => some (.judged cell)
  | .admitting cell, .crash => some (.invalidating cell)
  | .judged cell, .serve => some (.leaving cell)
  | .judged cell, .discard => some (.forgetting cell)
  | .resetting cell, .discard => some (.forgetting cell)
  | _, _ => none

structure Request where
  scope : ChuteScope
  phase : Phase
  deriving DecidableEq

namespace Request

def references (request : Request) (cell : Cell) : Nat :=
  if request.phase.cell = some cell then request.phase.references else 0

def lockCount (request : Request) (cell : Cell) : Nat :=
  if request.phase.cell = some cell ∧ request.phase.locks = true then 1 else 0

end Request

/-- A renewal while its `Weak` is upgraded. -/
structure Renewal where
  cell : Cell
  locked : Bool
  deriving DecidableEq, Repr

structure Scopes where
  scopes : HashMap ChuteScope Scope
  nextCell : Cell
  requests : HashMap Nat Request
  renewals : HashMap Nat Renewal
  /-- The request that holds the map's mutex. -/
  scopesLock : Option Nat
  deriving DecidableEq

namespace Scopes

/-- `Arc::strong_count`. -/
def strongCount (state : Scopes) (cell : Cell) : Nat :=
  (state.scopes.total fun _ scope => if scope.state = cell then 1 else 0) +
    (state.requests.total fun _ request => request.references cell) +
    (state.renewals.total fun _ renewal => if renewal.cell = cell then 1 else 0)

/-- `Scope::in_use`: the map holds one reference; any other is in use. -/
def inUse (state : Scopes) (scope : Scope) : Bool := 1 < state.strongCount scope.state

/-- How many hold the cell's lock. -/
def lockCount (state : Scopes) (cell : Cell) : Nat :=
  (state.requests.total fun _ request => request.lockCount cell) +
    (state.renewals.total fun _ renewal =>
      if renewal.cell = cell ∧ renewal.locked = true then 1 else 0)

def setPhase (state : Scopes) (id : Nat) (request : Request) (phase : Phase) : Scopes :=
  { state with requests := state.requests.insert id { request with phase := phase } }

/-- The scopes no request uses. -/
def idle (state : Scopes) : HashMap ChuteScope Scope :=
  state.scopes.retain fun _ scope => !state.inUse scope

/-- Whether no idle scope was used less recently: `min_by_key`, ties in any order. -/
def isOldest (state : Scopes) (scope : Scope) : Bool :=
  (state.idle.retain fun _ other => other.lastUsed < scope.lastUsed).size == 0

def refusal (maxScopes : Nat) : ChutesError :=
  .unavailable ("all " ++ toString maxScopes ++ " admission scopes are in use")

/-- `ticket` is called: `scope` takes the mutex and starts its `retain`. -/
def call (state : Scopes) (id : Nat) (scope : ChuteScope) (now : Instant) : Option Scopes :=
  if state.scopesLock = none ∧ state.requests.lookup id = none then
    some { state with
      requests := state.requests.insert id ⟨scope, .sweeping now state.scopes.keys⟩
      scopesLock := some id }
  else none

/-- `retain` looks at one entry. -/
def sweep (state : Scopes) (id : Nat) (entry : ChuteScope) : Option Scopes :=
  match state.requests.lookup id with
  | some ⟨scope, .sweeping now todo⟩ =>
      match state.scopes.lookup entry with
      | some held =>
          if entry ∈ todo then
            let swept := state.setPhase id ⟨scope, .sweeping now todo⟩
              (.sweeping now (todo.erase entry))
            if state.inUse held ∨ now < held.lastUsed + admissionTtl then some swept
            else some { swept with scopes := state.scopes.erase entry }
          else none
      | none => none
  | _ => none

/-- Room is made for an absent scope by dropping the least recently used idle
one, `victim`; with no idle one the request is refused and the mutex released. -/
def makeRoom (maxScopes : Nat) (state : Scopes) (id : Nat) (victim : Option ChuteScope) :
    Option Scopes :=
  match state.requests.lookup id with
  | some ⟨scope, .sweeping now todo⟩ =>
      let request : Request := ⟨scope, .sweeping now todo⟩
      if todo ≠ ∅ then none
      else if scope ∉ state.scopes ∧ maxScopes ≤ state.scopes.size then
        match victim with
        | some entry =>
            match state.idle.lookup entry with
            | some held =>
                if state.isOldest held then
                  some { state.setPhase id request (.inserting now) with
                    scopes := state.scopes.erase entry }
                else none
            | none => none
        | none =>
            if state.idle.size = 0 then
              some { state.setPhase id request (.refused (refusal maxScopes)) with
                scopesLock := none }
            else none
      else some (state.setPhase id request (.inserting now))
  | _ => none

/-- The end of `scope`: the entry is taken or inserted, marked as used and
cloned; `ticket` then clones the cell again to wait for its lock. -/
def enter (state : Scopes) (id : Nat) : Option Scopes :=
  match state.requests.lookup id with
  | some ⟨scope, .inserting now⟩ =>
      let request : Request := ⟨scope, .inserting now⟩
      match state.scopes.lookup scope with
      | some held =>
          some { state.setPhase id request (.waiting held.state) with
            scopes := state.scopes.insert scope { held with lastUsed := now }
            scopesLock := none }
      | none =>
          some { state.setPhase id request (.waiting state.nextCell) with
            scopes := state.scopes.insert scope ⟨state.nextCell, now⟩
            nextCell := state.nextCell + 1
            scopesLock := none }
  | _ => none

/-- `retry_ticket` clones the cell of a scope that is held, under the mutex. -/
def retry (state : Scopes) (id : Nat) (scope : ChuteScope) : Option Scopes :=
  if state.scopesLock = none ∧ state.requests.lookup id = none then
    match state.scopes.lookup scope with
    | some held => some { state with
        requests := state.requests.insert id ⟨scope, .retrying held.state⟩ }
    | none => some state
  else none

def acquire (state : Scopes) (id : Nat) : Option Scopes :=
  match state.requests.lookup id with
  | some request =>
      match request.phase.acquire, request.phase.cell with
      | some phase, some cell =>
          if state.lockCount cell = 0 then some (state.setPhase id request phase) else none
      | _, _ => none
  | none => none

def move (state : Scopes) (id : Nat) (action : Move) : Option Scopes :=
  match state.requests.lookup id with
  | some request => (request.phase.move action).map (state.setPhase id request)
  | none => none

/-- `Admissions::forget`. -/
def forget (state : Scopes) (id : Nat) : Option Scopes :=
  match state.requests.lookup id with
  | some ⟨scope, .forgetting cell⟩ =>
      let request : Request := ⟨scope, .forgetting cell⟩
      if state.scopesLock ≠ none then none
      else if state.strongCount cell = 2 ∧
          (state.scopes.lookup scope).map Scope.state = some cell then
        some { state.setPhase id request (.forgot cell) with scopes := state.scopes.erase scope }
      else some (state.setPhase id request (.leaving cell))
  | _ => none

/-- A request is over and drops what it still holds. -/
def leave (state : Scopes) (id : Nat) : Option Scopes :=
  match state.requests.lookup id with
  | some request =>
      if request.phase.ends then some { state with requests := state.requests.erase id } else none
  | none => none

def upgrade (state : Scopes) (id : Nat) (cell : Cell) : Option Scopes :=
  if state.renewals.lookup id = none ∧ cell < state.nextCell then
    some { state with renewals := state.renewals.insert id ⟨cell, false⟩ }
  else none

def renewalLock (state : Scopes) (id : Nat) : Option Scopes :=
  match state.renewals.lookup id with
  | some renewal =>
      if state.lockCount renewal.cell = 0 then
        some { state with renewals := state.renewals.insert id ⟨renewal.cell, true⟩ }
      else none
  | none => none

/-- A renewal drops its guard, if it has it, and its reference. -/
def downgrade (state : Scopes) (id : Nat) : Option Scopes :=
  if state.renewals.lookup id = none then none
  else some { state with renewals := state.renewals.erase id }

inductive Event
  | call (id : Nat) (scope : ChuteScope) (now : Instant)
  | sweep (id : Nat) (entry : ChuteScope)
  | makeRoom (id : Nat) (victim : Option ChuteScope)
  | enter (id : Nat)
  | retry (id : Nat) (scope : ChuteScope)
  | acquire (id : Nat)
  | move (id : Nat) (action : Move)
  | forget (id : Nat)
  | leave (id : Nat)
  | upgrade (id : Nat) (cell : Cell)
  | renewalLock (id : Nat)
  | downgrade (id : Nat)
  deriving DecidableEq, Repr

def step (maxScopes : Nat) (state : Scopes) : Event → Option Scopes
  | .call id scope now => state.call id scope now
  | .sweep id entry => state.sweep id entry
  | .makeRoom id victim => state.makeRoom maxScopes id victim
  | .enter id => state.enter id
  | .retry id scope => state.retry id scope
  | .acquire id => state.acquire id
  | .move id action => state.move id action
  | .forget id => state.forget id
  | .leave id => state.leave id
  | .upgrade id cell => state.upgrade id cell
  | .renewalLock id => state.renewalLock id
  | .downgrade id => state.downgrade id

end Scopes

/-- Every interleaving of tickets, retries and renewals over any scopes. -/
def scopesMachine (maxScopes : Nat) : Machine Scopes Scopes.Event where
  init := ⟨∅, 0, ∅, ∅, none⟩
  step := Scopes.step maxScopes

/-! ### What a step can do -/

namespace Scopes

/-- Everything an enabled event can do, with the guards it passed. -/
inductive Does (maxScopes : Nat) (state : Scopes) : Event → Scopes → Prop
  | call {id scope now} (free : state.scopesLock = none)
      (fresh : state.requests.lookup id = none) :
      Does maxScopes state (.call id scope now) { state with
        requests := state.requests.insert id ⟨scope, .sweeping now state.scopes.keys⟩
        scopesLock := some id }
  | sweepKeep {id entry scope now todo}
      (at_ : state.requests.lookup id = some ⟨scope, .sweeping now todo⟩) :
      Does maxScopes state (.sweep id entry)
        (state.setPhase id ⟨scope, .sweeping now todo⟩ (.sweeping now (todo.erase entry)))
  | sweepDrop {id entry scope now todo held}
      (at_ : state.requests.lookup id = some ⟨scope, .sweeping now todo⟩)
      (entered : state.scopes.lookup entry = some held) (unused : state.inUse held = false) :
      Does maxScopes state (.sweep id entry)
        { state.setPhase id ⟨scope, .sweeping now todo⟩ (.sweeping now (todo.erase entry)) with
          scopes := state.scopes.erase entry }
  | evict {id entry scope now todo held}
      (at_ : state.requests.lookup id = some ⟨scope, .sweeping now todo⟩)
      (entered : state.scopes.lookup entry = some held) (unused : state.inUse held = false) :
      Does maxScopes state (.makeRoom id (some entry))
        { state.setPhase id ⟨scope, .sweeping now todo⟩ (.inserting now) with
          scopes := state.scopes.erase entry }
  | refuse {id scope now todo}
      (at_ : state.requests.lookup id = some ⟨scope, .sweeping now todo⟩)
      (full : scope ∉ state.scopes ∧ maxScopes ≤ state.scopes.size)
      (noneIdle : state.idle.size = 0) :
      Does maxScopes state (.makeRoom id none)
        { state.setPhase id ⟨scope, .sweeping now todo⟩ (.refused (refusal maxScopes)) with
          scopesLock := none }
  | room {id victim scope now todo}
      (at_ : state.requests.lookup id = some ⟨scope, .sweeping now todo⟩)
      (room : scope ∈ state.scopes ∨ state.scopes.size < maxScopes) :
      Does maxScopes state (.makeRoom id victim)
        (state.setPhase id ⟨scope, .sweeping now todo⟩ (.inserting now))
  | enter {id scope now cell next}
      (at_ : state.requests.lookup id = some ⟨scope, .inserting now⟩)
      (same : ∀ held, state.scopes.lookup scope = some held → held.state = cell) :
      Does maxScopes state (.enter id)
        { state.setPhase id ⟨scope, .inserting now⟩ (.waiting cell) with
          scopes := state.scopes.insert scope ⟨cell, now⟩
          nextCell := next
          scopesLock := none }
  | retry {id scope held} (free : state.scopesLock = none)
      (fresh : state.requests.lookup id = none)
      (entered : state.scopes.lookup scope = some held) :
      Does maxScopes state (.retry id scope) { state with
        requests := state.requests.insert id ⟨scope, .retrying held.state⟩ }
  | retryNone {id scope} : Does maxScopes state (.retry id scope) state
  | acquire {id request phase cell} (at_ : state.requests.lookup id = some request)
      (took : request.phase.acquire = some phase) (holds : request.phase.cell = some cell)
      (unlocked : state.lockCount cell = 0) :
      Does maxScopes state (.acquire id) (state.setPhase id request phase)
  | move {id action request phase} (at_ : state.requests.lookup id = some request)
      (moved : request.phase.move action = some phase) :
      Does maxScopes state (.move id action) (state.setPhase id request phase)
  | forgetRemove {id scope cell}
      (at_ : state.requests.lookup id = some ⟨scope, .forgetting cell⟩)
      (free : state.scopesLock = none) (alone : state.strongCount cell = 2)
      (named : (state.scopes.lookup scope).map Scope.state = some cell) :
      Does maxScopes state (.forget id)
        { state.setPhase id ⟨scope, .forgetting cell⟩ (.forgot cell) with
          scopes := state.scopes.erase scope }
  | forgetKeep {id scope cell}
      (at_ : state.requests.lookup id = some ⟨scope, .forgetting cell⟩) :
      Does maxScopes state (.forget id)
        (state.setPhase id ⟨scope, .forgetting cell⟩ (.leaving cell))
  | leave {id request} (at_ : state.requests.lookup id = some request) :
      Does maxScopes state (.leave id) { state with requests := state.requests.erase id }
  | upgrade {id cell} (fresh : state.renewals.lookup id = none) :
      Does maxScopes state (.upgrade id cell)
        { state with renewals := state.renewals.insert id ⟨cell, false⟩ }
  | renewalLock {id renewal} (at_ : state.renewals.lookup id = some renewal)
      (unlocked : state.lockCount renewal.cell = 0) :
      Does maxScopes state (.renewalLock id)
        { state with renewals := state.renewals.insert id ⟨renewal.cell, true⟩ }
  | downgrade {id renewal} (at_ : state.renewals.lookup id = some renewal) :
      Does maxScopes state (.downgrade id) { state with renewals := state.renewals.erase id }

theorem idle_lookup {state : Scopes} {entry : ChuteScope} {held : Scope}
    (found : state.idle.lookup entry = some held) :
    state.scopes.lookup entry = some held ∧ state.inUse held = false := by
  obtain ⟨entered, unused⟩ := Finmap.lookup_retain_eq_some.mp found
  exact ⟨entered, by simpa using unused⟩

/-- Whatever a step computes is one of the things it can do. -/
theorem does_of_step {maxScopes : Nat} {state next : Scopes} {event : Event}
    (stepped : step maxScopes state event = some next) : Does maxScopes state event next := by
  cases event with
  | call id scope now =>
      simp only [step, call, Option.ite_none_right_eq_some] at stepped
      obtain ⟨⟨free, fresh⟩, done⟩ := stepped
      cases done
      exact .call free fresh
  | sweep id entry =>
      simp only [step, sweep] at stepped
      split at stepped
      · rename_i scope now todo at_
        split at stepped
        · rename_i held entered
          split at stepped
          · split at stepped
            · cases stepped
              exact .sweepKeep at_
            · rename_i kept
              cases stepped
              exact .sweepDrop at_ entered (by simpa using (not_or.mp kept).1)
          · cases stepped
        · cases stepped
      · cases stepped
  -- Full, the call evicts an idle scope or is refused; otherwise there is room.
  | makeRoom id victim =>
      simp only [step, makeRoom] at stepped
      split at stepped
      · rename_i scope now todo at_
        split at stepped
        · cases stepped
        · split at stepped
          · rename_i full
            split at stepped
            · split at stepped
              · rename_i found
                split at stepped
                · cases stepped
                  obtain ⟨entered, unused⟩ := idle_lookup found
                  exact .evict at_ entered unused
                · cases stepped
              · cases stepped
            · split at stepped
              · rename_i noneIdle
                cases stepped
                exact .refuse at_ full noneIdle
              · cases stepped
          · rename_i notFull
            cases stepped
            refine .room at_ ?_
            rwa [not_and_or, not_not, not_le] at notFull
      · cases stepped
  | enter id =>
      simp only [step, enter] at stepped
      split at stepped
      · rename_i scope now at_
        split at stepped
        · rename_i held entered
          cases stepped
          exact .enter at_ fun other found => by
            rw [entered] at found
            cases found
            rfl
        · rename_i absent
          cases stepped
          exact .enter at_ fun other found => by
            rw [absent] at found
            cases found
      · cases stepped
  | retry id scope =>
      simp only [step, retry, Option.ite_none_right_eq_some] at stepped
      obtain ⟨⟨free, fresh⟩, done⟩ := stepped
      split at done
      · rename_i held entered
        cases done
        exact .retry free fresh entered
      · cases done
        exact .retryNone
  | acquire id =>
      simp only [step, acquire] at stepped
      split at stepped
      · rename_i request at_
        split at stepped
        · rename_i phase cell took holds
          split at stepped
          · rename_i unlocked
            cases stepped
            exact .acquire at_ took holds unlocked
          · cases stepped
        · cases stepped
      · cases stepped
  | move id action =>
      simp only [step, move] at stepped
      split at stepped
      · rename_i request at_
        obtain ⟨phase, moved, rfl⟩ := Option.map_eq_some_iff.mp stepped
        exact .move at_ moved
      · cases stepped
  -- The entry goes only if it is still the cell, and no one else holds it.
  | forget id =>
      simp only [step, forget] at stepped
      split at stepped
      · rename_i scope cell at_
        split at stepped
        · cases stepped
        · rename_i free
          split at stepped
          · rename_i alone
            cases stepped
            exact .forgetRemove at_ (not_not.mp free) alone.1 alone.2
          · cases stepped
            exact .forgetKeep at_
      · cases stepped
  | leave id =>
      simp only [step, leave] at stepped
      split at stepped
      · rename_i request at_
        split at stepped
        · cases stepped
          exact .leave at_
        · cases stepped
      · cases stepped
  | upgrade id cell =>
      simp only [step, upgrade, Option.ite_none_right_eq_some] at stepped
      obtain ⟨⟨fresh, -⟩, done⟩ := stepped
      cases done
      exact .upgrade fresh
  | renewalLock id =>
      simp only [step, renewalLock] at stepped
      split at stepped
      · rename_i renewal at_
        split at stepped
        · rename_i unlocked
          cases stepped
          exact .renewalLock at_ unlocked
        · cases stepped
      · cases stepped
  | downgrade id =>
      simp only [step, downgrade] at stepped
      split at stepped
      · cases stepped
      · rename_i held
        cases stepped
        obtain ⟨renewal, at_⟩ := Option.ne_none_iff_exists'.mp held
        exact .downgrade at_

end Scopes

/-! ### References and removal -/

namespace Phase

theorem references_pos {phase : Phase} {cell : Cell} (has : phase.cell = some cell) :
    0 < phase.references := by
  cases phase with
  | sweeping now todo => cases has
  | inserting now => cases has
  | refused error => cases has
  | waiting | admitting | judged | detached | invalidating | resetting | forgetting | forgot
  | leaving | retrying | retryLocked => simp [references]

theorem cell_of_held {phase : Phase} {cell : Cell} (held : phase.held = some cell) :
    phase.cell = some cell := by
  cases phase with
  | forgot other => cases held
  | sweeping | inserting | refused | waiting | admitting | judged | detached | invalidating
  | resetting | forgetting | leaving | retrying | retryLocked => exact held

theorem locks_move {phase next : Phase} {action : Move} (moved : phase.move action = some next) :
    next.cell = phase.cell ∧ (next.locks = true → phase.locks = true) := by
  unfold move at moved
  split at moved <;> cases moved <;> simp [cell, locks]

theorem cell_acquire {phase next : Phase} (took : phase.acquire = some next) :
    next.cell = phase.cell := by
  cases phase with
  | waiting | invalidating | retrying =>
      cases took
      rfl
  | sweeping | inserting | refused | admitting | judged | detached | resetting | forgetting
  | forgot | leaving | retryLocked => cases took

theorem held_acquire {phase next : Phase} (took : phase.acquire = some next) :
    next.held = phase.held := by
  cases phase with
  | waiting | invalidating | retrying =>
      cases took
      rfl
  | sweeping | inserting | refused | admitting | judged | detached | resetting | forgetting
  | forgot | leaving | retryLocked => cases took

theorem inScope_acquire {phase next : Phase} (took : phase.acquire = some next) :
    next.inScope = false := by
  unfold acquire at took
  split at took <;> cases took <;> rfl

theorem inScope_move {phase next : Phase} {action : Move} (moved : phase.move action = some next) :
    next.inScope = false := by
  unfold move at moved
  split at moved <;> cases moved <;> rfl

theorem held_move {phase next : Phase} {action : Move} (moved : phase.move action = some next) :
    next.held = phase.held := by
  unfold move at moved
  split at moved <;> cases moved <;> rfl

end Phase

namespace Scopes

/-- The map has this cell under this scope. -/
def Names (state : Scopes) (scope : ChuteScope) (cell : Cell) : Prop :=
  ∃ entry, state.scopes.lookup scope = some entry ∧ entry.state = cell

/-- The request holds a reference to this cell of this scope. -/
def References (state : Scopes) (id : Nat) (scope : ChuteScope) (cell : Cell) : Prop :=
  ∃ request, state.requests.lookup id = some request ∧ request.scope = scope ∧
    request.phase.cell = some cell

/-- The request holds a reference to this cell of this scope, and has not itself
removed the scope. -/
def Holds (state : Scopes) (id : Nat) (scope : ChuteScope) (cell : Cell) : Prop :=
  ∃ request, state.requests.lookup id = some request ∧ request.scope = scope ∧
    request.phase.held = some cell

variable {maxScopes : Nat} {state next : Scopes} {event : Event}

/-- A cell in the map has its own count and those of the requests that refer to
it. -/
private theorem references_le_strongCount {id : Nat} {request : Request} {cell : Cell}
    {scope : ChuteScope} (at_ : state.requests.lookup id = some request)
    (named : state.Names scope cell) : 1 + request.references cell ≤ state.strongCount cell := by
  obtain ⟨entry, entered, rfl⟩ := named
  have inMap := Finmap.le_total (fun (_ : ChuteScope) (scope : Scope) =>
    if scope.state = entry.state then 1 else 0) entered
  have inRequests := Finmap.le_total (fun (_ : Nat) (request : Request) =>
    request.references entry.state) at_
  simp only [if_true] at inMap
  unfold strongCount
  omega

/-- What no reference count shows in use, no request has a reference to. -/
theorem unreferenced_of_unused {entry : ChuteScope} {held : Scope}
    (entered : state.scopes.lookup entry = some held) (unused : state.inUse held = false)
    {id : Nat} {request : Request} (at_ : state.requests.lookup id = some request) :
    request.phase.cell ≠ some held.state := by
  intro has
  have count := references_le_strongCount at_ ⟨held, entered, rfl⟩
  have positive := Phase.references_pos has
  simp only [inUse, decide_eq_false_iff_not, not_lt] at unused
  rw [Request.references, if_pos has] at count
  omega

/-- A count of two is the map and the forgetting request itself. -/
theorem unreferenced_of_alone {id other : Nat} {scope : ChuteScope} {cell : Cell}
    (at_ : state.requests.lookup id = some ⟨scope, .forgetting cell⟩)
    (alone : state.strongCount cell = 2) (named : state.Names scope cell) (distinct : other ≠ id)
    {request : Request} (also : state.requests.lookup other = some request) :
    request.phase.cell ≠ some cell := by
  intro has
  obtain ⟨entry, entered, rfl⟩ := named
  have inMap := Finmap.le_total (fun (_ : ChuteScope) (scope : Scope) =>
    if scope.state = entry.state then 1 else 0) entered
  have inRequests := Finmap.add_le_total (fun (_ : Nat) (request : Request) =>
    request.references entry.state) distinct at_ also
  have positive := Phase.references_pos has
  have mine : (⟨scope, .forgetting entry.state⟩ : Request).references entry.state = 1 := by
    simp [Request.references, Phase.cell, Phase.references]
  have theirs : request.references entry.state = request.phase.references := if_pos has
  simp only [if_true] at inMap
  simp only [mine, theirs] at inRequests
  unfold strongCount at alone
  omega

private theorem names_erase {scope entry : ChuteScope} {cell : Cell} (named : state.Names scope cell)
    (kept : scope ≠ entry) (erased : next.scopes = state.scopes.erase entry) :
    next.Names scope cell := by
  obtain ⟨found, entered, same⟩ := named
  exact ⟨found, by rw [erased, Finmap.lookup_erase_ne kept, entered], same⟩

/-- No step takes a scope away from a request that holds it, save that request's
own `forget`. -/
theorem Does.names_kept (does : Does maxScopes state event next) {id : Nat} {scope : ChuteScope}
    {cell : Cell} (holds : state.Holds id scope cell) (named : state.Names scope cell)
    (own : event ≠ .forget id) : next.Names scope cell := by
  obtain ⟨request, at_, rfl, held⟩ := holds
  have has := Phase.cell_of_held held
  cases does with
  | sweepDrop _ entered unused =>
      refine names_erase named (fun same => ?_) rfl
      obtain ⟨found, lookup, rfl⟩ := named
      rw [same, entered] at lookup
      cases lookup
      exact unreferenced_of_unused entered unused at_ has
  | evict _ entered unused =>
      refine names_erase named (fun same => ?_) rfl
      obtain ⟨found, lookup, rfl⟩ := named
      rw [same, entered] at lookup
      cases lookup
      exact unreferenced_of_unused entered unused at_ has
  | forgetRemove forgetting _ alone mapped =>
      rename_i forgetter other gone
      refine names_erase named (fun same => ?_) rfl
      obtain ⟨found, lookup, rfl⟩ := named
      rw [← same, lookup] at mapped
      cases mapped
      refine unreferenced_of_alone forgetting alone ⟨found, same ▸ lookup, rfl⟩ ?_ at_ has
      rintro rfl
      exact own rfl
  | enter entering same =>
      rename_i other now taken nextCell
      obtain ⟨found, lookup, rfl⟩ := named
      by_cases here : request.scope = other
      · subst here
        exact ⟨_, Finmap.lookup_insert _, (same found lookup).symm⟩
      · exact ⟨found, (Finmap.lookup_insert_of_ne _ here).trans lookup, rfl⟩
  | call | sweepKeep | refuse | room | retry | retryNone | acquire | move | forgetKeep | leave
  | upgrade | renewalLock | downgrade => exact named

/-! ### The invariant -/

/-- After a request changed, a holder is that request, or another as before. -/
private theorem holds_insert {mine id : Nat} {new : Request} {scope : ChuteScope} {cell : Cell}
    (holds : next.Holds id scope cell) (inserted : next.requests = state.requests.insert mine new) :
    id = mine ∧ new.scope = scope ∧ new.phase.held = some cell ∨
      id ≠ mine ∧ state.Holds id scope cell := by
  obtain ⟨request, at_, inScope, held⟩ := holds
  rw [inserted, Finmap.lookup_insert_eq] at at_
  by_cases same : id = mine
  · rw [if_pos same] at at_
    cases at_
    exact .inl ⟨same, inScope, held⟩
  · rw [if_neg same] at at_
    exact .inr ⟨same, request, at_, inScope, held⟩

/-- A reference held after a step was held before it, or is to the cell the map
names; a request that keeps its reference through its own `forget` left the map
alone. -/
theorem Does.holds_from (does : Does maxScopes state event next) {id : Nat} {scope : ChuteScope}
    {cell : Cell} (holds : next.Holds id scope cell) :
    state.Holds id scope cell ∧ (event = .forget id → next.scopes = state.scopes) ∨
      next.Names scope cell := by
  cases does with
  | call free fresh =>
      rcases holds_insert holds rfl with ⟨-, -, held⟩ | ⟨-, kept⟩
      · cases held
      · exact .inl ⟨kept, nofun⟩
  | sweepKeep at_ | sweepDrop at_ | evict at_ | refuse at_ | room at_ =>
      rcases holds_insert holds rfl with ⟨-, -, held⟩ | ⟨-, kept⟩
      · cases held
      · exact .inl ⟨kept, nofun⟩
  | enter at_ =>
      rcases holds_insert holds rfl with ⟨-, rfl, held⟩ | ⟨-, kept⟩
      · cases held
        exact .inr ⟨_, Finmap.lookup_insert _, rfl⟩
      · exact .inl ⟨kept, nofun⟩
  | retry free fresh entered =>
      rcases holds_insert holds rfl with ⟨-, rfl, held⟩ | ⟨-, kept⟩
      · cases held
        exact .inr ⟨_, entered, rfl⟩
      · exact .inl ⟨kept, nofun⟩
  | acquire at_ took =>
      rcases holds_insert holds rfl with ⟨rfl, rfl, held⟩ | ⟨-, kept⟩
      · exact .inl ⟨⟨_, at_, rfl, (Phase.held_acquire took).symm.trans held⟩, nofun⟩
      · exact .inl ⟨kept, nofun⟩
  | move at_ moved =>
      rcases holds_insert holds rfl with ⟨rfl, rfl, held⟩ | ⟨-, kept⟩
      · exact .inl ⟨⟨_, at_, rfl, (Phase.held_move moved).symm.trans held⟩, nofun⟩
      · exact .inl ⟨kept, nofun⟩
  -- The forgotten cell is dropped with the entry by the one who held it.
  | forgetRemove at_ =>
      rcases holds_insert holds rfl with ⟨-, -, held⟩ | ⟨other, kept⟩
      · cases held
      · exact .inl ⟨kept, fun own => absurd (Event.forget.inj own).symm other⟩
  | forgetKeep at_ =>
      rcases holds_insert holds rfl with ⟨rfl, rfl, held⟩ | ⟨-, kept⟩
      · exact .inl ⟨⟨_, at_, rfl, held⟩, fun _ => rfl⟩
      · exact .inl ⟨kept, fun _ => rfl⟩
  | leave at_ =>
      rename_i gone request
      obtain ⟨found, lookup, inScope, held⟩ := holds
      refine .inl ⟨⟨found, ?_, inScope, held⟩, nofun⟩
      by_cases same : id = gone
      · subst same
        simp at lookup
      · exact (Finmap.lookup_erase_ne same).symm.trans lookup
  | retryNone | upgrade | renewalLock | downgrade => exact .inl ⟨holds, fun _ => rfl⟩

/-- A request's new phase changes the locks by its own. -/
private theorem lockCount_setPhase {id : Nat} {request : Request} (phase : Phase)
    (at_ : state.requests.lookup id = some request) (cell : Cell) :
    (state.setPhase id request phase).lockCount cell + request.lockCount cell =
      state.lockCount cell + Request.lockCount { request with phase := phase } cell := by
  have replaced := Finmap.total_insert (fun (_ : Nat) (request : Request) =>
    request.lockCount cell) at_ { request with phase := phase }
  unfold lockCount setPhase
  dsimp only
  omega

private theorem lockCount_of_unlocked {request : Request} (unlocked : request.phase.locks = false)
    (cell : Cell) : request.lockCount cell = 0 := by
  simp [Request.lockCount, unlocked]

/-- A step leaves a cell's lock with no more holders than before, unless it takes
a lock nobody held. -/
theorem Does.lockCount_le (does : Does maxScopes state event next) (cell : Cell) :
    next.lockCount cell ≤ max 1 (state.lockCount cell) := by
  -- A request that moves on without taking the lock adds no holder.
  have noMore : ∀ {id request phase}, state.requests.lookup id = some request →
      Request.lockCount { request with phase := phase } cell ≤ request.lockCount cell →
      (state.setPhase id request phase).lockCount cell ≤ max 1 (state.lockCount cell) := by
    intro id request phase at_ fewer
    have replaced := lockCount_setPhase phase at_ cell
    omega
  -- A new request holds no lock.
  have fresh : ∀ {id} {request : Request}, state.requests.lookup id = none →
      request.phase.locks = false → next.requests = state.requests.insert id request →
      next.renewals = state.renewals → next.lockCount cell ≤ max 1 (state.lockCount cell) := by
    intro id request absent unlocked inserted same
    unfold lockCount
    rw [inserted, same, Finmap.total_insert_of_notMem _ _ (Finmap.lookup_eq_none.mp absent),
      lockCount_of_unlocked unlocked, add_zero]
    exact le_max_right _ _
  cases does with
  | call free absent => exact fresh absent rfl rfl rfl
  | retry free absent entered => exact fresh absent rfl rfl rfl
  | sweepKeep at_ | sweepDrop at_ | evict at_ | refuse at_ | room at_ | enter at_ =>
      exact noMore at_ (by simp [Request.lockCount, Phase.locks])
  | forgetRemove at_ | forgetKeep at_ => exact noMore at_ (by simp [Request.lockCount, Phase.locks])
  | move at_ moved =>
      obtain ⟨sameCell, locked⟩ := Phase.locks_move moved
      refine noMore at_ ?_
      unfold Request.lockCount
      split
      · rename_i new
        rw [if_pos ⟨sameCell ▸ new.1, locked new.2⟩]
      · exact Nat.zero_le _
  | acquire at_ took has unlocked =>
      rename_i id request phase taken
      have replaced := lockCount_setPhase phase at_ cell
      have single : Request.lockCount { request with phase := phase } cell ≤ 1 := by
        unfold Request.lockCount
        split <;> omega
      by_cases same : cell = taken
      · subst same
        omega
      · have none_new : Request.lockCount { request with phase := phase } cell = 0 := by
          refine if_neg fun new => same ?_
          exact Option.some.inj (new.1.symm.trans ((Phase.cell_acquire took).trans has))
        omega
  | leave at_ =>
      have erased := Finmap.total_erase (fun (_ : Nat) (request : Request) =>
        request.lockCount cell) at_
      unfold lockCount
      dsimp only
      omega
  | upgrade absent =>
      rename_i id upgraded
      have same := Finmap.total_insert_of_notMem (fun (_ : Nat) (renewal : Renewal) =>
        if renewal.cell = cell ∧ renewal.locked = true then 1 else 0) ⟨upgraded, false⟩
        (Finmap.lookup_eq_none.mp absent)
      simp only [Bool.false_eq_true, and_false, if_false, add_zero] at same
      unfold lockCount
      dsimp only
      rw [same]
      exact le_max_right _ _
  | renewalLock at_ unlocked =>
      rename_i id renewal
      have replaced := Finmap.total_insert (fun (_ : Nat) (renewal : Renewal) =>
        if renewal.cell = cell ∧ renewal.locked = true then 1 else 0) at_ ⟨renewal.cell, true⟩
      simp only [and_true] at replaced
      by_cases same : renewal.cell = cell
      · subst same
        unfold lockCount at unlocked ⊢
        dsimp only
        simp only [if_true, true_and] at replaced
        split at replaced <;> omega
      · simp only [same, false_and, if_false, add_zero] at replaced
        unfold lockCount
        dsimp only
        rw [replaced]
        exact le_max_right _ _
  | downgrade at_ =>
      have erased := Finmap.total_erase (fun (_ : Nat) (renewal : Renewal) =>
        if renewal.cell = cell ∧ renewal.locked = true then 1 else 0) at_
      unfold lockCount
      dsimp only
      omega
  | retryNone => exact le_max_right _ _

/-- What holds at every moment of a run. -/
structure Sound (maxScopes : Nat) (state : Scopes) : Prop where
  named : ∀ id scope cell, state.Holds id scope cell → state.Names scope cell
  bounded : state.scopes.size ≤ maxScopes
  exclusive : ∀ cell, state.lockCount cell ≤ 1
  mutex : ∀ id request, state.requests.lookup id = some request →
    request.phase.inScope = true → state.scopesLock = some id
  room : ∀ id scope now, state.requests.lookup id = some ⟨scope, .inserting now⟩ →
    scope ∈ state.scopes ∨ state.scopes.size < maxScopes

/-- After a request changed, a request found is that one, or another as before. -/
private theorem lookup_insert_cases {mine id : Nat} {new request : Request}
    (inserted : next.requests = state.requests.insert mine new)
    (at_ : next.requests.lookup id = some request) :
    id = mine ∧ request = new ∨ id ≠ mine ∧ state.requests.lookup id = some request := by
  rw [inserted, Finmap.lookup_insert_eq] at at_
  by_cases same : id = mine
  · rw [if_pos same] at at_
    cases at_
    exact .inl ⟨same, rfl⟩
  · rw [if_neg same] at at_
    exact .inr ⟨same, at_⟩

/-- A cell that is held is still the one its scope names. -/
private theorem Sound.named_next (sound : Sound maxScopes state)
    (does : Does maxScopes state event next) {id : Nat} {scope : ChuteScope} {cell : Cell}
    (holds : next.Holds id scope cell) : next.Names scope cell := by
  rcases does.holds_from holds with ⟨before, unchanged⟩ | named
  · have named := sound.named id scope cell before
    by_cases own : event = .forget id
    · obtain ⟨entry, entered, same⟩ := named
      exact ⟨entry, (unchanged own) ▸ entered, same⟩
    · exact does.names_kept before named own
  · exact named

/-- No step takes the scopes past their limit. -/
private theorem Sound.bounded_next (sound : Sound maxScopes state)
    (does : Does maxScopes state event next) : next.scopes.size ≤ maxScopes := by
  cases does with
  | sweepDrop | evict | forgetRemove =>
      exact (Finmap.size_erase_le _ _).trans sound.bounded
  | enter at_ =>
      rename_i id scope now cell nextCell same
      by_cases present : scope ∈ state.scopes
      · exact (Finmap.size_insert_of_mem _ present).le.trans sound.bounded
      · refine (Finmap.size_insert_of_notMem _ present).le.trans ?_
        rcases sound.room id scope now at_ with here | room
        · exact absurd here present
        · exact room
  | call | sweepKeep | refuse | room | retry | retryNone | acquire | move | forgetKeep | leave
  | upgrade | renewalLock | downgrade => exact sound.bounded

private theorem Sound.same_owner (sound : Sound maxScopes state) {id other : Nat}
    {request second : Request} (at_ : state.requests.lookup id = some request)
    (inScope : request.phase.inScope = true) (also : state.requests.lookup other = some second)
    (alsoInScope : second.phase.inScope = true) : id = other :=
  Option.some.inj ((sound.mutex id request at_ inScope).symm.trans
    (sound.mutex other second also alsoInScope))

/-- A request inside the map's lock owns it. -/
private theorem Sound.mutex_next (sound : Sound maxScopes state)
    (does : Does maxScopes state event next) {id : Nat} {request : Request}
    (at_ : next.requests.lookup id = some request) (inScope : request.phase.inScope = true) :
    next.scopesLock = some id := by
  cases does with
  | call free fresh =>
      rcases lookup_insert_cases rfl at_ with ⟨rfl, -⟩ | ⟨-, before⟩
      · rfl
      · cases free.symm.trans (sound.mutex id request before inScope)
  | sweepKeep mine | sweepDrop mine | evict mine | room mine =>
      rcases lookup_insert_cases rfl at_ with ⟨rfl, -⟩ | ⟨-, before⟩
      · exact sound.mutex _ _ mine rfl
      · exact sound.mutex id request before inScope
  -- Refused or entered, the holder leaves the scopes, and nobody else was inside.
  | refuse mine =>
      rcases lookup_insert_cases rfl at_ with ⟨-, rfl⟩ | ⟨other, before⟩
      · cases inScope
      · exact absurd (sound.same_owner before inScope mine rfl) other
  | enter mine =>
      rcases lookup_insert_cases rfl at_ with ⟨-, rfl⟩ | ⟨other, before⟩
      · cases inScope
      · exact absurd (sound.same_owner before inScope mine rfl) other
  | retry | forgetRemove | forgetKeep =>
      rcases lookup_insert_cases rfl at_ with ⟨-, rfl⟩ | ⟨-, before⟩
      · cases inScope
      · exact sound.mutex id request before inScope
  | acquire _ took =>
      rcases lookup_insert_cases rfl at_ with ⟨-, rfl⟩ | ⟨-, before⟩
      · cases (Phase.inScope_acquire took).symm.trans inScope
      · exact sound.mutex id request before inScope
  | move _ moved =>
      rcases lookup_insert_cases rfl at_ with ⟨-, rfl⟩ | ⟨-, before⟩
      · cases (Phase.inScope_move moved).symm.trans inScope
      · exact sound.mutex id request before inScope
  | leave gone =>
      rename_i left found
      by_cases same : id = left
      · subst same
        simp at at_
      · exact sound.mutex id request ((Finmap.lookup_erase_ne same).symm.trans at_) inScope
  | retryNone | upgrade | renewalLock | downgrade => exact sound.mutex id request at_ inScope

/-- Room once made stays until the scope is entered: nobody else changes the map
while its mutex is held. -/
private theorem Sound.room_next (sound : Sound maxScopes state)
    (does : Does maxScopes state event next) {id : Nat} {scope : ChuteScope} {now : Instant}
    (at_ : next.requests.lookup id = some ⟨scope, .inserting now⟩) :
    scope ∈ next.scopes ∨ next.scopes.size < maxScopes := by
  cases does with
  -- One entry less than the bound at most, so there is room for one.
  | evict mine entered =>
      rcases lookup_insert_cases rfl at_ with ⟨-, same⟩ | ⟨other, before⟩
      · have erased := Finmap.size_erase_of_mem (Finmap.mem_of_lookup_eq_some entered)
        have bounded := sound.bounded
        right
        dsimp only
        omega
      · exact absurd (sound.same_owner before rfl mine rfl) other
  | room mine room =>
      rcases lookup_insert_cases rfl at_ with ⟨-, same⟩ | ⟨other, before⟩
      · cases same
        exact room
      · exact absurd (sound.same_owner before rfl mine rfl) other
  | sweepDrop mine | enter mine =>
      rcases lookup_insert_cases rfl at_ with ⟨-, same⟩ | ⟨other, before⟩
      · cases same
      · exact absurd (sound.same_owner before rfl mine rfl) other
  | forgetRemove _ free =>
      rcases lookup_insert_cases rfl at_ with ⟨-, same⟩ | ⟨-, before⟩
      · cases same
      · cases free.symm.trans (sound.mutex id _ before rfl)
  | acquire _ took =>
      rcases lookup_insert_cases rfl at_ with ⟨-, same⟩ | ⟨-, before⟩
      · cases same
        cases Phase.inScope_acquire took
      · exact sound.room id scope now before
  | move _ moved =>
      rcases lookup_insert_cases rfl at_ with ⟨-, same⟩ | ⟨-, before⟩
      · cases same
        cases Phase.inScope_move moved
      · exact sound.room id scope now before
  | call | sweepKeep | refuse | retry | forgetKeep =>
      rcases lookup_insert_cases rfl at_ with ⟨-, same⟩ | ⟨-, before⟩
      · cases same
      · exact sound.room id scope now before
  | leave gone =>
      rename_i left found
      by_cases same : id = left
      · subst same
        simp at at_
      · exact sound.room id scope now ((Finmap.lookup_erase_ne same).symm.trans at_)
  | retryNone | upgrade | renewalLock | downgrade => exact sound.room id scope now at_

/-- Every step keeps the scopes sound. -/
theorem Sound.preserved (sound : Sound maxScopes state)
    (stepped : step maxScopes state event = some next) : Sound maxScopes next := by
  have does := does_of_step stepped
  exact {
    named := fun id scope cell holds => sound.named_next does holds
    bounded := sound.bounded_next does
    exclusive := fun cell => (does.lockCount_le cell).trans (max_le le_rfl (sound.exclusive cell))
    mutex := fun id request at_ inScope => sound.mutex_next does at_ inScope
    room := fun id scope now at_ => sound.room_next does at_ }

/-- Every reachable state is sound. -/
theorem Sound.reachable (reached : (scopesMachine maxScopes).Reachable state) :
    Sound maxScopes state := by
  refine reached.invariant ?_ fun _ _ _ sound stepped => sound.preserved stepped
  exact {
    named := fun id scope cell ⟨_, at_, _⟩ => by simp [scopesMachine] at at_
    bounded := Nat.zero_le _
    exclusive := fun cell => by simp [scopesMachine, lockCount]
    mutex := fun id request at_ => by simp [scopesMachine] at at_
    room := fun id scope now at_ => by simp [scopesMachine] at at_ }

/-- A request that removed its scope only has its reference left to drop. -/
theorem Does.forgot_stays (does : Does maxScopes state event next) {id : Nat} {scope : ChuteScope}
    {cell : Cell} (forgot : state.requests.lookup id = some ⟨scope, .forgot cell⟩) :
    next.requests.lookup id = some ⟨scope, .forgot cell⟩ ∨ next.requests.lookup id = none := by
  have kept : ∀ {mine : Nat} {request new : Request}, state.requests.lookup mine = some request →
      request.phase ≠ .forgot cell → next.requests = state.requests.insert mine new →
      next.requests.lookup id = some ⟨scope, .forgot cell⟩ := by
    intro mine request new at_ busy inserted
    rw [inserted, Finmap.lookup_insert_of_ne _, forgot]
    rintro rfl
    rw [forgot] at at_
    cases at_
    exact busy rfl
  have fresh : ∀ {mine : Nat} {new : Request}, state.requests.lookup mine = none →
      next.requests = state.requests.insert mine new →
      next.requests.lookup id = some ⟨scope, .forgot cell⟩ := by
    intro mine new absent inserted
    rw [inserted, Finmap.lookup_insert_of_ne _, forgot]
    rintro rfl
    cases forgot.symm.trans absent
  cases does with
  | call _ absent | retry _ absent => exact .inl (fresh absent rfl)
  | sweepKeep at_ | sweepDrop at_ | evict at_ | refuse at_ | room at_ | enter at_
  | forgetRemove at_ | forgetKeep at_ => exact .inl (kept at_ (by simp) rfl)
  | acquire at_ took =>
      refine .inl (kept at_ (fun same => ?_) rfl)
      rw [same] at took
      cases took
  | move at_ moved =>
      refine .inl (kept at_ (fun same => ?_) rfl)
      rw [same] at moved
      cases moved
  | leave at_ =>
      rename_i left request
      by_cases same : id = left
      · exact .inr (same ▸ Finmap.lookup_erase _ _)
      · exact .inl ((Finmap.lookup_erase_ne same).trans forgot)
  | retryNone | upgrade | renewalLock | downgrade => exact .inl forgot

/-- Two requests that hold the lock of one scope are one request. -/
private theorem Sound.one_lock (sound : Sound maxScopes state) {first second : Nat}
    {request other : Request} (at_ : state.requests.lookup first = some request)
    (also : state.requests.lookup second = some other) (same : request.scope = other.scope)
    (locked : request.phase.locks = true) (alsoLocked : other.phase.locks = true) :
    first = second := by
  have holds : ∀ {phase : Phase}, phase.locks = true →
      ∃ cell, phase.held = some cell ∧ phase.cell = some cell := by
    intro phase locks
    cases phase with
    | admitting cell | detached cell | judged cell | resetting cell | retryLocked cell =>
        exact ⟨cell, rfl, rfl⟩
    | sweeping | inserting | refused | waiting | invalidating | forgetting | forgot | leaving
    | retrying => cases locks
  obtain ⟨cell, held, has⟩ := holds locked
  obtain ⟨second_cell, alsoHeld, alsoHas⟩ := holds alsoLocked
  obtain ⟨entry, entered, rfl⟩ := sound.named _ _ _ ⟨request, at_, rfl, held⟩
  obtain ⟨again, alsoEntered, rfl⟩ := sound.named _ _ _ ⟨other, also, rfl, alsoHeld⟩
  rw [same, alsoEntered] at entered
  cases entered
  by_contra distinct
  have both := Finmap.add_le_total (fun (_ : Nat) (request : Request) =>
    request.lockCount entry.state) (Ne.symm distinct) at_ also
  have one := sound.exclusive entry.state
  simp only [Request.lockCount, has, alsoHas, locked, alsoLocked, and_self, if_true] at both
  unfold lockCount Request.lockCount at one
  omega

end Scopes

/-- A scope's lock is never split, over every interleaving. Requests that hold a
cell of one scope hold the same cell, and at most one of them has it locked; the
map stays within its limit; no step takes a scope from a request that holds it;
when every scope is in use an absent one is refused and the map left alone. The
one request left out is the one that removed the scope in its own `forget`, and
all it does from then on is drop its reference. -/
theorem scopes_are_never_split {maxScopes : Nat} {state : Scopes}
    (reached : (scopesMachine maxScopes).Reachable state) :
    (∀ first second scope a b, state.Holds first scope a → state.Holds second scope b → a = b) ∧
    (∀ first second request other, state.requests.lookup first = some request →
      state.requests.lookup second = some other → request.scope = other.scope →
      request.phase.locks = true → other.phase.locks = true → first = second) ∧
    state.scopes.size ≤ maxScopes ∧
    (∀ event next, (scopesMachine maxScopes).step state event = some next →
      ∀ id scope cell, state.Holds id scope cell → event ≠ .forget id → next.Names scope cell) ∧
    (∀ id victim next scope now todo,
      state.requests.lookup id = some ⟨scope, .sweeping now todo⟩ →
      scope ∉ state.scopes → maxScopes ≤ state.scopes.size →
      (∀ entry held, state.scopes.lookup entry = some held → state.inUse held = true) →
      (scopesMachine maxScopes).step state (.makeRoom id victim) = some next →
      next.scopes = state.scopes ∧
        next.requests.lookup id = some ⟨scope, .refused (Scopes.refusal maxScopes)⟩) ∧
    (∀ event next, (scopesMachine maxScopes).step state event = some next →
      ∀ id scope cell, state.requests.lookup id = some ⟨scope, .forgot cell⟩ →
      next.requests.lookup id = some ⟨scope, .forgot cell⟩ ∨ next.requests.lookup id = none) := by
  have sound := Scopes.Sound.reachable reached
  refine ⟨?_, ?_, sound.bounded, ?_, ?_, ?_⟩
  · intro first second scope a b holds also
    obtain ⟨entry, entered, rfl⟩ := sound.named _ _ _ holds
    obtain ⟨again, alsoEntered, rfl⟩ := sound.named _ _ _ also
    cases entered.symm.trans alsoEntered
    rfl
  · intro first second request other at_ also same locked alsoLocked
    exact sound.one_lock at_ also same locked alsoLocked
  · intro event next stepped id scope cell holds own
    exact (Scopes.does_of_step stepped).names_kept holds (sound.named _ _ _ holds) own
  · intro id victim next scope now todo at_ absent full used stepped
    have stepped : Scopes.step maxScopes state (.makeRoom id victim) = some next := stepped
    cases Scopes.does_of_step stepped with
    | evict _ entered unused => cases unused.symm.trans (used _ _ entered)
    | refuse mine =>
        cases at_.symm.trans mine
        exact ⟨rfl, Finmap.lookup_insert _⟩
    | room mine room =>
        cases at_.symm.trans mine
        rcases room with present | short
        · exact absurd present absent
        · omega
  · intro event next stepped id scope cell forgot
    exact (Scopes.does_of_step stepped).forgot_stays forgot

/-- A second ticket for a scope waits on the cell the first one holds. -/
theorem scopes_are_never_split_by_second_ticket :
    ∃ state, (scopesMachine 1).run [.call 0 ([7], "kimi-k3") 0, .makeRoom 0 none, .enter 0,
        .acquire 0, .call 1 ([7], "kimi-k3") 1, .sweep 1 ([7], "kimi-k3"), .makeRoom 1 none,
        .enter 1] = some state ∧
      ∀ a b, state.Holds 0 ([7], "kimi-k3") a → state.Holds 1 ([7], "kimi-k3") b → a = b := by
  obtain ⟨state, run⟩ := Option.isSome_iff_exists.mp (show Option.isSome ((scopesMachine 1).run
    [.call 0 ([7], "kimi-k3") 0, .makeRoom 0 none, .enter 0, .acquire 0,
      .call 1 ([7], "kimi-k3") 1, .sweep 1 ([7], "kimi-k3"), .makeRoom 1 none,
      .enter 1]) = true by decide)
  exact ⟨state, run, fun a b => (scopes_are_never_split ⟨_, run⟩).1 0 1 ([7], "kimi-k3") a b⟩

/-- The events after which a request that removed its scope still holds the old
cell while another has a new one. -/
def splitSchedule (scope : ChuteScope) : List Scopes.Event :=
  [.call 0 scope 0, .makeRoom 0 none, .enter 0, .acquire 0, .move 0 .finish, .move 0 .discard,
    .forget 0, .call 1 scope 0, .makeRoom 1 none, .enter 1]

/-- Counting the request that removed the scope, two requests can hold different
cells of one scope. -/
theorem removed_cell_outlives_its_scope :
    ¬ ∀ state, (scopesMachine 1).Reachable state → ∀ first second scope a b,
      state.References first scope a → state.References second scope b → a = b := by
  intro same
  have ran : ((scopesMachine 1).run (splitSchedule ([7], "kimi-k3"))).map
      (fun state => (state.requests.lookup 0, state.requests.lookup 1)) =
      some (some ⟨([7], "kimi-k3"), .forgot 0⟩, some ⟨([7], "kimi-k3"), .waiting 1⟩) := by decide
  obtain ⟨state, run, requests⟩ := Option.map_eq_some_iff.mp ran
  obtain ⟨forgot, waiting⟩ := Prod.mk.inj requests
  exact absurd (same state ⟨_, run⟩ 0 1 ([7], "kimi-k3") 0 1 ⟨_, forgot, rfl, rfl⟩
    ⟨_, waiting, rfl, rfl⟩) (by decide)

end GmMiner.Chutes
