import GmMiner.Chutes.ChuteState
import Mathlib.Data.Multiset.Lattice
import Mathlib.Order.Lattice.Nat

/-!
Runs of the admission cache (`Issuer::issue`, `ticket`, `retry_ticket`,
`keep_warm`, `renew_while_warm` and `invalidate` of
`attestd/src/chutes_verify/admission.rs`).

A cell is a chute's state with what the holder of its lock is doing and the
renewals spawned for it. Every act takes one reading of the clock, and acts of
all cells interleave at non-decreasing readings; acts on a locked state are the
lock holder's, so nothing else touches the state between its acts. What the
budgets decide, what Chutes answers and how long anything takes is up to the
schedule. Cells are created and dropped at any time nobody has them locked,
whatever their scope.

The log keeps what happened, oldest first: evidence calls begun, batches
recorded, pools refilled and tickets issued.
-/

namespace GmMiner.Chutes

open GmMiner.Lib

/-- What one `issue` has spent. -/
structure Tries where
  discoveries : Nat
  admissions : Nat
  /-- Instances Chutes served no evidence for in this request. -/
  unevidenced : List String
  deriving DecidableEq, Repr

/-- An evidence call: the anchor its deadlines count from, the wall time read
then, and the instances asked for. -/
structure Batch where
  id : Nat
  anchor : Instant
  anchorWall : Duration
  instances : List DiscoveredInstance
  deriving DecidableEq, Repr

/-- What the holder of the cell's lock is about to do, or waits for. -/
inductive Holder
  | issuing (tries : Tries)
  | pruned (checked : Instant) (tries : Tries)
  | charging (instances : List DiscoveredInstance) (tries : Tries)
  | admitting (batch : Batch) (tries : Tries)
  | claiming (tries : Tries)
  | discovering (asked : Instant) (tries : Tries)
  | retrying (avoid : List String)
  | retryPruned (checked : Instant) (avoid : List String)
  /-- A ticket was issued; `ticket`, not `retry_ticket`, goes on to `keep_warm`. -/
  | served (keepWarm : Bool)
  deriving DecidableEq, Repr

/-- Where a renewal task stands. -/
inductive RenewalPhase
  | waiting (planned : Option Instant)
  /-- It has let the lock go and is about to call `admit`. -/
  | armed (since : Nat) (due : List DiscoveredInstance)
  | fetching (since : Nat) (batch : Batch)
  deriving DecidableEq, Repr

structure ScopeCell where
  scope : ChuteScope
  state : ChuteState
  holder : Option Holder
  renewals : HashMap Nat RenewalPhase
  deriving DecidableEq

/-- An issued ticket: `checked` is the instant its deadlines were compared with,
`at_` the ledger's reading, `validUntil` what the ledger recorded. -/
structure Issue where
  chuteId : String
  ticket : Ticket
  checked : Instant
  at_ : Instant
  validUntil : Instant
  deriving DecidableEq, Repr

inductive Entry
  | started (cell : Cell) (batch : Nat)
  | recorded (cell : Cell) (batch : Batch) (judged : List (DiscoveredInstance × Answer))
  | refilled (cell : Cell) (discovery : Discovery) (asked received : Instant)
  | issued (cell : Cell) (issue : Issue)
  deriving DecidableEq

def Entry.cell : Entry → Cell
  | started cell _ | recorded cell _ _ | refilled cell _ _ _ | issued cell _ => cell

/-- What can be done to a cell. -/
inductive Act
  /-- `ticket` locks the cell. -/
  | lock
  /-- `retry_ticket` locks the cell. -/
  | retryLock (avoid : List String)
  | prune
  | take
  /-- The charge was granted: `admit` is called and reads the wall clock `lag` later. -/
  | askEvidence (lag : Duration)
  | answerEvidence (answers : List Answer)
  | askDiscovery
  | answerDiscovery (discovery : Discovery)
  /-- The holder gives up: a refused charge, a failed call, a crash, a caller gone. -/
  | release
  | serve
  /-- A renewal's locked section, up to its evidence call. -/
  | renew (id : Nat) (jitter : Duration) (blocked : Option Instant) (granted : Bool)
      (due : List InstanceKey)
  | renewAsk (id : Nat) (lag : Duration)
  | renewAnswer (id : Nat) (answers : List Answer)
  | renewFail (id : Nat)
  /-- A renewal task ends without its cell: aborted, or crashed. -/
  | renewStop (id : Nat)
  | invalidate
  deriving DecidableEq

/-- What an act is given besides the cell: the cell's name, a fresh number, the
wall time of the clock's origin, the ledger and the reading. -/
structure Surroundings where
  cell : Cell
  fresh : Nat
  epoch : Duration
  capacity : Nat
  ledger : NonceLedger
  now : Instant

/-- The wall and the monotonic clock advance together. -/
def Surroundings.wall (around : Surroundings) (at_ : Instant) : Duration := around.epoch + at_

/-- What an act leaves: the cell, the ledger and what it adds to the log. -/
structure Done where
  cell : ScopeCell
  ledger : NonceLedger
  entries : List Entry

namespace ChuteState

/-- `admitted.values().min()`; `⊤` when nothing is admitted. -/
def earliest (state : ChuteState) : WithTop Instant :=
  (state.admitted.entries.map fun entry => WithTop.some entry.2).inf

end ChuteState

namespace ScopeCell

def setHolder (cell : ScopeCell) (holder : Option Holder) : ScopeCell :=
  { cell with holder := holder }

/-- The branches of `issue` when no ticket could be taken. -/
def whenNoTicket (state : ChuteState) (tries : Tries) : Option Holder :=
  let unjudged := state.unjudged.filter fun inst => !tries.unevidenced.contains inst.instanceId
  let mayDiscover := tries.discoveries == 0 || state.pool.isEmpty
  if !unjudged.isEmpty && decide (tries.admissions < maxAdmissionsPerRequest) then
    some (.charging unjudged { tries with admissions := tries.admissions + 1 })
  else if mayDiscover && decide (tries.discoveries < maxDiscoveriesPerRequest) then
    some (.claiming { tries with discoveries := tries.discoveries + 1 })
  else none

/-- The end of a locked section that took a ticket, or tried to. -/
def taken (around : Surroundings) (cell : ScopeCell) (checked : Instant) (avoid : List String)
    (keepWarm : Bool) (otherwise : ChuteState → Option Holder) : Option Done :=
  let chuteId := cell.scope.2
  let out := cell.state.takeTicket around.capacity around.ledger chuteId avoid around.now
  match out.1 with
  | .ok (some ticket) =>
      some ⟨{ cell with state := out.2.1, holder := some (.served keepWarm) }, out.2.2,
        [.issued around.cell
          ⟨chuteId, ticket, checked, around.now, cell.state.validUntil.getD 0⟩]⟩
  | .ok none => some ⟨{ cell with state := out.2.1, holder := otherwise out.2.1 }, out.2.2, []⟩
  | .error _ => some ⟨{ cell with state := out.2.1, holder := none }, out.2.2, []⟩

/-- What a locked act does, given the holder. -/
def held (around : Surroundings) (cell : ScopeCell) : Holder → Act → Option Done
  | .issuing tries, .prune =>
      some ⟨{ cell with
        state := cell.state.prune around.now, holder := some (.pruned around.now tries) },
        around.ledger, []⟩
  | .retrying avoid, .prune =>
      some ⟨{ cell with
        state := cell.state.prune around.now, holder := some (.retryPruned around.now avoid) },
        around.ledger, []⟩
  | .pruned checked tries, .take =>
      cell.taken around checked [] true fun state => whenNoTicket state tries
  | .retryPruned checked avoid, .take => cell.taken around checked avoid false fun _ => none
  | .charging instances tries, .askEvidence lag =>
      let batch : Batch :=
        ⟨around.fresh, around.now, around.wall (around.now + lag), instances⟩
      some ⟨cell.setHolder (some (.admitting batch tries)), around.ledger,
        [.started around.cell batch.id]⟩
  | .admitting batch tries, .answerEvidence answers =>
      if answers.length = batch.instances.length then
        let judged := batch.instances.zip answers
        let verdicts := admitAll batch.anchor batch.anchorWall judged
        let unevidenced := (verdicts.filter fun verdict =>
          verdict.outcome = .noEvidence).map Verdict.instanceId
        some ⟨{ cell with
            state := cell.state.record verdicts around.now none
            holder := some (.issuing { tries with
              unevidenced := tries.unevidenced ++ unevidenced }) },
          around.ledger, [.recorded around.cell batch judged]⟩
      else none
  | .claiming tries, .askDiscovery =>
      some ⟨cell.setHolder (some (.discovering around.now tries)), around.ledger, []⟩
  | .discovering asked tries, .answerDiscovery discovery =>
      some ⟨{ cell with
          state := cell.state.refill discovery asked around.now
          holder := some (.issuing tries) },
        around.ledger, [.refilled around.cell discovery asked around.now]⟩
  | .served keepWarm, .serve =>
      let state := { cell.state with lastServed := some around.now }
      if keepWarm && !state.renewal.isSome && !(state.admitted.size == 0) then
        some ⟨{ cell with
            state := { state with renewal := some around.fresh }
            holder := none
            renewals := cell.renewals.insert around.fresh (.waiting none) },
          around.ledger, []⟩
      else some ⟨{ cell with state := state, holder := none }, around.ledger, []⟩
  | _, .release => some ⟨cell.setHolder none, around.ledger, []⟩
  | _, _ => none

/-- A renewal's locked section: it stops, goes back to sleep, is refused its
charge, or takes the generation and lets the lock go to fetch evidence. -/
def renew (around : Surroundings) (cell : ScopeCell) (id : Nat) (planned : Option Instant)
    (jitter : Duration) (blocked : Option Instant) (granted : Bool) (due : List InstanceKey) :
    Option Done :=
  let now := around.now
  let state := cell.state.prune now
  let stop : Done := ⟨{ cell with
    state := { state with renewal := none }, renewals := cell.renewals.erase id },
    around.ledger, []⟩
  match state.earliest with
  | none => some stop
  | some earliest =>
      if !state.warm now then some stop
      else
        let target := planned.getD
          ((Instant.checkedSub earliest (refreshAhead + jitter)).getD earliest)
        let wake := max target (max ((state.lastRecorded.map fun at_ =>
          at_ + minRenewalInterval).getD 0) (blocked.getD 0))
        let wait (planned : Option Instant) : Done := ⟨{ cell with
          state := state, renewals := cell.renewals.insert id (.waiting planned) },
          around.ledger, []⟩
        if now < wake then some (wait (some target))
        else if !granted then some (wait none)
        else if Multiset.ofList due = (state.expiring (now + refreshAhead + renewJitter)).val then
          some ⟨{ cell with
              state := { state with renewalSince := some state.generation }
              renewals := cell.renewals.insert id (.armed state.generation
                (due.map fun key => ⟨key.1, key.2, []⟩)) },
            around.ledger, []⟩
        else none

/-- What an unlocked act does. -/
def free (around : Surroundings) (cell : ScopeCell) : Act → Option Done
  | .lock => some ⟨cell.setHolder (some (.issuing ⟨0, 0, []⟩)), around.ledger, []⟩
  | .retryLock avoid => some ⟨cell.setHolder (some (.retrying avoid)), around.ledger, []⟩
  | .renew id jitter blocked granted due =>
      match cell.renewals.lookup id with
      | some (.waiting planned) => cell.renew around id planned jitter blocked granted due
      | _ => none
  | .renewAnswer id answers =>
      match cell.renewals.lookup id with
      | some (.fetching since batch) =>
          if answers.length = batch.instances.length then
            let judged := batch.instances.zip answers
            some ⟨{ cell with
                state := { cell.state with renewalSince := none }.record
                  (admitAll batch.anchor batch.anchorWall judged) around.now (some since)
                renewals := cell.renewals.insert id (.waiting none) },
              around.ledger, [.recorded around.cell batch judged]⟩
          else none
      | _ => none
  | .renewFail id =>
      match cell.renewals.lookup id with
      | some (.waiting _) | none => none
      | some _ => some ⟨{ cell with
          state := { cell.state with renewalSince := none }
          renewals := cell.renewals.insert id (.waiting none) }, around.ledger, []⟩
  | .invalidate => some ⟨{ cell with state := .fresh }, around.ledger, []⟩
  | _ => none

/-- What a renewal task does without the lock. -/
def unlocked (around : Surroundings) (cell : ScopeCell) : Act → Option Done
  | .renewAsk id lag =>
      match cell.renewals.lookup id with
      | some (.armed since due) =>
          let batch : Batch := ⟨around.fresh, around.now, around.wall (around.now + lag), due⟩
          some ⟨{ cell with renewals := cell.renewals.insert id (.fetching since batch) },
            around.ledger, [.started around.cell batch.id]⟩
      | _ => none
  | .renewStop id => some ⟨{ cell with renewals := cell.renewals.erase id }, around.ledger, []⟩
  | _ => none

/-- One act on a cell. -/
def step (around : Surroundings) (cell : ScopeCell) (act : Act) : Option Done :=
  (cell.unlocked around act).or <|
    match cell.holder with
    | some holder => cell.held around holder act
    | none => cell.free around act

end ScopeCell

/-- Every cell, the shared ledger, the clock and the log. -/
structure Admissions where
  cells : HashMap Cell ScopeCell
  nextId : Nat
  ledger : NonceLedger
  clock : Instant
  log : List Entry
  deriving DecidableEq

namespace Admissions

inductive Event
  | create (scope : ChuteScope)
  | evict (cell : Cell)
  | act (cell : Cell) (now : Instant) (act : Act)
  deriving DecidableEq

def step (epoch : Duration) (capacity : Nat) (world : Admissions) : Event → Option Admissions
  | .create scope => some { world with
      cells := world.cells.insert world.nextId ⟨scope, .fresh, none, ∅⟩
      nextId := world.nextId + 1 }
  | .evict name =>
      match world.cells.lookup name with
      | some cell =>
          if cell.holder = none then some { world with cells := world.cells.erase name } else none
      | none => none
  | .act name now act =>
      match world.cells.lookup name with
      | some cell =>
          if world.clock ≤ now then
            (cell.step ⟨name, world.nextId, epoch, capacity, world.ledger, now⟩ act).map
              fun done => {
                cells := world.cells.insert name done.cell
                nextId := world.nextId + 1
                ledger := done.ledger
                clock := now
                log := world.log ++ done.entries }
          else none
      | none => none

end Admissions

/-- Every interleaving of tickets, retries, renewals and evictions, over any
credentials and chutes. -/
def admissionsMachine (epoch : Duration) (capacity : Nat) :
    Machine Admissions Admissions.Event where
  init := ⟨∅, 0, ∅, 0, []⟩
  step := Admissions.step epoch capacity

/-! ### What an act can do -/

/-- The instant a locked section pruned the state at. -/
def Holder.checked : Holder → Option Instant
  | .pruned checked _ | .retryPruned checked _ => some checked
  | _ => none

namespace ScopeCell

/-- Everything an enabled act can do to a cell. -/
inductive Does (around : Surroundings) (cell : ScopeCell) : Act → Done → Prop
  | lock (unlocked : cell.holder = none) :
      Does around cell .lock
        ⟨cell.setHolder (some (.issuing ⟨0, 0, []⟩)), around.ledger, []⟩
  | retryLock {avoid} (unlocked : cell.holder = none) :
      Does around cell (.retryLock avoid)
        ⟨cell.setHolder (some (.retrying avoid)), around.ledger, []⟩
  | prune {holder pruned} (holds : cell.holder = some holder)
      (checked : Holder.checked pruned = some around.now) :
      Does around cell .prune
        ⟨{ cell with state := cell.state.prune around.now, holder := some pruned },
          around.ledger, []⟩
  | issue {holder checked avoid keepWarm validUntil ticket left recorded}
      (holds : cell.holder = some holder) (at_ : holder.checked = some checked)
      (valid : cell.state.validUntil = some validUntil)
      (onlyPool : left = { cell.state with pool := left.pool })
      (shrunk : ChuteState.Shrunk left.pool cell.state.pool)
      (issues : ChuteState.Issues cell.state around.capacity (around.ledger.prune around.now)
        cell.scope.2 avoid validUntil ticket left recorded) :
      Does around cell .take
        ⟨{ cell with state := left, holder := some (.served keepWarm) }, recorded,
          [.issued around.cell ⟨cell.scope.2, ticket, checked, around.now, validUntil⟩]⟩
  | noTicket {holder left ledger next} (holds : cell.holder = some holder)
      (onlyPool : left = { cell.state with pool := left.pool })
      (shrunk : ChuteState.Shrunk left.pool cell.state.pool)
      (ledgerKept : ledger = around.ledger ∨ ledger = around.ledger.prune around.now)
      (goesOn : next = none ∨ ∃ tries, next = ScopeCell.whenNoTicket left tries) :
      Does around cell .take ⟨{ cell with state := left, holder := next }, ledger, []⟩
  | askEvidence {instances tries lag} (holds : cell.holder = some (.charging instances tries)) :
      Does around cell (.askEvidence lag)
        ⟨cell.setHolder (some (.admitting
            ⟨around.fresh, around.now, around.wall (around.now + lag), instances⟩ tries)),
          around.ledger, [.started around.cell around.fresh]⟩
  | answerEvidence {batch tries answers next}
      (holds : cell.holder = some (.admitting batch tries))
      (each : answers.length = batch.instances.length) :
      Does around cell (.answerEvidence answers)
        ⟨{ cell with
            state := cell.state.record
              (admitAll batch.anchor batch.anchorWall (batch.instances.zip answers)) around.now none
            holder := some (.issuing next) },
          around.ledger, [.recorded around.cell batch (batch.instances.zip answers)]⟩
  | askDiscovery {tries} (holds : cell.holder = some (.claiming tries)) :
      Does around cell .askDiscovery
        ⟨cell.setHolder (some (.discovering around.now tries)), around.ledger, []⟩
  | answerDiscovery {asked tries discovery}
      (holds : cell.holder = some (.discovering asked tries)) :
      Does around cell (.answerDiscovery discovery)
        ⟨{ cell with
            state := cell.state.refill discovery asked around.now
            holder := some (.issuing tries) },
          around.ledger, [.refilled around.cell discovery asked around.now]⟩
  | release {holder} (holds : cell.holder = some holder) :
      Does around cell .release ⟨cell.setHolder none, around.ledger, []⟩
  | serve {keepWarm} (holds : cell.holder = some (.served keepWarm)) :
      Does around cell .serve
        ⟨{ cell with
            state := { cell.state with lastServed := some around.now }, holder := none },
          around.ledger, []⟩
  | keepWarm (holds : cell.holder = some (.served true)) (cold : cell.state.renewal = none) :
      Does around cell .serve
        ⟨{ cell with
            state := { cell.state with
              lastServed := some around.now, renewal := some around.fresh }
            holder := none
            renewals := cell.renewals.insert around.fresh (.waiting none) },
          around.ledger, []⟩
  | renewStop {id planned jitter blocked granted due} (unlocked : cell.holder = none)
      (waits : cell.renewals.lookup id = some (.waiting planned)) :
      Does around cell (.renew id jitter blocked granted due)
        ⟨{ cell with
            state := { cell.state.prune around.now with renewal := none }
            renewals := cell.renewals.erase id },
          around.ledger, []⟩
  | renewWait {id planned again jitter blocked granted due} (unlocked : cell.holder = none)
      (waits : cell.renewals.lookup id = some (.waiting planned)) :
      Does around cell (.renew id jitter blocked granted due)
        ⟨{ cell with
            state := cell.state.prune around.now
            renewals := cell.renewals.insert id (.waiting again) },
          around.ledger, []⟩
  | renewArm {id planned jitter blocked granted due} (unlocked : cell.holder = none)
      (waits : cell.renewals.lookup id = some (.waiting planned)) (distinct : due.Nodup) :
      Does around cell (.renew id jitter blocked granted due)
        ⟨{ cell with
            state := { cell.state.prune around.now with
              renewalSince := some cell.state.generation }
            renewals := cell.renewals.insert id (.armed cell.state.generation
              (due.map fun key => ⟨key.1, key.2, []⟩)) },
          around.ledger, []⟩
  | renewAsk {id since due lag} (armed : cell.renewals.lookup id = some (.armed since due)) :
      Does around cell (.renewAsk id lag)
        ⟨{ cell with renewals := cell.renewals.insert id (.fetching since
            ⟨around.fresh, around.now, around.wall (around.now + lag), due⟩) },
          around.ledger, [.started around.cell around.fresh]⟩
  | renewAnswer {id since batch answers} (unlocked : cell.holder = none)
      (fetched : cell.renewals.lookup id = some (.fetching since batch))
      (each : answers.length = batch.instances.length) :
      Does around cell (.renewAnswer id answers)
        ⟨{ cell with
            state := { cell.state with renewalSince := none }.record
              (admitAll batch.anchor batch.anchorWall (batch.instances.zip answers)) around.now
              (some since)
            renewals := cell.renewals.insert id (.waiting none) },
          around.ledger, [.recorded around.cell batch (batch.instances.zip answers)]⟩
  | renewFail {id phase} (unlocked : cell.holder = none)
      (running : cell.renewals.lookup id = some phase)
      (busy : ∀ planned, phase ≠ .waiting planned) :
      Does around cell (.renewFail id)
        ⟨{ cell with
            state := { cell.state with renewalSince := none }
            renewals := cell.renewals.insert id (.waiting none) },
          around.ledger, []⟩
  | renewGone {id} :
      Does around cell (.renewStop id)
        ⟨{ cell with renewals := cell.renewals.erase id }, around.ledger, []⟩
  | invalidate (unlocked : cell.holder = none) :
      Does around cell .invalidate ⟨{ cell with state := .fresh }, around.ledger, []⟩

/-- What a take does, from the pool checked or from what follows an empty one. -/
private theorem does_of_taken {around : Surroundings} {cell : ScopeCell} {holder : Holder}
    {checked : Instant} {avoid : List String} {keepWarm : Bool}
    {otherwise : ChuteState → Option Holder} {done : Done} (holds : cell.holder = some holder)
    (at_ : holder.checked = some checked)
    (goesOn : ∀ left, otherwise left = none ∨ ∃ tries, otherwise left = whenNoTicket left tries)
    (took : cell.taken around checked avoid keepWarm otherwise = some done) :
    Does around cell .take done := by
  unfold taken at took
  dsimp only at took
  have outcome := cell.state.takeTicket_outcome around.capacity around.ledger cell.scope.2 avoid
    around.now
  generalize cell.state.takeTicket around.capacity around.ledger cell.scope.2 avoid around.now =
    out at took outcome
  obtain ⟨answer, left, ledger⟩ := out
  dsimp only at took outcome
  rcases outcome with ⟨rfl, rfl, rfl⟩ | ⟨validUntil, valid, spec⟩
  · cases took
    exact .noTicket holds rfl (ChuteState.Shrunk.refl _) (.inl rfl) (goesOn _)
  · rcases spec.result with ⟨ticket, rfl, issues⟩ | ⟨noTicket, rfl⟩
    · cases took
      simp only [valid, Option.getD_some]
      exact .issue holds at_ valid spec.onlyPool spec.shrunk issues
    · cases answer with
      | error error =>
          cases took
          exact .noTicket holds spec.onlyPool spec.shrunk (.inr rfl) (.inl rfl)
      | ok ticket =>
          cases ticket with
          | some ticket => exact absurd rfl (noTicket ticket)
          | none =>
              cases took
              exact .noTicket holds spec.onlyPool spec.shrunk (.inr rfl) (goesOn _)

/-- What the holder of the lock does. -/
private theorem does_of_held {around : Surroundings} {cell : ScopeCell} {holder : Holder}
    {act : Act} {done : Done} (holds : cell.holder = some holder)
    (stepped : cell.held around holder act = some done) : Does around cell act done := by
  unfold held at stepped
  split at stepped
  · cases stepped
    exact .prune holds rfl
  · cases stepped
    exact .prune holds rfl
  · exact does_of_taken holds rfl (fun left => .inr ⟨_, rfl⟩) stepped
  · exact does_of_taken holds rfl (fun left => .inl rfl) stepped
  · cases stepped
    exact .askEvidence holds
  · split at stepped
    · rename_i each
      cases stepped
      exact .answerEvidence holds each
    · cases stepped
  · cases stepped
    exact .askDiscovery holds
  · cases stepped
    exact .answerDiscovery holds
  · dsimp only at stepped
    split at stepped
    · rename_i warm
      cases stepped
      simp only [Bool.and_eq_true, Bool.not_eq_true', Option.isSome_eq_false_iff,
        Option.isNone_iff_eq_none] at warm
      obtain ⟨⟨rfl, cold⟩, -⟩ := warm
      exact .keepWarm holds cold
    · cases stepped
      exact .serve holds
  · cases stepped
    exact .release holds
  · cases stepped

/-- What a renewal's round does. -/
private theorem does_of_renew {around : Surroundings} {cell : ScopeCell} {id : Nat}
    {planned : Option Instant} {jitter : Duration} {blocked : Option Instant} {granted : Bool}
    {due : List InstanceKey} {done : Done} (unlocked : cell.holder = none)
    (waits : cell.renewals.lookup id = some (.waiting planned))
    (stepped : cell.renew around id planned jitter blocked granted due = some done) :
    Does around cell (.renew id jitter blocked granted due) done := by
  unfold renew at stepped
  dsimp only at stepped
  split at stepped
  · cases stepped
    exact .renewStop unlocked waits
  · split at stepped
    · cases stepped
      exact .renewStop unlocked waits
    · split at stepped
      · cases stepped
        exact .renewWait unlocked waits
      · split at stepped
        · cases stepped
          exact .renewWait unlocked waits
        · split at stepped
          · rename_i same
            cases stepped
            refine .renewArm unlocked waits (Multiset.coe_nodup.mp ?_)
            exact same ▸ Finset.nodup _
          · cases stepped

/-- What is done to a cell without the lock. -/
private theorem does_of_free {around : Surroundings} {cell : ScopeCell} {act : Act} {done : Done}
    (unlocked : cell.holder = none) (stepped : cell.free around act = some done) :
    Does around cell act done := by
  unfold free at stepped
  split at stepped
  · cases stepped
    exact .lock unlocked
  · cases stepped
    exact .retryLock unlocked
  · split at stepped
    · rename_i waits
      exact does_of_renew unlocked waits stepped
    · cases stepped
  · split at stepped
    · rename_i fetched
      split at stepped
      · rename_i each
        cases stepped
        exact .renewAnswer unlocked fetched each
      · cases stepped
    · cases stepped
  · split at stepped
    · cases stepped
    · cases stepped
    · rename_i phase notWaiting running
      cases stepped
      exact .renewFail unlocked running notWaiting
  · cases stepped
    exact .invalidate unlocked
  · cases stepped

/-- Whatever a cell computes is one of the things it can do. -/
theorem does_of_step {around : Surroundings} {cell : ScopeCell} {act : Act} {done : Done}
    (stepped : cell.step around act = some done) : Does around cell act done := by
  unfold step at stepped
  rcases Option.or_eq_some_iff.mp stepped with apart | ⟨-, locked⟩
  · unfold unlocked at apart
    split at apart
    · split at apart
      · rename_i armed
        cases apart
        exact .renewAsk armed
      · cases apart
    · cases apart
      exact .renewGone
    · cases apart
  · split at locked
    · rename_i holder holds
      exact does_of_held holds locked
    · rename_i unlocked
      exact does_of_free unlocked locked

end ScopeCell

/-! ### Invariants of every cell -/

namespace Admissions

variable {epoch : Duration} {capacity : Nat} {world next : Admissions}

/-- An act on a cell of the world. -/
theorem step_act {name : Cell} {now : Instant} {act : Act}
    (stepped : step epoch capacity world (.act name now act) = some next) :
    ∃ cell done, world.cells.lookup name = some cell ∧ world.clock ≤ now ∧
      cell.Does ⟨name, world.nextId, epoch, capacity, world.ledger, now⟩ act done ∧
      next = ⟨world.cells.insert name done.cell, world.nextId + 1, done.ledger, now,
        world.log ++ done.entries⟩ := by
  simp only [step] at stepped
  split at stepped
  · rename_i cell found
    split at stepped
    · rename_i later
      obtain ⟨done, did, rfl⟩ := Option.map_eq_some_iff.mp stepped
      exact ⟨cell, done, found, later, ScopeCell.does_of_step did, rfl⟩
    · cases stepped
  · cases stepped

/-- A step adds at most one entry to the log. -/
theorem step_log {event : Event} (stepped : step epoch capacity world event = some next) :
    next.log = world.log ∨ ∃ entry, next.log = world.log ++ [entry] := by
  cases event with
  | create scope =>
      cases stepped
      exact .inl rfl
  | evict gone =>
      simp only [step] at stepped
      split at stepped
      · split at stepped
        · cases stepped
          exact .inl rfl
        · cases stepped
      · cases stepped
  | act name now act =>
      obtain ⟨cell, done, found, later, does, rfl⟩ := step_act stepped
      cases does with
      | issue | askEvidence | answerEvidence | answerDiscovery | renewAsk | renewAnswer =>
          exact .inr ⟨_, rfl⟩
      | lock | retryLock | prune | noTicket | askDiscovery | release | serve | keepWarm
      | renewStop | renewWait | renewArm | renewFail | renewGone | invalidate =>
          exact .inl (List.append_nil _)

/-- A cell's entries are its own. -/
private theorem entries_own {around : Surroundings} {cell : ScopeCell} {act : Act} {done : Done}
    (does : ScopeCell.Does around cell act done) :
    ∀ entry ∈ done.entries, entry.cell = around.cell := by
  intro entry mem
  cases does with
  | issue | askEvidence | answerEvidence | answerDiscovery | renewAsk | renewAnswer =>
      rw [List.mem_singleton.mp mem]
      rfl
  | lock | retryLock | prune | noTicket | askDiscovery | release | serve | keepWarm
  | renewStop | renewWait | renewArm | renewFail | renewGone | invalidate => cases mem

section Cells

variable {allowed : Act → Prop} {P : Cell → ScopeCell → List Entry → Instant → Prop}

/-- What a property of one cell, the log and the clock needs to hold of every cell
of a run: it holds of a new cell, other cells' entries do not matter to it, and
each allowed act on the cell itself preserves it. -/
structure CellInvariant (epoch : Duration) (allowed : Act → Prop)
    (P : Cell → ScopeCell → List Entry → Instant → Prop) : Prop where
  create : ∀ name scope log clock, P name ⟨scope, .fresh, none, ∅⟩ log clock
  others : ∀ {name cell log clock entries now}, P name cell log clock → clock ≤ now →
    (∀ entry ∈ entries, entry.cell ≠ name) → P name cell (log ++ entries) now
  own : ∀ {around : Surroundings} {cell act done log clock}, around.epoch = epoch → allowed act →
    P around.cell cell log clock → clock ≤ around.now → ScopeCell.Does around cell act done →
    P around.cell done.cell (log ++ done.entries) around.now

/-- What every act keeps of its cell, a step keeps of all cells. -/
theorem CellInvariant.preserved (invariant : CellInvariant epoch allowed P) {event : Event}
    (permitted : ∀ name now act, event = .act name now act → allowed act)
    (holds : ∀ name cell, world.cells.lookup name = some cell → P name cell world.log world.clock)
    (stepped : step epoch capacity world event = some next) {name : Cell} {cell : ScopeCell}
    (found : next.cells.lookup name = some cell) : P name cell next.log next.clock := by
  cases event with
  | create scope =>
      cases stepped
      dsimp only at found
      rw [Finmap.lookup_insert_eq] at found
      split at found
      · cases found
        exact invariant.create name scope _ _
      · exact holds name cell found
  | evict gone =>
      simp only [step] at stepped
      split at stepped
      · split at stepped
        · cases stepped
          by_cases same : name = gone
          · subst same
            simp at found
          · exact holds name cell ((Finmap.lookup_erase_ne same).symm.trans found)
        · cases stepped
      · cases stepped
  | act acting now act =>
      obtain ⟨before, done, at_, later, does, rfl⟩ := step_act stepped
      dsimp only at found
      rw [Finmap.lookup_insert_eq] at found
      by_cases same : name = acting
      · subst same
        rw [if_pos rfl] at found
        cases found
        exact invariant.own rfl (permitted name now act rfl) (holds name before at_) later does
      · rw [if_neg same] at found
        exact invariant.others (holds name cell found) later fun entry mem own =>
          same (own.symm.trans (entries_own does entry mem))

/-- A run keeps what each of its acts keeps of a cell. -/
theorem CellInvariant.run (invariant : CellInvariant epoch allowed P) {events : List Event}
    (allAllowed : ∀ name now act, Event.act name now act ∈ events → allowed act)
    (ran : (admissionsMachine epoch capacity).run events = some world) {name : Cell}
    {cell : ScopeCell} (found : world.cells.lookup name = some cell) :
    P name cell world.log world.clock := by
  refine Machine.exec_invariant_of (m := admissionsMachine epoch capacity)
    (P := fun world => ∀ name cell, world.cells.lookup name = some cell →
      P name cell world.log world.clock)
    (fun event => ∀ name now act, event = .act name now act → allowed act)
    (fun world event next permitted holds stepped name cell found =>
      invariant.preserved permitted holds stepped found)
    (fun event mem name now act same => allAllowed name now act (same ▸ mem)) ?_ ran name cell
    found
  intro name cell found
  simp [admissionsMachine] at found

end Cells

end Admissions

/-! ### A first ticket -/

/-- One instance with one nonce, good for a minute. -/
def smallDiscovery : Discovery :=
  ⟨[⟨"inst", "key", ["nonce"]⟩], 60, by decide, by decide, List.pairwise_singleton _ _, by decide⟩

/-- The shortest way to a ticket: discover, fetch evidence, and prune once more
before the ticket is taken. -/
def firstTicketSchedule : List Admissions.Event :=
  .create ([7], "kimi-k3") :: ([.lock, .prune, .take, .askDiscovery,
    .answerDiscovery smallDiscovery, .prune, .take, .askEvidence 0, .answerEvidence [.expires 1000],
    .prune] : List Act).map (.act 0 0)

def firstIssue : Issue := ⟨"kimi-k3", ⟨"inst", "key", "nonce"⟩, 0, 0, 65000000000⟩

/-- The schedule issues its first ticket with the last take. -/
theorem firstTicketSchedule_issues : ∃ world next,
    (admissionsMachine 0 10).run firstTicketSchedule = some world ∧
      (admissionsMachine 0 10).step world (.act 0 0 .take) = some next ∧
      next.log = world.log ++ [.issued 0 firstIssue] := by
  have ran : ((admissionsMachine 0 10).run firstTicketSchedule).bind (fun world =>
      ((admissionsMachine 0 10).step world (.act 0 0 .take)).map fun next =>
        decide (next.log = world.log ++ [.issued 0 firstIssue])) = some true := by
    decide +kernel
  obtain ⟨world, run, stepped⟩ := Option.bind_eq_some_iff.mp ran
  obtain ⟨next, step, logged⟩ := Option.map_eq_some_iff.mp stepped
  exact ⟨world, next, run, step, of_decide_eq_true logged⟩

end GmMiner.Chutes
