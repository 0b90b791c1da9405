import GmMiner.Chutes.Admissions
import GmMiner.Chutes.Discoveries
import GmMiner.Lib.Result

/-!
Renewals against the budgets (`renew_while_warm` of
`attestd/src/chutes_verify/admission.rs`).

`renewalsMachine` runs the admission cache and the budgets together: a round of a
renewal charges the budget of its scope's credential, and everything else that locks
the budgets may come between any two acts. A round keeps the target it planned across
its sleeps, so the admission it was computed from may be gone when the round goes on:
`renewals_call_when_due` says that every evidence call is due exactly if no kept plan
has outlived every admission it could be for.
-/

namespace GmMiner.Chutes

open GmMiner.Lib

/-- A round of a renewal: its readings, and what it is told. -/
structure Round where
  id : Nat
  /-- The reading under the scope's lock. -/
  now : Instant
  jitter : Duration
  /-- The reading of `evidence_blocked_until`. -/
  asked : Instant
  /-- What others do to the budgets between that and the charge. -/
  meanwhile : List Op
  /-- The reading of `charge_evidence`. -/
  charged : Instant
  /-- What `back_off` reads if the charge is refused. -/
  refused : Reading
  due : List InstanceKey
  deriving DecidableEq, Repr

/-- What `evidence_blocked_until` answers the round. -/
def Round.blocked (round : Round) (discoveries : Discoveries) (scope : ChuteScope) :
    Option Instant :=
  discoveries.evidenceBlockedUntil scope.1 scope.2 round.asked

/-- The budgets the round charges: they were not locked since it asked. -/
def Round.budgets (round : Round) (discoveries : Discoveries) : Discoveries :=
  round.meanwhile.foldl (fun discoveries op => (op.perform discoveries).2) discoveries

/-- The cache, the budgets and when batches were recorded. -/
structure Renewals where
  admissions : Admissions
  discoveries : Discoveries
  batches : List (Cell × Instant)

namespace ChuteState

/-- When a round goes on from its sleep. -/
def wakeAt (state : ChuteState) (planned : Option Instant) (jitter : Duration)
    (blocked : Option Instant) (earliest : Instant) : Instant :=
  let target := planned.getD
    ((Instant.checkedSub earliest (refreshAhead + jitter)).getD earliest)
  max target (max ((state.lastRecorded.map fun at_ => at_ + minRenewalInterval).getD 0)
    (blocked.getD 0))

/-- Whether a round gets to its charge. -/
def reachesCharge (state : ChuteState) (now : Instant) (planned : Option Instant)
    (jitter : Duration) (blocked : Option Instant) : Bool :=
  match state.earliest with
  | none => false
  | some earliest =>
      state.warm now && decide (state.wakeAt planned jitter blocked earliest ≤ now)

end ChuteState

namespace Renewals

inductive Event
  /-- An act on the cache that is no round of a renewal. -/
  | act (event : Admissions.Event)
  /-- Anything else that locks the budgets. -/
  | budget (op : Op)
  | round (cell : Cell) (round : Round)
  deriving DecidableEq

def Event.isRound : Event → Bool
  | .round _ _ => true
  | _ => false

def isRound : Admissions.Event → Bool
  | .act _ _ (.renew ..) => true
  | _ => false

/-- The batches a step recorded. -/
def recordings (before after : Admissions) : List (Cell × Instant) :=
  (after.log.drop before.log.length).filterMap fun entry =>
    match entry with
    | .recorded cell _ _ => some (cell, after.clock)
    | _ => none

def step (epoch : Duration) (capacity : Nat) (world : Renewals) : Event → Option Renewals
  | .act event =>
      if isRound event then none
      else (Admissions.step epoch capacity world.admissions event).map fun next =>
        ⟨next, world.discoveries, world.batches ++ recordings world.admissions next⟩
  | .budget op => some { world with discoveries := (op.perform world.discoveries).2 }
  | .round name round =>
      match world.admissions.cells.lookup name with
      | none => none
      | some cell =>
          match cell.renewals.lookup round.id with
          | some (.waiting planned) =>
              let (credential, chuteId) := cell.scope
              let blocked := round.blocked world.discoveries cell.scope
              let act (granted : Bool) : Option Admissions :=
                Admissions.step epoch capacity world.admissions (.act name round.now
                  (.renew round.id round.jitter blocked granted round.due))
              if renewJitter < round.jitter ∨ round.asked < round.now ∨
                  round.charged < round.asked then none
              else if (cell.state.prune round.now).reachesCharge round.now planned round.jitter
                  blocked then
                match (round.budgets world.discoveries).chargeEvidence credential chuteId
                    round.charged with
                | (.ok (), discoveries) => (act true).map fun next =>
                    { world with admissions := next, discoveries := discoveries }
                | (.error error, discoveries) => (act false).map fun next =>
                    { world with
                      admissions := next
                      discoveries :=
                        discoveries.evidenceFailed credential chuteId error round.refused }
              else (act false).map fun next => { world with admissions := next }
          | _ => none

end Renewals

/-- Every interleaving of requests, renewals and budget operations. -/
def renewalsMachine (epoch : Duration) (capacity : Nat) : Machine Renewals Renewals.Event where
  init := ⟨⟨∅, 0, ∅, 0, []⟩, .empty, []⟩
  step := Renewals.step epoch capacity

namespace Renewals

/-- The round of the cell begins an evidence call: it is charged, and the charge is granted. -/
structure Calls (epoch : Duration) (capacity : Nat) (world : Renewals) (name : Cell)
    (round : Round) (cell : ScopeCell) (planned : Option Instant) : Prop where
  found : world.admissions.cells.lookup name = some cell
  waits : cell.renewals.lookup round.id = some (.waiting planned)
  reaches : (cell.state.prune round.now).reachesCharge round.now planned round.jitter
    (round.blocked world.discoveries cell.scope) = true
  granted : ((round.budgets world.discoveries).chargeEvidence cell.scope.1 cell.scope.2
    round.charged).1 = .ok ()
  enabled : ∃ next, step epoch capacity world (.round name round) = some next

/-- The evidence call is for admissions about to end, after the interval and every
backoff, and for a warm chute. -/
structure CallIsDue (world : Renewals) (name : Cell) (round : Round) (cell : ScopeCell) : Prop where
  nonempty : round.due ≠ []
  ending : ∀ key ∈ round.due, ∃ untilAt, cell.state.admitted.lookup key = some untilAt ∧
    round.now < untilAt ∧ untilAt ≤ round.now + refreshAhead + renewJitter
  apart : ∀ at_, (name, at_) ∈ world.batches → at_ + minRenewalInterval ≤ round.now
  noBackoff : ∀ backoff,
    ((round.budgets world.discoveries).budget cell.scope.1).backoff.lookup cell.scope.2 =
        some backoff ∨
      ((round.budgets world.discoveries).budget cell.scope.1).evidenceBackoff.lookup
        cell.scope.2 = some backoff →
    backoff.untilAt ≤ round.charged
  warm : cell.state.warm round.now = true

/-- After the events the renewal waits, with this plan or with none. -/
def Waits (epoch : Duration) (capacity : Nat) (name : Cell) (id : Nat) (planned : Option Instant)
    (events : List Event) : Prop :=
  ∃ world cell, (renewalsMachine epoch capacity).run events = some world ∧
    world.admissions.cells.lookup name = some cell ∧
    cell.renewals.lookup id = some (.waiting planned)

/-- Where the target a renewal waits for comes from: a round that had no plan found the
first admission of `state` to end at `ends`, and the renewal waited ever since. -/
inductive PlannedFrom (epoch : Duration) (capacity : Nat) (name : Cell) (id : Nat)
    (target : Instant) : List Event → ChuteState → Instant → Prop
  | plans {before round world cell ends}
      (ran : (renewalsMachine epoch capacity).run before = some world)
      (found : world.admissions.cells.lookup name = some cell)
      (unplanned : cell.renewals.lookup id = some (.waiting none)) (own : round.id = id)
      (first : (cell.state.prune round.now).earliest = some ends)
      (waits : Waits epoch capacity name id (some target) (before ++ [.round name round])) :
      PlannedFrom epoch capacity name id target (before ++ [.round name round])
        (cell.state.prune round.now) ends
  | kept {before event state ends}
      (planned : PlannedFrom epoch capacity name id target before state ends)
      (waits : Waits epoch capacity name id (some target) (before ++ [event])) :
      PlannedFrom epoch capacity name id target (before ++ [event]) state ends

/-- Of the admissions the plan of a round was computed from, one is still held and has not
ended; nothing is asked of a round that has no plan yet. -/
def PlanStands (epoch : Duration) (capacity : Nat) (before : List Event) (name : Cell)
    (round : Round) (cell : ScopeCell) (planned : Option Instant) : Prop :=
  ∀ target state ends, planned = some target →
    PlannedFrom epoch capacity name round.id target before state ends →
    ∃ key, state.admitted.lookup key = some ends ∧
      cell.state.admitted.lookup key = some ends ∧ round.now < ends

end Renewals

/-! ### One round -/

namespace ChuteState

/-- The earliest end is the end of an admission. -/
theorem lookup_of_earliest {state : ChuteState} {untilAt : Instant}
    (earliest : state.earliest = some untilAt) :
    ∃ key, state.admitted.lookup key = some untilAt := by
  have attained : ∀ ends : Multiset (WithTop Instant), ends.inf = WithTop.some untilAt →
      WithTop.some untilAt ∈ ends := by
    intro ends
    induction ends using Multiset.induction with
    | empty =>
        intro same
        cases same
    | cons end_ ends ih =>
        intro same
        rw [Multiset.inf_cons] at same
        rcases min_choice end_ ends.inf with first | later
        · exact Multiset.mem_cons.mpr (.inl (same.symm.trans first))
        · exact Multiset.mem_cons_of_mem (ih (later.symm.trans same))
  obtain ⟨⟨key, end_⟩, mem, same⟩ := Multiset.mem_map.mp (attained _ earliest)
  cases same
  exact ⟨key, Finmap.mem_lookup_iff.mpr mem⟩

theorem mem_expiring {state : ChuteState} {by_ : Instant} {key : InstanceKey} :
    key ∈ state.expiring by_ ↔
      ∃ untilAt, state.admitted.lookup key = some untilAt ∧ untilAt ≤ by_ := by
  unfold expiring
  rw [Finmap.mem_keys, Finmap.mem_iff]
  simp only [Finmap.lookup_retain_eq_some, decide_eq_true_eq]

/-- A round reaches the charge exactly if it is due, warm and not blocked. -/
theorem reachesCharge_iff {state : ChuteState} {now : Instant} {planned : Option Instant}
    {jitter : Duration} {blocked : Option Instant} :
    state.reachesCharge now planned jitter blocked = true ↔
      ∃ earliest : Instant, state.earliest = some earliest ∧ state.warm now = true ∧
        state.wakeAt planned jitter blocked earliest ≤ now := by
  unfold reachesCharge
  cases state.earliest with
  | top =>
      constructor
      · intro reaches
        cases reaches
      · rintro ⟨earliest, same, -⟩
        cases same
  | coe earliest =>
      constructor
      · intro reaches
        obtain ⟨warm, wakes⟩ := Bool.and_eq_true_iff.mp reaches
        exact ⟨earliest, rfl, warm, of_decide_eq_true wakes⟩
      · rintro ⟨earliest', same, warm, wakes⟩
        cases same
        exact Bool.and_eq_true_iff.mpr ⟨warm, decide_eq_true wakes⟩

end ChuteState

/-- A round that is charged fetches evidence for what is about to end. -/
theorem ScopeCell.renew_due {around : Surroundings} {cell : ScopeCell} {id : Nat}
    {planned : Option Instant} {jitter : Duration} {blocked : Option Instant}
    {due : List InstanceKey} {done : Done}
    (reaches : (cell.state.prune around.now).reachesCharge around.now planned jitter blocked = true)
    (renewed : cell.renew around id planned jitter blocked true due = some done) :
    Multiset.ofList due =
      ((cell.state.prune around.now).expiring (around.now + refreshAhead + renewJitter)).val := by
  obtain ⟨earliest, same, warm, wakes⟩ := ChuteState.reachesCharge_iff.mp reaches
  unfold renew at renewed
  dsimp only at renewed
  rw [same] at renewed
  dsimp only at renewed
  have awake : ¬ around.now < max (planned.getD
      ((Instant.checkedSub earliest (refreshAhead + jitter)).getD earliest))
      (max (((cell.state.prune around.now).lastRecorded.map fun at_ =>
        at_ + minRenewalInterval).getD 0) (blocked.getD 0)) := Nat.not_lt.mpr wakes
  rw [warm, if_neg (by simp), if_neg awake, if_neg (by simp)] at renewed
  split at renewed
  · rename_i all
    exact all
  · cases renewed

/-- A round that goes back to sleep keeps the plan it has, or plans for the admission that
ends first. -/
theorem ScopeCell.renew_waits {around : Surroundings} {cell : ScopeCell} {id : Nat}
    {planned : Option Instant} {jitter : Duration} {blocked : Option Instant} {granted : Bool}
    {due : List InstanceKey} {done : Done} {target : Instant}
    (renewed : cell.renew around id planned jitter blocked granted due = some done)
    (waits : done.cell.renewals.lookup id = some (.waiting (some target))) :
    ∃ ends : Instant, (cell.state.prune around.now).earliest = some ends ∧
      target = planned.getD ((Instant.checkedSub ends (refreshAhead + jitter)).getD ends) := by
  unfold renew at renewed
  dsimp only at renewed
  split at renewed
  · cases renewed
    simp at waits
  · rename_i ends first
    split at renewed
    · cases renewed
      simp at waits
    · split at renewed
      · cases renewed
        rw [Finmap.lookup_insert] at waits
        cases waits
        exact ⟨ends, first, rfl⟩
      · split at renewed
        · cases renewed
          rw [Finmap.lookup_insert] at waits
          cases waits
        · split at renewed
          · cases renewed
            rw [Finmap.lookup_insert] at waits
            cases waits
          · cases renewed

/-- A granted charge finds no backoff running. -/
theorem Discoveries.noBackoff_of_charged {discoveries : Discoveries} {credential : Credential}
    {chuteId : String} {now : Instant}
    (granted : (discoveries.chargeEvidence credential chuteId now).1 = .ok ()) (backoff : Backoff)
    (held : (discoveries.budget credential).backoff.lookup chuteId = some backoff ∨
      (discoveries.budget credential).evidenceBackoff.lookup chuteId = some backoff) :
    backoff.untilAt ≤ now := by
  have passed_of_kept : ∀ backoffs : HashMap String Backoff,
      Budget.checkRunning (backoffs.retain fun _ backoff =>
        now < backoff.untilAt + 2 * backoffMax) chuteId now = .ok () →
      backoffs.lookup chuteId = some backoff → backoff.untilAt ≤ now := by
    intro backoffs passed here
    by_contra running
    have kept : (backoffs.retain fun _ backoff =>
        now < backoff.untilAt + 2 * backoffMax).lookup chuteId = some backoff := by
      refine Finmap.lookup_retain_eq_some.mpr ⟨here, decide_eq_true ?_⟩
      exact (Nat.lt_of_not_le running).trans_le (Nat.le_add_right _ _)
    unfold Budget.checkRunning at passed
    rw [kept, Option.filter_some, if_pos (decide_eq_true (Nat.lt_of_not_le running))] at passed
    cases passed
  rcases discoveries.withBudget_guarded credential now
    (fun budget => do
      budget.checkBackoff chuteId now
      Budget.checkRunning budget.evidenceBackoff chuteId now
      budget.checkEvidenceRate)
    (fun budget => { budget with evidence := budget.evidence ++ [now] }) with
    ⟨-, checked, -⟩ | ⟨⟨error, refused⟩, -⟩
  · obtain ⟨⟨⟩, first, checked⟩ := bind_eq_ok.mp checked
    obtain ⟨⟨⟩, second, -⟩ := bind_eq_ok.mp checked
    rcases held with here | here
    · exact passed_of_kept _ first here
    · exact passed_of_kept _ second here
  · cases granted.symm.trans refused

/-! ### When batches were recorded -/

theorem ChuteState.record_lastRecorded (state : ChuteState) (verdicts : List Verdict)
    (now : Instant) (since : Option Nat) :
    (state.record verdicts now since).lastRecorded = some now := by
  obtain ⟨admitted, rejected, decided, same⟩ := record_frame state verdicts now since
  rw [same]

/-- An act records a batch at its reading, or records none and admits nothing. -/
theorem ScopeCell.Does.recorded {around : Surroundings} {cell : ScopeCell} {act : Act} {done : Done}
    (does : cell.Does around act done) :
    (done.cell.state.lastRecorded = some around.now ∧
      ∃ batch judged, done.entries = [.recorded around.cell batch judged]) ∨
    ((∀ name batch judged, .recorded name batch judged ∉ done.entries) ∧
      ((done.cell.state.lastRecorded = cell.state.lastRecorded ∧
          (cell.state.admitted = ∅ → done.cell.state.admitted = ∅)) ∨
        done.cell.state.admitted = ∅)) := by
  have pruned : cell.state.admitted = ∅ → (cell.state.prune around.now).admitted = ∅ := by
    intro none
    refine Finmap.ext_lookup fun key => Option.eq_none_iff_forall_ne_some.mpr fun untilAt held => ?_
    have before := (ChuteState.prune_admitted.mp held).1
    rw [none] at before
    cases before
  cases does with
  | answerEvidence => exact .inl ⟨ChuteState.record_lastRecorded _ _ _ _, _, _, rfl⟩
  | renewAnswer => exact .inl ⟨ChuteState.record_lastRecorded _ _ _ _, _, _, rfl⟩
  | issue _ _ _ onlyPool =>
      refine .inr ⟨by simp, .inl ?_⟩
      rw [onlyPool]
      exact ⟨rfl, id⟩
  | noTicket _ onlyPool =>
      refine .inr ⟨by simp, .inl ?_⟩
      rw [onlyPool]
      exact ⟨rfl, id⟩
  | prune | renewStop | renewWait | renewArm => exact .inr ⟨by simp, .inl ⟨rfl, pruned⟩⟩
  | lock | retryLock | askEvidence | askDiscovery | answerDiscovery | release | serve | keepWarm
  | renewAsk | renewFail | renewGone => exact .inr ⟨by simp, .inl ⟨rfl, id⟩⟩
  | invalidate => exact .inr ⟨by simp, .inr rfl⟩

namespace Renewals

variable {epoch : Duration} {capacity : Nat}

/-- No batch was recorded after the clock, and none of a cell with admissions after its
latest. -/
structure Dated (world : Renewals) : Prop where
  past : ∀ name at_, (name, at_) ∈ world.batches → at_ ≤ world.admissions.clock
  latest : ∀ name cell, world.admissions.cells.lookup name = some cell →
    cell.state.admitted = ∅ ∨ ∃ last, cell.state.lastRecorded = some last ∧
      ∀ at_, (name, at_) ∈ world.batches → at_ ≤ last

theorem Dated.fewer {world : Renewals} (dated : world.Dated) {batches : List (Cell × Instant)}
    (among : batches ⊆ world.batches) (discoveries : Discoveries) :
    Dated ⟨world.admissions, discoveries, batches⟩ where
  past name at_ mem := dated.past name at_ (among mem)
  latest name cell found := by
    rcases dated.latest name cell found with empty | ⟨last, recorded, before⟩
    · exact .inl empty
    · exact .inr ⟨last, recorded, fun at_ mem => before at_ (among mem)⟩

/-- A recording is of the step's own instant and of one of its entries. -/
theorem mem_recordings {before after : Admissions} {entries : List Entry} {name : Cell}
    {at_ : Instant} (logged : after.log = before.log ++ entries)
    (mem : (name, at_) ∈ recordings before after) :
    at_ = after.clock ∧ ∃ batch judged, .recorded name batch judged ∈ entries := by
  unfold recordings at mem
  rw [logged, List.drop_left] at mem
  obtain ⟨entry, inside, same⟩ := List.mem_filterMap.mp mem
  cases entry with
  | recorded cell batch judged =>
      cases same
      exact ⟨rfl, batch, judged, inside⟩
  | started | refilled | issued => cases same

/-- Cells may be made or dropped: a new one has no admissions. -/
theorem Dated.unlogged {world : Renewals} (dated : world.Dated) {next : Admissions}
    (sameLog : next.log = world.admissions.log) (sameClock : next.clock = world.admissions.clock)
    (cells : ∀ name cell, next.cells.lookup name = some cell →
      world.admissions.cells.lookup name = some cell ∨ cell.state.admitted = ∅)
    (discoveries : Discoveries) :
    Dated ⟨next, discoveries, world.batches ++ recordings world.admissions next⟩ := by
  have none_ : recordings world.admissions next = [] := by
    unfold recordings
    rw [sameLog, List.drop_length, List.filterMap_nil]
  rw [none_, List.append_nil]
  refine ⟨fun name at_ mem => (dated.past name at_ mem).trans sameClock.ge,
    fun name cell found => ?_⟩
  rcases cells name cell found with before | empty
  · exact dated.latest name cell before
  · exact .inl empty

/-- What an act on the cache keeps. -/
theorem Dated.act {world : Renewals} (dated : world.Dated) {event : Admissions.Event}
    {next : Admissions}
    (stepped : Admissions.step epoch capacity world.admissions event = some next)
    (discoveries : Discoveries) :
    Dated ⟨next, discoveries, world.batches ++ recordings world.admissions next⟩ := by
  cases event with
  | create scope =>
      cases stepped
      refine dated.unlogged ?_ ?_ (fun name cell found => ?_) discoveries
      · rfl
      · rfl
      dsimp only at found
      rw [Finmap.lookup_insert_eq] at found
      split at found
      · cases found
        exact .inr rfl
      · exact .inl found
  | evict gone =>
      simp only [Admissions.step] at stepped
      split at stepped
      · split at stepped
        · cases stepped
          refine dated.unlogged ?_ ?_ (fun name cell found => .inl ?_) discoveries
          · rfl
          · rfl
          by_cases same : name = gone
          · subst same
            simp at found
          · exact (Finmap.lookup_erase_ne same).symm.trans found
        · cases stepped
      · cases stepped
  | act acting now act =>
      obtain ⟨cell, done, at_, later, does, same⟩ := Admissions.step_act stepped
      have logged : next.log = world.admissions.log ++ done.entries := by rw [same]
      have clock : next.clock = now := by rw [same]
      have cells : next.cells = world.admissions.cells.insert acting done.cell := by rw [same]
      have byNow : ∀ {name time}, (name, time) ∈
          world.batches ++ recordings world.admissions next → time ≤ now := by
        intro name time mem
        rcases List.mem_append.mp mem with old | new
        · exact (dated.past name time old).trans later
        · exact ((mem_recordings logged new).1.trans clock).le
      refine ⟨fun name time mem => (byNow mem).trans clock.ge, fun name other found => ?_⟩
      dsimp only at found
      rw [cells, Finmap.lookup_insert_eq] at found
      -- A batch is recorded by one act, under its own cell and at its own time; other acts
      -- record none.
      rcases does.recorded with ⟨recorded, batch, judged, only⟩ | ⟨noBatch, kept⟩
      · split at found
        · cases found
          exact .inr ⟨now, recorded, fun time mem => byNow mem⟩
        · rename_i apart
          rcases dated.latest name other found with empty | ⟨last, lastly, before⟩
          · exact .inl empty
          · refine .inr ⟨last, lastly, fun time mem => ?_⟩
            rcases List.mem_append.mp mem with old | new
            · exact before time old
            · obtain ⟨-, _, _, inside⟩ := mem_recordings logged new
              rw [only] at inside
              cases List.mem_singleton.mp inside
              exact absurd rfl apart
      · have old : ∀ {name time}, (name, time) ∈
            world.batches ++ recordings world.admissions next → (name, time) ∈ world.batches := by
          intro name time mem
          refine (List.mem_append.mp mem).resolve_right fun new => ?_
          obtain ⟨-, batch, judged, inside⟩ := mem_recordings logged new
          exact noBatch name batch judged inside
        split at found
        · rename_i same
          subst same
          cases found
          rcases kept with ⟨sameLast, stillEmpty⟩ | empty
          · rcases dated.latest name cell at_ with empty | ⟨last, lastly, before⟩
            · exact .inl (stillEmpty empty)
            · exact .inr ⟨last, sameLast.trans lastly, fun time mem => before time (old mem)⟩
          · exact .inl empty
        · rcases dated.latest name other found with empty | ⟨last, lastly, before⟩
          · exact .inl empty
          · exact .inr ⟨last, lastly, fun time mem => before time (old mem)⟩

/-- A round is one act of its waiting renewal on the cache; it records no batch. -/
theorem step_round {world next : Renewals} {name : Cell} {round : Round}
    (stepped : step epoch capacity world (.round name round) = some next) :
    ∃ cell planned granted, world.admissions.cells.lookup name = some cell ∧
      cell.renewals.lookup round.id = some (.waiting planned) ∧ round.jitter ≤ renewJitter ∧
      Admissions.step epoch capacity world.admissions (.act name round.now
        (.renew round.id round.jitter (round.blocked world.discoveries cell.scope) granted
          round.due)) = some next.admissions ∧
      next.batches = world.batches := by
  simp only [step] at stepped
  split at stepped
  · cases stepped
  · rename_i cell found
    split at stepped
    · rename_i planned waits
      split at stepped
      · cases stepped
      · rename_i within
        have jitters := Nat.le_of_not_lt (not_or.mp within).1
        split at stepped
        · split at stepped
          · obtain ⟨after, acted, rfl⟩ := Option.map_eq_some_iff.mp stepped
            exact ⟨cell, planned, true, found, waits, jitters, acted, rfl⟩
          · obtain ⟨after, acted, rfl⟩ := Option.map_eq_some_iff.mp stepped
            exact ⟨cell, planned, false, found, waits, jitters, acted, rfl⟩
        · obtain ⟨after, acted, rfl⟩ := Option.map_eq_some_iff.mp stepped
          exact ⟨cell, planned, false, found, waits, jitters, acted, rfl⟩
    · cases stepped

/-- The renewal's part of such an act. -/
theorem renewed_of_step {admissions next : Admissions} {name : Cell} {now : Instant} {id : Nat}
    {jitter : Duration} {blocked planned : Option Instant} {granted : Bool}
    {due : List InstanceKey} {cell : ScopeCell} (found : admissions.cells.lookup name = some cell)
    (waits : cell.renewals.lookup id = some (.waiting planned))
    (stepped : Admissions.step epoch capacity admissions
      (.act name now (.renew id jitter blocked granted due)) = some next) :
    ∃ around : Surroundings, around.now = now ∧ ∃ done,
      cell.renew around id planned jitter blocked granted due = some done ∧
      next.cells = admissions.cells.insert name done.cell := by
  simp only [Admissions.step, found] at stepped
  split at stepped
  · obtain ⟨done, did, rfl⟩ := Option.map_eq_some_iff.mp stepped
    refine ⟨⟨name, admissions.nextId, epoch, capacity, admissions.ledger, now⟩, rfl, done, ?_, rfl⟩
    unfold ScopeCell.step at did
    rcases Option.or_eq_some_iff.mp did with apart | ⟨-, locked⟩
    · cases apart
    · split at locked
      · rename_i holder _
        cases holder <;> cases locked
      · simpa only [ScopeCell.free, waits] using locked
  · cases stepped

/-- What every event of a run keeps. -/
theorem Dated.next {world next : Renewals} {event : Event} (dated : world.Dated)
    (stepped : step epoch capacity world event = some next) : next.Dated := by
  cases event with
  | act event =>
      simp only [step] at stepped
      split at stepped
      · cases stepped
      · obtain ⟨after, acted, rfl⟩ := Option.map_eq_some_iff.mp stepped
        exact dated.act acted world.discoveries
  | budget op =>
      cases stepped
      exact ⟨dated.past, dated.latest⟩
  | round name round =>
      obtain ⟨_, _, _, -, -, -, acted, sameBatches⟩ := step_round stepped
      have kept := (dated.act acted next.discoveries).fewer
        (List.subset_append_left world.batches _) next.discoveries
      rw [← sameBatches] at kept
      exact kept

theorem Dated.reachable {world : Renewals}
    (reached : (renewalsMachine epoch capacity).Reachable world) : world.Dated := by
  refine reached.invariant ⟨fun _ _ mem => ?_, fun name cell found => ?_⟩
    fun state event next dated stepped => dated.next stepped
  · cases mem
  · simp [renewalsMachine] at found

/-! ### Every evidence call of a run -/

/-- A round that is charged in fact: its readings, and what its locked section did. -/
theorem Calls.renewed {world : Renewals} {name : Cell} {round : Round} {cell : ScopeCell}
    {planned : Option Instant} (calls : Calls epoch capacity world name round cell planned) :
    round.jitter ≤ renewJitter ∧ ∃ around : Surroundings, around.now = round.now ∧
      ∃ done, cell.renew around round.id planned round.jitter
        (round.blocked world.discoveries cell.scope) true round.due = some done := by
  obtain ⟨next, stepped⟩ := calls.enabled
  have granted : (round.budgets world.discoveries).chargeEvidence cell.scope.1 cell.scope.2
      round.charged = (.ok (), ((round.budgets world.discoveries).chargeEvidence cell.scope.1
        cell.scope.2 round.charged).2) :=
    Prod.ext calls.granted rfl
  simp only [step, calls.found, calls.waits] at stepped
  split at stepped
  · cases stepped
  · rename_i within
    rw [if_pos calls.reaches, granted] at stepped
    obtain ⟨after, acted, -⟩ := Option.map_eq_some_iff.mp stepped
    obtain ⟨around, sameNow, done, renewed, -⟩ := renewed_of_step calls.found calls.waits acted
    exact ⟨Nat.le_of_not_lt (not_or.mp within).1, around, sameNow, done, renewed⟩

/-- A round that reaches a target planned for an admission finds it about to end. -/
theorem ending_of_target {now ends : Instant} {jitter : Duration} (jitters : jitter ≤ renewJitter)
    (running : now < ends)
    (reached : (Instant.checkedSub ends (refreshAhead + jitter)).getD ends ≤ now) :
    ends ≤ now + refreshAhead + renewJitter := by
  unfold Instant.checkedSub at reached
  split at reached
  · rw [Option.getD_some, Nat.sub_le_iff_le_add] at reached
    rw [Nat.add_assoc]
    exact reached.trans (Nat.add_le_add_left (Nat.add_le_add_left jitters refreshAhead) now)
  · rw [Option.getD_none] at reached
    exact absurd running (Nat.not_lt.mpr reached)

/-- A call is for what ends within the window and has not ended yet. -/
theorem Calls.mem_due {world : Renewals} {name : Cell} {round : Round} {cell : ScopeCell}
    {planned : Option Instant} (calls : Calls epoch capacity world name round cell planned)
    (key : InstanceKey) :
    key ∈ round.due ↔ ∃ untilAt, cell.state.admitted.lookup key = some untilAt ∧
      round.now < untilAt ∧ untilAt ≤ round.now + refreshAhead + renewJitter := by
  obtain ⟨-, around, sameNow, done, renewed⟩ := calls.renewed
  have reaches := calls.reaches
  rw [← sameNow] at reaches
  have same := ScopeCell.renew_due reaches renewed
  rw [sameNow] at same
  rw [← Multiset.mem_coe, same, Finset.mem_val, ChuteState.mem_expiring]
  refine exists_congr fun untilAt => ?_
  rw [ChuteState.prune_admitted, and_assoc]

/-- A call comes after the interval and the backoffs and for a warm chute, so it is due
exactly if some admission is about to end. -/
theorem Calls.due_iff_ending {world : Renewals} {name : Cell} {round : Round} {cell : ScopeCell}
    {planned : Option Instant} (dated : world.Dated)
    (calls : Calls epoch capacity world name round cell planned) :
    CallIsDue world name round cell ↔
      ∃ key untilAt, cell.state.admitted.lookup key = some untilAt ∧ round.now < untilAt ∧
        untilAt ≤ round.now + refreshAhead + renewJitter := by
  constructor
  · intro due
    obtain ⟨key, inside⟩ := List.exists_mem_of_ne_nil _ due.nonempty
    exact ⟨key, (calls.mem_due key).mp inside⟩
  · rintro ⟨key, ends⟩
    obtain ⟨earliest, first, warm, wakes⟩ := ChuteState.reachesCharge_iff.mp calls.reaches
    obtain ⟨firstKey, firstHeld⟩ := ChuteState.lookup_of_earliest first
    have held := (ChuteState.prune_admitted.mp firstHeld).1
    refine ⟨List.ne_nil_of_mem ((calls.mem_due key).mpr ends), fun other => (calls.mem_due other).mp,
      fun at_ recorded => ?_, Discoveries.noBackoff_of_charged calls.granted, warm⟩
    rcases dated.latest name cell calls.found with empty | ⟨last, lastly, before⟩
    · rw [empty] at held
      cases held
    · have interval : last + minRenewalInterval ≤ round.now := by
        refine le_trans ?_ ((le_max_right _ _).trans wakes)
        refine le_trans (Eq.le ?_) (le_max_left _ _)
        change _ = (cell.state.lastRecorded.map fun at_ => at_ + minRenewalInterval).getD 0
        rw [lastly]
        rfl
      exact (Nat.add_le_add_right (before at_ recorded) _).trans interval

/-! ### Where a plan comes from -/

/-- Only a round of a renewal gives it a plan. -/
theorem plan_of_act {around : Surroundings} {cell : ScopeCell} {act : Act} {done : Done} {id : Nat}
    {target : Instant} (does : cell.Does around act done)
    (other : ∀ jitter blocked granted due, act ≠ .renew id jitter blocked granted due)
    (waits : done.cell.renewals.lookup id = some (.waiting (some target))) :
    cell.renewals.lookup id = some (.waiting (some target)) := by
  -- A phase that is set is another renewal's, or no plan.
  have kept : ∀ {set : Nat} {phase : RenewalPhase},
      (cell.renewals.insert set phase).lookup id = some (.waiting (some target)) →
      (set = id → phase ≠ .waiting (some target)) →
      cell.renewals.lookup id = some (.waiting (some target)) := by
    intro set phase inserted apart
    rw [Finmap.lookup_insert_eq] at inserted
    split at inserted
    · rename_i same
      exact absurd (Option.some.inj inserted) (apart same.symm)
    · exact inserted
  have left : ∀ {gone : Nat}, (cell.renewals.erase gone).lookup id =
        some (.waiting (some target)) →
      cell.renewals.lookup id = some (.waiting (some target)) := by
    intro gone erased
    by_cases same : id = gone
    · subst same
      simp at erased
    · exact (Finmap.lookup_erase_ne same).symm.trans erased
  cases does with
  | keepWarm | renewAsk | renewAnswer | renewFail | renewArm =>
      refine kept waits fun _ planned => ?_
      cases planned
  | renewWait =>
      refine kept waits fun same => ?_
      subst same
      exact absurd rfl (other _ _ _ _)
  | renewStop | renewGone => exact left waits
  | lock | retryLock | prune | issue | noTicket | askEvidence | answerEvidence | askDiscovery
  | answerDiscovery | release | serve | invalidate => exact waits

/-- Only a renewal's own round plans it; any other step leaves its plan. -/
theorem plan_of_step {admissions next : Admissions} {event : Admissions.Event} {name : Cell}
    {id : Nat} {target : Instant} {after : ScopeCell}
    (stepped : Admissions.step epoch capacity admissions event = some next)
    (other : ∀ now jitter blocked granted due,
      event ≠ .act name now (.renew id jitter blocked granted due))
    (found : next.cells.lookup name = some after)
    (waits : after.renewals.lookup id = some (.waiting (some target))) :
    ∃ cell, admissions.cells.lookup name = some cell ∧
      cell.renewals.lookup id = some (.waiting (some target)) := by
  cases event with
  | create scope =>
      cases stepped
      dsimp only at found
      rw [Finmap.lookup_insert_eq] at found
      split at found
      · cases found
        simp at waits
      · exact ⟨after, found, waits⟩
  | evict gone =>
      simp only [Admissions.step] at stepped
      split at stepped
      · split at stepped
        · cases stepped
          by_cases same : name = gone
          · subst same
            simp at found
          · exact ⟨after, (Finmap.lookup_erase_ne same).symm.trans found, waits⟩
        · cases stepped
      · cases stepped
  | act acting now act =>
      obtain ⟨cell, done, at_, -, does, rfl⟩ := Admissions.step_act stepped
      dsimp only at found
      rw [Finmap.lookup_insert_eq] at found
      split at found
      · rename_i same
        subst same
        cases found
        refine ⟨cell, at_, plan_of_act does (fun jitter blocked granted due renews => ?_) waits⟩
        exact other now jitter blocked granted due (renews ▸ rfl)
      · exact ⟨after, found, waits⟩

/-- A plan that was there after an event that is no round of the renewal was there before. -/
theorem Waits.before {name : Cell} {id : Nat} {target : Instant} {before : List Event}
    {event : Event} (waits : Waits epoch capacity name id (some target) (before ++ [event]))
    (other : ∀ round, event = .round name round → round.id ≠ id) :
    Waits epoch capacity name id (some target) before := by
  obtain ⟨next, after, ran, found, planned⟩ := waits
  obtain ⟨world, run, last⟩ := (Machine.exec_append_eq_some _).mp ran
  obtain ⟨_, stepped, same⟩ := (Machine.exec_cons_eq_some _).mp last
  cases same
  cases event with
  | act event =>
      change step epoch capacity world (.act event) = some next at stepped
      simp only [step] at stepped
      split at stepped
      · cases stepped
      · rename_i noRound
        obtain ⟨admissions, acted, rfl⟩ := Option.map_eq_some_iff.mp stepped
        obtain ⟨cell, at_, was⟩ := plan_of_step acted
          (fun now jitter blocked granted due same => noRound (same ▸ rfl)) found planned
        exact ⟨world, cell, run, at_, was⟩
  | budget op =>
      cases stepped
      exact ⟨world, after, run, found, planned⟩
  | round acting round =>
      obtain ⟨_, _, _, -, -, -, acted, -⟩ := step_round stepped
      obtain ⟨cell, at_, was⟩ := plan_of_step acted
        (fun now jitter blocked granted due same => by
          cases same
          exact other round rfl rfl) found planned
      exact ⟨world, cell, run, at_, was⟩

/-- Every plan a renewal waits with was computed from admissions. -/
theorem exists_plannedFrom {name : Cell} {id : Nat} {target : Instant} {events : List Event}
    (waits : Waits epoch capacity name id (some target) events) :
    ∃ state ends, PlannedFrom epoch capacity name id target events state ends := by
  induction events using List.reverseRecOn with
  | nil =>
      obtain ⟨world, cell, ran, found, -⟩ := waits
      cases ran
      simp [renewalsMachine] at found
  | append_singleton before event ih =>
      by_cases own : ∃ round, event = .round name round ∧ round.id = id
      · obtain ⟨round, rfl, rfl⟩ := own
        have waitsNow := waits
        obtain ⟨next, after, ran, foundAfter, planned⟩ := waitsNow
        obtain ⟨world, run, last⟩ := (Machine.exec_append_eq_some _).mp ran
        obtain ⟨_, stepped, same⟩ := (Machine.exec_cons_eq_some _).mp last
        cases same
        obtain ⟨cell, was, granted, found, waited, -, acted, -⟩ := step_round stepped
        obtain ⟨around, sameNow, done, renewed, cells⟩ := renewed_of_step found waited acted
        rw [cells, Finmap.lookup_insert] at foundAfter
        cases foundAfter
        obtain ⟨ends, first, same⟩ := ScopeCell.renew_waits renewed planned
        rw [sameNow] at first
        cases was with
        | none => exact ⟨_, ends, .plans run found waited rfl first waits⟩
        | some kept =>
            cases same
            obtain ⟨state, ends, planned⟩ := ih ⟨world, cell, run, found, waited⟩
            exact ⟨state, ends, .kept planned waits⟩
      · have before := waits.before fun round same ownId => own ⟨round, same, ownId⟩
        obtain ⟨state, ends, planned⟩ := ih before
        exact ⟨state, ends, .kept planned waits⟩

/-- A plan is at most `refreshAhead + renewJitter` ahead of the end it was computed from. -/
theorem PlannedFrom.target {name : Cell} {id : Nat} {target ends : Instant} {events : List Event}
    {state : ChuteState}
    (planned : PlannedFrom epoch capacity name id target events state ends) :
    ∃ jitter ≤ renewJitter,
      target = (Instant.checkedSub ends (refreshAhead + jitter)).getD ends := by
  induction planned with
  | @plans before round world cell ends run found unplanned own first waits =>
      subst own
      obtain ⟨next, after, ran, foundAfter, planned⟩ := waits
      obtain ⟨_, run', last⟩ := (Machine.exec_append_eq_some _).mp ran
      cases run'.symm.trans run
      obtain ⟨_, stepped, same⟩ := (Machine.exec_cons_eq_some _).mp last
      cases same
      obtain ⟨_, was, granted, found', waited, jitters, acted, -⟩ := step_round stepped
      cases found'.symm.trans found
      cases waited.symm.trans unplanned
      obtain ⟨around, sameNow, done, renewed, cells⟩ := renewed_of_step found waited acted
      rw [cells, Finmap.lookup_insert] at foundAfter
      cases foundAfter
      obtain ⟨ends', first', same⟩ := ScopeCell.renew_waits renewed planned
      rw [sameNow, first] at first'
      cases first'
      exact ⟨round.jitter, jitters, same⟩
  | kept _ _ ih => exact ih

theorem PlannedFrom.waits {name : Cell} {id : Nat} {target ends : Instant} {events : List Event}
    {state : ChuteState}
    (planned : PlannedFrom epoch capacity name id target events state ends) :
    Waits epoch capacity name id (some target) events := by
  cases planned with
  | plans _ _ _ _ _ waits => exact waits
  | kept _ waits => exact waits

/-- The last event planned, or the plan was there before it. -/
theorem PlannedFrom.last {name : Cell} {id : Nat} {target ends : Instant} {before : List Event}
    {event : Event} {state : ChuteState}
    (planned : PlannedFrom epoch capacity name id target (before ++ [event]) state ends) :
    (∃ round world cell, event = .round name round ∧
      (renewalsMachine epoch capacity).run before = some world ∧
      world.admissions.cells.lookup name = some cell ∧ state = cell.state.prune round.now ∧
      state.earliest = some ends) ∨
    PlannedFrom epoch capacity name id target before state ends := by
  generalize whole : before ++ [event] = events at planned
  cases planned with
  | plans ran found _ _ first _ =>
      obtain ⟨rfl, last⟩ := List.append_inj' whole rfl
      exact .inl ⟨_, _, _, List.cons.inj last |>.1, ran, found, rfl, first⟩
  | kept planned _ =>
      obtain ⟨rfl, -⟩ := List.append_inj' whole rfl
      exact .inr planned

/-! ### Calls whose plan stands -/

/-- A call whose plan stands is due: what was planned for is about to end. -/
theorem Calls.due_of_stands {world : Renewals} {name : Cell} {round : Round} {cell : ScopeCell}
    {planned : Option Instant} {before : List Event}
    (ran : (renewalsMachine epoch capacity).run before = some world)
    (calls : Calls epoch capacity world name round cell planned)
    (stands : PlanStands epoch capacity before name round cell planned) :
    CallIsDue world name round cell := by
  refine (calls.due_iff_ending (Dated.reachable ⟨before, ran⟩)).mpr ?_
  obtain ⟨jitters, -⟩ := calls.renewed
  obtain ⟨earliest, first, -, wakes⟩ := ChuteState.reachesCharge_iff.mp calls.reaches
  have reached := (le_max_left _ _).trans wakes
  cases planned with
  | none =>
      -- the plan is of this very round, for the admission that ends first
      obtain ⟨key, firstHeld⟩ := ChuteState.lookup_of_earliest first
      obtain ⟨held, running⟩ := ChuteState.prune_admitted.mp firstHeld
      exact ⟨key, earliest, held, running, ending_of_target jitters running reached⟩
  | some target =>
      obtain ⟨state, ends, planned⟩ :=
        exists_plannedFrom ⟨world, cell, ran, calls.found, calls.waits⟩
      obtain ⟨key, -, held, running⟩ := stands target state ends rfl planned
      obtain ⟨jitter, jitters, same⟩ := planned.target
      exact ⟨key, ends, held, running, ending_of_target jitters running (same ▸ reached)⟩

/-- A property of every evidence call of a run, and of the events before it. -/
def EveryCall (epoch : Duration) (capacity : Nat) (events : List Event)
    (property : List Event → Renewals → Cell → Round → ScopeCell → Option Instant → Prop) :
    Prop :=
  ∀ before name round after, events = before ++ .round name round :: after →
    ∀ world, (renewalsMachine epoch capacity).run before = some world →
    ∀ cell planned, Calls epoch capacity world name round cell planned →
      property before world name round cell planned

/-- In a run in which no plan outlives the admissions it was computed from, every evidence
call is due. -/
theorem renewals_call_when_due (epoch : Duration) (capacity : Nat) (events : List Event)
    (stands : EveryCall epoch capacity events fun before _ name round cell planned =>
      PlanStands epoch capacity before name round cell planned) :
    EveryCall epoch capacity events fun _ world name round cell _ =>
      CallIsDue world name round cell := by
  intro before name round after split_ world ran cell planned calls
  exact calls.due_of_stands ran (stands before name round after split_ world ran cell planned calls)

/-- The rounds of a run that begins with other events come after these. -/
theorem rounds_of_split {acts rounds before after : List Event} {name : Cell} {round : Round}
    (noRounds : (acts.all fun event => !event.isRound) = true)
    (split_ : acts ++ rounds = before ++ .round name round :: after) :
    ∃ earlier, before = acts ++ earlier ∧ rounds = earlier ++ .round name round :: after := by
  rcases List.append_eq_append_iff.mp split_ with ⟨earlier, rfl, same⟩ | ⟨last, rfl, same⟩
  · exact ⟨earlier, rfl, same⟩
  · cases last with
    | nil => exact ⟨[], by simp, same.symm⟩
    | cons event last =>
        obtain ⟨rfl, -⟩ := List.cons.inj same
        simp [Event.isRound] at noRounds

/-- A round at that second, for these instances, with the budgets left alone. -/
def roundAt (secs : Nat) (due : List InstanceKey) : Round :=
  ⟨12, Duration.fromSecs secs, 0, Duration.fromSecs secs, [], Duration.fromSecs secs, ⟨0, 0, 0⟩,
    due⟩

def actsAt (secs : Nat) (acts : List Act) : List Event :=
  acts.map fun act => .act (.act 0 (Duration.fromSecs secs) act)

/-- A first ticket whose evidence is good for this many seconds, and the renewal it starts. -/
def firstTicketFor (expires : Nat) : List Event :=
  .act (.create ([7], "kimi-k3")) ::
    actsAt 0 [.lock, .prune, .take, .askDiscovery, .answerDiscovery smallDiscovery, .prune, .take,
      .askEvidence 0, .answerEvidence [.expires expires], .prune, .take, .serve]

/-- The renewal plans at once for 600 seconds, when its only admission has five minutes
left, and is in time. -/
theorem renewals_call_when_due_in_time : ∃ world cell,
    (renewalsMachine 0 maxIssuedNonces).run (firstTicketFor 1000 ++ [.round 0 (roundAt 0 [])]) =
        some world ∧
      Calls 0 maxIssuedNonces world 0 (roundAt 600 [("inst", "key")]) cell
        (some (Duration.fromSecs 600)) ∧
      CallIsDue world 0 (roundAt 600 [("inst", "key")]) cell := by
  let firsts := firstTicketFor 1000
  let planning := roundAt 0 []
  let calling := roundAt 600 [("inst", "key")]
  have ran : ((renewalsMachine 0 maxIssuedNonces).run firsts).bind (fun world =>
      (world.admissions.cells.lookup 0).map fun cell => decide (
        cell.renewals.lookup 12 = some (.waiting none) ∧
        (cell.state.prune 0).earliest = WithTop.some (Duration.fromSecs 900) ∧
        (cell.state.prune 0).admitted.lookup ("inst", "key") = some (Duration.fromSecs 900))) =
      some true := by
    decide +kernel
  have ranOn : ((renewalsMachine 0 maxIssuedNonces).run (firsts ++ [.round 0 planning])).bind
      (fun world => (world.admissions.cells.lookup 0).map fun cell => decide (
        cell.renewals.lookup 12 = some (.waiting (some (Duration.fromSecs 600))) ∧
        (cell.state.prune calling.now).reachesCharge calling.now
          (some (Duration.fromSecs 600)) 0 (calling.blocked world.discoveries cell.scope) = true ∧
        ((calling.budgets world.discoveries).chargeEvidence cell.scope.1 cell.scope.2
          calling.charged).1 = .ok () ∧
        (step 0 maxIssuedNonces world (.round 0 calling)).isSome = true ∧
        cell.state.admitted.lookup ("inst", "key") = some (Duration.fromSecs 900))) =
      some true := by
    decide +kernel
  obtain ⟨start, run, looked⟩ := Option.bind_eq_some_iff.mp ran
  obtain ⟨startCell, startFound, all⟩ := Option.map_eq_some_iff.mp looked
  obtain ⟨unplanned, first, planned⟩ := of_decide_eq_true all
  obtain ⟨world, runOn, looked⟩ := Option.bind_eq_some_iff.mp ranOn
  obtain ⟨cell, found, all⟩ := Option.map_eq_some_iff.mp looked
  obtain ⟨waits, reaches, granted, enabled, held⟩ := of_decide_eq_true all
  have calls : Calls 0 maxIssuedNonces world 0 calling cell (some (Duration.fromSecs 600)) :=
    ⟨found, waits, reaches, granted, Option.isSome_iff_exists.mp enabled⟩
  refine ⟨world, cell, runOn, calls, ?_⟩
  refine renewals_call_when_due 0 maxIssuedNonces
    (firsts ++ [.round 0 planning, .round 0 calling]) ?_ (firsts ++ [.round 0 planning]) 0 calling []
    (by simp) world runOn cell _ calls
  intro before name round after split_ at_ reached its plan calls target state ends same from_
  subst same
  obtain ⟨earlier, rfl, rounds⟩ := rounds_of_split (by decide) split_
  rcases earlier with _ | ⟨event, _ | ⟨event', rest⟩⟩
  · -- The first round has no plan yet.
    cases rounds
    rw [List.append_nil] at reached
    cases run.symm.trans reached
    cases startFound.symm.trans calls.found
    cases unplanned.symm.trans calls.waits
  · -- What it planned for then is still held by the second.
    cases rounds
    cases runOn.symm.trans reached
    cases found.symm.trans calls.found
    rcases from_.last with ⟨round, startOf, itsCell, plans, ran, its, rfl, ending⟩ | before
    · cases plans
      cases run.symm.trans ran
      cases startFound.symm.trans its
      cases first.symm.trans ending
      exact ⟨_, planned, held, by decide⟩
    · obtain ⟨other, otherCell, ran, its, waited⟩ := before.waits
      cases run.symm.trans ran
      cases startFound.symm.trans its
      cases unplanned.symm.trans waited
  · simp at rounds

/-! ### A plan that outlived its admission -/

/-- A second instance, discovered later. -/
def laterDiscovery : Discovery :=
  ⟨[⟨"later", "key", ["nonce"]⟩], 60, by decide, smallDiscovery.lifetime,
    List.pairwise_singleton _ _, smallDiscovery.freshNonces⟩

/-- The first ticket's admission ends after a minute; a second instance's, admitted half a
minute later, is good for its quarter of an hour. -/
def staleSchedule : List Event :=
  firstTicketFor 60 ++ [.round 0 (roundAt 0 [])] ++
    actsAt 90 [.lock, .prune, .take, .askDiscovery, .answerDiscovery laterDiscovery, .prune, .take,
      .askEvidence 0, .answerEvidence [.expires 1000], .prune, .take, .serve] ++
    [.round 0 (roundAt 120 [])]

/-- A plan of an admission no longer held calls for nothing. -/
theorem stale_plan_calls_for_nothing : ¬ EveryCall 0 maxIssuedNonces
    (staleSchedule ++ [.round 0 (roundAt 210 [])]) fun _ world name round cell _ =>
      CallIsDue world name round cell := by
  intro everyCall
  let round := roundAt 210 []
  have ran : ((renewalsMachine 0 maxIssuedNonces).run staleSchedule).bind (fun world =>
      (world.admissions.cells.lookup 0).map fun cell => decide (
        cell.renewals.lookup 12 = some (.waiting (some (Duration.fromSecs 60))) ∧
        (cell.state.prune round.now).reachesCharge round.now
          (some (Duration.fromSecs 60)) 0 (round.blocked world.discoveries cell.scope) = true ∧
        ((round.budgets world.discoveries).chargeEvidence cell.scope.1 cell.scope.2
          round.charged).1 = .ok () ∧
        (step 0 maxIssuedNonces world (.round 0 round)).isSome = true)) = some true := by
    decide +kernel
  obtain ⟨world, run, looked⟩ := Option.bind_eq_some_iff.mp ran
  obtain ⟨cell, found, all⟩ := Option.map_eq_some_iff.mp looked
  obtain ⟨waits, reaches, granted, enabled⟩ := of_decide_eq_true all
  have due := everyCall staleSchedule 0 round [] rfl world run cell _
    ⟨found, waits, reaches, granted, Option.isSome_iff_exists.mp enabled⟩
  exact due.nonempty rfl

end Renewals

end GmMiner.Chutes
