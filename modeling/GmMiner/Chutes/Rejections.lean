import GmMiner.Lib.History
import GmMiner.Chutes.TicketValidity

/-!
A rejected instance stays out until evidence fetched afterwards admits it.

A request fetches evidence under the cell's lock, so no verdict can land between
its call and its record. A renewal fetches without the lock and may come late;
it is held back by the generation it began at. While one runs, `renewalSince`
keeps every decision made after it began (`prune_decided`), so it cannot admit an
instance rejected meanwhile, however long ago the rejection itself expired.

The runs here have no `invalidate`, which resets the generation under a renewal
that is only being aborted.
-/

namespace GmMiner.Chutes

open GmMiner.Lib

/-- The entry records a rejection of the instance in the cell. -/
def Entry.Rejects (name : Cell) (key : InstanceKey) : Entry → Prop
  | .recorded cell _ judged =>
      cell = name ∧ ∃ inst cause, (inst, Answer.failed cause) ∈ judged ∧ inst.key = key
  | _ => False

/-- The entry records that this batch admitted the instance in the cell. -/
def Entry.Admits (name : Cell) (key : InstanceKey) (id : Nat) : Entry → Prop
  | .recorded cell batch judged => cell = name ∧ batch.id = id ∧
      ∃ inst expires, (inst, Answer.expires expires) ∈ judged ∧ inst.key = key
  | _ => False

/-- The evidence call of a batch began, and the batch then admitted the instance. -/
def Readmits (name : Cell) (key : InstanceKey) (between : List Entry) : Prop :=
  ∃ id admission, Entry.Admits name key id admission ∧
    [Entry.started name id, admission].Sublist between

theorem Readmits.snoc {name : Cell} {key : InstanceKey} {between : List Entry}
    (readmits : Readmits name key between) (entry : Entry) :
    Readmits name key (between ++ [entry]) := by
  obtain ⟨id, admission, admits, within⟩ := readmits
  exact ⟨id, admission, admits, within.trans (List.sublist_append_left _ _)⟩

/-- A batch that began in between admits the instance. -/
theorem Readmits.of_started {name : Cell} {key : InstanceKey} {between : List Entry} {id : Nat}
    {admission : Entry} (started : Entry.started name id ∈ between)
    (admits : admission.Admits name key id) : Readmits name key (between ++ [admission]) :=
  ⟨id, admission, admits,
    (List.singleton_sublist.mpr started).append (List.Sublist.refl [admission])⟩

/-- What guards a rejection in a cell. -/
structure Guarded (name : Cell) (cell : ScopeCell) (log : List Entry) : Prop where
  decidedLe : ∀ key at_, cell.state.decided.lookup key = some at_ → at_ ≤ cell.state.generation
  /-- The cell's renewal task is the one its state names. -/
  one : ∀ id phase, cell.renewals.lookup id = some phase → cell.state.renewal = some id
  armed : ∀ id since due, cell.renewals.lookup id = some (.armed since due) →
    cell.state.renewalSince = some since ∧ since ≤ cell.state.generation
  fetching : ∀ id since batch, cell.renewals.lookup id = some (.fetching since batch) →
    cell.state.renewalSince = some since ∧ since ≤ cell.state.generation
  /-- An admitted instance was readmitted after each rejection. -/
  readmitted : ∀ key, key ∈ cell.state.admitted →
    AfterEach (Entry.Rejects name key) (Readmits name key) log
  /-- A request's evidence call began after every rejection. -/
  locked : ∀ batch tries, cell.holder = some (.admitting batch tries) → ∀ key,
    AfterEach (Entry.Rejects name key) (Entry.started name batch.id ∈ ·) log
  /-- A rejection that a renewal's evidence call is older than is still decided,
  at a later generation than the renewal's. -/
  superseding : ∀ id since batch, cell.renewals.lookup id = some (.fetching since batch) → ∀ key,
    AfterEach (Entry.Rejects name key) (fun after => Entry.started name batch.id ∈ after ∨
      ∃ at_, cell.state.decided.lookup key = some at_ ∧ since < at_) log

theorem verdict_of_rejects {name cell : Cell} {key : InstanceKey} {batch : Batch}
    {judged : List (DiscoveredInstance × Answer)}
    (rejects : Entry.Rejects name key (.recorded cell batch judged)) :
    ∃ verdict ∈ admitAll batch.anchor batch.anchorWall judged, verdict.key = key ∧
      ∃ cause, verdict.outcome = .rejected cause := by
  obtain ⟨-, inst, cause, mem, named⟩ := rejects
  exact ⟨_, List.mem_map.mpr ⟨(inst, .failed cause), mem, rfl⟩, named, cause, rfl⟩

/-- A recorded batch with an admitting verdict admits the instance. -/
theorem admits_of_verdict {name : Cell} {key : InstanceKey} {batch : Batch}
    {judged : List (DiscoveredInstance × Answer)} {verdict : Verdict} {untilAt : Instant}
    (mem : verdict ∈ admitAll batch.anchor batch.anchorWall judged) (named : verdict.key = key)
    (outcome : verdict.outcome = .admitted untilAt) :
    Entry.Admits name key batch.id (.recorded name batch judged) := by
  obtain ⟨⟨inst, answer⟩, judgedMem, rfl⟩ := List.mem_map.mp mem
  cases answer with
  | expires expires => exact ⟨rfl, rfl, inst, expires, judgedMem, named⟩
  | failed | noRow => cases outcome

namespace Guarded

variable {name : Cell} {cell after : ScopeCell} {log entries : List Entry}

/-- A task that moved on is still the cell's only one. -/
theorem only_task (guarded : Guarded name cell log) {id other : Nat}
    {before phase found : RenewalPhase} (had : cell.renewals.lookup id = some before)
    (at_ : (cell.renewals.insert id phase).lookup other = some found) :
    other = id ∧ found = phase := by
  rw [Finmap.lookup_insert_eq] at at_
  split at at_
  · cases at_
    exact ⟨‹_›, rfl⟩
  · rename_i apart
    have one := (guarded.one other found at_).symm.trans (guarded.one id before had)
    exact absurd (Option.some.inj one) apart

/-- An act that records nothing: it admits nothing new, forgets no decision a
running renewal needs, and starts no evidence call. -/
theorem calm (guarded : Guarded name cell log)
    (unmarked : ∀ key, ∀ entry ∈ entries, ¬ Entry.Rejects name key entry)
    (generation : after.state.generation = cell.state.generation)
    (admitted : ∀ key, key ∈ after.state.admitted → key ∈ cell.state.admitted)
    (decided : ∀ key at_, after.state.decided.lookup key = some at_ →
      cell.state.decided.lookup key = some at_)
    (kept : ∀ key at_ since, cell.state.renewalSince = some since → since < at_ →
      cell.state.decided.lookup key = some at_ → after.state.decided.lookup key = some at_)
    (holder : ∀ batch tries, after.holder = some (.admitting batch tries) →
      cell.holder = some (.admitting batch tries))
    (renewals : ∀ id phase, after.renewals.lookup id = some phase →
      after.state.renewal = some id ∧ ((∃ planned, phase = .waiting planned) ∨
        cell.renewals.lookup id = some phase ∧
          after.state.renewalSince = cell.state.renewalSince)) :
    Guarded name after (log ++ entries) where
  decidedLe := by
    intro key at_ has
    rw [generation]
    exact guarded.decidedLe key at_ (decided key at_ has)
  one := fun id phase at_ => (renewals id phase at_).1
  armed := by
    intro id since due at_
    rcases (renewals id _ at_).2 with ⟨planned, waits⟩ | ⟨before, same⟩
    · cases waits
    · rw [same, generation]
      exact guarded.armed id since due before
  fetching := by
    intro id since batch at_
    rcases (renewals id _ at_).2 with ⟨planned, waits⟩ | ⟨before, same⟩
    · cases waits
    · rw [same, generation]
      exact guarded.fetching id since batch before
  readmitted := fun key mem =>
    (guarded.readmitted key (admitted key mem)).append (fun _ entry readmits => readmits.snoc entry)
      (unmarked key)
  locked := fun batch tries holds key =>
    (guarded.locked batch tries (holder batch tries holds) key).append
      (fun _ _ started => List.mem_append_left _ started) (unmarked key)
  superseding := by
    intro id since batch at_ key
    rcases (renewals id _ at_).2 with ⟨planned, waits⟩ | ⟨before, same⟩
    · cases waits
    · refine AfterEach.append ?_ ?_ (unmarked key)
      · refine (guarded.superseding id since batch before key).mono fun rest shown => ?_
        rcases shown with started | ⟨at', has, later⟩
        · exact .inl started
        · exact .inr ⟨at', kept key at' since (guarded.fetching id since batch before).1 later has,
            later⟩
      · exact fun rest entry shown => shown.imp (List.mem_append_left _) fun decided => decided

end Guarded

/-! ### Recording a batch -/

section Record

variable {name : Cell} {log : List Entry} {state : ChuteState} {batch : Batch}
  {answers : List Answer} {since : Option Nat} {now : Instant} {key : InstanceKey}

/-- The state after the batch, and the entry it adds to the log. -/
abbrev recordedState (state : ChuteState) (batch : Batch) (answers : List Answer) (now : Instant)
    (since : Option Nat) : ChuteState :=
  state.record (admitAll batch.anchor batch.anchorWall (batch.instances.zip answers)) now since

/-- A recorded batch is one generation more, and leaves the renewals. -/
theorem recordedState_frame (state : ChuteState) (batch : Batch) (answers : List Answer)
    (now : Instant) (since : Option Nat) :
    (recordedState state batch answers now since).generation = state.generation + 1 ∧
      (recordedState state batch answers now since).renewal = state.renewal ∧
      (recordedState state batch answers now since).renewalSince = state.renewalSince := by
  obtain ⟨admitted, rejected, decided, frame⟩ := state.record_frame
    (admitAll batch.anchor batch.anchorWall (batch.instances.zip answers)) now since
  unfold recordedState
  rw [frame]
  exact ⟨rfl, rfl, rfl⟩

private theorem batch_decides (state : ChuteState) (since : Option Nat) (now : Instant)
    (distinct : (batch.instances.map DiscoveredInstance.key).Nodup)
    (each : answers.length = batch.instances.length) (key : InstanceKey) :
    ChuteState.Decides (admitAll batch.anchor batch.anchorWall (batch.instances.zip answers)) since
      (state.generation + 1) key state (recordedState state batch answers now since) :=
  state.record_decides (by rw [map_key_admitAll _ _ _ _ each]; exact distinct) now since key

private theorem not_rejects
    (notRejected : ∀ verdict ∈ admitAll batch.anchor batch.anchorWall (batch.instances.zip answers),
      verdict.key = key → ∀ cause, verdict.outcome ≠ .rejected cause) :
    ¬ Entry.Rejects name key (.recorded name batch (batch.instances.zip answers)) := by
  intro rejects
  obtain ⟨verdict, mem, named, cause, outcome⟩ := verdict_of_rejects rejects
  exact notRejected verdict mem named cause outcome

/-- What a batch admits it readmits, if its evidence call began after every
rejection; what stays admitted it did not reject. -/
theorem readmitted_record (state : ChuteState)
    (distinct : (batch.instances.map DiscoveredInstance.key).Nodup)
    (each : answers.length = batch.instances.length)
    (before : key ∈ state.admitted → AfterEach (Entry.Rejects name key) (Readmits name key) log)
    (late : (∀ start, since = some start → ∀ at_, state.decided.lookup key = some at_ →
      at_ ≤ start) → AfterEach (Entry.Rejects name key) (Entry.started name batch.id ∈ ·) log)
    (mem : key ∈ (recordedState state batch answers now since).admitted) :
    AfterEach (Entry.Rejects name key) (Readmits name key)
      (log ++ [.recorded name batch (batch.instances.zip answers)]) := by
  obtain ⟨untilAt, has⟩ := Finmap.mem_iff.mp mem
  rcases batch_decides state since now distinct each key with
    ⟨admitted, -, notRejected⟩ |
    ⟨verdict, listed, named, until', outcome, -, -, latest, notRejected⟩ |
    ⟨-, -, -, -, -, none, -⟩
  · refine (before (Finmap.mem_of_lookup_eq_some (admitted.symm.trans has))).snoc
      (fun rest readmits => readmits.snoc _) fun rejects => absurd rejects (not_rejects notRejected)
  · exact (late latest).snoc
      (fun rest started => Readmits.of_started started (admits_of_verdict listed named outcome))
      fun rejects => absurd rejects (not_rejects notRejected)
  · cases none.symm.trans has

/-- A rejection is decided at the batch's generation, and no decision is undone. -/
theorem decided_record (name : Cell) (state : ChuteState) (since : Option Nat) (now : Instant)
    (distinct : (batch.instances.map DiscoveredInstance.key).Nodup)
    (each : answers.length = batch.instances.length) (key : InstanceKey) :
    ((recordedState state batch answers now since).decided.lookup key =
        state.decided.lookup key ∧
      ¬ Entry.Rejects name key (.recorded name batch (batch.instances.zip answers))) ∨
    (recordedState state batch answers now since).decided.lookup key =
      some (state.generation + 1) := by
  rcases batch_decides state since now distinct each key with
    ⟨-, decided, notRejected⟩ | ⟨-, -, -, -, -, -, decided, -, -⟩ | ⟨-, -, -, -, -, -, decided⟩
  · exact .inl ⟨decided, not_rejects notRejected⟩
  · exact .inr decided
  · exact .inr decided

/-- No decision is of a generation to come. -/
theorem decidedLe_record (state : ChuteState)
    (distinct : (batch.instances.map DiscoveredInstance.key).Nodup)
    (each : answers.length = batch.instances.length)
    (le : ∀ key at_, state.decided.lookup key = some at_ → at_ ≤ state.generation) (at_ : Nat)
    (has : (recordedState state batch answers now since).decided.lookup key = some at_) :
    at_ ≤ state.generation + 1 := by
  rcases decided_record 0 state since now distinct each key with ⟨same, -⟩ | new
  · exact (le key at_ (same.symm.trans has)).trans (Nat.le_succ _)
  · cases new.symm.trans has
    exact le_rfl

end Record

/-- Without a ticket no batch is being admitted. -/
theorem not_admitting_of_whenNoTicket (state : ChuteState) (tries next : Tries) (batch : Batch) :
    ScopeCell.whenNoTicket state tries ≠ some (.admitting batch next) := by
  unfold ScopeCell.whenNoTicket
  dsimp only
  split
  · simp
  · split
    · simp
    · simp

namespace Guarded

variable {name : Cell} {cell after : ScopeCell} {log entries : List Entry}

/-- A request records its batch under the lock it fetched the evidence under. -/
theorem record (guarded : Guarded name cell log) {batch : Batch} {tries next : Tries}
    {answers : List Answer} (holds : cell.holder = some (.admitting batch tries))
    (distinct : (batch.instances.map DiscoveredInstance.key).Nodup)
    (each : answers.length = batch.instances.length) (now : Instant) :
    Guarded name
      { cell with
        state := recordedState cell.state batch answers now none
        holder := some (.issuing next) }
      (log ++ [.recorded name batch (batch.instances.zip answers)]) := by
  obtain ⟨generation, renewal, renewalSince⟩ :=
    recordedState_frame cell.state batch answers now none
  exact {
    decidedLe := fun key at_ has => generation ▸
      decidedLe_record cell.state distinct each guarded.decidedLe at_ has
    one := fun id phase at_ => renewal.trans (guarded.one id phase at_)
    armed := fun id since due at_ => by
      obtain ⟨began, le⟩ := guarded.armed id since due at_
      exact ⟨renewalSince.trans began, generation ▸ le.trans (Nat.le_succ _)⟩
    fetching := fun id since batch at_ => by
      obtain ⟨began, le⟩ := guarded.fetching id since batch at_
      exact ⟨renewalSince.trans began, generation ▸ le.trans (Nat.le_succ _)⟩
    readmitted := fun key mem =>
      readmitted_record cell.state distinct each (guarded.readmitted key)
        (fun _ => guarded.locked batch tries holds key) mem
    locked := fun _ _ held => nomatch held
    superseding := fun id since other at_ key => by
      have le := (guarded.fetching id since other at_).2
      have decides := decided_record name cell.state none now distinct each key
      refine (guarded.superseding id since other at_ key).snoc (fun rest shown => ?_)
        fun rejects => ?_
      · rcases shown with started | ⟨at', has, later⟩
        · exact .inl (List.mem_append_left _ started)
        · rcases decides with ⟨same, -⟩ | new
          · exact .inr ⟨at', same.trans has, later⟩
          · exact .inr ⟨_, new, Nat.lt_succ_of_le le⟩
      · rcases decides with ⟨-, not⟩ | new
        · exact absurd rejects not
        · exact .inr ⟨_, new, Nat.lt_succ_of_le le⟩ }

/-- A renewal records its batch, yielding to what was decided since it began. -/
theorem recordRenewal (guarded : Guarded name cell log) {id since : Nat} {batch : Batch}
    {answers : List Answer} (unlocked : cell.holder = none)
    (fetched : cell.renewals.lookup id = some (.fetching since batch))
    (distinct : (batch.instances.map DiscoveredInstance.key).Nodup)
    (each : answers.length = batch.instances.length) (now : Instant) :
    Guarded name
      { cell with
        state := recordedState { cell.state with renewalSince := none } batch answers now
          (some since)
        renewals := cell.renewals.insert id (.waiting none) }
      (log ++ [.recorded name batch (batch.instances.zip answers)]) := by
  obtain ⟨generation, renewal, -⟩ :=
    recordedState_frame { cell.state with renewalSince := none } batch answers now (some since)
  exact {
    decidedLe := fun key at_ has => generation ▸
      decidedLe_record { cell.state with renewalSince := none } distinct each
        guarded.decidedLe at_ has
    one := fun other phase at_ => by
      rw [(guarded.only_task fetched at_).1]
      exact renewal.trans (guarded.one id _ fetched)
    armed := fun other since due at_ => nomatch (guarded.only_task fetched at_).2
    fetching := fun other since batch at_ => nomatch (guarded.only_task fetched at_).2
    readmitted := fun key mem => by
      refine readmitted_record { cell.state with renewalSince := none } distinct each
        (guarded.readmitted key) (fun latest => ?_) mem
      refine (guarded.superseding id since batch fetched key).mono fun rest shown => ?_
      rcases shown with started | ⟨at_, has, later⟩
      · exact started
      · exact absurd (latest since rfl at_ has) (not_le.mpr later)
    locked := fun _ _ held => nomatch unlocked.symm.trans held
    superseding := fun other since batch at_ => nomatch (guarded.only_task fetched at_).2 }

/-- Each act but `invalidate` keeps a cell's rejections guarded. -/
theorem own {around : Surroundings} {act : Act} {done : Done} {epoch : Duration}
    {clock : Instant} (guarded : Guarded around.cell cell log)
    (sound : CellSound epoch around.cell cell log clock) (permitted : act ≠ .invalidate)
    (does : ScopeCell.Does around cell act done) :
    Guarded around.cell done.cell (log ++ done.entries) := by
  -- The tasks and their generation are untouched.
  have sameTasks : ∀ {renewal renewalSince}, renewal = cell.state.renewal →
      renewalSince = cell.state.renewalSince → ∀ id phase, cell.renewals.lookup id = some phase →
      renewal = some id ∧ ((∃ planned, phase = .waiting planned) ∨
        cell.renewals.lookup id = some phase ∧ renewalSince = cell.state.renewalSince) :=
    fun same sameSince id phase at_ =>
      ⟨same.trans (guarded.one id phase at_), .inr ⟨at_, sameSince⟩⟩
  have prunedAdmitted : ∀ key, key ∈ (cell.state.prune around.now).admitted →
      key ∈ cell.state.admitted := fun key mem => Finmap.mem_of_mem_retain mem
  have prunedKept : ∀ key at_ since, cell.state.renewalSince = some since → since < at_ →
      cell.state.decided.lookup key = some at_ →
      (cell.state.prune around.now).decided.lookup key = some at_ :=
    fun key at_ since running later has => ChuteState.prune_decided has running later
  cases does with
  | lock | retryLock | askDiscovery =>
      exact guarded.calm (by simp) rfl (fun _ mem => mem) (fun _ _ has => has)
        (fun _ _ _ _ _ has => has) (fun _ _ held => nomatch held) (sameTasks rfl rfl)
  | release =>
      exact guarded.calm (by simp) rfl (fun _ mem => mem) (fun _ _ has => has)
        (fun _ _ _ _ _ has => has) (fun _ _ held => nomatch held) (sameTasks rfl rfl)
  | prune holds checked =>
      refine guarded.calm (by simp) rfl prunedAdmitted
        (fun _ _ has => ChuteState.prune_decided_subset has) prunedKept (fun batch tries held => ?_)
        (sameTasks rfl rfl)
      cases held
      cases checked
  | issue holds at_ valid onlyPool shrunk issues =>
      rw [onlyPool]
      exact guarded.calm (by simp [Entry.Rejects]) rfl (fun _ mem => mem) (fun _ _ has => has)
        (fun _ _ _ _ _ has => has) (fun _ _ held => nomatch held) (sameTasks rfl rfl)
  | noTicket holds onlyPool shrunk ledgerKept goesOn =>
      rename_i holder left ledger next
      refine guarded.calm (by simp) (by rw [onlyPool]) (fun key mem => ?_) (fun key at_ has => ?_)
        (fun key at_ since _ _ has => ?_) (fun batch tries held => ?_)
        (sameTasks (by rw [onlyPool]) (by rw [onlyPool]))
      · rw [onlyPool] at mem
        exact mem
      · rw [onlyPool] at has
        exact has
      · rw [onlyPool]
        exact has
      · rcases goesOn with rfl | ⟨tries', rfl⟩
        · cases held
        · exact absurd held (not_admitting_of_whenNoTicket _ _ _ _)
  | askEvidence holds =>
      have unmarked : ∀ key, ∀ entry ∈ [Entry.started around.cell around.fresh],
          ¬ Entry.Rejects around.cell key entry := by simp [Entry.Rejects]
      exact {
        guarded with
        readmitted := fun key mem => (guarded.readmitted key mem).append
          (fun _ entry readmits => readmits.snoc entry) (unmarked key)
        locked := fun batch tries held key => by
          cases held
          exact AfterEach.snoc (P := fun _ => True) (fun _ _ _ _ _ => trivial)
            (fun after _ => by simp) fun rejects => absurd rejects (unmarked key _ (by simp))
        superseding := fun id since batch at_ key =>
          (guarded.superseding id since batch at_ key).append
            (fun rest entry shown => shown.imp (List.mem_append_left _) fun decided => decided)
            (unmarked key) }
  | answerEvidence holds each =>
      have batchSound := sound.holder _ holds
      exact guarded.record holds (Batch.Sound.distinct batchSound) each around.now
  | answerDiscovery holds =>
      exact guarded.calm (by simp [Entry.Rejects]) rfl (fun _ mem => mem) (fun _ _ has => has)
        (fun _ _ _ _ _ has => has) (fun _ _ held => nomatch held) (sameTasks rfl rfl)
  | serve holds =>
      exact guarded.calm (by simp) rfl (fun _ mem => mem) (fun _ _ has => has)
        (fun _ _ _ _ _ has => has) (fun _ _ held => nomatch held) (sameTasks rfl rfl)
  | keepWarm holds cold =>
      -- No task ran before: the state named none.
      refine guarded.calm (by simp) rfl (fun _ mem => mem) (fun _ _ has => has)
        (fun _ _ _ _ _ has => has) (fun _ _ held => nomatch held) fun id phase at_ => ?_
      rw [Finmap.lookup_insert_eq] at at_
      split at at_
      · rename_i same
        cases at_
        exact ⟨congrArg some same.symm, .inl ⟨none, rfl⟩⟩
      · cases cold.symm.trans (guarded.one id phase at_)
  | renewStop unlocked waits =>
      rename_i stopped planned jitter blocked granted due
      refine guarded.calm (by simp) rfl prunedAdmitted
        (fun _ _ has => ChuteState.prune_decided_subset has) prunedKept
        (fun _ _ held => nomatch unlocked.symm.trans held) fun id phase at_ => ?_
      by_cases same : id = stopped
      · subst same
        simp at at_
      · have before := (Finmap.lookup_erase_ne same).symm.trans at_
        have one := (guarded.one id phase before).symm.trans (guarded.one stopped _ waits)
        exact absurd (Option.some.inj one) same
  | renewWait unlocked waits =>
      refine guarded.calm (by simp) rfl prunedAdmitted
        (fun _ _ has => ChuteState.prune_decided_subset has) prunedKept
        (fun _ _ held => nomatch unlocked.symm.trans held) fun id phase at_ => ?_
      obtain ⟨rfl, rfl⟩ := guarded.only_task waits at_
      exact ⟨guarded.one id _ waits, .inl ⟨_, rfl⟩⟩
  | renewArm unlocked waits distinct =>
      rename_i armed planned jitter blocked granted due
      exact {
        decidedLe := fun key at_ has =>
          guarded.decidedLe key at_ (ChuteState.prune_decided_subset has)
        one := fun id phase at_ => (guarded.only_task waits at_).1 ▸ guarded.one armed _ waits
        armed := fun id since due at_ => by
          cases (guarded.only_task waits at_).2
          exact ⟨rfl, le_rfl⟩
        fetching := fun id since batch at_ => nomatch (guarded.only_task waits at_).2
        readmitted := fun key mem => by
          rw [List.append_nil]
          exact guarded.readmitted key (prunedAdmitted key mem)
        locked := fun batch tries held => nomatch unlocked.symm.trans held
        superseding := fun id since batch at_ => nomatch (guarded.only_task waits at_).2 }
  | renewAsk armed =>
      rename_i asking since due lag
      have unmarked : ∀ key, ∀ entry ∈ [Entry.started around.cell around.fresh],
          ¬ Entry.Rejects around.cell key entry := by simp [Entry.Rejects]
      exact {
        decidedLe := guarded.decidedLe
        one := fun id phase at_ => (guarded.only_task armed at_).1 ▸ guarded.one asking _ armed
        armed := fun id since due at_ => nomatch (guarded.only_task armed at_).2
        fetching := fun id since batch at_ => by
          cases (guarded.only_task armed at_).2
          exact guarded.armed asking _ due armed
        readmitted := fun key mem => (guarded.readmitted key mem).append
          (fun _ entry readmits => readmits.snoc entry) (unmarked key)
        locked := fun batch tries held key => (guarded.locked batch tries held key).append
          (fun _ _ started => List.mem_append_left _ started) (unmarked key)
        superseding := fun id since batch at_ key => by
          cases (guarded.only_task armed at_).2
          exact AfterEach.snoc (P := fun _ => True) (fun _ _ _ _ _ => trivial)
            (fun after _ => .inl (by simp))
            fun rejects => absurd rejects (unmarked key _ (by simp)) }
  | renewAnswer unlocked fetched each =>
      have batchSound := sound.renewals _ _ fetched
      exact guarded.recordRenewal unlocked fetched (Batch.Sound.distinct batchSound) each around.now
  | renewFail unlocked running busy =>
      refine guarded.calm (by simp) rfl (fun _ mem => mem) (fun _ _ has => has)
        (fun _ _ _ _ _ has => has) (fun _ _ held => nomatch unlocked.symm.trans held)
        fun id phase at_ => ?_
      obtain ⟨rfl, rfl⟩ := guarded.only_task running at_
      exact ⟨guarded.one id _ running, .inl ⟨_, rfl⟩⟩
  | renewGone =>
      rename_i gone
      refine guarded.calm (by simp) rfl (fun _ mem => mem) (fun _ _ has => has)
        (fun _ _ _ _ _ has => has) (fun _ _ held => held) fun id phase at_ => ?_
      by_cases same : id = gone
      · subst same
        simp at at_
      · have before := (Finmap.lookup_erase_ne same).symm.trans at_
        exact ⟨guarded.one id phase before, .inr ⟨before, rfl⟩⟩
  | invalidate => exact absurd rfl permitted

/-- What other cells record does not matter here. -/
theorem others (guarded : Guarded name cell log)
    (apart : ∀ entry ∈ entries, entry.cell ≠ name) : Guarded name cell (log ++ entries) := by
  refine guarded.calm (fun key entry mem rejects => ?_) rfl (fun _ mem => mem) (fun _ _ has => has)
    (fun _ _ _ _ _ has => has) (fun _ _ held => held)
    fun id phase at_ => ⟨guarded.one id phase at_, .inr ⟨at_, rfl⟩⟩
  cases entry with
  | recorded other batch judged => exact apart _ mem rejects.1
  | started | refilled | issued => exact rejects

/-- A new cell has rejected nothing. -/
theorem create (name : Cell) (scope : ChuteScope) (log : List Entry) :
    Guarded name ⟨scope, .fresh, none, ∅⟩ log where
  decidedLe := fun key at_ has => by simp [ChuteState.fresh] at has
  one := fun id phase at_ => by simp at at_
  armed := fun id since due at_ => by simp at at_
  fetching := fun id since batch at_ => by simp at at_
  readmitted := fun key mem => absurd mem Finmap.notMem_empty
  locked := nofun
  superseding := fun id since batch at_ => by simp at at_

end Guarded

theorem guarded_invariant (epoch : Duration) :
    Admissions.CellInvariant epoch (· ≠ .invalidate) fun name cell log clock =>
      CellSound epoch name cell log clock ∧ Guarded name cell log where
  create := fun name scope log clock =>
    ⟨(cellSound_invariant epoch).create name scope log clock, Guarded.create name scope log⟩
  others := fun both later apart => ⟨both.1.others later apart, both.2.others apart⟩
  own := fun sameEpoch permitted both later does =>
    ⟨both.1.own sameEpoch later does, both.2.own both.1 permitted does⟩

/-! ### Runs -/

/-- The number of an evidence call an entry begins. -/
def Entry.startedId : Entry → Option Nat
  | .started _ id => some id
  | _ => none

/-- An act starts no batch, or one with the next number. -/
theorem ScopeCell.Does.startedIds {around : Surroundings} {cell : ScopeCell} {act : Act}
    {done : Done} (does : ScopeCell.Does around cell act done) :
    done.entries.filterMap Entry.startedId = [] ∨
      done.entries.filterMap Entry.startedId = [around.fresh] := by
  cases does with
  | askEvidence | renewAsk => exact .inr rfl
  | issue | answerEvidence | answerDiscovery | renewAnswer | lock | retryLock | prune | noTicket
  | askDiscovery | release | serve | keepWarm | renewStop | renewWait | renewArm | renewFail
  | renewGone | invalidate => exact .inl rfl

/-- No two evidence calls of a run have one number. -/
structure Numbered (world : Admissions) : Prop where
  below : ∀ id ∈ world.log.filterMap Entry.startedId, id < world.nextId
  distinct : (world.log.filterMap Entry.startedId).Nodup

/-- Every step keeps the batches numbered in the order they started. -/
theorem Numbered.next {epoch : Duration} {capacity : Nat} {world next : Admissions}
    {event : Admissions.Event} (numbered : Numbered world)
    (stepped : Admissions.step epoch capacity world event = some next) : Numbered next := by
  cases event with
  | create scope =>
      cases stepped
      exact ⟨fun id mem => (numbered.below id mem).trans (Nat.lt_succ_self _), numbered.distinct⟩
  | evict gone =>
      simp only [Admissions.step] at stepped
      split at stepped
      · split at stepped
        · cases stepped
          exact ⟨numbered.below, numbered.distinct⟩
        · cases stepped
      · cases stepped
  | act name now act =>
      obtain ⟨cell, done, found, later, does, rfl⟩ := Admissions.step_act stepped
      rcases does.startedIds with none | one
      · have same : (world.log ++ done.entries).filterMap Entry.startedId =
            world.log.filterMap Entry.startedId := by
          rw [List.filterMap_append, none, List.append_nil]
        refine ⟨fun id mem => ?_, ?_⟩
        · exact (numbered.below id (same ▸ mem)).trans (Nat.lt_succ_self _)
        · exact same ▸ numbered.distinct
      · have grown : (world.log ++ done.entries).filterMap Entry.startedId =
            world.log.filterMap Entry.startedId ++ [world.nextId] := by
          rw [List.filterMap_append, one]
        refine ⟨fun id mem => ?_, ?_⟩
        · rcases List.mem_append.mp (grown ▸ mem) with before | last
          · exact (numbered.below id before).trans (Nat.lt_succ_self _)
          · exact (List.mem_singleton.mp last).symm ▸ Nat.lt_succ_self _
        · dsimp only
          rw [grown]
          refine List.nodup_append.mpr ⟨numbered.distinct, List.nodup_singleton _, ?_⟩
          intro id before last here same
          rw [same, List.mem_singleton.mp here] at before
          exact lt_irrefl _ (numbered.below _ before)

/-- What holds at every moment of a run without `invalidate`. -/
structure Protected (epoch : Duration) (world : Admissions) : Prop where
  cells : ∀ name cell, world.cells.lookup name = some cell →
    CellSound epoch name cell world.log world.clock ∧ Guarded name cell world.log
  issued : ∀ before name issue after, world.log = before ++ .issued name issue :: after →
    AfterEach (Entry.Rejects name issue.ticket.key) (Readmits name issue.ticket.key) before
  numbered : Numbered world

/-- Every step but an invalidation keeps the rejections protected. -/
theorem Protected.next {epoch : Duration} {capacity : Nat} {world next : Admissions}
    {event : Admissions.Event} (safe : Protected epoch world)
    (permitted : ∀ name now act, event = .act name now act → act ≠ .invalidate)
    (stepped : (admissionsMachine epoch capacity).step world event = some next) :
    Protected epoch next where
  cells := fun name cell found =>
    (guarded_invariant epoch).preserved permitted safe.cells stepped found
  issued := by
    intro before name issue after split
    rcases Admissions.step_log stepped with same | ⟨entry, grown⟩
    · exact safe.issued before name issue after (same ▸ split)
    · rcases split_snoc (grown ▸ split) with ⟨rest, -, earlier⟩ | ⟨-, here, same⟩
      · exact safe.issued before name issue rest earlier
      · rw [← here] at grown
        obtain ⟨cell, _, _, _, _, found, -, -, -, -, -, -, -, -, -, -, issues⟩ :=
          step_issued stepped grown
        exact same ▸ (safe.cells name cell found).2.readmitted _ issues.admitted
  numbered := safe.numbered.next stepped

/-- A run without an invalidation keeps them protected. -/
theorem Protected.run {epoch : Duration} {capacity : Nat} {events : List Admissions.Event}
    {world : Admissions} (ran : (admissionsMachine epoch capacity).run events = some world)
    (noReset : ∀ name now, Admissions.Event.act name now .invalidate ∉ events) :
    Protected epoch world := by
  refine Machine.exec_invariant_of (m := admissionsMachine epoch capacity)
    (fun event => ∀ name now act, event = .act name now act → act ≠ .invalidate)
    (fun _ _ _ permitted safe stepped => safe.next permitted stepped) ?_ ?_ ran
  · intro event mem name now act same reset
    exact noReset name now (reset ▸ same ▸ mem)
  · exact {
      cells := fun name cell found => by simp [admissionsMachine] at found
      issued := fun before name issue after split => by simp [admissionsMachine] at split
      numbered := ⟨fun id mem => absurd mem List.not_mem_nil, List.nodup_nil⟩ }

/-- A rejected instance is readmitted only by later evidence, over every run
without `invalidate`. Between a record that rejects an instance and a ticket for
it, an evidence call began and its batch admitted the instance; and a renewal
whose call began before the rejection does not admit the instance, however long
after it records. -/
theorem rejected_until_readmitted {epoch : Duration} {capacity : Nat}
    {events : List Admissions.Event} {world : Admissions}
    (ran : (admissionsMachine epoch capacity).run events = some world)
    (noReset : ∀ name now, Admissions.Event.act name now .invalidate ∉ events) :
    (∀ before rejection between name issue after,
      world.log = before ++ rejection :: between ++ .issued name issue :: after →
      rejection.Rejects name issue.ticket.key → Readmits name issue.ticket.key between) ∧
    (∀ name now id answers next cell since batch key before rejection after final untilAt,
      (admissionsMachine epoch capacity).step world (.act name now (.renewAnswer id answers)) =
        some next →
      world.cells.lookup name = some cell →
      cell.renewals.lookup id = some (.fetching since batch) →
      world.log = before ++ rejection :: after → rejection.Rejects name key →
      Entry.started name batch.id ∉ after →
      next.cells.lookup name = some final → final.state.admitted.lookup key = some untilAt →
      cell.state.admitted.lookup key = some untilAt) ∧
    (world.log.filterMap Entry.startedId).Nodup := by
  have safe := Protected.run ran noReset
  refine ⟨?_, ?_, safe.numbered.distinct⟩
  · intro before rejection between name issue after split rejects
    exact safe.issued (before ++ rejection :: between) name issue after split before rejection
      between rfl rejects
  · intro name now id answers next cell since batch key before rejection after final untilAt
      stepped found fetched split rejects notStarted foundFinal has
    obtain ⟨cell', done, at_, -, does, rfl⟩ := Admissions.step_act stepped
    cases found.symm.trans at_
    rw [Finmap.lookup_insert] at foundFinal
    cases foundFinal
    cases does with
    | renewAnswer unlocked fetched' each =>
        cases fetched.symm.trans fetched'
        obtain ⟨sound, guarded⟩ := safe.cells name cell found
        have batchSound : batch.Sound epoch world.clock := sound.renewals id _ fetched
        rcases guarded.superseding id since batch fetched key before rejection after split rejects
          with started | ⟨decidedAt, decided, later⟩
        · exact absurd started notStarted
        · rcases batch_decides { cell.state with renewalSince := none } (some since) now
            batchSound.distinct each key with
            ⟨same, -, -⟩ | ⟨-, -, -, -, -, -, -, latest, -⟩ | ⟨-, -, -, -, -, none, -⟩
          · exact same.symm.trans has
          · exact absurd (latest since rfl decidedAt decided) (not_le.mpr later)
          · cases none.symm.trans has

/-- A chute whose only instance is rejected, and which evidence fetched once the
rejection has expired admits. -/
def comebackSchedule : List Admissions.Event :=
  .create ([7], "kimi-k3") ::
    (([.lock, .prune, .take, .askDiscovery, .answerDiscovery smallDiscovery, .prune, .take,
      .askEvidence 0, .answerEvidence [.failed "forged"], .prune, .take] : List Act).map
        (.act 0 0) ++
    ([.lock, .prune, .take, .askDiscovery, .answerDiscovery smallDiscovery, .prune, .take,
      .askEvidence 0, .answerEvidence [.expires 1000], .prune, .take] : List Act).map
        (.act 0 61000000000))

/-- The instance comes back after its rejection, so it was readmitted. -/
theorem rejected_until_readmitted_on_comeback : ∃ world before rejection between issue,
    (admissionsMachine 0 10).run comebackSchedule = some world ∧
      world.log = before ++ rejection :: between ++ [.issued 0 issue] ∧
      rejection.Rejects 0 issue.ticket.key ∧ Readmits 0 issue.ticket.key between := by
  let inst : DiscoveredInstance := ⟨"inst", "key", ["nonce"]⟩
  let late : Instant := 61000000000
  let rejection : Entry := .recorded 0 ⟨8, 0, 0, [inst]⟩ [(inst, .failed "forged")]
  let before : List Entry := [.refilled 0 smallDiscovery 0 0, .started 0 8]
  let between : List Entry := [.refilled 0 smallDiscovery late late, .started 0 19,
    .recorded 0 ⟨19, late, late, [inst]⟩ [(inst, .expires 1000)]]
  let issue : Issue := ⟨"kimi-k3", ⟨"inst", "key", "nonce"⟩, late, late, 126000000000⟩
  have logged : ((admissionsMachine 0 10).run comebackSchedule).map (fun world =>
      decide (world.log = before ++ rejection :: between ++ [.issued 0 issue])) = some true := by
    decide +kernel
  obtain ⟨world, ran, same⟩ := Option.map_eq_some_iff.mp logged
  have split : world.log = before ++ rejection :: between ++ [.issued 0 issue] :=
    of_decide_eq_true same
  have rejects : rejection.Rejects 0 issue.ticket.key :=
    ⟨rfl, inst, "forged", List.mem_singleton_self _, rfl⟩
  have noReset : ∀ name now, Admissions.Event.act name now .invalidate ∉ comebackSchedule := by
    simp [comebackSchedule]
  exact ⟨world, before, rejection, between, issue, ran, split, rejects,
    (rejected_until_readmitted ran noReset).1 before rejection between 0 issue [] split rejects⟩

end GmMiner.Chutes
