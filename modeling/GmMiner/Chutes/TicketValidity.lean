import GmMiner.Chutes.Admissions

/-!
What stands behind a ticket.

A cell's pool is what is left of its latest discovery, and every admission was
recorded with a deadline counted from an anchor read before the evidence was
fetched. Between a prune and the end of the locked section that made it nothing
is expired, so a ticket names an instance whose evidence, admission and nonce
are all still good at the instant the prune read (`tickets_are_current`).
-/

namespace GmMiner.Chutes

open GmMiner.Lib

/-- The refill an entry records for a cell. -/
def Entry.refill (name : Cell) : Entry → Option (Discovery × Instant × Instant)
  | .refilled cell discovery asked received =>
      if cell = name then some (discovery, asked, received) else none
  | _ => none

/-- The latest discovery of a cell, with when it was asked for and received. -/
def lastRefill (log : List Entry) (name : Cell) : Option (Discovery × Instant × Instant) :=
  (log.filterMap (Entry.refill name)).getLast?

theorem lastRefill_append_of_none {log entries : List Entry} {name : Cell}
    (others : ∀ entry ∈ entries, entry.refill name = none) :
    lastRefill (log ++ entries) name = lastRefill log name := by
  rw [lastRefill, List.filterMap_append, List.filterMap_eq_nil_iff.mpr others, List.append_nil,
    lastRefill]

theorem lastRefill_append_refilled (log : List Entry) (name : Cell) (discovery : Discovery)
    (asked received : Instant) :
    lastRefill (log ++ [.refilled name discovery asked received]) name =
      some (discovery, asked, received) := by
  simp [lastRefill, Entry.refill]

theorem Entry.refill_of_cell_ne {entry : Entry} {name : Cell} (other : entry.cell ≠ name) :
    entry.refill name = none := by
  cases entry with
  | refilled cell discovery asked received => exact if_neg other
  | started | recorded | issued => rfl

/-! ### Where the pool comes from -/

/-- The pool is what is left of the latest discovery, and its deadlines are that
discovery's; or nothing was discovered yet. -/
inductive PoolFrom (log : List Entry) (name : Cell) (clock : Instant) (state : ChuteState) : Prop
  | never (pool : state.pool = []) (issueUntil : state.issueUntil = none)
      (validUntil : state.validUntil = none)
  | refilled (discovery : Discovery) (asked received : Instant)
      (last : lastRefill log name = some (discovery, asked, received))
      (issueUntil : state.issueUntil = some
        ((Instant.checkedSub (asked + discovery.nonceLifetime) nonceMargin).getD asked))
      (validUntil : state.validUntil = some (received + discovery.nonceLifetime + nonceMargin))
      (begun : asked ≤ clock)
      (advertised : ∀ inst ∈ state.pool, ∃ other ∈ discovery.instances,
        inst.key = other.key ∧ inst.nonces ⊆ other.nonces)
      (distinct : (state.pool.map DiscoveredInstance.key).Nodup)

theorem PoolFrom.nodup {log : List Entry} {name : Cell} {clock : Instant} {state : ChuteState}
    (from_ : PoolFrom log name clock state) : (state.pool.map DiscoveredInstance.key).Nodup := by
  cases from_ with
  | never pool => simp [pool]
  | refilled _ _ _ _ _ _ _ _ distinct => exact distinct

/-- Later, with no refill since and only a part of the pool left. -/
theorem PoolFrom.weaken {log entries : List Entry} {name : Cell} {clock now : Instant}
    {state after : ChuteState} (from_ : PoolFrom log name clock state) (later : clock ≤ now)
    (others : ∀ entry ∈ entries, entry.refill name = none)
    (issueUntil : after.issueUntil = state.issueUntil)
    (validUntil : after.validUntil = state.validUntil)
    (kept : ∀ inst ∈ after.pool, ∃ other ∈ state.pool,
      inst.key = other.key ∧ inst.nonces ⊆ other.nonces)
    (distinct : (state.pool.map DiscoveredInstance.key).Nodup →
      (after.pool.map DiscoveredInstance.key).Nodup) :
    PoolFrom (log ++ entries) name now after := by
  cases from_ with
  | never pool noIssue noValid =>
      refine .never (List.eq_nil_iff_forall_not_mem.mpr fun inst mem => ?_)
        (issueUntil.trans noIssue) (validUntil.trans noValid)
      obtain ⟨other, also, -⟩ := kept inst mem
      rw [pool] at also
      cases also
  | refilled discovery asked received last issue valid begun advertised unique =>
      refine .refilled discovery asked received ((lastRefill_append_of_none others).trans last)
        (issueUntil.trans issue) (validUntil.trans valid) (begun.trans later) ?_ (distinct unique)
      intro inst mem
      obtain ⟨other, also, key, fewer⟩ := kept inst mem
      obtain ⟨source, listed, sourceKey, sourceNonces⟩ := advertised other also
      exact ⟨source, listed, key.trans sourceKey, List.Subset.trans fewer sourceNonces⟩

/-- The same pool, later. -/
theorem PoolFrom.later {log entries : List Entry} {name : Cell} {clock now : Instant}
    {state after : ChuteState} (from_ : PoolFrom log name clock state) (later : clock ≤ now)
    (others : ∀ entry ∈ entries, entry.refill name = none) (pool : after.pool = state.pool)
    (issueUntil : after.issueUntil = state.issueUntil)
    (validUntil : after.validUntil = state.validUntil) :
    PoolFrom (log ++ entries) name now after :=
  from_.weaken later others issueUntil validUntil
    (fun inst mem => ⟨inst, pool ▸ mem, rfl, fun _ has => has⟩) (fun unique => pool ▸ unique)

/-- Pruning leaves the pool of the last refill. -/
theorem PoolFrom.prune {log entries : List Entry} {name : Cell} {clock now at_ : Instant}
    {state after : ChuteState} (from_ : PoolFrom log name clock state) (later : clock ≤ now)
    (others : ∀ entry ∈ entries, entry.refill name = none)
    (pool : after.pool = (state.prune at_).pool) (issueUntil : after.issueUntil = state.issueUntil)
    (validUntil : after.validUntil = state.validUntil) :
    PoolFrom (log ++ entries) name now after :=
  from_.weaken later others issueUntil validUntil
    (fun inst mem => ⟨inst, (state.prune_pool_sublist at_).subset (pool ▸ mem), rfl,
      fun _ has => has⟩)
    (pool ▸ List.Nodup.sublist ((state.prune_pool_sublist at_).map _))

theorem PoolFrom.take {log entries : List Entry} {name : Cell} {clock now : Instant}
    {state left : ChuteState} (from_ : PoolFrom log name clock state) (later : clock ≤ now)
    (others : ∀ entry ∈ entries, entry.refill name = none)
    (onlyPool : left = { state with pool := left.pool })
    (shrunk : ChuteState.Shrunk left.pool state.pool) :
    PoolFrom (log ++ entries) name now left :=
  from_.weaken later others (by rw [onlyPool]) (by rw [onlyPool]) (fun _ mem => shrunk.mem mem)
    (fun unique => shrunk.keys ▸ unique)

theorem PoolFrom.record {log entries : List Entry} {name : Cell} {clock now : Instant}
    {state : ChuteState} (from_ : PoolFrom log name clock state) (later : clock ≤ now)
    (others : ∀ entry ∈ entries, entry.refill name = none) (verdicts : List Verdict)
    (at_ : Instant) (since : Option Nat) :
    PoolFrom (log ++ entries) name now (state.record verdicts at_ since) := by
  obtain ⟨admitted, rejected, decided, same⟩ := state.record_frame verdicts at_ since
  exact from_.later later others (by rw [same]) (by rw [same]) (by rw [same])

theorem PoolFrom.refill (log : List Entry) (name : Cell) {clock : Instant} (state : ChuteState)
    (discovery : Discovery) {asked received : Instant} (begun : asked ≤ clock) :
    PoolFrom (log ++ [.refilled name discovery asked received]) name clock
      (state.refill discovery asked received) :=
  .refilled discovery asked received (lastRefill_append_refilled log name discovery asked received)
    rfl rfl begun (fun inst mem => ⟨inst, mem, rfl, fun _ has => has⟩) discovery.nodup_keys

/-! ### What backs an admission -/

/-- The anchor was read by `clock`, before the wall clock was, and no instance is
asked for twice. -/
structure Batch.Sound (epoch : Duration) (clock : Instant) (batch : Batch) : Prop where
  anchored : batch.anchor ≤ clock
  wallAfter : ∃ lag, batch.anchorWall = epoch + (batch.anchor + lag)
  distinct : (batch.instances.map DiscoveredInstance.key).Nodup

theorem Batch.Sound.later {epoch : Duration} {clock now : Instant} {batch : Batch}
    (sound : batch.Sound epoch clock) (later : clock ≤ now) : batch.Sound epoch now :=
  { sound with anchored := sound.anchored.trans later }

/-- An admission until `untilAt` comes from a recorded batch of the cell, whose
anchor was read by `by_`. -/
def Backed (epoch : Duration) (log : List Entry) (name : Cell) (key : InstanceKey)
    (untilAt by_ : Instant) : Prop :=
  ∃ batch judged inst expires lag, Entry.recorded name batch judged ∈ log ∧
    (inst, Answer.expires expires) ∈ judged ∧ inst.key = key ∧
    untilAt = deadline batch.anchor batch.anchorWall expires ∧
    batch.anchorWall = epoch + (batch.anchor + lag) ∧ batch.anchor ≤ by_

theorem Backed.later {epoch : Duration} {log entries : List Entry} {name : Cell}
    {key : InstanceKey} {untilAt by_ now : Instant} (backed : Backed epoch log name key untilAt by_)
    (later : by_ ≤ now) : Backed epoch (log ++ entries) name key untilAt now := by
  obtain ⟨batch, judged, inst, expires, lag, recorded, rest⟩ := backed
  exact ⟨batch, judged, inst, expires, lag, List.mem_append_left _ recorded, rest.1, rest.2.1,
    rest.2.2.1, rest.2.2.2.1, rest.2.2.2.2.trans later⟩

/-- Evidence behind an admission that still runs has not expired, and its anchor
is less than `admissionTtl` old. -/
theorem deadline_gt {epoch anchor now lag expires : Nat} (begun : anchor ≤ now)
    (running : now < deadline anchor (epoch + (anchor + lag)) expires) :
    epoch + now < Duration.fromSecs expires ∧ now < anchor + admissionTtl := by
  unfold deadline at running
  constructor
  · omega
  · omega

/-- Every admission of the state is backed. -/
def AdmittedFrom (epoch : Duration) (log : List Entry) (name : Cell) (by_ : Instant)
    (state : ChuteState) : Prop :=
  ∀ key untilAt, state.admitted.lookup key = some untilAt → Backed epoch log name key untilAt by_

theorem AdmittedFrom.weaken {epoch : Duration} {log entries : List Entry} {name : Cell}
    {by_ now : Instant} {state after : ChuteState} (from_ : AdmittedFrom epoch log name by_ state)
    (later : by_ ≤ now)
    (kept : ∀ key untilAt, after.admitted.lookup key = some untilAt →
      state.admitted.lookup key = some untilAt) :
    AdmittedFrom epoch (log ++ entries) name now after :=
  fun key untilAt has => (from_ key untilAt (kept key untilAt has)).later later

/-- The verdicts are of the instances, in their order. -/
theorem map_key_admitAll (anchor : Instant) (anchorWall : Duration)
    (instances : List DiscoveredInstance) (answers : List Answer)
    (each : answers.length = instances.length) :
    (admitAll anchor anchorWall (instances.zip answers)).map Verdict.key =
      instances.map DiscoveredInstance.key := by
  have keys : (admitAll anchor anchorWall (instances.zip answers)).map Verdict.key =
      ((instances.zip answers).map Prod.fst).map DiscoveredInstance.key := by
    simp only [admitAll, List.map_map]
    rfl
  rw [keys, List.map_fst_zip each.ge]

/-- What a batch admits is backed by the batch itself. -/
theorem AdmittedFrom.record {epoch : Duration} {log : List Entry} {name : Cell}
    {clock now : Instant} {state : ChuteState} (from_ : AdmittedFrom epoch log name clock state)
    (later : clock ≤ now) {batch : Batch} (sound : batch.Sound epoch now)
    {answers : List Answer} (each : answers.length = batch.instances.length)
    (since : Option Nat) :
    AdmittedFrom epoch (log ++ [.recorded name batch (batch.instances.zip answers)]) name now
      (state.record (admitAll batch.anchor batch.anchorWall (batch.instances.zip answers)) now
        since) := by
  intro key untilAt has
  have distinct : ((admitAll batch.anchor batch.anchorWall
      (batch.instances.zip answers)).map Verdict.key).Nodup := by
    rw [map_key_admitAll _ _ _ _ each]
    exact sound.distinct
  rcases state.record_decides distinct now since key with
    ⟨admitted, -, -⟩ | ⟨verdict, mem, named, until', outcome, admitted, -, -, -⟩ |
    ⟨-, -, -, -, -, admitted, -⟩
  · exact (from_ key untilAt (admitted.symm.trans has)).later later
  · rw [admitted] at has
    cases has
    obtain ⟨⟨inst, answer⟩, judged, rfl⟩ := List.mem_map.mp mem
    obtain ⟨lag, wall⟩ := sound.wallAfter
    cases answer with
    | expires expires =>
        cases outcome
        exact ⟨batch, _, inst, expires, lag, by simp, judged, named, rfl, wall, sound.anchored⟩
    | failed | noRow => cases outcome
  · rw [admitted] at has
    cases has

/-! ### The invariant of a cell -/

/-- Nothing in the state is past its deadline at `checked`. -/
structure Current (epoch : Duration) (log : List Entry) (name : Cell) (checked : Instant)
    (state : ChuteState) : Prop where
  admitted : ∀ key untilAt, state.admitted.lookup key = some untilAt →
    checked < untilAt ∧ Backed epoch log name key untilAt checked
  pool : ∀ inst ∈ state.pool, ∃ untilAt, state.issueUntil = some untilAt ∧ checked < untilAt
  poolFrom : PoolFrom log name checked state

/-- What holds of the lock's holder while it holds the lock. -/
def HolderSound (epoch : Duration) (log : List Entry) (name : Cell) (clock : Instant)
    (state : ChuteState) : Holder → Prop
  | .pruned checked _ | .retryPruned checked _ =>
      checked ≤ clock ∧ Current epoch log name checked state
  | .charging instances _ => (instances.map DiscoveredInstance.key).Nodup
  | .admitting batch _ => batch.Sound epoch clock
  | .discovering asked _ => asked ≤ clock
  | .issuing _ | .claiming _ | .retrying _ | .served _ => True

def RenewalPhase.Sound (epoch : Duration) (clock : Instant) : RenewalPhase → Prop
  | .waiting _ => True
  | .armed _ due => (due.map DiscoveredInstance.key).Nodup
  | .fetching _ batch => batch.Sound epoch clock

structure CellSound (epoch : Duration) (name : Cell) (cell : ScopeCell) (log : List Entry)
    (clock : Instant) : Prop where
  pool : PoolFrom log name clock cell.state
  admitted : AdmittedFrom epoch log name clock cell.state
  holder : ∀ holder, cell.holder = some holder →
    HolderSound epoch log name clock cell.state holder
  renewals : ∀ id phase, cell.renewals.lookup id = some phase → phase.Sound epoch clock

/-- Whatever follows an empty pool is sound. -/
theorem holderSound_of_whenNoTicket {epoch : Duration} {log : List Entry} {name : Cell}
    {clock : Instant} {state : ChuteState} {tries : Tries} {holder : Holder}
    (distinct : (state.pool.map DiscoveredInstance.key).Nodup)
    (next : ScopeCell.whenNoTicket state tries = some holder) :
    HolderSound epoch log name clock state holder := by
  unfold ScopeCell.whenNoTicket at next
  dsimp only at next
  split at next
  · cases next
    refine List.Nodup.sublist (List.Sublist.map _ ?_) distinct
    exact List.filter_sublist.trans List.filter_sublist
  · split at next
    · cases next
      trivial
    · cases next

theorem RenewalPhase.Sound.later {epoch : Duration} {clock now : Instant} {phase : RenewalPhase}
    (sound : phase.Sound epoch clock) (later : clock ≤ now) : phase.Sound epoch now := by
  cases phase with
  | waiting | armed => exact sound
  | fetching since batch => exact Batch.Sound.later sound later

/-- The holder stays sound as time passes and others' entries are logged. -/
theorem HolderSound.later {epoch : Duration} {log entries : List Entry} {name : Cell}
    {clock now : Instant} {state : ChuteState} {holder : Holder}
    (sound : HolderSound epoch log name clock state holder) (later : clock ≤ now)
    (others : ∀ entry ∈ entries, entry.refill name = none) :
    HolderSound epoch (log ++ entries) name now state holder := by
  cases holder with
  | pruned checked tries | retryPruned checked avoid =>
      obtain ⟨read, current⟩ := sound
      exact ⟨read.trans later, {
        admitted := fun key untilAt has =>
          ⟨(current.admitted key untilAt has).1, (current.admitted key untilAt has).2.later le_rfl⟩
        pool := current.pool
        poolFrom := current.poolFrom.later le_rfl others rfl rfl rfl }⟩
  | charging => exact sound
  | admitting batch tries => exact Batch.Sound.later sound later
  | discovering asked tries => exact le_trans sound later
  | issuing | claiming | retrying | served => trivial

/-- Other cells' acts leave the invariant of this one. -/
theorem CellSound.others {epoch : Duration} {name : Cell} {cell : ScopeCell}
    {log entries : List Entry} {clock now : Instant} (sound : CellSound epoch name cell log clock)
    (later : clock ≤ now) (apart : ∀ entry ∈ entries, entry.cell ≠ name) :
    CellSound epoch name cell (log ++ entries) now where
  pool := sound.pool.later later (fun entry mem => Entry.refill_of_cell_ne (apart entry mem))
    rfl rfl rfl
  admitted := sound.admitted.weaken later fun _ _ has => has
  holder := fun holder holds => (sound.holder holder holds).later later
    fun entry mem => Entry.refill_of_cell_ne (apart entry mem)
  renewals := fun id phase at_ => (sound.renewals id phase at_).later later

/-- A pruned state is current at the instant it was pruned. -/
theorem current_prune {epoch : Duration} {log : List Entry} {name : Cell} {clock now : Instant}
    {state : ChuteState} (from_ : AdmittedFrom epoch log name clock state)
    (poolFrom : PoolFrom log name clock state) (later : clock ≤ now) :
    Current epoch (log ++ []) name now (state.prune now) where
  admitted := by
    intro key untilAt has
    obtain ⟨before, running⟩ := ChuteState.prune_admitted.mp has
    exact ⟨running, (from_ key untilAt before).later later⟩
  pool := fun inst mem => state.prune_pool_issuable mem
  poolFrom := poolFrom.prune later (by simp) rfl rfl rfl

/-- Each act on a cell keeps its invariant. -/
theorem CellSound.own {epoch : Duration} {around : Surroundings} {cell : ScopeCell} {act : Act}
    {done : Done} {log : List Entry} {clock : Instant} (sameEpoch : around.epoch = epoch)
    (sound : CellSound epoch around.cell cell log clock) (later : clock ≤ around.now)
    (does : ScopeCell.Does around cell act done) :
    CellSound epoch around.cell done.cell (log ++ done.entries) around.now := by
  have renewals : ∀ id phase, cell.renewals.lookup id = some phase →
      phase.Sound epoch around.now := fun id phase at_ => (sound.renewals id phase at_).later later
  -- The renewals after one of them changed to a sound phase, or ended.
  have changed : ∀ {id : Nat} {phase : RenewalPhase}, phase.Sound epoch around.now →
      ∀ other found, (cell.renewals.insert id phase).lookup other = some found →
        found.Sound epoch around.now := by
    intro id phase sound other found at_
    rw [Finmap.lookup_insert_eq] at at_
    split at at_
    · cases at_
      exact sound
    · exact renewals other found at_
  have ended : ∀ {id : Nat} other found, (cell.renewals.erase id).lookup other = some found →
      found.Sound epoch around.now := by
    intro id other found at_
    by_cases same : other = id
    · subst same
      simp at at_
    · exact renewals other found ((Finmap.lookup_erase_ne same).symm.trans at_)
  have nobody : ∀ {entries : List Entry} {state : ChuteState}, cell.holder = none →
      ∀ holder, cell.holder = some holder →
        HolderSound epoch entries around.cell around.now state holder :=
    fun unlocked holder held => nomatch unlocked.symm.trans held
  have noEntry : ∀ entry ∈ ([] : List Entry), entry.refill around.cell = none := by simp
  have samePool : PoolFrom (log ++ []) around.cell around.now cell.state :=
    sound.pool.later later noEntry rfl rfl rfl
  have sameAdmitted : AdmittedFrom epoch (log ++ []) around.cell around.now cell.state :=
    sound.admitted.weaken later fun _ _ has => has
  have prunedAdmitted : AdmittedFrom epoch (log ++ []) around.cell around.now
      (cell.state.prune around.now) :=
    sound.admitted.weaken later fun _ _ has => (ChuteState.prune_admitted.mp has).1
  cases does with
  | lock | retryLock =>
      exact ⟨samePool, sameAdmitted, fun holder holds => by cases holds; trivial, renewals⟩
  | release => exact ⟨samePool, sameAdmitted, nofun, renewals⟩
  | prune holds checked =>
      refine ⟨sound.pool.prune later noEntry rfl rfl rfl, prunedAdmitted,
        fun holder held => ?_, renewals⟩
      cases held
      rename_i pruned
      cases pruned with
      | pruned at_ tries | retryPruned at_ avoid =>
          cases checked
          exact ⟨le_rfl, current_prune sound.admitted sound.pool later⟩
      | issuing | charging | admitting | claiming | discovering | retrying | served =>
          cases checked
  | issue holds at_ valid onlyPool shrunk issues =>
      rename_i holder checked avoid keepWarm validUntil ticket left recorded
      refine ⟨?_, ?_, fun holder held => by cases held; trivial, renewals⟩
      · exact sound.pool.take later (by simp [Entry.refill]) onlyPool shrunk
      · refine sound.admitted.weaken later fun key untilAt has => ?_
        rw [onlyPool] at has
        exact has
  | noTicket holds onlyPool shrunk ledgerKept goesOn =>
      rename_i holder left ledger next
      have pool := sound.pool.take later noEntry onlyPool shrunk
      refine ⟨pool, ?_, fun holder held => ?_, renewals⟩
      · refine sound.admitted.weaken later fun key untilAt has => ?_
        rw [onlyPool] at has
        exact has
      · rcases goesOn with rfl | ⟨tries, rfl⟩
        · cases held
        · exact holderSound_of_whenNoTicket pool.nodup held
  | askEvidence holds =>
      refine ⟨sound.pool.later later (by simp [Entry.refill]) rfl rfl rfl,
        sound.admitted.weaken later fun _ _ has => has, fun holder held => ?_, renewals⟩
      cases held
      exact {
        anchored := le_rfl
        wallAfter := ⟨_, by rw [← sameEpoch]; rfl⟩
        distinct := sound.holder _ holds }
  | answerEvidence holds each =>
      rename_i batch tries answers next
      have batchSound : batch.Sound epoch clock := sound.holder _ holds
      exact ⟨sound.pool.record later (by simp [Entry.refill]) _ _ _,
        sound.admitted.record later (batchSound.later later) each none,
        fun holder held => by cases held; trivial, renewals⟩
  | askDiscovery holds =>
      refine ⟨samePool, sameAdmitted, fun holder held => ?_, renewals⟩
      cases held
      exact le_rfl
  | answerDiscovery holds =>
      rename_i asked tries discovery
      have begun : asked ≤ clock := sound.holder _ holds
      exact ⟨PoolFrom.refill log around.cell cell.state discovery (begun.trans later),
        sound.admitted.weaken later fun _ _ has => has,
        fun holder held => by cases held; trivial, renewals⟩
  | serve holds =>
      exact ⟨sound.pool.later later noEntry rfl rfl rfl,
        sound.admitted.weaken later fun _ _ has => has, nofun, renewals⟩
  | keepWarm holds cold =>
      exact ⟨sound.pool.later later noEntry rfl rfl rfl,
        sound.admitted.weaken later fun _ _ has => has, nofun, changed trivial⟩
  | renewStop unlocked waits =>
      exact ⟨sound.pool.prune later noEntry rfl rfl rfl, prunedAdmitted,
        nobody unlocked, ended⟩
  | renewWait unlocked waits =>
      exact ⟨sound.pool.prune later noEntry rfl rfl rfl, prunedAdmitted,
        nobody unlocked, changed trivial⟩
  | renewArm unlocked waits distinct =>
      refine ⟨sound.pool.prune later noEntry rfl rfl rfl, prunedAdmitted,
        nobody unlocked, changed ?_⟩
      simpa [RenewalPhase.Sound, DiscoveredInstance.key, List.map_map, Function.comp_def] using
        distinct
  | renewAsk armed =>
      have distinct := sound.renewals _ _ armed
      exact ⟨sound.pool.later later (by simp [Entry.refill]) rfl rfl rfl,
        sound.admitted.weaken later fun _ _ has => has,
        fun holder held => (sound.holder holder held).later later (by simp [Entry.refill]),
        changed {
          anchored := le_rfl
          wallAfter := ⟨_, by rw [← sameEpoch]; rfl⟩
          distinct := distinct }⟩
  | renewAnswer unlocked fetched each =>
      rename_i id since batch answers
      have batchSound : batch.Sound epoch clock := sound.renewals _ _ fetched
      have cleared : AdmittedFrom epoch log around.cell clock
          { cell.state with renewalSince := none } := sound.admitted
      have poolKept : PoolFrom log around.cell clock { cell.state with renewalSince := none } := by
        have kept : PoolFrom (log ++ []) around.cell clock { cell.state with renewalSince := none } :=
          sound.pool.later le_rfl (by simp) rfl rfl rfl
        rwa [List.append_nil] at kept
      exact ⟨poolKept.record later (by simp [Entry.refill]) _ _ _,
        cleared.record later (batchSound.later later) each (some since),
        nobody unlocked, changed trivial⟩
  | renewFail unlocked running busy =>
      exact ⟨sound.pool.later later noEntry rfl rfl rfl,
        sound.admitted.weaken later fun _ _ has => has,
        nobody unlocked, changed trivial⟩
  | renewGone =>
      exact ⟨samePool, sameAdmitted, fun holder held =>
        (sound.holder holder held).later later noEntry, ended⟩
  | invalidate unlocked =>
      exact ⟨.never rfl rfl rfl, fun key untilAt has => by simp [ChuteState.fresh] at has,
        nobody unlocked, renewals⟩

theorem cellSound_invariant (epoch : Duration) :
    Admissions.CellInvariant epoch (fun _ => True) (CellSound epoch) where
  create := fun name scope log clock =>
    ⟨.never rfl rfl rfl, fun key untilAt has => by simp [ChuteState.fresh] at has, nofun,
      fun id phase at_ => by simp at at_⟩
  others := fun sound later apart => sound.others later apart
  own := fun sameEpoch _ sound later does => sound.own sameEpoch later does

theorem CellSound.reachable {epoch : Duration} {capacity : Nat} {world : Admissions}
    (reached : (admissionsMachine epoch capacity).Reachable world) {name : Cell}
    {cell : ScopeCell} (found : world.cells.lookup name = some cell) :
    CellSound epoch name cell world.log world.clock := by
  obtain ⟨events, ran⟩ := reached
  exact (cellSound_invariant epoch).run (fun _ _ _ _ => trivial) ran found

/-! ### Tickets -/

/-- The step that logs an issue is a taken ticket. -/
theorem step_issued {epoch : Duration} {capacity : Nat} {world next : Admissions}
    {event : Admissions.Event}
    (stepped : (admissionsMachine epoch capacity).step world event = some next) {name : Cell}
    {issue : Issue} (logged : next.log = world.log ++ [.issued name issue]) :
    ∃ cell after holder avoid keepWarm, world.cells.lookup name = some cell ∧
      next.cells.lookup name = some after ∧ world.clock ≤ issue.at_ ∧ next.clock = issue.at_ ∧
      cell.holder = some holder ∧ holder.checked = some issue.checked ∧
      issue.chuteId = cell.scope.2 ∧ cell.state.validUntil = some issue.validUntil ∧
      after.state = { cell.state with pool := after.state.pool } ∧
      ChuteState.Shrunk after.state.pool cell.state.pool ∧
      after.holder = some (.served keepWarm) ∧
      ChuteState.Issues cell.state capacity (world.ledger.prune issue.at_) issue.chuteId avoid
        issue.validUntil issue.ticket after.state next.ledger := by
  cases event with
  | create scope =>
      cases stepped
      simp at logged
  | evict gone =>
      change Admissions.step epoch capacity world (.evict gone) = some next at stepped
      simp only [Admissions.step] at stepped
      split at stepped
      · split at stepped
        · cases stepped
          simp at logged
        · cases stepped
      · cases stepped
  | act acting now act =>
      obtain ⟨cell, done, found, later, does, rfl⟩ := Admissions.step_act stepped
      have entries := List.append_cancel_left logged
      cases does with
      | issue holds at_ valid onlyPool shrunk issues =>
          cases entries
          exact ⟨cell, _, _, _, _, found, Finmap.lookup_insert _, later, rfl, holds, at_, rfl, valid,
            onlyPool, shrunk, rfl, issues⟩
      | askEvidence | answerEvidence | answerDiscovery | renewAsk | renewAnswer | lock | retryLock
      | prune | noTicket | askDiscovery | release | serve | keepWarm | renewStop | renewWait
      | renewArm | renewFail | renewGone | invalidate => cases entries

/-- Every ticket names an instance that is admitted and pooled when it is issued.
At the instant its deadlines were checked, the evidence of that instance has not
expired on the wall clock, the anchor of its admission is less than
`admissionTtl` old, and its nonce, which the cell's latest discovery advertised
for it, has at least `nonceMargin` of its lifetime left. -/
theorem tickets_are_current {epoch : Duration} {capacity : Nat} {world next : Admissions}
    {event : Admissions.Event} (reached : (admissionsMachine epoch capacity).Reachable world)
    (stepped : (admissionsMachine epoch capacity).step world event = some next) {name : Cell}
    {issue : Issue} (logged : next.log = world.log ++ [.issued name issue]) :
    issue.checked ≤ issue.at_ ∧
    ∃ cell, next.cells.lookup name = some cell ∧
      (∃ batch judged inst expires, Entry.recorded name batch judged ∈ world.log ∧
        (inst, Answer.expires expires) ∈ judged ∧ inst.key = issue.ticket.key ∧
        cell.state.admitted.lookup issue.ticket.key =
          some (deadline batch.anchor batch.anchorWall expires) ∧
        epoch + issue.checked < Duration.fromSecs expires ∧
        batch.anchor ≤ issue.checked ∧ issue.checked < batch.anchor + admissionTtl) ∧
      (∃ inst ∈ cell.state.pool, inst.key = issue.ticket.key) ∧
      ∃ discovery asked received, lastRefill next.log name = some (discovery, asked, received) ∧
        (∃ inst ∈ discovery.instances, inst.key = issue.ticket.key ∧
          issue.ticket.nonce ∈ inst.nonces) ∧
        issue.checked + nonceMargin ≤ asked + discovery.nonceLifetime := by
  obtain ⟨cell, after, holder, avoid, keepWarm, found, foundAfter, later, -, holds, at_, -, -,
    onlyPool, -, -, issues⟩ := step_issued stepped logged
  have sound := CellSound.reachable reached found
  obtain ⟨read, current⟩ : issue.checked ≤ world.clock ∧
      Current epoch world.log name issue.checked cell.state := by
    have held := sound.holder holder holds
    cases holder with
    | pruned checked tries | retryPruned checked avoid =>
        cases at_
        exact held
    | issuing | charging | admitting | claiming | discovering | retrying | served => cases at_
  refine ⟨read.trans later, after, foundAfter, ?_, issues.pooled, ?_⟩
  · obtain ⟨untilAt, has⟩ := Finmap.mem_iff.mp issues.admitted
    obtain ⟨running, batch, judged, inst, expires, lag, recorded, answered, key, same, wall,
      anchored⟩ := current.admitted _ _ has
    rw [same, wall] at running
    obtain ⟨fresh, young⟩ := deadline_gt anchored running
    refine ⟨batch, judged, inst, expires, recorded, answered, key, ?_, fresh, anchored, young⟩
    rw [onlyPool, ← same]
    exact has
  · obtain ⟨inst, pooled, key, advertised⟩ := issues.advertised
    obtain ⟨untilAt, issueUntil, running⟩ := current.pool inst pooled
    cases current.poolFrom with
    | never empty => rw [empty] at pooled; cases pooled
    | refilled discovery asked received last issueAt valid begun listed distinct =>
        obtain ⟨other, also, sameKey, nonces⟩ := listed inst pooled
        have logKept : lastRefill next.log name = some (discovery, asked, received) := by
          rw [logged, lastRefill_append_of_none (by simp [Entry.refill]), last]
        refine ⟨discovery, asked, received, logKept,
          ⟨other, also, sameKey.symm.trans key, nonces advertised⟩, ?_⟩
        rw [issueAt] at issueUntil
        cases issueUntil
        exact (Instant.checkedSub_getD_lt asked begun running).le

/-- The first ticket of a run names a pooled instance. -/
theorem tickets_are_current_on_first_ticket : ∃ next,
    (admissionsMachine 0 10).run (firstTicketSchedule ++ [.act 0 0 .take]) = some next ∧
      ∃ cell, next.cells.lookup 0 = some cell ∧
        ∃ inst ∈ cell.state.pool, inst.key = ("inst", "key") := by
  obtain ⟨world, next, run, stepped, logged⟩ := firstTicketSchedule_issues
  obtain ⟨-, cell, found, -, pooled, -⟩ := tickets_are_current ⟨_, run⟩ stepped logged
  refine ⟨next, ?_, cell, found, pooled⟩
  exact (Machine.exec_append_eq_some _).mpr
    ⟨world, run, (Machine.exec_cons_eq_some _).mpr ⟨next, stepped, rfl⟩⟩

/-- Nothing is compared with the clock after the prune. Held up for 2000 seconds
before it takes the ticket, a locked section still issues it: by then the only
evidence has expired, its admission is older than `admissionTtl`, and the nonce
is past the lifetime of the discovery that advertised it. -/
theorem ticket_issued_past_its_deadlines : ∃ world next issue,
    (admissionsMachine 0 10).run firstTicketSchedule = some world ∧
      (admissionsMachine 0 10).step world (.act 0 (Duration.fromSecs 2000) .take) = some next ∧
      next.log = world.log ++ [.issued 0 issue] ∧ issue.at_ = Duration.fromSecs 2000 ∧
      (¬ ∃ batch judged inst expires, Entry.recorded 0 batch judged ∈ world.log ∧
        (inst, Answer.expires expires) ∈ judged ∧ inst.key = issue.ticket.key ∧
        0 + issue.at_ < Duration.fromSecs expires) ∧
      (¬ ∃ batch judged, Entry.recorded 0 batch judged ∈ world.log ∧
        issue.at_ < batch.anchor + admissionTtl) ∧
      ¬ ∃ discovery asked received, lastRefill next.log 0 = some (discovery, asked, received) ∧
        issue.at_ + nonceMargin ≤ asked + discovery.nonceLifetime := by
  let inst : DiscoveredInstance := ⟨"inst", "key", ["nonce"]⟩
  let before : List Entry :=
    [.refilled 0 smallDiscovery 0 0, .started 0 8, .recorded 0 ⟨8, 0, 0, [inst]⟩ [(inst, .expires 1000)]]
  let late : Issue := { firstIssue with at_ := Duration.fromSecs 2000 }
  have ran : ((admissionsMachine 0 10).run firstTicketSchedule).bind (fun world =>
      ((admissionsMachine 0 10).step world (.act 0 (Duration.fromSecs 2000) .take)).map fun next =>
        decide (world.log = before ∧ next.log = before ++ [.issued 0 late])) = some true := by
    decide +kernel
  obtain ⟨world, run, stepped⟩ := Option.bind_eq_some_iff.mp ran
  obtain ⟨next, step, logged⟩ := Option.map_eq_some_iff.mp stepped
  obtain ⟨logBefore, logAfter⟩ := of_decide_eq_true logged
  -- The only batch recorded in the run, and the only discovery.
  have only : ∀ {batch judged}, Entry.recorded 0 batch judged ∈ world.log →
      batch = ⟨8, 0, 0, [inst]⟩ ∧ judged = [(inst, .expires 1000)] := by
    intro batch judged recorded
    simpa [logBefore, before] using recorded
  have last : lastRefill next.log 0 = some (smallDiscovery, 0, 0) := by
    rw [logAfter]
    rfl
  refine ⟨world, next, late, run, step, logBefore ▸ logAfter, rfl, ?_, ?_, ?_⟩
  · rintro ⟨batch, judged, other, expires, recorded, answered, -, fresh⟩
    obtain ⟨-, rfl⟩ := only recorded
    cases List.mem_singleton.mp answered
    exact absurd fresh (by decide)
  · rintro ⟨batch, judged, recorded, young⟩
    obtain ⟨rfl, -⟩ := only recorded
    exact absurd young (by decide)
  · rintro ⟨discovery, asked, received, advertised, early⟩
    cases last.symm.trans advertised
    exact absurd early (by decide)

end GmMiner.Chutes
