import GmMiner.Chutes.Forward

/-!
What a chat request sends to the instances of its chute.

The invocations of a request are rounds: an instance is invoked and answers 429, and only then the
next one is. A retry is given its ticket in a locked section that spends nothing and avoids every
instance that turned the request away. The lock is what carries the argument over the acts of other
requests: while it is held, nothing else changes who holds it (`HoldsLock.other`), so the ticket
taken is the request's own.
-/

namespace GmMiner.Chutes

open GmMiner.Lib GmMiner.Json

/-! ### The locked section -/

section Section

variable {epoch : Duration} {capacity : Nat} {world next : Admissions}

/-- A cell has a number that was given out. -/
theorem Admissions.cells_lt (reached : (admissionsMachine epoch capacity).Reachable world)
    {name : Cell} {cell : ScopeCell} (found : world.cells.lookup name = some cell) :
    name < world.nextId := by
  revert name cell
  refine reached.invariant (P := fun world => ∀ {name : Cell} {cell : ScopeCell},
    world.cells.lookup name = some cell → name < world.nextId) ?_ ?_
  · intro name cell found
    simp [admissionsMachine] at found
  · intro world event next below stepped name cell found
    cases event with
    | create scope =>
        cases stepped
        dsimp only at found ⊢
        rw [Finmap.lookup_insert_eq] at found
        split at found
        · rename_i same
          exact same ▸ Nat.lt_succ_self _
        · exact (below found).trans (Nat.lt_succ_self _)
    | evict gone =>
        change Admissions.step epoch capacity world (.evict gone) = some next at stepped
        simp only [Admissions.step] at stepped
        split at stepped
        · split at stepped
          · cases stepped
            by_cases same : name = gone
            · subst same
              simp at found
            · exact below ((Finmap.lookup_erase_ne same).symm.trans found)
          · cases stepped
        · cases stepped
    | act acting now act =>
        obtain ⟨before, done, at_, -, -, rfl⟩ := Admissions.step_act stepped
        dsimp only at found ⊢
        rw [Finmap.lookup_insert_eq] at found
        split at found
        · rename_i same
          exact same ▸ (below at_).trans (Nat.lt_succ_self _)
        · exact (below found).trans (Nat.lt_succ_self _)

theorem ScopeCell.Does.scope {around : Surroundings} {cell : ScopeCell} {act : Act} {done : Done}
    (does : ScopeCell.Does around cell act done) : done.cell.scope = cell.scope := by
  cases does <;> rfl

/-- The request has the cell of its scope locked, and what it is about to do there. -/
def HoldsLock (world : Admissions) (scope : ChuteScope) (name : Cell) (as : Holder → Prop) : Prop :=
  ∃ cell holder, world.cells.lookup name = some cell ∧ cell.scope = scope ∧
    cell.holder = some holder ∧ as holder

variable {scope : ChuteScope} {name : Cell} {as : Holder → Prop}

/-- Other tasks leave a lock to its holder. -/
theorem HoldsLock.other (holds : HoldsLock world scope name as)
    (reached : (admissionsMachine epoch capacity).Reachable world) {stage : Stage}
    (locked : stage.cell = some name) {event : Admissions.Event}
    (leaves : stage.leaves event = true)
    (stepped : Admissions.step epoch capacity world event = some next) :
    HoldsLock next scope name as := by
  obtain ⟨cell, holder, found, ofScope, held, isAs⟩ := holds
  cases event with
  | create created =>
      cases stepped
      have apart : name ≠ world.nextId := (Admissions.cells_lt reached found).ne
      exact ⟨cell, holder, (Finmap.lookup_insert_of_ne _ apart).trans found, ofScope, held, isAs⟩
  | evict gone =>
      simp only [Admissions.step] at stepped
      split at stepped
      · rename_i dropped at_
        split at stepped
        · rename_i unlocked
          cases stepped
          have apart : name ≠ gone := by
            rintro rfl
            rw [found] at at_
            cases at_
            rw [held] at unlocked
            cases unlocked
          exact ⟨cell, holder, (Finmap.lookup_erase_ne apart).trans found, ofScope, held, isAs⟩
        · cases stepped
      · cases stepped
  | act acting now act =>
      obtain ⟨before, done, at_, -, does, rfl⟩ := Admissions.step_act stepped
      -- An act on this very cell: only a renewal's, as the section's own acts are the request's.
      by_cases same : name = acting
      · subst same
        rw [found] at at_
        cases at_
        have onlyRenewal : done.cell.holder = cell.holder := by
          cases does with
          | renewAsk | renewGone => rfl
          | lock | retryLock | prune | issue | noTicket | askEvidence | answerEvidence
          | askDiscovery | answerDiscovery | release | serve | keepWarm | renewStop | renewWait
          | renewArm | renewAnswer | renewFail | invalidate =>
              simp [Stage.leaves, locked] at leaves
        exact ⟨done.cell, holder, Finmap.lookup_insert _, does.scope.trans ofScope,
          onlyRenewal.trans held, isAs⟩
      · exact ⟨cell, holder, (Finmap.lookup_insert_of_ne _ same).trans found, ofScope, held, isAs⟩

/-- What the holder in `retry_ticket` is about to do. -/
def Retrying (avoid : List String) (holder : Holder) : Prop :=
  holder = .retrying avoid ∨ ∃ checked, holder = .retryPruned checked avoid

theorem issuedBy_append {before after : Admissions} {entries : List Entry}
    (logged : after.log = before.log ++ entries) :
    Forwarding.issuedBy before after = Forwarding.onlyIssue entries := by
  unfold Forwarding.issuedBy
  rw [logged, List.drop_left]

/-- What an act of a locked section comes to. -/
inductive SectionStep (world next : Admissions) (scope : ChuteScope) (name : Cell)
    (as : Holder → Prop) (avoid : List String) : Prop
  | goesOn (notIssued : Forwarding.issuedBy world next = none)
      (holds : HoldsLock next scope name as)
  | ends (notIssued : Forwarding.issuedBy world next = none) (cell : ScopeCell)
      (found : next.cells.lookup name = some cell) (unlocked : cell.holder = none)
  | issues (issue : Issue) (issued : Forwarding.issuedBy world next = some issue)
      (logged : Chutes.issues next.log = Chutes.issues world.log ++ [issue])
      (chute : issue.chuteId = scope.2) (notAvoided : issue.ticket.instanceId ∉ avoid)
      (holds : HoldsLock next scope name fun _ => True)

/-- An act of the holder is the cell's own. -/
theorem step_act_held {now : Instant} {act : Act} {cell : ScopeCell} {holder : Holder}
    (found : world.cells.lookup name = some cell) (held : cell.holder = some holder)
    (ofSection : act.isOfSection = true)
    (stepped : Admissions.step epoch capacity world (.act name now act) = some next) :
    ∃ done,
      cell.held ⟨name, world.nextId, epoch, capacity, world.ledger, now⟩ holder act = some done ∧
      next = ⟨world.cells.insert name done.cell, world.nextId + 1, done.ledger, now,
        world.log ++ done.entries⟩ := by
  simp only [Admissions.step, found] at stepped
  split at stepped
  · obtain ⟨done, did, rfl⟩ := Option.map_eq_some_iff.mp stepped
    refine ⟨done, ?_, rfl⟩
    have apart : cell.unlocked ⟨name, world.nextId, epoch, capacity, world.ledger, now⟩ act =
        none := by
      cases act with
      | renewAsk | renewStop => cases ofSection
      | lock | retryLock | prune | take | askEvidence | answerEvidence | askDiscovery
      | answerDiscovery | release | serve | renew | renewAnswer | renewFail | invalidate => rfl
    unfold ScopeCell.step at did
    rw [apart, Option.none_or, held] at did
    exact did
  · cases stepped

/-- A step of the section leaves the lock held, and issues nothing. -/
theorem step_section {now : Instant} {act : Act} (holds : HoldsLock world scope name as)
    (ofSection : act.isOfSection = true)
    (stepped : Admissions.step epoch capacity world (.act name now act) = some next) :
    SectionStep world next scope name (fun _ => True) [] := by
  obtain ⟨cell, holder, found, rfl, held, -⟩ := holds
  obtain ⟨before, done, at_, -, does, rfl⟩ := Admissions.step_act stepped
  cases at_.symm.trans found
  have inserted := Finmap.lookup_insert (a := name) (b := done.cell) world.cells
  have still : Forwarding.onlyIssue done.entries = none →
      SectionStep world ⟨world.cells.insert name done.cell, world.nextId + 1, done.ledger, now,
        world.log ++ done.entries⟩ cell.scope name (fun _ => True) [] := by
    intro none
    cases holds : done.cell.holder with
    | none => exact .ends ((issuedBy_append rfl).trans none) done.cell inserted holds
    | some next =>
        exact .goesOn ((issuedBy_append rfl).trans none)
          ⟨done.cell, next, inserted, does.scope, holds, trivial⟩
  cases does with
  | issue =>
      exact .issues _ ((issuedBy_append rfl).trans rfl) (issues_append _ _) rfl List.not_mem_nil
        ⟨_, _, inserted, rfl, rfl, trivial⟩
  | prune | noTicket | askEvidence | answerEvidence | askDiscovery | answerDiscovery | release
  | lock | retryLock | serve | keepWarm | renewStop | renewWait | renewArm | renewAsk
  | renewAnswer | renewFail | renewGone | invalidate => exact still rfl

/-- The section of a retry begins no call, and its ticket is for an instance that did not turn the
request away. -/
theorem step_retrying {now : Instant} {act : Act} {avoid : List String}
    (holds : HoldsLock world scope name (Retrying avoid)) (ofSection : act.isOfSection = true)
    (stepped : Admissions.step epoch capacity world (.act name now act) = some next) :
    act.calls = [] ∧ SectionStep world next scope name (Retrying avoid) avoid := by
  obtain ⟨cell, holder, found, rfl, held, retrying⟩ := holds
  obtain ⟨done, did, rfl⟩ := step_act_held found held ofSection stepped
  have inserted := Finmap.lookup_insert (a := name) (b := done.cell) world.cells
  -- Before its prune the section may prune or release; after it, issue or release.
  rcases retrying with rfl | ⟨checked, rfl⟩
  · cases act with
    | prune =>
        cases did
        exact ⟨rfl, .goesOn ((issuedBy_append rfl).trans rfl)
          ⟨_, _, inserted, rfl, rfl, .inr ⟨_, rfl⟩⟩⟩
    | release =>
        cases did
        exact ⟨rfl, .ends ((issuedBy_append rfl).trans rfl) _ inserted rfl⟩
    | lock | retryLock | take | askEvidence | answerEvidence | askDiscovery | answerDiscovery
    | serve | renew | renewAsk | renewAnswer | renewFail | renewStop | invalidate => cases did
  · cases act with
    | take =>
        refine ⟨rfl, ?_⟩
        change cell.taken ⟨name, world.nextId, epoch, capacity, world.ledger, now⟩ checked avoid
          false (fun _ => none) = some done at did
        unfold ScopeCell.taken at did
        dsimp only at did
        have outcome := cell.state.takeTicket_outcome capacity world.ledger cell.scope.2 avoid now
        generalize cell.state.takeTicket capacity world.ledger cell.scope.2 avoid now = out
          at did outcome
        obtain ⟨answer, left, ledger⟩ := out
        cases answer with
        | error error =>
            cases did
            exact .ends ((issuedBy_append rfl).trans rfl) _ inserted rfl
        | ok ticket =>
            cases ticket with
            | none =>
                cases did
                exact .ends ((issuedBy_append rfl).trans rfl) _ inserted rfl
            | some ticket =>
                cases did
                rcases outcome with ⟨noTicket, -⟩ | ⟨validUntil, -, spec⟩
                · cases noTicket
                · rcases spec.result with ⟨taken, same, issues⟩ | ⟨noTicket, -⟩
                  · cases same
                    exact .issues _ ((issuedBy_append rfl).trans rfl) (issues_append _ _) rfl
                      issues.notAvoided ⟨_, _, inserted, rfl, rfl, trivial⟩
                  · exact absurd rfl (noTicket ticket)
    | release =>
        cases did
        exact ⟨rfl, .ends ((issuedBy_append rfl).trans rfl) _ inserted rfl⟩
    | lock | retryLock | prune | askEvidence | answerEvidence | askDiscovery | answerDiscovery
    | serve | renew | renewAsk | renewAnswer | renewFail | renewStop | invalidate => cases did

end Section

/-! ### Rounds -/

/-- An invocation that was answered a status. -/
abbrev TurnedAway := Invocation × StatusCode

def TurnedAway.moments (round : TurnedAway) : List Moment :=
  [.invoke round.1, .answer (.status round.2)]

theorem invocations_append (first second : List Moment) :
    invocations (first ++ second) = invocations first ++ invocations second :=
  List.filterMap_append

theorem invocations_rounds (rounds : List TurnedAway) :
    invocations (rounds.flatMap TurnedAway.moments) = rounds.map Prod.fst := by
  induction rounds with
  | nil => rfl
  | cons round rounds ih =>
      rw [List.flatMap_cons, invocations_append, ih]
      rfl

/-- A moment of getting the first ticket. -/
def IsCall (moment : Moment) : Prop := moment = .discover ∨ moment = .admission

theorem Act.calls_isCall {act : Act} {moment : Moment} (mem : moment ∈ act.calls) :
    IsCall moment := by
  cases act with
  | askEvidence => exact .inr (List.mem_singleton.mp mem)
  | askDiscovery => exact .inl (List.mem_singleton.mp mem)
  | lock | retryLock | prune | take | answerEvidence | answerDiscovery | release | serve | renew
  | renewAsk | renewAnswer | renewFail | renewStop | invalidate => cases mem

theorem invocations_spent {spent : List Moment} (calls : ∀ moment ∈ spent, IsCall moment) :
    invocations spent = [] := by
  refine List.filterMap_eq_nil_iff.mpr fun moment mem => ?_
  rcases calls moment mem with rfl | rfl <;> rfl

/-- The request gets no further ticket. -/
def Stage.isFinal : Stage → Bool
  | relaying _ | noTicket | failed _ => true
  | _ => false

/-- Where a request stands after some rounds: the tickets it has besides theirs, and what it did
with them. -/
inductive Standing (scope : ChuteScope) (world : Admissions) (avoid : List String) :
    Stage → List TurnedAway → List Ticket → List Moment → Prop
  | ticketing : Standing scope world avoid .ticketing [] [] []
  | first {name} (holds : HoldsLock world scope name fun _ => True) :
      Standing scope world avoid (.locked name none) [] [] []
  | again {name status rounds} (holds : HoldsLock world scope name (Retrying avoid)) :
      Standing scope world avoid (.locked name (some status)) rounds [] []
  | served {name ticket rounds} :
      Standing scope world avoid (.served name ticket) rounds [ticket] []
  | ticketed {ticket rounds} : Standing scope world avoid (.ticketed ticket) rounds [ticket] []
  | invoking {invocation ticket responseKey rounds}
      (with_ : Invocation.ticket invocation = ticket) :
      Standing scope world avoid (.invoking ticket responseKey) rounds [ticket] [.invoke invocation]
  | turnedAway {status rounds} : Standing scope world avoid (.turnedAway status) rounds [] []
  | ended {stage rounds pending} (final : Stage.isFinal stage = true) :
      Standing scope world avoid stage rounds pending []
  | answered {stage rounds invocation answer} (final : Stage.isFinal stage = true) :
      Standing scope world avoid stage rounds [Invocation.ticket invocation]
        [.invoke invocation, .answer answer]

section Underway

variable {epoch : Duration} {capacity : Nat} {credentialOf : String → Credential}
  {encryptRequest : EncryptRequest} {prepared : Prepared}

/-- An invocation carries the request to the chute, encrypted to the key of its own ticket. -/
structure Carries (encryptRequest : EncryptRequest) (prepared : Prepared)
    (invocation : Invocation) : Prop where
  chute : invocation.chuteId = prepared.target.chuteId
  stream : invocation.stream = prepared.stream
  encrypted : ∃ randomness encrypted,
    encryptRequest invocation.ticket.e2ePubkey prepared.payload randomness = .ok encrypted ∧
      invocation.blob = encrypted.blob

/-- What a request has done so far. -/
structure Underway (epoch : Duration) (capacity : Nat) (credentialOf : String → Credential)
    (encryptRequest : EncryptRequest) (prepared : Prepared) (s : Forwarding) (spent : List Moment)
    (rounds : List TurnedAway) (pending : List Ticket) (tail : List Moment) : Prop where
  reached : (admissionsMachine epoch capacity).Reachable s.world
  issued : s.given.Sublist (issues s.world.log)
  chute : ∀ issue ∈ s.given, issue.chuteId = prepared.target.chuteId
  instances : (s.given.map fun issue => issue.ticket.instanceId).Nodup
  tickets : s.given.map Issue.ticket = rounds.map (fun round => round.1.ticket) ++ pending
  trace : s.trace = spent ++ (rounds.flatMap TurnedAway.moments ++ tail)
  calls : ∀ moment ∈ spent, IsCall moment
  refused : ∀ round ∈ rounds, round.2.code = 429
  carries : ∀ invocation ∈ invocations s.trace, Carries encryptRequest prepared invocation
  few : rounds.length < maxInvokeInstances
  turned : s.stage.isFinal = false →
    s.turnedAway = rounds.map fun round => round.1.ticket.instanceId
  standing : Standing (Forwarding.scopeOf credentialOf prepared) s.world s.turnedAway s.stage rounds
    pending tail

theorem issues_mono {world next : Admissions} {event : Admissions.Event}
    (stepped : Admissions.step epoch capacity world event = some next) :
    (issues world.log).Sublist (issues next.log) := by
  rcases Admissions.step_log stepped with same | ⟨entry, grown⟩
  · rw [same]
  · rw [grown, issues_append]
    exact List.sublist_append_left _ _

variable {s : Forwarding} {spent tail : List Moment} {rounds : List TurnedAway}
  {pending : List Ticket}

theorem Underway.advance {event : Admissions.Event} {world : Admissions}
    (progress : Underway epoch capacity credentialOf encryptRequest prepared s spent rounds pending
      tail)
    (stepped : Admissions.step epoch capacity s.world event = some world) :
    (admissionsMachine epoch capacity).Reachable world ∧
      s.given.Sublist (issues world.log) :=
  ⟨progress.reached.next stepped, progress.issued.trans (issues_mono stepped)⟩

/-- A step of the rest of the world leaves the progress of the request. -/
theorem step_other {event : Admissions.Event} {world : Admissions}
    (progress : Underway epoch capacity credentialOf encryptRequest prepared s spent rounds pending
      tail)
    (leaves : s.stage.leaves event = true)
    (stepped : Admissions.step epoch capacity s.world event = some world) :
    Underway epoch capacity credentialOf encryptRequest prepared { s with world } spent rounds
      pending tail :=
  { progress with
    reached := (progress.advance stepped).1
    issued := (progress.advance stepped).2
    standing := by
      have standing := progress.standing
      have reached := progress.reached
      dsimp only
      generalize s.stage = stage at standing leaves
      cases standing with
      | ticketing => exact .ticketing
      | first holds => exact .first (holds.other reached rfl leaves stepped)
      | again holds => exact .again (holds.other reached rfl leaves stepped)
      | served => exact .served
      | ticketed => exact .ticketed
      | invoking with_ => exact .invoking with_
      | turnedAway => exact .turnedAway
      | ended final => exact .ended final
      | answered final => exact .answered final }

/-- The lock is acquired, to go on at `stage`. -/
theorem acquire_cases {name : Cell} {now : Instant} {act : Act} {stage : Stage} {next : Forwarding}
    (stepped : Forwarding.acquire epoch capacity credentialOf prepared s name now act stage =
      some next) :
    ∃ cell done, s.world.cells.lookup name = some cell ∧
      cell.scope = Forwarding.scopeOf credentialOf prepared ∧
      ScopeCell.Does ⟨name, s.world.nextId, epoch, capacity, s.world.ledger, now⟩ cell act done ∧
      ∃ world, Admissions.step epoch capacity s.world (.act name now act) = some world ∧
        world.cells = s.world.cells.insert name done.cell ∧ next = { s with world, stage } := by
  unfold Forwarding.acquire at stepped
  split at stepped
  · rename_i ofScope
    obtain ⟨world, acted, rfl⟩ := Option.map_eq_some_iff.mp stepped
    obtain ⟨cell, done, found, -, does, rfl⟩ := Admissions.step_act acted
    rw [found, Option.any_some, decide_eq_true_iff] at ofScope
    exact ⟨cell, done, found, ofScope, does, _, acted, rfl, rfl⟩
  · cases stepped

/-- Taking the lock goes on with the round. -/
theorem step_lock {name : Cell} {now : Instant} {next : Forwarding}
    (progress : Underway epoch capacity credentialOf encryptRequest prepared s spent rounds pending
      tail)
    (stepped : Forwarding.step epoch capacity credentialOf encryptRequest prepared s
      (.lock name now) = some next) :
    Underway epoch capacity credentialOf encryptRequest prepared next spent rounds pending
      tail := by
  simp only [Forwarding.step] at stepped
  have standing := progress.standing
  have turned := progress.turned
  split at stepped
  · rename_i stage
    obtain ⟨cell, done, found, ofScope, does, world, acted, cells, rfl⟩ := acquire_cases stepped
    rw [stage] at standing turned
    refine { progress with
      reached := (progress.advance acted).1
      issued := (progress.advance acted).2
      turned := fun _ => turned rfl
      standing := ?_ }
    cases does with
    -- The first lock of the request: nothing was turned away.
    | lock unlocked =>
        cases standing with
        | ticketing =>
            refine .first ⟨cell.setHolder (some (.issuing ⟨0, 0, []⟩)), _, ?_, ofScope, rfl,
              trivial⟩
            rw [cells]
            exact Finmap.lookup_insert _
        | ended final => cases final
        | answered final => cases final
  · rename_i status stage
    obtain ⟨cell, done, found, ofScope, does, world, acted, cells, rfl⟩ := acquire_cases stepped
    rw [stage] at standing turned
    refine { progress with
      reached := (progress.advance acted).1
      issued := (progress.advance acted).2
      turned := fun _ => turned rfl
      standing := ?_ }
    cases does with
    | retryLock unlocked =>
        cases standing with
        | turnedAway =>
            refine .again ⟨cell.setHolder (some (.retrying s.turnedAway)), _, ?_, ofScope, rfl,
              .inl rfl⟩
            rw [cells]
            exact Finmap.lookup_insert _
        | ended final => cases final
        | answered final => cases final
  · cases stepped

/-- A ticket taken in a locked section is the next one. -/
theorem Underway.take {name : Cell} {world : Admissions} {issue : Issue} {event : Admissions.Event}
    (progress : Underway epoch capacity credentialOf encryptRequest prepared s spent rounds [] [])
    (open_ : s.stage.isFinal = false)
    (stepped : Admissions.step epoch capacity s.world event = some world)
    (logged : issues world.log = issues s.world.log ++ [issue])
    (chute : issue.chuteId = prepared.target.chuteId)
    (notAvoided : issue.ticket.instanceId ∉ s.turnedAway) :
    Underway epoch capacity credentialOf encryptRequest prepared
      { s with world, stage := .served name issue.ticket, given := s.given ++ [issue] } spent rounds
      [issue.ticket] [] :=
  { progress with
    reached := (progress.advance stepped).1
    issued := by
      rw [logged]
      exact progress.issued.append (List.Sublist.refl _)
    chute := by
      intro other mem
      rcases List.mem_append.mp mem with before | last
      · exact progress.chute other before
      · rw [List.mem_singleton.mp last]
        exact chute
    instances := by
      have tickets := congrArg (List.map Ticket.instanceId) progress.tickets
      rw [List.append_nil, List.map_map, List.map_map] at tickets
      have turned := (progress.turned open_).trans tickets.symm
      rw [List.map_append, List.nodup_append]
      refine ⟨progress.instances, List.nodup_singleton _, ?_⟩
      rintro id mem _ last rfl
      rw [List.map_singleton, List.mem_singleton] at last
      rw [turned, ← last] at notAvoided
      exact notAvoided mem
    tickets := by
      rw [List.map_append, progress.tickets, List.append_nil]
      rfl
    turned := fun _ => progress.turned open_
    standing := .served }

/-- What an act of a locked section comes to for the request. -/
theorem Underway.moved {name : Cell} {refused : Option StatusCode} {act : Act} {world : Admissions}
    {event : Admissions.Event} {as : Holder → Prop}
    (progress : Underway epoch capacity credentialOf encryptRequest prepared
      { s with trace := s.trace ++ act.calls } spent rounds [] [])
    (open_ : s.stage.isFinal = false)
    (stepped : Admissions.step epoch capacity s.world event = some world)
    (goes : SectionStep s.world world (Forwarding.scopeOf credentialOf prepared) name as
      s.turnedAway)
    (stays : HoldsLock world (Forwarding.scopeOf credentialOf prepared) name as →
      Standing (Forwarding.scopeOf credentialOf prepared) world s.turnedAway s.stage rounds [] []) :
    ∃ pending, Underway epoch capacity credentialOf encryptRequest prepared
      (s.moved name refused act world) spent rounds pending [] := by
  unfold Forwarding.moved
  cases goes with
  | goesOn notIssued holds =>
      have stands := stays holds
      obtain ⟨cell, holder, found, -, held, -⟩ := holds
      simp only [notIssued, found, Option.any_some, held, Option.isSome_some, if_true]
      exact ⟨[], { progress with
        reached := (progress.advance stepped).1
        issued := (progress.advance stepped).2
        standing := stands }⟩
  | ends notIssued cell found unlocked =>
      simp only [notIssued, found, Option.any_some, unlocked, Option.isSome_none,
        Bool.false_eq_true, if_false]
      have final : (withoutTicket refused).isFinal = true := by cases refused <;> rfl
      refine ⟨[], { progress with
        reached := (progress.advance stepped).1
        issued := (progress.advance stepped).2
        turned := fun open_ => ?_
        standing := .ended final }⟩
      rw [final] at open_
      cases open_
  | issues issue issued logged chute notAvoided holds =>
      simp only [issued]
      exact ⟨_, progress.take open_ stepped logged chute notAvoided⟩

/-- The first ticket may take calls. -/
theorem Underway.spend {act : Act}
    (progress : Underway epoch capacity credentialOf encryptRequest prepared s spent [] pending
      []) :
    Underway epoch capacity credentialOf encryptRequest prepared
      { s with trace := s.trace ++ act.calls } (spent ++ act.calls) [] pending [] :=
  { progress with
    trace := by
      rw [progress.trace]
      simp
    calls := by
      intro moment mem
      rcases List.mem_append.mp mem with before | own
      · exact progress.calls moment before
      · exact Act.calls_isCall own
    carries := by
      rw [invocations_append, invocations_spent fun moment => Act.calls_isCall, List.append_nil]
      exact progress.carries }

/-- A step of the request's own section goes on with the round. -/
theorem step_own {now : Instant} {act : Act} {next : Forwarding}
    (progress : Underway epoch capacity credentialOf encryptRequest prepared s spent rounds pending
      tail)
    (stepped : Forwarding.step epoch capacity credentialOf encryptRequest prepared s
      (.own now act) = some next) :
    ∃ spent pending, Underway epoch capacity credentialOf encryptRequest prepared next spent rounds
      pending tail := by
  simp only [Forwarding.step] at stepped
  have standing := progress.standing
  have turned := progress.turned
  split at stepped
  · rename_i name refused stage
    split at stepped
    · rename_i ofSection
      obtain ⟨world, acted, rfl⟩ := Option.map_eq_some_iff.mp stepped
      rw [stage] at standing turned
      cases standing with
      | first holds =>
          have goes := step_section holds ofSection acted
          have none : s.turnedAway = [] := turned rfl
          rw [← none] at goes
          exact ⟨_, progress.spend.moved (by rw [stage]; rfl) acted goes
            fun holds => stage ▸ .first holds⟩
      -- A retry issues without a call, so its trace stays as it was.
      | again holds =>
          obtain ⟨noCall, goes⟩ := step_retrying holds ofSection acted
          have same : s.trace ++ act.calls = s.trace := by rw [noCall, List.append_nil]
          have kept : Underway epoch capacity credentialOf encryptRequest prepared
              { s with trace := s.trace ++ act.calls } spent rounds [] [] := by
            rw [same]
            exact progress
          exact ⟨_, kept.moved (by rw [stage]; rfl) acted goes fun holds => stage ▸ .again holds⟩
      | ended final => cases final
      | answered final => cases final
    · cases stepped
  · rename_i name ticket stage
    split at stepped
    · obtain ⟨world, acted, rfl⟩ := Option.map_eq_some_iff.mp stepped
      rw [stage] at standing turned
      cases standing with
      | served =>
          exact ⟨spent, _, { progress with
            reached := (progress.advance acted).1
            issued := (progress.advance acted).2
            turned := fun _ => turned rfl
            standing := .ticketed }⟩
      | ended final => cases final
      | answered final => cases final
    · cases stepped
  · cases stepped

/-- Giving up ends the request with the rounds it made. -/
theorem step_giveUp {next : Forwarding}
    (progress : Underway epoch capacity credentialOf encryptRequest prepared s spent rounds pending
      tail)
    (stepped : Forwarding.step epoch capacity credentialOf encryptRequest prepared s .giveUp =
      some next) :
    Underway epoch capacity credentialOf encryptRequest prepared next spent rounds pending
      tail := by
  simp only [Forwarding.step] at stepped
  have standing := progress.standing
  split at stepped
  · rename_i stage
    cases stepped
    rw [stage] at standing
    cases standing with
    | ticketing => exact { progress with turned := nofun, standing := .ended rfl }
    | ended final => cases final
    | answered final => cases final
  · rename_i status stage
    cases stepped
    rw [stage] at standing
    cases standing with
    | turnedAway => exact { progress with turned := nofun, standing := .ended rfl }
    | ended final => cases final
    | answered final => cases final
  · cases stepped

/-- An invocation spends the ticket of its round. -/
theorem step_invoke {randomness : Nat} {next : Forwarding}
    (progress : Underway epoch capacity credentialOf encryptRequest prepared s spent rounds pending
      tail)
    (stepped : Forwarding.step epoch capacity credentialOf encryptRequest prepared s
      (.invoke randomness) = some next) :
    ∃ tail, Underway epoch capacity credentialOf encryptRequest prepared next spent rounds pending
      tail := by
  simp only [Forwarding.step] at stepped
  have standing := progress.standing
  have turned := progress.turned
  split at stepped
  · rename_i ticket stage
    cases stepped
    rw [stage] at standing turned
    cases standing with
    | ticketed =>
        unfold Forwarding.invoke
        split
        · exact ⟨_, { progress with turned := nofun, standing := .ended rfl }⟩
        · rename_i encrypted sealed
          refine ⟨[.invoke ⟨prepared.target.chuteId, ticket, prepared.stream, encrypted.blob⟩],
            { progress with
              trace := ?_, carries := ?_, turned := fun _ => turned rfl
              standing := .invoking rfl }⟩
          · rw [progress.trace, List.append_nil, List.append_assoc]
          · intro invocation mem
            rw [invocations_append] at mem
            rcases List.mem_append.mp mem with before | last
            · exact progress.carries invocation before
            · rw [List.mem_singleton.mp last]
              exact ⟨rfl, rfl, _, _, sealed, rfl⟩
    | ended final => cases final
    | answered final => cases final
  · cases stepped

/-- An answer ends the request or turns it away to the next round. -/
theorem step_answer {answer : InvokeAnswer} {next : Forwarding}
    (progress : Underway epoch capacity credentialOf encryptRequest prepared s spent rounds pending
      tail)
    (stepped : Forwarding.step epoch capacity credentialOf encryptRequest prepared s
      (.answer answer) = some next) :
    ∃ rounds pending tail, Underway epoch capacity credentialOf encryptRequest prepared next spent
      rounds pending tail := by
  simp only [Forwarding.step] at stepped
  have standing := progress.standing
  have turned := progress.turned
  split at stepped
  · rename_i ticket responseKey stage
    cases stepped
    rw [stage] at standing turned
    cases standing with
    | invoking with_ =>
        rename_i invocation
        subst with_
        have turned : s.turnedAway = rounds.map fun round => round.1.ticket.instanceId := turned rfl
        have trace : s.trace ++ [.answer answer] =
            spent ++ (rounds.flatMap TurnedAway.moments ++
              [.invoke invocation, .answer answer]) := by
          rw [progress.trace]
          simp
        have carries : ∀ other ∈ invocations (s.trace ++ [.answer answer]),
            Carries encryptRequest prepared other := by
          rw [invocations_append]
          simpa [invocations] using progress.carries
        unfold Forwarding.answered
        cases answer with
        | unreachable error =>
            exact ⟨rounds, _, _, { progress with
              trace := trace, carries := carries, turned := nofun, standing := .answered rfl }⟩
        | status status =>
            dsimp only
            split
            · exact ⟨rounds, _, _, { progress with
                trace := trace, carries := carries, turned := nofun, standing := .answered rfl }⟩
            · split
              · exact ⟨rounds, _, _, { progress with
                  trace := trace, carries := carries, turned := nofun, standing := .answered rfl }⟩
              · rename_i retries
                -- Turned away: the round is over, and the invocation with its status joins the
                -- rounds.
                simp only [not_or, not_not, not_le, List.length_append, turned, List.length_map,
                  List.length_singleton] at retries
                refine ⟨rounds ++ [(invocation, status)], [], [], { progress with
                  tickets := ?_, trace := ?_, refused := ?_, carries := carries, few := ?_
                  turned := fun _ => ?_, standing := .turnedAway }⟩
                · rw [progress.tickets]
                  simp
                · dsimp only
                  rw [trace]
                  simp [TurnedAway.moments]
                · intro round mem
                  rcases List.mem_append.mp mem with before | last
                  · exact progress.refused round before
                  · rw [List.mem_singleton.mp last]
                    exact retries.1
                · simpa using retries.2
                · simp [turned]
    | ended final => cases final
    | answered final => cases final
  · cases stepped

/-- At the start nothing was spent. -/
theorem Underway.start (prepared : Prepared) :
    Underway epoch capacity credentialOf encryptRequest prepared
      (forwarding epoch capacity credentialOf encryptRequest prepared).init [] [] [] [] where
  reached := Machine.Reachable.start
  issued := List.Sublist.refl _
  chute := nofun
  instances := List.nodup_nil
  tickets := rfl
  trace := rfl
  calls := nofun
  refused := nofun
  carries := nofun
  few := Nat.succ_pos _
  turned := fun _ => rfl
  standing := .ticketing

/-- Every reachable state is some progress of the request. -/
theorem Underway.reachable
    (reached : (forwarding epoch capacity credentialOf encryptRequest prepared).Reachable s) :
    ∃ spent rounds pending tail, Underway epoch capacity credentialOf encryptRequest prepared s
      spent rounds pending tail := by
  refine reached.invariant (P := fun s => ∃ spent rounds pending tail, Underway epoch capacity
    credentialOf encryptRequest prepared s spent rounds pending tail)
    ⟨_, _, _, _, Underway.start prepared⟩ ?_
  rintro s event next ⟨spent, rounds, pending, tail, progress⟩ stepped
  cases event with
  | other event =>
      change Forwarding.step epoch capacity credentialOf encryptRequest prepared s (.other event) =
        some next at stepped
      simp only [Forwarding.step] at stepped
      split at stepped
      · rename_i leaves
        obtain ⟨world, acted, rfl⟩ := Option.map_eq_some_iff.mp stepped
        exact ⟨_, _, _, _, step_other progress leaves acted⟩
      · cases stepped
  | lock name now => exact ⟨_, _, _, _, step_lock progress stepped⟩
  | own now act =>
      obtain ⟨spent, pending, progress⟩ := step_own progress stepped
      exact ⟨_, _, _, _, progress⟩
  | giveUp => exact ⟨_, _, _, _, step_giveUp progress stepped⟩
  | invoke randomness =>
      obtain ⟨tail, progress⟩ := step_invoke progress stepped
      exact ⟨_, _, _, _, progress⟩
  | answer answer =>
      obtain ⟨rounds, pending, tail, progress⟩ := step_answer progress stepped
      exact ⟨_, _, _, _, progress⟩

/-- At most one invocation follows the rounds, with a ticket of its own. -/
theorem Standing.shape {scope : ChuteScope} {world : Admissions} {avoid : List String}
    {stage : Stage}
    (standing : Standing scope world avoid stage rounds pending tail) :
    (tail = [] ∨ (∃ invocation, tail = [.invoke invocation]) ∨
      ∃ invocation answer, tail = [.invoke invocation, .answer answer]) ∧
    (invocations tail).length ≤ 1 ∧
    (invocations tail).map Invocation.ticket <+: pending := by
  cases standing with
  | ticketing | first | again | served | ticketed | turnedAway | ended =>
      exact ⟨.inl rfl, Nat.zero_le _, List.nil_prefix⟩
  | invoking with_ => exact ⟨.inr (.inl ⟨_, rfl⟩), le_rfl, with_ ▸ List.prefix_rfl⟩
  | answered => exact ⟨.inr (.inr ⟨_, _, rfl⟩), le_rfl, List.prefix_rfl⟩

/-- What can be said of the invocations of a request, at any time. -/
structure Invokes (encryptRequest : EncryptRequest) (prepared : Prepared) (s : Forwarding) :
    Prop where
  few : (invocations s.trace).length ≤ maxInvokeInstances
  instances : ((invocations s.trace).map fun invocation => invocation.ticket.instanceId).Nodup
  /-- The tickets were issued in this order, each by the latest discovery of its time; a nonce
  comes again only from the `validUntil` of its ticket on. -/
  nonces : ∃ given : List Issue, given.Sublist (issues s.world.log) ∧
    given.map Issue.ticket = (invocations s.trace).map Invocation.ticket ∧
    given.Pairwise (fun first second =>
      first.ticket.nonce = second.ticket.nonce → first.validUntil ≤ second.at_) ∧
    ∀ issue ∈ given, ∃ name discovery asked received,
      Entry.refilled name discovery asked received ∈ s.world.log ∧
      issue.validUntil = received + discovery.nonceLifetime + nonceMargin ∧
      ∃ inst ∈ discovery.instances, inst.key = issue.ticket.key ∧ issue.ticket.nonce ∈ inst.nonces
  carries : ∀ invocation ∈ invocations s.trace, Carries encryptRequest prepared invocation
  /-- Calls come before the first invocation, and another invocation right after a 429. -/
  order : ∃ (spent : List Moment) (rounds : List TurnedAway) (tail : List Moment),
    s.trace = spent ++ (rounds.flatMap TurnedAway.moments ++ tail) ∧
    (∀ moment ∈ spent, moment = .discover ∨ moment = .admission) ∧
    (∀ round ∈ rounds, round.2.code = 429) ∧
    (tail = [] ∨ (∃ invocation, tail = [.invoke invocation]) ∨
      ∃ invocation answer, tail = [.invoke invocation, .answer answer])

theorem issued_of_mem_issues {log : List Entry} {issue : Issue} (mem : issue ∈ issues log) :
    ∃ name, Entry.issued name issue ∈ log := by
  obtain ⟨entry, here, same⟩ := List.mem_filterMap.mp mem
  cases entry with
  | issued name own =>
      cases same
      exact ⟨name, here⟩
  | started | recorded | refilled => cases same

/-- The progress says what was invoked, and with which tickets. -/
theorem Underway.invokes
    (progress : Underway epoch capacity credentialOf encryptRequest prepared s spent rounds pending
      tail) : Invokes encryptRequest prepared s := by
  obtain ⟨shape, one, ⟨rest, isPending⟩⟩ := progress.standing.shape
  have all : invocations s.trace = rounds.map Prod.fst ++ invocations tail := by
    rw [progress.trace, invocations_append, invocations_append, invocations_spent progress.calls,
      invocations_rounds, List.nil_append]
  have tickets : s.given.map Issue.ticket =
      (invocations s.trace).map Invocation.ticket ++ rest := by
    rw [progress.tickets, all, ← isPending, List.map_append, List.map_map, List.append_assoc]
    rfl
  obtain ⟨given, behind, parts, givenTickets, -⟩ := List.map_eq_append_iff.mp tickets
  have within : given.Sublist s.given := parts ▸ List.sublist_append_left _ _
  have issued := within.trans progress.issued
  refine ⟨?_, ?_, ⟨given, issued, givenTickets, ?_, ?_⟩, progress.carries,
    ⟨spent, rounds, tail, progress.trace, progress.calls, progress.refused, shape⟩⟩
  · have few := progress.few
    rw [all, List.length_append, List.length_map]
    omega
  · have ids := (within.map fun issue => issue.ticket.instanceId).nodup progress.instances
    have same := congrArg (List.map Ticket.instanceId) givenTickets
    rw [List.map_map, List.map_map] at same
    exact same ▸ ids
  · have apart := (Remembers.reachable progress.reached).apart.sublist issued
    refine apart.imp_of_mem fun mem mem' apart => apart ?_
    rw [progress.chute _ (within.subset mem), progress.chute _ (within.subset mem')]
  · intro issue mem
    obtain ⟨name, logged⟩ := issued_of_mem_issues (issued.subset mem)
    obtain ⟨discovery, asked, received, rest⟩ := issued_validUntil progress.reached logged
    exact ⟨name, discovery, asked, received, rest⟩

end Underway

/-- In every run of an accepted request beside any other tasks: it is invoked on at most
`maxInvokeInstances` instances, all different, each time encrypted to the key of the ticket the
invocation names; a nonce is used again only once the ledger may forget it; after the calls of the
first ticket it sends nothing but invocations, and a further one only after a 429. -/
theorem tryForward_invokes {epoch : Duration} {capacity : Nat} {credentialOf : String → Credential}
    {encryptRequest : EncryptRequest} {decode : Bytes → Option Value} {request : ChatRequest}
    {machine : Machine Forwarding ForwardEvent} {s : Forwarding}
    (accepted : tryForward epoch capacity credentialOf encryptRequest decode request = .ok machine)
    (reached : machine.Reachable s) :
    ∃ prepared, prepare decode request = .ok prepared ∧ Invokes encryptRequest prepared s := by
  unfold tryForward at accepted
  cases isPrepared : prepare decode request with
  | error error =>
      rw [isPrepared] at accepted
      cases accepted
  | ok prepared =>
      rw [isPrepared] at accepted
      cases accepted
      obtain ⟨spent, rounds, pending, tail, progress⟩ := Underway.reachable reached
      exact ⟨prepared, rfl, progress.invokes⟩

/-! ### A nonce that comes again -/

/-- One instance with one nonce, and, later, another one with that nonce again. -/
def firstOffer : Discovery :=
  ⟨[⟨"inst", "key", ["nonce"]⟩], 60, smallDiscovery.sized, smallDiscovery.lifetime,
    smallDiscovery.distinct, smallDiscovery.freshNonces⟩

def secondOffer : Discovery :=
  ⟨[⟨"other", "another", ["nonce", "last"]⟩], 60, by decide, smallDiscovery.lifetime,
    List.pairwise_singleton _ _, by decide⟩

def kimiRequest : ChatRequest where
  headers := [(selectorHeader, "moonshotai/Kimi-K3-TEE"), ("authorization", "Bearer cpk")]
  method := "POST"
  path := chatCompletions
  body := some (asBytes "\x7b\"model\":\"moonshotai/Kimi-K3-TEE\"\x7d")

def kimiPayload : List (String × Value) := [("model", .string "moonshotai/Kimi-K3-TEE")]

/-- What that body decodes to. -/
def decodeKimi (_body : Bytes) : Option Value := some (.object kimiPayload)

def kimiChute : String := "0bb5d4c2-b5da-587d-b88e-62b4839028ec"

def kimiPrepared : Prepared where
  target := ⟨"moonshotai/Kimi-K3-TEE", kimiChute⟩
  apiKey := "cpk"
  payload := kimiPayload
  stream := false

/-- What finds an instance and takes a ticket for it. -/
def ticketActs (offer : Discovery) : List Act :=
  [.prune, .take, .askDiscovery, .answerDiscovery offer, .prune, .take, .askEvidence 0,
    .answerEvidence [.expires 1000], .prune, .take, .serve]

/-- The first instance keeps the request for seventy seconds and turns it away. Meanwhile another
request discovers the second one, and leaves it the nonce. -/
def sameNonce : List ForwardEvent :=
  let later := 70000000000
  [.other (.create ([7], kimiChute)), .lock 0 0] ++ (ticketActs firstOffer).map (.own 0) ++
    [.invoke 0] ++
    (.lock :: ticketActs secondOffer).map (fun act => .other (.act 0 later act)) ++
    [.answer (.status ⟨429, "429 Too Many Requests"⟩), .lock 0 later, .own later .prune,
      .own later .take, .own later .serve, .invoke 0]

/-- A stand-in for the encryption to a key. -/
def encryptToKey : EncryptRequest := fun key _ _ => .ok ⟨asBytes key, []⟩

theorem kimiRequest_accepted :
    tryForward 0 10 (fun _ => [7]) encryptToKey decodeKimi kimiRequest =
      .ok (forwarding 0 10 (fun _ => [7]) encryptToKey kimiPrepared) := by
  have accepted : prepare decodeKimi kimiRequest = .ok kimiPrepared := rfl
  unfold tryForward
  rw [accepted]
  rfl

/-- The schedule invokes twice, with one nonce of two instances. -/
theorem sameNonce_runs : ∃ s,
    (forwarding 0 10 (fun _ => [7]) encryptToKey kimiPrepared).run sameNonce = some s ∧
      (invocations s.trace).map Invocation.ticket =
        [⟨"inst", "key", "nonce"⟩, ⟨"other", "another", "nonce"⟩] := by
  have ran : ((forwarding 0 10 (fun _ => [7]) encryptToKey kimiPrepared).run sameNonce).map
      (fun s => (invocations s.trace).map Invocation.ticket) =
        some [⟨"inst", "key", "nonce"⟩, ⟨"other", "another", "nonce"⟩] := by
    decide +kernel
  obtain ⟨s, run, tickets⟩ := Option.map_eq_some_iff.mp ran
  exact ⟨s, run, tickets⟩

/-- Two invocations of one request with the same nonce. -/
theorem sameNonce_repeats : ∃ machine s,
    tryForward 0 10 (fun _ => [7]) encryptToKey decodeKimi kimiRequest = .ok machine ∧
      machine.Reachable s ∧
      ¬ ((invocations s.trace).map fun invocation => invocation.ticket.nonce).Nodup := by
  obtain ⟨s, run, tickets⟩ := sameNonce_runs
  refine ⟨_, s, kimiRequest_accepted, ⟨sameNonce, run⟩, ?_⟩
  have nonces := congrArg (List.map Ticket.nonce) tickets
  rw [List.map_map] at nonces
  change ¬ (List.map (Ticket.nonce ∘ Invocation.ticket) (invocations s.trace)).Nodup
  rw [nonces]
  decide

/-- The bounds of that run. -/
theorem sameNonce_invokes : ∃ s,
    (forwarding 0 10 (fun _ => [7]) encryptToKey kimiPrepared).run sameNonce = some s ∧
      Invokes encryptToKey kimiPrepared s := by
  obtain ⟨s, run, -⟩ := sameNonce_runs
  obtain ⟨prepared, isPrepared, invokes⟩ := tryForward_invokes kimiRequest_accepted ⟨sameNonce, run⟩
  have same : prepare decodeKimi kimiRequest = .ok kimiPrepared := rfl
  cases same.symm.trans isPrepared
  exact ⟨s, run, invokes⟩

end GmMiner.Chutes
