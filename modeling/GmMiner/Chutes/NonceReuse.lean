import GmMiner.Chutes.TicketValidity

/-!
No nonce is used twice while Chutes would accept it.

The pools of the cells come and go, and any discovery can offer a nonce again;
the ledger alone stands between two uses. It remembers every issue that is still
valid (`Remembers`), so an issue finds no unexpired record of its nonce, under
whatever credential and in whatever cell the earlier one was made.
-/

namespace GmMiner.Chutes

open GmMiner.Lib

def Entry.issue : Entry → Option Issue
  | .issued _ issue => some issue
  | _ => none

/-- The tickets issued, in the order they were. -/
def issues (log : List Entry) : List Issue := log.filterMap Entry.issue

@[simp] theorem issues_append (log entries : List Entry) :
    issues (log ++ entries) = issues log ++ issues entries := List.filterMap_append

/-- The two tickets do not carry the same nonce of the same chute, or the second
was issued no earlier than the first one's `validUntil`. -/
def Apart (first second : Issue) : Prop :=
  first.chuteId = second.chuteId → first.ticket.nonce = second.ticket.nonce →
    first.validUntil ≤ second.at_

/-- The ledger is within its capacity and has every issue still valid at the
clock; the issues are pairwise apart. -/
structure Remembers (capacity : Nat) (world : Admissions) : Prop where
  bounded : world.ledger.size ≤ capacity
  remembered : ∀ issue ∈ issues world.log, world.clock < issue.validUntil →
    world.ledger.lookup (issue.chuteId, issue.ticket.nonce) = some issue.validUntil
  apart : (issues world.log).Pairwise Apart

/-- An act issues a ticket, or at most prunes the ledger. -/
theorem ScopeCell.Does.ledger {around : Surroundings} {cell : ScopeCell} {act : Act} {done : Done}
    (does : ScopeCell.Does around cell act done) :
    (issues done.entries = [] ∧
      (done.ledger = around.ledger ∨ done.ledger = around.ledger.prune around.now)) ∨
    ∃ issue, issues done.entries = [issue] ∧ issue.at_ = around.now ∧
      (issue.chuteId, issue.ticket.nonce) ∉ around.ledger.prune around.now ∧
      (around.ledger.prune around.now).size < around.capacity ∧
      done.ledger = (around.ledger.prune around.now).insert (issue.chuteId, issue.ticket.nonce)
        issue.validUntil := by
  cases does with
  | issue holds at_ valid onlyPool shrunk taken =>
      exact .inr ⟨_, rfl, rfl, taken.unrecorded, taken.room, taken.records⟩
  | noTicket holds onlyPool shrunk kept => exact .inl ⟨rfl, kept⟩
  | askEvidence | answerEvidence | answerDiscovery | renewAsk | renewAnswer | lock | retryLock
  | prune | askDiscovery | release | serve | keepWarm | renewStop | renewWait | renewArm
  | renewFail | renewGone | invalidate => exact .inl ⟨rfl, .inl rfl⟩

theorem NonceLedger.prune_lookup {ledger : NonceLedger} {now untilAt : Instant}
    {key : String × String} (recorded : ledger.lookup key = some untilAt)
    (running : now < untilAt) : (ledger.prune now).lookup key = some untilAt :=
  Finmap.lookup_retain_eq_some.mpr ⟨recorded, by simpa using running⟩

namespace Remembers

variable {epoch : Duration} {capacity : Nat} {world next : Admissions}

/-- The ledger after an act that issued nothing. -/
private theorem unissued (remembers : Remembers capacity world) (later : world.clock ≤ next.clock)
    (log : issues next.log = issues world.log)
    (ledger : next.ledger = world.ledger ∨ next.ledger = world.ledger.prune next.clock) :
    Remembers capacity next where
  bounded := by
    rcases ledger with same | pruned
    · exact same ▸ remembers.bounded
    · exact pruned ▸ (Finmap.size_retain_le _ _).trans remembers.bounded
  remembered := by
    intro issue mem running
    have recorded := remembers.remembered issue (log ▸ mem) (later.trans_lt running)
    rcases ledger with same | pruned
    · exact same ▸ recorded
    · exact pruned ▸ NonceLedger.prune_lookup recorded running
  apart := log ▸ remembers.apart

/-- A ticket is issued only if no valid issue had its nonce. -/
private theorem issued (remembers : Remembers capacity world) (later : world.clock ≤ next.clock)
    {issue : Issue} (log : issues next.log = issues world.log ++ [issue])
    (now : issue.at_ = next.clock)
    (absent : (issue.chuteId, issue.ticket.nonce) ∉ world.ledger.prune next.clock)
    (room : (world.ledger.prune next.clock).size < capacity)
    (ledger : next.ledger = (world.ledger.prune next.clock).insert
      (issue.chuteId, issue.ticket.nonce) issue.validUntil) : Remembers capacity next where
  bounded := by
    rw [ledger, Finmap.size_insert_of_notMem _ absent]
    exact room
  remembered := by
    intro other mem running
    rw [ledger]
    rcases List.mem_append.mp (log ▸ mem) with before | last
    · have recorded := NonceLedger.prune_lookup
        (remembers.remembered other before (later.trans_lt running)) running
      rw [Finmap.lookup_insert_of_ne, recorded]
      intro same
      rw [← same] at absent
      exact absent (Finmap.mem_of_lookup_eq_some recorded)
    · rw [List.mem_singleton.mp last]
      exact Finmap.lookup_insert _
  apart := by
    rw [log]
    refine List.pairwise_append.mpr ⟨remembers.apart, List.pairwise_singleton _ _, ?_⟩
    intro first before second last chute nonce
    rw [List.mem_singleton.mp last] at chute nonce ⊢
    rw [now]
    by_contra early
    have running : next.clock < first.validUntil := not_le.mp early
    have recorded := NonceLedger.prune_lookup
      (remembers.remembered first before (later.trans_lt running)) running
    rw [chute, nonce] at recorded
    exact absent (Finmap.mem_of_lookup_eq_some recorded)

/-- Every step keeps the ledger. -/
theorem preserved (remembers : Remembers capacity world) {event : Admissions.Event}
    (stepped : (admissionsMachine epoch capacity).step world event = some next) :
    Remembers capacity next := by
  cases event with
  | create scope =>
      cases stepped
      exact remembers.unissued le_rfl rfl (.inl rfl)
  | evict gone =>
      change Admissions.step epoch capacity world (.evict gone) = some next at stepped
      simp only [Admissions.step] at stepped
      split at stepped
      · split at stepped
        · cases stepped
          exact remembers.unissued le_rfl rfl (.inl rfl)
        · cases stepped
      · cases stepped
  | act name now act =>
      obtain ⟨cell, done, found, later, does, rfl⟩ := Admissions.step_act stepped
      rcases does.ledger with ⟨none, ledger⟩ | ⟨issue, one, at_, absent, room, ledger⟩
      · exact remembers.unissued later (by simp [none]) ledger
      · exact remembers.issued later (by simp [one]) at_ absent room ledger

theorem reachable (reached : (admissionsMachine epoch capacity).Reachable world) :
    Remembers capacity world :=
  reached.invariant
    ⟨Nat.zero_le _, fun _ mem => absurd mem List.not_mem_nil, List.Pairwise.nil⟩
    fun _ _ _ remembers stepped => remembers.preserved stepped

end Remembers

/-- The last refill is in the log. -/
theorem refilled_mem_of_lastRefill {log : List Entry} {name : Cell} {discovery : Discovery}
    {asked received : Instant}
    (last : lastRefill log name = some (discovery, asked, received)) :
    Entry.refilled name discovery asked received ∈ log := by
  obtain ⟨entry, mem, refill⟩ := List.mem_filterMap.mp (List.mem_of_getLast? last)
  cases entry with
  | refilled cell listed began got =>
      by_cases same : cell = name
      · rw [Entry.refill, if_pos same] at refill
        cases refill
        exact same ▸ mem
      · rw [Entry.refill, if_neg same] at refill
        cases refill
  | started | recorded | issued => cases refill

/-- What the ledger records with an issue is the validity of the nonce at Chutes,
counted from when its discovery was received, and a margin. -/
theorem issued_validUntil {epoch : Duration} {capacity : Nat} {world : Admissions}
    (reached : (admissionsMachine epoch capacity).Reachable world) {name : Cell} {issue : Issue}
    (mem : Entry.issued name issue ∈ world.log) :
    ∃ discovery asked received, Entry.refilled name discovery asked received ∈ world.log ∧
      issue.validUntil = received + discovery.nonceLifetime + nonceMargin ∧
      ∃ inst ∈ discovery.instances, inst.key = issue.ticket.key ∧
        issue.ticket.nonce ∈ inst.nonces := by
  revert name issue
  refine reached.invariant_along (P := fun world => ∀ {name : Cell} {issue : Issue},
    Entry.issued name issue ∈ world.log → ∃ discovery asked received,
      Entry.refilled name discovery asked received ∈ world.log ∧
      issue.validUntil = received + discovery.nonceLifetime + nonceMargin ∧
      ∃ inst ∈ discovery.instances, inst.key = issue.ticket.key ∧
        issue.ticket.nonce ∈ inst.nonces) (fun mem => absurd mem List.not_mem_nil) ?_
  intro world event next reached backed stepped name issue mem
  rcases Admissions.step_log stepped with same | ⟨entry, logged⟩
  · rw [same] at mem ⊢
    exact backed mem
  · rw [logged] at mem ⊢
    rcases List.mem_append.mp mem with before | last
    · obtain ⟨discovery, asked, received, refilled, rest⟩ := backed before
      exact ⟨discovery, asked, received, List.mem_append_left _ refilled, rest⟩
    · rw [← List.mem_singleton.mp last] at logged
      obtain ⟨cell, after, holder, avoid, keepWarm, found, -, -, -, -, -, -, valid, -, -, -,
        issues⟩ := step_issued stepped logged
      cases (CellSound.reachable reached found).pool with
      | never _ _ noValid => cases noValid.symm.trans valid
      | refilled discovery asked received last _ validUntil _ listed _ =>
          obtain ⟨inst, pooled, key, advertised⟩ := issues.advertised
          obtain ⟨other, also, sameKey, nonces⟩ := listed inst pooled
          exact ⟨discovery, asked, received,
            List.mem_append_left _ (refilled_mem_of_lastRefill last),
            Option.some.inj (valid.symm.trans validUntil), other, also, sameKey.symm.trans key,
            nonces advertised⟩

/-- Over every interleaving of tickets, retries, renewals and evictions, of any
cells: of two tickets with the same nonce of the same chute the later is issued
no earlier than the `validUntil` recorded with the earlier, which is a margin
past the validity of the nonce counted from when its discovery was received; and
the ledger is never over its capacity. -/
theorem nonces_are_not_reused {epoch : Duration} {capacity : Nat} {world : Admissions}
    (reached : (admissionsMachine epoch capacity).Reachable world) :
    (issues world.log).Pairwise Apart ∧ world.ledger.size ≤ capacity ∧
    ∀ name issue, Entry.issued name issue ∈ world.log →
      ∃ discovery asked received, Entry.refilled name discovery asked received ∈ world.log ∧
        issue.validUntil = received + discovery.nonceLifetime + nonceMargin ∧
        ∃ inst ∈ discovery.instances, inst.key = issue.ticket.key ∧
          issue.ticket.nonce ∈ inst.nonces := by
  have remembers := Remembers.reachable reached
  exact ⟨remembers.apart, remembers.bounded, fun name issue mem => issued_validUntil reached mem⟩

/-- One nonce advertised three times: issued at once, discarded by another
credential's request while it is still valid, and issued to that credential at 90
seconds. -/
def readvertisedSchedule : List Admissions.Event :=
  firstTicketSchedule ++ [.act 0 0 .take, .create ([8], "kimi-k3")] ++
    ([.lock, .prune, .take, .askDiscovery, .answerDiscovery smallDiscovery, .prune, .take,
      .askEvidence 0, .answerEvidence [.expires 1000], .prune, .take] : List Act).map
        (.act 12 (Duration.fromSecs 30)) ++
    ([.lock, .prune, .take, .askDiscovery, .answerDiscovery smallDiscovery, .prune,
      .take] : List Act).map (.act 12 (Duration.fromSecs 90))

/-- A nonce offered again is issued again, once the first issue is past. -/
theorem nonces_are_not_reused_when_readvertised : ∃ final first second,
    (admissionsMachine 0 10).run readvertisedSchedule = some final ∧
      issues final.log = [first, second] ∧ first.chuteId = second.chuteId ∧
      first.ticket.nonce = second.ticket.nonce ∧ first.validUntil ≤ second.at_ ∧
      final.ledger.size ≤ 10 := by
  let second : Issue :=
    { firstIssue with
      checked := Duration.fromSecs 90, at_ := Duration.fromSecs 90
      validUntil := Duration.fromSecs 155 }
  have ran : ((admissionsMachine 0 10).run readvertisedSchedule).map (fun final =>
      decide (issues final.log = [firstIssue, second])) = some true := by
    decide +kernel
  obtain ⟨final, run, logged⟩ := Option.map_eq_some_iff.mp ran
  have issued := of_decide_eq_true logged
  obtain ⟨apart, bounded, -⟩ := nonces_are_not_reused ⟨_, run⟩
  rw [issued] at apart
  refine ⟨final, firstIssue, second, run, issued, rfl, rfl, ?_, bounded⟩
  exact List.rel_of_pairwise_cons apart (List.mem_singleton_self _) rfl rfl

end GmMiner.Chutes
