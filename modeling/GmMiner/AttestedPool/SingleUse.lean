import GmMiner.AttestedPool.Histories
import GmMiner.AttestedPool.Ownership

/-!
Every request is sent once, on a connection attested for its verifier.

`Logged` is what the log says at every owner of a connection and of every request.
An event keeps it because what it logs is about the acting request or lease alone,
and about a connection that owner holds (`Does.entries_own`, `Lease.entries_own`);
no one else holds that connection (`Ownership`).
-/

namespace GmMiner.AttestedPool

open GmMiner.Lib

/-! ### What others log -/

section Frame

variable {provider : Provider} {request : Nat} {log entries : List Entry} {clock now : Instant}

/-- Entries about other requests and other connections leave a request as it is. -/
theorem Phase.Sound.frame {phase : Phase} (sound : phase.Sound provider request log clock)
    (later : clock ≤ now) (others : ∀ entry ∈ entries, entry.request ≠ some request)
    (apart : ∀ connection, phase.connection = some connection →
      ∀ entry ∈ entries, entry.connection ≠ some connection.id) :
    phase.Sound provider request (log ++ entries) now := by
  have tried : tries request (log ++ entries) = tries request log := by
    rw [tries_append, tries_eq_nil others, List.append_nil]
  have past : ∀ connection, phase.connection = some connection →
      history connection.id (log ++ entries) = history connection.id log := by
    intro connection owns
    rw [history_append, history_eq_nil (apart connection owns), List.append_nil]
  have since : ∀ connection, AttestedSince request connection log →
      AttestedSince request connection (log ++ entries) := by
    intro connection since id at_ mem
    rcases List.mem_append.mp mem with before | new
    · exact since id at_ before
    · exact absurd rfl (others _ new)
  cases phase with
  | taking => exact tried.trans sound
  | waiting connection =>
      obtain ⟨none, proven⟩ := sound
      exact ⟨tried.trans none, (past connection rfl).symm ▸ proven.later later⟩
  | connecting attempt retry =>
      have sound : Tried retry (tries request log) := sound
      exact show Tried retry (tries request (log ++ entries)) from tried.symm ▸ sound
  | attesting attempt retry connection =>
      obtain ⟨made, began, none, before, attested⟩ := sound
      exact ⟨tried.symm ▸ made, (past connection rfl).trans began, none, before.trans later,
        since connection attested⟩
  | readying retry connection =>
      obtain ⟨made, near, unused, none, before, attested⟩ := sound
      exact ⟨tried.symm ▸ made, near, (past connection rfl).trans unused, none,
        before.trans later, since connection attested⟩
  | sending retry connection =>
      obtain ⟨⟨made, before, sent⟩, proven, earlier, on, at_, wall, named, begins⟩ := sound
      exact ⟨⟨made, before, tried.trans sent⟩, (past connection rfl).symm ▸ proven.later later,
        earlier, on, at_, wall, named, (past connection rfl).trans begins⟩

/-- What a poll logs is about the lease's connection. -/
theorem Lease.entries_own {before after : Lease} {polled : Polled} :
    ∀ entry ∈ before.entries polled after, entry.request = none ∧
      ∃ connection, before.connection = some connection ∧ entry.connection = some connection.id := by
  intro entry mem
  unfold Lease.entries at mem
  split at mem
  · rename_i connection owns
    rcases List.mem_append.mp mem with read | returned
    · split at read
      · cases List.mem_singleton.mp read
        exact ⟨rfl, connection, owns, rfl⟩
      · cases read
    · split at returned
      · cases List.mem_singleton.mp returned
        exact ⟨rfl, connection, owns, rfl⟩
      · cases returned
  · cases mem

end Frame

namespace Connections

/-- What the log says wherever the connections and requests stand. -/
structure Logged (config : Config) (state : Connections) : Prop where
  connections : ∀ entry ∈ state.log, ∀ id, entry.connection = some id → id < state.nextId
  requests : ∀ entry ∈ state.log, ∀ id, entry.request = some id → id < state.nextId
  idle : ∀ target, ∀ connection ∈ state.pool target,
    Idle config.provider state.clock connection (history connection.id state.log)
  forwards : ∀ request forward, state.forwards.lookup request = some forward →
    forward.phase.Sound config.provider request state.log state.clock
  leases : ∀ id target lease connection, state.leases.lookup id = some (target, lease) →
    lease.connection = some connection →
      Leased config.provider state.clock connection lease.body (history connection.id state.log)
  once : ∀ request, Once (tries request state.log)
  /-- A request handed back is on its way to a fresh connection, or ended on it. -/
  excused : ∀ request first, tries request state.log = [.sent first, .handedBack] →
    (∃ forward, state.forwards.lookup request = some forward ∧ forward.phase.retries = true) ∨
      ∃ cause, cause ≠ .failed ∧ Entry.ended request (.gaveUp cause) ∈ state.log
  unsent : ∀ request id at_, Entry.unsent request id at_ ∈ state.log →
    config.provider = .near ∧ at_ ≤ state.clock
  allowed : Justified (Allowed config) state.log

variable {config : Config} {state next : Connections}

/-- At the start nothing was tried. -/
theorem Logged.init : ((connectionsMachine config).init).Logged config where
  connections := nofun
  requests := nofun
  idle := nofun
  forwards := nofun
  leases := nofun
  once _ := .none
  excused := nofun
  unsent := nofun
  allowed := Justified.nil

/-- A new forward was never tried. -/
private theorem Logged.call (owned : state.Owned config) (logged : state.Logged config)
    (target : String) (purpose : Purpose) :
    Logged config { state with
      forwards := state.forwards.insert state.nextId ⟨target, purpose, .taking⟩
      nextId := state.nextId + 1 } where
  connections entry mem id about := (logged.connections entry mem id about).trans (Nat.lt_succ_self _)
  requests entry mem id about := (logged.requests entry mem id about).trans (Nat.lt_succ_self _)
  idle := logged.idle
  forwards := by
    intro request forward found
    dsimp only at found
    rw [Finmap.lookup_insert_eq] at found
    split at found
    · rename_i same
      cases found
      subst same
      refine tries_eq_nil fun entry mem about => ?_
      exact Nat.lt_irrefl _ (logged.requests entry mem _ about)
    · exact logged.forwards request forward found
  leases := logged.leases
  once := logged.once
  excused := by
    intro request first handedBack
    rcases logged.excused request first handedBack with ⟨forward, found, retries⟩ | ended
    · have apart : request ≠ state.nextId := by
        rintro rfl
        cases (owned.forward _ le_rfl).symm.trans found
      exact .inl ⟨forward, (Finmap.lookup_insert_of_ne _ apart).trans found, retries⟩
    · exact .inr ended
  unsent := logged.unsent
  allowed := logged.allowed

/-! ### An act -/

section Act

variable {request : Nat} {forward : Forward} {now : Instant} {wall : DateTime} {act : Act}
  {done : Done}

/-- Only a request of the NEAR verifier is handed back, and at the time it says. -/
private theorem unsent_of_does {around : Around} {idle : List Attested}
    (does : Forward.Does config around idle forward act done) {other id : Nat} {at_ : Instant}
    (mem : Entry.unsent other id at_ ∈ done.entries) :
    config.provider = .near ∧ at_ = around.reading.now := by
  cases does with
  | handBack _ near | handBackAgain _ near =>
      simp only [Forward.goOn, Forward.giveUp, List.mem_append, List.mem_singleton, reduceCtorEq,
        or_false, Entry.unsent.injEq] at mem
      exact ⟨near, mem.2.2⟩
  | respond =>
      rcases List.mem_append.mp mem with opened | returned
      · simp at opened
      · split at returned
        · cases List.mem_singleton.mp returned
        · cases returned
  | _ => simp [Forward.goOn, Forward.giveUp, Forward.send] at mem

variable (owned : state.Owned config) (logged : state.Logged config)
  (found : state.forwards.lookup request = some forward) (later : state.clock ≤ now)
  (does : Forward.Does config ⟨request, state.nextId, ⟨now, wall, state.closed⟩⟩
    (state.pool forward.target) forward act done)

include owned logged found later does

omit owned in
private theorem done_sound : done.Sound config ⟨request, state.nextId, ⟨now, wall, state.closed⟩⟩
    (state.pool forward.target) (state.log ++ done.entries) := by
  refine does.sound later (logged.forwards request forward found) (logged.idle forward.target) ?_
    (fun request id at_ mem => (logged.unsent request id at_ mem).2) logged.allowed
  exact history_eq_nil fun entry mem about =>
    Nat.lt_irrefl _ (logged.connections entry mem _ about)

omit owned logged found later in
/-- What an act logs is about no connection that another owner holds. -/
private theorem entries_apart {id : Nat} (given : id < state.nextId)
    (apart : ∀ connection, forward.phase.connection = some connection → id ≠ connection.id) :
    ∀ entry ∈ done.entries, entry.connection ≠ some id := by
  intro entry mem about
  rcases (does.entries_own entry mem).2 id about with rfl | ⟨connection, owns, named⟩
  · exact Nat.lt_irrefl _ given
  · exact apart connection owns named.symm

omit owned logged found later in
private theorem tries_apart {other : Nat} (different : other ≠ request) :
    ∀ entry ∈ done.entries, entry.request ≠ some other :=
  fun entry mem about => different ((does.entries_own entry mem).1 other about)

omit owned logged found later does in
private theorem acted_self : (state.acted request now forward done).forwards.lookup request =
    done.phase.map fun phase => { forward with phase := phase } := by
  unfold acted
  cases done.phase with
  | some phase => exact Finmap.lookup_insert state.forwards
  | none => exact Finmap.lookup_erase request state.forwards

omit logged found later does in
private theorem acted_fresh : (state.acted request now forward done).leases.lookup state.nextId =
    done.lease.map fun lease => (forward.target, lease) := by
  unfold acted
  cases done.lease with
  | some lease => exact Finmap.lookup_insert state.leases
  | none => exact owned.lease _ le_rfl

/-- After the act the idle connections are idle in the longer log. -/
private theorem act_idle (target : String) (connection : Attested)
    (mem : connection ∈ (state.acted request now forward done).pool target) :
    Idle config.provider now connection (history connection.id (state.log ++ done.entries)) := by
  have stays : ∀ target, connection ∈ state.pool target → Idle config.provider now connection
      (history connection.id (state.log ++ done.entries)) := by
    intro target mem
    have given := owned.lt_of_pooled (pool_pos mem)
    have apart := entries_apart does given
      fun own owns => (owned.forward_apart found owns).1 target connection mem
    rw [history_append, history_eq_nil apart, List.append_nil]
    exact (logged.idle target connection mem).later later
  rw [acted_pool] at mem
  split at mem
  · rcases (done_sound logged found later does).idle connection mem with old | new
    · exact stays forward.target old
    · exact new
  · exact stays target mem

/-- After the act the forwards are sound in the longer log. -/
private theorem act_forwards (other : Nat) (forward' : Forward)
    (found' : (state.acted request now forward done).forwards.lookup other = some forward') :
    forward'.phase.Sound config.provider other (state.log ++ done.entries) now := by
  by_cases same : other = request
  · subst same
    rw [acted_self] at found'
    obtain ⟨phase, at_, rfl⟩ := Option.map_eq_some_iff.mp found'
    exact (done_sound logged found later does).phase phase at_
  · rw [acted_forward_of_ne same] at found'
    refine (logged.forwards other forward' found').frame later (tries_apart does same) ?_
    intro connection owns
    have given := owned.lt_of_forwarding (forward_pos found' owns)
    exact entries_apart does given fun own owns' =>
      (owned.forward_apart found owns').2.1 other forward' connection same found' owns

/-- After the act the leases are sound in the longer log. -/
private theorem act_leases (id : Nat) (target : String) (lease : Lease) (connection : Attested)
    (found' : (state.acted request now forward done).leases.lookup id = some (target, lease))
    (owns : lease.connection = some connection) :
    Leased config.provider now connection lease.body
      (history connection.id (state.log ++ done.entries)) := by
  by_cases same : id = state.nextId
  · subst same
    rw [acted_fresh owned] at found'
    obtain ⟨opened, at_, named⟩ := Option.map_eq_some_iff.mp found'
    obtain ⟨-, rfl⟩ := Prod.mk.inj named
    exact (done_sound logged found later does).lease opened connection at_ owns
  · rw [acted_lease_of_ne same] at found'
    have given := owned.lt_of_leased (lease_pos found' owns)
    have apart := entries_apart does given fun own owns' =>
      (owned.forward_apart found owns').2.2 id target lease connection found' owns
    rw [history_append, history_eq_nil apart, List.append_nil]
    exact (logged.leases id target lease connection found' owns).later later

omit owned in
/-- After the act every request was sent at most once, unless handed back. -/
private theorem act_once (other : Nat) : Once (tries other (state.log ++ done.entries)) := by
  by_cases same : other = request
  · subst same
    have sound := done_sound logged found later does
    cases at_ : done.phase with
    | some phase => exact (sound.phase phase at_).once
    | none => exact (sound.finished at_).once
  · rw [tries_append, tries_eq_nil (tries_apart does same), List.append_nil]
    exact logged.once other

omit owned in
/-- A request that was handed back is still being retried, or was given up. -/
private theorem act_excused (other first : Nat)
    (handedBack : tries other (state.log ++ done.entries) = [.sent first, .handedBack]) :
    (∃ forward', (state.acted request now forward done).forwards.lookup other = some forward' ∧
        forward'.phase.retries = true) ∨
      ∃ cause, cause ≠ .failed ∧
        Entry.ended other (.gaveUp cause) ∈ state.log ++ done.entries := by
  by_cases same : other = request
  · subst same
    have sound := done_sound logged found later does
    cases at_ : done.phase with
    | some phase =>
        refine .inl ⟨{ forward with phase := phase }, ?_, ?_⟩
        · rw [acted_self, at_]
          rfl
        · by_contra notRetry
          exact sound.pending phase at_ (eq_false_of_ne_true notRetry) first handedBack
    | none => exact .inr ((sound.finished at_).excused first handedBack)
  · rw [tries_append, tries_eq_nil (tries_apart does same), List.append_nil] at handedBack
    rcases logged.excused other first handedBack with ⟨forward', found', retries⟩ |
      ⟨cause, gaveUp, ended⟩
    · exact .inl ⟨forward', (acted_forward_of_ne same).trans found', retries⟩
    · exact .inr ⟨cause, gaveUp, List.mem_append_left _ ended⟩

/-- The state after an act is as the log has it. -/
private theorem Logged.acted : Logged config (Connections.acted state request now forward done) where
  connections := by
    intro entry mem id about
    rcases List.mem_append.mp mem with before | new
    · exact (logged.connections entry before id about).trans (Nat.lt_succ_self _)
    · rcases (does.entries_own entry new).2 id about with rfl | ⟨connection, owns, rfl⟩
      · exact Nat.lt_succ_self _
      · exact (owned.lt_of_forwarding (forward_pos found owns)).trans (Nat.lt_succ_self _)
  requests := by
    intro entry mem id about
    rcases List.mem_append.mp mem with before | new
    · exact (logged.requests entry before id about).trans (Nat.lt_succ_self _)
    · rw [(does.entries_own entry new).1 id about]
      exact (request_lt owned found).trans (Nat.lt_succ_self _)
  idle := act_idle owned logged found later does
  forwards := act_forwards owned logged found later does
  leases := act_leases owned logged found later does
  once := act_once logged found later does
  excused := act_excused logged found later does
  unsent := by
    intro other id at_ mem
    rcases List.mem_append.mp mem with before | new
    · obtain ⟨near, le⟩ := logged.unsent other id at_ before
      exact ⟨near, le.trans later⟩
    · obtain ⟨near, rfl⟩ := unsent_of_does does new
      exact ⟨near, le_rfl⟩
  allowed := (done_sound logged found later does).allowed

end Act

/-! ### A poll -/

/-- The state after a poll of a body is as the log has it. -/
private theorem Logged.poll (owned : state.Owned config) (logged : state.Logged config)
    {id : Nat} {now : Instant} {wall : DateTime}
    (stepped : step config state (.poll id now wall) = some next) : next.Logged config := by
  obtain ⟨target, lease, found, later, polled, same, rfl⟩ := of_step_poll stepped
  have sound := Lease.poll_sound config (state.pool target) ⟨now, wall, state.closed⟩ later
    (fun connection owns => logged.leases id target lease connection found owns) logged.allowed
  rw [same] at sound
  have unasked : ∀ request, ∀ entry ∈ lease.entries polled.1 polled.2.1,
      entry.request ≠ some request := by
    intro request entry mem about
    cases (Lease.entries_own entry mem).1.symm.trans about
  have apart : ∀ other, (∀ connection, lease.connection = some connection → other ≠ connection.id) →
      ∀ entry ∈ lease.entries polled.1 polled.2.1, entry.connection ≠ some other := by
    intro other different entry mem about
    obtain ⟨connection, owns, named⟩ := (Lease.entries_own entry mem).2
    exact different connection owns (Option.some.inj (about.symm.trans named))
  have stays : ∀ of connection, connection ∈ state.pool of → Idle config.provider now connection
      (history connection.id (state.log ++ lease.entries polled.1 polled.2.1)) := by
    intro of connection mem
    have none := history_eq_nil (apart connection.id fun own owns =>
      (owned.lease_apart found owns).1 of connection mem)
    rw [history_append, none, List.append_nil]
    exact (logged.idle of connection mem).later later
  have tried : ∀ request, tries request (state.log ++ lease.entries polled.1 polled.2.1) =
      tries request state.log := by
    intro request
    rw [tries_append, tries_eq_nil (unasked request), List.append_nil]
  constructor
  · intro entry mem other about
    rcases List.mem_append.mp mem with before | new
    · exact logged.connections entry before other about
    · obtain ⟨-, connection, owns, named⟩ := Lease.entries_own entry new
      cases about.symm.trans named
      exact owned.lt_of_leased (lease_pos found owns)
  · intro entry mem request about
    rcases List.mem_append.mp mem with before | new
    · exact logged.requests entry before request about
    · exact absurd about (unasked request entry new)
  · intro of connection mem
    unfold pool at mem
    dsimp only at mem
    rw [pool_insert] at mem
    split at mem
    · rcases sound.idle connection mem with old | new
      · exact stays target connection old
      · exact new
    · exact stays of connection mem
  · intro request forward found'
    refine (logged.forwards request forward found').frame later (unasked request) ?_
    intro connection owns
    exact apart connection.id fun own owns' =>
      (owned.lease_apart found owns').2.1 request forward connection found' owns
  · intro other of lease' connection found' owns
    dsimp only at found'
    rw [Finmap.lookup_insert_eq] at found'
    split at found'
    · cases found'
      exact sound.lease connection owns
    · rename_i different
      have none := history_eq_nil (apart connection.id fun own owns' =>
        (owned.lease_apart found owns').2.2 other of lease' connection different found' owns)
      dsimp only
      rw [history_append, none, List.append_nil]
      exact (logged.leases other of lease' connection found' owns).later later
  · intro request
    exact (tried request).symm ▸ logged.once request
  · intro request first handedBack
    rcases logged.excused request first ((tried request).symm.trans handedBack) with live |
      ⟨cause, gaveUp, ended⟩
    · exact .inl live
    · exact .inr ⟨cause, gaveUp, List.mem_append_left _ ended⟩
  · intro request other at_ mem
    rcases List.mem_append.mp mem with before | new
    · obtain ⟨near, le⟩ := logged.unsent request other at_ before
      exact ⟨near, le.trans later⟩
    · exact absurd rfl (unasked request _ new)
  · exact sound.allowed

/-! ### A run -/

/-- A step leaves the state as the log has it. -/
theorem Logged.preserved {event : Event} (owned : state.Owned config)
    (logged : state.Logged config) (stepped : step config state event = some next) :
    next.Logged config := by
  cases event with
  | call target purpose =>
      simp only [step] at stepped
      split at stepped
      · cases stepped
      · cases stepped
        exact logged.call owned target purpose
  | act request now wall act =>
      obtain ⟨forward, done, found, later, does, rfl⟩ := of_step_act stepped
      exact Logged.acted owned logged found later does
  | poll id now wall => exact Logged.poll owned logged stepped
  | dropLease id =>
      simp only [step] at stepped
      split at stepped
      · cases stepped
      · cases stepped
        refine { logged with leases := fun other target lease connection found owns => ?_ }
        by_cases same : other = id
        · subst same
          rw [Finmap.lookup_erase] at found
          cases found
        · exact logged.leases other target lease connection
            ((Finmap.lookup_erase_ne same).symm.trans found) owns
  | close connection =>
      cases stepped
      exact { logged with }

theorem Logged.reachable (reached : (connectionsMachine config).Reachable state) :
    state.Logged config :=
  reached.invariant_along Logged.init fun _ _ _ known logged stepped =>
    logged.preserved (Owned.reachable known) stepped

end Connections

variable {config : Config} {state : Connections}

/-- No connection is in two places, no pool is above its limit, every send and every
return is allowed, and every request is sent once: one that is handed back is sent
again on a fresh connection, unless it gives up before that. -/
theorem requests_are_sent_once (reached : (connectionsMachine config).Reachable state) :
    (∀ id, state.holders id ≤ 1) ∧
      (∀ target, (state.pool target).length ≤ config.limits.idle) ∧
      Justified (Allowed config) state.log ∧
      (∀ target, ∀ connection ∈ state.pool target, ∃ earlier,
        history connection.id state.log = earlier ++ [.returned connection.id]) ∧
      ∀ request, Once (tries request state.log) ∧
        (Try.handedBack ∈ tries request state.log → config.provider = .near) ∧
        ∀ first, tries request state.log = [.sent first, .handedBack] →
          (∃ forward, state.forwards.lookup request = some forward ∧
            forward.phase.retries = true) ∨
          ∃ cause, cause ≠ .failed ∧ Entry.ended request (.gaveUp cause) ∈ state.log := by
  have owned := Connections.Owned.reachable reached
  have logged := Connections.Logged.reachable reached
  refine ⟨owned.once, owned.within, logged.allowed, ?_, fun request =>
    ⟨logged.once request, ?_, logged.excused request⟩⟩
  · intro target connection mem
    exact (logged.idle target connection mem).returned
  · intro handedBack
    obtain ⟨id, at_, mem⟩ := unsent_of_handedBack handedBack
    exact (logged.unsent request id at_ mem).1

/-- A request whose response is read to its end. -/
theorem requests_are_sent_once_on_response : ∃ state,
    (connectionsMachine ⟨.near, .default⟩).run
        [.call "" .inference, .act 0 0 0 .take, .act 0 0 0 .connect, .act 0 0 0 (.attest 0),
          .act 0 0 0 (.ready true), .act 0 0 0 (.respond ⟨1, false, true⟩), .poll 5 0 0] =
      some state ∧
    (state.pool "").length = 1 ∧ state.holders 2 ≤ 1 ∧ Once (tries 0 state.log) := by
  have ran : ((connectionsMachine ⟨.near, .default⟩).run
      [.call "" .inference, .act 0 0 0 .take, .act 0 0 0 .connect, .act 0 0 0 (.attest 0),
        .act 0 0 0 (.ready true), .act 0 0 0 (.respond ⟨1, false, true⟩), .poll 5 0 0]).any
      fun state => decide ((state.pool "").length = 1) := by decide
  obtain ⟨state, run, pool⟩ := (Option.any_eq_true _ _).mp ran
  obtain ⟨once, -, -, -, requests⟩ := requests_are_sent_once ⟨_, run⟩
  exact ⟨state, run, of_decide_eq_true pool, once 2, (requests 0).1⟩

/-- A request that was handed back may end without a second send though nobody
cancelled it: three attestations fail. -/
theorem request_handed_back_may_end_unsent : ¬ ∀ (config : Config) (state : Connections)
    (request : Nat), (connectionsMachine config).Reachable state →
      state.forwards.lookup request = none →
      Entry.ended request (.gaveUp .cancelled) ∉ state.log →
      Try.handedBack ∈ tries request state.log →
      ∃ first second rest,
        tries request state.log = .sent first :: .handedBack :: .sent second :: rest := by
  intro exactlyOne
  have ran : ((connectionsMachine ⟨.near, .default⟩).run
      [.call "" .inference, .act 0 0 0 .take, .act 0 0 0 .connect, .act 0 0 0 (.attest 0),
        .act 0 0 0 (.ready true), .act 0 0 0 .handBack, .act 0 0 0 .connectFails,
        .act 0 0 0 .connectFails, .act 0 0 0 .connectFails]).any fun state =>
      decide (state.forwards.lookup 0 = none ∧
        Entry.ended 0 (.gaveUp .cancelled) ∉ state.log ∧
        tries 0 state.log = [.sent 2, .handedBack]) := by decide
  obtain ⟨state, run, ended⟩ := (Option.any_eq_true _ _).mp ran
  obtain ⟨gone, notCancelled, tried⟩ := of_decide_eq_true ended
  obtain ⟨first, second, rest, tried'⟩ := exactlyOne _ state 0 ⟨_, run⟩ gone notCancelled
    (by rw [tried]; decide)
  rw [tried] at tried'
  cases tried'

end GmMiner.AttestedPool
