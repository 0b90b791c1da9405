import GmMiner.AttestedPool.Forwards

/-!
Who owns a connection.

A connection is in a pool, with a request or with a lease. `holders` adds up how
often it is in any of them; no event adds to that, but for the connection a request
has just opened (`holders_step`). So no connection is ever in two places
(`Owned.reachable`), and what one owner does to its connection leaves every other
owner's alone (`Owned.pool_apart`, `Owned.forward_apart`, `Owned.lease_apart`).
-/

namespace GmMiner.AttestedPool

open GmMiner.Lib

namespace Connections

def pooled (state : Connections) (id : Nat) : Nat :=
  state.pools.total fun _ idle => countIn id idle

def forwarding (state : Connections) (id : Nat) : Nat :=
  state.forwards.total fun _ forward => countIn id forward.phase.connection.toList

def leased (state : Connections) (id : Nat) : Nat :=
  state.leases.total fun _ leased => countIn id leased.2.connection.toList

/-- How often the connection is in a pool, with a request or with a lease. -/
def holders (state : Connections) (id : Nat) : Nat :=
  state.pooled id + state.forwarding id + state.leased id

/-- No connection is in two places, and the pools are within their limit. -/
structure Owned (config : Config) (state : Connections) : Prop where
  once : ∀ id, state.holders id ≤ 1
  /-- Numbers not given out yet name nothing. -/
  fresh : ∀ id, state.nextId ≤ id → state.holders id = 0
  forward : ∀ id, state.nextId ≤ id → state.forwards.lookup id = none
  lease : ∀ id, state.nextId ≤ id → state.leases.lookup id = none
  within : ∀ target, (state.pool target).length ≤ config.limits.idle

/-! ### What an event adds -/

section Places

variable {state : Connections}

/-- A connection in a pool is held there. -/
theorem pool_pos {target : String} {connection : Attested}
    (mem : connection ∈ state.pool target) : 0 < state.pooled connection.id := by
  unfold pool at mem
  cases found : state.pools.lookup target with
  | none =>
      rw [found] at mem
      cases mem
  | some idle =>
      rw [found] at mem
      exact (countIn_pos mem rfl).trans_le
        (Finmap.le_total (fun _ idle => countIn connection.id idle) found)

theorem forward_pos {request : Nat} {forward : Forward} {connection : Attested}
    (found : state.forwards.lookup request = some forward)
    (owns : forward.phase.connection = some connection) : 0 < state.forwarding connection.id := by
  have one : 0 < countIn connection.id forward.phase.connection.toList := by
    rw [owns]
    exact countIn_pos (List.mem_singleton_self _) rfl
  exact one.trans_le (Finmap.le_total
    (fun _ (forward : Forward) => countIn connection.id forward.phase.connection.toList) found)

theorem lease_pos {id : Nat} {target : String} {lease : Lease} {connection : Attested}
    (found : state.leases.lookup id = some (target, lease))
    (owns : lease.connection = some connection) : 0 < state.leased connection.id := by
  have one : 0 < countIn connection.id lease.connection.toList := by
    rw [owns]
    exact countIn_pos (List.mem_singleton_self _) rfl
  exact one.trans_le (Finmap.le_total
    (fun _ (leased : String × Lease) => countIn connection.id leased.2.connection.toList) found)

/-- A pool is exchanged. -/
theorem pooled_insert (state : Connections) (target : String) (idle : List Attested) (id : Nat) :
    (state.pools.insert target idle).total (fun _ idle => countIn id idle) +
        countIn id (state.pool target) = state.pooled id + countIn id idle :=
  Finmap.total_insert_getD _ rfl idle

end Places

variable {config : Config} {state next : Connections}

theorem pool_insert (state : Connections) (target other : String) (idle : List Attested) :
    ((state.pools.insert target idle).lookup other).getD [] =
      if other = target then idle else state.pool other := by
  rw [Finmap.lookup_insert_eq]
  split
  · rfl
  · rfl

/-- What an act does to the state. -/
theorem of_step_act {request : Nat} {now : Instant} {wall : DateTime} {act : Act}
    (stepped : step config state (.act request now wall act) = some next) :
    ∃ forward done, state.forwards.lookup request = some forward ∧ state.clock ≤ now ∧
      Forward.Does config ⟨request, state.nextId, ⟨now, wall, state.closed⟩⟩
        (state.pool forward.target) forward act done ∧
      next = state.acted request now forward done := by
  simp only [step] at stepped
  split at stepped
  · rename_i forward found
    split at stepped
    · rename_i later
      obtain ⟨done, acted, same⟩ := Option.map_eq_some_iff.mp stepped
      exact ⟨forward, done, found, later, Forward.does_of_act acted, same.symm⟩
    · cases stepped
  · cases stepped

/-- What a poll does to the state. -/
theorem of_step_poll {id : Nat} {now : Instant} {wall : DateTime}
    (stepped : step config state (.poll id now wall) = some next) :
    ∃ target lease, state.leases.lookup id = some (target, lease) ∧ state.clock ≤ now ∧
      ∃ polled, lease.pollFrame config.limits ⟨now, wall, state.closed⟩ (state.pool target) =
          polled ∧
        next = { state with
          clock := now
          pools := state.pools.insert target polled.2.2
          leases := state.leases.insert id (target, polled.2.1)
          log := state.log ++ lease.entries polled.1 polled.2.1 } := by
  simp only [step] at stepped
  split at stepped
  · rename_i target lease found
    split at stepped
    · rename_i later
      exact ⟨target, lease, found, later, _, rfl, (Option.some.inj stepped).symm⟩
    · cases stepped
  · cases stepped

/-- An act adds no holder, but for the one of a connection it opens. -/
private theorem holders_act {request : Nat} {now : Instant} {wall : DateTime} {act : Act}
    (owned : state.Owned config)
    (stepped : step config state (.act request now wall act) = some next) (id : Nat) :
    next.holders id ≤ state.holders id + if state.nextId = id then 1 else 0 := by
  obtain ⟨forward, done, found, -, does, rfl⟩ := of_step_act stepped
  have counted := does.countIn_le id
  have pools : (state.acted request now forward done).pooled id +
      countIn id (state.pool forward.target) = state.pooled id + countIn id done.idle :=
    pooled_insert state forward.target done.idle id
  have forwards : (state.acted request now forward done).forwarding id +
      countIn id forward.phase.connection.toList =
        state.forwarding id + countIn id (done.phase.bind Phase.connection).toList := by
    unfold forwarding acted
    cases done.phase with
    | some phase =>
        exact Finmap.total_insert
          (fun _ (forward : Forward) => countIn id forward.phase.connection.toList) found
          { forward with phase := phase }
    | none =>
        exact Finmap.total_erase
          (fun _ (forward : Forward) => countIn id forward.phase.connection.toList) found
  have leases : (state.acted request now forward done).leased id =
      state.leased id + countIn id (done.lease.bind Lease.connection).toList := by
    unfold leased acted
    cases done.lease with
    | some lease =>
        exact Finmap.total_insert_of_notMem
          (fun _ (leased : String × Lease) => countIn id leased.2.connection.toList)
          (forward.target, lease) (Finmap.lookup_eq_none.mp (owned.lease _ le_rfl))
    | none => rfl
  unfold holders
  dsimp only at counted
  omega

/-- A poll adds no holder. -/
private theorem holders_poll {lease : Nat} {now : Instant} {wall : DateTime}
    (stepped : step config state (.poll lease now wall) = some next) (id : Nat) :
    next.holders id ≤ state.holders id := by
  obtain ⟨target, lease, found, -, polled, same, rfl⟩ := of_step_poll stepped
  have counted := Lease.countIn_pollFrame_le config.limits ⟨now, wall, state.closed⟩
    (state.pool target) id lease
  rw [same] at counted
  have pools := pooled_insert state target polled.2.2 id
  have leases := Finmap.total_insert
    (fun _ (leased : String × Lease) => countIn id leased.2.connection.toList) found
    (target, polled.2.1)
  unfold holders pooled forwarding leased at *
  dsimp only at *
  omega

/-- Numbers are never given out again. -/
theorem nextId_le_of_step {event : Event} (stepped : step config state event = some next) :
    state.nextId ≤ next.nextId := by
  cases event with
  | call target purpose =>
      simp only [step] at stepped
      split at stepped
      · cases stepped
      · cases stepped
        exact Nat.le_succ _
  | act request now wall act =>
      obtain ⟨forward, done, -, -, -, rfl⟩ := of_step_act stepped
      exact Nat.le_succ _
  | poll lease now wall =>
      obtain ⟨target, lease, -, -, polled, -, rfl⟩ := of_step_poll stepped
      exact le_rfl
  | dropLease lease =>
      simp only [step] at stepped
      split at stepped
      · cases stepped
      · cases stepped
        exact le_rfl
  | close connection =>
      cases stepped
      exact le_rfl

/-- No event makes one more of a connection, but for one it gave a number. -/
theorem holders_step {event : Event} (owned : state.Owned config)
    (stepped : step config state event = some next) (id : Nat) :
    next.holders id ≤
      state.holders id + if state.nextId ≤ id ∧ id < next.nextId then 1 else 0 := by
  cases event with
  | call target purpose =>
      simp only [step] at stepped
      split at stepped
      · cases stepped
      · cases stepped
        have forwards := Finmap.total_insert_of_notMem
          (fun _ (forward : Forward) => countIn id forward.phase.connection.toList)
          (⟨target, purpose, .taking⟩ : Forward)
          (Finmap.lookup_eq_none.mp (owned.forward _ le_rfl))
        refine le_trans (le_of_eq ?_) (Nat.le_add_right _ _)
        unfold holders forwarding
        rw [forwards]
        rfl
  | act request now wall act =>
      have added := holders_act owned stepped id
      obtain ⟨forward, done, -, -, -, rfl⟩ := of_step_act stepped
      have new : (state.acted request now forward done).nextId = state.nextId + 1 := rfl
      rw [new]
      split at added
      · rename_i same
        rwa [if_pos ⟨same.le, same ▸ Nat.lt_succ_self _⟩]
      · exact added.trans (Nat.le_add_right _ _)
  | poll lease now wall => exact (holders_poll stepped id).trans (Nat.le_add_right _ _)
  | dropLease lease =>
      simp only [step] at stepped
      split at stepped
      · cases stepped
      · rename_i present
        cases stepped
        obtain ⟨leased, found⟩ := Option.ne_none_iff_exists'.mp present
        have leases := Finmap.total_erase
          (fun _ (leased : String × Lease) => countIn id leased.2.connection.toList) found
        unfold holders pooled forwarding Connections.leased
        dsimp only at *
        omega
  | close connection =>
      cases stepped
      exact Nat.le_add_right _ _

/-! ### The invariant -/

theorem acted_pool {request : Nat} {now : Instant} {forward : Forward} {done : Done}
    (target : String) : (state.acted request now forward done).pool target =
      if target = forward.target then done.idle else state.pool target :=
  pool_insert state forward.target target done.idle

theorem acted_forward_of_ne {request other : Nat} {now : Instant} {forward : Forward} {done : Done}
    (different : other ≠ request) :
    (state.acted request now forward done).forwards.lookup other = state.forwards.lookup other := by
  unfold acted
  cases done.phase with
  | some phase => exact Finmap.lookup_insert_of_ne _ different
  | none => exact Finmap.lookup_erase_ne different

theorem acted_lease_of_ne {request other : Nat} {now : Instant} {forward : Forward} {done : Done}
    (different : other ≠ state.nextId) :
    (state.acted request now forward done).leases.lookup other = state.leases.lookup other := by
  unfold acted
  cases done.lease with
  | some lease => exact Finmap.lookup_insert_of_ne _ different
  | none => rfl

theorem request_lt (owned : state.Owned config) {request : Nat} {forward : Forward}
    (found : state.forwards.lookup request = some forward) : request < state.nextId := by
  by_contra late
  cases (owned.forward request (Nat.le_of_not_lt late)).symm.trans found

theorem lease_lt (owned : state.Owned config) {id : Nat} {leased : String × Lease}
    (found : state.leases.lookup id = some leased) : id < state.nextId := by
  by_contra late
  cases (owned.lease id (Nat.le_of_not_lt late)).symm.trans found

theorem Owned.init : ((connectionsMachine config).init).Owned config where
  once _ := Nat.zero_le 1
  fresh _ _ := rfl
  forward _ _ := rfl
  lease _ _ := rfl
  within _ := Nat.zero_le _

/-- A number not given out yet is of no forward and of no lease. -/
private theorem Owned.maps {event : Event} (owned : state.Owned config)
    (stepped : step config state event = some next) {id : Nat} (unused : next.nextId ≤ id) :
    next.forwards.lookup id = none ∧ next.leases.lookup id = none := by
  have before := (nextId_le_of_step stepped).trans unused
  have forward := owned.forward id before
  have lease := owned.lease id before
  cases event with
  | call target purpose =>
      simp only [step] at stepped
      split at stepped
      · cases stepped
      · cases stepped
        exact ⟨(Finmap.lookup_insert_of_ne _ (Nat.ne_of_gt unused)).trans forward, lease⟩
  | act request now wall act =>
      obtain ⟨forward', done, found, -, -, rfl⟩ := of_step_act stepped
      have apart : id ≠ request := (request_lt owned found).trans_le before |>.ne'
      exact ⟨(acted_forward_of_ne apart).trans forward,
        (acted_lease_of_ne (Nat.ne_of_gt unused)).trans lease⟩
  | poll polled now wall =>
      obtain ⟨target, lease', found, -, left, -, rfl⟩ := of_step_poll stepped
      have apart : id ≠ polled := (lease_lt owned found).trans_le before |>.ne'
      exact ⟨forward, (Finmap.lookup_insert_of_ne _ apart).trans lease⟩
  | dropLease dropped =>
      simp only [step] at stepped
      split at stepped
      · cases stepped
      · rename_i present
        cases stepped
        have apart : id ≠ dropped := by
          rintro rfl
          exact present lease
        exact ⟨forward, (Finmap.lookup_erase_ne apart).trans lease⟩
  | close connection =>
      cases stepped
      exact ⟨forward, lease⟩

/-- No step takes a pool past its limit. -/
private theorem Owned.pools {event : Event} (owned : state.Owned config)
    (stepped : step config state event = some next) (target : String) :
    (next.pool target).length ≤ config.limits.idle := by
  cases event with
  | call called purpose =>
      simp only [step] at stepped
      split at stepped
      · cases stepped
      · cases stepped
        exact owned.within target
  | act request now wall act =>
      obtain ⟨forward, done, -, -, does, rfl⟩ := of_step_act stepped
      rw [acted_pool]
      split
      · exact does.length_le (owned.within forward.target)
      · exact owned.within target
  | poll id now wall =>
      obtain ⟨polledOf, lease, -, -, polled, same, rfl⟩ := of_step_poll stepped
      have within : polled.2.2.length ≤ config.limits.idle :=
        same ▸ Lease.length_pollFrame_le _ lease (owned.within polledOf)
      unfold pool
      dsimp only
      rw [pool_insert]
      split
      · exact within
      · exact owned.within target
  | dropLease lease =>
      simp only [step] at stepped
      split at stepped
      · cases stepped
      · cases stepped
        exact owned.within target
  | close connection =>
      cases stepped
      exact owned.within target

/-- A step keeps the connections owned once. -/
theorem Owned.preserved {event : Event} (owned : state.Owned config)
    (stepped : step config state event = some next) : next.Owned config where
  once id := by
    have added := holders_step owned stepped id
    have before := owned.once id
    split at added
    · rename_i new
      have none := owned.fresh id new.1
      omega
    · omega
  fresh id unused := by
    have added := holders_step owned stepped id
    have none := owned.fresh id ((nextId_le_of_step stepped).trans unused)
    rw [if_neg fun new => absurd new.2 (Nat.not_lt.mpr unused)] at added
    omega
  forward _ unused := (owned.maps stepped unused).1
  lease _ unused := (owned.maps stepped unused).2
  within target := owned.pools stepped target

theorem Owned.reachable (reached : (connectionsMachine config).Reachable state) :
    state.Owned config :=
  reached.invariant Owned.init fun _ _ _ owned stepped => owned.preserved stepped

/-! ### Owners apart -/

section Apart

variable (owned : state.Owned config) {request id : Nat} {forward : Forward} {target : String}
  {lease : Lease} {connection : Attested}

include owned

theorem Owned.lt_of_holders {held : Nat} (holds : 0 < state.holders held) :
    held < state.nextId := by
  by_contra late
  exact Nat.ne_of_gt holds (owned.fresh held (Nat.le_of_not_lt late))

theorem Owned.lt_of_pooled {held : Nat} (holds : 0 < state.pooled held) : held < state.nextId :=
  owned.lt_of_holders (holds.trans_le ((Nat.le_add_right _ _).trans (Nat.le_add_right _ _)))

theorem Owned.lt_of_forwarding {held : Nat} (holds : 0 < state.forwarding held) :
    held < state.nextId :=
  owned.lt_of_holders (holds.trans_le ((Nat.le_add_left _ _).trans (Nat.le_add_right _ _)))

theorem Owned.lt_of_leased {held : Nat} (holds : 0 < state.leased held) : held < state.nextId :=
  owned.lt_of_holders (holds.trans_le (Nat.le_add_left _ _))

/-- What a request owns is in no pool, with no other request and with no lease. -/
theorem Owned.forward_apart (found : state.forwards.lookup request = some forward)
    (owns : forward.phase.connection = some connection) :
    (∀ target, ∀ other ∈ state.pool target, other.id ≠ connection.id) ∧
    (∀ request' forward' other, request' ≠ request →
      state.forwards.lookup request' = some forward' →
      forward'.phase.connection = some other → other.id ≠ connection.id) ∧
    ∀ id target lease other, state.leases.lookup id = some (target, lease) →
      lease.connection = some other → other.id ≠ connection.id := by
  have one := owned.once connection.id
  have here := forward_pos found owns
  unfold holders at one
  refine ⟨?_, ?_, ?_⟩
  · intro target other mem same
    have there := pool_pos mem
    rw [same] at there
    omega
  · intro request' forward' other different found' owns' same
    have both := Finmap.add_le_total
      (fun _ (forward : Forward) => countIn connection.id forward.phase.connection.toList)
      different found found'
    rw [owns, owns', Option.toList_some, Option.toList_some, countIn_singleton, countIn_singleton,
      if_pos rfl, if_pos same] at both
    unfold forwarding at one
    omega
  · intro id target lease other found' owns' same
    have there := lease_pos found' owns'
    rw [same] at there
    omega

/-- What a lease owns is in no pool, with no request and with no other lease. -/
theorem Owned.lease_apart (found : state.leases.lookup id = some (target, lease))
    (owns : lease.connection = some connection) :
    (∀ target, ∀ other ∈ state.pool target, other.id ≠ connection.id) ∧
    (∀ request forward other, state.forwards.lookup request = some forward →
      forward.phase.connection = some other → other.id ≠ connection.id) ∧
    ∀ id' target' lease' other, id' ≠ id → state.leases.lookup id' = some (target', lease') →
      lease'.connection = some other → other.id ≠ connection.id := by
  have one := owned.once connection.id
  have here := lease_pos found owns
  unfold holders at one
  refine ⟨?_, ?_, ?_⟩
  · intro target other mem same
    have there := pool_pos mem
    rw [same] at there
    omega
  · intro request forward other found' owns' same
    have there := forward_pos found' owns'
    rw [same] at there
    omega
  · intro id' target' lease' other different found' owns' same
    have both := Finmap.add_le_total
      (fun _ (leased : String × Lease) => countIn connection.id leased.2.connection.toList)
      different found found'
    rw [owns, owns', Option.toList_some, Option.toList_some, countIn_singleton, countIn_singleton,
      if_pos rfl, if_pos same] at both
    unfold leased at one
    omega

end Apart

end Connections

end GmMiner.AttestedPool
