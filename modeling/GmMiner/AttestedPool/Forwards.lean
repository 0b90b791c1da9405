import GmMiner.AttestedPool.Pool
import GmMiner.Lib.History
import GmMiner.Lib.Machine

/-!
Forwards over attested connections (`NearVerifier::forward` and `checkout` of
`attestd/src/near_verify.rs`, `KubeteeVerifier::forward`, `models` and `checkout` of
`attestd/src/kubetee_verify/mod.rs`, `retry_attestation` of
`attestd/src/upstream_proxy.rs`, and the leases of their responses).

An event is what one task does between two awaits, at one reading of both clocks;
the monotonic clock does not go back. Forwards, lease polls and closing transports
interleave freely, and a forward or a lease may be dropped between any two events.
What the network, the attestation and hyper do is up to the schedule.

The log keeps what happened, oldest first: `history` is its part about one
connection, `tries` its part about the sends of one request.
-/

namespace GmMiner.AttestedPool

open GmMiner.Lib

inductive Provider
  | near
  | kubetee
  deriving DecidableEq, Repr

structure Config where
  provider : Provider
  limits : PoolLimits

/-- `ATTESTATION_ATTEMPTS`. -/
def attestationAttempts : Nat := 3

/-- What a request is for: `forward`, or `KubeteeVerifier::models`. -/
inductive Purpose
  | inference
  | models
  deriving DecidableEq, Repr

/-- Where a request stands; `retry` once hyper has handed it back unsent. -/
inductive Phase
  /-- About to take a pooled connection. -/
  | taking
  /-- A pooled connection's readiness is awaited. -/
  | waiting (connection : Attested)
  | connecting (attempt : Nat) (retry : Bool)
  | attesting (attempt : Nat) (retry : Bool) (connection : Attested)
  /-- A fresh connection's readiness is awaited. -/
  | readying (retry : Bool) (connection : Attested)
  | sending (retry : Bool) (connection : Attested)
  deriving DecidableEq, Repr

/-- The connection a request owns. -/
def Phase.connection : Phase → Option Attested
  | taking | connecting _ _ => none
  | waiting connection | attesting _ _ connection | readying _ connection
  | sending _ connection => some connection

structure Forward where
  target : String
  purpose : Purpose
  phase : Phase
  deriving DecidableEq, Repr

/-- Why a request ended without a response. -/
inductive Cause
  | notAttested
  | notReady
  | notUsable
  | failed
  | cancelled
  deriving DecidableEq, Repr

inductive Outcome
  | responded
  | gaveUp (cause : Cause)
  deriving DecidableEq, Repr

inductive Entry
  /-- The attestation of a new connection began. -/
  | began (request connection : Nat) (at_ : Instant)
  | attested (request connection : Nat) (expiresAt : Option DateTime)
  /-- The request was handed to the connection, as it was before. -/
  | sent (request : Nat) (connection : Attested) (now : Instant) (wall : DateTime)
  /-- hyper handed the request back. -/
  | unsent (request connection : Nat) (at_ : Instant)
  /-- A response arrived with this body. -/
  | opened (request connection : Nat) (body : ResponseBody)
  /-- A frame of the response was read. -/
  | read (connection : Nat)
  /-- The model list was read to its end. -/
  | listed (request connection : Nat)
  /-- The connection went back to the pool. -/
  | returned (connection : Nat)
  | ended (request : Nat) (outcome : Outcome)
  deriving DecidableEq, Repr

namespace Entry

/-- The connection an entry is about. -/
def connection : Entry → Option Nat
  | began _ id _ | attested _ id _ | unsent _ id _ | opened _ id _ | read id | listed _ id
  | returned id => some id
  | sent _ connection _ _ => some connection.id
  | ended _ _ => none

/-- The request an entry is about. -/
def request : Entry → Option Nat
  | began id _ _ | attested id _ _ | sent id _ _ _ | unsent id _ _ | opened id _ _
  | listed id _ | ended id _ => some id
  | read _ | returned _ => none

def isSent : Entry → Bool
  | sent _ _ _ _ => true
  | _ => false

end Entry

/-- What happened to a connection. -/
def history (id : Nat) (log : List Entry) : List Entry :=
  log.filter fun entry => entry.connection == some id

/-- A send of a request, or its return unsent. -/
inductive Try
  | sent (connection : Nat)
  | handedBack
  deriving DecidableEq, Repr

def Entry.attempt (id : Nat) : Entry → Option Try
  | .sent request connection _ _ => if request = id then some (.sent connection.id) else none
  | .unsent request _ _ => if request = id then some .handedBack else none
  | _ => none

/-- The sends of a request. -/
def tries (id : Nat) (log : List Entry) : List Try := log.filterMap (Entry.attempt id)

/-- What a request's task does between two awaits. -/
inductive Act
  | take
  /-- `sender.ready()` is ready, or failed or timed out. -/
  | ready (ok : Bool)
  | connect
  | connectFails
  /-- The attestation verifies; the deadline is the served keyset's. -/
  | attest (deadline : DateTime)
  | attestFails
  | respond (body : ResponseBody)
  /-- The model list was read to its end. -/
  | list
  /-- The send, the response or the model list failed or timed out. -/
  | fail
  /-- hyper hands the request back. -/
  | handBack
  | cancel
  deriving DecidableEq, Repr

/-- What an act is given besides the request: its number, a fresh number, and the
reading. -/
structure Around where
  request : Nat
  fresh : Nat
  reading : Reading

/-- What an act leaves: the request's phase unless it ended, its pool, the lease of
its response and what it adds to the log. -/
structure Done where
  phase : Option Phase
  idle : List Attested
  lease : Option Lease
  entries : List Entry

namespace Forward

variable (config : Config) (around : Around) (idle : List Attested)

def giveUp (cause : Cause) (entries : List Entry) : Done :=
  ⟨none, idle, none, entries ++ [.ended around.request (.gaveUp cause)]⟩

def goOn (phase : Phase) (entries : List Entry) : Done := ⟨some phase, idle, none, entries⟩

/-- The request is counted and handed to the connection. -/
def send (retry : Bool) (connection : Attested) (entries : List Entry) : Done :=
  goOn idle (.sending retry { connection with requests := connection.requests + 1 })
    (entries ++ [.sent around.request connection around.reading.now around.reading.wall])

/-- The last check of a connection before its request. -/
def sendIfUsable (retry : Bool) (connection : Attested) (entries : List Entry) : Done :=
  if connection.usable config.limits around.reading then
    send around idle retry connection entries
  else giveUp around idle .notUsable entries

/-- `retry_attestation`: an attempt failed. -/
def attemptFailed (attempt : Nat) (retry : Bool) : Done :=
  if attempt + 1 < attestationAttempts then goOn idle (.connecting (attempt + 1) retry) []
  else giveUp around idle .notAttested []

def act (forward : Forward) : Act → Option Done
  | .take =>
      match forward.phase with
      | .taking =>
          let taken := take config.limits around.reading idle
          match taken.1 with
          | some connection => some (goOn taken.2 (.waiting connection) [])
          | none => some (goOn taken.2 (.connecting 0 false) [])
      | _ => none
  | .ready ok =>
      match forward.phase with
      | .waiting connection =>
          if ok && connection.usable config.limits around.reading then
            some (send around idle false connection [])
          else some (goOn idle .taking [])
      | .readying retry connection =>
          if ok then some (sendIfUsable config around idle retry connection [])
          else some (giveUp around idle .notReady [])
      | _ => none
  | .connect =>
      match forward.phase with
      | .connecting attempt retry =>
          let connection : Attested := ⟨around.fresh, around.reading.now, none, none, 0⟩
          some (goOn idle (.attesting attempt retry connection)
            [.began around.request around.fresh around.reading.now])
      | _ => none
  | .connectFails =>
      match forward.phase with
      | .connecting attempt retry => some (attemptFailed around idle attempt retry)
      | _ => none
  | .attest deadline =>
      match forward.phase with
      | .attesting _ retry connection =>
          match config.provider with
          | .near =>
              some (goOn idle (.readying retry connection)
                [.attested around.request connection.id connection.expiresAt])
          | .kubetee =>
              let connection := { connection with expiresAt := some deadline }
              some (sendIfUsable config around idle retry connection
                [.attested around.request connection.id connection.expiresAt])
      | _ => none
  | .attestFails =>
      match forward.phase with
      | .attesting attempt retry _ => some (attemptFailed around idle attempt retry)
      | _ => none
  | .respond body =>
      match forward.phase, forward.purpose with
      | .sending _ connection, .inference =>
          let leased := Lease.new config.limits around.reading body connection idle
          some ⟨none, leased.2, some leased.1,
            [.opened around.request connection.id body, .ended around.request .responded] ++
              if leased.1.connection.isNone then [.returned connection.id] else []⟩
      | _, _ => none
  | .list =>
      match forward.phase, forward.purpose with
      | .sending _ connection, .models =>
          some ⟨none, giveBack config.limits around.reading connection idle, none,
            [.listed around.request connection.id, .returned connection.id,
              .ended around.request .responded]⟩
      | _, _ => none
  | .fail =>
      match forward.phase with
      | .sending _ _ => some (giveUp around idle .failed [])
      | _ => none
  | .handBack =>
      match forward.phase, config.provider with
      | .sending retry connection, .near =>
          let entry := Entry.unsent around.request connection.id around.reading.now
          if retry then some (giveUp around idle .failed [entry])
          else some (goOn idle (.connecting 0 true) [entry])
      | _, _ => none
  | .cancel => some (giveUp around idle .cancelled [])

end Forward

/-- What a poll of a lease adds to the log: a frame read, and the return of the
connection. -/
def Lease.entries (before : Lease) (polled : Polled) (after : Lease) : List Entry :=
  match before.connection with
  | some connection =>
      (if polled = .frame then [.read connection.id] else []) ++
        if polled ≠ .failed ∧ after.connection = none then [.returned connection.id] else []
  | none => []

structure Connections where
  clock : Instant
  pools : HashMap String (List Attested)
  forwards : HashMap Nat Forward
  /-- The leases, with the target whose pool they go back to. -/
  leases : HashMap Nat (String × Lease)
  closed : Finset Nat
  nextId : Nat
  log : List Entry
  deriving DecidableEq

namespace Connections

inductive Event
  /-- `forward` or `models` is called with a valid request. -/
  | call (target : String) (purpose : Purpose)
  | act (request : Nat) (now : Instant) (wall : DateTime) (act : Act)
  | poll (lease : Nat) (now : Instant) (wall : DateTime)
  | dropLease (lease : Nat)
  /-- A transport closes. -/
  | close (connection : Nat)
  deriving DecidableEq, Repr

/-- A target's pool. -/
def pool (state : Connections) (target : String) : List Attested :=
  (state.pools.lookup target).getD []

/-- What a request's act leaves is put in place. -/
def acted (state : Connections) (request : Nat) (now : Instant) (forward : Forward)
    (done : Done) : Connections :=
  { state with
    clock := now
    pools := state.pools.insert forward.target done.idle
    forwards := match done.phase with
      | some phase => state.forwards.insert request { forward with phase := phase }
      | none => state.forwards.erase request
    leases := match done.lease with
      | some lease => state.leases.insert state.nextId (forward.target, lease)
      | none => state.leases
    nextId := state.nextId + 1
    log := state.log ++ done.entries }

def step (config : Config) (state : Connections) : Event → Option Connections
  | .call target purpose =>
      if purpose = .models ∧ config.provider = .near then none
      else some { state with
        forwards := state.forwards.insert state.nextId ⟨target, purpose, .taking⟩
        nextId := state.nextId + 1 }
  | .act request now wall act =>
      match state.forwards.lookup request with
      | some forward =>
          if state.clock ≤ now then
            (forward.act config ⟨request, state.nextId, ⟨now, wall, state.closed⟩⟩
              (state.pool forward.target) act).map (state.acted request now forward)
          else none
      | none => none
  | .poll id now wall =>
      match state.leases.lookup id with
      | some (target, lease) =>
          if state.clock ≤ now then
            let polled := lease.pollFrame config.limits ⟨now, wall, state.closed⟩
              (state.pool target)
            some { state with
              clock := now
              pools := state.pools.insert target polled.2.2
              leases := state.leases.insert id (target, polled.2.1)
              log := state.log ++ lease.entries polled.1 polled.2.1 }
          else none
      | none => none
  | .dropLease id =>
      if state.leases.lookup id = none then none
      else some { state with leases := state.leases.erase id }
  | .close connection => some { state with closed := insert connection state.closed }

end Connections

/-- The machine of one verifier's connections. -/
def connectionsMachine (config : Config) : Machine Connections Connections.Event where
  init := ⟨0, ∅, ∅, ∅, ∅, 0, []⟩
  step := Connections.step config

/-! ### What an act can do -/

namespace Forward

/-- What a request's task does, act by act: the guard of each branch and what it
leaves. -/
inductive Does (config : Config) (around : Around) (idle : List Attested) (forward : Forward) :
    Act → Done → Prop
  | take {connection} (at_ : forward.phase = .taking)
      (taken : (AttestedPool.take config.limits around.reading idle).1 = some connection) :
      Does config around idle forward .take
        (goOn (AttestedPool.take config.limits around.reading idle).2 (.waiting connection) [])
  | takeNone (at_ : forward.phase = .taking) :
      Does config around idle forward .take
        (goOn (AttestedPool.take config.limits around.reading idle).2 (.connecting 0 false) [])
  | pooled {connection} (at_ : forward.phase = .waiting connection)
      (usable : connection.usable config.limits around.reading = true) :
      Does config around idle forward (.ready true) (send around idle false connection [])
  | retire {connection ok} (at_ : forward.phase = .waiting connection) :
      Does config around idle forward (.ready ok) (goOn idle .taking [])
  | fresh {retry connection} (at_ : forward.phase = .readying retry connection)
      (usable : connection.usable config.limits around.reading = true) :
      Does config around idle forward (.ready true) (send around idle retry connection [])
  | notUsable {retry connection} (at_ : forward.phase = .readying retry connection) :
      Does config around idle forward (.ready true) (giveUp around idle .notUsable [])
  | notReady {retry connection} (at_ : forward.phase = .readying retry connection) :
      Does config around idle forward (.ready false) (giveUp around idle .notReady [])
  | connect {attempt retry} (at_ : forward.phase = .connecting attempt retry) :
      Does config around idle forward .connect
        (goOn idle (.attesting attempt retry ⟨around.fresh, around.reading.now, none, none, 0⟩)
          [.began around.request around.fresh around.reading.now])
  | again {act attempt retry} (at_ : forward.phase = .connecting attempt retry ∨
        ∃ connection, forward.phase = .attesting attempt retry connection) :
      Does config around idle forward act (goOn idle (.connecting (attempt + 1) retry) [])
  | notAttested {act attempt retry} (at_ : forward.phase = .connecting attempt retry ∨
        ∃ connection, forward.phase = .attesting attempt retry connection) :
      Does config around idle forward act (giveUp around idle .notAttested [])
  | attestNear {deadline attempt retry connection}
      (at_ : forward.phase = .attesting attempt retry connection)
      (near : config.provider = .near) :
      Does config around idle forward (.attest deadline)
        (goOn idle (.readying retry connection)
          [.attested around.request connection.id connection.expiresAt])
  | attestKubetee {deadline attempt retry connection}
      (at_ : forward.phase = .attesting attempt retry connection)
      (kubetee : config.provider = .kubetee)
      (usable : Attested.usable config.limits around.reading
        { connection with expiresAt := some deadline } = true) :
      Does config around idle forward (.attest deadline)
        (send around idle retry { connection with expiresAt := some deadline }
          [.attested around.request connection.id (some deadline)])
  | attestedLate {deadline attempt retry connection}
      (at_ : forward.phase = .attesting attempt retry connection)
      (kubetee : config.provider = .kubetee) :
      Does config around idle forward (.attest deadline)
        (giveUp around idle .notUsable
          [.attested around.request connection.id (some deadline)])
  | respond {retry connection body} (at_ : forward.phase = .sending retry connection) :
      Does config around idle forward (.respond body)
        ⟨none, (Lease.new config.limits around.reading body connection idle).2,
          some (Lease.new config.limits around.reading body connection idle).1,
          [.opened around.request connection.id body, .ended around.request .responded] ++
            if (Lease.new config.limits around.reading body connection idle).1.connection.isNone
            then [.returned connection.id] else []⟩
  | list {retry connection} (at_ : forward.phase = .sending retry connection) :
      Does config around idle forward .list
        ⟨none, giveBack config.limits around.reading connection idle, none,
          [.listed around.request connection.id, .returned connection.id,
            .ended around.request .responded]⟩
  | fail {retry connection} (at_ : forward.phase = .sending retry connection) :
      Does config around idle forward .fail (giveUp around idle .failed [])
  | handBack {connection} (at_ : forward.phase = .sending false connection)
      (near : config.provider = .near) :
      Does config around idle forward .handBack
        (goOn idle (.connecting 0 true)
          [.unsent around.request connection.id around.reading.now])
  | handBackAgain {connection} (at_ : forward.phase = .sending true connection)
      (near : config.provider = .near) :
      Does config around idle forward .handBack
        (giveUp around idle .failed [.unsent around.request connection.id around.reading.now])
  | cancel : Does config around idle forward .cancel (giveUp around idle .cancelled [])

variable {config : Config} {around : Around} {idle : List Attested} {forward : Forward}

/-- A failed attempt is retried or ends the forward, as `Does` has it. -/
private theorem does_of_attemptFailed {act : Act} {attempt : Nat} {retry : Bool} {done : Done}
    (at_ : forward.phase = .connecting attempt retry ∨
      ∃ connection, forward.phase = .attesting attempt retry connection)
    (failed : attemptFailed around idle attempt retry = done) :
    Does config around idle forward act done := by
  unfold attemptFailed at failed
  split at failed
  · subst failed
    exact .again at_
  · subst failed
    exact .notAttested at_

/-- Whatever the forward computes is one of the things it can do. -/
theorem does_of_act {act : Act} {done : Done}
    (acted : forward.act config around idle act = some done) :
    Does config around idle forward act done := by
  cases act with
  -- One case for each act; within it the branches of the source, in their order.
  | take =>
      simp only [Forward.act] at acted
      split at acted
      · rename_i at_
        split at acted
        · rename_i connection taken
          cases acted
          exact .take at_ taken
        · cases acted
          exact .takeNone at_
      · cases acted
  | ready ok =>
      simp only [Forward.act] at acted
      split at acted
      · rename_i connection at_
        split at acted
        · rename_i both
          obtain ⟨rfl, usable⟩ := Bool.and_eq_true_iff.mp both
          cases acted
          exact .pooled at_ usable
        · cases acted
          exact .retire at_
      · rename_i retry connection at_
        -- A fresh connection is sent on if it is still usable; only a pooled one is retired.
        cases ok with
        | true =>
            rw [if_pos rfl, Option.some.injEq] at acted
            unfold sendIfUsable at acted
            split at acted
            · rename_i usable
              subst acted
              exact .fresh at_ usable
            · subst acted
              exact .notUsable at_
        | false =>
            cases acted
            exact .notReady at_
      · cases acted
  | connect =>
      simp only [Forward.act] at acted
      split at acted
      · rename_i at_
        cases acted
        exact .connect at_
      · cases acted
  | connectFails =>
      simp only [Forward.act] at acted
      split at acted
      · rename_i attempt retry at_
        exact does_of_attemptFailed (.inl at_) (Option.some.inj acted)
      · cases acted
  | attest deadline =>
      simp only [Forward.act] at acted
      split at acted
      · rename_i attempt retry connection at_
        split at acted
        · -- NEAR's connection is made ready first; KubeTEE's is sent on at once.
          rename_i near
          cases acted
          exact .attestNear at_ near
        · rename_i kubetee
          rw [Option.some.injEq] at acted
          unfold sendIfUsable at acted
          split at acted
          · rename_i usable
            subst acted
            exact .attestKubetee at_ kubetee usable
          · subst acted
            exact .attestedLate at_ kubetee
      · cases acted
  | attestFails =>
      simp only [Forward.act] at acted
      split at acted
      · rename_i attempt retry connection at_
        exact does_of_attemptFailed (.inr ⟨connection, at_⟩) (Option.some.inj acted)
      · cases acted
  | respond body =>
      simp only [Forward.act] at acted
      split at acted
      · rename_i at_ _
        cases acted
        exact .respond at_
      · cases acted
  | list =>
      simp only [Forward.act] at acted
      split at acted
      · rename_i at_ _
        cases acted
        exact .list at_
      · cases acted
  | fail =>
      simp only [Forward.act] at acted
      split at acted
      · rename_i at_
        cases acted
        exact .fail at_
      · cases acted
  | handBack =>
      simp only [Forward.act] at acted
      split at acted
      · rename_i retry connection at_ near
        -- Only the first hand-back is tried again.
        cases retry with
        | true =>
            cases acted
            exact .handBackAgain at_ near
        | false =>
            cases acted
            exact .handBack at_ near
      · cases acted
  | cancel =>
      cases acted
      exact .cancel

/-! ### Ownership -/

/-- No act makes a connection of which there is one more, but for a fresh one. -/
theorem Does.countIn_le {act : Act} {done : Done} (does : Does config around idle forward act done)
    (id : Nat) :
    countIn id done.idle + countIn id (done.phase.bind Phase.connection).toList +
        countIn id (done.lease.bind Lease.connection).toList ≤
      countIn id idle + countIn id forward.phase.connection.toList +
        if around.fresh = id then 1 else 0 := by
  cases does with
  | take at_ taken =>
      have counted := countIn_take config.limits around.reading idle id
      rw [taken, Option.toList_some] at counted
      simp only [goOn, Phase.connection, Option.bind_some, Option.bind_none, Option.toList_some,
        Option.toList_none, countIn_nil]
      omega
  | takeNone at_ =>
      have counted := countIn_take config.limits around.reading idle id
      simp only [goOn, Phase.connection, Option.bind_some, Option.bind_none, Option.toList_none,
        countIn_nil]
      omega
  -- Sent, the connection stays with the forward.
  | pooled at_ | fresh at_ | attestKubetee at_ =>
      simp only [send, goOn, at_, Phase.connection, Option.bind_some, Option.bind_none,
        Option.toList_some, Option.toList_none, countIn_singleton, countIn_nil]
      omega
  | retire at_ | attestNear at_ | handBack at_ =>
      simp only [goOn, at_, Phase.connection, Option.bind_some, Option.bind_none,
        Option.toList_some, Option.toList_none, countIn_nil]
      omega
  -- Only here is there one more, under the number that is given out.
  | connect at_ =>
      simp only [goOn, at_, Phase.connection, Option.bind_some, Option.bind_none,
        Option.toList_some, Option.toList_none, countIn_singleton, countIn_nil]
      omega
  | again at_ =>
      simp only [goOn, Phase.connection, Option.bind_some, Option.bind_none, Option.toList_none,
        countIn_nil]
      omega
  -- Given up, the connection is dropped.
  | notUsable | notReady | notAttested | attestedLate | fail | handBackAgain | cancel =>
      simp only [giveUp, Option.bind_none, Option.toList_none, countIn_nil]
      omega
  | respond at_ =>
      rename_i retry connection body
      have counted := Lease.countIn_giveBackIfRead_le config.limits around.reading idle id
        ⟨body, some connection⟩
      simp only [at_, Phase.connection, Lease.new, Option.bind_some, Option.bind_none,
        Option.toList_some, Option.toList_none, countIn_nil] at counted ⊢
      omega
  | list at_ =>
      rename_i retry connection
      have counted := countIn_giveBack_le config.limits around.reading idle id connection
      simp only [at_, Phase.connection, Option.bind_none, Option.toList_some, Option.toList_none,
        countIn_nil]
      omega

theorem Does.length_le {act : Act} {done : Done} (does : Does config around idle forward act done)
    (within : idle.length ≤ config.limits.idle) : done.idle.length ≤ config.limits.idle := by
  cases does with
  | take | takeNone => exact length_take_le.trans within
  | respond => exact Lease.length_giveBackIfRead_le _ _ within
  | list => exact length_giveBack_le _ within
  | pooled | retire | fresh | notUsable | notReady | connect | again | notAttested | attestNear
  | attestKubetee | attestedLate | fail | handBack | handBackAgain | cancel => exact within

/-- What an act logs is about its own request, and about its own connection or a
fresh one. -/
def Entry.Own (around : Around) (forward : Forward) (entry : Entry) : Prop :=
  (∀ request, entry.request = some request → request = around.request) ∧
    ∀ id, entry.connection = some id → id = around.fresh ∨
      ∃ connection, forward.phase.connection = some connection ∧ connection.id = id

/-- A forward's entries are of its own request, or of the connection it opened. -/
theorem Does.entries_own {act : Act} {done : Done}
    (does : Does config around idle forward act done) :
    ∀ entry ∈ done.entries, Entry.Own around forward entry := by
  -- An entry about the forward's connection, and of no other request, is its own.
  have own : ∀ {connection entry}, forward.phase.connection = some connection →
      (∀ request, entry.request = some request → request = around.request) →
      entry.connection = some connection.id → Entry.Own around forward entry := by
    intro connection entry holds asked about
    exact ⟨asked, fun id same => .inr ⟨connection, holds, Option.some.inj (about.symm.trans same)⟩⟩
  have asked : ∀ request, some around.request = some request → request = around.request :=
    fun request same => (Option.some.inj same).symm
  have ended : ∀ outcome, Entry.Own around forward (.ended around.request outcome) :=
    fun outcome => ⟨asked, nofun⟩
  cases does with
  | take | takeNone | retire | again => exact List.forall_mem_nil _
  | notUsable | notReady | notAttested | fail | cancel => exact List.forall_mem_singleton.mpr (ended _)
  | connect =>
      exact List.forall_mem_singleton.mpr ⟨asked, fun id same => .inl (Option.some.inj same).symm⟩
  | pooled at_ | fresh at_ | attestNear at_ | handBack at_ =>
      exact List.forall_mem_singleton.mpr (own (congrArg Phase.connection at_) asked rfl)
  | attestKubetee at_ =>
      have holds := congrArg Phase.connection at_
      exact List.forall_mem_cons.mpr
        ⟨own holds asked rfl, List.forall_mem_singleton.mpr (own holds asked rfl)⟩
  | attestedLate at_ | handBackAgain at_ =>
      exact List.forall_mem_cons.mpr ⟨own (congrArg Phase.connection at_) asked rfl,
        List.forall_mem_singleton.mpr (ended _)⟩
  | respond at_ =>
      have holds := congrArg Phase.connection at_
      refine List.forall_mem_append.mpr ⟨List.forall_mem_cons.mpr
        ⟨own holds asked rfl, List.forall_mem_singleton.mpr (ended _)⟩, ?_⟩
      split
      · exact List.forall_mem_singleton.mpr (own holds nofun rfl)
      · exact List.forall_mem_nil _
  | list at_ =>
      have holds := congrArg Phase.connection at_
      exact List.forall_mem_cons.mpr ⟨own holds asked rfl, List.forall_mem_cons.mpr
        ⟨own holds nofun rfl, List.forall_mem_singleton.mpr (ended _)⟩⟩

end Forward

end GmMiner.AttestedPool
