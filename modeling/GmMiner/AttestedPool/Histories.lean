import GmMiner.AttestedPool.Forwards

/-!
What the log says about a connection and a request where each of them stands.

A pooled, waiting, sending or leased connection has a history that begins with its
attestation and counts its sends (`Proven`); that of an idle one ends with its
return, that of a leased one with its response and the frames read of it. A request
was sent once, or handed back and sent once more (`Once`). `Does.sound` proves what
an act leaves of this, given what it found.
-/

namespace GmMiner.AttestedPool

open GmMiner.Lib

@[simp] theorem history_append (id : Nat) (log entries : List Entry) :
    history id (log ++ entries) = history id log ++ history id entries :=
  List.filter_append _ _

@[simp] theorem tries_append (id : Nat) (log entries : List Entry) :
    tries id (log ++ entries) = tries id log ++ tries id entries :=
  List.filterMap_append

theorem history_eq_nil {id : Nat} {entries : List Entry}
    (apart : ∀ entry ∈ entries, entry.connection ≠ some id) : history id entries = [] := by
  refine List.filter_eq_nil_iff.mpr fun entry mem => ?_
  simpa using apart entry mem

/-- Entries of other requests leave a request's tries empty. -/
theorem tries_eq_nil {id : Nat} {entries : List Entry}
    (apart : ∀ entry ∈ entries, entry.request ≠ some id) : tries id entries = [] := by
  refine List.filterMap_eq_nil_iff.mpr fun entry mem => ?_
  have other := apart entry mem
  cases entry with
  | sent request | unsent request =>
      refine if_neg fun same => other ?_
      rw [same]
      rfl
  | began | attested | opened | read | listed | returned | ended => rfl

/-- A request handed back was recorded as unsent. -/
theorem unsent_of_handedBack {id : Nat} {log : List Entry}
    (handedBack : Try.handedBack ∈ tries id log) :
    ∃ connection at_, Entry.unsent id connection at_ ∈ log := by
  obtain ⟨entry, mem, attempt⟩ := List.mem_filterMap.mp handedBack
  unfold Entry.attempt at attempt
  split at attempt
  · split at attempt
    · cases attempt
    · cases attempt
  · rename_i request connection at_
    split at attempt
    · rename_i same
      subst same
      exact ⟨connection, at_, mem⟩
    · cases attempt
  · cases attempt

/-! ### Connections -/

/-- The connection was attested, when it says and until when it says, and was sent as
many requests as it says. -/
structure Proven (provider : Provider) (clock : Instant) (connection : Attested)
    (past : List Entry) : Prop where
  attested : ∃ request rest,
    past = .began request connection.id connection.attestedAt ::
        .attested request connection.id connection.expiresAt :: rest ∧
      rest.countP Entry.isSent = connection.requests
  began : connection.attestedAt ≤ clock
  deadline : provider = .kubetee → connection.expiresAt.isSome = true

/-- Idle, its last event is its return. -/
structure Idle (provider : Provider) (clock : Instant) (connection : Attested)
    (past : List Entry) : Prop where
  proven : Proven provider clock connection past
  returned : ∃ earlier, past = earlier ++ [.returned connection.id]

/-- A request was sent, its response came, and so many of the body's frames were read
since. -/
def ReadSince (id frames : Nat) (body : ResponseBody) (past : List Entry) : Prop :=
  ∃ earlier request connection now wall, connection.id = id ∧
    past = earlier ++ [.sent request connection now wall, .opened request id body] ++
      List.replicate frames (.read id)

/-- Leased, the body has as many frames left as were not read. -/
structure Leased (provider : Provider) (clock : Instant) (connection : Attested)
    (left : ResponseBody) (past : List Entry) : Prop where
  proven : Proven provider clock connection past
  read : ∃ body frames, ReadSince connection.id frames body past ∧
    frames + left.frames = body.frames ∧ left.fails = body.fails

/-- The last response of the connection was read to its end, and did not fail. -/
def ReadToEnd (id : Nat) (past : List Entry) : Prop :=
  (∃ body, ReadSince id body.frames body past ∧ body.fails = false) ∨
    ∃ earlier request connection now wall, connection.id = id ∧
      past = earlier ++ [.sent request connection now wall, .listed request id]

section Connections

variable {provider : Provider} {clock now : Instant} {connection : Attested} {past : List Entry}

theorem Proven.later (proven : Proven provider clock connection past) (later : clock ≤ now) :
    Proven provider now connection past :=
  { proven with began := proven.began.trans later }

/-- Events that are no sends leave the number of sends. -/
theorem Proven.goesOn (proven : Proven provider clock connection past) (later : clock ≤ now)
    {events : List Entry} (unsent : ∀ event ∈ events, event.isSent = false) :
    Proven provider now connection (past ++ events) where
  attested := by
    obtain ⟨request, rest, begins, counted⟩ := proven.attested
    refine ⟨request, rest ++ events, by rw [begins]; rfl, ?_⟩
    rw [List.countP_append, counted, List.countP_eq_zero.mpr, add_zero]
    intro event mem
    rw [unsent event mem]
    exact Bool.false_ne_true
  began := proven.began.trans later
  deadline := proven.deadline

/-- A send counts. -/
theorem Proven.sent (proven : Proven provider clock connection past) (later : clock ≤ now)
    {event : Entry} (sent : event.isSent = true) :
    Proven provider now { connection with requests := connection.requests + 1 }
      (past ++ [event]) where
  attested := by
    obtain ⟨request, rest, begins, counted⟩ := proven.attested
    refine ⟨request, rest ++ [event], by rw [begins]; rfl, ?_⟩
    rw [List.countP_append, counted, List.countP_singleton, if_pos sent]
  began := proven.began.trans later
  deadline := proven.deadline

/-- A connection that is given back has what it had, its return apart. -/
theorem Proven.returned (proven : Proven provider clock connection past) (later : clock ≤ now)
    (since : Option Instant) :
    Idle provider now { connection with idleSince := since }
      (past ++ [.returned connection.id]) where
  proven :=
    have goesOn := proven.goesOn later (List.forall_mem_singleton.mpr (rfl :
      (Entry.returned connection.id).isSent = false))
    ⟨goesOn.attested, goesOn.began, goesOn.deadline⟩
  returned := ⟨past, rfl⟩

theorem Idle.later (idle : Idle provider clock connection past) (later : clock ≤ now) :
    Idle provider now connection past :=
  { idle with proven := idle.proven.later later }

theorem Leased.later {left : ResponseBody} (leased : Leased provider clock connection left past)
    (later : clock ≤ now) : Leased provider now connection left past :=
  { leased with proven := leased.proven.later later }

/-- With nothing left to read and no failure, the response was read to its end. -/
theorem Leased.readToEnd {left : ResponseBody}
    (leased : Leased provider clock connection left past) (none : left.frames = 0)
    (sound : left.fails = false) : ReadToEnd connection.id past := by
  obtain ⟨body, frames, read, counted, fails⟩ := leased.read
  have all : frames = body.frames := by
    rw [none, add_zero] at counted
    exact counted
  exact .inl ⟨body, all ▸ read, fails.symm.trans sound⟩

/-- A frame is read. -/
theorem Leased.frame {left : ResponseBody} {frames : Nat}
    (leased : Leased provider clock connection left past) (some_ : left.frames = frames + 1)
    (later : clock ≤ now) :
    Leased provider now connection { left with frames := frames }
      (past ++ [.read connection.id]) where
  proven := leased.proven.goesOn later (List.forall_mem_singleton.mpr (rfl :
    (Entry.read connection.id).isSent = false))
  read := by
    obtain ⟨body, already, ⟨earlier, request, on, at_, wall, named, begins⟩, counted, fails⟩ :=
      leased.read
    refine ⟨body, already + 1, ⟨earlier, request, on, at_, wall, named, ?_⟩, ?_, fails⟩
    · rw [begins, List.append_assoc, List.replicate_succ']
    · rw [some_] at counted
      dsimp only
      omega

end Connections

/-! ### Requests -/

/-- Before a send: nothing was sent, or one send was handed back. -/
def Tried : Bool → List Try → Prop
  | false, made => made = []
  | true, made => ∃ first, made = [.sent first, .handedBack]

/-- The sends of a request: at most one is not handed back, and at most one follows a
hand-back. -/
inductive Once : List Try → Prop
  | none : Once []
  | first (connection : Nat) : Once [.sent connection]
  | handedBack (connection : Nat) : Once [.sent connection, .handedBack]
  | second (connection other : Nat) : Once [.sent connection, .handedBack, .sent other]
  | again (connection other : Nat) :
      Once [.sent connection, .handedBack, .sent other, .handedBack]

theorem Tried.once {retry : Bool} {made : List Try} (tried : Tried retry made) : Once made := by
  cases retry with
  | false =>
      cases tried
      exact .none
  | true =>
      obtain ⟨first, rfl⟩ := tried
      exact .handedBack first

/-- A request still being tried may be sent. -/
theorem Tried.sent {retry : Bool} {made : List Try} (tried : Tried retry made)
    (connection : Nat) : Once (made ++ [.sent connection]) := by
  cases retry with
  | false =>
      cases tried
      exact .first connection
  | true =>
      obtain ⟨first, rfl⟩ := tried
      exact .second first connection

/-- The connection was attested for this request and was used for nothing before. -/
def Unused (request : Nat) (connection : Attested) (past : List Entry) : Prop :=
  past = [.began request connection.id connection.attestedAt,
    .attested request connection.id connection.expiresAt]

/-- The attestation began no earlier than the request was handed back. -/
def AttestedSince (request : Nat) (connection : Attested) (log : List Entry) : Prop :=
  ∀ id at_, Entry.unsent request id at_ ∈ log → at_ ≤ connection.attestedAt

theorem AttestedSince.snoc {request : Nat} {connection : Attested} {log : List Entry}
    {entry : Entry} (since : AttestedSince request connection log)
    (other : ∀ id at_, entry ≠ .unsent request id at_) :
    AttestedSince request connection (log ++ [entry]) := by
  intro id at_ mem
  rcases List.mem_append.mp mem with before | new
  · exact since id at_ before
  · exact absurd (List.mem_singleton.mp new).symm (other id at_)

/-- What the log says of a request and its connection where the request stands. -/
def Phase.Sound (provider : Provider) (request : Nat) (log : List Entry) (clock : Instant) :
    Phase → Prop
  | .taking => tries request log = []
  | .waiting connection => tries request log = [] ∧
      Proven provider clock connection (history connection.id log)
  | .connecting _ retry => Tried retry (tries request log)
  | .attesting _ retry connection => Tried retry (tries request log) ∧
      history connection.id log = [.began request connection.id connection.attestedAt] ∧
      connection.requests = 0 ∧ connection.attestedAt ≤ clock ∧
      AttestedSince request connection log
  | .readying retry connection => Tried retry (tries request log) ∧ provider = .near ∧
      Unused request connection (history connection.id log) ∧
      connection.requests = 0 ∧ connection.attestedAt ≤ clock ∧
      AttestedSince request connection log
  | .sending retry connection =>
      (∃ made, Tried retry made ∧ tries request log = made ++ [.sent connection.id]) ∧
      Proven provider clock connection (history connection.id log) ∧
      ∃ earlier on now wall, on.id = connection.id ∧
        history connection.id log = earlier ++ [.sent request on now wall]

/-- The request is on its way to its second send. -/
def Phase.retries : Phase → Bool
  | .taking | .waiting _ | .sending _ _ => false
  | .connecting _ retry | .attesting _ retry _ | .readying retry _ => retry

/-- A request that ended was sent at most once, and if it was handed back and not
sent again, it gave up or was cancelled on the way to a fresh connection. -/
structure Finished (request : Nat) (log : List Entry) : Prop where
  once : Once (tries request log)
  excused : ∀ first, tries request log = [.sent first, .handedBack] →
    ∃ cause, cause ≠ .failed ∧ Entry.ended request (.gaveUp cause) ∈ log

/-- What allows a send: the connection was attested not too long ago, was sent fewer
requests than the limit, and is within its deadline. -/
structure Sendable (config : Config) (before : List Entry) (connection : Attested)
    (now : Instant) (wall : DateTime) : Prop where
  attested : ∃ request rest,
    history connection.id before = .began request connection.id connection.attestedAt ::
        .attested request connection.id connection.expiresAt :: rest ∧
      rest.countP Entry.isSent < config.limits.requests
  began : connection.attestedAt ≤ now
  young : now - connection.attestedAt < config.limits.age
  deadline : ∀ deadline, connection.expiresAt = some deadline → wall < deadline
  kubetee : config.provider = .kubetee → connection.expiresAt.isSome = true

/-- What allows an entry: a send needs a connection fit for it, a fresh one when the
request was handed back; a return needs the response read to its end. -/
def Allowed (config : Config) (before : List Entry) : Entry → Prop
  | .sent request connection now wall => Sendable config before connection now wall ∧
      (Try.handedBack ∈ tries request before →
        Unused request connection (history connection.id before) ∧
          AttestedSince request connection before)
  | .returned id => ReadToEnd id (history id before)
  | _ => True

/-! ### What an act leaves -/

/-- What holds after an act of a request. -/
structure Done.Sound (config : Config) (around : Around) (idle : List Attested) (done : Done)
    (log : List Entry) : Prop where
  phase : ∀ phase, done.phase = some phase →
    phase.Sound config.provider around.request log around.reading.now
  pending : ∀ phase, done.phase = some phase → phase.retries = false →
    ∀ first, tries around.request log ≠ [.sent first, .handedBack]
  finished : done.phase = none → Finished around.request log
  idle : ∀ connection ∈ done.idle, connection ∈ idle ∨
    Idle config.provider around.reading.now connection (history connection.id log)
  lease : ∀ lease connection, done.lease = some lease → lease.connection = some connection →
    Leased config.provider around.reading.now connection lease.body
      (history connection.id log)
  allowed : Justified (Allowed config) log

section Acts

variable {config : Config} {around : Around} {idle : List Attested} {log : List Entry}
  {clock : Instant}

private theorem sent_ne_handedBack {made : List Try} {connection first : Nat} :
    made ++ [.sent connection] ≠ [.sent first, .handedBack] := by
  intro same
  have last := congrArg List.getLast? same
  simp at last

private theorem Tried.pending {retry : Bool} {made : List Try} (tried : Tried retry made)
    (notRetry : retry = false) (first : Nat) : made ≠ [.sent first, .handedBack] := by
  subst notRetry
  rw [show made = [] from tried]
  exact (List.cons_ne_nil _ _).symm

/-- A fresh connection was attested as it says, and sent nothing. -/
private theorem Unused.proven {provider : Provider} {request : Nat} {connection : Attested}
    {past : List Entry} (unused : Unused request connection past)
    (none : connection.requests = 0) (began : connection.attestedAt ≤ clock)
    (deadline : provider = .kubetee → connection.expiresAt.isSome = true) :
    Proven provider clock connection past :=
  ⟨⟨request, [], unused, none.symm⟩, began, deadline⟩

/-- In a sound phase the request was sent at most once. -/
theorem Phase.Sound.once {provider : Provider} {request : Nat} {phase : Phase}
    (sound : phase.Sound provider request log clock) : Once (tries request log) := by
  cases phase with
  | taking =>
      rw [show tries request log = [] from sound]
      exact .none
  | waiting connection =>
      rw [sound.1]
      exact .none
  | connecting attempt retry => exact Tried.once sound
  | attesting attempt retry connection => exact Tried.once sound.1
  | readying retry connection => exact Tried.once sound.1
  | sending retry connection =>
      obtain ⟨⟨made, tried, sent⟩, -⟩ := sound
      rw [sent]
      exact tried.sent connection.id

/-- A request that goes on, with nothing new in the pool. -/
private theorem goOn_sound {phase : Phase} {rest : List Attested}
    (kept : ∀ connection ∈ rest, connection ∈ idle)
    (sound : phase.Sound config.provider around.request log around.reading.now)
    (pending : phase.retries = false → ∀ first, tries around.request log ≠ [.sent first, .handedBack])
    (allowed : Justified (Allowed config) log) (entries : List Entry) :
    (Forward.goOn rest phase entries).Sound config around idle log where
  phase := by
    rintro _ ⟨⟩
    exact sound
  pending := by
    rintro _ ⟨⟩
    exact pending
  finished := nofun
  idle := fun connection mem => .inl (kept connection mem)
  lease := nofun
  allowed := allowed

/-- A request that goes on and logs nothing. -/
private theorem goOn_quiet {phase : Phase} {rest : List Attested}
    (kept : ∀ connection ∈ rest, connection ∈ idle)
    (sound : phase.Sound config.provider around.request log around.reading.now)
    (pending : phase.retries = false → ∀ first, tries around.request log ≠ [.sent first, .handedBack])
    (allowed : Justified (Allowed config) log) :
    (Forward.goOn rest phase []).Sound config around idle (log ++ []) := by
  rw [List.append_nil]
  exact goOn_sound kept sound pending allowed []

/-- A request that gives up. -/
private theorem giveUp_sound (idle : List Attested) (cause : Cause) (once : Once (tries around.request log))
    (excused : cause ≠ .failed ∨ ∀ first, tries around.request log ≠ [.sent first, .handedBack])
    (allowed : Justified (Allowed config) log) (entries : List Entry) :
    (Forward.giveUp around idle cause entries).Sound config around idle
      (log ++ [.ended around.request (.gaveUp cause)]) where
  phase := nofun
  pending := nofun
  finished := by
    intro _
    have same : tries around.request (log ++ [.ended around.request (.gaveUp cause)]) =
        tries around.request log := by
      rw [tries_append]
      exact List.append_nil _
    refine ⟨same ▸ once, fun first handedBack => ⟨cause, ?_, ?_⟩⟩
    · exact excused.resolve_right fun never => never first (same ▸ handedBack)
    · exact List.mem_append_right _ (List.mem_singleton_self _)
  idle := fun connection mem => .inl mem
  lease := nofun
  allowed := allowed.snoc trivial

/-- A request that is sent. -/
private theorem send_sound (idle : List Attested) {retry : Bool} {connection : Attested}
    (tried : Tried retry (tries around.request log))
    (proven : Proven config.provider clock connection (history connection.id log))
    (later : clock ≤ around.reading.now)
    (usable : connection.usable config.limits around.reading = true)
    (fresh : retry = true → Unused around.request connection (history connection.id log) ∧
      AttestedSince around.request connection log)
    (allowed : Justified (Allowed config) log) (entries : List Entry) :
    (Forward.send around idle retry connection entries).Sound config around idle
      (log ++ [.sent around.request connection around.reading.now around.reading.wall]) := by
  obtain ⟨deadline, young, few⟩ := Attested.of_usable usable
  -- The send is the last try of the request, and the last entry of the connection's history.
  have sentOnce : tries around.request
      (log ++ [.sent around.request connection around.reading.now around.reading.wall]) =
        tries around.request log ++ [.sent connection.id] := by
    rw [tries_append]
    exact congrArg _ (List.filterMap_cons_some (if_pos rfl))
  have logged : history connection.id
      (log ++ [.sent around.request connection around.reading.now around.reading.wall]) =
        history connection.id log ++
          [.sent around.request connection around.reading.now around.reading.wall] := by
    rw [history_append]
    exact congrArg _ (List.filter_cons_of_pos (by simp [Entry.connection]))
  have sending : Phase.Sound config.provider around.request
      (log ++ [.sent around.request connection around.reading.now around.reading.wall])
      around.reading.now
      (.sending retry { connection with requests := connection.requests + 1 }) := by
    refine ⟨⟨_, tried, sentOnce⟩, ?_, _, connection, _, _, rfl, logged⟩
    dsimp only
    rw [logged]
    exact proven.sent later rfl
  refine goOn_sound (fun _ mem => mem) sending ?_ ?_ _
  · intro _ first
    rw [sentOnce]
    exact sent_ne_handedBack
  · obtain ⟨request, rest, begins, counted⟩ := proven.attested
    refine allowed.snoc ⟨⟨⟨request, rest, begins, counted ▸ few⟩, proven.began.trans later, young,
      deadline, proven.deadline⟩, fun handedBack => fresh ?_⟩
    -- What was handed back is being retried, so a first attempt has no hand-back behind it.
    cases retry with
    | true => rfl
    | false =>
        rw [show tries around.request log = [] from tried] at handedBack
        cases handedBack

/-- What a connection's own task adds to its history. -/
private theorem history_own {id : Nat} {entry : Entry} (about : entry.connection = some id) :
    history id (log ++ [entry]) = history id log ++ [entry] := by
  rw [history_append]
  exact congrArg _ (List.filter_cons_of_pos (by simp [about]))

private theorem tries_other {id : Nat} {entries : List Entry}
    (none : ∀ entry ∈ entries, Entry.attempt id entry = none) :
    tries id (log ++ entries) = tries id log := by
  rw [tries_append]
  refine (congrArg _ (List.filterMap_eq_nil_iff.mpr none)).trans (List.append_nil _)

private theorem tries_unsent {id connection : Nat} {at_ : Instant} :
    tries id (log ++ [.unsent id connection at_]) = tries id log ++ [.handedBack] := by
  rw [tries_append]
  exact congrArg _ (List.filterMap_cons_some (if_pos rfl))

/-- A request whose response came, and that logs nothing more about sends. -/
private theorem finished_of_sending {retry : Bool} {connection : Attested} {entries : List Entry}
    (sound : (Phase.sending retry connection).Sound config.provider around.request log clock)
    (unsent : ∀ entry ∈ entries, Entry.attempt around.request entry = none) :
    Finished around.request (log ++ entries) := by
  obtain ⟨⟨made, tried, sent⟩, -⟩ := sound
  constructor
  · rw [tries_other unsent, sent]
    exact tried.sent connection.id
  · intro first handedBack
    rw [tries_other unsent, sent] at handedBack
    exact absurd handedBack sent_ne_handedBack

/-- What holds of a lease and its pool after the lease was opened or polled. -/
structure Lease.Sound (config : Config) (now : Instant) (idle : List Attested)
    (left : Lease × List Attested) (log : List Entry) : Prop where
  idle : ∀ connection ∈ left.2, connection ∈ idle ∨
    Idle config.provider now connection (history connection.id log)
  lease : ∀ connection, left.1.connection = some connection →
    Leased config.provider now connection left.1.body (history connection.id log)
  allowed : Justified (Allowed config) log

/-- A connection whose response was read to its end goes back. -/
private theorem returned_sound (idle : List Attested) {reading : Reading} {connection : Attested}
    (proven : Proven config.provider reading.now connection (history connection.id log))
    (read : ReadToEnd connection.id (history connection.id log))
    (allowed : Justified (Allowed config) log) :
    (∀ other ∈ giveBack config.limits reading connection idle, other ∈ idle ∨
        Idle config.provider reading.now other
          (history other.id (log ++ [.returned connection.id]))) ∧
      Justified (Allowed config) (log ++ [.returned connection.id]) := by
  refine ⟨fun other mem => ?_, allowed.snoc read⟩
  rcases mem_giveBack mem with old | rfl
  · exact .inl old
  · refine .inr ?_
    rw [history_own rfl]
    exact proven.returned le_rfl _

/-- A lease whose body was read is released into the idle pool. -/
private theorem release_sound (idle : List Attested) {reading : Reading} {lease : Lease}
    {connection : Attested} (held : lease.connection = some connection)
    (leased : Leased config.provider reading.now connection lease.body (history connection.id log))
    (read : lease.body.frames = 0) (whole : lease.body.fails = false)
    (allowed : Justified (Allowed config) log) :
    Lease.Sound config reading.now idle (lease.release config.limits reading idle)
      (log ++ [.returned connection.id]) := by
  obtain ⟨returned, allowed⟩ :=
    returned_sound idle leased.proven (leased.readToEnd read whole) allowed
  unfold Lease.release
  rw [held]
  exact ⟨returned, nofun, allowed⟩

/-- A lease is given back only once its body was read, and stays sound until then. -/
private theorem giveBackIfRead_sound (idle : List Attested) {reading : Reading} {lease : Lease}
    {connection : Attested} (held : lease.connection = some connection)
    (leased : Leased config.provider reading.now connection lease.body (history connection.id log))
    (allowed : Justified (Allowed config) log) :
    Lease.Sound config reading.now idle (lease.giveBackIfRead config.limits reading idle)
      (log ++ if (lease.giveBackIfRead config.limits reading idle).1.connection.isNone
        then [.returned connection.id] else []) := by
  unfold Lease.giveBackIfRead
  split
  · rename_i ended
    unfold ResponseBody.isEndStream at ended
    simp only [Bool.and_eq_true, beq_iff_eq, Bool.not_eq_true'] at ended
    have gone : (lease.release config.limits reading idle).1.connection.isNone = true := by
      unfold Lease.release
      rw [held]
      rfl
    rw [if_pos gone]
    exact release_sound idle held leased ended.1.1 ended.1.2 allowed
  · have still : (lease, idle).1.connection.isNone = false := by rw [held]; rfl
    rw [if_neg (by rw [still]; exact Bool.false_ne_true), List.append_nil]
    refine ⟨fun _ mem => .inl mem, fun other same => ?_, allowed⟩
    cases held.symm.trans same
    exact leased

/-- The response arrives. -/
private theorem opened_leased {retry : Bool} {connection : Attested}
    (sound : (Phase.sending retry connection).Sound config.provider around.request log clock)
    (later : clock ≤ around.reading.now) (body : ResponseBody) :
    Leased config.provider around.reading.now connection body
      (history connection.id log ++ [.opened around.request connection.id body]) := by
  obtain ⟨-, proven, earlier, on, now, wall, named, begins⟩ := sound
  refine ⟨proven.goesOn later (List.forall_mem_singleton.mpr rfl), body, 0, ?_, Nat.zero_add _, rfl⟩
  refine ⟨earlier, around.request, on, now, wall, named, ?_⟩
  rw [begins, List.append_assoc, List.replicate_zero, List.append_nil]
  rfl

/-- A response leaves the request sent once, and its connection leased or idle. -/
private theorem respond_sound {retry : Bool} {connection : Attested}
    (sound : (Phase.sending retry connection).Sound config.provider around.request log clock)
    (later : clock ≤ around.reading.now) (allowed : Justified (Allowed config) log)
    (body : ResponseBody) {left : Lease × List Attested}
    (new : Lease.new config.limits around.reading body connection idle = left) :
    let entries : List Entry :=
      [.opened around.request connection.id body, .ended around.request .responded] ++
        if left.1.connection.isNone then [.returned connection.id] else []
    Done.Sound config around idle ⟨none, left.2, some left.1, entries⟩ (log ++ entries) := by
  intro entries
  -- None of the entries tries the request again.
  have unsent : ∀ entry ∈ entries, Entry.attempt around.request entry = none := by
    refine List.forall_mem_append.mpr ⟨List.forall_mem_cons.mpr
      ⟨rfl, List.forall_mem_singleton.mpr rfl⟩, ?_⟩
    split
    · exact List.forall_mem_singleton.mpr rfl
    · exact List.forall_mem_nil _
  have opened : history connection.id (log ++
      [.opened around.request connection.id body, .ended around.request .responded]) =
        history connection.id log ++ [.opened around.request connection.id body] := by
    rw [history_append]
    simp [history, Entry.connection]
  have allowed : Justified (Allowed config) (log ++
      [.opened around.request connection.id body, .ended around.request .responded]) := by
    have one : Justified (Allowed config)
        (log ++ [.opened around.request connection.id body]) := allowed.snoc trivial
    have two : Justified (Allowed config) ((log ++ [.opened around.request connection.id body]) ++
        [.ended around.request .responded]) := one.snoc trivial
    rwa [List.append_assoc] at two
  have leased : Leased config.provider around.reading.now connection body
      (history connection.id (log ++
        [.opened around.request connection.id body, .ended around.request .responded])) :=
    opened ▸ opened_leased sound later body
  -- A body that is empty is given back at once.
  have after := giveBackIfRead_sound idle
    (rfl : (⟨body, some connection⟩ : Lease).connection = some connection) leased allowed
  rw [show Lease.giveBackIfRead config.limits around.reading ⟨body, some connection⟩ idle = left
    from new, List.append_assoc] at after
  exact {
    phase := nofun
    pending := nofun
    finished := fun _ => finished_of_sending sound unsent
    idle := after.idle
    lease := by
      rintro _ connection ⟨⟩
      exact after.lease connection
    allowed := after.allowed }

/-- A model list was read whole, so its connection returns to the idle pool. -/
private theorem list_sound {retry : Bool} {connection : Attested}
    (sound : (Phase.sending retry connection).Sound config.provider around.request log clock)
    (later : clock ≤ around.reading.now) (allowed : Justified (Allowed config) log) :
    let entries : List Entry := [.listed around.request connection.id, .returned connection.id,
      .ended around.request .responded]
    Done.Sound config around idle
      ⟨none, giveBack config.limits around.reading connection idle, none, entries⟩
      (log ++ entries) := by
  intro entries
  have unsent : ∀ entry ∈ entries, Entry.attempt around.request entry = none := by
    simp [entries, Entry.attempt]
  have finished := finished_of_sending sound unsent
  obtain ⟨-, proven, earlier, on, now, wall, named, begins⟩ := sound
  have listed : history connection.id (log ++ [.listed around.request connection.id]) =
      history connection.id log ++ [.listed around.request connection.id] := history_own rfl
  have allowed : Justified (Allowed config) (log ++ [.listed around.request connection.id]) :=
    allowed.snoc trivial
  -- The list's body was read inside the call, so the connection may return.
  have toEnd : ReadToEnd connection.id
      (history connection.id (log ++ [.listed around.request connection.id])) := by
    refine .inr ⟨earlier, around.request, on, now, wall, named, ?_⟩
    rw [listed, begins, List.append_assoc]
    rfl
  have provenStill : Proven config.provider around.reading.now connection
      (history connection.id (log ++ [.listed around.request connection.id])) := by
    rw [listed]
    exact proven.goesOn later (List.forall_mem_singleton.mpr rfl)
  obtain ⟨returned, allowed⟩ := returned_sound idle provenStill toEnd allowed
  have split : log ++ entries = (log ++ [.listed around.request connection.id] ++
      [.returned connection.id]) ++ [.ended around.request .responded] := by simp [entries]
  exact {
    phase := nofun
    pending := nofun
    finished := fun _ => finished
    idle := by
      intro other mem
      have same : history other.id (log ++ entries) = history other.id
          (log ++ [.listed around.request connection.id] ++ [.returned connection.id]) := by
        rw [split, history_append _ _ [.ended around.request .responded]]
        exact List.append_nil _
      rw [same]
      exact returned other mem
    lease := nofun
    allowed := by
      rw [split]
      exact allowed.snoc trivial }

/-- What an act leaves, given what it found. -/
theorem Forward.Does.sound {forward : Forward} {act : Act} {done : Done}
    (does : Forward.Does config around idle forward act done) (later : clock ≤ around.reading.now)
    (sound : forward.phase.Sound config.provider around.request log clock)
    (pooled : ∀ connection ∈ idle,
      Idle config.provider clock connection (history connection.id log))
    (fresh : history around.fresh log = [])
    (handedBack : ∀ request id at_, Entry.unsent request id at_ ∈ log → at_ ≤ clock)
    (allowed : Justified (Allowed config) log) :
    done.Sound config around idle (log ++ done.entries) := by
  have once := sound.once
  have same : ∀ connection ∈ idle, connection ∈ idle := fun _ mem => mem
  cases does with
  -- A pooled connection was proven before, and time passes; the request was not tried yet.
  | take at_ taken =>
      rw [at_] at sound
      have tried : Tried false (tries around.request log) := sound
      exact goOn_quiet (fun _ mem => mem_of_take mem)
        ⟨sound, (pooled _ (mem_of_taken taken)).proven.later later⟩ (fun _ => tried.pending rfl)
        allowed
  | takeNone at_ =>
      rw [at_] at sound
      have tried : Tried false (tries around.request log) := sound
      exact goOn_quiet (fun _ mem => mem_of_take mem) sound (fun _ => tried.pending rfl) allowed
  | pooled at_ usable =>
      rw [at_] at sound
      have tried : Tried false (tries around.request log) := sound.1
      exact send_sound idle tried sound.2 later usable nofun allowed _
  | retire at_ =>
      rw [at_] at sound
      have tried : Tried false (tries around.request log) := sound.1
      exact goOn_quiet same sound.1 (fun _ => tried.pending rfl) allowed
  -- Only NEAR's connections wait to be ready, and this one has carried nothing.
  | fresh at_ usable =>
      rw [at_] at sound
      obtain ⟨tried, near, unused, none, began, since⟩ := sound
      have proven : Proven config.provider clock _ _ := unused.proven none began
        (fun kubetee => nomatch near.symm.trans kubetee)
      exact send_sound idle tried proven later usable (fun _ => ⟨unused, since⟩) allowed _
  -- Giving up tries nothing more and keeps no connection.
  | notUsable at_ | notReady at_ | notAttested at_ | cancel =>
      exact giveUp_sound idle _ once (.inl (by decide)) allowed _
  | connect at_ =>
      rename_i attempt retry
      rw [at_] at sound
      have unsent : tries around.request
          (log ++ [.began around.request around.fresh around.reading.now]) =
            tries around.request log :=
        tries_other (List.forall_mem_singleton.mpr rfl)
      have tried : Tried retry (tries around.request
          (log ++ [.began around.request around.fresh around.reading.now])) := unsent ▸ sound
      have began : history around.fresh
          (log ++ [.began around.request around.fresh around.reading.now]) =
            [.began around.request around.fresh around.reading.now] := by
        rw [history_own rfl, fresh]
        rfl
      -- Every hand-back so far is before this connection was begun.
      have since : AttestedSince around.request
          ⟨around.fresh, around.reading.now, none, none, 0⟩ log :=
        fun id at_ mem => (handedBack around.request id at_ mem).trans later
      have attesting : Phase.Sound config.provider around.request
          (log ++ [.began around.request around.fresh around.reading.now]) around.reading.now
          (.attesting attempt retry ⟨around.fresh, around.reading.now, none, none, 0⟩) :=
        ⟨tried, began, rfl, le_rfl, since.snoc nofun⟩
      have allowed : Justified (Allowed config)
          (log ++ [.began around.request around.fresh around.reading.now]) := allowed.snoc trivial
      exact goOn_sound same attesting tried.pending allowed _
  -- The failed attempt leaves the request as it was, with or without a connection.
  | again at_ =>
      rename_i attempt retry
      have tried : Tried retry (tries around.request log) := by
        rcases at_ with at_ | ⟨connection, at_⟩
        · rw [at_] at sound
          exact sound
        · rw [at_] at sound
          exact sound.1
      exact goOn_quiet same tried tried.pending allowed
  -- Attested, and nothing sent on it yet.
  | attestNear at_ near =>
      rename_i deadline attempt retry connection
      rw [at_] at sound
      obtain ⟨tried, begun, none, began, since⟩ := sound
      have unsent : tries around.request
          (log ++ [.attested around.request connection.id connection.expiresAt]) =
            tries around.request log :=
        tries_other (List.forall_mem_singleton.mpr rfl)
      rw [← unsent] at tried
      have unused : Unused around.request connection (history connection.id
          (log ++ [.attested around.request connection.id connection.expiresAt])) := by
        rw [history_own rfl, begun]
        rfl
      have readying : Phase.Sound config.provider around.request
          (log ++ [.attested around.request connection.id connection.expiresAt])
          around.reading.now (.readying retry connection) :=
        ⟨tried, near, unused, none, began.trans later, since.snoc nofun⟩
      have allowed : Justified (Allowed config)
          (log ++ [.attested around.request connection.id connection.expiresAt]) :=
        allowed.snoc trivial
      exact goOn_sound same readying tried.pending allowed _
  -- Attested and sent at once: the history is the attestation, then the send.
  | attestKubetee at_ kubetee usable =>
      rename_i deadline attempt retry connection
      rw [at_] at sound
      obtain ⟨tried, begun, none, began, since⟩ := sound
      have unsent : tries around.request
          (log ++ [.attested around.request connection.id (some deadline)]) =
            tries around.request log :=
        tries_other (List.forall_mem_singleton.mpr rfl)
      rw [← unsent] at tried
      have unused : Unused around.request { connection with expiresAt := some deadline }
          (history connection.id
            (log ++ [.attested around.request connection.id (some deadline)])) := by
        rw [history_own rfl, begun]
        rfl
      have stillSince : AttestedSince around.request { connection with expiresAt := some deadline }
          (log ++ [.attested around.request connection.id (some deadline)]) :=
        since.snoc nofun
      have allowed : Justified (Allowed config)
          (log ++ [.attested around.request connection.id (some deadline)]) := allowed.snoc trivial
      have sent := send_sound idle tried (unused.proven none began fun _ => rfl) later usable
        (fun _ => ⟨unused, stillSince⟩) allowed
        [.attested around.request connection.id (some deadline)]
      rw [List.append_assoc] at sent
      exact sent
  -- Attested too late: the attestation is logged, and the request given up.
  | attestedLate at_ kubetee =>
      rename_i deadline attempt retry connection
      have unsent : tries around.request
          (log ++ [.attested around.request connection.id (some deadline)]) =
            tries around.request log :=
        tries_other (List.forall_mem_singleton.mpr rfl)
      have allowed : Justified (Allowed config)
          (log ++ [.attested around.request connection.id (some deadline)]) := allowed.snoc trivial
      have gaveUp := giveUp_sound idle .notUsable (unsent ▸ once) (.inl nofun) allowed
        [.attested around.request connection.id (some deadline)]
      rw [List.append_assoc] at gaveUp
      exact gaveUp
  | respond at_ =>
      rename_i retry connection body
      rw [at_] at sound
      exact respond_sound sound later allowed body rfl
  | list at_ =>
      rename_i retry connection
      rw [at_] at sound
      exact list_sound sound later allowed
  | fail at_ =>
      rw [at_] at sound
      obtain ⟨⟨made, -, sent⟩, -⟩ := sound
      exact giveUp_sound idle _ once (.inr fun first => sent ▸ sent_ne_handedBack) allowed _
  -- Handed back for the first time: the request was sent once, and may be sent again.
  | handBack at_ near =>
      rename_i connection
      rw [at_] at sound
      obtain ⟨⟨made, tried, sent⟩, -⟩ := sound
      have tried : Tried true (tries around.request
          (log ++ [.unsent around.request connection.id around.reading.now])) := by
        refine ⟨connection.id, ?_⟩
        rw [tries_unsent, sent, show made = [] from tried]
        rfl
      have connecting : Phase.Sound config.provider around.request
          (log ++ [.unsent around.request connection.id around.reading.now]) around.reading.now
          (.connecting 0 true) := tried
      have allowed : Justified (Allowed config)
          (log ++ [.unsent around.request connection.id around.reading.now]) :=
        allowed.snoc trivial
      exact goOn_sound same connecting nofun allowed _
  -- Handed back again: it was sent twice, and is given up.
  | handBackAgain at_ near =>
      rename_i connection
      rw [at_] at sound
      obtain ⟨⟨made, ⟨first, tried⟩, sent⟩, -⟩ := sound
      have again : tries around.request
          (log ++ [.unsent around.request connection.id around.reading.now]) =
            [.sent first, .handedBack, .sent connection.id, .handedBack] := by
        rw [tries_unsent, sent, tried]
        rfl
      have allowed : Justified (Allowed config)
          (log ++ [.unsent around.request connection.id around.reading.now]) :=
        allowed.snoc trivial
      have once : Once (tries around.request
          (log ++ [.unsent around.request connection.id around.reading.now])) := by
        rw [again]
        exact .again first connection.id
      have gaveUp := giveUp_sound idle .failed once (.inr fun other => by rw [again]; nofun) allowed
        [.unsent around.request connection.id around.reading.now]
      rw [List.append_assoc] at gaveUp
      exact gaveUp

/-- A lease that gave its connection up leaves the pool alone. -/
private theorem pollFrame_of_none (limits : PoolLimits) (reading : Reading) (body : ResponseBody)
    (idle : List Attested) :
    (Lease.pollFrame limits reading ⟨body, none⟩ idle).2.1.connection = none ∧
      (Lease.pollFrame limits reading ⟨body, none⟩ idle).2.2 = idle := by
  unfold Lease.pollFrame Lease.giveBackIfRead Lease.release
  dsimp only
  split
  · exact ⟨rfl, rfl⟩
  · exact ⟨rfl, rfl⟩
  · split
    · exact ⟨rfl, rfl⟩
    · exact ⟨rfl, rfl⟩

/-- What a poll of a lease leaves, given what it found. -/
theorem Lease.poll_sound (config : Config) (idle : List Attested) (reading : Reading) {lease : Lease}
    (later : clock ≤ reading.now)
    (leased : ∀ connection, lease.connection = some connection →
      Leased config.provider clock connection lease.body (history connection.id log))
    (allowed : Justified (Allowed config) log) :
    Lease.Sound config reading.now idle (lease.pollFrame config.limits reading idle).2
      (log ++ lease.entries (lease.pollFrame config.limits reading idle).1
        (lease.pollFrame config.limits reading idle).2.1) := by
  obtain ⟨⟨frames, fails, hintsEnd⟩, connection⟩ := lease
  cases connection with
  | none =>
      obtain ⟨gone, same⟩ :=
        pollFrame_of_none config.limits reading ⟨frames, fails, hintsEnd⟩ idle
      unfold Lease.entries
      rw [List.append_nil]
      refine ⟨fun connection mem => .inl (same ▸ mem), fun connection holds => ?_, allowed⟩
      cases gone.symm.trans holds
  | some connection =>
      have leased := (leased connection rfl).later later
      cases frames with
      | succ frames =>
          have own : history connection.id (log ++ [.read connection.id]) =
              history connection.id log ++ [.read connection.id] := history_own rfl
          have leased : Leased config.provider reading.now connection ⟨frames, fails, hintsEnd⟩
              (history connection.id (log ++ [.read connection.id])) :=
            own ▸ leased.frame rfl le_rfl
          have allowed : Justified (Allowed config) (log ++ [.read connection.id]) :=
            allowed.snoc trivial
          have after := giveBackIfRead_sound idle
            (rfl : (⟨⟨frames, fails, hintsEnd⟩, some connection⟩ : Lease).connection =
              some connection) leased allowed
          simpa [Lease.entries, Lease.pollFrame, ResponseBody.poll, List.append_assoc] using after
      | zero =>
          cases fails with
          | true => exact ⟨fun _ mem => .inl mem, nofun, by simpa [Lease.entries, Lease.pollFrame, ResponseBody.poll] using allowed⟩
          | false =>
              have after := release_sound idle (rfl : (⟨⟨0, false, hintsEnd⟩, some connection⟩ :
                Lease).connection = some connection) leased rfl rfl allowed
              exact after

end Acts

end GmMiner.AttestedPool
