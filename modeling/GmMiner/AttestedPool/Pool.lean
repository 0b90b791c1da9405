import GmMiner.Lib.HashMap
import GmMiner.Time
import Mathlib.Data.List.Basic

/-!
The pool of attested connections and the leases of their response bodies
(`Attested`, `Pool` and `Lease` of `attestd/src/attested_pool.rs`).

A connection is told from others by a number. Both of `sender.is_closed()` and
`driver.is_finished()` are read from the set of closed transports, which grows at
any time. A response body is how many frames it still has, whether it then fails,
and whether its `is_end_stream` notices the end ahead of a last poll.

`countIn` counts how often a list holds a connection; what `take`, `giveBack` and
the lease do to it is all the ownership argument needs of them.
-/

namespace GmMiner.AttestedPool

open GmMiner.Lib

/-- `MAX_AGE`. -/
def maxAge : Duration := Duration.fromSecs (10 * 60)

/-- `MAX_IDLE_AGE`. -/
def maxIdleAge : Duration := Duration.fromSecs 90

structure PoolLimits where
  age : Duration
  idleAge : Option Duration
  requests : Nat
  idle : Nat
  deriving DecidableEq, Repr

/-- `PoolLimits::default`. -/
def PoolLimits.default : PoolLimits := ⟨maxAge, some maxIdleAge, 100, 8⟩

structure Attested where
  id : Nat
  attestedAt : Instant
  idleSince : Option Instant
  expiresAt : Option DateTime
  requests : Nat
  deriving DecidableEq, Repr

/-- What `usable` reads besides the connection: both clocks, and which transports
are closed. -/
structure Reading where
  now : Instant
  wall : DateTime
  closed : Finset Nat

/-- `Attested::usable`. -/
def Attested.usable (limits : PoolLimits) (reading : Reading) (connection : Attested) : Bool :=
  connection.expiresAt.all (fun deadline => decide (reading.wall < deadline)) &&
    decide (reading.now - connection.attestedAt < limits.age) &&
    connection.idleSince.all (fun idleSince =>
      limits.idleAge.all fun most => decide (reading.now - idleSince < most)) &&
    decide (connection.requests < limits.requests) &&
    decide (connection.id ∉ reading.closed)

/-- A usable connection is unexpired, young enough and has requests left. -/
theorem Attested.of_usable {limits : PoolLimits} {reading : Reading} {connection : Attested}
    (usable : connection.usable limits reading = true) :
    (∀ deadline, connection.expiresAt = some deadline → reading.wall < deadline) ∧
      reading.now - connection.attestedAt < limits.age ∧
      connection.requests < limits.requests := by
  unfold Attested.usable at usable
  simp only [Bool.and_eq_true, decide_eq_true_eq] at usable
  obtain ⟨⟨⟨⟨deadline, young⟩, -⟩, few⟩, -⟩ := usable
  refine ⟨?_, young, few⟩
  intro until_ expires
  rw [expires] at deadline
  exact of_decide_eq_true deadline

/-! ### Counting connections -/

/-- How often the connections include the one of this number. -/
def countIn (id : Nat) (connections : List Attested) : Nat :=
  connections.countP fun connection => connection.id == id

@[simp] theorem countIn_nil (id : Nat) : countIn id [] = 0 := rfl

@[simp] theorem countIn_append (id : Nat) (first second : List Attested) :
    countIn id (first ++ second) = countIn id first + countIn id second :=
  List.countP_append

theorem countIn_singleton (id : Nat) (connection : Attested) :
    countIn id [connection] = if connection.id = id then 1 else 0 := by
  simp [countIn, List.countP_cons]

theorem countIn_filter_le (id : Nat) (keep : Attested → Bool) (connections : List Attested) :
    countIn id (connections.filter keep) ≤ countIn id connections :=
  List.filter_sublist.countP_le

theorem countIn_pos {id : Nat} {connections : List Attested} {connection : Attested}
    (mem : connection ∈ connections) (named : connection.id = id) : 0 < countIn id connections :=
  List.countP_pos_iff.mpr ⟨connection, mem, by simpa using named⟩

/-! ### The pool -/

/-- `Pool::take`: sweep the pool, then hand out its last connection. -/
def take (limits : PoolLimits) (reading : Reading) (idle : List Attested) :
    Option Attested × List Attested :=
  let kept := idle.filter (Attested.usable limits reading)
  (kept.getLast?, kept.dropLast)

/-- `Pool::give_back`. -/
def giveBack (limits : PoolLimits) (reading : Reading) (connection : Attested)
    (idle : List Attested) : List Attested :=
  let connection := { connection with idleSince := some reading.now }
  if connection.usable limits reading then
    let kept := idle.filter (Attested.usable limits reading)
    if kept.length < limits.idle then kept ++ [connection] else kept
  else idle

section Pool

variable {limits : PoolLimits} {reading : Reading} {idle : List Attested}

/-- Taking a connection holds none twice. -/
theorem countIn_take (limits : PoolLimits) (reading : Reading) (idle : List Attested) (id : Nat) :
    countIn id (take limits reading idle).1.toList + countIn id (take limits reading idle).2 ≤
      countIn id idle := by
  refine le_trans (le_of_eq ?_) (countIn_filter_le id (Attested.usable limits reading) idle)
  unfold take
  dsimp only
  rcases List.eq_nil_or_concat (idle.filter (Attested.usable limits reading)) with none |
    ⟨kept, last, some_⟩
  · rw [none]
    rfl
  · rw [some_, List.concat_eq_append, List.getLast?_concat, List.dropLast_concat, countIn_append,
      Option.toList_some, add_comm]

theorem mem_of_take {connection : Attested} (mem : connection ∈ (take limits reading idle).2) :
    connection ∈ idle :=
  List.mem_of_mem_filter (List.dropLast_subset _ mem)

theorem mem_of_taken {connection : Attested}
    (taken : (take limits reading idle).1 = some connection) : connection ∈ idle :=
  List.mem_of_mem_filter (List.mem_of_getLast? taken)

theorem length_take_le : (take limits reading idle).2.length ≤ idle.length := by
  unfold take
  dsimp only
  rw [List.length_dropLast]
  exact (Nat.sub_le _ _).trans (List.length_filter_le _ _)

/-- Giving a connection back holds none twice. -/
theorem countIn_giveBack_le (limits : PoolLimits) (reading : Reading) (idle : List Attested)
    (id : Nat) (connection : Attested) :
    countIn id (giveBack limits reading connection idle) ≤
      countIn id idle + countIn id [connection] := by
  have swept := countIn_filter_le id (Attested.usable limits reading) idle
  unfold giveBack
  dsimp only
  split
  · split
    · rw [countIn_append, countIn_singleton, countIn_singleton]
      exact Nat.add_le_add_right swept _
    · exact swept.trans (Nat.le_add_right _ _)
  · exact Nat.le_add_right _ _

/-- After one is given back, the pool has its old connections and that one, idle
since now. -/
theorem mem_giveBack {connection other : Attested}
    (mem : other ∈ giveBack limits reading connection idle) :
    other ∈ idle ∨ other = { connection with idleSince := some reading.now } := by
  unfold giveBack at mem
  dsimp only at mem
  split at mem
  · split at mem
    · rcases List.mem_append.mp mem with kept | last
      · exact .inl (List.mem_of_mem_filter kept)
      · exact .inr (List.mem_singleton.mp last)
    · exact .inl (List.mem_of_mem_filter mem)
  · exact .inl mem

/-- A pool within its limit stays there. -/
theorem length_giveBack_le (connection : Attested) (within : idle.length ≤ limits.idle) :
    (giveBack limits reading connection idle).length ≤ limits.idle := by
  have swept := (List.length_filter_le (Attested.usable limits reading) idle).trans within
  unfold giveBack
  dsimp only
  split
  · split
    · rename_i room
      rw [List.length_append, List.length_singleton]
      exact room
    · exact swept
  · exact within

end Pool

/-! ### Leases -/

structure ResponseBody where
  frames : Nat
  fails : Bool
  hintsEnd : Bool
  deriving DecidableEq, Repr

def ResponseBody.isEndStream (body : ResponseBody) : Bool :=
  body.frames == 0 && !body.fails && body.hintsEnd

/-- What a poll of a body gives, apart from `Pending`. -/
inductive Polled
  | frame
  | failed
  | ended
  deriving DecidableEq, Repr

def ResponseBody.poll (body : ResponseBody) : Polled × ResponseBody :=
  match body.frames with
  | frames + 1 => (.frame, { body with frames := frames })
  | 0 => if body.fails then (.failed, { body with fails := false }) else (.ended, body)

structure Lease where
  body : ResponseBody
  connection : Option Attested
  deriving DecidableEq, Repr

namespace Lease

/-- The lease's connection, if any, goes back to the pool. -/
def release (limits : PoolLimits) (reading : Reading) (lease : Lease) (idle : List Attested) :
    Lease × List Attested :=
  match lease.connection with
  | some connection =>
      ({ lease with connection := none }, giveBack limits reading connection idle)
  | none => (lease, idle)

/-- `Lease::give_back_if_read`. -/
def giveBackIfRead (limits : PoolLimits) (reading : Reading) (lease : Lease)
    (idle : List Attested) : Lease × List Attested :=
  if lease.body.isEndStream then lease.release limits reading idle else (lease, idle)

/-- `Lease::new`. -/
def new (limits : PoolLimits) (reading : Reading) (body : ResponseBody) (connection : Attested)
    (idle : List Attested) : Lease × List Attested :=
  giveBackIfRead limits reading ⟨body, some connection⟩ idle

/-- `Lease::poll_frame`. -/
def pollFrame (limits : PoolLimits) (reading : Reading) (lease : Lease) (idle : List Attested) :
    Polled × Lease × List Attested :=
  let polled := lease.body.poll
  let lease := { lease with body := polled.2 }
  (polled.1, match polled.1 with
    | .ended => lease.release limits reading idle
    | .failed => ({ lease with connection := none }, idle)
    | .frame => lease.giveBackIfRead limits reading idle)

section Lease

variable (limits : PoolLimits) (reading : Reading) (idle : List Attested) (id : Nat)

/-- A release moves the connection, it never copies it. -/
theorem countIn_release_le (lease : Lease) :
    countIn id (lease.release limits reading idle).2 +
        countIn id (lease.release limits reading idle).1.connection.toList ≤
      countIn id idle + countIn id lease.connection.toList := by
  unfold release
  split
  · rename_i connection holds
    rw [holds]
    exact countIn_giveBack_le limits reading idle id connection
  · rfl

theorem countIn_giveBackIfRead_le (lease : Lease) :
    countIn id (lease.giveBackIfRead limits reading idle).2 +
        countIn id (lease.giveBackIfRead limits reading idle).1.connection.toList ≤
      countIn id idle + countIn id lease.connection.toList := by
  unfold giveBackIfRead
  split
  · exact countIn_release_le limits reading idle id lease
  · rfl

/-- The same of one poll of the body. -/
theorem countIn_pollFrame_le (lease : Lease) :
    countIn id (lease.pollFrame limits reading idle).2.2 +
        countIn id (lease.pollFrame limits reading idle).2.1.connection.toList ≤
      countIn id idle + countIn id lease.connection.toList := by
  unfold pollFrame
  dsimp only
  split
  · exact countIn_release_le limits reading idle id { lease with body := lease.body.poll.2 }
  · exact Nat.add_le_add_left (Nat.zero_le _) _
  · exact countIn_giveBackIfRead_le limits reading idle id { lease with body := lease.body.poll.2 }

variable {limits idle}

theorem length_giveBackIfRead_le (lease : Lease) (within : idle.length ≤ limits.idle) :
    (lease.giveBackIfRead limits reading idle).2.length ≤ limits.idle := by
  unfold giveBackIfRead release
  split
  · split
    · exact length_giveBack_le _ within
    · exact within
  · exact within

/-- The same of one poll of the body. -/
theorem length_pollFrame_le (lease : Lease) (within : idle.length ≤ limits.idle) :
    (lease.pollFrame limits reading idle).2.2.length ≤ limits.idle := by
  unfold pollFrame release
  dsimp only
  split
  · split
    · exact length_giveBack_le _ within
    · exact within
  · exact within
  · exact length_giveBackIfRead_le reading _ within

end Lease

end Lease

end GmMiner.AttestedPool
