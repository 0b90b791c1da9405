import GmMiner.Chutes.Scopes
import Mathlib.Algebra.GroupWithZero.Nat

/-!
One chute's admission state and the ledger of issued nonces (`ChuteState`,
`NonceLedger`, `deadline` of `attestd/src/chutes_verify/admission.rs`, `Discovery`
of `attestd/src/chutes_verify/evidence.rs` and the batch of verdicts
`LiveChutes::admit` returns).

Every function here runs under a lock and is given the instants it reads. A
`Discovery` carries what its parser checked, so the pool of a state never repeats
an instance. `takeTicket` is `ChuteState::take_ticket` with the ledger it locks;
its specification is `takeTicket_cases`.
-/

namespace GmMiner.Chutes

open GmMiner.Lib

def refreshAhead : Duration := Duration.fromSecs (5 * 60)
def renewJitter : Duration := Duration.fromSecs 60
def minRenewalInterval : Duration := Duration.fromSecs (2 * 60)
def rejectionTtl : Duration := Duration.fromSecs 60
def maxIssuedNonces : Nat := 65536
def nonceMargin : Duration := Duration.fromSecs 5
def maxAdmissionsPerRequest : Nat := 2
def maxDiscoveriesPerRequest : Nat := 2
def maxInstances : Nat := 5
def maxNonceLifetimeSecs : Nat := 75

/-! ### Discovery -/

structure DiscoveredInstance where
  instanceId : String
  e2ePubkey : String
  nonces : List String
  deriving DecidableEq, Repr

abbrev InstanceKey := String × String

def DiscoveredInstance.key (inst : DiscoveredInstance) : InstanceKey :=
  (inst.instanceId, inst.e2ePubkey)

/-- No instance id, and no key, is repeated. -/
def DistinctInstances (instances : List DiscoveredInstance) : Prop :=
  instances.Pairwise fun a b => a.instanceId ≠ b.instanceId ∧ a.e2ePubkey ≠ b.e2ePubkey

/-- A discovery body that passed validation. -/
structure Discovery where
  instances : List DiscoveredInstance
  nonceExpiresIn : Nat
  sized : 1 ≤ instances.length ∧ instances.length ≤ maxInstances
  lifetime : 1 ≤ nonceExpiresIn ∧ nonceExpiresIn ≤ maxNonceLifetimeSecs
  distinct : DistinctInstances instances
  freshNonces : (instances.flatMap DiscoveredInstance.nonces).Nodup
  deriving DecidableEq

namespace Discovery

def nonceLifetime (discovery : Discovery) : Duration := Duration.fromSecs discovery.nonceExpiresIn

/-- The loop of `Discovery::parse` over the instances, with those before it. -/
def checkInstances (validatePublicKey : String → Except String Unit)
    (before : List DiscoveredInstance) : List DiscoveredInstance → Except String Unit
  | [] => .ok ()
  | inst :: rest =>
      match validatePublicKey inst.e2ePubkey with
      | .error cause => .error ("instance " ++ inst.instanceId ++ ": " ++ cause)
      | .ok () =>
          if before.all fun other =>
              other.instanceId != inst.instanceId && other.e2ePubkey != inst.e2ePubkey then
            checkInstances validatePublicKey (before ++ [inst]) rest
          else .error
            ("Chutes discovery repeats instance " ++ inst.instanceId ++ " or its key")

/-- Instances that pass the check have distinct keys. -/
theorem distinct_of_checkInstances {validatePublicKey : String → Except String Unit}
    {before rest : List DiscoveredInstance} (distinct : DistinctInstances before)
    (passed : checkInstances validatePublicKey before rest = .ok ()) :
    DistinctInstances (before ++ rest) := by
  induction rest generalizing before with
  | nil => simpa using distinct
  | cons inst rest ih =>
      unfold checkInstances at passed
      split at passed
      · cases passed
      · split at passed
        · rename_i fresh
          have extended : DistinctInstances (before ++ [inst]) := by
            refine List.pairwise_append.mpr ⟨distinct, List.pairwise_singleton _ _, ?_⟩
            intro other mem last here
            cases List.mem_singleton.mp here
            simpa using List.all_eq_true.mp fresh other mem
          simpa using ih extended passed
        · cases passed

/-- `Discovery::parse` of a decoded body; the key check is a parameter. -/
def parse (validatePublicKey : String → Except String Unit)
    (instances : List DiscoveredInstance) (nonceExpiresIn : Nat) : Except String Discovery :=
  if sized : 1 ≤ instances.length ∧ instances.length ≤ maxInstances then
    if lifetime : 1 ≤ nonceExpiresIn ∧ nonceExpiresIn ≤ maxNonceLifetimeSecs then
      match checked : checkInstances validatePublicKey [] instances with
      | .error cause => .error cause
      | .ok () =>
          if freshNonces : (instances.flatMap DiscoveredInstance.nonces).Nodup then
            .ok ⟨instances, nonceExpiresIn, sized, lifetime,
              distinct_of_checkInstances List.Pairwise.nil checked, freshNonces⟩
          else .error "Chutes discovery repeats an invocation nonce"
    else .error ("Chutes nonce lifetime " ++ toString nonceExpiresIn ++ "s is outside 1..=" ++
      toString maxNonceLifetimeSecs ++ "s")
  else .error ("Chutes discovery returned " ++ toString instances.length ++ " instances")

theorem nodup_keys (discovery : Discovery) :
    (discovery.instances.map DiscoveredInstance.key).Nodup :=
  List.pairwise_map.mpr (discovery.distinct.imp fun apart same => apart.1 (congrArg Prod.fst same))

end Discovery

/-! ### Verdicts -/

inductive Outcome
  | admitted (untilAt : Instant)
  | rejected (cause : String)
  | noEvidence
  deriving DecidableEq, Repr

structure Verdict where
  instanceId : String
  e2ePubkey : String
  outcome : Outcome
  deriving DecidableEq, Repr

def Verdict.key (verdict : Verdict) : InstanceKey := (verdict.instanceId, verdict.e2ePubkey)

/-- The absolute deadline for evidence expiring at `expiresUnix`, from an anchor
taken when the wall clock read `anchorWall`, capped at `admissionTtl`. -/
def deadline (anchor : Instant) (anchorWall : Duration) (expiresUnix : Nat) : Instant :=
  anchor + min (Duration.fromSecs expiresUnix - anchorWall) admissionTtl

/-- What checking one instance's evidence gives: `admit_instance` is not modelled. -/
inductive Answer
  | expires (expiresUnix : Nat)
  | failed (cause : String)
  | noRow
  deriving DecidableEq, Repr

def Answer.outcome (anchor : Instant) (anchorWall : Duration) : Answer → Outcome
  | expires expiresUnix => .admitted (deadline anchor anchorWall expiresUnix)
  | failed cause => .rejected cause
  | noRow => .noEvidence

/-- The verdicts of `LiveChutes::admit`: one for each instance, in order. -/
def admitAll (anchor : Instant) (anchorWall : Duration)
    (judged : List (DiscoveredInstance × Answer)) : List Verdict :=
  judged.map fun (inst, answer) =>
    ⟨inst.instanceId, inst.e2ePubkey, answer.outcome anchor anchorWall⟩

/-! ### The ledger of issued nonces -/

abbrev NonceLedger := HashMap (String × String) Instant

namespace NonceLedger

def prune (ledger : NonceLedger) (now : Instant) : NonceLedger :=
  ledger.retain fun _ untilAt => now < untilAt

/-- Record `nonce` as issued; `false` when it already was. -/
def record (ledger : NonceLedger) (capacity : Nat) (chuteId nonce : String)
    (validUntil : Instant) : Except ChutesError Bool × NonceLedger :=
  if (chuteId, nonce) ∈ ledger then (.ok false, ledger)
  else if capacity ≤ ledger.size then
    (.error (.unavailable (toString capacity ++
      " unexpired nonces already issued; refusing to issue more")), ledger)
  else (.ok true, ledger.insert (chuteId, nonce) validUntil)

end NonceLedger

/-! ### The state of a chute -/

structure Ticket where
  instanceId : String
  e2ePubkey : String
  nonce : String
  deriving DecidableEq, Repr

def Ticket.key (ticket : Ticket) : InstanceKey := (ticket.instanceId, ticket.e2ePubkey)

structure ChuteState where
  pool : List DiscoveredInstance
  issueUntil : Option Instant
  validUntil : Option Instant
  admitted : HashMap InstanceKey Instant
  rejected : HashMap InstanceKey (Instant × String)
  lastServed : Option Instant
  generation : Nat
  decided : HashMap InstanceKey Nat
  renewalSince : Option Nat
  lastRecorded : Option Instant
  /-- The task keeping the chute's admissions renewed, by its handle. -/
  renewal : Option Nat
  deriving DecidableEq

namespace ChuteState

def fresh : ChuteState := ⟨[], none, none, ∅, ∅, none, 0, ∅, none, none, none⟩

def prune (state : ChuteState) (now : Instant) : ChuteState :=
  let admitted := state.admitted.retain fun _ untilAt => now < untilAt
  let rejected := state.rejected.retain fun _ rejection => now < rejection.1
  let decided := state.decided.retain fun key at_ =>
    decide (key ∈ admitted) || decide (key ∈ rejected) ||
      state.renewalSince.any fun since => since < at_
  let pool := if state.issueUntil.all fun untilAt => untilAt ≤ now then [] else state.pool
  { state with
    admitted := admitted
    rejected := rejected
    decided := decided
    pool := pool.filter fun inst => !inst.nonces.isEmpty }

def eligible (state : ChuteState) (avoid : List String) (inst : DiscoveredInstance) : Bool :=
  !inst.nonces.isEmpty && decide (inst.key ∈ state.admitted) &&
    !avoid.contains inst.instanceId

/-- One turn of `take_ticket`'s scan over the pool. -/
def scanInstance (state : ChuteState) (avoid : List String) (chosen : Option Nat)
    (entry : DiscoveredInstance × Nat) : Option Nat :=
  let fuller := chosen.all fun best =>
    ((state.pool[best]?).elim 0 fun other => other.nonces.length) < entry.1.nonces.length
  if state.eligible avoid entry.1 && fuller then some entry.2 else chosen

/-- The first of the eligible instances with the most nonces. -/
def choose (state : ChuteState) (avoid : List String) : Option Nat :=
  state.pool.zipIdx.foldl (state.scanInstance avoid) none

/-- The nonces left in the pool, which every turn of `take_ticket`'s loop lowers. -/
def nonceCount (pool : List DiscoveredInstance) : Nat :=
  (pool.map fun inst => inst.nonces.length).sum

/-- `self.pool[index].nonces.pop()`. -/
def popNonce (pool : List DiscoveredInstance) (index : Nat) :
    Option (DiscoveredInstance × String × List DiscoveredInstance) :=
  match pool[index]? with
  | some inst =>
      match inst.nonces.getLast? with
      | some nonce =>
          some (inst, nonce, pool.set index { inst with nonces := inst.nonces.dropLast })
      | none => none
  | none => none

/-- Replacing an instance counts its nonces in place of the old one's. -/
theorem nonceCount_set {pool : List DiscoveredInstance} {index : Nat}
    {found : DiscoveredInstance} (at_ : pool[index]? = some found) (inst : DiscoveredInstance) :
    nonceCount (pool.set index inst) + found.nonces.length =
      nonceCount pool + inst.nonces.length := by
  induction pool generalizing index with
  | nil => cases at_
  | cons head rest ih =>
      cases index with
      | zero =>
          cases at_
          simp only [nonceCount, List.set_cons_zero, List.map_cons, List.sum_cons]
          omega
      | succ index =>
          have tail := ih at_
          simp only [nonceCount, List.set_cons_succ, List.map_cons, List.sum_cons] at tail ⊢
          omega

/-- A nonce is popped from the end of the instance's own list. -/
theorem popNonce_eq_some {pool left : List DiscoveredInstance} {index : Nat}
    {inst : DiscoveredInstance} {nonce : String}
    (popped : popNonce pool index = some (inst, nonce, left)) :
    pool[index]? = some inst ∧ inst.nonces.getLast? = some nonce ∧
      left = pool.set index { inst with nonces := inst.nonces.dropLast } := by
  unfold popNonce at popped
  split at popped
  · rename_i found at_
    split at popped
    · rename_i last has
      cases popped
      exact ⟨at_, has, rfl⟩
    · cases popped
  · cases popped

/-- A pop takes a nonce from the count. -/
theorem nonceCount_popNonce {pool left : List DiscoveredInstance} {index : Nat}
    {inst : DiscoveredInstance} {nonce : String}
    (popped : popNonce pool index = some (inst, nonce, left)) :
    nonceCount left < nonceCount pool := by
  obtain ⟨at_, last, rfl⟩ := popNonce_eq_some popped
  have set := nonceCount_set at_ { inst with nonces := inst.nonces.dropLast }
  have nonempty : 0 < inst.nonces.length := List.length_pos_of_mem (List.mem_of_getLast? last)
  simp only [List.length_dropLast] at set
  omega

/-- The loop of `take_ticket`, under the ledger's lock: nonces that were already
issued are discarded until one is not. -/
def takeLoop (capacity : Nat) (chuteId : String) (avoid : List String) (validUntil : Instant)
    (state : ChuteState) (ledger : NonceLedger) :
    Except ChutesError (Option Ticket) × ChuteState × NonceLedger :=
  match state.choose avoid with
  | none => (.ok none, state, ledger)
  | some index =>
      match _popped : popNonce state.pool index with
      | none => (.ok none, state, ledger)
      | some (inst, nonce, pool) =>
          let state' := { state with pool := pool }
          match ledger.record capacity chuteId nonce validUntil with
          | (.error error, ledger') => (.error error, state', ledger')
          | (.ok true, ledger') =>
              (.ok (some ⟨inst.instanceId, inst.e2ePubkey, nonce⟩), state', ledger')
          | (.ok false, ledger') => takeLoop capacity chuteId avoid validUntil state' ledger'
termination_by nonceCount state.pool
decreasing_by exact nonceCount_popNonce _popped

/-- `ChuteState::take_ticket`; `now` is read under the ledger's lock. -/
def takeTicket (state : ChuteState) (capacity : Nat) (ledger : NonceLedger) (chuteId : String)
    (avoid : List String) (now : Instant) :
    Except ChutesError (Option Ticket) × ChuteState × NonceLedger :=
  match state.validUntil with
  | none => (.ok none, state, ledger)
  | some validUntil => takeLoop capacity chuteId avoid validUntil state (ledger.prune now)

def unjudged (state : ChuteState) : List DiscoveredInstance :=
  state.pool.filter fun inst =>
    decide (inst.key ∉ state.admitted) && decide (inst.key ∉ state.rejected)

def warm (state : ChuteState) (now : Instant) : Bool :=
  state.lastServed.any fun served => now < served + admissionTtl

/-- The admitted instances whose admission ends by `by_`, in no order. -/
def expiring (state : ChuteState) (by_ : Instant) : Finset InstanceKey :=
  (state.admitted.retain fun _ untilAt => untilAt ≤ by_).keys

/-- Whether a later batch than the one that began at `since` decided the instance. -/
def superseded (state : ChuteState) (since : Option Nat) (key : InstanceKey) : Bool :=
  since.any fun since => (state.decided.lookup key).any fun at_ => since < at_

/-- One verdict of `record`, at the batch's own generation. -/
def recordVerdict (now : Instant) (since : Option Nat) (state : ChuteState) (verdict : Verdict) :
    ChuteState :=
  let key := verdict.key
  match verdict.outcome with
  | .admitted untilAt =>
      if state.superseded since key then state
      else { state with
        admitted := state.admitted.insert key untilAt
        decided := state.decided.insert key state.generation }
  | .rejected cause =>
      { state with
        admitted := state.admitted.erase key
        rejected := state.rejected.insert key (now + rejectionTtl, cause)
        decided := state.decided.insert key state.generation }
  | .noEvidence => state

def record (state : ChuteState) (verdicts : List Verdict) (now : Instant) (since : Option Nat) :
    ChuteState :=
  verdicts.foldl (recordVerdict now since)
    { state with generation := state.generation + 1, lastRecorded := some now }

def refill (state : ChuteState) (discovery : Discovery) (asked received : Instant) :
    ChuteState :=
  let lifetime := discovery.nonceLifetime
  { state with
    issueUntil := some ((Instant.checkedSub (asked + lifetime) nonceMargin).getD asked)
    validUntil := some (received + lifetime + nonceMargin)
    pool := discovery.instances }

/-! ### What pruning leaves -/

theorem prune_admitted {state : ChuteState} {now untilAt : Instant} {key : InstanceKey} :
    (state.prune now).admitted.lookup key = some untilAt ↔
      state.admitted.lookup key = some untilAt ∧ now < untilAt := by
  simp only [prune, Finmap.lookup_retain_eq_some, decide_eq_true_eq]

theorem prune_pool_sublist (state : ChuteState) (now : Instant) :
    (state.prune now).pool.Sublist state.pool := by
  unfold prune
  dsimp only
  split
  · exact List.nil_sublist _
  · exact List.filter_sublist

/-- Nothing stays in the pool once its nonces may no longer be issued. -/
theorem prune_pool_issuable (state : ChuteState) {now : Instant} {inst : DiscoveredInstance}
    (pooled : inst ∈ (state.prune now).pool) : ∃ untilAt, state.issueUntil = some untilAt ∧
      now < untilAt := by
  unfold prune at pooled
  dsimp only at pooled
  split at pooled
  · cases pooled
  · rename_i running
    cases set : state.issueUntil with
    | none => simp [set] at running
    | some untilAt => exact ⟨untilAt, rfl, by simpa [set] using running⟩

/-- A decision later than a running renewal survives pruning. -/
theorem prune_decided {state : ChuteState} {now : Instant} {key : InstanceKey} {at_ since : Nat}
    (decided : state.decided.lookup key = some at_) (running : state.renewalSince = some since)
    (later : since < at_) : (state.prune now).decided.lookup key = some at_ := by
  unfold prune
  dsimp only
  rw [Finmap.lookup_retain_eq_some]
  exact ⟨decided, by simp [running, later]⟩

theorem prune_decided_subset {state : ChuteState} {now : Instant} {key : InstanceKey} {at_ : Nat}
    (decided : (state.prune now).decided.lookup key = some at_) :
    state.decided.lookup key = some at_ :=
  (Finmap.lookup_retain_eq_some.mp decided).1

/-! ### What a ticket takes -/

/-- The same instances, with no nonce added to any. -/
def Shrunk (left pool : List DiscoveredInstance) : Prop :=
  List.Forall₂ (fun a b => a.key = b.key ∧ a.nonces ⊆ b.nonces) left pool

theorem Shrunk.refl (pool : List DiscoveredInstance) : Shrunk pool pool :=
  List.forall₂_same.mpr fun _ _ => ⟨rfl, fun _ mem => mem⟩

theorem Shrunk.trans {a b c : List DiscoveredInstance} (first : Shrunk a b) (second : Shrunk b c) :
    Shrunk a c := by
  induction first generalizing c with
  | nil => exact second
  | cons here _ ih =>
      cases second with
      | cons there rest =>
          exact .cons ⟨here.1.trans there.1, List.Subset.trans here.2 there.2⟩ (ih rest)

theorem Shrunk.keys {left pool : List DiscoveredInstance} (shrunk : Shrunk left pool) :
    left.map DiscoveredInstance.key = pool.map DiscoveredInstance.key := by
  induction shrunk with
  | nil => rfl
  | cons here _ ih => rw [List.map_cons, List.map_cons, here.1, ih]

/-- An instance of a shrunk pool was there, with those nonces and perhaps more. -/
theorem Shrunk.mem {left pool : List DiscoveredInstance} (shrunk : Shrunk left pool)
    {inst : DiscoveredInstance} (mem : inst ∈ left) :
    ∃ other ∈ pool, inst.key = other.key ∧ inst.nonces ⊆ other.nonces := by
  induction shrunk with
  | nil => cases mem
  | cons here _ ih =>
      rcases List.mem_cons.mp mem with rfl | later
      · exact ⟨_, List.mem_cons_self, here⟩
      · obtain ⟨other, also, same⟩ := ih later
        exact ⟨other, List.mem_cons_of_mem _ also, same⟩

/-- A pool shrinks as one of its instances loses nonces. -/
theorem Shrunk.of_set {pool : List DiscoveredInstance} {index : Nat} {found : DiscoveredInstance}
    (at_ : pool[index]? = some found) {inst : DiscoveredInstance} (key : inst.key = found.key)
    (nonces : inst.nonces ⊆ found.nonces) : Shrunk (pool.set index inst) pool := by
  induction pool generalizing index with
  | nil => cases at_
  | cons head rest ih =>
      cases index with
      | zero =>
          cases at_
          exact .cons ⟨key, nonces⟩ (Shrunk.refl rest)
      | succ index => exact .cons ⟨rfl, fun _ mem => mem⟩ (ih at_)

/-- What the scan chooses is eligible. -/
theorem eligible_of_choose {state : ChuteState} {avoid : List String} {index : Nat}
    (chosen : state.choose avoid = some index) :
    ∃ inst, state.pool[index]? = some inst ∧ state.eligible avoid inst = true := by
  -- The accumulator names an eligible instance at every point of the scan.
  refine List.foldlRecOn (motive := fun best => ∀ at_, best = some at_ →
    ∃ inst, state.pool[at_]? = some inst ∧ state.eligible avoid inst = true)
    state.pool.zipIdx (state.scanInstance avoid) (fun _ none => by cases none) ?_ index chosen
  intro best sound entry mem at_ last
  unfold scanInstance at last
  dsimp only at last
  split at last
  · rename_i taken
    cases last
    exact ⟨entry.1, List.mem_zipIdx_iff_getElem?.mp mem, (Bool.and_eq_true_iff.mp taken).1⟩
  · exact sound at_ last

/-- A ticket was issued: its nonce was in no unexpired record, and it names an
admitted instance of the pool that advertised the nonce. -/
structure Issues (state : ChuteState) (capacity : Nat) (ledger : NonceLedger) (chuteId : String)
    (avoid : List String) (validUntil : Instant) (ticket : Ticket) (left : ChuteState)
    (recorded : NonceLedger) : Prop where
  unrecorded : (chuteId, ticket.nonce) ∉ ledger
  room : ledger.size < capacity
  records : recorded = ledger.insert (chuteId, ticket.nonce) validUntil
  admitted : ticket.key ∈ state.admitted
  advertised : ∃ inst ∈ state.pool, inst.key = ticket.key ∧ ticket.nonce ∈ inst.nonces
  pooled : ∃ inst ∈ left.pool, inst.key = ticket.key
  notAvoided : ticket.instanceId ∉ avoid

/-- A nonce is recorded if it is unrecorded and there is room. -/
theorem record_cases (ledger : NonceLedger) (capacity : Nat) (chuteId nonce : String)
    (validUntil : Instant) :
    let done := ledger.record capacity chuteId nonce validUntil
    ((done.1 = .ok false ∨ ∃ error, done.1 = .error error) ∧ done.2 = ledger) ∨
    (done.1 = .ok true ∧ (chuteId, nonce) ∉ ledger ∧ ledger.size < capacity ∧
      done.2 = ledger.insert (chuteId, nonce) validUntil) := by
  intro done
  simp only [done, NonceLedger.record]
  split
  · exact .inl ⟨.inl rfl, rfl⟩
  · rename_i absent
    split
    · exact .inl ⟨.inr ⟨_, rfl⟩, rfl⟩
    · rename_i room
      exact .inr ⟨rfl, absent, not_le.mp room, rfl⟩

/-- How taking a ticket ends: it only took nonces out of the pool, and either a
ticket is recorded in the ledger or the ledger is as it was. -/
structure TakeOutcome (state : ChuteState) (capacity : Nat) (ledger : NonceLedger)
    (chuteId : String) (avoid : List String) (validUntil : Instant)
    (out : Except ChutesError (Option Ticket) × ChuteState × NonceLedger) : Prop where
  onlyPool : out.2.1 = { state with pool := out.2.1.pool }
  shrunk : Shrunk out.2.1.pool state.pool
  result : (∃ ticket, out.1 = .ok (some ticket) ∧
      Issues state capacity ledger chuteId avoid validUntil ticket out.2.1 out.2.2) ∨
    (∀ ticket, out.1 ≠ .ok (some ticket)) ∧ out.2.2 = ledger

private theorem shrunk_popNonce {pool left : List DiscoveredInstance} {index : Nat}
    {inst : DiscoveredInstance} {nonce : String}
    (popped : popNonce pool index = some (inst, nonce, left)) : Shrunk left pool := by
  obtain ⟨at_, -, rfl⟩ := popNonce_eq_some popped
  exact Shrunk.of_set at_ rfl (List.dropLast_subset _)

/-- The loop stops at a nonce it recorded, or when none is left or the ledger is
full. -/
theorem takeLoop_outcome (capacity : Nat) (chuteId : String) (avoid : List String)
    (validUntil : Instant) (state : ChuteState) (ledger : NonceLedger) :
    TakeOutcome state capacity ledger chuteId avoid validUntil
      (takeLoop capacity chuteId avoid validUntil state ledger) := by
  fun_induction takeLoop capacity chuteId avoid validUntil state ledger with
  | case1 state ledger none => exact ⟨rfl, Shrunk.refl _, .inr ⟨nofun, rfl⟩⟩
  | case2 state ledger index chosen none => exact ⟨rfl, Shrunk.refl _, .inr ⟨nofun, rfl⟩⟩
  | case3 state ledger index chosen inst nonce pool popped left error ledger' recorded =>
      rcases record_cases ledger capacity chuteId nonce validUntil with ⟨-, same⟩ | ⟨answer, -⟩
      · rw [recorded] at same
        exact ⟨rfl, shrunk_popNonce popped, .inr ⟨nofun, same⟩⟩
      · rw [recorded] at answer
        cases answer
  | case4 state ledger index chosen inst nonce pool popped left ledger' recorded =>
      rcases record_cases ledger capacity chuteId nonce validUntil with
        ⟨answer, -⟩ | ⟨-, absent, room, inserted⟩
      · rw [recorded] at answer
        rcases answer with answer | ⟨error, answer⟩
        · cases answer
        · cases answer
      · rw [recorded] at inserted
        obtain ⟨found, at_, eligible⟩ := eligible_of_choose chosen
        obtain ⟨same, last, rfl⟩ := popNonce_eq_some popped
        cases at_.symm.trans same
        simp only [ChuteState.eligible, Bool.and_eq_true, decide_eq_true_eq, Bool.not_eq_true',
          List.contains_eq_mem, decide_eq_false_iff_not] at eligible
        obtain ⟨lt, rfl⟩ := List.getElem?_eq_some_iff.mp at_
        refine ⟨rfl, shrunk_popNonce popped, .inl ⟨_, rfl, ?_⟩⟩
        exact {
          unrecorded := absent
          room := room
          records := inserted
          admitted := eligible.1.2
          advertised := ⟨_, List.getElem_mem lt, rfl, List.mem_of_getLast? last⟩
          pooled := ⟨_, List.mem_set lt _, rfl⟩
          notAvoided := eligible.2 }
  -- The nonce was recorded already: it is dropped, and the loop takes the next one.
  | case5 state ledger index chosen inst nonce pool popped left ledger' recorded ih =>
      rcases record_cases ledger capacity chuteId nonce validUntil with ⟨-, same⟩ | ⟨answer, -⟩
      · rw [recorded] at same
        subst same
        refine ⟨?_, ih.shrunk.trans (shrunk_popNonce popped), ?_⟩
        · rw [ih.onlyPool]
        · rcases ih.result with ⟨ticket, issued, facts⟩ | other
          · refine .inl ⟨ticket, issued, ?_⟩
            obtain ⟨inst', mem, key, has⟩ := facts.advertised
            obtain ⟨before, also, sameKey, fewer⟩ := (shrunk_popNonce popped).mem mem
            exact {
              unrecorded := facts.unrecorded
              room := facts.room
              records := facts.records
              admitted := facts.admitted
              advertised := ⟨before, also, sameKey.symm.trans key, fewer has⟩
              pooled := facts.pooled
              notAvoided := facts.notAvoided }
          · exact .inr other
      · rw [recorded] at answer
        cases answer

/-- The specification of `take_ticket`: the ledger is pruned, then as the loop does. -/
theorem takeTicket_outcome (state : ChuteState) (capacity : Nat) (ledger : NonceLedger)
    (chuteId : String) (avoid : List String) (now : Instant) :
    let out := state.takeTicket capacity ledger chuteId avoid now
    (out.1 = .ok none ∧ out.2.1 = state ∧ out.2.2 = ledger) ∨
    ∃ validUntil, state.validUntil = some validUntil ∧
      TakeOutcome state capacity (ledger.prune now) chuteId avoid validUntil out := by
  unfold takeTicket
  cases until_ : state.validUntil with
  | none => exact .inl ⟨rfl, rfl, rfl⟩
  | some validUntil => exact .inr ⟨validUntil, rfl, takeLoop_outcome _ _ _ _ _ _⟩

/-! ### What a batch of verdicts decides -/

@[simp] theorem recordVerdict_generation (now : Instant) (since : Option Nat)
    (state : ChuteState) (verdict : Verdict) :
    (recordVerdict now since state verdict).generation = state.generation := by
  unfold recordVerdict
  cases verdict.outcome with
  | admitted untilAt =>
      dsimp only
      split <;> rfl
  | rejected | noEvidence => rfl

/-- Nothing but the admissions, the rejections and the decisions. -/
theorem recordVerdict_frame (now : Instant) (since : Option Nat) (state : ChuteState)
    (verdict : Verdict) :
    ∃ admitted rejected decided, recordVerdict now since state verdict =
      { state with admitted := admitted, rejected := rejected, decided := decided } := by
  unfold recordVerdict
  cases verdict.outcome with
  | admitted untilAt =>
      dsimp only
      split
      · exact ⟨_, _, _, rfl⟩
      · exact ⟨_, _, _, rfl⟩
  | rejected cause => exact ⟨_, _, _, rfl⟩
  | noEvidence => exact ⟨_, _, _, rfl⟩

/-- Verdicts change the admissions, the rejections and the decisions alone. -/
private theorem foldl_recordVerdict_frame (verdicts : List Verdict) (now : Instant)
    (since : Option Nat) (state : ChuteState) :
    ∃ admitted rejected decided, verdicts.foldl (recordVerdict now since) state =
      { state with admitted := admitted, rejected := rejected, decided := decided } := by
  induction verdicts generalizing state with
  | nil => exact ⟨_, _, _, rfl⟩
  | cons verdict rest ih =>
      obtain ⟨admitted, rejected, decided, same⟩ := recordVerdict_frame now since state verdict
      rw [List.foldl_cons, same]
      obtain ⟨admitted', rejected', decided', rest⟩ :=
        ih { state with admitted := admitted, rejected := rejected, decided := decided }
      exact ⟨admitted', rejected', decided', rest⟩

theorem record_frame (state : ChuteState) (verdicts : List Verdict) (now : Instant)
    (since : Option Nat) :
    ∃ admitted rejected decided, state.record verdicts now since =
      { state with
        admitted := admitted, rejected := rejected, decided := decided
        generation := state.generation + 1, lastRecorded := some now } :=
  foldl_recordVerdict_frame verdicts now since
    { state with generation := state.generation + 1, lastRecorded := some now }

/-- A verdict leaves other instances as they are. -/
private theorem recordVerdict_other (now : Instant) (since : Option Nat) (state : ChuteState)
    {verdict : Verdict} {key : InstanceKey} (other : verdict.key ≠ key) :
    (recordVerdict now since state verdict).admitted.lookup key = state.admitted.lookup key ∧
      (recordVerdict now since state verdict).decided.lookup key = state.decided.lookup key := by
  have apart : key ≠ verdict.key := fun same => other same.symm
  unfold recordVerdict
  cases verdict.outcome with
  | admitted untilAt =>
      dsimp only
      split
      · exact ⟨rfl, rfl⟩
      · exact ⟨Finmap.lookup_insert_of_ne _ apart, Finmap.lookup_insert_of_ne _ apart⟩
  | rejected cause =>
      exact ⟨Finmap.lookup_erase_ne apart, Finmap.lookup_insert_of_ne _ apart⟩
  | noEvidence => exact ⟨rfl, rfl⟩

/-- Verdicts leave the instances they are not about. -/
private theorem foldl_recordVerdict_other (now : Instant) (since : Option Nat)
    {verdicts : List Verdict} {key : InstanceKey} (state : ChuteState)
    (others : key ∉ verdicts.map Verdict.key) :
    (verdicts.foldl (recordVerdict now since) state).admitted.lookup key =
        state.admitted.lookup key ∧
      (verdicts.foldl (recordVerdict now since) state).decided.lookup key =
        state.decided.lookup key := by
  induction verdicts generalizing state with
  | nil => exact ⟨rfl, rfl⟩
  | cons verdict rest ih =>
      rw [List.map_cons, List.mem_cons, not_or] at others
      have first := recordVerdict_other now since state (fun same => others.1 same.symm)
      have later := ih (recordVerdict now since state verdict) others.2
      exact ⟨later.1.trans first.1, later.2.trans first.2⟩

/-- What a batch does to one instance, where `generation` is the batch's own: it
leaves it, admits it over no later verdict, or rejects it. -/
inductive Decides (verdicts : List Verdict) (since : Option Nat) (generation : Nat)
    (key : InstanceKey) (before after : ChuteState) : Prop
  | leaves (admitted : after.admitted.lookup key = before.admitted.lookup key)
      (decided : after.decided.lookup key = before.decided.lookup key)
      (notRejected : ∀ verdict ∈ verdicts, verdict.key = key →
        ∀ cause, verdict.outcome ≠ .rejected cause)
  | admits (verdict : Verdict) (mem : verdict ∈ verdicts) (named : verdict.key = key)
      (untilAt : Instant) (outcome : verdict.outcome = .admitted untilAt)
      (admitted : after.admitted.lookup key = some untilAt)
      (decided : after.decided.lookup key = some generation)
      (latest : ∀ start, since = some start → ∀ at_, before.decided.lookup key = some at_ →
        at_ ≤ start)
      (notRejected : ∀ verdict ∈ verdicts, verdict.key = key →
        ∀ cause, verdict.outcome ≠ .rejected cause)
  | rejects (verdict : Verdict) (mem : verdict ∈ verdicts) (named : verdict.key = key)
      (cause : String) (outcome : verdict.outcome = .rejected cause)
      (admitted : after.admitted.lookup key = none)
      (decided : after.decided.lookup key = some generation)

theorem le_of_not_superseded {state : ChuteState} {since : Option Nat} {key : InstanceKey}
    (latest : state.superseded since key = false) {start at_ : Nat} (began : since = some start)
    (decided : state.decided.lookup key = some at_) : at_ ≤ start := by
  simpa [superseded, began, decided] using latest

/-- One verdict decides its own instance, unless a later batch has. -/
private theorem recordVerdict_decides (now : Instant) (since : Option Nat) (state : ChuteState)
    (verdict : Verdict) :
    Decides [verdict] since state.generation verdict.key state
      (recordVerdict now since state verdict) := by
  unfold recordVerdict
  cases outcome : verdict.outcome with
  | admitted untilAt =>
      have notRejected : ∀ other ∈ [verdict], other.key = verdict.key →
          ∀ cause, other.outcome ≠ .rejected cause := by
        intro other mem _ cause rejected
        rw [List.mem_singleton.mp mem, outcome] at rejected
        cases rejected
      dsimp only
      cases latest : state.superseded since verdict.key with
      | true => exact .leaves rfl rfl notRejected
      | false =>
          exact .admits verdict (List.mem_singleton.mpr rfl) rfl untilAt outcome
            (Finmap.lookup_insert _) (Finmap.lookup_insert _)
            (fun start began at_ decided => le_of_not_superseded latest began decided) notRejected
  | rejected cause =>
      exact .rejects verdict (List.mem_singleton.mpr rfl) rfl cause outcome
        (Finmap.lookup_erase _ _) (Finmap.lookup_insert _)
  | noEvidence =>
      refine .leaves rfl rfl fun other mem _ cause rejected => ?_
      rw [List.mem_singleton.mp mem, outcome] at rejected
      cases rejected

/-- Verdicts on other instances, before and after, change nothing here. -/
private theorem Decides.widen {few many : List Verdict} {since : Option Nat} {generation : Nat}
    {key : InstanceKey} {before start last after : ChuteState}
    (decides : Decides few since generation key start last)
    (admittedStart : start.admitted.lookup key = before.admitted.lookup key)
    (decidedStart : start.decided.lookup key = before.decided.lookup key)
    (admittedLast : after.admitted.lookup key = last.admitted.lookup key)
    (decidedLast : after.decided.lookup key = last.decided.lookup key)
    (all : few ⊆ many) (only : ∀ verdict ∈ many, verdict.key = key → verdict ∈ few) :
    Decides many since generation key before after := by
  cases decides with
  | leaves admitted decided notRejected =>
      exact .leaves (admittedLast.trans (admitted.trans admittedStart))
        (decidedLast.trans (decided.trans decidedStart))
        fun verdict mem named => notRejected verdict (only verdict mem named) named
  | admits verdict mem named untilAt outcome admitted decided latest notRejected =>
      exact .admits verdict (all mem) named untilAt outcome (admittedLast.trans admitted)
        (decidedLast.trans decided) (fun start began at_ had => latest start began at_
          (decidedStart.trans had))
        fun verdict mem named => notRejected verdict (only verdict mem named) named
  | rejects verdict mem named cause outcome admitted decided =>
      exact .rejects verdict (all mem) named cause outcome (admittedLast.trans admitted)
        (decidedLast.trans decided)

/-- Verdicts of distinct keys each decide their own instance. -/
private theorem foldl_recordVerdict_decides (now : Instant) (since : Option Nat)
    {verdicts : List Verdict} (state : ChuteState) (nodup : (verdicts.map Verdict.key).Nodup)
    (key : InstanceKey) :
    Decides verdicts since state.generation key state
      (verdicts.foldl (recordVerdict now since) state) := by
  induction verdicts generalizing state with
  | nil => exact .leaves rfl rfl (by simp)
  | cons verdict rest ih =>
      rw [List.map_cons, List.nodup_cons] at nodup
      by_cases here : verdict.key = key
      · -- No later verdict of the batch is on this instance.
        subst here
        obtain ⟨sameAdmitted, sameDecided⟩ := foldl_recordVerdict_other now since
          (recordVerdict now since state verdict) nodup.1
        refine (recordVerdict_decides now since state verdict).widen rfl rfl sameAdmitted
          sameDecided (List.cons_subset_cons _ (List.nil_subset _)) fun other mem named => ?_
        rcases List.mem_cons.mp mem with same | later
        · exact List.mem_singleton.mpr same
        · exact absurd (List.mem_map.mpr ⟨other, later, named⟩) nodup.1
      · obtain ⟨sameAdmitted, sameDecided⟩ := recordVerdict_other now since state here
        have later := ih (recordVerdict now since state verdict) nodup.2
        rw [recordVerdict_generation] at later
        refine later.widen sameAdmitted sameDecided rfl rfl (List.subset_cons_self _ _)
          fun other mem named => ?_
        rcases List.mem_cons.mp mem with rfl | later
        · exact absurd named here
        · exact later

theorem record_decides {verdicts : List Verdict} (state : ChuteState)
    (nodup : (verdicts.map Verdict.key).Nodup) (now : Instant) (since : Option Nat)
    (key : InstanceKey) :
    Decides verdicts since (state.generation + 1) key state (state.record verdicts now since) :=
  (foldl_recordVerdict_decides now since
    { state with generation := state.generation + 1, lastRecorded := some now } nodup key).widen
    rfl rfl rfl rfl (List.Subset.refl _) fun _ mem _ => mem

end ChuteState

end GmMiner.Chutes
