import Std.Data.ExtTreeMap
import Mathlib.Data.List.Infix
import Mathlib.Data.List.Pairwise
import GmMiner.Time

/-!
The cache of registry model bindings kept by the Bedrock Mantle adapter
(`BindingCache` of `attestd/src/bedrock_mantle.rs`).

The registry publishes numbered snapshots; each holds one row per canonical
model, and each row has a revision of its own. The cache outlives removals: it
keeps the newest row it ever accepted for a model in `highestBinding`, so that
a model taken out of the snapshots cannot come back with an old row.

`History` is a run of the cache: the cache itself and, beside it, the snapshots
it accepted, oldest first. `History.Sound` ties the two together, and the
results about runs are read off it.
-/

namespace GmMiner.Bedrock

open Std (ExtTreeMap)

/-- A `BTreeMap` with text keys: equality is extensional, iteration is in key order. -/
abbrev Table (V : Type) := ExtTreeMap String V compare

structure ModelBinding where
  provider : String
  model : String
  upstreamModel : String
  responseModel : String
  revision : Nat
  deriving DecidableEq, Repr

structure BindingsSnapshot where
  network : String
  revision : Nat
  bindings : Table ModelBinding
  deriving DecidableEq

structure CachedBindings where
  snapshot : BindingsSnapshot
  fetchedAt : Instant
  deriving DecidableEq

structure BindingCache where
  current : Option CachedBindings
  /-- Retained across removals, so a model cannot be re-added with an old or
  reused row revision. -/
  highestBinding : Table ModelBinding
  deriving DecidableEq

def BindingCache.empty : BindingCache := ⟨none, ∅⟩

/-- `BINDINGS_FRESHNESS_TTL`. -/
def bindingsFreshnessTtl : Duration := Duration.fromSecs (15 * 60)

/-- The rejections a binding lookup can carry. -/
inductive BindingReject where
  | bindingsUnavailable
  | unsupportedModel
  | bindingRevision
  deriving DecidableEq, Repr

inductive BindingLookup where
  | ready (binding : ModelBinding)
  | behind
  | refresh (reject : BindingReject)
  deriving DecidableEq, Repr

def BindingLookup.needsRefresh : BindingLookup → Bool
  | .refresh _ => true
  | _ => false

def BindingLookup.intoResult : BindingLookup → Except BindingReject ModelBinding
  | .ready binding => .ok binding
  | .behind => .error .bindingRevision
  | .refresh reject => .error reject

/-- The check `apply` makes of one retained row against a newer snapshot. -/
def rowConflict (current snapshot : BindingsSnapshot) (model : String) (previous : ModelBinding) :
    Option String :=
  match snapshot.bindings[model]? with
  | none => none
  | some next =>
      if next.revision < previous.revision then
        some "model binding revision moved backwards"
      else if next.revision = previous.revision ∧ next ≠ previous then
        some "model binding changed without advancing its revision"
      else if model ∉ current.bindings ∧ next.revision ≤ previous.revision then
        some "removed model binding was re-added without a new revision"
      else none

namespace BindingCache

/-- Install an accepted snapshot: its rows become the newest seen. -/
def install (cache : BindingCache) (snapshot : BindingsSnapshot) (now : Instant) :
    BindingCache where
  current := some ⟨snapshot, now⟩
  highestBinding := cache.highestBinding.insertMany snapshot.bindings.toList

/-- `BindingCache::apply`: the result and the cache as the call leaves it. -/
def apply (cache : BindingCache) (snapshot : BindingsSnapshot) (now : Instant) :
    Except String Unit × BindingCache :=
  match cache.current with
  | none => (.ok (), cache.install snapshot now)
  | some current =>
      if snapshot.revision < current.snapshot.revision then
        (.error "registry binding snapshot revision moved backwards", cache)
      else if snapshot.revision = current.snapshot.revision then
        if snapshot ≠ current.snapshot then
          (.error "registry changed binding payload without advancing revision", cache)
        else (.ok (), { cache with current := some ⟨snapshot, now⟩ })
      else
        match cache.highestBinding.toList.findSome? fun row =>
            rowConflict current.snapshot snapshot row.1 row.2 with
        | some error => (.error error, cache)
        | none => (.ok (), cache.install snapshot now)

def currentBinding (cache : BindingCache) (model : String) (expectedRevision : Nat)
    (now : Instant) : BindingLookup :=
  match cache.current with
  | none => .refresh .bindingsUnavailable
  | some cached =>
      let binding := cached.snapshot.bindings[model]?
      if binding.any fun binding => expectedRevision < binding.revision then .behind
      else if bindingsFreshnessTtl < now - cached.fetchedAt then .refresh .bindingsUnavailable
      else match binding with
        | none => .refresh .unsupportedModel
        | some binding =>
            if binding.revision ≠ expectedRevision then .refresh .bindingRevision
            else .ready binding

end BindingCache

/-! ### What one call does -/

/-- `next` may follow `previous` as a row of the same model: its revision is no
lower, and an equal revision means an unchanged row. -/
def ModelBinding.Precedes (previous next : ModelBinding) : Prop :=
  previous.revision ≤ next.revision ∧ (previous.revision = next.revision → previous = next)

theorem ModelBinding.Precedes.refl (row : ModelBinding) : row.Precedes row :=
  ⟨le_rfl, fun _ => rfl⟩

theorem ModelBinding.Precedes.trans {a b c : ModelBinding} (ab : a.Precedes b)
    (bc : b.Precedes c) : a.Precedes c := by
  refine ⟨ab.1.trans bc.1, fun same => ?_⟩
  have first : a.revision = b.revision := le_antisymm ab.1 (same ▸ bc.1)
  rw [ab.2 first]
  exact bc.2 (first ▸ same)

/-- A row without conflict is the same row or one of a later revision. -/
theorem rowConflict_eq_none {current snapshot : BindingsSnapshot} {model : String}
    {previous next : ModelBinding} (clear : rowConflict current snapshot model previous = none)
    (row : snapshot.bindings[model]? = some next) :
    previous.Precedes next ∧ (model ∉ current.bindings → previous.revision < next.revision) := by
  simp only [rowConflict, row] at clear
  split at clear
  · cases clear
  · rename_i forward
    split at clear
    · cases clear
    · rename_i unchanged
      split at clear
      · cases clear
      · rename_i returning
        refine ⟨⟨by omega, fun same => ?_⟩, fun absent => ?_⟩
        · by_contra differs
          exact unchanged ⟨same.symm, Ne.symm differs⟩
        · by_contra stale
          exact returning ⟨absent, by omega⟩

namespace BindingCache

/-- An install raises the rows of its snapshot and keeps the others. -/
theorem install_highestBinding (cache : BindingCache) (snapshot : BindingsSnapshot)
    (now : Instant) (model : String) :
    (cache.install snapshot now).highestBinding[model]? =
      (snapshot.bindings[model]?).or cache.highestBinding[model]? := by
  unfold install
  cases row : snapshot.bindings[model]? with
  | none =>
      refine (ExtTreeMap.getElem?_insertMany_list_of_contains_eq_false ?_).trans (by simp)
      rw [ExtTreeMap.map_fst_toList_eq_keys]
      simpa using row
  | some binding =>
      refine (ExtTreeMap.getElem?_insertMany_list_of_mem (k := model) (v := binding)
        Std.ReflCmp.compare_self ExtTreeMap.distinct_keys_toList ?_).trans (by simp)
      exact ExtTreeMap.mem_toList_iff_getElem?_eq_some.mpr row

/-- A rejected call changes nothing. -/
theorem apply_error {cache after : BindingCache} {snapshot : BindingsSnapshot} {now : Instant}
    {error : String} (rejected : cache.apply snapshot now = (.error error, after)) :
    after = cache := by
  unfold apply at rejected
  split at rejected
  · cases rejected
  · split at rejected
    · cases rejected
      rfl
    · split at rejected
      · split at rejected <;> cases rejected
        rfl
      · split at rejected <;> cases rejected
        rfl

/-- The three ways a call is accepted: the first snapshot, a refresh of the
current one, and a newer one none of whose rows conflicts with a retained row. -/
theorem apply_ok {cache after : BindingCache} {snapshot : BindingsSnapshot} {now : Instant}
    (accepted : cache.apply snapshot now = (.ok (), after)) :
    (cache.current = none ∧ after = cache.install snapshot now) ∨
    (∃ current, cache.current = some current ∧ snapshot = current.snapshot ∧
      after = { cache with current := some ⟨snapshot, now⟩ }) ∨
    (∃ current, cache.current = some current ∧ current.snapshot.revision < snapshot.revision ∧
      (∀ model previous next, cache.highestBinding[model]? = some previous →
        snapshot.bindings[model]? = some next → previous.Precedes next ∧
          (model ∉ current.snapshot.bindings → previous.revision < next.revision)) ∧
      after = cache.install snapshot now) := by
  unfold apply at accepted
  split at accepted
  · rename_i fresh
    cases accepted
    exact .inl ⟨fresh, rfl⟩
  · rename_i current held
    split at accepted
    · cases accepted
    · rename_i forward
      split at accepted
      · split at accepted
        · cases accepted
        · rename_i same
          cases accepted
          exact .inr (.inl ⟨current, held, not_not.mp same, rfl⟩)
      · rename_i advanced
        split at accepted
        · cases accepted
        · rename_i clear
          cases accepted
          refine .inr (.inr ⟨current, held, by omega, fun model previous next kept row => ?_, rfl⟩)
          have none_here := List.findSome?_eq_none_iff.mp clear (model, previous)
            (ExtTreeMap.mem_toList_iff_getElem?_eq_some.mpr kept)
          exact rowConflict_eq_none none_here row

/-- A lookup answers `ready` only with the current snapshot's row at the
expected revision. -/
theorem currentBinding_ready {cache : BindingCache} {model : String} {expectedRevision : Nat}
    {now : Instant} {binding : ModelBinding}
    (found : cache.currentBinding model expectedRevision now = .ready binding) :
    ∃ cached, cache.current = some cached ∧ cached.snapshot.bindings[model]? = some binding ∧
      binding.revision = expectedRevision := by
  unfold currentBinding at found
  split at found
  · cases found
  · rename_i cached held
    dsimp only at found
    split at found
    · cases found
    · split at found
      · cases found
      · split at found
        · cases found
        · rename_i row looked
          split at found
          · cases found
          · rename_i expected
            cases found
            exact ⟨cached, held, looked, not_not.mp expected⟩

end BindingCache

/-! ### Runs -/

/-- One `apply` call of a run. -/
structure Offer where
  snapshot : BindingsSnapshot
  now : Instant
  deriving DecidableEq

/-- A cache and the snapshots it accepted so far, oldest first. -/
structure History where
  cache : BindingCache
  accepted : List BindingsSnapshot

namespace History

def start : History := ⟨.empty, []⟩

def offer (history : History) (call : Offer) : History :=
  match history.cache.apply call.snapshot call.now with
  | (.ok (), cache) => ⟨cache, history.accepted ++ [call.snapshot]⟩
  | (.error _, cache) => ⟨cache, history.accepted⟩

/-- The run of a sequence of calls from the empty cache. -/
def run (calls : List Offer) : History := calls.foldl offer start

theorem run_concat (calls : List Offer) (call : Offer) :
    run (calls ++ [call]) = (run calls).offer call := by
  simp [run]

/-- Every row of the later snapshot may follow the earlier snapshot's row of
the same model. -/
def RowsAdvance (earlier later : BindingsSnapshot) : Prop :=
  ∀ (model : String) (row row' : ModelBinding), earlier.bindings[model]? = some row →
    later.bindings[model]? = some row' → row.Precedes row'

/-- A model that leaves the accepted snapshots returns only with a newer row. -/
def ReturnsAdvance (accepted : List BindingsSnapshot) : Prop :=
  ∀ front between back, accepted = front ++ between :: back →
    ∀ earlier ∈ front, ∀ later ∈ back, ∀ (model : String) (row row' : ModelBinding),
      earlier.bindings[model]? = some row → model ∉ between.bindings →
        later.bindings[model]? = some row' → row.revision < row'.revision

/-- How the cache and the accepted snapshots are related at every point of a run. -/
structure Sound (history : History) : Prop where
  latest : history.cache.current.map CachedBindings.snapshot = history.accepted.getLast?
  revisions : history.accepted.Pairwise fun earlier later => earlier.revision ≤ later.revision
  rows : history.accepted.Pairwise RowsAdvance
  returns : ReturnsAdvance history.accepted
  /-- No accepted row is newer than the retained one. -/
  retained : ∀ snapshot ∈ history.accepted, ∀ (model : String) (row : ModelBinding),
    snapshot.bindings[model]? = some row →
      ∃ high, history.cache.highestBinding[model]? = some high ∧ row.Precedes high
  /-- The current snapshot's rows are the retained ones. -/
  newest : ∀ current, history.accepted.getLast? = some current →
    ∀ (model : String) (row : ModelBinding), current.bindings[model]? = some row →
      history.cache.highestBinding[model]? = some row

theorem sound_start : start.Sound where
  latest := rfl
  revisions := .nil
  rows := .nil
  returns := fun front between back split => by simp [start] at split
  retained := fun _ mem => by cases mem
  newest := fun _ held => by cases held

/-- Appending a snapshot whose rows follow every accepted row, strictly for the
models the last snapshot lacks, keeps `ReturnsAdvance`. -/
private theorem returns_concat {accepted : List BindingsSnapshot} {snapshot : BindingsSnapshot}
    (returns : ReturnsAdvance accepted)
    (follows : ∀ earlier ∈ accepted, RowsAdvance earlier snapshot)
    (strict : ∀ current, accepted.getLast? = some current → ∀ earlier ∈ accepted,
      ∀ (model : String) (row row' : ModelBinding), model ∉ current.bindings →
        earlier.bindings[model]? = some row → snapshot.bindings[model]? = some row' →
          row.revision < row'.revision) :
    ReturnsAdvance (accepted ++ [snapshot]) := by
  intro front between back split earlier earlierMem later laterMem model row row' had absent has
  rcases List.eq_nil_or_concat' back with rfl | ⟨back, last, rfl⟩
  · cases laterMem
  · have split' : accepted ++ [snapshot] = (front ++ between :: back) ++ [last] := by
      simpa using split
    obtain ⟨rfl, same⟩ := List.append_inj' split' rfl
    cases same
    rcases List.mem_append.mp laterMem with within | isLast
    · exact returns front between back rfl earlier earlierMem later within model row row' had
        absent has
    · cases List.mem_singleton.mp isLast
      have earlierAll : earlier ∈ front ++ between :: back := List.mem_append_left _ earlierMem
      rcases List.eq_nil_or_concat' back with rfl | ⟨back, current, rfl⟩
      · exact strict between (by simp) earlier earlierAll model row row' absent had has
      · have lastCurrent : (front ++ between :: (back ++ [current])).getLast? = some current := by
          rw [← List.cons_append, ← List.append_assoc, List.getLast?_concat]
        by_cases here : model ∈ current.bindings
        · -- The model came back before this snapshot: its row in `current` is already newer.
          obtain ⟨mid, heldMid⟩ : ∃ mid, current.bindings[model]? = some mid :=
            Option.isSome_iff_exists.mp (by simpa using here)
          have currentMem : current ∈ back ++ [current] := by simp
          calc row.revision < mid.revision :=
                returns front between _ rfl earlier earlierMem current currentMem model row mid had
                  absent heldMid
            _ ≤ row'.revision :=
                (follows current (by simp) model mid row' heldMid has).1
        · exact strict current lastCurrent earlier earlierAll model row row' here had has

/-- Every accepted snapshot is at or below the last one. -/
private theorem Sound.revision_le {history : History} (sound : history.Sound)
    {current : BindingsSnapshot} (last : history.accepted.getLast? = some current) :
    ∀ earlier ∈ history.accepted, earlier.revision ≤ current.revision := by
  obtain ⟨front, split⟩ := List.getLast?_eq_some_iff.mp last
  intro earlier mem
  have sorted := sound.revisions
  rw [split] at sorted mem
  rcases List.mem_append.mp mem with inFront | isLast
  · exact (List.pairwise_append.mp sorted).2.2 earlier inFront current (by simp)
  · rw [List.mem_singleton.mp isLast]

/-- Accepting a snapshot keeps the history sound, when its rows follow every
accepted row and become the retained ones. -/
private theorem sound_accept {history : History} (sound : history.Sound) {cache : BindingCache}
    {snapshot : BindingsSnapshot}
    (held : cache.current.map CachedBindings.snapshot = some snapshot)
    (high : ∀ model : String, cache.highestBinding[model]? =
      (snapshot.bindings[model]?).or history.cache.highestBinding[model]?)
    (newer : ∀ current, history.accepted.getLast? = some current →
      current.revision ≤ snapshot.revision)
    (follows : ∀ earlier ∈ history.accepted, RowsAdvance earlier snapshot)
    (strict : ∀ current, history.accepted.getLast? = some current → ∀ earlier ∈ history.accepted,
      ∀ (model : String) (row row' : ModelBinding), model ∉ current.bindings →
        earlier.bindings[model]? = some row → snapshot.bindings[model]? = some row' →
          row.revision < row'.revision) :
    (History.mk cache (history.accepted ++ [snapshot])).Sound where
  latest := by simp [held]
  revisions := by
    refine List.pairwise_append.mpr ⟨sound.revisions, List.pairwise_singleton .., ?_⟩
    intro earlier mem later isLast
    cases List.mem_singleton.mp isLast
    obtain ⟨current, last⟩ : ∃ current, history.accepted.getLast? = some current :=
      Option.isSome_iff_exists.mp (by simpa using List.ne_nil_of_mem mem)
    exact (sound.revision_le last earlier mem).trans (newer current last)
  rows := by
    refine List.pairwise_append.mpr ⟨sound.rows, List.pairwise_singleton .., ?_⟩
    intro earlier mem later isLast
    cases List.mem_singleton.mp isLast
    exact follows earlier mem
  returns := returns_concat sound.returns follows strict
  retained := by
    intro earlier mem model row had
    rcases List.mem_append.mp mem with before | isLast
    · cases next : snapshot.bindings[model]? with
      | none =>
          obtain ⟨top, kept, precedes⟩ := sound.retained earlier before model row had
          exact ⟨top, by simp [high, next, kept], precedes⟩
      | some row' =>
          exact ⟨row', by simp [high, next], follows earlier before model row row' had next⟩
    · cases List.mem_singleton.mp isLast
      exact ⟨row, by simp [high, had], .refl row⟩
  newest := by
    intro current last model row has
    have : snapshot = current := by simpa using last
    subst this
    simp [high, has]

/-- Every accepted row precedes the row a sound history's cache retains, so it
precedes whatever follows the retained row. -/
private theorem Sound.follows_of_retained {history : History} (sound : history.Sound)
    {snapshot : BindingsSnapshot}
    (kept : ∀ (model : String) (previous next : ModelBinding),
      history.cache.highestBinding[model]? = some previous →
        snapshot.bindings[model]? = some next → previous.Precedes next) :
    ∀ earlier ∈ history.accepted, RowsAdvance earlier snapshot := by
  intro earlier mem model row row' had has
  obtain ⟨top, retained, precedes⟩ := sound.retained earlier mem model row had
  exact precedes.trans (kept model top row' retained has)

/-- One call leaves the cache as the accepted snapshots have it. -/
theorem sound_offer {history : History} (sound : history.Sound) (call : Offer) :
    (history.offer call).Sound := by
  unfold offer
  cases answer : history.cache.apply call.snapshot call.now with
  | mk result cache =>
      cases result with
      | error error =>
          have unchanged := BindingCache.apply_error answer
          subst unchanged
          exact sound
      | ok _ =>
          -- Accepted in one of three ways: the first snapshot, the current one again, a newer one.
          rcases BindingCache.apply_ok answer with ⟨fresh, rfl⟩ | ⟨current, held, same, rfl⟩ |
            ⟨current, held, newer, clear, rfl⟩
          · have nothing : history.accepted = [] := by
              have := sound.latest
              rw [fresh] at this
              simpa using this.symm
            refine sound_accept sound rfl (BindingCache.install_highestBinding _ _ _) ?_ ?_ ?_ <;>
              simp [nothing]
          · have last : history.accepted.getLast? = some current.snapshot := by
              rw [← sound.latest, held]
              rfl
            have retainedHere : ∀ (model : String) (row : ModelBinding),
                call.snapshot.bindings[model]? = some row →
                  history.cache.highestBinding[model]? = some row := by
              rw [same]
              exact sound.newest _ last
            refine sound_accept sound rfl (fun model => ?_) (fun current' last' => ?_)
              (sound.follows_of_retained fun model previous next kept has => ?_)
              (fun current' last' earlier mem model row row' absent had has => ?_)
            · cases has : call.snapshot.bindings[model]? with
              | none => simp
              | some row => simp [retainedHere model row has]
            · cases last.symm.trans last'
              rw [same]
            · rw [retainedHere model next has] at kept
              cases kept
              exact .refl _
            · cases last.symm.trans last'
              rw [same] at has
              exact absurd has (by simp [ExtTreeMap.getElem?_eq_none absent])
          · have last : history.accepted.getLast? = some current.snapshot := by
              rw [← sound.latest, held]
              rfl
            refine sound_accept sound rfl (BindingCache.install_highestBinding _ _ _)
              (fun current' last' => ?_)
              (sound.follows_of_retained fun model previous next kept has =>
                (clear model previous next kept has).1)
              (fun current' last' earlier mem model row row' absent had has => ?_)
            · cases last.symm.trans last'
              exact newer.le
            · cases last.symm.trans last'
              obtain ⟨top, kept, precedes⟩ := sound.retained earlier mem model row had
              exact precedes.1.trans_lt ((clear model top row' kept has).2 absent)

theorem sound_run (calls : List Offer) : (run calls).Sound := by
  induction calls using List.reverseRecOn with
  | nil => exact sound_start
  | append_singleton calls call ih =>
      rw [run_concat]
      exact sound_offer ih call

/-! ### Results about runs -/

/-- What was accepted up to some point of a run stays accepted. -/
theorem accepted_grows (first rest : List Offer) :
    (run first).accepted <+: (run (first ++ rest)).accepted := by
  induction rest using List.reverseRecOn with
  | nil => simp
  | append_singleton rest call ih =>
      rw [← List.append_assoc, run_concat]
      refine ih.trans ?_
      unfold offer
      split
      · exact List.prefix_append _ _
      · exact List.prefix_rfl

/-- A lookup that is `ready` answers with a row of an accepted snapshot. -/
theorem ready_accepted {first : List Offer} (rest : List Offer) {model : String}
    {expectedRevision : Nat} {now : Instant} {binding : ModelBinding}
    (found : (run first).cache.currentBinding model expectedRevision now = .ready binding) :
    binding.revision = expectedRevision ∧ ∃ snapshot ∈ (run (first ++ rest)).accepted,
      snapshot.bindings[model]? = some binding := by
  obtain ⟨cached, held, row, expected⟩ := BindingCache.currentBinding_ready found
  have last := (sound_run first).latest
  rw [held, Option.map_some] at last
  exact ⟨expected, cached.snapshot,
    (accepted_grows first rest).subset (List.mem_of_getLast? last.symm), row⟩

/-- Rows of one model at one revision are one row, whichever accepted snapshots
carry them. -/
theorem row_unique {history : History} (sound : history.Sound)
    {snapshot snapshot' : BindingsSnapshot} (mem : snapshot ∈ history.accepted) (mem' : snapshot' ∈ history.accepted) {model : String}
    {row row' : ModelBinding} (had : snapshot.bindings[model]? = some row)
    (has : snapshot'.bindings[model]? = some row') (same : row.revision = row'.revision) :
    row = row' := by
  let Agree : BindingsSnapshot → BindingsSnapshot → Prop := fun earlier later =>
    ∀ row row' : ModelBinding, earlier.bindings[model]? = some row →
      later.bindings[model]? = some row' → row.revision = row'.revision → row = row'
  have : Std.Symm Agree :=
    ⟨fun _ _ agree row row' had has same => (agree row' row has had same.symm).symm⟩
  have agree : history.accepted.Pairwise Agree :=
    sound.rows.imp fun advance row row' had has => (advance model row row' had has).2
  have itself : ∀ earlier ∈ history.accepted, Agree earlier earlier :=
    fun _ _ _ _ had has _ => Option.some.inj (had.symm.trans has)
  exact agree.forall_of_forall itself mem mem' row row' had has same

/-- The registry cannot roll a binding back. For every sequence of calls from
the empty cache: a rejected call changes nothing, accepted snapshot revisions
never decrease, a model's accepted rows never go back and never change at one
revision, a model that was removed returns only with a greater row revision,
and two `ready` lookups of one model and revision, at any two points of the
run, answer with one binding. -/
theorem bindings_never_roll_back (calls : List Offer) :
    (∀ first rest, calls = first ++ rest → ∀ snapshot now error after,
      (run first).cache.apply snapshot now = (.error error, after) → after = (run first).cache) ∧
    ((run calls).accepted.Pairwise fun earlier later => earlier.revision ≤ later.revision) ∧
    ((run calls).accepted.Pairwise fun earlier later =>
      ∀ (model : String) (row row' : ModelBinding), earlier.bindings[model]? = some row →
        later.bindings[model]? = some row' →
          row.revision ≤ row'.revision ∧ (row.revision = row'.revision → row = row')) ∧
    (∀ front between back, (run calls).accepted = front ++ between :: back →
      ∀ earlier ∈ front, ∀ later ∈ back, ∀ (model : String) (row row' : ModelBinding),
        earlier.bindings[model]? = some row → model ∉ between.bindings →
          later.bindings[model]? = some row' → row.revision < row'.revision) ∧
    (∀ first rest first' rest', calls = first ++ rest → calls = first' ++ rest' →
      ∀ model expectedRevision now now' binding binding',
        (run first).cache.currentBinding model expectedRevision now = .ready binding →
        (run first').cache.currentBinding model expectedRevision now' = .ready binding' →
          binding = binding') := by
  have sound := sound_run calls
  refine ⟨?_, sound.revisions, sound.rows, sound.returns, ?_⟩
  · intro first rest _ snapshot now error after rejected
    exact BindingCache.apply_error rejected
  · intro first rest first' rest' split split' model expectedRevision now now' binding binding'
      found found'
    obtain ⟨expected, snapshot, mem, row⟩ := ready_accepted rest found
    obtain ⟨expected', snapshot', mem', row'⟩ := ready_accepted rest' found'
    rw [← split] at mem
    rw [← split'] at mem'
    exact row_unique sound mem mem' row row' (expected.trans expected'.symm)

end History

end GmMiner.Bedrock
