import GmMiner.Cli.DeployGates
import GmMiner.Cli.Passthrough
import GmMiner.Lib.Rfc3339
import Mathlib.Data.Prod.Lex

/-!
Worker #1 (`cli/src/workers.rs`), and the two commands that register it anew: `deploy` and
`register-image` (`cli/src/commands/deploy.rs`).

The registry tells when it made each worker, as a text. The source takes the least text for the
oldest worker; it is if the texts are in the order of the instants they name.
-/

namespace GmMiner.Cli

open GmMiner.Lib GmMiner.Lib.Rfc3339

/-! ### The least of the live workers -/

namespace WorkerEntry

/-- What `first_live_worker_id` compares. -/
def key (worker : WorkerEntry) : String ×ₗ String := toLex (worker.createdAt.getD "", worker.workerId)

theorem before_iff {worker other : WorkerEntry} :
    worker.before other = true ↔ worker.key < other.key := by
  simp only [before, key, Bool.or_eq_true, Bool.and_eq_true, decide_eq_true_eq, beq_iff_eq,
    Prod.Lex.toLex_lt_toLex]

end WorkerEntry

section Least

variable {live : List WorkerEntry}

/-- The first of the least. -/
def leastOf (live : List WorkerEntry) : Option WorkerEntry :=
  live.foldl (fun least worker =>
    match least with
    | none => some worker
    | some other => if worker.before other then some worker else some other) none

/-- The least worker is a live one, and none comes before it. -/
theorem leastOf_spec (some_ : live ≠ []) :
    ∃ least ∈ live, leastOf live = some least ∧ ∀ other ∈ live, least.key ≤ other.key := by
  induction live using List.reverseRecOn with
  | nil => exact absurd rfl some_
  | append_singleton live worker ih =>
      unfold leastOf
      rw [List.foldl_concat]
      by_cases empty : live = []
      · subst empty
        exact ⟨worker, List.mem_cons_self, rfl, by simp⟩
      · obtain ⟨least, mem, chosen, least_⟩ := ih empty
        change leastOf live = _ at chosen
        unfold leastOf at chosen
        rw [chosen]
        by_cases earlier : worker.before least = true
        · have below := WorkerEntry.before_iff.mp earlier
          refine ⟨worker, by simp, if_pos earlier, fun other inside => ?_⟩
          rcases List.mem_append.mp inside with before | last
          · exact below.le.trans (least_ other before)
          · rw [List.mem_singleton.mp last]
        · refine ⟨least, List.mem_append_left _ mem, if_neg earlier, fun other inside => ?_⟩
          rcases List.mem_append.mp inside with before | last
          · exact least_ other before
          · rw [List.mem_singleton.mp last]
            exact not_lt.mp (mt WorkerEntry.before_iff.mpr earlier)

theorem firstLiveWorkerId_eq (live : List WorkerEntry) :
    firstLiveWorkerId live = (leastOf live).map WorkerEntry.workerId := rfl

/-- The first live worker is the one whose creation text and id are the least. -/
theorem firstLiveWorkerId_eq_some_iff (distinct : (live.map WorkerEntry.workerId).Nodup)
    {worker : WorkerEntry} (mem : worker ∈ live) :
    firstLiveWorkerId live = some worker.workerId ↔ ∀ other ∈ live, worker.key ≤ other.key := by
  obtain ⟨least, here, chosen, least_⟩ := leastOf_spec (List.ne_nil_of_mem mem)
  rw [firstLiveWorkerId_eq, chosen, Option.map_some, Option.some.injEq]
  constructor
  · intro same
    rw [← List.inj_on_of_nodup_map distinct here mem same]
    exact least_
  · intro below
    have same := le_antisymm (below least here) (least_ worker mem)
    exact (congrArg (fun key => (ofLex key).2) same).symm

/-- The order of the list does not matter. -/
theorem firstLiveWorkerId_perm {other : List WorkerEntry} (same : other.Perm live) :
    firstLiveWorkerId other = firstLiveWorkerId live := by
  by_cases empty : live = []
  · rw [empty, List.perm_nil] at same
    rw [empty, same]
  · obtain ⟨least, mem, chosen, least_⟩ := leastOf_spec empty
    have some_ : other ≠ [] := fun none_ => empty (List.nil_perm.mp (none_ ▸ same))
    obtain ⟨least', mem', chosen', least_'⟩ := leastOf_spec some_
    have keys := le_antisymm (least_ least' (same.mem_iff.mp mem'))
      (least_' least (same.mem_iff.mpr mem))
    rw [firstLiveWorkerId_eq, firstLiveWorkerId_eq, chosen, chosen']
    exact congrArg (fun key => some (ofLex key).2) keys.symm

/-- A record of a live worker is secondary unless it is of the first one. -/
theorem isSecondaryLive_eq_false_iff {tracked : WorkerRecord} (registered : tracked.workerId ≠ "")
    (alive : tracked.workerId ∈ live.map WorkerEntry.workerId) :
    isSecondaryLive tracked live = false ↔ firstLiveWorkerId live = some tracked.workerId := by
  have nonEmpty : tracked.workerId.isEmpty = false := by
    simpa [String.isEmpty_iff] using registered
  have any : (live.any fun worker => worker.workerId == tracked.workerId) = true := by
    obtain ⟨worker, mem, same⟩ := List.mem_map.mp alive
    exact List.any_eq_true.mpr ⟨worker, mem, beq_iff_eq.mpr same⟩
  simp [isSecondaryLive, nonEmpty, any]

end Least

/-! ### `register-image` -/

def NetworkEntry.workerByAppId (entry : NetworkEntry) (appId : String) : Option WorkerRecord :=
  entry.workers.find? fun worker => worker.appId == appId

/-- The active network's record of a CVM. -/
def Config.workerByAppId (cfg : Config) (appId : String) : Option WorkerRecord :=
  cfg.activeNetworkEntry.bind fun entry => entry.workerByAppId appId

/-- The backends `register-image` re-sends: the recorded ones of a tracked worker. -/
def registerImageBackends (record : Option WorkerRecord) (cfg : Config) :
    Option (List (String × String)) :=
  match record with
  | some record => record.backends
  | none => (cfg.providerKeys.map ProviderKeys.workerBackends).filter fun backends =>
      !backends.isEmpty

def cloudFenceRequiredForImageRecovery (cfg : Config) (record : Option WorkerRecord) : Bool :=
  (cfg.providerKeys.any fun keys => !keys.workerBackends.isEmpty) ||
    record.all fun worker => worker.backends.all fun backends => !backends.isEmpty

structure RegisterImageContext where
  nodeSecret : Option String
  existingAppName : Option String
  backends : Option (List (String × String))
  providerSlots : Option (List (String × List String))
  cloudFenceRequired : Bool
  deriving DecidableEq, Repr

def World.registerImageContext (world : World) (cfg : Config) (appId : String) :
    Except Error RegisterImageContext := do
  let tracked := cfg.workerByAppId appId
  let live ←
    match tracked with
    | some tracked => if tracked.workerId.isEmpty then .ok [] else world.liveWorkers
    | none => .ok []
  match tracked.filter fun tracked => isSecondaryLive tracked live with
  | some tracked =>
      bail ("CVM '" ++ appId ++ "' is a secondary worker (worker '" ++ tracked.appName ++ "'); " ++
        "`register-image` only re-registers worker #1. To replace it, `gmcli worker remove " ++
        (if tracked.workerId.isEmpty then appId else tracked.workerId) ++
        "` then `gmcli worker add --app-name " ++ tracked.appName ++ "`.")
  | none =>
      return {
        nodeSecret := (tracked.map WorkerRecord.nodeSecret).or
          (cfg.activeNetworkEntry.bind NetworkEntry.usableLegacySecret)
        existingAppName := tracked.map WorkerRecord.appName
        backends := registerImageBackends tracked cfg
        providerSlots := tracked.bind WorkerRecord.providerSlots
        cloudFenceRequired := cloudFenceRequiredForImageRecovery cfg tracked }

/-- What `phala cvms get` prints of a CVM, as its three readers take it. -/
structure CvmDetail where
  hashes : Except Error (Option DstackDeployResult)
  endpoint : Except Error (Option String)
  name : Except Error (Option String)

/-- `cmd_register_image_subcommand`; `phala` is whether its tool is there, and what it prints. -/
def World.registerImage (world : World) (debug : Debug) (phala : Except Error Unit)
    (cvmDetail : String → Except Error CvmDetail) (cfg : Config) (appId : String) : Run Unit := do
  let found ← .ofResult (world.registerImageContext cfg appId)
  if found.cloudFenceRequired then
    .ofResult (context world.requireCapability
      "cloud worker recovery requires registry capability upstream-model-echo")
  .ofResult phala
  let detail ← .ofResult (cvmDetail appId)
  let hashes ← .ofResult (context detail.hashes
    "read deployed worker hashes from phala cvms get")
  let hashes ← .ofResult (required hashes
    ["no measured hashes for CVM '" ++ appId ++ "' (compose_hash/os_image_hash not present in " ++
      "`phala cvms get " ++ appId ++ " --json`); deploy first with `gmcli deploy`"])
  let endpoint ← .ofResult (context detail.endpoint
    "read deployed worker endpoint from phala cvms get")
  let endpoint ← .ofResult (required endpoint
    ["no public endpoint for CVM '" ++ appId ++ "' (endpoints[0].app not present in " ++
      "`phala cvms get " ++ appId ++ " --json`); the CVM may not have finished provisioning its " ++
      "gateway endpoint"])
  let endpoint ← .ofResult (context (toRatlsPassthroughEndpoint debug endpoint.toList)
    "derive the RA-TLS passthrough endpoint for registration")
  let image : WorkerImageArgs := {
    composeHash := world.lowercase.normalizeHash hashes.composeSha256
    osImageHash := world.lowercase.normalizeHash hashes.osImageHash
    endpoint := String.ofList endpoint
    nodeSecret := found.nodeSecret
    backends := found.backends
    providerSlots := found.providerSlots
    acceptedTermsVersion := none }
  .perform (.register .first image)
  let workerId ← .ofResult (world.register .first image)
  let name ← .ofResult (context detail.name "read deployed worker name from phala cvms get")
  match found.nodeSecret with
  | none => return ()
  | some nodeSecret => do
      let record : WorkerRecord := {
        workerId
        appId
        appName := (found.existingAppName.or name).getD appId
        nodeSecret
        backends := found.backends
        providerSlots := found.providerSlots
        provisionalSecondary := false }
      .perform (.persistWorkerRecord cfg.activeNetworkName record)
      .ofResult (world.persistWorkerRecord [] record)

/-! ### The gates of the two commands -/

section Gates

variable {world : World} {cfg : Config} {tracked : WorkerRecord} {live : List WorkerEntry}

/-- A deploy that registers has passed the guard. -/
theorem guard_of_registered {release : Release} {args : DeployArgs} {kms : String}
    {registration : WorkerRegistration} {image : WorkerImageArgs}
    (registered : .register registration image ∈
      (world.cmdDeployWithKms release cfg args .first kms).actions) :
    world.rejectSecondaryWorkerDeploy cfg .first args.appName = .ok () := by
  unfold World.cmdDeployWithKms at registered
  rcases Trace.mem_bind.mp registered with early | ⟨keys, passed, -⟩
  · cases mem_deployPreflight early
  · unfold World.deployPreflight at passed
    obtain ⟨⟨⟩, -, passed⟩ := Trace.outcome_bind_ok.mp passed
    obtain ⟨⟨⟩, guarded, -⟩ := Trace.outcome_bind_ok.mp passed
    exact guarded

/-- The guard of `deploy` lets a record of a live worker pass if that is not secondary. -/
theorem not_secondary_of_guard {appName : String} (listed : world.liveWorkers = .ok live)
    (recorded : cfg.workerByAppName appName = some tracked) (named : tracked.workerId ≠ "")
    (guarded : world.rejectSecondaryWorkerDeploy cfg .first appName = .ok ()) :
    isSecondaryLive tracked live = false := by
  have nonEmpty : tracked.workerId.isEmpty = false := by
    simpa [String.isEmpty_iff] using named
  unfold World.rejectSecondaryWorkerDeploy at guarded
  rw [if_neg (by simp), recorded] at guarded
  dsimp only at guarded
  rw [nonEmpty, if_neg Bool.false_ne_true, listed] at guarded
  obtain ⟨live', listed', guarded⟩ := bind_eq_ok.mp guarded
  cases listed'
  cases secondary : isSecondaryLive tracked live with
  | false => rfl
  | true =>
      rw [secondary, if_pos rfl] at guarded
      cases guarded

/-- A recovery that registers has passed the gate of its CVM's record. -/
theorem not_secondary_of_recovered {debug : Debug} {phala : Except Error Unit}
    {cvmDetail : String → Except Error CvmDetail} {appId : String}
    {registration : WorkerRegistration} {image : WorkerImageArgs}
    (listed : world.liveWorkers = .ok live) (recorded : cfg.workerByAppId appId = some tracked)
    (named : tracked.workerId ≠ "")
    (registered : .register registration image ∈
      (world.registerImage debug phala cvmDetail cfg appId).actions) :
    isSecondaryLive tracked live = false := by
  have nonEmpty : tracked.workerId.isEmpty = false := by
    simpa [String.isEmpty_iff] using named
  unfold World.registerImage at registered
  obtain ⟨found, gated, -⟩ := Trace.mem_ofResult_bind.mp registered
  unfold World.registerImageContext at gated
  rw [recorded] at gated
  dsimp only at gated
  rw [nonEmpty, if_neg Bool.false_ne_true, listed] at gated
  obtain ⟨live', listed', gated⟩ := bind_eq_ok.mp gated
  cases listed'
  cases secondary : isSecondaryLive tracked live with
  | false => rfl
  | true =>
      rw [Option.filter_some, secondary, if_pos rfl] at gated
      cases gated

end Gates

/-! ### The oldest worker -/

/-- A worker as the registry lists it. -/
structure DatedWorker where
  id : String
  created : Stamp

def DatedWorker.entry (worker : DatedWorker) : WorkerEntry :=
  ⟨worker.id, some (String.ofList worker.created.text)⟩

/-- A list of live workers. -/
structure Roster where
  workers : List DatedWorker
  distinct : (workers.map DatedWorker.id).Nodup

namespace Roster

variable (roster : Roster)

def entries : List WorkerEntry := roster.workers.map DatedWorker.entry

/-- The worker made first, the one with the least id of those made at the same instant. -/
def Oldest (worker : DatedWorker) : Prop :=
  worker ∈ roster.workers ∧ ∀ other ∈ roster.workers,
    toLex (worker.created.instant, worker.id) ≤ toLex (other.created.instant, other.id)

/-- What the choice of worker #1 is for. -/
structure FirstRight : Prop where
  oldest : ∀ worker, roster.Oldest worker → firstLiveWorkerId roster.entries = some worker.id
  anyOrder : ∀ listed : List WorkerEntry, listed.Perm roster.entries →
    firstLiveWorkerId listed = firstLiveWorkerId roster.entries
  secondary : ∀ worker, roster.Oldest worker → ∀ tracked : WorkerRecord, tracked.workerId ≠ "" →
    tracked.workerId ∈ roster.workers.map DatedWorker.id →
      (isSecondaryLive tracked roster.entries = false ↔ tracked.workerId = worker.id)
  deploys : ∀ worker, roster.Oldest worker → ∀ (world : World) (release : Release) (cfg : Config)
    (args : DeployArgs) (kms : String) (registration : WorkerRegistration) (image : WorkerImageArgs)
    (tracked : WorkerRecord), world.liveWorkers = .ok roster.entries →
      cfg.workerByAppName args.appName = some tracked → tracked.workerId ≠ "" →
        tracked.workerId ∈ roster.workers.map DatedWorker.id →
          .register registration image ∈
            (world.cmdDeployWithKms release cfg args .first kms).actions →
              tracked.workerId = worker.id
  recovers : ∀ worker, roster.Oldest worker → ∀ (world : World) (debug : Debug)
    (phala : Except Error Unit) (cvmDetail : String → Except Error CvmDetail) (cfg : Config)
    (appId : String) (registration : WorkerRegistration) (image : WorkerImageArgs)
    (tracked : WorkerRecord), world.liveWorkers = .ok roster.entries →
      cfg.workerByAppId appId = some tracked → tracked.workerId ≠ "" →
        tracked.workerId ∈ roster.workers.map DatedWorker.id →
          .register registration image ∈
            (world.registerImage debug phala cvmDetail cfg appId).actions →
              tracked.workerId = worker.id

variable {roster}

theorem ids_entries : roster.entries.map WorkerEntry.workerId = roster.workers.map DatedWorker.id := by
  rw [entries, List.map_map]
  rfl

theorem firstLiveWorkerId_iff {worker : DatedWorker} (mem : worker ∈ roster.workers) :
    firstLiveWorkerId roster.entries = some worker.id ↔
      ∀ other ∈ roster.workers, other.entry.before worker.entry = false := by
  have distinct := roster.distinct
  rw [← ids_entries] at distinct
  have least := firstLiveWorkerId_eq_some_iff distinct (List.mem_map_of_mem mem)
  refine least.trans ?_
  simp only [entries, List.forall_mem_map, Bool.eq_false_iff, ne_eq, WorkerEntry.before_iff, not_lt]

/-- No text sorts before the oldest worker's if the registry writes all of them alike. -/
theorem sorted_of_alike {worker : DatedWorker} (oldest : roster.Oldest worker)
    (alike : ∀ other ∈ roster.workers, other.created.Alike worker.created) :
    ∀ other ∈ roster.workers, other.entry.before worker.entry = false := by
  intro other mem
  have later := not_lt.mpr (oldest.2 other mem)
  rw [Bool.eq_false_iff, ne_eq, WorkerEntry.before_iff]
  intro sortsBefore
  apply later
  simp only [WorkerEntry.key, DatedWorker.entry, Option.getD_some, Prod.Lex.toLex_lt_toLex,
    String.ofList_inj] at sortsBefore
  rw [Prod.Lex.toLex_lt_toLex]
  rcases sortsBefore with text | ⟨text, id⟩
  · rw [String.lt_iff_toList_lt, String.toList_ofList, String.toList_ofList] at text
    exact .inl ((Stamp.text_lt_iff (alike other mem)).mp text)
  · refine .inr ⟨?_, id⟩
    have same : ∀ {a b : Stamp}, a.Alike b → a.text = b.text → ¬ a.instant < b.instant :=
      fun both equal less => lt_irrefl _ (equal ▸ (Stamp.text_lt_iff both).mpr less)
    exact le_antisymm (not_lt.mp (same (alike other mem).symm text.symm))
      (not_lt.mp (same (alike other mem) text))

/-- Worker #1 is the oldest live worker if no text sorts before the oldest one's. -/
theorem firstRight_of_sorted (sorted : ∀ worker, roster.Oldest worker →
    ∀ other ∈ roster.workers, other.entry.before worker.entry = false) : roster.FirstRight := by
  have first : ∀ worker, roster.Oldest worker →
      firstLiveWorkerId roster.entries = some worker.id := fun worker oldest =>
    (firstLiveWorkerId_iff oldest.1).mpr (sorted worker oldest)
  have secondary : ∀ worker, roster.Oldest worker → ∀ tracked : WorkerRecord,
      tracked.workerId ≠ "" → tracked.workerId ∈ roster.workers.map DatedWorker.id →
        (isSecondaryLive tracked roster.entries = false ↔ tracked.workerId = worker.id) := by
    intro worker oldest tracked named alive
    rw [isSecondaryLive_eq_false_iff named (ids_entries ▸ alive), first worker oldest,
      Option.some.injEq, eq_comm]
  refine ⟨first, fun listed same => firstLiveWorkerId_perm same, secondary, ?_, ?_⟩
  · intro worker oldest world release cfg args kms registration image tracked listed recorded named
      alive registered
    exact (secondary worker oldest tracked named alive).mp
      (not_secondary_of_guard listed recorded named (guard_of_registered registered))
  · intro worker oldest world debug phala cvmDetail cfg appId registration image tracked listed
      recorded named alive registered
    exact (secondary worker oldest tracked named alive).mp
      (not_secondary_of_recovered listed recorded named registered)

/-- Worker #1 is the oldest live worker, for both commands, exactly if no worker's creation text
sorts before that of the oldest. -/
theorem firstRight_iff (roster : Roster) : roster.FirstRight ↔
    ∀ worker, roster.Oldest worker →
      ∀ other ∈ roster.workers, other.entry.before worker.entry = false :=
  ⟨fun right worker oldest => (firstLiveWorkerId_iff oldest.1).mp (right.oldest worker oldest),
    firstRight_of_sorted⟩

theorem firstRight_of_alike (alike : ∀ worker ∈ roster.workers, ∀ other ∈ roster.workers,
    other.created.Alike worker.created) : roster.FirstRight :=
  firstRight_of_sorted fun worker oldest => sorted_of_alike oldest (alike worker oldest.1)

/-- The first of July 2026, and decimals of a second. -/
def july (fraction : List Char) (digits : Decimal.allDigits fraction = true) : Stamp where
  year := 2026
  month := 7
  day := 1
  lowerT := false
  hour := 0
  minute := 0
  second := 0
  fraction := fraction
  offset := .zulu false
  year_ := by decide
  month_ := by decide
  day_ := by decide
  hour_ := by decide
  minute_ := by decide
  second_ := by decide
  fraction_ := digits
  offset_ := rfl

def onTheSecond : DatedWorker := ⟨"01J0A", july [] rfl⟩

def halfASecondLater : DatedWorker := ⟨"01J0B", july ['5'] rfl⟩

def twoWorkers : Roster := ⟨[onTheSecond, halfASecondLater], by decide⟩

/-- `2026-07-01T00:00:00.5Z` sorts before `2026-07-01T00:00:00Z`. -/
theorem twoWorkers_misread :
    firstLiveWorkerId twoWorkers.entries = some halfASecondLater.id ∧
      twoWorkers.Oldest onTheSecond ∧ ¬ twoWorkers.FirstRight := by
  have chosen : firstLiveWorkerId twoWorkers.entries = some halfASecondLater.id := by
    decide
  have earlier : onTheSecond.created.instant < halfASecondLater.created.instant := by
    decide +kernel
  have oldest : twoWorkers.Oldest onTheSecond := by
    refine ⟨List.mem_cons_self, fun other mem => ?_⟩
    rcases List.mem_cons.mp mem with rfl | mem
    · exact le_rfl
    · rw [List.mem_singleton.mp mem]
      exact (Prod.Lex.toLex_lt_toLex.mpr (.inl earlier)).le
  refine ⟨chosen, oldest, fun right => ?_⟩
  have first := right.oldest onTheSecond oldest
  rw [chosen] at first
  exact absurd first (by decide)

end Roster

end GmMiner.Cli
