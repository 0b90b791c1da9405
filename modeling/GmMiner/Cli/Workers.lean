import GmMiner.Cli.Config
import GmMiner.Lib.Records

/-!
The worker records of a network (`NetworkEntry` of `cli/src/config.rs`).

A record is looked up by its name and by the registry's id. Both stay unique through any history of
updates (`Keyed`), and each update is described against the list before it (`Effect`).
-/

namespace GmMiner.Cli

open GmMiner.Lib

namespace NetworkEntry

/-- Whether a record is of the same worker as the incoming one. -/
def sameWorker (record other : WorkerRecord) : Bool :=
  (record.workerId != "" && other.workerId == record.workerId) || other.appName == record.appName

def upsertWorker (entry : NetworkEntry) (record : WorkerRecord) : NetworkEntry :=
  { entry with
    workers := Records.upsert (sameWorker record) record entry.workers
    legacyNodeSecret := none }

def removeWorkerById (entry : NetworkEntry) (workerId : String) :
    NetworkEntry × Option WorkerRecord :=
  let removed := Records.remove (fun worker => worker.workerId == workerId) entry.workers
  ({ entry with workers := removed.1 }, removed.2)

/-- A record without an id, by the id or the name of its app. -/
def isProvisional (id : String) (worker : WorkerRecord) : Bool :=
  worker.workerId == "" && (worker.appId == id || worker.appName == id)

def removeProvisionalWorker (entry : NetworkEntry) (id : String) :
    NetworkEntry × Option WorkerRecord :=
  let removed := Records.remove (isProvisional id) entry.workers
  ({ entry with workers := removed.1 }, removed.2)

end NetworkEntry

inductive WorkerUpdate
  | upsert (record : WorkerRecord)
  | removeById (workerId : String)
  | removeProvisional (id : String)

open NetworkEntry

namespace WorkerUpdate

/-- The entry after an update, and the record it returns. -/
def apply (entry : NetworkEntry) : WorkerUpdate → NetworkEntry × Option WorkerRecord
  | upsert record => (entry.upsertWorker record, none)
  | removeById workerId => entry.removeWorkerById workerId
  | removeProvisional id => entry.removeProvisionalWorker id

/-- An entry after a history of updates. -/
def applyAll (entry : NetworkEntry) (history : List WorkerUpdate) : NetworkEntry :=
  history.foldl (fun entry update => (update.apply entry).1) entry

end WorkerUpdate

/-! ### Names and ids -/

/-- Two records of different workers: of different names, and of different ids if they have any. -/
def DifferentWorkers (worker other : WorkerRecord) : Prop :=
  worker.appName ≠ other.appName ∧ (worker.workerId ≠ "" → worker.workerId ≠ other.workerId)

/-- The names are distinct, and so are the ids that are not blank. -/
def Keyed (entry : NetworkEntry) : Prop := entry.workers.Pairwise DifferentWorkers

/-- Two workers differ both ways. -/
theorem DifferentWorkers.symm {worker other : WorkerRecord} (apart : DifferentWorkers worker other) :
    DifferentWorkers other worker := by
  refine ⟨apart.1.symm, fun named same => ?_⟩
  rw [same] at named
  exact apart.2 named same.symm

/-- Records that are not of one worker differ. -/
theorem differentWorkers_of_not_sameWorker {record other : WorkerRecord}
    (different : sameWorker record other = false) : DifferentWorkers other record := by
  simp only [sameWorker, Bool.or_eq_false_iff, Bool.and_eq_false_imp, bne_iff_ne, ne_eq,
    beq_eq_false_iff_ne] at different
  refine ⟨different.2, fun named same => ?_⟩
  exact different.1 (same ▸ named) same

/-- What an update does to an entry. -/
def Effect (before : NetworkEntry) (after : NetworkEntry × Option WorkerRecord) :
    WorkerUpdate → Prop
  | .upsert record =>
      Records.Upserted (sameWorker record) record before.workers after.1.workers ∧
        after.1 = { before with workers := after.1.workers, legacyNodeSecret := none }
  | .removeById workerId =>
      Records.Removed (fun worker => worker.workerId == workerId) before.workers
          (after.1.workers, after.2) ∧
        after.1 = { before with workers := after.1.workers }
  | .removeProvisional id =>
      Records.Removed (isProvisional id) before.workers (after.1.workers, after.2) ∧
        after.1 = { before with workers := after.1.workers }

/-- Every update has the effect its kind says. -/
theorem effect_apply (entry : NetworkEntry) (update : WorkerUpdate) :
    Effect entry (update.apply entry) update := by
  cases update with
  | upsert record => exact ⟨Records.upserted_upsert _ _, rfl⟩
  | removeById workerId => exact ⟨Records.removed_remove _, rfl⟩
  | removeProvisional id => exact ⟨Records.removed_remove _, rfl⟩

/-- An update keeps the workers keyed. -/
theorem Effect.keyed {before : NetworkEntry} {after : NetworkEntry × Option WorkerRecord}
    {update : WorkerUpdate} (effect : Effect before after update) (keyed : Keyed before) :
    Keyed after.1 := by
  cases update with
  | upsert record =>
      exact effect.1.pairwise (fun _ _ => DifferentWorkers.symm)
        (fun _ => differentWorkers_of_not_sameWorker) keyed
  | removeById workerId => exact effect.1.pairwise keyed
  | removeProvisional id => exact effect.1.pairwise keyed

/-- So does a history of updates. -/
theorem keyed_applyAll {entry : NetworkEntry} (keyed : Keyed entry) (history : List WorkerUpdate) :
    Keyed (WorkerUpdate.applyAll entry history) := by
  induction history generalizing entry with
  | nil => exact keyed
  | cons update rest ih => exact ih ((effect_apply entry update).keyed keyed)

/-- With a registered id nothing else is found. -/
theorem not_mem_of_removeById {entry : NetworkEntry} (keyed : Keyed entry) {workerId : String}
    (registered : workerId ≠ "") :
    ∀ worker ∈ (entry.removeWorkerById workerId).1.workers, worker.workerId ≠ workerId := by
  have one : entry.workers.Pairwise fun a b =>
      (a.workerId == workerId) = true → (b.workerId == workerId) = false := by
    refine List.Pairwise.imp (fun {a b} apart concerned => ?_) keyed
    have same : a.workerId = workerId := by simpa using concerned
    have different := apart.2 (same ▸ registered)
    simpa [← same] using different.symm
  intro worker mem
  simpa using (effect_apply entry (.removeById workerId)).1.none_left one worker mem

/-- A record dropped as provisional was never registered. -/
theorem provisional_of_removed {entry : NetworkEntry} {id : String} {dropped : WorkerRecord}
    (returned : (entry.removeProvisionalWorker id).2 = some dropped) : dropped.workerId = "" := by
  have concerned := (effect_apply entry (.removeProvisional id)).1.concerned returned
  simp only [isProvisional, Bool.and_eq_true, beq_iff_eq] at concerned
  exact concerned.1

/-- After any history the names and the ids are unique, and an update changes just what it
concerns. -/
theorem history_update (history : List WorkerUpdate) (update : WorkerUpdate) :
    let entry := WorkerUpdate.applyAll {} history
    Keyed entry ∧ Effect entry (update.apply entry) update ∧
      (∀ record, update = .upsert record → (update.apply entry).1.legacyNodeSecret = none) ∧
      (∀ workerId, update = .removeById workerId → workerId ≠ "" →
        ∀ worker ∈ (update.apply entry).1.workers, worker.workerId ≠ workerId) ∧
      ∀ id dropped, update = .removeProvisional id → (update.apply entry).2 = some dropped →
        dropped.workerId = "" := by
  have fresh : Keyed {} := List.Pairwise.nil
  have keyed : Keyed (WorkerUpdate.applyAll {} history) := keyed_applyAll fresh history
  refine ⟨keyed, effect_apply _ update, ?_, ?_, ?_⟩
  · rintro record rfl
    rfl
  · rintro workerId rfl registered
    exact not_mem_of_removeById keyed registered
  · rintro id dropped rfl returned
    exact provisional_of_removed returned

/-- Two deployments of one app that were never registered. -/
def firstStub : WorkerRecord := ⟨"", "app_1", "miner", "s1", some [], none, false⟩

def secondStub : WorkerRecord := ⟨"", "app_1", "miner-renamed", "s2", some [], none, false⟩

theorem twoStubs_removed :
    let entry := WorkerUpdate.applyAll {} [.upsert firstStub, .upsert secondStub]
    isProvisional "app_1" firstStub = true ∧ isProvisional "app_1" secondStub = true ∧
      entry.workers = [firstStub, secondStub] ∧
        entry.removeProvisionalWorker "app_1" = ({ workers := [secondStub] }, some firstStub) := by
  decide

end GmMiner.Cli
