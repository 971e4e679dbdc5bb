import Pomodorough.Library.AtomicSteps
import Pomodorough.Restore.LineageStates
import Pomodorough.Restore.Snapshots

/-! # Snapshots, one file operation at a time

`create_snapshot` of `restore_drill.py` as the file operations it makes in account data and
in the ledger. Undisturbed it is `createSnapshot`; where it can stop, the two directories
are, but for temporary files, as one of its writes left them. -/
namespace Pomodorough.Restore.SnapshotSteps
open Pomodorough.Library.AtomicSteps Pomodorough.Library.Fallible Pomodorough.Library.OrderedMaps
open Pomodorough.Library.JsonText Pomodorough.Library.TextBytes
open Pomodorough.Restore.Trees Pomodorough.Restore.Ledger Pomodorough.Restore.Lineage
open Pomodorough.Restore.Snapshots Pomodorough.Restore.Copies Pomodorough.Restore.RecoveryRecords
open Pomodorough.Restore.ReceiptChains Pomodorough.Restore.RecoveryFiles
open Pomodorough.Restore.LineageStates

inductive Root where
  | data | ledger

/-- What a run is given by the system: the names of its temporary files, the order in which
a directory is listed, how much of a file is written at first, and random numbers. -/
structure System where
  temporaryName : Tree → Str
  temporary_pending : ∀ tree : Tree, isPendingName (temporaryName tree) = true
  temporary_new : ∀ tree : Tree, tree.find? (temporaryName tree) = none
  glob : Tree → List Str
  glob_nodup : ∀ tree : Tree, (glob tree).Nodup
  mem_glob : ∀ (tree : Tree) (path : Str), path ∈ glob tree ↔ isPendingName path = true ∧ tree.find? path ≠ none
  written : Nat
  fresh : RecoveryDomain
  fresh_valid : ValidDomain fresh

def directory (storage : Storage) : Root → Tree
  | .data => storage.data
  | .ledger => storage.ledger

def update (storage : Storage) (f : Tree → Tree) : Root → Storage
  | .data => { storage with data := f storage.data }
  | .ledger => { storage with ledger := f storage.ledger }

def put (root : Root) (path : Str) (node : Node) : Op Storage Failure Unit :=
  Op.modify fun storage => update storage (·.write path node) root

def unlink (root : Root) (path : Str) : Op Storage Failure Unit :=
  Op.modify fun storage => update storage (·.keep fun other => other != path) root

/-- `os.link` to a name that is not taken. -/
def link (root : Root) (path : Str) (node : Node) (storage : Storage) : Bool × Storage :=
  if ((directory storage root).find? path).isSome then (false, storage)
  else (true, update storage (·.write path node) root)

/-- `os.replace`, which does not replace a directory. -/
def replace (root : Root) (temporary path : Str) (node : Node) (storage : Storage) :
    Bool × Storage :=
  match (directory storage root).find? path with
  | some (.directory _) => (false, storage)
  | _ => (true, update storage (fun tree => (tree.write path node).keep (· != temporary)) root)

section Steps
variable (host : Host) (umask : Mode) (timeNs : Nat) (system : System)

/-- The part of `write_private_json` in which the temporary file is written. -/
def writeTemporary (root : Root) (value : Json) : Op Storage Failure Str := do
  let temporary ← Op.step fun storage =>
    let name := system.temporaryName (directory storage root)
    (name, update storage (·.write name (.file (0o600 &&& ~~~umask) [])) root)
  put root temporary (.file 0o600 [])
  put root temporary (.file 0o600 ((canonicalJson value).take system.written))
  put root temporary (recordNode value)
  pure temporary

/-- `write_private_json` with `exclusive=True`. When the link fails, the temporary file is
removed by the handler. -/
def writePrivateNew (root : Root) (path : Str) (value : Json) : Op Storage Failure Unit := do
  let temporary ← writeTemporary umask system root value
  let linked ← Op.step (link root path (recordNode value))
  unlink root temporary
  Op.require linked .fileExists

/-- `write_private_json` with `exclusive=False`. -/
def writePrivateOver (root : Root) (path : Str) (value : Json) : Op Storage Failure Unit := do
  let temporary ← writeTemporary umask system root value
  let replaced ← Op.step (replace root temporary path (recordNode value))
  if replaced then pure ()
  else do
    unlink root temporary
    throw .osError

/-- One file of the loop in `cleanup_pending_recovery`. -/
def cleanupFile (root : Root) (path : Str) : Op Storage Failure Unit := do
  Op.tryRead fun storage => match (directory storage root).find? path with
    | some (.file _ _) => .ok ()
    | some _ => .error (.valueError "unsafe interrupted recovery file")
    | none => .error .fileNotFound
  unlink root path

def cleanupPending (root : Root) : Op Storage Failure Unit := do
  let paths ← Op.read fun storage => system.glob (directory storage root)
  Op.forEach (cleanupFile root) paths

def ensureDomain : Op Storage Failure RecoveryDomain := do
  let found ← Op.read fun storage => loadRecoveryDomain host storage.ledger
  match found with
  | .ok domain => pure domain
  | .error .fileNotFound => do
    Op.tryRead fun storage => do
      let paths ← recoveryReceiptPaths storage.ledger
      check (paths = []) (.valueError "recovery receipts lack recovery domain")
    writePrivateNew umask system .ledger recoveryDomainFile (.obj (domainFields system.fresh))
    Op.tryRead fun storage => loadRecoveryDomain host storage.ledger
  | .error e => throw e

/-- What `advance_recovery_lineage` reads before it writes: the number of the next receipt,
the digest of the one before, and that of the data. -/
def planReceipt (domain : RecoveryDomain) (data ledger : Tree) : Except Failure (Nat × Str × Str) := do
  let receipts ← loadRecoveryReceipts host domain ledger
  let binding ← loadRecoveryBinding host data domain receipts false
  let state ← dataStateInventory host data
  let dataDigest := inventorySha256 host state
  check (¬ (binding = none ∧ (receipts.getLast?.any fun last =>
      last.dataInventorySha256 ≠ dataDigest) = true))
    (.valueError "unbound account data does not match interrupted recovery receipt")
  let sequence := receipts.length + 1
  check (sequence ≤ MAX_SAFE_REVISION) (.valueError "recovery receipt sequence exhausted")
  .ok (sequence, lastDigest zeroDigest receipts, dataDigest)

def advanceLineage : Op Storage Failure Unit := do
  let domain ← ensureDomain host umask system
  let (sequence, previous, dataDigest) ← Op.tryRead fun storage =>
    planReceipt host domain storage.data storage.ledger
  writePrivateNew umask system .ledger (receiptName sequence)
    (receiptJson host domain sequence previous dataDigest)
  writePrivateOver umask system .data recoveryBindingFile
    (bindingJson host domain (receiptOf host domain sequence previous dataDigest))

/-- The rest of `create_snapshot`, which only reads the two directories. -/
def takeSnapshot (data ledger : Tree) : Except Failure Created := do
  let dataBefore ← inventory host data
  let ledgerBefore ← inventory host ledger
  let ledgerCopy ← copyInventory host umask ledger ledgerBefore
  let dataCopy ← copyInventory host umask data dataBefore
  unchanged host data ledger dataBefore ledgerBefore
    (.runtimeError "source storage changed during snapshot")
  let manifest ← manifestPayload host timeNs dataCopy ledgerCopy
  check (manifest.dataInventory = dataBefore ∧ manifest.ledgerInventory = ledgerBefore)
    (.runtimeError "snapshot copy does not match source inventory")
  unchanged host dataCopy ledgerCopy dataBefore ledgerBefore
    (.runtimeError "snapshot validation changed copied storage")
  let (contents, checksum) := writeManifest host manifest
  .ok { data, ledger, manifest,
        snapshot := { manifest := contents, checksum, data := dataCopy, ledger := ledgerCopy } }

/-- `create_snapshot`. -/
def createSnapshotSteps : Op Storage Failure Created := do
  cleanupPending system .data
  cleanupPending system .ledger
  let _ ← Op.tryRead fun storage => validateDataAgainstLedger host storage.data storage.ledger
  advanceLineage host umask system
  Op.tryRead fun storage => takeSnapshot host umask timeNs storage.data storage.ledger

end Steps

/-! ## One directory of the two -/

section Update
variable {storage : Storage} {root : Root} {f g : Tree → Tree}

@[simp] theorem directory_update : directory (update storage f root) root = f (directory storage root) := by
  cases root <;> rfl

@[simp] theorem update_update :
    update (update storage f root) g root = update storage (fun tree => g (f tree)) root := by
  cases root <;> rfl

@[simp] theorem update_same : update storage (fun _ => directory storage root) root = storage := by
  cases root <;> rfl

theorem update_congr (h : f (directory storage root) = g (directory storage root)) :
    update storage f root = update storage g root := by
  cases root with
  | data => exact congrArg (fun data => (⟨data, storage.ledger⟩ : Storage)) h
  | ledger => exact congrArg (fun ledger => (⟨storage.data, ledger⟩ : Storage)) h

/-- Both directories are the same but for temporary files. -/
def BesideBoth (storage storage' : Storage) : Prop :=
  Beside storage.data storage'.data ∧ Beside storage.ledger storage'.ledger

theorem BesideBoth.refl (storage : Storage) : BesideBoth storage storage :=
  ⟨.refl storage.data, .refl storage.ledger⟩

theorem BesideBoth.trans {storage' storage'' : Storage} (h : BesideBoth storage storage')
    (h' : BesideBoth storage' storage'') : BesideBoth storage storage'' :=
  ⟨h.1.trans h'.1, h.2.trans h'.2⟩

theorem besideBoth_update (h : Beside (f (directory storage root)) (g (directory storage root))) :
    BesideBoth (update storage f root) (update storage g root) := by
  cases root with
  | data => exact ⟨h, .refl storage.ledger⟩
  | ledger => exact ⟨.refl storage.data, h⟩

theorem besideBoth_change (h : Beside (directory storage root) (f (directory storage root))) :
    BesideBoth storage (update storage f root) := by
  cases root with
  | data => exact ⟨h, .refl storage.ledger⟩
  | ledger => exact ⟨.refl storage.data, h⟩

theorem besideBoth_put (storage : Storage) (root : Root) {path : Str}
    (hpath : isPendingName path = true) (mode : Mode) (contents : Bytes) :
    BesideBoth storage (update storage (·.write path (.file mode contents)) root) :=
  besideBoth_change (.write _ hpath mode contents)

theorem besideBoth_unlink (storage : Storage) (root : Root) {path : Str}
    (hpath : isPendingName path = true) :
    BesideBoth storage (update storage (·.keep fun other => other != path) root) := by
  refine besideBoth_change (.keep _ fun other hother => ?_)
  rw [bne_iff_ne]
  rintro rfl
  rw [hpath] at hother
  cases hother

end Update

/-! ## Writing a private record -/

section Writing
variable {umask : Mode} {system : System} {root : Root} {path : Str} {value : Json}
  {storage state : Storage}

theorem exec_writeTemporary : (writeTemporary umask system root value).exec storage =
    (.ok (system.temporaryName (directory storage root)),
      update storage (·.write (system.temporaryName (directory storage root)) (recordNode value)) root) := by
  simp [writeTemporary, put, OrderedMap.write_write]

theorem states_writeTemporary (h : state ∈ (writeTemporary umask system root value).states storage) :
    BesideBoth storage state := by
  have hname := system.temporary_pending (directory storage root)
  obtain rfl | h := Op.mem_states_step_bind h
  · exact .refl state
  refine .trans (besideBoth_put storage root hname (0o600 &&& ~~~umask) []) ?_
  obtain rfl | h := Op.mem_states_modify_bind h
  · exact .refl _
  refine .trans (besideBoth_put _ root hname 0o600 []) ?_
  obtain rfl | h := Op.mem_states_modify_bind h
  · exact .refl _
  refine .trans (besideBoth_put _ root hname 0o600 ((canonicalJson value).take system.written)) ?_
  obtain rfl | h := Op.mem_states_modify_bind h
  · exact .refl _
  rw [Op.states_pure, List.mem_singleton] at h
  rw [h]
  exact besideBoth_put _ root hname 0o600 (canonicalJson value)

theorem temporary_ne (system : System) (storage : Tree) (hpath : isPendingName path = false) :
    path ≠ system.temporaryName storage := by
  intro heq
  have hname := system.temporary_pending storage
  rw [← heq, hpath] at hname
  cases hname

variable (umask system root value storage) in
/-- The record is there, or nothing has changed. -/
theorem exec_writePrivateNew (hpath : isPendingName path = false) :
    (writePrivateNew umask system root path value).exec storage =
      match writeNew (directory storage root) path value with
      | .ok written => (.ok (), update storage (fun _ => written) root)
      | .error e => (.error e, storage) := by
  have hnew := system.temporary_new (directory storage root)
  have hne := temporary_ne system (directory storage root) hpath
  cases hfind : (directory storage root).find? path with
  | none =>
    have hlink : ((directory storage root).write (system.temporaryName (directory storage root))
        (recordNode value)).find? path = none := by
      rw [OrderedMap.find?_write_of_ne hne, hfind]
    have hwrite : writeNew (directory storage root) path value =
        .ok ((directory storage root).write path (recordNode value)) := by
      simp [writeNew, makeNew, hfind, recordNode]
    rw [hwrite]
    simp only [writePrivateNew, Op.exec_bind, exec_writeTemporary, Op.exec_step, link, directory_update,
      hlink, Option.isSome_none, Bool.false_eq_true, if_false, unlink, Op.exec_modify,
      Op.exec_require, if_true, update_update]
    exact congrArg _ (update_congr (OrderedMap.keep_write_write (fun _ => bne_iff_ne) hnew hne))
  | some node =>
    have hlink : ((directory storage root).write (system.temporaryName (directory storage root))
        (recordNode value)).find? path = some node := by
      rw [OrderedMap.find?_write_of_ne hne, hfind]
    have hwrite : writeNew (directory storage root) path value = .error .fileExists := by
      simp [writeNew, makeNew, hfind]
    rw [hwrite]
    simp only [writePrivateNew, Op.exec_bind, exec_writeTemporary, Op.exec_step, link, directory_update,
      hlink, Option.isSome_some, if_true, unlink, Op.exec_modify, Op.exec_require, update_update,
      Bool.false_eq_true, if_false]
    refine congrArg (Prod.mk _) ((update_congr ?_).trans update_same)
    exact OrderedMap.keep_write (fun _ => bne_iff_ne) hnew

theorem states_writePrivateNew (hpath : isPendingName path = false)
    (h : state ∈ (writePrivateNew umask system root path value).states storage) :
    BesideBoth storage state ∨ (directory storage root).find? path = none ∧
      BesideBoth (update storage (·.write path (recordNode value)) root) state := by
  have hname := system.temporary_pending (directory storage root)
  have hne := temporary_ne system (directory storage root) hpath
  obtain h | ⟨name, made, hmade, h⟩ := Op.mem_states_bind h
  · exact .inl (states_writeTemporary h)
  rw [exec_writeTemporary] at hmade
  cases hmade
  have hmade : BesideBoth storage (update storage
      (·.write (system.temporaryName (directory storage root)) (recordNode value)) root) :=
    besideBoth_put storage root hname 0o600 (canonicalJson value)
  obtain rfl | h := Op.mem_states_step_bind h
  · exact .inl hmade
  have hunlinked : ∀ (made : Storage) (linked : Bool),
      state ∈ (do unlink root (system.temporaryName (directory storage root))
                  Op.require linked Failure.fileExists : Op Storage Failure Unit).states made →
      BesideBoth made state := by
    intro made linked h
    obtain rfl | h := Op.mem_states_modify_bind h
    · exact .refl _
    · rw [Op.states_require, List.mem_singleton] at h
      rw [h]
      exact besideBoth_unlink made root hname
  cases hfind : (directory storage root).find? path with
  | none =>
    have hlinked : link root path (recordNode value) (update storage
        (·.write (system.temporaryName (directory storage root)) (recordNode value)) root) =
        (true, update storage (fun tree => (tree.write (system.temporaryName
          (directory storage root)) (recordNode value)).write path (recordNode value)) root) := by
      simp [link, OrderedMap.find?_write_of_ne hne, hfind]
    simp only [hlinked] at h
    exact .inr ⟨rfl, .trans (besideBoth_update ((Beside.write _ hname 0o600 _).writeBoth hpath))
      (hunlinked _ true h)⟩
  | some node =>
    have hlinked : link root path (recordNode value) (update storage
        (·.write (system.temporaryName (directory storage root)) (recordNode value)) root) =
        (false, update storage (·.write (system.temporaryName (directory storage root))
          (recordNode value)) root) := by
      simp [link, OrderedMap.find?_write_of_ne hne, hfind]
    simp only [hlinked] at h
    exact .inl (hmade.trans (hunlinked _ false h))

variable (umask system root value storage) in
/-- The record is there, or nothing has changed. -/
theorem exec_writePrivateOver (hpath : isPendingName path = false) :
    (writePrivateOver umask system root path value).exec storage =
      match writeOver (directory storage root) path value with
      | .ok written => (.ok (), update storage (fun _ => written) root)
      | .error e => (.error e, storage) := by
  have hnew := system.temporary_new (directory storage root)
  have hne := temporary_ne system (directory storage root) hpath
  have hkept := OrderedMap.find?_write_of_ne (m := directory storage root) (a := recordNode value) hne
  have hwritten : update storage (fun tree => ((tree.write (system.temporaryName
        (directory storage root)) (recordNode value)).write path (recordNode value)).keep
          fun other => other != system.temporaryName (directory storage root)) root =
      update storage (fun _ => (directory storage root).write path (recordNode value)) root :=
    update_congr (OrderedMap.keep_write_write (fun _ => bne_iff_ne) hnew hne)
  simp only [writePrivateOver, Op.exec_bind, exec_writeTemporary, Op.exec_step, replace,
    directory_update, hkept, writeOver]
  cases hfind : (directory storage root).find? path with
  | none => simpa [recordNode] using hwritten
  | some node =>
    cases node with
    | file mode contents => simpa [recordNode] using hwritten
    | other => simpa [recordNode] using hwritten
    | directory mode =>
      simp only [Bool.false_eq_true, if_false, Op.exec_bind, unlink, Op.exec_modify, Op.exec_throw,
        update_update]
      refine congrArg (Prod.mk _) ((update_congr ?_).trans update_same)
      exact OrderedMap.keep_write (fun _ => bne_iff_ne) hnew

theorem replace_cases (root : Root) (temporary path : Str) (node : Node) (storage : Storage) :
    replace root temporary path node storage = (false, storage) ∨
      replace root temporary path node storage = (true, update storage
        (fun tree => (tree.write path node).keep (· != temporary)) root) := by
  unfold replace
  split
  · exact .inl rfl
  · exact .inr rfl

theorem states_writePrivateOver (hpath : isPendingName path = false)
    (h : state ∈ (writePrivateOver umask system root path value).states storage) :
    BesideBoth storage state ∨
      BesideBoth (update storage (·.write path (recordNode value)) root) state := by
  have hname := system.temporary_pending (directory storage root)
  have hne := temporary_ne system (directory storage root) hpath
  obtain h | ⟨name, made, hmade, h⟩ := Op.mem_states_bind h
  · exact .inl (states_writeTemporary h)
  rw [exec_writeTemporary] at hmade
  cases hmade
  have hmade : BesideBoth storage (update storage
      (·.write (system.temporaryName (directory storage root)) (recordNode value)) root) :=
    besideBoth_put storage root hname 0o600 (canonicalJson value)
  obtain rfl | h := Op.mem_states_step_bind h
  · exact .inl hmade
  have hreplaced : BesideBoth (update storage (·.write path (recordNode value)) root)
      (update (update storage (·.write (system.temporaryName (directory storage root))
        (recordNode value)) root) (fun tree => (tree.write path (recordNode value)).keep
          (· != system.temporaryName (directory storage root))) root) := by
    rw [update_update]
    have htemporary := Beside.write (directory storage root) hname 0o600 (canonicalJson value)
    refine besideBoth_update ((htemporary.writeBoth hpath).trans (.keep _ fun other hother => ?_))
    rw [bne_iff_ne]
    rintro rfl
    rw [hname] at hother
    cases hother
  obtain hfailed | hdone := replace_cases root (system.temporaryName (directory storage root)) path
    (recordNode value) (update storage (·.write (system.temporaryName (directory storage root))
      (recordNode value)) root)
  · simp only [hfailed, Bool.false_eq_true, if_false] at h
    refine .inl (hmade.trans ?_)
    obtain rfl | h := Op.mem_states_modify_bind h
    · exact .refl _
    · rw [Op.states_throw, List.mem_singleton] at h
      rw [h]
      exact besideBoth_unlink _ root hname
  · simp only [hdone, if_true, Op.states_pure, List.mem_singleton] at h
    rw [h]
    exact .inr hreplaced

end Writing

/-! ## Cleaning up -/

section Cleaning
variable {system : System} {root : Root} {path : Str} {storage state : Storage}

theorem states_cleanupFile (hpath : isPendingName path = true)
    (h : state ∈ (cleanupFile root path).states storage) : BesideBoth storage state := by
  obtain rfl | ⟨-, -, h⟩ := Op.mem_states_tryRead_bind h
  · exact .refl _
  simp only [unlink, Op.states_modify, List.mem_cons, List.not_mem_nil, or_false] at h
  obtain rfl | rfl := h
  · exact .refl _
  · exact besideBoth_unlink storage root hpath

theorem states_cleanupPending (h : state ∈ (cleanupPending system root).states storage) :
    BesideBoth storage state := by
  obtain rfl | h := Op.mem_states_step_bind h
  · exact .refl _
  · refine Op.states_forEach .refl (fun _ _ _ => .trans) (fun path hpath before after => ?_) h
    exact states_cleanupFile ((system.mem_glob _ path).mp hpath).1

theorem exec_cleanupFile {mode : Mode} {contents : Bytes}
    (h : (directory storage root).find? path = some (.file mode contents)) :
    (cleanupFile root path).exec storage =
      (.ok (), update storage (·.keep fun other => other != path) root) := by
  simp [cleanupFile, unlink, h]

theorem exec_cleanupFile_unsafe (hfound : (directory storage root).find? path ≠ none)
    (h : ¬ FileOrNone ((directory storage root).find? path)) :
    (cleanupFile root path).exec storage =
      (.error (.valueError "unsafe interrupted recovery file"), storage) := by
  cases hfind : (directory storage root).find? path with
  | none => exact absurd hfind hfound
  | some node =>
    cases node with
    | file mode contents => exact absurd (hfind ▸ trivial) h
    | directory mode => simp [cleanupFile, hfind]
    | other => simp [cleanupFile, hfind]

/-- The loop removes files until it meets something else. -/
theorem exec_cleanupFiles {paths : List Str} (hnodup : paths.Nodup)
    (hfound : ∀ path ∈ paths, (directory storage root).find? path ≠ none) :
    ((∀ path ∈ paths, FileOrNone ((directory storage root).find? path)) ∧
      (Op.forEach (cleanupFile root) paths).exec storage =
        (.ok (), update storage (·.keep fun path => decide (path ∉ paths)) root)) ∨
    ((∃ path ∈ paths, ¬ FileOrNone ((directory storage root).find? path)) ∧
      ∃ state, (Op.forEach (cleanupFile root) paths).exec storage =
        (.error (.valueError "unsafe interrupted recovery file"), state)) := by
  induction paths generalizing storage with
  | nil =>
    refine .inl ⟨nofun, ?_⟩
    have hkeep : (directory storage root).keep (fun path => decide (path ∉ ([] : List Str))) =
        directory storage root :=
      OrderedMap.ext_find? fun path => by simp [OrderedMap.find?_keep]
    exact congrArg (Prod.mk _) (((update_congr hkeep).trans update_same).symm)
  | cons path paths ih =>
    obtain ⟨hnot, hnodup⟩ := List.nodup_cons.mp hnodup
    obtain ⟨hpath, hrest⟩ := List.forall_mem_cons.mp hfound
    by_cases hfile : FileOrNone ((directory storage root).find? path)
    · have hstep : (cleanupFile root path).exec storage =
          (.ok (), update storage (·.keep fun other => other != path) root) := by
        cases hfind : (directory storage root).find? path with
        | none => exact absurd hfind hpath
        | some node =>
          rw [hfind] at hfile
          cases node with
          | file mode contents => exact exec_cleanupFile hfind
          | directory mode => cases hfile
          | other => cases hfile
      have hsame : ∀ other ∈ paths, (directory (update storage (·.keep fun other => other != path)
          root) root).find? other = (directory storage root).find? other := by
        intro other hother
        have hne : other ≠ path := fun heq => hnot (heq ▸ hother)
        simp [OrderedMap.find?_keep, hne]
      have hlater := ih hnodup fun other hother => by
        rw [hsame other hother]
        exact hrest other hother
      rw [Op.forEach, Op.exec_bind, hstep]
      obtain ⟨hall, hexec⟩ | ⟨⟨bad, hbad, hunsafe⟩, state, hexec⟩ := hlater
      · refine .inl ⟨List.forall_mem_cons.mpr ⟨hfile, fun other hother => ?_⟩, ?_⟩
        · rw [← hsame other hother]
          exact hall other hother
        · refine hexec.trans (congrArg (Prod.mk _) ?_)
          rw [update_update]
          refine update_congr (OrderedMap.ext_find? fun other => ?_)
          simp only [OrderedMap.find?_keep, List.mem_cons, not_or]
          by_cases heq : other = path <;> simp [heq]
      · refine .inr ⟨⟨bad, List.mem_cons_of_mem _ hbad, ?_⟩, state, hexec⟩
        rwa [hsame bad hbad] at hunsafe
    · refine .inr ⟨⟨path, List.mem_cons_self, hfile⟩, storage, ?_⟩
      rw [Op.forEach, Op.exec_bind, exec_cleanupFile_unsafe hpath hfile]

variable (system root storage) in
/-- The steps are `cleanup_pending_recovery`. -/
theorem exec_cleanupPending :
    ∃ state, (cleanupPending system root).exec storage =
        ((cleanupPendingRecovery (directory storage root)).map fun _ => (), state) ∧
      ∀ cleaned, cleanupPendingRecovery (directory storage root) = .ok cleaned →
        state = update storage (fun _ => cleaned) root := by
  have hrun : (cleanupPending system root).exec storage =
      (Op.forEach (cleanupFile root) (system.glob (directory storage root))).exec storage := rfl
  have hnodup := system.glob_nodup (directory storage root)
  have hfound := system.mem_glob (directory storage root)
  rw [hrun]
  generalize system.glob (directory storage root) = found at hnodup hfound
  obtain ⟨hall, hexec⟩ | ⟨⟨bad, hbad, hunsafe⟩, state, hexec⟩ :=
    exec_cleanupFiles hnodup fun path hpath => ((hfound path).mp hpath).2
  · have hcleaned : cleanupPendingRecovery (directory storage root) =
        .ok (cleaned (directory storage root)) := by
      refine cleanupPendingRecovery_iff.mpr ⟨fun path hpath => ?_, rfl⟩
      cases hfind : (directory storage root).find? path with
      | none => trivial
      | some node =>
        rw [← hfind]
        exact hall path ((hfound path).mpr ⟨hpath, by simp [hfind]⟩)
    rw [hcleaned]
    refine ⟨_, hexec, fun tree htree => ?_⟩
    cases htree
    refine update_congr (OrderedMap.ext_find? fun path => ?_)
    rw [OrderedMap.find?_keep, cleaned, OrderedMap.find?_keep]
    cases hpath : isPendingName path with
    | true =>
      by_cases hmem : path ∈ found
      · simp [hmem]
      · have hnone : (directory storage root).find? path = none := by
          by_contra hsome
          exact hmem ((hfound path).mpr ⟨hpath, hsome⟩)
        simp [hnone]
    | false =>
      have hmem : path ∉ found := fun hmem => by
        have hpending := ((hfound path).mp hmem).1
        rw [hpath] at hpending
        cases hpending
      simp [hmem]
  · have hrefused : ∀ tree, cleanupPendingRecovery (directory storage root) ≠ .ok tree :=
      fun tree htree =>
        hunsafe ((cleanupPendingRecovery_iff.mp htree).1 bad ((hfound bad).mp hbad).1)
    refine ⟨state, ?_, fun tree htree => absurd htree (hrefused tree)⟩
    rw [cleanupPendingRecovery_error hrefused]
    exact hexec

theorem exec_cleanupPending_ok (h : (cleanupPending system root).exec storage = (.ok (), state)) :
    state = update storage (fun _ => cleaned (directory storage root)) root := by
  obtain ⟨left, hleft, hcleaned⟩ := exec_cleanupPending system root storage
  rw [h] at hleft
  obtain ⟨hresult, rfl⟩ := Prod.mk.inj hleft
  obtain ⟨tree, htree, -⟩ := map_ok_iff.mp hresult.symm
  obtain ⟨-, rfl⟩ := cleanupPendingRecovery_iff.mp htree
  exact hcleaned _ htree

end Cleaning

/-! ## The steps are `createSnapshot` -/

section Running
variable {host : Host} {umask : Mode} {timeNs : Nat} {system : System} {storage : Storage}

variable (host umask system storage) in
theorem exec_ensureDomain :
    ∃ state, (ensureDomain host umask system).exec storage =
        ((ensureRecoveryDomain host system.fresh storage.ledger).map Prod.fst, state) ∧
      ∀ domain ledger, ensureRecoveryDomain host system.fresh storage.ledger = .ok (domain, ledger) →
        state = ⟨storage.data, ledger⟩ := by
  unfold ensureDomain ensureRecoveryDomain
  rw [Op.exec_bind, Op.exec_read]
  cases hload : loadRecoveryDomain host storage.ledger with
  | ok domain =>
    refine ⟨storage, rfl, fun domain' ledger h => ?_⟩
    cases h
    rfl
  | error e =>
    cases e with
    | fileNotFound =>
      simp only [Op.exec_bind, Op.exec_tryRead]
      cases hpaths : recoveryReceiptPaths storage.ledger with
      | error e => exact ⟨storage, rfl, fun _ _ h => by cases h⟩
      | ok paths =>
        by_cases hempty : paths = []
        · have hexec : (writePrivateNew umask system .ledger recoveryDomainFile
              (.obj (domainFields system.fresh))).exec storage =
                match writeNew storage.ledger recoveryDomainFile (.obj (domainFields system.fresh)) with
                | .ok written => (.ok (), update storage (fun _ => written) .ledger)
                | .error e => (.error e, storage) :=
            exec_writePrivateNew umask system .ledger _ storage not_pending_domain
          simp only [hempty, check, if_true, bind, Except.bind, hexec]
          cases hwrite : writeNew storage.ledger recoveryDomainFile
              (.obj (domainFields system.fresh)) with
          | error e =>
            simp only [domainFields] at hwrite
            rw [hwrite]
            exact ⟨storage, rfl, fun _ _ h => by cases h⟩
          | ok ledger =>
            simp only [domainFields] at hwrite
            rw [hwrite]
            refine ⟨⟨storage.data, ledger⟩, ?_, ?_⟩
            · cases hfound : loadRecoveryDomain host ledger <;> simp [update, hfound, Except.map]
            · cases hfound : loadRecoveryDomain host ledger <;> simp [hfound]
        · refine ⟨storage, ?_, ?_⟩
          · simp [hempty, check, bind, Except.bind, Except.map]
          · simp [hempty, check, bind, Except.bind]
    | valueError message => exact ⟨storage, rfl, fun _ _ h => by cases h⟩
    | runtimeError message => exact ⟨storage, rfl, fun _ _ h => by cases h⟩
    | fileExists => exact ⟨storage, rfl, fun _ _ h => by cases h⟩
    | osError => exact ⟨storage, rfl, fun _ _ h => by cases h⟩

theorem advanceRecoveryLineage_eq (fresh : RecoveryDomain) (data ledger : Tree) :
    advanceRecoveryLineage host fresh data ledger = (do
      let (domain, ledger) ← ensureRecoveryDomain host fresh ledger
      let (sequence, previous, dataDigest) ← planReceipt host domain data ledger
      let ledger ← writeNew ledger (receiptName sequence)
        (receiptJson host domain sequence previous dataDigest)
      let data ← writeOver data recoveryBindingFile
        (bindingJson host domain (receiptOf host domain sequence previous dataDigest))
      .ok (data, ledger)) := by
  simp only [advanceRecoveryLineage, planReceipt, writeRecoveryReceipt, bind_assoc, lastDigest]
  rfl

theorem createSnapshot_eq (fresh : RecoveryDomain) (data ledger : Tree) :
    createSnapshot host umask timeNs fresh data ledger = (do
      let data ← cleanupPendingRecovery data
      let ledger ← cleanupPendingRecovery ledger
      let _ ← validateDataAgainstLedger host data ledger
      let (data, ledger) ← advanceRecoveryLineage host fresh data ledger
      takeSnapshot host umask timeNs data ledger) := rfl

variable (host umask system storage) in
theorem exec_advanceLineage :
    ∃ state, (advanceLineage host umask system).exec storage =
        ((advanceRecoveryLineage host system.fresh storage.data storage.ledger).map fun _ => (), state) ∧
      ∀ data ledger, advanceRecoveryLineage host system.fresh storage.data storage.ledger =
        .ok (data, ledger) → state = ⟨data, ledger⟩ := by
  rw [advanceRecoveryLineage_eq, advanceLineage, Op.exec_bind]
  obtain ⟨ensured, hensured, hstate⟩ := exec_ensureDomain host umask system storage
  rw [hensured]
  cases hdomain : ensureRecoveryDomain host system.fresh storage.ledger with
  | error e => exact ⟨ensured, rfl, nofun⟩
  | ok found =>
    obtain ⟨domain, ledger⟩ := found
    rw [hstate domain ledger hdomain]
    simp only [Except.map, Op.exec_bind, Op.exec_tryRead]
    cases hplan : planReceipt host domain storage.data ledger with
    | error e =>
      refine ⟨⟨storage.data, ledger⟩, ?_, ?_⟩ <;> simp [hplan, bind, Except.bind]
    | ok plan =>
      obtain ⟨sequence, previous, dataDigest⟩ := plan
      have hreceipt := exec_writePrivateNew umask system .ledger
        (receiptJson host domain sequence previous dataDigest) ⟨storage.data, ledger⟩
        (not_pending_receiptName sequence)
      simp only [directory] at hreceipt
      cases hwrite : writeNew ledger (receiptName sequence)
          (receiptJson host domain sequence previous dataDigest) with
      | error e =>
        rw [hwrite] at hreceipt
        refine ⟨⟨storage.data, ledger⟩, ?_, ?_⟩ <;> simp [hplan, hwrite, hreceipt, bind, Except.bind]
      | ok written =>
        rw [hwrite] at hreceipt
        have hbinding := exec_writePrivateOver umask system .data
          (bindingJson host domain (receiptOf host domain sequence previous dataDigest))
          ⟨storage.data, written⟩ not_pending_binding
        simp only [directory] at hbinding
        cases hover : writeOver storage.data recoveryBindingFile
            (bindingJson host domain (receiptOf host domain sequence previous dataDigest)) with
        | error e =>
          rw [hover] at hbinding
          refine ⟨⟨storage.data, written⟩, ?_, ?_⟩ <;>
            simp [hplan, hwrite, hreceipt, hover, hbinding, update, bind, Except.bind]
        | ok bound =>
          rw [hover] at hbinding
          refine ⟨⟨bound, written⟩, ?_, ?_⟩ <;>
            simp [hplan, hwrite, hreceipt, hover, hbinding, update, bind, Except.bind]

/-- What is left of the two directories is what was copied. -/
theorem takeSnapshot_ok {data ledger : Tree} {created : Created}
    (h : takeSnapshot host umask timeNs data ledger = .ok created) :
    created.data = data ∧ created.ledger = ledger := by
  simp only [takeSnapshot, bind_ok_iff] at h
  obtain ⟨_, _, _, _, _, _, _, _, _, _, _, _, _, _, _, _, hcreated⟩ := h
  cases hcreated
  exact ⟨rfl, rfl⟩

variable (host umask timeNs system storage) in
/-- Undisturbed, the steps are `createSnapshot`. -/
theorem exec_createSnapshotSteps :
    ∃ state, (createSnapshotSteps host umask timeNs system).exec storage =
        (createSnapshot host umask timeNs system.fresh storage.data storage.ledger, state) ∧
      ∀ created, createSnapshot host umask timeNs system.fresh storage.data storage.ledger =
        .ok created → state = ⟨created.data, created.ledger⟩ := by
  rw [createSnapshot_eq, createSnapshotSteps, Op.exec_bind]
  obtain ⟨first, hfirst, hdata⟩ := exec_cleanupPending system .data storage
  simp only [directory] at hfirst hdata
  rw [hfirst]
  cases hcleaned : cleanupPendingRecovery storage.data with
  | error e => exact ⟨first, rfl, nofun⟩
  | ok data =>
    rw [hdata data hcleaned]
    obtain ⟨second, hsecond, hledger⟩ := exec_cleanupPending system .ledger ⟨data, storage.ledger⟩
    simp only [directory] at hsecond hledger
    simp only [Except.map, Op.exec_bind, update, hsecond]
    cases hcleaned : cleanupPendingRecovery storage.ledger with
    | error e => exact ⟨second, rfl, nofun⟩
    | ok ledger =>
      rw [hledger ledger hcleaned]
      simp only [Op.exec_tryRead, update]
      cases hvalid : validateDataAgainstLedger host data ledger with
      | error e =>
        refine ⟨⟨data, ledger⟩, ?_, ?_⟩ <;> simp [hvalid, bind, Except.bind]
      | ok watermark =>
        obtain ⟨advanced, hadvanced, hstate⟩ := exec_advanceLineage host umask system ⟨data, ledger⟩
        simp only at hadvanced hstate
        simp only [hadvanced]
        cases hadvance : advanceRecoveryLineage host system.fresh data ledger with
        | error e =>
          refine ⟨advanced, ?_, ?_⟩ <;> simp [hvalid, hadvance, Except.map, bind, Except.bind]
        | ok live =>
          obtain ⟨liveData, liveLedger⟩ := live
          rw [hstate liveData liveLedger hadvance]
          refine ⟨⟨liveData, liveLedger⟩, ?_, ?_⟩
          · simp [hvalid, hadvance, Except.map, bind, Except.bind]
          · intro created htaken
            simp only [hvalid, hadvance, bind, Except.bind] at htaken
            obtain ⟨rfl, rfl⟩ := takeSnapshot_ok htaken
            rfl

end Running

end Pomodorough.Restore.SnapshotSteps
