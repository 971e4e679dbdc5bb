import Pomodorough.Library.AtomicSteps
import Pomodorough.Store.Records

/-! # The deletion ledger and one account's files

`deletion_ledger.go`, for one user. A user's database path and ledger records
are named by (a digest of) the user id, so one account's files are a state of
their own. Every file or SQLite effect is one atomic step; writing a record is
the rename that publishes it, since the temporary file before it is read by
nothing. -/
namespace Pomodorough.Store.DeletionLedger
open Pomodorough.Library.AtomicSteps Pomodorough.Store.Records

/-- `time.Now()`, on a clock past the epoch. -/
structure WallClock where
  unixMilli : Int
  positive : 1 ≤ unixMilli
  deriving DecidableEq

/-! ## Files -/

/-- The contents of one database file. `inode` identifies the file itself, so
that a handle can outlive the path's entry; `generation` is the row of
`account_metadata`, which schema version 7 creates. -/
structure DatabaseFile where
  inode : Nat
  schemaVersion : Nat
  generation : Option Nat
  tables : UserTables
  deriving DecidableEq

/-- `schemaVersion` of store.go. -/
def currentSchemaVersion : Nat := 7

def DatabaseFile.empty (inode : Nat) : DatabaseFile where
  inode
  schemaVersion := 0
  generation := none
  tables := UserTables.initial

/-- What `migrate` makes of a file: version 7 inserts generation 1. -/
def DatabaseFile.migrate (file : DatabaseFile) : DatabaseFile :=
  if file.schemaVersion < currentSchemaVersion then
    { file with schemaVersion := currentSchemaVersion, generation := some 1 }
  else file

inductive AccountState where
  | active | deleted
  deriving DecidableEq, Repr

/-- `deletionRecord`, the tombstone. -/
structure DeletionRecord where
  version : Nat
  deletedGeneration : Nat
  deletedAtMs : Int
  deriving DecidableEq, Repr

/-- `accountLifecycleRecord`. -/
structure AccountLifecycleRecord where
  version : Nat
  generation : Nat
  state : AccountState
  updatedAtMs : Int
  deriving DecidableEq, Repr

inductive CredentialMethod where
  | bearer | cookie
  deriving DecidableEq, Repr

structure DeletionCredential where
  tokenHash : Hash
  method : CredentialMethod
  deriving DecidableEq, Repr

structure DeletionReceipt where
  version : Nat
  generation : Nat
  csrfHash : Option Hash
  deriving DecidableEq, Repr

/-- One account's files: the database at its path with its SQLite sidecars,
and its records in the deletion ledger (receipts by credential). -/
structure AccountDisk where
  file : Option DatabaseFile
  wal : Bool
  shm : Bool
  deletionRecord : Option DeletionRecord
  lifecycleRecord : Option AccountLifecycleRecord
  receipts : List (DeletionCredential × DeletionReceipt)
  nextInode : Nat
  deriving DecidableEq

/-- An account nobody has created. -/
def AccountDisk.blank : AccountDisk where
  file := none
  wal := false
  shm := false
  deletionRecord := none
  lifecycleRecord := none
  receipts := []
  nextInode := 0

/-- Change the contents of the file a handle has open; at the path this shows
only while the path still names that file. -/
def AccountDisk.updateFile (disk : AccountDisk) (inode : Nat)
    (change : DatabaseFile → DatabaseFile) : AccountDisk :=
  { disk with file := disk.file.map fun file => if file.inode = inode then change file else file }

abbrev DiskOp (α : Type) := Op AccountDisk StoreError α

/-! ## Database handles

A handle is the file it has open, as it last read it. -/

/-- The connection of `openDatabase`: SQLite creates a missing file, and WAL
mode puts the sidecars beside it. -/
def connectDatabase : DiskOp DatabaseFile := Op.step fun disk =>
  match disk.file with
  | some file => (file, { disk with wal := true, shm := true })
  | none =>
    let file := DatabaseFile.empty disk.nextInode
    (file, { disk with file := some file, wal := true, shm := true, nextInode := disk.nextInode + 1 })

/-- `migrate`, one transaction. -/
def migrateDatabase (db : DatabaseFile) : DiskOp DatabaseFile := do
  Op.require (db.schemaVersion ≤ currentSchemaVersion)
    (.failure "user database schema is newer than supported schema")
  Op.step fun disk => (db.migrate, disk.updateFile db.inode DatabaseFile.migrate)

def openDatabase : DiskOp DatabaseFile := do
  let db ← connectDatabase
  migrateDatabase db

/-- Closing the last connection removes the sidecars of the file. -/
def closeDatabase (db : DatabaseFile) : DiskOp Unit := Op.modify fun disk =>
  if disk.file.any (·.inode = db.inode) then { disk with wal := false, shm := false } else disk

def validGeneration (generation : Nat) : Bool := 1 ≤ generation && generation ≤ maxSafeRevision

def accountGeneration (db : DatabaseFile) : Except StoreError Nat :=
  match db.generation with
  | none => .error (.failure "read account generation")
  | some generation =>
    if validGeneration generation then .ok generation
    else .error (.failure "account generation is invalid")

/-- `removeUserFiles`: sidecars first, the database last. -/
def removeUserFiles : DiskOp Unit := do
  Op.modify fun disk => { disk with wal := false }
  Op.modify fun disk => { disk with shm := false }
  Op.modify fun disk => { disk with file := none }

/-! ## Ledger records -/

def DeletionRecord.valid (record : DeletionRecord) : Bool :=
  record.version == 1 && validGeneration record.deletedGeneration && 1 ≤ record.deletedAtMs

/-- `validAccountLifecycle`. -/
def AccountLifecycleRecord.valid (record : AccountLifecycleRecord) : Bool :=
  record.version == 1 && validGeneration record.generation && 1 ≤ record.updatedAtMs

/-- The deletion record is published. -/
def AccountDisk.publishDeletionRecord (disk : AccountDisk) (generation : Nat) (now : WallClock) :
    AccountDisk :=
  { disk with
    deletionRecord := some { version := 1, deletedGeneration := generation, deletedAtMs := now.unixMilli } }

/-- The lifecycle record is published. -/
def AccountDisk.publishLifecycleRecord (disk : AccountDisk) (generation : Nat)
    (state : AccountState) (now : WallClock) : AccountDisk :=
  { disk with
    lifecycleRecord := some { version := 1, generation, state, updatedAtMs := now.unixMilli } }

/-- `readDeletionRecord`: a missing record is generation 0. -/
def readDeletionRecord : DiskOp Nat := Op.tryRead fun disk =>
  match disk.deletionRecord with
  | none => .ok 0
  | some record =>
    if record.valid then .ok record.deletedGeneration
    else .error (.failure "deletion record is invalid")

def accountLifecycle : DiskOp (Option AccountLifecycleRecord) := Op.tryRead fun disk =>
  match disk.lifecycleRecord with
  | none => .ok none
  | some record =>
    if record.valid then .ok (some record)
    else .error (.failure "account lifecycle record is invalid")

/-- The generation of a lifecycle record; the zero record has generation 0. -/
def lifecycleGeneration : Option AccountLifecycleRecord → Nat
  | none => 0
  | some record => record.generation

/-- The record binds a live database of this generation. -/
def bindsActive (lifecycle : Option AccountLifecycleRecord) (generation : Nat) : Bool :=
  match lifecycle with
  | none => false
  | some record => record.state == .active && record.generation == generation

def readStoredAccountGeneration : DiskOp Nat := do
  let db ← openDatabase
  closeDatabase db
  Op.lift (accountGeneration db)

def validateStoredAccountLifecycle (deletedGeneration : Nat) : DiskOp Unit := do
  let present ← Op.read fun disk => disk.file.isSome
  if present then
    let generation ← readStoredAccountGeneration
    if generation ≤ deletedGeneration then pure ()
    else
      let lifecycle ← accountLifecycle
      Op.require (bindsActive lifecycle generation)
        (.failure "account database is not bound to current ledger lifecycle")
  else pure ()

def deletedGeneration : DiskOp Nat := do
  let generation ← readDeletionRecord
  validateStoredAccountLifecycle generation
  pure generation

def recordAccountLifecycle (generation : Nat) (state : AccountState) (now : WallClock) :
    DiskOp Unit := do
  let current ← accountLifecycle
  Op.require (validGeneration generation) (.failure "account lifecycle transition is invalid")
  Op.require (!(generation < lifecycleGeneration current ||
      (current.any fun record => record.generation == generation && record.state == .deleted &&
        state == .active)))
    (.failure "account lifecycle transition would roll back deletion state")
  Op.modify fun disk => disk.publishLifecycleRecord generation state now

def recordDeletedAccountLifecycle (generation : Nat) (now : WallClock) : DiskOp Unit := do
  let current ← accountLifecycle
  if generation < lifecycleGeneration current then pure ()
  else recordAccountLifecycle generation .deleted now

def recordDeletion (generation : Nat) (now : WallClock) : DiskOp Unit := do
  let current ← deletedGeneration
  let generation := max current generation
  Op.require (validGeneration generation) (.failure "account generation is invalid")
  Op.modify fun disk => disk.publishDeletionRecord generation now
  recordDeletedAccountLifecycle generation now

def currentOrNextAccountGeneration : DiskOp Nat := do
  let deleted ← deletedGeneration
  let present ← Op.read fun disk => disk.file.isSome
  if present then
    let db ← openDatabase
    closeDatabase db
    let generation ← Op.lift (accountGeneration db)
    pure (max deleted generation)
  else
    pure (if 0 < deleted then deleted else 1)

/-- The statement `UPDATE account_metadata SET generation = ?` through a handle. -/
def updateGeneration (db : DatabaseFile) (generation : Nat) : DiskOp DatabaseFile :=
  Op.step fun disk => ({ db with generation := some generation },
    disk.updateFile db.inode fun file => { file with generation := some generation })

/-- `setAccountGeneration`: the ledger first, then the account. -/
def setAccountGeneration (db : DatabaseFile) (generation : Nat) (now : WallClock) :
    DiskOp DatabaseFile := do
  Op.require (validGeneration generation) (.failure "account generation is invalid")
  recordAccountLifecycle generation .active now
  updateGeneration db generation

/-! ## Startup -/

/-- `applyAccountDeletionObligation`, for a user with files in the directory. -/
def applyAccountDeletionObligation (now : WallClock) : DiskOp Unit := do
  let deleted ← deletedGeneration
  let lifecycle ← accountLifecycle
  let present ← Op.read fun disk => disk.file.isSome
  if present then
    let generation ← readStoredAccountGeneration
    if generation ≤ deleted then
      recordDeletedAccountLifecycle generation now
      removeUserFiles
    else
      Op.require (bindsActive lifecycle generation)
        (.failure "account database is not bound to current ledger lifecycle")
  else if lifecycleGeneration lifecycle ≤ deleted && 0 < deleted then
    recordDeletedAccountLifecycle deleted now
    removeUserFiles
  else
    throw (.failure "account sidecars lack a deletion obligation")

/-- `validateAccountLifecycleEntry`, for the account's lifecycle file. -/
def validateAccountLifecycleEntry : DiskOp Unit := do
  let recorded ← Op.read fun disk => disk.lifecycleRecord
  match recorded with
  | none => pure ()
  | some lifecycle =>
    Op.require lifecycle.valid (.failure "account lifecycle inventory contains an invalid record")
    let deleted ← readDeletionRecord
    Op.require (!(lifecycle.state == .deleted && deleted < lifecycle.generation))
      (.failure "deleted account lifecycle lacks its monotonic tombstone")

/-- The account has an entry `accountStorageUserIDs` lists. -/
def AccountDisk.hasStorage (disk : AccountDisk) : Bool :=
  disk.file.isSome || disk.wal || disk.shm

/-- What `NewWithDeletionLedger` does for one user: the ledger inventory first,
the deletion obligations of the files it finds next. -/
def startAccount (now : WallClock) : DiskOp Unit := do
  validateAccountLifecycleEntry
  let stored ← Op.read AccountDisk.hasStorage
  if stored then applyAccountDeletionObligation now else pure ()

end Pomodorough.Store.DeletionLedger
