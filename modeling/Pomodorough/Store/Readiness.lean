import Mathlib.Data.String.Basic
import Pomodorough.Library.Fallible
import Pomodorough.Library.KeyedLog
import Pomodorough.Store.Startup

/-! # Readiness

`readiness.go`: what a running server checks of its two directories without
changing them, and the startup that goes through the same directories. Files are
told by name here. A digest names the records of a user. -/
namespace Pomodorough.Store.Readiness
open Pomodorough.Library.Fallible Pomodorough.Library.AtomicSteps Pomodorough.Library.KeyedLog
open Pomodorough.Store.Records Pomodorough.Store.DeletionLedger Pomodorough.Store.Accounts
open Pomodorough.Store.Startup

/-! ## Two directories -/

/-- What `Lstat` tells of a file. -/
structure FileInfo where
  regular : Bool
  permissions : Nat
  size : Nat
  deriving DecidableEq

structure DirectoryInfo where
  isDirectory : Bool
  symbolicLink : Bool
  permissions : Nat
  deriving DecidableEq

/-- A file of the ledger, with what strict decoding makes of it as a record of
each kind. -/
structure LedgerFile where
  info : FileInfo
  deletion : Option DeletionRecord
  lifecycle : Option AccountLifecycleRecord
  receipt : Option DeletionReceipt

/-- A file beside the accounts: what a connection reads there, together with the
sidecars, and whether `quick_check` finds it sound. -/
structure UserFile where
  info : FileInfo
  database : Option DatabaseFile
  sound : Bool

/-- The directory of the accounts and that of the ledger. -/
structure Directories where
  usersInfo : DirectoryInfo
  ledgerInfo : DirectoryInfo
  /-- the ledger is not below the data directory -/
  independent : Bool
  users : List (String × UserFile)
  ledger : List (String × LedgerFile)
  users_nodup : (users.map Prod.fst).Nodup
  ledger_nodup : (ledger.map Prod.fst).Nodup

def Directories.userFile (d : Directories) (name : String) : Option UserFile := d.users.lookup name

def Directories.ledgerFile (d : Directories) (name : String) : Option LedgerFile :=
  d.ledger.lookup name

/-! ## Names -/

def hasSuffix (suffix name : String) : Bool := suffix.toList.isSuffixOf name.toList

def trimSuffix (suffix name : String) : String :=
  if hasSuffix suffix name then
    String.ofList (name.toList.take (name.length - suffix.length))
  else name

def hasPrefix (start name : String) : Bool := start.toList.isPrefixOf name.toList

def trimPrefix (start name : String) : String :=
  if hasPrefix start name then String.ofList (name.toList.drop start.length) else name

def lowerHexadecimal (c : Char) : Bool := c.isDigit || ('a' ≤ c && c ≤ 'f')

/-- A digest as it stands in the name of a record. -/
def isDigest (digest : String) : Bool :=
  digest.length = 64 && digest.toList.all lowerHexadecimal

/-- `^[A-Za-z0-9_-]{32}$` -/
def validateUserID (id : String) : Bool :=
  id.length = 32 && id.toList.all fun c => c.isAlphanum || c = '_' || c = '-'

def storageSuffixes : List String := [".sqlite", ".sqlite-wal", ".sqlite-shm"]

/-- The user whose storage the name belongs to. -/
def accountStorageUserID (name : String) : Option String :=
  storageSuffixes.findSome? fun suffix =>
    if hasSuffix suffix name then
      let userID := trimSuffix suffix name
      if validateUserID userID then some userID else none
    else none

def hasAccountStorageSuffix (name : String) : Bool :=
  storageSuffixes.any fun suffix => hasSuffix suffix name

/-- The hexadecimal SHA-256 of a text. -/
abbrev HexDigest := String → String

def deletionRecordName (sha256 : HexDigest) (userID : String) : String := sha256 userID ++ ".json"

def accountLifecycleName (sha256 : HexDigest) (userID : String) : String :=
  "account-" ++ sha256 userID ++ ".json"

/-! ## Records -/

/-- The metadata a record has to have to be read. -/
def FileInfo.isPrivate (info : FileInfo) : Bool :=
  info.regular && info.permissions &&& 0o077 = 0 && info.size ≤ 4096

/-- A record that is read for its fields, or none if there is no file. -/
def readRecord {α : Type} (what : String) (decode : LedgerFile → Option α) (d : Directories)
    (name : String) : Except StoreError (Option α) :=
  match d.ledgerFile name with
  | none => .ok none
  | some file => do
    check (file.info.isPrivate) (.failure (what ++ " has unsafe metadata"))
    match decode file with
    | none => .error (.failure ("decode " ++ what))
    | some record => .ok (some record)

def readDeletionRecord (d : Directories) (name : String) : Except StoreError Nat := do
  let record ← readRecord "deletion record" LedgerFile.deletion d name
  match record with
  | none => .ok 0
  | some record => do
    check (record.valid) (.failure "deletion record is invalid")
    .ok record.deletedGeneration

def accountLifecycle (sha256 : HexDigest) (d : Directories) (userID : String) :
    Except StoreError (Option AccountLifecycleRecord) := do
  let record ← readRecord "private ledger record" LedgerFile.lifecycle d
    (accountLifecycleName sha256 userID)
  match record with
  | none => .ok none
  | some record => do
    check (record.valid) (.failure "account lifecycle record is invalid")
    .ok (some record)

/-- `validateAccountLifecycleEntry`, of startup and of readiness. -/
def validateAccountLifecycleEntry (d : Directories) (name : String) : Except StoreError Unit := do
  let digest := trimSuffix ".json" (trimPrefix "account-" name)
  check (isDigest digest ∧ name = "account-" ++ digest ++ ".json")
    (.failure "account lifecycle ledger contains an invalid filename")
  let lifecycle ← readRecord "private ledger record" LedgerFile.lifecycle d name
  match lifecycle with
  | none => .error (.failure "read account lifecycle inventory")
  | some lifecycle => do
    check (lifecycle.valid) (.failure "account lifecycle inventory contains an invalid record")
    let deleted ← readDeletionRecord d (digest ++ ".json")
    check (¬ (lifecycle.state = .deleted ∧ deleted < lifecycle.generation))
      (.failure "deleted account lifecycle lacks its monotonic tombstone")

/-! ## Readiness -/

/-- A failure with the code that readiness reports. -/
structure ReadinessFailure where
  code : String
  err : StoreError
  deriving DecidableEq

def readinessError {α : Type} (code : String) : Except StoreError α → Except ReadinessFailure α
  | .ok a => .ok a
  | .error e => .error ⟨code, e⟩

@[simp] theorem readinessError_ok_iff {α : Type} {code : String} {x : Except StoreError α} {a : α} :
    readinessError code x = .ok a ↔ x = .ok a := by
  cases x <;> simp [readinessError]

def readinessInventoryLimit : Nat := 4096

def validateReadinessDirectory (info : DirectoryInfo) : Except StoreError Unit := do
  check (info.isDirectory ∧ ¬ info.symbolicLink) (.failure "readiness path is not a directory")
  check (info.permissions = 0o700)
    (.failure "readiness directory permissions are unsafe or unusable")

/-- The entries of a directory, by name. -/
def readinessEntries {α : Type} (entries : List (String × α)) :
    Except StoreError (List (String × α)) := do
  check (entries.length ≤ readinessInventoryLimit)
    (.failure "readiness inventory exceeds bounded limit")
  .ok (sortBy Prod.fst entries)

def validateReadinessLedgerFile (file : LedgerFile) : Except StoreError Unit :=
  check (file.info.regular ∧ file.info.permissions = 0o600)
    (.failure "readiness ledger file has unsafe or unusable metadata")

def validateReadinessReceipt (d : Directories) (name : String) : Except StoreError Unit := do
  let digest := trimSuffix ".json" (trimPrefix "receipt-" name)
  check (isDigest digest ∧ name = "receipt-" ++ digest ++ ".json")
    (.failure "deletion receipt ledger contains an invalid filename")
  let receipt ← readRecord "private ledger record" LedgerFile.receipt d name
  match receipt with
  | none => .error (.failure "read deletion receipt inventory")
  | some receipt =>
    check (validDeletionReceipt receipt .bearer ∨ validDeletionReceipt receipt .cookie)
      (.failure "deletion receipt inventory contains an invalid record")

def isDeletionRecordName (name : String) : Bool :=
  let digest := trimSuffix ".json" name
  name = digest ++ ".json" && isDigest digest

def validateReadinessLedgerEntry (d : Directories) (entry : String × LedgerFile) :
    Except StoreError Unit :=
  if hasPrefix "account-" entry.1 then do
    validateReadinessLedgerFile entry.2
    validateAccountLifecycleEntry d entry.1
  else if hasPrefix "receipt-" entry.1 then do
    validateReadinessLedgerFile entry.2
    validateReadinessReceipt d entry.1
  else if isDeletionRecordName entry.1 then do
    validateReadinessLedgerFile entry.2
    let _ ← readDeletionRecord d entry.1
    .ok ()
  else .ok ()

def validateReadinessDatabaseFile (d : Directories) (name : String) : Except StoreError UserFile :=
  match d.userFile name with
  | none => .error (.failure "inspect account database")
  | some file => do
    check (file.info.regular ∧ file.info.permissions = 0o600)
      (.failure "account database has unsafe metadata")
    .ok file

/-- Whether each user has a database beside the entries that name the user. -/
abbrev ReadinessAccounts := AList fun _ : String => Bool

def collectReadinessAccount (d : Directories) (name : String) (accounts : ReadinessAccounts) :
    Except StoreError ReadinessAccounts :=
  match accountStorageUserID name with
  | none => do
    check (¬ hasAccountStorageSuffix name) (.failure "account storage filename is invalid")
    .ok accounts
  | some userID => do
    let _ ← validateReadinessDatabaseFile d name
    if hasSuffix ".sqlite" name then .ok (accounts.insert userID true)
    else if (accounts.lookup userID).isSome then .ok accounts
    else .ok (accounts.insert userID false)

def collectReadinessAccounts (d : Directories) :
    List (String × UserFile) → ReadinessAccounts → Except StoreError ReadinessAccounts
  | [], accounts => .ok accounts
  | entry :: entries, accounts => do
    let accounts ← collectReadinessAccount d entry.1 accounts
    collectReadinessAccounts d entries accounts

def readinessSidecarExists (d : Directories) (name : String) : Except StoreError Bool :=
  match d.userFile name with
  | none => .ok false
  | some file => do
    check (file.info.regular ∧ file.info.permissions = 0o600)
      (.failure "account database sidecar has unsafe metadata")
    .ok true

/-- The read-only connection. Without sidecars it reads the file alone. -/
def openReadinessDatabase (d : Directories) (name : String) (file : UserFile) :
    Except StoreError DatabaseFile := do
  let walExists ← readinessSidecarExists d (name ++ "-wal")
  let shmExists ← readinessSidecarExists d (name ++ "-shm")
  check (walExists = shmExists) (.failure "account database sidecars are incomplete")
  match file.database with
  | none => .error (.failure "connect to account database")
  | some db => .ok db

def validateReadinessDatabase (file : UserFile) (db : DatabaseFile) : Except StoreError Nat := do
  check (db.schemaVersion = currentSchemaVersion)
    (.failure ("account schema version " ++ toString db.schemaVersion ++ " is unsupported"))
  check (file.sound) (.failure "account database integrity check failed")
  accountGeneration db

def validateReadinessLifecycle (sha256 : HexDigest) (d : Directories) (userID : String)
    (generation : Nat) : Except StoreError Unit := do
  let deletedGeneration ← readDeletionRecord d (deletionRecordName sha256 userID)
  let lifecycle ← accountLifecycle sha256 d userID
  check (¬ (generation ≤ deletedGeneration ∨ ¬ bindsActive lifecycle generation))
    (.failure "account database is not bound to current ledger lifecycle")

def validateReadinessAccount (sha256 : HexDigest) (d : Directories) (userID : String) :
    Except ReadinessFailure Unit := do
  let name := userID ++ ".sqlite"
  let file ← readinessError "storage_unavailable" (validateReadinessDatabaseFile d name)
  let db ← readinessError "database_unavailable" (openReadinessDatabase d name file)
  let generation ← readinessError "database_unavailable" (validateReadinessDatabase file db)
  readinessError "lifecycle_invalid" (validateReadinessLifecycle sha256 d userID generation)

def validateReadinessAccountInventory (sha256 : HexDigest) (d : Directories)
    (accounts : ReadinessAccounts) : Except ReadinessFailure Unit :=
  checkAll (fun userID => do
    readinessError "storage_unavailable"
      (check (accounts.lookup userID = some true) (.failure "account sidecar lacks its database"))
    validateReadinessAccount sha256 d userID) (sortBy id accounts.keys)

def validateReadinessAccounts (sha256 : HexDigest) (d : Directories)
    (entries : List (String × UserFile)) : Except ReadinessFailure Unit := do
  let accounts ← readinessError "storage_unavailable" (collectReadinessAccounts d entries ∅)
  validateReadinessAccountInventory sha256 d accounts

def independentLedger (d : Directories) : Except StoreError Unit :=
  check (d.independent) (.failure "deletion ledger directory must be outside DATA_DIR")

/-- `Store.Ready` -/
def ready (sha256 : HexDigest) (d : Directories) : Except ReadinessFailure Unit := do
  readinessError "storage_unavailable" (validateReadinessDirectory d.usersInfo)
  readinessError "ledger_unavailable" (validateReadinessDirectory d.ledgerInfo)
  readinessError "ledger_unavailable" (independentLedger d)
  let ledgerEntries ← readinessError "ledger_unavailable" (readinessEntries d.ledger)
  readinessError "lifecycle_invalid" (checkAll (validateReadinessLedgerEntry d) ledgerEntries)
  let accountEntries ← readinessError "storage_unavailable" (readinessEntries d.users)
  validateReadinessAccounts sha256 d accountEntries

/-! ## Startup on the same directories -/

/-- A record that is refused before its fields are read stands as one that is
refused for its fields. -/
def Directories.deletionRecord (d : Directories) (name : String) : Option DeletionRecord :=
  (d.ledgerFile name).map fun file =>
    (file.deletion.filter fun _ => file.info.isPrivate).getD ⟨0, 0, 0⟩

def Directories.lifecycleRecord (d : Directories) (name : String) :
    Option AccountLifecycleRecord :=
  (d.ledgerFile name).map fun file =>
    (file.lifecycle.filter fun _ => file.info.isPrivate).getD ⟨0, 0, .active, 0⟩

/-- A file that no connection can read stands as one of a schema that none can
migrate. -/
def unreadableDatabase : DatabaseFile :=
  { DatabaseFile.empty 0 with schemaVersion := currentSchemaVersion + 1 }

/-- One account's files in the two directories. Startup reads no receipt. -/
def Directories.account (sha256 : HexDigest) (d : Directories) (userID : String) :
    AccountDisk where
  file := (d.userFile (userID ++ ".sqlite")).map fun file =>
    file.database.getD unreadableDatabase
  wal := (d.userFile (userID ++ ".sqlite-wal")).isSome
  shm := (d.userFile (userID ++ ".sqlite-shm")).isSome
  deletionRecord := d.deletionRecord (deletionRecordName sha256 userID)
  lifecycleRecord := d.lifecycleRecord (accountLifecycleName sha256 userID)
  receipts := []
  nextInode := 0

/-- `accountStorageUserIDs` -/
def Directories.storageUserIDs (d : Directories) : List String :=
  (d.users.filterMap fun entry => accountStorageUserID entry.1).dedup

def Directories.registry (sha256 : HexDigest) (d : Directories) : Registry where
  users := d.storageUserIDs
  nodup := List.nodup_dedup _
  account := d.account sha256

def validateAccountLifecycleInventory (d : Directories) : Except StoreError Unit :=
  checkAll (fun entry => validateAccountLifecycleEntry d entry.1)
    (d.ledger.filter fun entry => hasPrefix "account-" entry.1)

/-- What startup checks of directories that exist, which it also secures. -/
def prepareDirectories (d : Directories) : Except StoreError Unit := do
  independentLedger d
  check (d.usersInfo.isDirectory) (.failure "create user data directory")
  check (d.ledgerInfo.isDirectory ∧ ¬ d.ledgerInfo.symbolicLink)
    (.failure "deletion ledger path must be a directory, not a symbolic link")
  independentLedger d
  validateAccountLifecycleInventory d

/-- `NewWithDeletionLedger`, which ranges over the users in the order it is
given. -/
def newWithDeletionLedger (sha256 : HexDigest) (d : Directories) (now : WallClock)
    (order : List String) : Except StoreError Unit × Registry :=
  match prepareDirectories d with
  | .error e => (.error e, d.registry sha256)
  | .ok _ => applyDeletionObligations now order (d.registry sha256)

end Pomodorough.Store.Readiness
