import Pomodorough.Store.DeletionLedger

/-! # Opening and deleting an account

`database.go`, the deletions of `store.go` and `deletion_receipt.go`, for one
user. -/
namespace Pomodorough.Store.Accounts
open Pomodorough.Library.AtomicSteps Pomodorough.Store.Records Pomodorough.Store.DeletionLedger

/-! ## Opening -/

/-- A handle above the deleted generation is returned; a deleted file is
removed so that a new account can be created. -/
def openReusableAccount (deleted : Nat) : DiskOp (Option DatabaseFile) := do
  let present ← Op.read fun disk => disk.file.isSome
  if present then
    let db ← openDatabase
    match accountGeneration db with
    | .error e =>
      closeDatabase db
      throw e
    | .ok generation =>
      if deleted < generation then pure (some db)
      else
        closeDatabase db
        removeUserFiles
        pure none
  else pure none

/-- `os.OpenFile(path, os.O_CREATE|os.O_RDWR, 0o600)`: an existing file is kept. -/
def createFile : DiskOp Unit := Op.modify fun disk =>
  match disk.file with
  | some _ => disk
  | none => { disk with file := some (.empty disk.nextInode), nextInode := disk.nextInode + 1 }

def createAccountDatabase (deleted : Nat) (now : WallClock) : DiskOp DatabaseFile := do
  createFile
  let db ← openDatabase
  if deleted = maxSafeRevision then
    closeDatabase db
    throw .revisionExhausted
  else setAccountGeneration db (deleted + 1) now

/-- `OpenUser`: the account, created if it is missing or deleted. -/
def openUser (now : WallClock) : DiskOp DatabaseFile := do
  let deleted ← deletedGeneration
  let reusable ← openReusableAccount deleted
  match reusable with
  | some db => pure db
  | none => createAccountDatabase deleted now

/-- What `OpenExistingUser` does before it reads the ledger. -/
def openStoredAccount : DiskOp (DatabaseFile × Nat) := do
  let present ← Op.read fun disk => disk.file.isSome
  if present then
    let db ← openDatabase
    match accountGeneration db with
    | .error e =>
      closeDatabase db
      throw e
    | .ok generation => pure (db, generation)
  else throw .notFound

def openExistingUser : DiskOp DatabaseFile := do
  let (db, generation) ← openStoredAccount
  let deleted ← deletedGeneration
  if deleted < generation then pure db
  else
    closeDatabase db
    removeUserFiles
    throw .accountDeleted

/-! ## Deletion -/

def deleteUser (now : WallClock) : DiskOp Unit := do
  let generation ← currentOrNextAccountGeneration
  recordDeletion generation now
  removeUserFiles

def deleteUserForGeneration (generation : Nat) (now : WallClock) : DiskOp Unit := do
  let db ← openExistingUser
  closeDatabase db
  let currentGeneration ← Op.lift (accountGeneration db)
  Op.require (currentGeneration = generation) .accountGenerationChanged
  recordDeletion currentGeneration now
  removeUserFiles

/-! ## Receipts -/

/-- A cookie's receipt carries its CSRF proof. -/
def validDeletionReceipt (receipt : DeletionReceipt) (method : CredentialMethod) : Bool :=
  receipt.version == 1 && validGeneration receipt.generation &&
    receipt.csrfHash.isSome == (method == .cookie)

/-- `deletionReceiptPath` refuses the zero hash; the digest of the credential
names the file. -/
def deletionReceiptPath (credential : DeletionCredential) : Except StoreError DeletionCredential :=
  if credential.tokenHash = 0 then .error .unauthorized else .ok credential

def readDeletionReceipt (credential : DeletionCredential) : DiskOp (Option DeletionReceipt) :=
  Op.tryRead fun disk => match disk.receipts.lookup credential with
    | none => .ok none
    | some receipt =>
      if validDeletionReceipt receipt credential.method then .ok (some receipt)
      else .error (.failure "deletion receipt is invalid")

def committedDeletionReceipt (credential : DeletionCredential) :
    DiskOp (Option DeletionReceipt) := do
  let path ← Op.lift (deletionReceiptPath credential)
  let receipt ← readDeletionReceipt path
  match receipt with
  | none => pure none
  | some receipt =>
    let generation ← deletedGeneration
    if generation < receipt.generation then pure none else pure (some receipt)

def writeDeletionReceipt (credential : DeletionCredential) (receipt : DeletionReceipt) :
    DiskOp Unit := do
  Op.require (validDeletionReceipt receipt credential.method) (.failure "deletion receipt is invalid")
  let path ← Op.lift (deletionReceiptPath credential)
  Op.modify fun disk => { disk with
    receipts := (path, receipt) :: disk.receipts.filter fun entry => entry.1 ≠ path }

/-- `validateDeletionSession`: the credential's token and session are live. -/
def liveDeletionSession (tables : UserTables) (credential : DeletionCredential)
    (sessionID : String) : Bool :=
  let expectedKind := match credential.method with
    | .bearer => TokenKind.access
    | .cookie => TokenKind.web
  tables.authTokens.any fun token => token.tokenHash == credential.tokenHash &&
    token.kind == expectedKind && token.sessionID == sessionID && token.revokedAtMs.isNone &&
    tables.authSessions.any fun session => session.id == sessionID && session.revokedAtMs.isNone

/-- `purgeReceiptedGeneration`: a newer generation is left alone. -/
def purgeReceiptedGeneration (generation : Nat) : DiskOp Unit := do
  let present ← Op.read fun disk => disk.file.isSome
  if present then
    let db ← openDatabase
    closeDatabase db
    let currentGeneration ← Op.lift (accountGeneration db)
    if generation < currentGeneration then pure () else removeUserFiles
  else removeUserFiles

/-- `deleteUserWithReceipt`, once it holds the account's lock. The receipt, the
tombstone, the lifecycle record and the files change in that order. -/
def deleteUserWithReceipt (generation : Nat) (credential : DeletionCredential)
    (csrfHash : Option Hash) (sessionID : Option String) (now : WallClock) : DiskOp Unit := do
  let receipt ← committedDeletionReceipt credential
  match receipt with
  | some receipt =>
    Op.require (!(receipt.generation != generation ||
      (credential.method == .cookie && receipt.csrfHash != csrfHash))) .unauthorized
    purgeReceiptedGeneration generation
  | none =>
    let db ← openExistingUser
    closeDatabase db
    let currentGeneration ← Op.lift (accountGeneration db)
    Op.require (currentGeneration = generation) .accountGenerationChanged
    Op.require (sessionID.all (liveDeletionSession db.tables credential)) .unauthorized
    writeDeletionReceipt credential { version := 1, generation, csrfHash }
    recordDeletion generation now
    purgeReceiptedGeneration generation

/-! ## Calls -/

/-- The calls on one account that run one at a time; a restart runs when no
other call does. -/
inductive Call where
  | openUser (now : WallClock)
  | openExistingUser
  | deleteUser (now : WallClock)
  | deleteUserForGeneration (generation : Nat) (now : WallClock)
  | deleteUserWithReceipt (generation : Nat) (credential : DeletionCredential)
      (csrfHash : Option Hash) (sessionID : Option String) (now : WallClock)
  | restart (now : WallClock)
  deriving DecidableEq

/-- An open returns a handle, the others nothing. -/
def Call.body : Call → DiskOp (Option DatabaseFile)
  | .openUser now => do
    let db ← Accounts.openUser now
    pure (some db)
  | .openExistingUser => do
    let db ← Accounts.openExistingUser
    pure (some db)
  | .deleteUser now => do
    Accounts.deleteUser now
    pure none
  | .deleteUserForGeneration generation now => do
    Accounts.deleteUserForGeneration generation now
    pure none
  | .deleteUserWithReceipt generation credential csrfHash sessionID now => do
    Accounts.deleteUserWithReceipt generation credential csrfHash sessionID now
    pure none
  | .restart now => do
    startAccount now
    pure none

/-! ## The first generations of an account, as its calls leave it -/

def firstClock : WallClock := ⟨1, by decide⟩

def firstFile : DatabaseFile where
  inode := 0
  schemaVersion := 7
  generation := some 1
  tables := .initial

/-- After the first `OpenUser`. -/
def firstCreated : AccountDisk where
  file := some firstFile
  wal := true
  shm := true
  deletionRecord := none
  lifecycleRecord := some ⟨1, 1, .active, 1⟩
  receipts := []
  nextInode := 1

/-- After its deletion. -/
def firstDeleted : AccountDisk where
  file := none
  wal := false
  shm := false
  deletionRecord := some ⟨1, 1, 1⟩
  lifecycleRecord := some ⟨1, 1, .deleted, 1⟩
  receipts := []
  nextInode := 1

def secondFile : DatabaseFile :=
  { firstFile with inode := 1, generation := some 2 }

/-- After the next `OpenUser`. -/
def secondCreated : AccountDisk where
  file := some secondFile
  wal := true
  shm := true
  deletionRecord := some ⟨1, 1, 1⟩
  lifecycleRecord := some ⟨1, 2, .active, 1⟩
  receipts := []
  nextInode := 2

example : (openUser firstClock).exec .blank = (.ok firstFile, firstCreated) := rfl
example : (deleteUser firstClock).exec firstCreated = (.ok (), firstDeleted) := rfl
example : (openUser firstClock).exec firstDeleted = (.ok secondFile, secondCreated) := rfl

end Pomodorough.Store.Accounts
