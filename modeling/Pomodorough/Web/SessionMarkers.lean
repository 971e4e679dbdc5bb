import Mathlib.Data.List.Basic

/-! # The markers in browser storage

A sign-out and an account deletion leave markers in `localStorage`, so that a later
start of the application can finish them. Every access of a section may fail. -/
namespace Pomodorough.Web.Session

/-! ## Browser storage that fails -/

inductive Item where
  | pendingLogout
  | pendingLogoutOwner
  | pendingLogoutSignIn
  | pendingDeletion
  deriving DecidableEq, Repr

/-- What `setItem` is called with: the two forms of a deletion marker differ. -/
inductive Written where
  | pendingLogout
  | pendingLogoutOwner
  | pendingLogoutSignIn
  | candidate
  | issued
  deriving DecidableEq, Repr

/-- A full storage throws; a failing one may also keep nothing of what it accepts. -/
inductive SetItem where
  | stored
  | throws
  | lost
  deriving DecidableEq, Repr

/-- How the accesses of one synchronous section fare. -/
structure Faults where
  getItemThrows : Item → Bool
  removeItemThrows : Item → Bool
  setItem : Written → SetItem

/-- Storage that works. -/
def Faults.none : Faults where
  getItemThrows _ := false
  removeItemThrows _ := false
  setItem _ := .stored

/-! ## What is stored -/

/-- The value of `PENDING_LOGOUT_OWNER_KEY`. -/
structure OwnerRecord where
  userId : Option String
  deriving DecidableEq, Repr

inductive DeletionStage where
  | candidate
  | issued
  deriving DecidableEq, Repr

/-- The value of `PENDING_DELETION_KEY`. Markers of older versions have no stage and no
attempt. -/
structure DeletionAttempt where
  userId : String
  csrfToken : Option String
  attemptId : Option String
  stage : Option DeletionStage
  deriving DecidableEq, Repr

structure LocalStorage where
  pendingLogout : Option String
  pendingLogoutOwner : Option OwnerRecord
  pendingLogoutSignIn : Option String
  pendingDeletion : Option DeletionAttempt
  deriving DecidableEq, Repr

/-- The statements of a `try` block up to the first that throws, and whether none did. -/
def attempt : List (LocalStorage → Option LocalStorage) → LocalStorage → LocalStorage × Bool
  | [], storage => (storage, true)
  | statement :: rest, storage => match statement storage with
    | none => (storage, false)
    | some next => attempt rest next

section
variable (faults : Faults) (storage : LocalStorage)

def setItem (item : Written) (write : LocalStorage → LocalStorage) (storage : LocalStorage) :
    Option LocalStorage :=
  match faults.setItem item with
  | .stored => some (write storage)
  | .lost => some storage
  | .throws => none

def removeItem (item : Item) (erase : LocalStorage → LocalStorage) (storage : LocalStorage) :
    Option LocalStorage :=
  if faults.removeItemThrows item then none else some (erase storage)

/-! ## The sign-out marker -/

/-- `pendingLocalLogout`. -/
def pendingLocalLogout : Bool :=
  !faults.getItemThrows .pendingLogout && storage.pendingLogout.isSome

/-- `markPendingLogout`, with the owner of the state. -/
def markPendingLogout (userId : Option String) (storage : LocalStorage) : LocalStorage × Bool :=
  attempt
    [removeItem faults .pendingLogoutSignIn fun storage =>
        { storage with pendingLogoutSignIn := none },
      setItem faults .pendingLogoutOwner fun storage =>
        { storage with pendingLogoutOwner := some ⟨userId⟩ },
      setItem faults .pendingLogout fun storage => { storage with pendingLogout := some "1" }]
    storage

/-- `clearPendingLogout`. -/
def clearPendingLogout (storage : LocalStorage) : LocalStorage :=
  (attempt
    [removeItem faults .pendingLogout fun storage => { storage with pendingLogout := none },
      removeItem faults .pendingLogoutOwner fun storage =>
        { storage with pendingLogoutOwner := none },
      removeItem faults .pendingLogoutSignIn fun storage =>
        { storage with pendingLogoutSignIn := none }]
    storage).1

/-- `logoutMarkerState`; `none` where storage cannot be read. -/
def logoutMarkerState : Option (Option String × Option OwnerRecord) :=
  if faults.getItemThrows .pendingLogout || faults.getItemThrows .pendingLogoutOwner then none
  else some (storage.pendingLogout, storage.pendingLogoutOwner)

/-- `pendingLogoutRecovery`: the record is determined by its user. -/
def pendingLogoutRecovery : Option String :=
  match logoutMarkerState faults storage with
  | some (some "1", some ⟨some userId⟩) => if userId = "" then none else some userId
  | _ => none

/-- `pendingSignInToken`, where `newLandingToken` gives the token. -/
def pendingSignInToken (token : String) (storage : LocalStorage) : LocalStorage :=
  if pendingLocalLogout faults storage = false ∨ faults.getItemThrows .pendingLogoutSignIn = true ∨
      storage.pendingLogoutSignIn.isSome = true then
    storage
  else
    (attempt
      [setItem faults .pendingLogoutSignIn fun storage =>
        { storage with pendingLogoutSignIn := some token }]
      storage).1

/-- `completedSignInLanding`, where the location has the token. -/
def completedSignInLanding (token : Option String) (storage : LocalStorage) :
    LocalStorage × Bool :=
  if token = none ∨ faults.getItemThrows .pendingLogoutSignIn = true ∨
      storage.pendingLogoutSignIn ≠ token then
    (storage, false)
  else
    attempt
      [removeItem faults .pendingLogoutSignIn fun storage =>
        { storage with pendingLogoutSignIn := none }]
      storage

/-! ## The deletion marker -/

/-- The incarnation that `accountHeaders` sends; it throws without one. -/
def accountHeaders (ownerId : String) : Option String :=
  let incarnation := ownerId.toList.drop 11
  if ownerId.toList.take 11 = "account:v1:".toList ∧ incarnation.length = 64 ∧
      incarnation.all (fun c => c.isDigit || decide ('a' ≤ c ∧ c ≤ 'f')) = true then
    some (String.ofList incarnation)
  else none

/-- `pendingDeletionAttempt`. -/
def pendingDeletionAttempt : Option DeletionAttempt :=
  if faults.getItemThrows .pendingDeletion then none
  else storage.pendingDeletion.filter fun attempt =>
    attempt.stage ≠ some .candidate ∧ (accountHeaders attempt.userId).isSome = true ∧
      ∃ csrfToken ∈ attempt.csrfToken, csrfToken ≠ ""

/-- `writePendingDeletionAttempt(null)`. -/
def removePendingDeletionAttempt (storage : LocalStorage) : LocalStorage :=
  (attempt
    [removeItem faults .pendingDeletion fun storage => { storage with pendingDeletion := none }]
    storage).1

/-- The first form of an attempt, and whether it was read back unchanged. -/
def writeCandidate (candidate : DeletionAttempt) (storage : LocalStorage) : LocalStorage × Bool :=
  attempt
    [setItem faults .candidate fun storage => { storage with pendingDeletion := some candidate },
      fun storage =>
        if faults.getItemThrows .pendingDeletion ∨ storage.pendingDeletion ≠ some candidate then none
        else some storage]
    storage

/-- The form of an attempt that recovery acts on. -/
def writeIssued (issued : DeletionAttempt) (storage : LocalStorage) : LocalStorage × Bool :=
  attempt
    [setItem faults .issued fun storage => { storage with pendingDeletion := some issued }] storage

/-- `writePendingDeletionAttempt` of an attempt, with the two forms of it. -/
def writePendingDeletionAttempt (candidate issued : DeletionAttempt) (storage : LocalStorage) :
    LocalStorage × Bool :=
  match writeCandidate faults candidate storage with
  | (storage, false) => (storage, false)
  | (storage, true) => writeIssued faults issued storage

/-- `assertPendingDeletionAttempt`: the stored record is the one that was read. -/
def holdsPendingDeletionAttempt (attempt : DeletionAttempt) : Bool :=
  !faults.getItemThrows .pendingDeletion && decide (storage.pendingDeletion = some attempt)

end

end Pomodorough.Web.Session
