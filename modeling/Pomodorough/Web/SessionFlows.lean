import Mathlib.Logic.Function.Basic
import Pomodorough.Web.SessionMarkers
import Pomodorough.Web.Tabs

/-! # Sign-out, sign-in and account deletion in any number of tabs

The tabs of a browser share its storage, its database and its session cookie. A call
that awaits something is a flow; between two awaits it runs a synchronous section,
and nothing else runs then. A tab may crash between any two sections. -/
namespace Pomodorough.Web.Session
open Pomodorough.Library.Fallible Pomodorough.Library

/-! ## Tabs and flows -/

/-- What a tab knows; an empty text is no owner and no token. -/
structure SessionTab where
  tabId : String
  /-- `accountOwnerId` of the user. -/
  userId : Option String
  localOwnerId : Option String
  csrfToken : Option String
  /-- The sign-in token in the location of the tab. -/
  landingToken : Option String

def present (value : Option String) : Option String := value.filter (· ≠ "")

/-- The owner of an account context. -/
def SessionTab.ownerId (tab : SessionTab) : Option String :=
  (present tab.userId).or (present tab.localOwnerId)

/-- What `cleanupIdentity` captures, and how often a sign-out had been marked then. -/
structure Identity where
  userId : Option String
  localOwnerId : Option String
  recovery : Option String
  markerState : Option (Option String × Option OwnerRecord)
  expectedUserId : Option String
  authenticatedUserId : Option String
  marks : Nat

/-- `cleanupIdentity`. -/
def cleanupIdentity (faults : Faults) (storage : LocalStorage) (tab : SessionTab) (marks : Nat) :
    Identity :=
  let recovery := pendingLogoutRecovery faults storage
  { userId := present tab.userId
    localOwnerId := present tab.localOwnerId
    recovery := recovery
    markerState := logoutMarkerState faults storage
    expectedUserId := (recovery.or (present tab.localOwnerId)).or (present tab.userId)
    authenticatedUserId := none
    marks := marks }

/-- The conditions of `assertCleanupIdentity`. -/
structure CleanupIdentityHolds (faults : Faults) (storage : LocalStorage) (tab : SessionTab)
    (identity : Identity) : Prop where
  userId : present tab.userId = identity.userId
  localOwnerId : present tab.localOwnerId = identity.localOwnerId
  user : identity.userId = none ∨ identity.userId = identity.expectedUserId
  localOwner : identity.localOwnerId = none ∨ identity.localOwnerId = identity.expectedUserId
  markerState : logoutMarkerState faults storage = identity.markerState
  recovery : identity.recovery = none ∨
    pendingLogoutRecovery faults storage = identity.recovery

instance {faults storage tab identity} :
    Decidable (CleanupIdentityHolds faults storage tab identity) :=
  decidable_of_iff
    (present tab.userId = identity.userId ∧ present tab.localOwnerId = identity.localOwnerId ∧
      (identity.userId = none ∨ identity.userId = identity.expectedUserId) ∧
      (identity.localOwnerId = none ∨ identity.localOwnerId = identity.expectedUserId) ∧
      logoutMarkerState faults storage = identity.markerState ∧
      (identity.recovery = none ∨ pendingLogoutRecovery faults storage = identity.recovery))
    ⟨fun ⟨a, b, c, d, e, f⟩ => ⟨a, b, c, d, e, f⟩, fun h => ⟨h.1, h.2, h.3, h.4, h.5, h.6⟩⟩

/-- The attempt of a `requestAccountDeletion`. -/
structure IssuedAttempt where
  ownerId : String
  attemptId : String
  deriving DecidableEq

/-- Which function awaits `clearLocalData`, with what it does next. -/
inductive Completion where
  /-- `completeAccountCleanup` of `logout`. -/
  | logout (clearMarker : Bool)
  /-- `settlePendingLogoutLocally`. -/
  | settle
  /-- `finishPendingLogout`, with the token of the session's payload. -/
  | revoke (csrfToken : Option String)
  /-- `completeAccountCleanup` of `confirmDeleteAccount`. -/
  | deletion (issued : IssuedAttempt)
  /-- `completeDeletionRecovery`. -/
  | recovery (attempt : DeletionAttempt)
  /-- The start of the application, and the sign-out of another tab. -/
  | clear

structure Response where
  status : Nat
  /-- `accountOwnerId` of the payload's user. -/
  userId : Option String
  csrfToken : Option String

/-- `response.ok`. -/
def Response.ok (response : Response) : Bool := 200 ≤ response.status && response.status < 300

/-- What `requestSessionRevocation` takes for a revoked session. -/
def Response.revoked (response : Response) : Bool := response.ok || response.status == 401

/-- The answers to a deletion that discard its marker. -/
def Response.refused (response : Response) : Bool :=
  response.status == 401 || response.status == 400 || response.status == 403

/-- What a flow awaits. The numbers are those of the sign-outs that had been marked when
the request was sent. -/
inductive Flow where
  /-- `logout`, the answer to its request, if it had a token to send. -/
  | revocation (identity : Identity) (sent : Option Nat)
  /-- `fetchSessionPayload`, from `loadSession` or not, the binding of the session. -/
  | binding (load : Bool) (identity : Option Identity)
  /-- `fetchSessionPayload`, the answer to its request. -/
  | session (load : Bool) (identity : Option Identity) (sent : Nat)
  /-- `fetchSessionPayload`, the binding again. -/
  | answered (load : Bool) (identity : Option Identity) (response : Response)
  | cleaning (identity : Identity) (completion : Completion)
  /-- The section that follows `clearLocalData`. -/
  | cleared (identity : Identity) (completion : Completion)
  /-- `finishPendingLogout`, the answer to its request. -/
  | revoking (identity : Identity) (sent : Nat)
  /-- `requestAccountDeletion`, the answer to its request. -/
  | deleting (issued : IssuedAttempt)
  /-- `confirmDeleteAccount` after `requestAccountDeletion`. -/
  | deleted (issued : IssuedAttempt)
  /-- `confirmDeleteAccount` after `completeAccountCleanup`. -/
  | ended (issued : IssuedAttempt) (cleaned : Bool)
  /-- `recoverPendingDeletion`, the answer to its request. -/
  | recovering (attempt : DeletionAttempt) (ownerId : Option String)

/-- The cleanup that the flows of a tab share. -/
structure Cleanup where
  identity : Identity
  /-- The clear found another owner, and `confirmCleanupAlreadyComplete` runs. -/
  confirming : Bool

/-! ## What happened -/

inductive Evidence where
  /-- A logout request was answered with 2xx or 401. -/
  | revoked
  /-- The session check was answered with 401. -/
  | unauthorized
  /-- A sign-in token was consumed. -/
  | landed
  deriving DecidableEq

/-- A clear that completed, or found nothing left to clear. -/
structure Cleared where
  marks : Nat
  issues : Nat
  userId : Option String

inductive DeletionNote where
  /-- The candidate of the attempt was read back unchanged. -/
  | verified (attemptId : Option String)
  /-- `DELETE` was sent for the attempt. -/
  | sent (attemptId : Option String)
  deriving DecidableEq

structure History where
  /-- How often a sign-out was marked. -/
  marks : Nat
  /-- Which of them the stored sign-in token was issued for. -/
  signInMark : Nat
  /-- How often a deletion attempt was issued. -/
  issues : Nat
  evidence : List (Nat × Evidence)
  cleared : List Cleared
  /-- The accounts whose deletion was confirmed. -/
  deleted : List String
  /-- The attempts that the server refused. -/
  refused : List (Option String)
  /-- The sign-in tokens that were accepted. -/
  accepted : List String
  /-- The last note first. -/
  notes : List DeletionNote

structure Browser where
  storage : LocalStorage
  database : Database
  tabs : Nat → SessionTab
  cleanups : Nat → Option Cleanup
  /-- The flows with their tabs. -/
  flows : Nat → Option (Nat × Flow)
  nextFlow : Nat
  /-- How many random values were drawn. -/
  drawn : Nat
  history : History

inductive SessionEvent where
  /-- Anything else changes what a tab knows, or where it is. -/
  | tab (tab : Nat) (state : SessionTab)
  /-- Anything else writes the database. -/
  | transaction (t : Transaction)
  | logout (tab : Nat)
  /-- The start of the application, or the sign-out of another tab. -/
  | clearLocalData (tab : Nat)
  | fetchSessionPayload (tab : Nat) (load : Bool)
  | redirectToLogin (tab : Nat)
  | requestAccountDeletion (tab : Nat)
  | recoverPendingDeletion (tab : Nat)
  /-- What the flow awaits is there; `current` says that `isCurrent` holds of the
  connection and of what else is not modelled of the context. -/
  | resume (flow : Nat) (response : Option Response) (current : Bool)
  /-- The transaction of the tab's cleanup completes, or fails where storage is not
  available. -/
  | cleanup (tab : Nat) (available current : Bool) (dateNow : Nat)
  | crash (tab : Nat)

namespace Browser

def setFlow (s : Browser) (i tab : Nat) (flow : Flow) : Browser :=
  { s with flows := Function.update s.flows i (some (tab, flow)) }

def endFlow (s : Browser) (i : Nat) : Browser :=
  { s with flows := Function.update s.flows i none }

def startFlow (s : Browser) (tab : Nat) (flow : Flow) : Browser :=
  { s.setFlow s.nextFlow tab flow with nextFlow := s.nextFlow + 1 }

def withStorage (s : Browser) (storage : LocalStorage) : Browser := { s with storage := storage }

def identity (faults : Faults) (s : Browser) (tab : Nat) : Identity :=
  cleanupIdentity faults s.storage (s.tabs tab) s.history.marks

/-- `assertCleanupIdentity`. -/
abbrev Holds (faults : Faults) (s : Browser) (tab : Nat) (identity : Identity) : Prop :=
  CleanupIdentityHolds faults s.storage (s.tabs tab) identity

def found (s : Browser) (mark : Nat) (evidence : Evidence) : Browser :=
  { s with history := { s.history with evidence := (mark, evidence) :: s.history.evidence } }

/-! ## Cleanup -/

/-- What the flow does where `clearLocalData` rejects. -/
def rejected (tab : Nat) : Completion → Option (Nat × Flow)
  | .deletion issued => some (tab, .ended issued false)
  | _ => none

/-- `clearLocalData`: a cleanup of the tab that runs is joined. -/
def clearLocalData (faults : Faults) (s : Browser) (i tab : Nat) (identity : Identity)
    (completion : Completion) : Browser :=
  if s.Holds faults tab identity then
    { s.setFlow i tab (.cleaning identity completion) with
      cleanups := Function.update s.cleanups tab
        (some ((s.cleanups tab).getD ⟨identity, false⟩)) }
  else { s with flows := Function.update s.flows i (rejected tab completion) }

/-- The cleanup of the tab is over: each flow that awaits it goes on. -/
def endCleanup (s : Browser) (tab : Nat) (next : Identity → Completion → Option (Nat × Flow)) :
    Browser :=
  { s with
    cleanups := Function.update s.cleanups tab none
    flows := fun i => match s.flows i with
      | some (owner, .cleaning identity completion) =>
        if owner = tab then next identity completion else s.flows i
      | flow => flow }

def rejectCleanup (s : Browser) (tab : Nat) : Browser :=
  s.endCleanup tab fun _ completion => rejected tab completion

/-- `clearLocalData` checks the identity of each caller again. -/
def resolveCleanup (faults : Faults) (s : Browser) (tab : Nat) : Browser :=
  s.endCleanup tab fun identity completion =>
    if s.Holds faults tab identity then some (tab, .cleared identity completion)
    else rejected tab completion

/-- The database is cleared for the owner that the identity expects, or was clear. -/
def wasCleared (s : Browser) (database : Database) (identity : Identity) : Browser :=
  { s with
    database := database
    history := { s.history with
      cleared := ⟨s.history.marks, s.history.issues, identity.expectedUserId⟩ ::
        s.history.cleared } }

/-- `clearAuthorizedLocalData` after its transaction. -/
def completeCleanup (faults : Faults) (s : Browser) (tab : Nat) (identity : Identity) : Browser :=
  if s.Holds faults tab identity then s.resolveCleanup faults tab else s.rejectCleanup tab

/-- What the transactions of a cleanup are told of their caller. -/
def cleanupCaller (identity : Identity) (current : Bool) (dateNow : Nat) : Caller where
  current := current
  ownerId := none
  expectedUserId := some identity.expectedUserId
  currentUserId := identity.expectedUserId
  deviceId := none
  dateNow := dateNow

/-- `clearAuthorizedLocalData` and `confirmCleanupAlreadyComplete`. -/
def cleanup (core : Core) (faults : Faults) (s : Browser) (tab : Nat)
    (available current : Bool) (dateNow : Nat) : Browser :=
  match s.cleanups tab with
  | none => s
  | some ⟨identity, confirming⟩ =>
    if available = false then s.rejectCleanup tab
    else
      let holds := current && decide (s.Holds faults tab identity)
      let caller := cleanupCaller identity holds dateNow
      match confirming with
      | true =>
        match confirmCleanupAlreadyComplete core (s.tabs tab).tabId caller s.database with
        | .ok database => (s.wasCleared database identity).completeCleanup faults tab identity
        | .error _ => s.rejectCleanup tab
      | false =>
        match Web.clearLocalData core caller s.database with
        | .ok database => (s.wasCleared database identity).completeCleanup faults tab identity
        | .error error =>
          if error = .accountOwnership ∧ holds = true ∧
              (identity.recovery.isSome = true ∨ identity.authenticatedUserId.isSome = true) then
            { s with cleanups := Function.update s.cleanups tab (some ⟨identity, true⟩) }
          else s.rejectCleanup tab

/-! ## Sign-out and the session check -/

def markPendingLogout (faults : Faults) (s : Browser) (userId : Option String) : Browser :=
  { s with
    storage := (Session.markPendingLogout faults userId s.storage).1
    history := { s.history with marks := s.history.marks + 1 } }

def clearPendingLogout (faults : Faults) (s : Browser) : Browser :=
  s.withStorage (Session.clearPendingLogout faults s.storage)

/-- `logout` once the queues are read and the user has confirmed. -/
def logout (faults : Faults) (s : Browser) (tab : Nat) : Browser :=
  let marked := s.markPendingLogout faults (s.tabs tab).ownerId
  let identity := marked.identity faults tab
  if marked.Holds faults tab identity then
    marked.startFlow tab (.revocation identity
      ((present (s.tabs tab).csrfToken).map fun _ => marked.history.marks))
  else marked

/-- `clearPendingLogoutData`. -/
def settle (faults : Faults) (s : Browser) (i tab : Nat) (identity : Identity) : Browser :=
  if pendingLocalLogout faults s.storage then s.clearLocalData faults i tab identity .settle
  else s.setFlow i tab (.cleared identity .settle)

/-- `finishPendingLogout` up to its clear. -/
def finishPendingLogout (faults : Faults) (s : Browser) (i tab : Nat) (identity : Identity)
    (response : Response) : Browser :=
  match present response.userId with
  | none => s.endFlow i
  | some userId =>
    if identity.expectedUserId = none ∨ identity.expectedUserId = some userId then
      s.clearLocalData faults i tab
        { identity with expectedUserId := some userId, authenticatedUserId := some userId }
        (.revoke response.csrfToken)
    else s.endFlow i

/-- `completedSignInLanding`, with the token that is accepted. -/
def completedSignInLanding (faults : Faults) (s : Browser) (tab : Nat) : Option Browser :=
  match Session.completedSignInLanding faults (s.tabs tab).landingToken s.storage,
      (s.tabs tab).landingToken with
  | (storage, true), some token =>
    some
      { (s.found s.history.signInMark .landed).withStorage storage with
        history := { (s.found s.history.signInMark .landed).history with
          accepted := token :: s.history.accepted } }
  | _, _ => none

/-- `fetchSessionPayload` and `loadSession` after the answer. -/
def loadSession (faults : Faults) (s : Browser) (i tab : Nat) (load : Bool)
    (identity : Option Identity) (response : Response) : Browser :=
  match identity with
  | none => s.endFlow i
  | some identity =>
    if response.status = 401 then s.settle faults i tab identity
    else if response.ok = false ∨ load = false then s.endFlow i
    else match s.completedSignInLanding faults tab with
      | some landed => landed.settle faults i tab identity
      | none => s.finishPendingLogout faults i tab identity response

/-! ## Account deletion -/

def removePendingDeletionAttempt (faults : Faults) (s : Browser) : Browser :=
  s.withStorage (Session.removePendingDeletionAttempt faults s.storage)

def note (s : Browser) (note : DeletionNote) : Browser :=
  { s with history := { s.history with notes := note :: s.history.notes } }

/-- `requestAccountDeletion` up to its request. -/
def requestAccountDeletion (random : Nat → String) (faults : Faults) (s : Browser) (tab : Nat) :
    Browser :=
  match (s.tabs tab).ownerId with
  | none => s
  | some ownerId =>
    if (accountHeaders ownerId).isSome then
      let attemptId := random s.drawn
      let form (stage : DeletionStage) : DeletionAttempt :=
        ⟨ownerId, (s.tabs tab).csrfToken, some attemptId, some stage⟩
      let drawn := { s with drawn := s.drawn + 1 }
      match writeCandidate faults (form .candidate) s.storage with
      | (storage, false) => drawn.withStorage storage
      | (storage, true) =>
        let verified := (drawn.withStorage storage).note (.verified (some attemptId))
        match writeIssued faults (form .issued) storage with
        | (storage, false) => verified.withStorage storage
        | (storage, true) =>
          let issued := { verified.withStorage storage with
            history := { verified.history with issues := verified.history.issues + 1 } }
          (issued.note (.sent (some attemptId))).startFlow tab (.deleting ⟨ownerId, attemptId⟩)
    else s

/-- `requestAccountDeletion` after its answer. -/
def deletionAnswered (faults : Faults) (s : Browser) (i tab : Nat) (issued : IssuedAttempt)
    (response : Response) : Browser :=
  if response.ok then
    { s with history := { s.history with deleted := issued.ownerId :: s.history.deleted } }.setFlow
      i tab (.deleted issued)
  else if response.refused then
    ({ s with history :=
        { s.history with refused := some issued.attemptId :: s.history.refused } }.endFlow
      i).removePendingDeletionAttempt faults
  else s.endFlow i

/-- `confirmDeleteAccount` once the deletion is confirmed. -/
def confirmDeleteAccount (faults : Faults) (s : Browser) (i tab : Nat) (issued : IssuedAttempt) :
    Browser :=
  let marked := s.markPendingLogout faults (s.tabs tab).ownerId
  marked.clearLocalData faults i tab (marked.identity faults tab) (.deletion issued)

/-- `recoverPendingDeletion` up to its request: `DELETE` for an issued marker only. -/
def recoverPendingDeletion (faults : Faults) (s : Browser) (tab : Nat) : Browser :=
  match pendingDeletionAttempt faults s.storage with
  | none => s
  | some attempt =>
    let ownerId := (s.tabs tab).ownerId
    if ownerId = none ∨ ownerId = some attempt.userId then
      let requested := if attempt.stage = some .issued then s.note (.sent attempt.attemptId) else s
      requested.startFlow tab (.recovering attempt ownerId)
    else s

/-- `recoverPendingDeletion` after its answer. -/
def recoveryAnswered (faults : Faults) (s : Browser) (i tab : Nat) (attempt : DeletionAttempt)
    (ownerId : Option String) (response : Response) : Browser :=
  if response.status = 204 then
    if ownerId = some attempt.userId then
      let confirmed := { s with
        history := { s.history with deleted := attempt.userId :: s.history.deleted } }
      let marked := confirmed.markPendingLogout faults ownerId
      marked.clearLocalData faults i tab (marked.identity faults tab) (.recovery attempt)
    else s.endFlow i
  else if response.refused then
    ({ s with history :=
        { s.history with refused := attempt.attemptId :: s.history.refused } }.endFlow
      i).removePendingDeletionAttempt faults
  else s.endFlow i

/-- The last statement of `confirmDeleteAccount` and of `completeDeletionRecovery`. -/
def discardPendingDeletion (faults : Faults) (s : Browser) : Browser :=
  if pendingLocalLogout faults s.storage then s else s.removePendingDeletionAttempt faults

/-! ## The steps -/

/-- The section after `clearLocalData`, where its context is current. -/
def completed (faults : Faults) (s : Browser) (i tab : Nat) (identity : Identity)
    (completion : Completion) : Browser :=
  match completion with
  | .logout clearMarker =>
    if clearMarker = true ∧ s.Holds faults tab identity then
      (s.endFlow i).clearPendingLogout faults
    else s.endFlow i
  | .settle =>
    if s.Holds faults tab identity then (s.endFlow i).clearPendingLogout faults else s.endFlow i
  | .revoke csrfToken =>
    if s.Holds faults tab identity ∧ (present csrfToken).isSome then
      s.setFlow i tab (.revoking identity s.history.marks)
    else s.endFlow i
  | .deletion issued =>
    if s.Holds faults tab identity then
      (s.setFlow i tab (.ended issued true)).clearPendingLogout faults
    else s.setFlow i tab (.ended issued true)
  | .recovery attempt =>
    if s.Holds faults tab identity ∧ holdsPendingDeletionAttempt faults s.storage attempt = true then
      ((s.endFlow i).clearPendingLogout faults).discardPendingDeletion faults
    else s.endFlow i
  | .clear => s.endFlow i

/-- The flow goes on with the answer, where its context is current. -/
def goOn (faults : Faults) (s : Browser) (i tab : Nat) (flow : Flow)
    (response : Option Response) : Browser :=
  match flow, response with
  | .revocation identity sent, response =>
    let revoked := sent.isSome && response.any Response.revoked
    let answered := if revoked = true then s.found (sent.getD 0) .revoked else s
    if answered.Holds faults tab identity then
      answered.clearLocalData faults i tab identity (.logout revoked)
    else answered.endFlow i
  | .binding load identity, _ => s.setFlow i tab (.session load identity s.history.marks)
  | .session load identity sent, some response =>
    (if response.status = 401 then s.found sent .unauthorized else s).setFlow i tab
      (.answered load identity response)
  | .answered load identity response, _ => s.loadSession faults i tab load identity response
  | .cleaning .., _ => s
  | .cleared identity completion, _ => s.completed faults i tab identity completion
  | .revoking identity sent, some response =>
    if response.revoked then
      let answered := (s.found sent .revoked).endFlow i
      if answered.Holds faults tab identity then answered.clearPendingLogout faults else answered
    else s.endFlow i
  | .deleting issued, some response =>
    if (s.tabs tab).ownerId = some issued.ownerId then
      s.deletionAnswered faults i tab issued response
    else s.endFlow i
  | .deleted issued, _ =>
    if (s.tabs tab).ownerId = some issued.ownerId then s.confirmDeleteAccount faults i tab issued
    else s.endFlow i
  | .ended _ _, _ => (s.endFlow i).discardPendingDeletion faults
  | .recovering attempt ownerId, some response =>
    if (s.tabs tab).ownerId = ownerId ∧ holdsPendingDeletionAttempt faults s.storage attempt = true
    then s.recoveryAnswered faults i tab attempt ownerId response
    else s.endFlow i
  | _, none => s.endFlow i

/-- The flow stops where its context is not current; `confirmDeleteAccount` ends in any
case. -/
def stop (faults : Faults) (s : Browser) (i tab : Nat) : Flow → Browser
  | .cleaning .. => s
  | .cleared _ (.deletion issued) => s.setFlow i tab (.ended issued true)
  | .ended _ _ => (s.endFlow i).discardPendingDeletion faults
  | _ => s.endFlow i

def step (core : Core) (random : Nat → String) (faults : Faults) (s : Browser) :
    SessionEvent → Browser
  | .tab tab state => { s with tabs := Function.update s.tabs tab state }
  | .transaction t => { s with database := Web.step core s.database t }
  | .logout tab => s.logout faults tab
  | .clearLocalData tab =>
    { s.clearLocalData faults s.nextFlow tab (s.identity faults tab) .clear with
      nextFlow := s.nextFlow + 1 }
  | .fetchSessionPayload tab load =>
    s.startFlow tab (.binding load
      (if pendingLocalLogout faults s.storage then some (s.identity faults tab) else none))
  | .redirectToLogin _ =>
    let storage := pendingSignInToken faults (random s.drawn) s.storage
    { s.withStorage storage with
      drawn := s.drawn + 1
      history := { s.history with
        signInMark := if storage = s.storage then s.history.signInMark else s.history.marks } }
  | .requestAccountDeletion tab => s.requestAccountDeletion random faults tab
  | .recoverPendingDeletion tab => s.recoverPendingDeletion faults tab
  | .resume i response current => match s.flows i with
    | none => s
    | some (tab, flow) =>
      if current then s.goOn faults i tab flow response else s.stop faults i tab flow
  | .cleanup tab available current dateNow => s.cleanup core faults tab available current dateNow
  | .crash tab =>
    { s with
      cleanups := Function.update s.cleanups tab none
      flows := fun i => (s.flows i).filter fun flow => flow.1 ≠ tab }

/-- A browser that has no marker but perhaps one of an older version. -/
def start (tabs : Nat → SessionTab) (database : Database)
    (legacy : Option (String × Option String)) : Browser where
  storage :=
    { pendingLogout := none
      pendingLogoutOwner := none
      pendingLogoutSignIn := none
      pendingDeletion := legacy.map fun (userId, csrfToken) => ⟨userId, csrfToken, none, none⟩ }
  database := database
  tabs := tabs
  cleanups _ := none
  flows _ := none
  nextFlow := 0
  drawn := 0
  history := ⟨0, 0, 0, [], [], [], [], [], []⟩

end Browser

end Pomodorough.Web.Session
