import Pomodorough.Library.Traces
import Pomodorough.Web.Database

/-! # When a tab synchronizes

The `SyncCoordinator` of one tab that stays online with one valid account context
and has no bootstrap to resolve. Hints, local changes and retries share one timer;
one operation runs at a time and remembers whether to run again. Nothing else of
the tab runs between two awaits, so an event is a call, a firing of the timer, or
the answer of storage or of the network that the operation awaits, with all that
follows up to the next await. -/
namespace Pomodorough.Web

/-- `RETRY_MAX_MS`. -/
def RETRY_MAX_MS : Nat := 60000

/-- `hasPendingOperations`. -/
def hasPendingOperations (queues : Queues) : Bool :=
  !(queues .commands).isEmpty || !(queues .taskOperations).isEmpty
    || !(queues .durationOperations).isEmpty || !(queues .autoStartOperations).isEmpty
    || !(queues .selectedTaskOperations).isEmpty

/-- What the operation that `syncNow` started awaits. -/
inductive Awaited where
  | readBootstrapState
  | refreshAllPendingOperations
  | claimWorkspaceBatch
  | postMutation
  /-- The transaction that applies a response of this revision. -/
  | applySyncResponse (revision : Nat)
  | reloadPersistedState
  deriving DecidableEq, Repr

structure SyncOperation where
  /-- The identity of the promise: the operations are numbered as they start. -/
  number : Nat
  force : Bool
  awaited : Awaited
  deriving DecidableEq, Repr

/-- The timer of `scheduleSync` and `scheduleRetry`; its callback is `syncNow(force)`. -/
structure RetryTimer where
  delayMs : Nat
  force : Bool
  deriving DecidableEq, Repr

structure SyncCoordinator where
  /-- The five queues of the state. -/
  pending : Queues
  revision : Nat
  retrying : Bool
  syncPromise : Option SyncOperation
  syncAgain : Bool
  syncAgainForce : Bool
  retryTimer : Option RetryTimer
  retryDelayMs : Nat
  /-- How many operations were started. -/
  attempts : Nat

namespace SyncCoordinator

/-- `scheduleSync`. -/
def scheduleSync (delayMs : Nat) (force : Bool) (tab : SyncCoordinator) : SyncCoordinator :=
  { tab with retryTimer := some ⟨delayMs, force⟩ }

/-- `scheduleRetry`. -/
def scheduleRetry (tab : SyncCoordinator) : SyncCoordinator :=
  { tab with
    retryTimer := some ⟨tab.retryDelayMs, false⟩
    retryDelayMs := min (tab.retryDelayMs * 2) RETRY_MAX_MS }

/-- `syncNow`: a caller joins the running operation, or starts one. -/
def syncNow (force : Bool) (tab : SyncCoordinator) : SyncCoordinator :=
  match tab.syncPromise with
  | some _ =>
    { tab with syncAgain := true, syncAgainForce := tab.syncAgainForce || force }
  | none =>
    { tab with
      syncPromise := some ⟨tab.attempts + 1, force, .readBootstrapState⟩
      attempts := tab.attempts + 1 }

/-- What `receiveRevisionHint` asks of a hint; a hint may come without a revision. -/
def exceeds (hint : Option Nat) (revision : Nat) : Bool :=
  match hint with
  | none => true
  | some hinted => revision < hinted

/-- `receiveRevisionHint`. -/
def receiveRevisionHint (hint : Option Nat) (tab : SyncCoordinator) : SyncCoordinator :=
  if exceeds hint tab.revision then scheduleSync 0 true tab else tab

/-- The timer fires. -/
def runTimer (tab : SyncCoordinator) : SyncCoordinator :=
  match tab.retryTimer with
  | none => tab
  | some timer => syncNow timer.force { tab with retryTimer := none }

/-- The operation awaits the next answer. -/
def await (operation : SyncOperation) (awaited : Awaited) (tab : SyncCoordinator) :
    SyncCoordinator :=
  { tab with syncPromise := some { operation with awaited := awaited } }

/-- The `finally` of the operation that `syncNow` started. -/
def finish (tab : SyncCoordinator) : SyncCoordinator :=
  let released := { tab with syncPromise := none, syncAgain := false, syncAgainForce := false }
  if tab.syncAgain && !tab.retrying then scheduleSync 0 tab.syncAgainForce released else released

/-- What `syncPreflight`, `refreshForSync` and `reportSyncError` do with an error. -/
def defer (tab : SyncCoordinator) : SyncCoordinator :=
  finish (scheduleRetry { tab with retrying := true })

/-- `syncPreflight` once `refreshForSync` has read the queues, and `performSync` up to
its claim. -/
def preflight (operation : SyncOperation) (queues : Queues) (tab : SyncCoordinator) :
    SyncCoordinator :=
  if !operation.force && !hasPendingOperations queues then
    finish { tab with pending := queues, retrying := false }
  else
    await operation .claimWorkspaceBatch { tab with pending := queues, retrying := false }

/-- `submitSyncBatch` after `acceptSyncResponse`, which has reloaded the state. -/
def complete (queues : Queues) (revision : Nat) (tab : SyncCoordinator) : SyncCoordinator :=
  finish
    { tab with
      pending := queues
      revision := revision
      syncAgain := tab.syncAgain || hasPendingOperations queues
      retryDelayMs := 1000
      retrying := false }

/-- A tab that nothing was asked of yet. -/
def create (queues : Queues) (revision : Nat) : SyncCoordinator where
  pending := queues
  revision := revision
  retrying := false
  syncPromise := none
  syncAgain := false
  syncAgainForce := false
  retryTimer := none
  retryDelayMs := 1000
  attempts := 0

end SyncCoordinator

/-- A hint as it came: its revision, the revision of the state then, and how many
operations had been started. -/
structure RevisionHint where
  hinted : Option Nat
  revision : Nat
  attempts : Nat

/-- The tab, the revisions of the stored snapshot and of the server, and what happened. -/
structure SyncedTab where
  tab : SyncCoordinator
  stored : Nat
  server : Nat
  hints : List RevisionHint
  /-- The operations whose response was applied to the database. -/
  applied : List Nat

inductive SyncEvent where
  /-- The server accepts a change of another device. -/
  | serverCommit
  | revisionHint (hinted : Option Nat)
  | scheduleSync (delayMs : Nat) (force : Bool)
  | syncNow (force : Bool)
  /-- A local change is queued; the state has these queues then. -/
  | localChange (queues : Queues)
  | timer
  /-- What the operation awaits fails. -/
  | failed
  /-- What the operation awaits succeeds; storage has these queues. -/
  | succeeded (queues : Queues)

namespace SyncedTab
open SyncCoordinator

def withTab (s : SyncedTab) (tab : SyncCoordinator) : SyncedTab := { s with tab := tab }

/-- `applySyncResponse`: a response older than the stored snapshot is not applied. -/
def applyResponse (s : SyncedTab) (number revision : Nat) : SyncedTab :=
  if revision < s.stored then s
  else { s with stored := revision, applied := number :: s.applied }

/-- What the operation awaits succeeds. -/
def resume (s : SyncedTab) (operation : SyncOperation) (queues : Queues) : SyncedTab :=
  match operation.awaited with
  | .readBootstrapState => s.withTab (await operation .refreshAllPendingOperations s.tab)
  | .refreshAllPendingOperations => s.withTab (preflight operation queues s.tab)
  | .claimWorkspaceBatch => s.withTab (await operation .postMutation s.tab)
  | .postMutation => s.withTab (await operation (.applySyncResponse s.server) s.tab)
  | .applySyncResponse revision =>
    (s.applyResponse operation.number revision).withTab
      (await operation .reloadPersistedState s.tab)
  | .reloadPersistedState => s.withTab (complete queues s.stored s.tab)

def step (s : SyncedTab) : SyncEvent → SyncedTab
  | .serverCommit => { s with server := s.server + 1 }
  | .revisionHint hinted =>
    { s with
      tab := receiveRevisionHint hinted s.tab
      hints := ⟨hinted, s.tab.revision, s.tab.attempts⟩ :: s.hints }
  | .scheduleSync delayMs force => s.withTab (scheduleSync delayMs force s.tab)
  | .syncNow force => s.withTab (syncNow force s.tab)
  | .localChange queues => s.withTab { s.tab with pending := queues }
  | .timer => s.withTab (runTimer s.tab)
  | .failed => if s.tab.syncPromise.isSome then s.withTab (defer s.tab) else s
  | .succeeded queues => match s.tab.syncPromise with
    | some operation => s.resume operation queues
    | none => s

/-- The tab as it starts, on the stored snapshot; the server may be ahead of it. -/
def start (queues : Queues) (revision ahead : Nat) : SyncedTab where
  tab := create queues revision
  stored := revision
  server := revision + ahead
  hints := []
  applied := []

end SyncedTab

end Pomodorough.Web
