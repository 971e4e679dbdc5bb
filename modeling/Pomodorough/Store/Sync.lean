import Pomodorough.Store.OperationDomains

/-! # Synchronizing an account

One SQL transaction under the account's lock: insert the request's operations,
reduce the logs, and write the reduction back. A transaction that fails is
rolled back, so it is a function from the tables to new tables or an error. -/
namespace Pomodorough.Store.Sync
open Pomodorough.Library.Fallible Pomodorough.Library.KeyedLog
open Pomodorough.Store.Records Pomodorough.Store.SharedCoreValidation
open Pomodorough.Store.SharedCore Pomodorough.Store.OperationLogs
open Pomodorough.Store.OperationDomains

/-! ## Revisions -/

def validateCanonicalRevision (revision : Int) : Fallible Unit :=
  check (0 ≤ revision ∧ revision ≤ maxSafeRevision) .revisionExhausted

def safeRevisionIncrement (revision : Int) : Fallible Int := do
  check (0 ≤ revision ∧ revision ≤ maxSafeRevision ∧ revision ≠ maxSafeRevision)
    .revisionExhausted
  .ok (revision + 1)

/-- The revision of a transaction: incremented where something changed. -/
def nextRevision (revision : Int) (changed : Bool) : Fallible Int :=
  if changed then safeRevisionIncrement revision else .ok revision

/-! ## Reducing the account -/

structure AccountReduction where
  revision : Int
  commands : List Command
  timer : TimerResult
  taskOperations : List TaskOperation
  tasks : List Task
  winningTaskOperations : AList fun _ : String => String
  durationOperations : List DurationOperation
  durations : DurationsMs
  winningDurationOperations : List String
  autoStartOperations : List AutoStartOperation
  autoStartBreaks : Bool
  winningAutoStartOperation : String
  selectedTaskOperations : List SelectedTaskOperation
  selectedTaskID : Option String
  winningSelectedTaskOperation : String
  deriving DecidableEq

def reduceAccount (core : Core) (t : UserTables) (now : Time) : Fallible AccountReduction := do
  validateCanonicalRevision t.revision
  let timer ← wrap "reduce timer with shared core"
    (reduceTimerWithSharedCore core (loadCommands t) now)
  let tasks ← wrap "reduce tasks with shared core"
    (reduceTasksWithSharedCore core (loadTaskOperations t))
  let durations ← wrap "reduce durations with shared core"
    (reduceDurationsWithSharedCore core (loadDurationOperations t))
  let autoStart ← wrap "reduce auto-start with shared core"
    (reduceAutoStartWithSharedCore core (loadAutoStartOperations t))
  let selectedTask ← wrap "reduce selected task with shared core"
    (reduceSelectedTaskWithSharedCore core (loadSelectedTaskOperations t) tasks.1)
  .ok { revision := t.revision
        commands := loadCommands t
        timer := timer
        taskOperations := loadTaskOperations t
        tasks := tasks.1
        winningTaskOperations := tasks.2
        durationOperations := loadDurationOperations t
        durations := durations.1
        winningDurationOperations := durations.2
        autoStartOperations := loadAutoStartOperations t
        autoStartBreaks := autoStart.1
        winningAutoStartOperation := autoStart.2
        selectedTaskOperations := loadSelectedTaskOperations t
        selectedTaskID := selectedTask.1
        winningSelectedTaskOperation := selectedTask.2 }

/-! ## The stored projection -/

/-- `nullString`. -/
def nullString (value : String) : Option String := if value = "" then none else some value

/-- `unixMilli`: the zero time is NULL. -/
def unixMilli (value : Time) : Option Int := if value.isZero then none else some value.unixMilli

def sessionRow (session : TimerSession) : TimerSessionRow where
  timerID := session.timerID
  taskID := nullString session.taskID
  phase := session.phase
  status := session.status
  plannedDurationMs := session.plannedDurationMs
  elapsedAtAnchorMs := session.elapsedAtAnchorMs
  anchorAtMs := session.anchorAt.unixMilli
  startedAtMs := session.startedAt.unixMilli
  endedAtMs := unixMilli session.endedAt
  lastCommandID := session.lastCommandID
  terminalCommandID := nullString session.terminalCommandID
  supersededByTimerID := nullString session.supersededByTimerID

/-- The tables `persistReduction` leaves: outcomes are inserted or updated, the
sessions are replaced. -/
def persisted (t : UserTables) (reduction : AccountReduction) (revision : Int) : UserTables :=
  { t with
    commandOutcomes := reduction.timer.outcomes.toFinmap ∪ t.commandOutcomes
    timerSessions := reduction.timer.sessions.map sessionRow
    revision := revision
    currentTimerID := reduction.timer.canonical.map CanonicalTimer.id }

/-- An outcome refers to a stored command and is of one of three kinds; a
session's timer is its primary key. -/
def persistReduction (t : UserTables) (reduction : AccountReduction) (revision : Int) :
    Fallible UserTables := do
  validateCanonicalRevision revision
  checkAll (fun entry => check
      ((∃ command ∈ t.timerCommands, command.id = entry.1) ∧
        entry.2.outcome ∈ ["applied", "ignored", "rejected"])
    (fail "save command outcome")) reduction.timer.outcomes.entries
  check (reduction.timer.sessions.map TimerSession.timerID).Nodup (fail "save timer projection")
  .ok (persisted t reduction revision)

/-- The reduction is written back only where something changed. -/
def persistIfChanged (t : UserTables) (reduction : AccountReduction) (revision : Int)
    (changed : Bool) : Fallible UserTables :=
  if changed then persistReduction t reduction revision else .ok t

/-- A stored session as `loadTimerSessionProjection` reads it. -/
def loadSession (row : TimerSessionRow) : TimerSession where
  timerID := row.timerID
  taskID := row.taskID.getD ""
  phase := row.phase
  status := row.status
  plannedDurationMs := row.plannedDurationMs
  elapsedAtAnchorMs := row.elapsedAtAnchorMs
  anchorAt := Time.ofUnixMilli row.anchorAtMs
  startedAt := Time.ofUnixMilli row.startedAtMs
  startedByDeviceID := ""
  endedAt := row.endedAtMs.elim Time.zero Time.ofUnixMilli
  lastCommandID := row.lastCommandID
  terminalCommandID := row.terminalCommandID.getD ""
  supersededByTimerID := row.supersededByTimerID.getD ""
  lastIntent := none

def loadTimerSessionProjection (t : UserTables) : List TimerSession :=
  (sortBy TimerSessionRow.timerID t.timerSessions).map loadSession

def loadCurrentTimerProjectionID (t : UserTables) : String := t.currentTimerID.getD ""

def sameProjectedTime (left right : Time) : Bool :=
  if left.isZero || right.isZero then left.isZero && right.isZero
  else left.unixMilli = right.unixMilli

def sameProjectedSession (stored session : TimerSession) : Bool :=
  stored.timerID = session.timerID && stored.taskID = session.taskID &&
    stored.phase = session.phase && stored.status = session.status &&
    stored.plannedDurationMs = session.plannedDurationMs &&
    stored.elapsedAtAnchorMs = session.elapsedAtAnchorMs &&
    sameProjectedTime stored.anchorAt session.anchorAt &&
    sameProjectedTime stored.startedAt session.startedAt &&
    sameProjectedTime stored.endedAt session.endedAt &&
    stored.lastCommandID = session.lastCommandID &&
    stored.terminalCommandID = session.terminalCommandID &&
    stored.supersededByTimerID = session.supersededByTimerID

def sameTimerSessionProjection : List TimerSession → List TimerSession → Bool
  | [], [] => true
  | stored :: persisted, session :: reduced =>
    sameProjectedSession stored session && sameTimerSessionProjection persisted reduced
  | _, _ => false

def timerProjectionChanged (t : UserTables) (result : TimerResult) : Bool :=
  loadCurrentTimerProjectionID t ≠ (result.canonical.map CanonicalTimer.id).getD "" ||
    !sameTimerSessionProjection (loadTimerSessionProjection t) result.sessions

/-! ## Responses -/

/-- `yieldReductionClocks`: the clocks of five logs. -/
def operationClocks (commands : List Command) (taskOperations : List TaskOperation)
    (durationOperations : List DurationOperation) (autoStartOperations : List AutoStartOperation)
    (selectedTaskOperations : List SelectedTaskOperation) : List HLC :=
  commands.map (fun o => ⟨o.hlcWallMs, o.hlcCounter⟩) ++
    taskOperations.map (fun o => ⟨o.hlcWallMs, o.hlcCounter⟩) ++
    durationOperations.map (fun o => ⟨o.hlcWallMs, o.hlcCounter⟩) ++
    autoStartOperations.map (fun o => ⟨o.hlcWallMs, o.hlcCounter⟩) ++
    selectedTaskOperations.map (fun o => ⟨o.hlcWallMs, o.hlcCounter⟩)

def hlcObservations (reduction : AccountReduction) (request : Option SyncRequest) : List HLC :=
  operationClocks reduction.commands reduction.taskOperations reduction.durationOperations
      reduction.autoStartOperations reduction.selectedTaskOperations ++
    request.elim [] fun request => operationClocks request.commands request.taskOperations
      request.durationOperations request.autoStartOperations request.selectedTaskOperations

def resultFromReduction (core : Core) (reduction : AccountReduction) (revision : Int) (now : Time)
    (request : Option SyncRequest) : Fallible SyncResult := do
  let serverHLC ← hlcHeadSequenceWithCore core now.unixMilli (hlcObservations reduction request)
  .ok { acknowledgements := []
        taskAcknowledgements := []
        durationAcknowledgements := []
        autoStartAcknowledgements := []
        selectedTaskAcknowledgements := []
        revision := revision
        canonicalTimer := reduction.timer.canonical
        history := reduction.timer.history
        tasks := reduction.tasks
        durationsMs := reduction.durations
        autoStartBreaks := reduction.autoStartBreaks
        selectedTaskID := reduction.selectedTaskID
        serverTime := now.utc
        serverHLCWallMs := serverHLC.wallMs
        serverHLCCounter := serverHLC.counter
        changed := false }

/-- A command rejected on insertion is answered so, any other with its outcome. -/
def timerAcknowledgements (commands : List Command) (application : OperationApplication)
    (reduction : AccountReduction) : List Acknowledgement :=
  commands.map fun command =>
    let outcome := (application.commandRejections.lookup command.id).getD
      ((reduction.timer.outcomes.lookup command.id).getD ⟨"", ""⟩)
    ⟨command.id, outcome.outcome, outcome.reason⟩

/-- The loop of the other four: rejected, winning, or superseded. -/
def operationAcknowledgements {α : Type} (id : α → String) (rejections : Rejections)
    (winning : α → Bool) (superseded : String) (operations : List α) :
    List OperationAcknowledgement :=
  operations.map fun operation =>
    match rejections.lookup (id operation) with
    | some outcome => ⟨id operation, outcome.outcome, outcome.reason⟩
    | none =>
      if winning operation then ⟨id operation, "applied", ""⟩
      else ⟨id operation, "ignored", superseded⟩

def taskAcknowledgements (operations : List TaskOperation) (application : OperationApplication)
    (reduction : AccountReduction) : List TaskAcknowledgement :=
  operationAcknowledgements TaskOperation.id application.taskRejections
    (fun operation =>
      (reduction.winningTaskOperations.lookup operation.taskID).getD "" = operation.id)
    "superseded by newer task operation" operations

def durationAcknowledgements (operations : List DurationOperation)
    (application : OperationApplication) (reduction : AccountReduction) :
    List DurationAcknowledgement :=
  operationAcknowledgements DurationOperation.id application.durationRejections
    (fun operation => operation.id ∈ reduction.winningDurationOperations)
    "superseded by newer duration operation" operations

def autoStartAcknowledgements (operations : List AutoStartOperation)
    (application : OperationApplication) (reduction : AccountReduction) :
    List AutoStartAcknowledgement :=
  operationAcknowledgements AutoStartOperation.id application.autoStartRejections
    (fun operation => reduction.winningAutoStartOperation = operation.id)
    "superseded by newer auto-start operation" operations

def selectedTaskAcknowledgements (operations : List SelectedTaskOperation)
    (application : OperationApplication) (reduction : AccountReduction) :
    List SelectedTaskAcknowledgement :=
  operationAcknowledgements SelectedTaskOperation.id application.selectedTaskRejections
    (fun operation => reduction.winningSelectedTaskOperation = operation.id)
    "superseded by newer selected-task operation" operations

def addAcknowledgements (result : SyncResult) (request : SyncRequest)
    (application : OperationApplication) (reduction : AccountReduction) : SyncResult :=
  { result with
    acknowledgements := timerAcknowledgements request.commands application reduction
    taskAcknowledgements := taskAcknowledgements request.taskOperations application reduction
    durationAcknowledgements :=
      durationAcknowledgements request.durationOperations application reduction
    autoStartAcknowledgements :=
      autoStartAcknowledgements request.autoStartOperations application reduction
    selectedTaskAcknowledgements :=
      selectedTaskAcknowledgements request.selectedTaskOperations application reduction }

/-! ## The transactions -/

/-- The device row of a synchronization: inserted, or its last use updated. -/
def recordSyncDevice (t : UserTables) (deviceID : String) (now : Time) : UserTables :=
  { t with
    devices :=
      if ∃ device ∈ t.devices, device.id = deviceID then
        t.devices.map fun device =>
          if device.id = deviceID then { device with lastSeenAtMs := now.unixMilli } else device
      else t.devices ++ [⟨deviceID, "web", now.unixMilli, now.unixMilli, none⟩] }

def syncLocked (core : Core) (t : UserTables) (request : SyncRequest) (now : Time) :
    Fallible (UserTables × SyncResult) := do
  let (u, applied) ← applyOperations (recordSyncDevice t request.deviceID now) request
  let reduction ← reduceAccount core u now
  let projectionChanged := timerProjectionChanged u reduction.timer
  let revision ← nextRevision reduction.revision (applied.changed || projectionChanged)
  let v ← persistReduction u reduction revision
  let result ← resultFromReduction core reduction revision now (some request)
  .ok (v, { addAcknowledgements result request applied reduction with
    changed := applied.changed || projectionChanged })

/-- `Store.Sync`. -/
def sync (core : Core) (t : UserTables) (request : SyncRequest) (now : Time) :
    Fallible (UserTables × SyncResult) := do
  validateUniqueOperationIDs request
  syncLocked core t request now

/-- `Store.Bootstrap` and `Store.History`: `materializeProjectionLocked`. -/
def materializeProjection (core : Core) (t : UserTables) (now : Time) :
    Fallible (UserTables × SyncResult) := do
  let reduction ← reduceAccount core t now
  let changed := timerProjectionChanged t reduction.timer
  let revision ← nextRevision reduction.revision changed
  let u ← persistIfChanged t reduction revision changed
  let result ← resultFromReduction core reduction revision now none
  .ok (u, { result with changed := changed })

end Pomodorough.Store.Sync
