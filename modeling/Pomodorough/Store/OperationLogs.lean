import Pomodorough.Store.SharedCore

/-! # The five operation logs

A synchronized operation is inserted into the log of its domain unless the log
has one with its id. The loops differ in the payload they compare, in the checks
of their table, and in that a timer command also occupies its device's sequence
number. -/
namespace Pomodorough.Store.OperationLogs
open Pomodorough.Library.Fallible Pomodorough.Library.KeyedLog
open Pomodorough.Store.Records Pomodorough.Store.SharedCoreValidation Pomodorough.Store.SharedCore

/-! ## Inserting the operations of a request -/

/-- What one operation of a request comes to. -/
inductive Decision (α : Type) where
  | known
  | rejected (reason : String)
  | insert (row : α)
  deriving DecidableEq, Repr

abbrev Rejections := Finmap fun _ : String => Outcome

/-- A log while a request is applied to it, and the part of
`operationApplication` that is the log's. -/
structure LogApplication (α : Type) where
  log : List α
  rejections : Rejections := ∅
  changed : Bool := false

/-- The loop of every `apply…Operations`. -/
def applyEach {α : Type} (id : α → String) (decision : List α → α → Decision α)
    (allowed : α → Bool) (insertError : String) :
    List α → LogApplication α → Fallible (LogApplication α)
  | [], application => .ok application
  | operation :: operations, application =>
    match decision application.log operation with
    | .known => applyEach id decision allowed insertError operations application
    | .rejected reason =>
      applyEach id decision allowed insertError operations
        { application with
          rejections := application.rejections.insert (id operation) ⟨"rejected", reason⟩ }
    | .insert row => do
      check (allowed row) (fail insertError)
      applyEach id decision allowed insertError operations
        { application with log := application.log ++ [row], changed := true }

/-- The decision of the domains that only compare ids and payloads. -/
def decideByID {α : Type} (id : α → String) (same : α → α → String → Bool)
    (row : String → α → α) (deviceID : String) (log : List α) (operation : α) : Decision α :=
  match log.find? (fun stored => id stored = id operation) with
  | some existing =>
    if same existing operation deviceID then .known
    else .rejected "operation ID already used with different payload"
  | none => .insert (row deviceID operation)

/-! ### Timer commands -/

/-- The row inserted for a command: the request's device and the UTC time. -/
def commandRow (deviceID : String) (command : Command) : Command :=
  { command with deviceID := deviceID, occurredAt := command.occurredAt.utc }

def sameCommand (stored submitted : Command) (deviceID : String) : Bool :=
  stored.deviceID = deviceID && stored.deviceSequence = submitted.deviceSequence &&
    stored.timerID = submitted.timerID && stored.taskID = submitted.taskID &&
    stored.type = submitted.type && stored.phase = submitted.phase &&
    stored.plannedDurationMs = submitted.plannedDurationMs &&
    stored.occurredAt.equal submitted.occurredAt && stored.hlcWallMs = submitted.hlcWallMs &&
    stored.hlcCounter = submitted.hlcCounter &&
    stored.observedElapsedMs = submitted.observedElapsedMs

def decideCommand (deviceID : String) (log : List Command) (command : Command) :
    Decision Command :=
  match log.find? (fun stored => stored.id = command.id) with
  | some existing =>
    if sameCommand existing command deviceID then .known
    else .rejected "command ID already used with different payload"
  | none =>
    if ∃ stored ∈ log, stored.deviceID = deviceID ∧ stored.deviceSequence = command.deviceSequence
    then .rejected "device sequence already used"
    else .insert (commandRow deviceID command)

/-- The checks of `timer_commands`. -/
def commandAllowed (row : Command) : Bool := 0 < row.deviceSequence

def applyTimerOperations (deviceID : String) :
    List Command → LogApplication Command → Fallible (LogApplication Command) :=
  applyEach Command.id (decideCommand deviceID) commandAllowed "insert timer command"

/-! ### Task operations -/

def taskOperationRow (deviceID : String) (operation : TaskOperation) : TaskOperation :=
  { operation with deviceID := deviceID, occurredAt := operation.occurredAt.utc }

def sameTaskOperation (stored submitted : TaskOperation) (deviceID : String) : Bool :=
  stored.deviceID = deviceID && stored.taskID = submitted.taskID &&
    stored.type = submitted.type && stored.title = submitted.title &&
    stored.occurredAt.equal submitted.occurredAt && stored.hlcWallMs = submitted.hlcWallMs &&
    stored.hlcCounter = submitted.hlcCounter

/-- The check of `task_operations` is on the operation type, which is one of two. -/
def taskOperationAllowed (_ : TaskOperation) : Bool := true

def applyTaskOperations (deviceID : String) :
    List TaskOperation → LogApplication TaskOperation → Fallible (LogApplication TaskOperation) :=
  applyEach TaskOperation.id (decideByID TaskOperation.id sameTaskOperation taskOperationRow deviceID)
    taskOperationAllowed "insert task operation"

/-! ### Duration operations -/

def durationOperationRow (deviceID : String) (operation : DurationOperation) : DurationOperation :=
  { operation with deviceID := deviceID, occurredAt := operation.occurredAt.utc }

def sameDurationOperation (stored submitted : DurationOperation) (deviceID : String) : Bool :=
  stored.deviceID = deviceID && stored.phase = submitted.phase &&
    stored.durationMs = submitted.durationMs && stored.occurredAt.equal submitted.occurredAt &&
    stored.hlcWallMs = submitted.hlcWallMs && stored.hlcCounter = submitted.hlcCounter

/-- The checks of `duration_operations`; the phase is one of the three. -/
def durationOperationAllowed (row : DurationOperation) : Bool :=
  60000 ≤ row.durationMs && row.durationMs ≤ 10800000 && row.durationMs % 60000 = 0 &&
    0 ≤ row.hlcWallMs && 0 ≤ row.hlcCounter

def applyDurationOperations (deviceID : String) :
    List DurationOperation → LogApplication DurationOperation →
      Fallible (LogApplication DurationOperation) :=
  applyEach DurationOperation.id
    (decideByID DurationOperation.id sameDurationOperation durationOperationRow deviceID)
    durationOperationAllowed "insert duration operation"

/-! ### Auto-start operations -/

/-- `length(x) BETWEEN 8 AND 128`. -/
def idLength (id : String) : Bool := 8 ≤ id.length && id.length ≤ 128

def autoStartOperationRow (deviceID : String) (operation : AutoStartOperation) :
    AutoStartOperation :=
  { operation with deviceID := deviceID, occurredAt := operation.occurredAt.utc }

def sameAutoStartOperation (stored submitted : AutoStartOperation) (deviceID : String) : Bool :=
  stored.deviceID = deviceID && stored.enabled = submitted.enabled &&
    stored.occurredAt.equal submitted.occurredAt && stored.hlcWallMs = submitted.hlcWallMs &&
    stored.hlcCounter = submitted.hlcCounter

/-- The checks of `auto_start_operations`. -/
def autoStartOperationAllowed (row : AutoStartOperation) : Bool :=
  idLength row.id && idLength row.deviceID && 0 ≤ row.hlcWallMs && 0 ≤ row.hlcCounter

def applyAutoStartOperations (deviceID : String) :
    List AutoStartOperation → LogApplication AutoStartOperation →
      Fallible (LogApplication AutoStartOperation) :=
  applyEach AutoStartOperation.id
    (decideByID AutoStartOperation.id sameAutoStartOperation autoStartOperationRow deviceID)
    autoStartOperationAllowed "insert auto-start operation"

/-! ### Selected-task operations -/

def selectedTaskOperationRow (deviceID : String) (operation : SelectedTaskOperation) :
    SelectedTaskOperation :=
  { operation with deviceID := deviceID, occurredAt := operation.occurredAt.utc }

def sameSelectedTaskOperation (stored submitted : SelectedTaskOperation) (deviceID : String) :
    Bool :=
  stored.deviceID = deviceID && stored.taskID = submitted.taskID &&
    stored.occurredAt.equal submitted.occurredAt && stored.hlcWallMs = submitted.hlcWallMs &&
    stored.hlcCounter = submitted.hlcCounter

/-- The checks of `selected_task_operations`. -/
def selectedTaskOperationAllowed (row : SelectedTaskOperation) : Bool :=
  idLength row.id && idLength row.deviceID && row.taskID.all idLength && 0 ≤ row.hlcWallMs &&
    0 ≤ row.hlcCounter

def applySelectedTaskOperations (deviceID : String) :
    List SelectedTaskOperation → LogApplication SelectedTaskOperation →
      Fallible (LogApplication SelectedTaskOperation) :=
  applyEach SelectedTaskOperation.id
    (decideByID SelectedTaskOperation.id sameSelectedTaskOperation selectedTaskOperationRow deviceID)
    selectedTaskOperationAllowed "insert selected-task operation"

/-! ### All five -/

structure OperationApplication where
  commandRejections : Rejections := ∅
  taskRejections : Rejections := ∅
  durationRejections : Rejections := ∅
  autoStartRejections : Rejections := ∅
  selectedTaskRejections : Rejections := ∅
  changed : Bool := false

def applyOperations (t : UserTables) (request : SyncRequest) :
    Fallible (UserTables × OperationApplication) := do
  let commands ← applyTimerOperations request.deviceID request.commands { log := t.timerCommands }
  let tasks ← applyTaskOperations request.deviceID request.taskOperations
    { log := t.taskOperations, changed := commands.changed }
  let durations ← applyDurationOperations request.deviceID request.durationOperations
    { log := t.durationOperations, changed := tasks.changed }
  let autoStarts ← applyAutoStartOperations request.deviceID request.autoStartOperations
    { log := t.autoStartOperations, changed := durations.changed }
  let selectedTasks ← applySelectedTaskOperations request.deviceID request.selectedTaskOperations
    { log := t.selectedTaskOperations, changed := autoStarts.changed }
  .ok ({ t with
         timerCommands := commands.log
         taskOperations := tasks.log
         durationOperations := durations.log
         autoStartOperations := autoStarts.log
         selectedTaskOperations := selectedTasks.log },
       { commandRejections := commands.rejections
         taskRejections := tasks.rejections
         durationRejections := durations.rejections
         autoStartRejections := autoStarts.rejections
         selectedTaskRejections := selectedTasks.rejections
         changed := selectedTasks.changed })

/-- One loop of `validateUniqueOperationIDs`. -/
def uniqueIDs {α : Type} (id : α → String) (label : String) : List String → List α → Fallible Unit
  | _, [] => .ok ()
  | seen, operation :: operations => do
    check (id operation ∉ seen) (fail ("duplicate " ++ label ++ " id " ++ quote (id operation)))
    uniqueIDs id label (id operation :: seen) operations

def validateUniqueOperationIDs (request : SyncRequest) : Fallible Unit := do
  uniqueIDs Command.id "timer command" [] request.commands
  uniqueIDs TaskOperation.id "task operation" [] request.taskOperations
  uniqueIDs DurationOperation.id "duration operation" [] request.durationOperations
  uniqueIDs AutoStartOperation.id "auto-start operation" [] request.autoStartOperations
  uniqueIDs SelectedTaskOperation.id "selected-task operation" [] request.selectedTaskOperations

/-! ## Loading a log in its order -/

def loadCommands (t : UserTables) : List Command := sortBy commandKey t.timerCommands

def taskOperationKey (operation : TaskOperation) : LogKey :=
  logKey operation.hlcWallMs operation.hlcCounter operation.deviceID operation.id

def loadTaskOperations (t : UserTables) : List TaskOperation :=
  sortBy taskOperationKey t.taskOperations

/-- Duration operations are grouped by phase. -/
def durationOperationKey (operation : DurationOperation) : String ×ₗ LogKey :=
  toLex (operation.phase.text,
    logKey operation.hlcWallMs operation.hlcCounter operation.deviceID operation.id)

def loadDurationOperations (t : UserTables) : List DurationOperation :=
  sortBy durationOperationKey t.durationOperations

def autoStartOperationKey (operation : AutoStartOperation) : LogKey :=
  logKey operation.hlcWallMs operation.hlcCounter operation.deviceID operation.id

def loadAutoStartOperations (t : UserTables) : List AutoStartOperation :=
  sortBy autoStartOperationKey t.autoStartOperations

def selectedTaskOperationKey (operation : SelectedTaskOperation) : LogKey :=
  logKey operation.hlcWallMs operation.hlcCounter operation.deviceID operation.id

def loadSelectedTaskOperations (t : UserTables) : List SelectedTaskOperation :=
  sortBy selectedTaskOperationKey t.selectedTaskOperations

end Pomodorough.Store.OperationLogs
