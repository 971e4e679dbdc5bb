import Pomodorough.Library.Fallible
import Pomodorough.Store.Records

/-! # What the store accepts from the shared core

The shared core is a separate program; its JSON answers are decoded into the
values of this file and checked against the log they were computed from before
anything of them is stored. A JSON object decoded into a Go map is an
association list with distinct keys, in the order the map is ranged over. -/
namespace Pomodorough.Store.SharedCoreValidation
open Pomodorough.Library.Fallible Pomodorough.Store.Records

abbrev Fallible := Except StoreError

/-- `errors.New` and `fmt.Errorf`. -/
def fail (message : String) : StoreError := .failure message

/-- `fmt.Errorf` with `%w`: a sentinel is still recognised under its context. -/
def wrap {α : Type} (context : String) : Fallible α → Fallible α
  | .error (.failure message) => .error (.failure (context ++ ": " ++ message))
  | r => r

@[simp] theorem wrap_ok_iff {α : Type} {context : String} {r : Fallible α} {a : α} :
    wrap context r = .ok a ↔ r = .ok a := by
  unfold wrap
  split <;> simp_all

/-- `%q`. -/
def quote (text : String) : String := text.quote

def minimumDurationMs : Int := 60000
def maximumTimerDurationMs : Int := 14400000
def maximumDurationMs : Int := 10800000

/-! ## Decoded answers -/

/-- `coreNullable`: tells an explicit null from an absent field. -/
structure CoreNullable (α : Type) where
  present : Bool
  value : Option α
  deriving DecidableEq, Repr

/-- `coreTimerSession`; an absent string is the empty one. -/
structure CoreTimerSession where
  timerID : String
  taskID : String
  phase : String
  status : String
  plannedDurationMs : Int
  elapsedAtAnchorMs : Int
  anchorAt : Timestamp
  startedAt : Timestamp
  startedByDeviceID : String
  endedAt : Timestamp
  lastCommandID : String
  terminalCommandID : String
  supersededByTimerID : String
  lastIntent : Option Intent
  deriving DecidableEq, Repr

structure CoreTimerOutcome where
  outcome : Option String
  reason : Option String
  deriving DecidableEq, Repr

/-- `coreTimerResult`; a missing array or object is `none`. -/
structure CoreTimerResult where
  canonical : CoreNullable CanonicalTimer
  history : Option (List HistoryItem)
  sessions : Option (List CoreTimerSession)
  outcomes : Option (AList fun _ : String => CoreTimerOutcome)

structure CoreTaskResult where
  tasks : Option (List Task)
  winningOperationIDs : Option (AList fun _ : String => String)

structure CoreDurationResult where
  durationsMs : Option (AList fun _ : String => Int)
  winningOperationIDs : Option (AList fun _ : String => String)

structure CoreAutoStartResult where
  autoStartBreaks : Option Bool
  winningOperationID : CoreNullable String

structure CoreSelectedTaskResult where
  selectedTaskID : CoreNullable String
  winningOperationID : CoreNullable String

/-! ## Small checks -/

def parseRequiredCoreTime (label : String) (value : Timestamp) : Fallible Time :=
  if value.text = "" then .error (fail (label ++ " timestamp is empty"))
  else match value.parsed with
    | some parsed => .ok parsed
    | none => .error (fail ("parse shared " ++ label))

def validTimerPhase (phase : String) : Bool :=
  phase = "focus" || phase = "short_break" || phase = "long_break"

def validTimerStatus (status : String) : Bool :=
  status = "running" || status = "paused" || status = "completed" || status = "cancelled" ||
    status = "superseded"

def coreTimesEqual (left right : Timestamp) : Bool :=
  match left.parsed, right.parsed with
  | some leftTime, some rightTime => leftTime.equal rightTime
  | _, _ => false

def intentsEqual : Option Intent → Option Intent → Bool
  | none, none => true
  | some left, some right => left.type = right.type && left.commandID = right.commandID &&
      coreTimesEqual left.occurredAt right.occurredAt
  | _, _ => false

def validateCommandReference (id : String) (commands : List Command) (label : String) :
    Fallible Unit := do
  check (id ≠ "") (fail (label ++ " is empty"))
  check (∃ command ∈ commands, command.id = id) (fail (label ++ " " ++ quote id ++ " is unknown"))

def validateCoreIntent (intent : Option Intent) (commands : List Command) : Fallible Unit :=
  match intent with
  | none => .ok ()
  | some intent => do
    check (intent.type ≠ "") (fail "timer intent type is empty")
    validateCommandReference intent.commandID commands "timer intent command"
    let _ ← parseRequiredCoreTime "timer intent" intent.occurredAt
    .ok ()

/-! ## Timer outcomes -/

/-- `timerCommandIndex`: the maps it builds are read off the commands. -/
def timerCommandIndex : List Command → List Command → Fallible Unit
  | _, [] => .ok ()
  | seen, command :: commands => do
    check (command.id ≠ "" ∧ command.timerID ≠ "") (fail "timer input contains empty identifier")
    check (∀ earlier ∈ seen, earlier.id ≠ command.id)
      (fail ("duplicate timer command id " ++ quote command.id))
    timerCommandIndex (seen ++ [command]) commands

def validateTimerOutcome (commands : List Command) (commandID : String)
    (outcome : CoreTimerOutcome) : Fallible Unit := do
  check (∃ command ∈ commands, command.id = commandID)
    (fail ("timer outcome references unknown command " ++ quote commandID))
  match outcome.outcome, outcome.reason with
  | some outcome, some reason =>
    if outcome = "applied" then
      check (reason = "") (fail ("applied timer outcome " ++ quote commandID ++ " has reason"))
    else if outcome = "ignored" ∨ outcome = "rejected" then
      check (reason ≠ "") (fail ("timer outcome " ++ quote commandID ++ " is missing reason"))
    else .error (fail ("timer outcome " ++ quote commandID ++ " has invalid type"))
  | _, _ => .error (fail ("timer outcome " ++ quote commandID ++ " is missing required fields"))

def validateTimerOutcomes (outcomes : AList fun _ : String => CoreTimerOutcome)
    (commands : List Command) : Fallible Unit := do
  check (outcomes.entries.length = commands.length)
    (fail "timer outcomes do not cover input commands")
  checkAll (fun entry => validateTimerOutcome commands entry.1 entry.2) outcomes.entries

/-! ## Timer sessions -/

def validateSessionTerminalFields (session : CoreTimerSession) : Fallible Unit := do
  let terminal : Bool :=
    session.status = "completed" || session.status = "cancelled" || session.status = "superseded"
  check (terminal ≠ decide (session.endedAt.text = ""))
    (fail ("timer session " ++ quote session.timerID ++ " has inconsistent end timestamp"))
  if session.endedAt.text ≠ "" then
    let _ ← parseRequiredCoreTime "timer end" session.endedAt
  if session.status = "superseded" then
    check (session.supersededByTimerID ≠ "" ∧ session.supersededByTimerID ≠ session.timerID)
      (fail ("timer session " ++ quote session.timerID ++ " has invalid superseding timer"))
  else
    check (session.supersededByTimerID = "")
      (fail ("timer session " ++ quote session.timerID ++
        " unexpectedly names a superseding timer"))
  check (¬ ((session.status = "cancelled" ∨ session.status = "superseded") ∧
      session.terminalCommandID = ""))
    (fail ("timer session " ++ quote session.timerID ++ " is missing terminal command"))

def validateCoreTimerSession (session : CoreTimerSession) (commands : List Command) :
    Fallible Unit := do
  check (session.timerID ≠ "" ∧ ∃ command ∈ commands, command.timerID = session.timerID)
    (fail ("timer session references unknown timer " ++ quote session.timerID))
  check (validTimerPhase session.phase ∧ validTimerStatus session.status)
    (fail ("timer session " ++ quote session.timerID ++ " has invalid phase or status"))
  check (minimumDurationMs ≤ session.plannedDurationMs ∧
      session.plannedDurationMs ≤ maximumTimerDurationMs ∧ 0 ≤ session.elapsedAtAnchorMs ∧
      session.elapsedAtAnchorMs ≤ session.plannedDurationMs)
    (fail ("timer session " ++ quote session.timerID ++ " has invalid duration"))
  let _ ← parseRequiredCoreTime "timer anchor" session.anchorAt
  let _ ← parseRequiredCoreTime "timer start" session.startedAt
  validateSessionTerminalFields session
  validateCommandReference session.lastCommandID commands "last timer command"
  if session.terminalCommandID ≠ "" then
    validateCommandReference session.terminalCommandID commands "terminal timer command"
  validateCoreIntent session.lastIntent commands

/-- The loop of `validateCoreTimerSessions`, with the sessions it has put into
its map. -/
def validateOrderedSessions (commands : List Command) :
    List CoreTimerSession → String → List CoreTimerSession → Fallible Unit
  | _, _, [] => .ok ()
  | seen, previousID, session :: sessions => do
    validateCoreTimerSession session commands
    check (∀ earlier ∈ seen, earlier.timerID ≠ session.timerID)
      (fail ("duplicate timer session " ++ quote session.timerID))
    check (previousID = "" ∨ previousID < session.timerID)
      (fail "timer sessions are not strictly ordered")
    validateOrderedSessions commands (seen ++ [session]) session.timerID sessions

def validateCoreTimerSessions (sessions : List CoreTimerSession) (commands : List Command) :
    Fallible Unit := do
  validateOrderedSessions commands [] "" sessions
  checkAll (fun session => check (session.supersededByTimerID = "" ∨
      ∃ other ∈ sessions, other.timerID = session.supersededByTimerID)
    (fail ("timer session " ++ quote session.timerID ++
      " references missing superseding timer"))) sessions

/-! ## The canonical timer and the history -/

def canonicalMatchesSession (canonical : CanonicalTimer) (session : CoreTimerSession) : Bool :=
  canonical.id = session.timerID && canonical.taskID = session.taskID &&
    canonical.phase = session.phase && canonical.status = session.status &&
    canonical.plannedDurationMs = session.plannedDurationMs &&
    canonical.elapsedAtAnchorMs = session.elapsedAtAnchorMs &&
    coreTimesEqual canonical.anchorAt session.anchorAt &&
    canonical.startedByDeviceID = session.startedByDeviceID &&
    intentsEqual canonical.lastIntent session.lastIntent

def validateCoreCanonical (canonical : Option CanonicalTimer) (sessions : List CoreTimerSession)
    (commands : List Command) : Fallible Unit :=
  match canonical with
  | none => .ok ()
  | some canonical => do
    let unknown := fail ("canonical timer references unknown session " ++ quote canonical.id)
    check (canonical.id ≠ "") unknown
    match sessions.find? (fun session => session.timerID = canonical.id) with
    | none => .error unknown
    | some session =>
      check (validTimerPhase canonical.phase ∧ validTimerStatus canonical.status)
        (fail "canonical timer has invalid phase or status")
      check (minimumDurationMs ≤ canonical.plannedDurationMs ∧
          canonical.plannedDurationMs ≤ maximumTimerDurationMs ∧
          0 ≤ canonical.elapsedAtAnchorMs ∧
          canonical.elapsedAtAnchorMs ≤ canonical.plannedDurationMs)
        (fail "canonical timer has invalid duration")
      let _ ← parseRequiredCoreTime "canonical timer anchor" canonical.anchorAt
      validateCoreIntent canonical.lastIntent commands
      check (canonicalMatchesSession canonical session)
        (fail "canonical timer is inconsistent with its session")

def historyMatchesSession (item : HistoryItem) (session : CoreTimerSession) : Bool :=
  item.timerID = session.timerID && item.taskID = session.taskID &&
    item.commandID = session.terminalCommandID && item.phase = session.phase &&
    item.status = session.status && item.plannedDurationMs = session.plannedDurationMs &&
    coreTimesEqual item.endedAt session.endedAt

def validateHistoryCompletion (item : HistoryItem) : Fallible Unit :=
  if item.status = "completed" then do
    let completedAt ← parseRequiredCoreTime "timer completion" item.completedAt
    check (∃ endedAt ∈ item.endedAt.parsed, completedAt.equal endedAt)
      (fail "timer completion and end timestamps differ")
  else check (item.completedAt.text = "") (fail "non-completed timer has completion timestamp")

def validateCoreHistoryItem (item : HistoryItem) (sessions : List CoreTimerSession)
    (commands : List Command) : Fallible Time := do
  let unknown := fail ("history references unknown timer " ++ quote item.timerID)
  check (item.timerID ≠ "") unknown
  match sessions.find? (fun session => session.timerID = item.timerID) with
  | none => .error unknown
  | some session =>
    check (item.status = "completed" ∨ item.status = "cancelled" ∨ item.status = "superseded")
      (fail "timer history has non-terminal status")
    let endedAt ← parseRequiredCoreTime "timer history end" item.endedAt
    if item.commandID ≠ "" then
      validateCommandReference item.commandID commands "timer history command"
    check (historyMatchesSession item session)
      (fail "timer history is inconsistent with its session")
    validateHistoryCompletion item
    .ok endedAt

/-- The loop of `validateCoreHistory`: the ids seen, and the last end and timer.
The zero time stands for no previous item. -/
def validateOrderedHistory (sessions : List CoreTimerSession) (commands : List Command) :
    List String → Time → String → List HistoryItem → Fallible Unit
  | _, _, _, [] => .ok ()
  | ids, previous, previousTimerID, item :: history => do
    let endedAt ← validateCoreHistoryItem item sessions commands
    check (item.id ≠ "" ∧ item.id ∉ ids)
      (fail ("duplicate or empty timer history id " ++ quote item.id))
    check (previous.isZero ∨ endedAt.unixNano < previous.unixNano ∨
        endedAt.unixNano = previous.unixNano ∧ previousTimerID < item.timerID)
      (fail "timer history is not strictly ordered")
    validateOrderedHistory sessions commands (item.id :: ids) endedAt item.timerID history

def validateCoreHistory (history : List HistoryItem) (sessions : List CoreTimerSession)
    (commands : List Command) : Fallible Unit :=
  validateOrderedHistory sessions commands [] Time.zero "" history

def validateCoreTimerResult (output : CoreTimerResult) (commands : List Command) : Fallible Unit :=
  match output.history, output.sessions, output.outcomes with
  | some history, some sessions, some outcomes => do
    check (output.canonical.present) (fail "missing required timer output field")
    timerCommandIndex [] commands
    validateTimerOutcomes outcomes commands
    validateCoreTimerSessions sessions commands
    validateCoreCanonical output.canonical.value sessions commands
    validateCoreHistory history sessions commands
  | _, _, _ => .error (fail "missing required timer output field")

/-! ## Tasks, durations, auto-start and the selected task -/

/-- The last operation with an id: the one left in a map filled in log order. -/
def lastWithID {α : Type} (idOf : α → String) (operations : List α) (id : String) : Option α :=
  operations.reverse.find? (fun operation => idOf operation = id)

def validateTaskWinners (winners : AList fun _ : String => String)
    (operations : List TaskOperation) : Fallible Unit :=
  checkAll (fun entry => check (entry.1 ≠ "" ∧ entry.2 ≠ "" ∧
      (lastWithID TaskOperation.id operations entry.2).map TaskOperation.taskID = some entry.1)
    (fail ("task winner " ++ quote entry.1 ++ " references inconsistent operation " ++
      quote entry.2))) winners.entries

def taskBefore (left right : Task) : Bool :=
  left.title < right.title || left.title = right.title && left.id < right.id

/-- The loop of `validateCoreTasks`, with the tasks it has passed. -/
def validateOrderedTasks (winners : AList fun _ : String => String) :
    List Task → List Task → Fallible Unit
  | _, [] => .ok ()
  | seen, current :: tasks => do
    check (current.id ≠ "" ∧ current.title ≠ "") (fail "shared task output contains invalid task")
    check (∀ earlier ∈ seen, earlier.id ≠ current.id)
      (fail ("shared task output duplicates task " ++ quote current.id))
    check (current.id ∈ winners)
      (fail ("shared task " ++ quote current.id ++ " has no winning operation"))
    check (∀ previous ∈ seen.getLast?, taskBefore previous current)
      (fail "shared tasks are not strictly ordered")
    validateOrderedTasks winners (seen ++ [current]) tasks

def taskResultFromCore (output : CoreTaskResult) (operations : List TaskOperation) :
    Fallible (List Task × AList fun _ : String => String) :=
  match output.tasks, output.winningOperationIDs with
  | some tasks, some winners => do
    validateTaskWinners winners operations
    validateOrderedTasks winners [] tasks
    .ok (tasks, winners)
  | _, _ => .error (fail "shared task output is missing required fields")

def validateCoreDurations (durationsMs : AList fun _ : String => Int)
    (winners : AList fun _ : String => String) (operations : List DurationOperation) :
    Fallible Unit := do
  check (durationsMs.entries.length = 3)
    (fail "shared duration output is missing required phases")
  checkAll (fun phase => check (∃ value ∈ durationsMs.lookup phase,
      minimumDurationMs ≤ value ∧ value ≤ maximumDurationMs ∧ value % minimumDurationMs = 0)
    (fail ("shared duration for " ++ quote phase ++ " is invalid")))
    ["focus", "short_break", "long_break"]
  checkAll (fun entry => check (validTimerPhase entry.1 ∧ entry.2 ≠ "" ∧
      (lastWithID DurationOperation.id operations entry.2).map
        (fun operation => operation.phase.text) = some entry.1)
    (fail ("duration winner " ++ quote entry.1 ++ " references inconsistent operation " ++
      quote entry.2))) winners.entries

def durationResultFromCore (output : CoreDurationResult) (operations : List DurationOperation) :
    Fallible (DurationsMs × List String) :=
  match output.durationsMs, output.winningOperationIDs with
  | some durationsMs, some winners => do
    validateCoreDurations durationsMs winners operations
    .ok ({ focus := (durationsMs.lookup "focus").getD 0,
           shortBreak := (durationsMs.lookup "short_break").getD 0,
           longBreak := (durationsMs.lookup "long_break").getD 0 },
         winners.entries.map fun entry => entry.2)
  | _, _ => .error (fail "shared duration output is missing required phases")

/-- `nullableCoreString`. -/
def nullableCoreString (value : CoreNullable String) : String := value.value.getD ""

def autoStartResultFromCore (output : CoreAutoStartResult) (operations : List AutoStartOperation) :
    Fallible (Bool × String) :=
  match output.autoStartBreaks with
  | none => .error (fail "shared auto-start output is missing required fields")
  | some autoStartBreaks => do
    check (output.winningOperationID.present)
      (fail "shared auto-start output is missing required fields")
    let winner := nullableCoreString output.winningOperationID
    check (winner = "" ∨ ∃ operation ∈ operations, operation.id = winner)
      (fail ("auto-start winner references unknown operation " ++ quote winner))
    .ok (autoStartBreaks, winner)

def selectedTaskResultFromCore (output : CoreSelectedTaskResult)
    (operations : List SelectedTaskOperation) (tasks : List Task) :
    Fallible (Option String × String) := do
  check (output.selectedTaskID.present ∧ output.winningOperationID.present)
    (fail "shared selected-task output is missing required fields")
  let winner := nullableCoreString output.winningOperationID
  check (winner = "" ∨ ∃ operation ∈ operations, operation.id = winner)
    (fail ("selected-task winner references unknown operation " ++ quote winner))
  match output.selectedTaskID.value with
  | none => .ok (none, winner)
  | some id =>
    check (∃ current ∈ tasks, current.id = id) (fail ("selected task " ++ quote id ++ " is not active"))
    .ok (some id, winner)

end Pomodorough.Store.SharedCoreValidation
