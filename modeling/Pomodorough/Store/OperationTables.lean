import Pomodorough.Library.Rfc3339
import Pomodorough.Store.OperationDomains

/-! # The operation tables

The tables as SQLite has them: rows of columns with a type and constraints. An
operation is bound to the parameters of an INSERT, its time as UTC text, and
read back by a SELECT. -/
namespace Pomodorough.Store.OperationTables
open Pomodorough.Library Pomodorough.Library.Fallible
open Pomodorough.Store.Records Pomodorough.Store.SharedCoreValidation
open Pomodorough.Store.OperationLogs Pomodorough.Store.OperationDomains

/-! ## Tables -/

inductive SqlValue where
  | null
  | integer (value : Int)
  | text (value : String)
  deriving DecidableEq, Repr

abbrev Row := List SqlValue

inductive ColumnType where
  | integer | text
  deriving DecidableEq, Repr

/-- A column of a STRICT table. A CHECK that comes to NULL passes. -/
structure Column where
  name : String
  type : ColumnType
  notNull : Bool := true
  check : SqlValue → Bool := fun _ => true

def ColumnType.holds : ColumnType → SqlValue → Bool
  | _, .null => true
  | .integer, .integer value => -2 ^ 63 ≤ value && value < 2 ^ 63
  | .text, .text _ => true
  | _, _ => false

@[simp] theorem holds_text (value : String) : ColumnType.text.holds (.text value) = true := rfl

@[simp] theorem holds_integer (value : Int) :
    ColumnType.integer.holds (.integer value) = (-2 ^ 63 ≤ value && value < 2 ^ 63) := rfl

def Column.accepts (column : Column) (value : SqlValue) : Bool :=
  column.type.holds value && !(column.notNull && value = .null) && column.check value

/-- The columns in the order of the INSERT, and the positions of the columns of
the PRIMARY KEY and of each UNIQUE. -/
structure Table where
  columns : List Column
  keys : List (List Nat)

def keyOf (key : List Nat) (row : Row) : Row := key.map fun column => row.getD column .null

/-- Every column has a value it accepts. -/
def Table.fits (table : Table) (row : Row) : Bool :=
  row.length = table.columns.length &&
    (table.columns.zip row).all fun cell => cell.1.accepts cell.2

/-- No row has the same key; a key with NULL in it is like no other. -/
def Table.unique (table : Table) (rows : List Row) (row : Row) : Bool :=
  table.keys.all fun key => .null ∈ keyOf key row || rows.all fun other =>
    keyOf key other ≠ keyOf key row

/-- `INSERT`, which violates no constraint or fails. -/
def Table.insert (table : Table) (rows : List Row) (row : Row) (error : StoreError) :
    Fallible (List Row) := do
  check (table.fits row ∧ table.unique rows row) error
  .ok (rows ++ [row])

/-! ### Checks -/

/-- `length(·)` counts the characters before the first NUL. -/
def sqlLength (text : String) : Nat := (text.toList.takeWhile fun c => c ≠ '\x00').length

/-- `CHECK (length(x) BETWEEN 8 AND 128)` -/
def lengthCheck : SqlValue → Bool
  | .text value => 8 ≤ sqlLength value && sqlLength value ≤ 128
  | _ => true

/-- `CHECK (x IN (…))` on a text. -/
def textIn (values : List String) : SqlValue → Bool
  | .text value => value ∈ values
  | _ => true

def positiveCheck : SqlValue → Bool
  | .integer value => 0 < value
  | _ => true

def nonNegativeCheck : SqlValue → Bool
  | .integer value => 0 ≤ value
  | _ => true

/-- `CHECK (enabled IN (0, 1))` -/
def booleanCheck : SqlValue → Bool
  | .integer value => value = 0 || value = 1
  | _ => true

/-- `CHECK (duration_ms BETWEEN 60000 AND 10800000 AND duration_ms % 60000 = 0)`; the
remainder has the sign of the dividend. -/
def durationCheck : SqlValue → Bool
  | .integer value => 60000 ≤ value && value ≤ 10800000 && value.tmod 60000 = 0
  | _ => true

/-! ### The five tables -/

def timerCommandsTable : Table where
  columns := [
    { name := "id", type := .text },
    { name := "device_id", type := .text },
    { name := "device_sequence", type := .integer, check := positiveCheck },
    { name := "timer_id", type := .text },
    { name := "task_id", type := .text, notNull := false },
    { name := "command_type", type := .text },
    { name := "phase", type := .text },
    { name := "planned_duration_ms", type := .integer },
    { name := "occurred_at", type := .text },
    { name := "occurred_at_ms", type := .integer },
    { name := "hlc_wall_ms", type := .integer },
    { name := "hlc_counter", type := .integer },
    { name := "observed_elapsed_ms", type := .integer }]
  keys := [[0], [1, 2]]

def taskOperationsTable : Table where
  columns := [
    { name := "id", type := .text },
    { name := "device_id", type := .text },
    { name := "task_id", type := .text },
    { name := "operation_type", type := .text, check := textIn ["upsert", "delete"] },
    { name := "title", type := .text },
    { name := "occurred_at", type := .text },
    { name := "occurred_at_ms", type := .integer },
    { name := "hlc_wall_ms", type := .integer },
    { name := "hlc_counter", type := .integer }]
  keys := [[0]]

def durationOperationsTable : Table where
  columns := [
    { name := "id", type := .text },
    { name := "device_id", type := .text },
    { name := "phase", type := .text, check := textIn ["focus", "short_break", "long_break"] },
    { name := "duration_ms", type := .integer, check := durationCheck },
    { name := "occurred_at", type := .text },
    { name := "occurred_at_ms", type := .integer },
    { name := "hlc_wall_ms", type := .integer, check := nonNegativeCheck },
    { name := "hlc_counter", type := .integer, check := nonNegativeCheck }]
  keys := [[0]]

def autoStartOperationsTable : Table where
  columns := [
    { name := "id", type := .text, check := lengthCheck },
    { name := "device_id", type := .text, check := lengthCheck },
    { name := "enabled", type := .integer, check := booleanCheck },
    { name := "occurred_at", type := .text },
    { name := "occurred_at_ms", type := .integer },
    { name := "hlc_wall_ms", type := .integer, check := nonNegativeCheck },
    { name := "hlc_counter", type := .integer, check := nonNegativeCheck }]
  keys := [[0]]

def selectedTaskOperationsTable : Table where
  columns := [
    { name := "id", type := .text, check := lengthCheck },
    { name := "device_id", type := .text, check := lengthCheck },
    { name := "task_id", type := .text, notNull := false, check := lengthCheck },
    { name := "occurred_at", type := .text },
    { name := "occurred_at_ms", type := .integer },
    { name := "hlc_wall_ms", type := .integer, check := nonNegativeCheck },
    { name := "hlc_counter", type := .integer, check := nonNegativeCheck }]
  keys := [[0]]

/-! ## Binding and scanning -/

/-- `t.UTC().Format(time.RFC3339Nano)` -/
def formatTime (t : Time) : String := String.ofList (Rfc3339.format t.unixNano)

/-- `time.Parse(time.RFC3339Nano, ·)` of a stored time. -/
def parseStoredTime (label text : String) : Fallible Time :=
  match Rfc3339.parse text.toList with
  | some parsed => .ok ⟨parsed.1, parsed.2⟩
  | none => .error (fail ("parse stored " ++ label ++ " timestamp"))

/-- `nullString`: the empty string is stored as NULL. -/
def nullString (value : String) : SqlValue := if value = "" then .null else .text value

/-- `nullableString` -/
def nullableString : Option String → SqlValue
  | none => .null
  | some value => .text value

@[simp] theorem holds_nullString (value : String) :
    ColumnType.text.holds (nullString value) = true := by
  unfold nullString
  split <;> rfl

@[simp] theorem holds_nullableString (value : Option String) :
    ColumnType.text.holds (nullableString value) = true := by
  cases value <;> rfl

/-- `sql.NullString` and its `String`. -/
def textOrEmpty : SqlValue → Option String
  | .null => some ""
  | .text value => some value
  | .integer _ => none

/-- `stringPointer` -/
def textOrNone : SqlValue → Option (Option String)
  | .null => some none
  | .text value => some (some value)
  | .integer _ => none

def commandTypeOf (text : String) : Option CommandType :=
  [.start, .pause, .resume, .finish, .cancel, .clear, .retarget].find? fun type : CommandType =>
    type.text = text

def taskOperationTypeOf (text : String) : Option TaskOperationType :=
  [.upsert, .delete].find? fun type : TaskOperationType => type.text = text

def phaseOf (text : String) : Option Phase :=
  [.focus, .shortBreak, .longBreak].find? fun phase : Phase => phase.text = text

def bindCommand (deviceID : String) (command : Command) : Row :=
  [.text command.id, .text deviceID, .integer command.deviceSequence, .text command.timerID,
    nullString command.taskID, .text command.type.text, .text command.phase.text,
    .integer command.plannedDurationMs, .text (formatTime command.occurredAt),
    .integer command.occurredAt.unixMilli, .integer command.hlcWallMs,
    .integer command.hlcCounter, .integer command.observedElapsedMs]

def scanError : StoreError := fail "scan operation"

/-- What `loadCommand` reads of a row. A type or phase the code never writes has
no value here. -/
def scanCommand : Row → Fallible Command
  | [.text id, .text deviceID, .integer deviceSequence, .text timerID, taskID, .text type,
      .text phase, .integer plannedDurationMs, .text occurredAt, .integer _, .integer hlcWallMs,
      .integer hlcCounter, .integer observedElapsedMs] =>
    match textOrEmpty taskID, commandTypeOf type, phaseOf phase with
    | some taskID, some type, some phase => do
      let occurredAt ← parseStoredTime "command" occurredAt
      .ok ⟨id, deviceID, deviceSequence, timerID, taskID, type, phase, plannedDurationMs,
        occurredAt, hlcWallMs, hlcCounter, observedElapsedMs⟩
    | _, _, _ => .error scanError
  | _ => .error scanError

def bindTaskOperation (deviceID : String) (operation : TaskOperation) : Row :=
  [.text operation.id, .text deviceID, .text operation.taskID, .text operation.type.text,
    .text operation.title, .text (formatTime operation.occurredAt),
    .integer operation.occurredAt.unixMilli, .integer operation.hlcWallMs,
    .integer operation.hlcCounter]

def scanTaskOperation : Row → Fallible TaskOperation
  | [.text id, .text deviceID, .text taskID, .text type, .text title, .text occurredAt,
      .integer _, .integer hlcWallMs, .integer hlcCounter] =>
    match taskOperationTypeOf type with
    | some type => do
      let occurredAt ← parseStoredTime "task operation" occurredAt
      .ok ⟨id, deviceID, taskID, type, title, occurredAt, hlcWallMs, hlcCounter⟩
    | none => .error scanError
  | _ => .error scanError

def bindDurationOperation (deviceID : String) (operation : DurationOperation) : Row :=
  [.text operation.id, .text deviceID, .text operation.phase.text, .integer operation.durationMs,
    .text (formatTime operation.occurredAt), .integer operation.occurredAt.unixMilli,
    .integer operation.hlcWallMs, .integer operation.hlcCounter]

def scanDurationOperation : Row → Fallible DurationOperation
  | [.text id, .text deviceID, .text phase, .integer durationMs, .text occurredAt, .integer _,
      .integer hlcWallMs, .integer hlcCounter] =>
    match phaseOf phase with
    | some phase => do
      let occurredAt ← parseStoredTime "duration operation" occurredAt
      .ok ⟨id, deviceID, phase, durationMs, occurredAt, hlcWallMs, hlcCounter⟩
    | none => .error scanError
  | _ => .error scanError

def bindAutoStartOperation (deviceID : String) (operation : AutoStartOperation) : Row :=
  [.text operation.id, .text deviceID, .integer (if operation.enabled then 1 else 0),
    .text (formatTime operation.occurredAt), .integer operation.occurredAt.unixMilli,
    .integer operation.hlcWallMs, .integer operation.hlcCounter]

def scanAutoStartOperation : Row → Fallible AutoStartOperation
  | [.text id, .text deviceID, .integer enabled, .text occurredAt, .integer _,
      .integer hlcWallMs, .integer hlcCounter] => do
    let occurredAt ← parseStoredTime "auto-start operation" occurredAt
    .ok ⟨id, deviceID, enabled = 1, occurredAt, hlcWallMs, hlcCounter⟩
  | _ => .error scanError

def bindSelectedTaskOperation (deviceID : String) (operation : SelectedTaskOperation) : Row :=
  [.text operation.id, .text deviceID, nullableString operation.taskID,
    .text (formatTime operation.occurredAt), .integer operation.occurredAt.unixMilli,
    .integer operation.hlcWallMs, .integer operation.hlcCounter]

def scanSelectedTaskOperation : Row → Fallible SelectedTaskOperation
  | [.text id, .text deviceID, taskID, .text occurredAt, .integer _, .integer hlcWallMs,
      .integer hlcCounter] =>
    match textOrNone taskID with
    | some taskID => do
      let occurredAt ← parseStoredTime "selected-task operation" occurredAt
      .ok ⟨id, deviceID, taskID, occurredAt, hlcWallMs, hlcCounter⟩
    | none => .error scanError
  | _ => .error scanError

/-! ## The five kinds -/

def tableOf : Domain → Table
  | .timer => timerCommandsTable
  | .task => taskOperationsTable
  | .duration => durationOperationsTable
  | .autoStart => autoStartOperationsTable
  | .selectedTask => selectedTaskOperationsTable

def bind : (d : Domain) → String → d.Operation → Row
  | .timer => bindCommand
  | .task => bindTaskOperation
  | .duration => bindDurationOperation
  | .autoStart => bindAutoStartOperation
  | .selectedTask => bindSelectedTaskOperation

def scan : (d : Domain) → Row → Fallible d.Operation
  | .timer => scanCommand
  | .task => scanTaskOperation
  | .duration => scanDurationOperation
  | .autoStart => scanAutoStartOperation
  | .selectedTask => scanSelectedTaskOperation

def same : (d : Domain) → d.Operation → d.Operation → String → Bool
  | .timer => sameCommand
  | .task => sameTaskOperation
  | .duration => sameDurationOperation
  | .autoStart => sameAutoStartOperation
  | .selectedTask => sameSelectedTaskOperation

def checkError : Domain → String
  | .timer => "check command id"
  | .task => "check task operation id"
  | .duration => "check duration operation id"
  | .autoStart => "check auto-start operation id"
  | .selectedTask => "check selected-task operation id"

def insertError : Domain → String
  | .timer => "insert timer command"
  | .task => "insert task operation"
  | .duration => "insert duration operation"
  | .autoStart => "insert auto-start operation"
  | .selectedTask => "insert selected-task operation"

def idColumn (row : Row) : SqlValue := row.getD 0 .null

/-- `SELECT … WHERE id = ?`, and its Scan. -/
def load (d : Domain) (rows : List Row) (id : String) : Fallible (Option d.Operation) :=
  match rows.find? fun row => idColumn row = .text id with
  | none => .ok none
  | some row => do
    let operation ← scan d row
    .ok (some operation)

/-- `SELECT id FROM timer_commands WHERE device_id = ? AND device_sequence = ?` -/
def deviceSequenceUsed (rows : List Row) (deviceID : String) (command : Command) : Bool :=
  rows.any fun row => keyOf [1, 2] row = [.text deviceID, .integer command.deviceSequence]

/-- The other kinds have no such query. -/
def sequenceUsed : (d : Domain) → List Row → String → d.Operation → Bool
  | .timer => deviceSequenceUsed
  | .task => fun _ _ _ => false
  | .duration => fun _ _ _ => false
  | .autoStart => fun _ _ _ => false
  | .selectedTask => fun _ _ _ => false

/-- A table while a request is applied to it. -/
structure RowApplication where
  rows : List Row
  rejections : Rejections := ∅
  changed : Bool := false
  deriving DecidableEq

/-- The loop of every `apply…Operations`, on rows. -/
def applyRows (d : Domain) (deviceID : String) :
    List d.Operation → RowApplication → Fallible RowApplication
  | [], application => .ok application
  | operation :: operations, application => do
    let existing ← wrap (checkError d) (load d application.rows (d.id operation))
    match existing with
    | some existing =>
      if same d existing operation deviceID then applyRows d deviceID operations application
      else
        applyRows d deviceID operations
          { application with
            rejections := application.rejections.insert (d.id operation)
              ⟨"rejected", d.idReason⟩ }
    | none =>
      if sequenceUsed d application.rows deviceID operation then
        applyRows d deviceID operations
          { application with
            rejections := application.rejections.insert (d.id operation)
              ⟨"rejected", "device sequence already used"⟩ }
      else do
        let rows ← (tableOf d).insert application.rows (bind d deviceID operation)
          (fail (insertError d))
        applyRows d deviceID operations { application with rows := rows, changed := true }

/-- The rows of the five tables. -/
abbrev Tables := Domain → List Row

def applyOperations (tables : Tables) (request : SyncRequest) :
    Fallible (Tables × OperationApplication) := do
  let commands ← applyRows .timer request.deviceID request.commands { rows := tables .timer }
  let tasks ← applyRows .task request.deviceID request.taskOperations
    { rows := tables .task, changed := commands.changed }
  let durations ← applyRows .duration request.deviceID request.durationOperations
    { rows := tables .duration, changed := tasks.changed }
  let autoStarts ← applyRows .autoStart request.deviceID request.autoStartOperations
    { rows := tables .autoStart, changed := durations.changed }
  let selectedTasks ← applyRows .selectedTask request.deviceID request.selectedTaskOperations
    { rows := tables .selectedTask, changed := autoStarts.changed }
  .ok (fun
      | .timer => commands.rows
      | .task => tasks.rows
      | .duration => durations.rows
      | .autoStart => autoStarts.rows
      | .selectedTask => selectedTasks.rows,
    { commandRejections := commands.rejections
      taskRejections := tasks.rejections
      durationRejections := durations.rejections
      autoStartRejections := autoStarts.rejections
      selectedTaskRejections := selectedTasks.rejections
      changed := selectedTasks.changed })

/-! ## Rows and operations -/

section
variable {d : Domain} {row : Row} {rows : List Row} {deviceID : String} {operation : d.Operation}

theorem idColumn_bind : idColumn (bind d deviceID operation) = .text (d.id operation) := by
  cases d <;> rfl

theorem idColumn_scan (h : scan d row = .ok operation) : idColumn row = .text (d.id operation) := by
  cases d
  all_goals
    unfold scan at h
    simp only at h
  · unfold scanCommand at h
    split at h
    · split at h
      · obtain ⟨_, -, h⟩ := bind_ok_iff.mp h
        cases h
        rfl
      · cases h
    · cases h
  · unfold scanTaskOperation at h
    split at h
    · split at h
      · obtain ⟨_, -, h⟩ := bind_ok_iff.mp h
        cases h
        rfl
      · cases h
    · cases h
  · unfold scanDurationOperation at h
    split at h
    · split at h
      · obtain ⟨_, -, h⟩ := bind_ok_iff.mp h
        cases h
        rfl
      · cases h
    · cases h
  · unfold scanAutoStartOperation at h
    split at h
    · obtain ⟨_, -, h⟩ := bind_ok_iff.mp h
      cases h
      rfl
    · cases h
  · unfold scanSelectedTaskOperation at h
    split at h
    · split at h
      · obtain ⟨_, -, h⟩ := bind_ok_iff.mp h
        cases h
        rfl
      · cases h
    · cases h

theorem sequenceColumns_scan {command : Command} (h : scanCommand row = .ok command) :
    keyOf [1, 2] row = [.text command.deviceID, .integer command.deviceSequence] := by
  unfold scanCommand at h
  split at h
  · split at h
    · obtain ⟨_, -, h⟩ := bind_ok_iff.mp h
      cases h
      rfl
    · cases h
  · cases h

theorem unique_iff {table : Table} : table.unique rows row = true ↔
    ∀ key ∈ table.keys, .null ∈ keyOf key row ∨ ∀ other ∈ rows, keyOf key other ≠ keyOf key row := by
  simp [Table.unique]

/-- The keys of a table: the id, and the device's sequence number of a command. -/
theorem mem_keys {key : List Nat} (h : key ∈ (tableOf d).keys) :
    key = [0] ∨ d = .timer ∧ key = [1, 2] := by
  cases d <;> simpa [tableOf, timerCommandsTable, taskOperationsTable, durationOperationsTable,
    autoStartOperationsTable, selectedTaskOperationsTable] using h

/-- An inserted row has keys of its own where the queries before the INSERT
found none. -/
theorem unique_bind (hid : ∀ row ∈ rows, idColumn row ≠ .text (d.id operation))
    (hsequence : sequenceUsed d rows deviceID operation = false) :
    (tableOf d).unique rows (bind d deviceID operation) = true := by
  rw [unique_iff]
  intro key hkey
  refine .inr fun row hrow heq => ?_
  obtain rfl | ⟨rfl, rfl⟩ := mem_keys hkey
  · have hcolumn : idColumn row = idColumn (bind d deviceID operation) := (List.cons.inj heq).1
    exact hid row hrow (hcolumn.trans idColumn_bind)
  · have hnone := List.any_eq_false.mp hsequence row hrow
    exact hnone (decide_eq_true heq)

end

/-! ## The loop on rows and the loop on the log -/

/-- A row of the table and the entry of the log it stands for. A row of the
request being applied need not be readable, because its id does not come again. -/
def Stored (d : Domain) (deviceID : String) (submitted : List d.Operation) (pending : List String)
    (row : Row) (entry : d.Operation) : Prop :=
  scan d row = .ok entry ∨
    ∃ operation ∈ submitted, row = bind d deviceID operation ∧
      entry = d.row deviceID operation ∧ d.id operation ∉ pending

/-- The same query on the log. -/
def deviceSequenceTaken (log : List Command) (deviceID : String) (command : Command) : Bool :=
  decide (∃ stored ∈ log,
    stored.deviceID = deviceID ∧ stored.deviceSequence = command.deviceSequence)

def sequenceTaken : (d : Domain) → List d.Operation → String → d.Operation → Bool
  | .timer => deviceSequenceTaken
  | .task => fun _ _ _ => false
  | .duration => fun _ _ _ => false
  | .autoStart => fun _ _ _ => false
  | .selectedTask => fun _ _ _ => false

section
variable {d : Domain} {row : Row} {rows : List Row} {deviceID : String} {pending : List String}
  {operation entry : d.Operation} {submitted log : List d.Operation}

theorem decideByID_known {α : Type} {id : α → String} {same : α → α → String → Bool}
    {row : String → α → α} {log : List α} {a existing : α}
    (hfind : log.find? (fun stored => id stored = id a) = some existing) :
    decideByID id same row deviceID log a =
      if same existing a deviceID then .known
      else .rejected "operation ID already used with different payload" := by
  unfold decideByID
  rw [hfind]

theorem decideByID_new {α : Type} {id : α → String} {same : α → α → String → Bool}
    {row : String → α → α} {log : List α} {a : α}
    (hfind : log.find? (fun stored => id stored = id a) = none) :
    decideByID id same row deviceID log a = .insert (row deviceID a) := by
  unfold decideByID
  rw [hfind]

/-- The decision of the log-level loop where the log has an entry with the id. -/
theorem decision_known
    (hfind : log.find? (fun stored => d.id stored = d.id operation) = some entry) :
    d.decision deviceID log operation =
      if same d entry operation deviceID then .known else .rejected d.idReason := by
  cases d with
  | timer =>
    show decideCommand deviceID log operation = _
    unfold decideCommand
    rw [show log.find? (fun stored => decide (stored.id = operation.id)) = some entry from hfind]
    rfl
  | task => exact decideByID_known hfind
  | duration => exact decideByID_known hfind
  | autoStart => exact decideByID_known hfind
  | selectedTask => exact decideByID_known hfind

/-- The decision of the log-level loop where it has none. -/
theorem decision_new
    (hfind : log.find? (fun stored => d.id stored = d.id operation) = none) :
    d.decision deviceID log operation =
      if sequenceTaken d log deviceID operation then .rejected "device sequence already used"
      else .insert (d.row deviceID operation) := by
  cases d with
  | timer =>
    show decideCommand deviceID log operation = _
    unfold decideCommand sequenceTaken deviceSequenceTaken
    rw [show log.find? (fun stored => decide (stored.id = operation.id)) = none from hfind]
    simp only [decide_eq_true_eq]
    rfl
  | task => exact decideByID_new hfind
  | duration => exact decideByID_new hfind
  | autoStart => exact decideByID_new hfind
  | selectedTask => exact decideByID_new hfind

theorem Stored.idColumn (h : Stored d deviceID submitted pending row entry) :
    idColumn row = .text (d.id entry) := by
  obtain h | ⟨operation, -, rfl, rfl, -⟩ := h
  · exact idColumn_scan h
  · rw [idColumn_bind, d.lawful.id_row]

theorem Stored.weaken {pending' : List String} (hsubset : pending' ⊆ pending)
    (h : Stored d deviceID submitted pending row entry) :
    Stored d deviceID submitted pending' row entry :=
  h.imp_right fun ⟨operation, hmem, hrow, hentry, hnew⟩ =>
    ⟨operation, hmem, hrow, hentry, fun hpending => hnew (hsubset hpending)⟩

/-- Looking an id up in the table is looking it up in the log. -/
theorem find_stored {id : String}
    (h : List.Forall₂ (Stored d deviceID submitted pending) rows log) :
    (rows.find? (fun row => idColumn row = .text id) = none ∧
        log.find? (fun stored => d.id stored = id) = none) ∨
      ∃ row entry, rows.find? (fun row => OperationTables.idColumn row = .text id) = some row ∧
        log.find? (fun stored => d.id stored = id) = some entry ∧
        Stored d deviceID submitted pending row entry := by
  induction h with
  | nil => exact .inl ⟨rfl, rfl⟩
  | @cons row entry rows log hfirst _ ih =>
    by_cases hid : d.id entry = id
    · refine .inr ⟨row, entry, ?_, ?_, hfirst⟩
      · exact List.find?_cons_of_pos (by simp [hfirst.idColumn, hid])
      · exact List.find?_cons_of_pos (by simp [hid])
    · rw [List.find?_cons_of_neg (by simp [hfirst.idColumn, hid]),
        List.find?_cons_of_neg (by simp [hid])]
      exact ih

theorem sequenceUsed_stored (h : List.Forall₂ (Stored d deviceID submitted pending) rows log) :
    sequenceUsed d rows deviceID operation = sequenceTaken d log deviceID operation := by
  cases d with
  | timer =>
    show deviceSequenceUsed rows deviceID operation = deviceSequenceTaken log deviceID operation
    induction h with
    | nil => simp [deviceSequenceUsed, deviceSequenceTaken]
    | @cons row entry rows log hfirst _ ih =>
      have hcolumns : keyOf [1, 2] row = [.text entry.deviceID, .integer entry.deviceSequence] := by
        obtain h | ⟨operation, -, rfl, rfl, -⟩ := hfirst
        · exact sequenceColumns_scan h
        · rfl
      unfold deviceSequenceUsed deviceSequenceTaken at ih ⊢
      rw [List.any_cons, ih, hcolumns]
      simp
  | task => rfl
  | duration => rfl
  | autoStart => rfl
  | selectedTask => rfl

end

end Pomodorough.Store.OperationTables
