import Pomodorough.Library.Fallible
import Pomodorough.Library.Rfc3339
import Pomodorough.Store.Records

/-! # The wire parser of operation batches

A request's operations come as decoded JSON, where an absent or null field is
`none`. The parser checks identifiers, the fields of each kind and the clocks,
and refuses the batch at the first operation that fails. -/
namespace Pomodorough.Server.OperationParser
open Pomodorough.Library Pomodorough.Library.Fallible Pomodorough.Store.Records

/-! ## Operations on the wire -/

structure SyncCommandJSON where
  id : String
  deviceSequence : Option Int
  timerID : String
  /-- the empty string where the field is absent or null -/
  taskID : String
  taskIDExplicitNull : Bool
  taskIDPresent : Bool
  type : String
  phase : String
  plannedDurationMs : Option Int
  occurredAt : String
  hlcWallMs : Option Int
  hlcCounter : Option Int
  observedElapsedMs : Option Int
  deriving DecidableEq, Repr

structure SyncTaskOperationJSON where
  id : String
  taskID : String
  type : String
  title : String
  deviceID : Option String
  occurredAt : String
  hlcWallMs : Option Int
  hlcCounter : Option Int
  deriving DecidableEq, Repr

structure SyncDurationOperationJSON where
  id : String
  phase : String
  durationMs : Option Int
  occurredAt : String
  hlcWallMs : Option Int
  hlcCounter : Option Int
  deriving DecidableEq, Repr

structure SyncAutoStartOperationJSON where
  id : String
  enabled : Option Bool
  occurredAt : String
  hlcWallMs : Option Int
  hlcCounter : Option Int
  deriving DecidableEq, Repr

/-- The raw JSON of a selected task. -/
inductive RawTaskID where
  | absent | null
  | string (value : String)
  | other
  deriving DecidableEq, Repr

structure SyncSelectedTaskOperationJSON where
  id : String
  taskID : RawTaskID
  occurredAt : String
  hlcWallMs : Option Int
  hlcCounter : Option Int
  deriving DecidableEq, Repr

structure OperationBatch where
  deviceID : String
  commands : List SyncCommandJSON
  taskOperations : List SyncTaskOperationJSON
  durationOperations : List SyncDurationOperationJSON
  autoStartOperations : List SyncAutoStartOperationJSON
  selectedTaskOperations : List SyncSelectedTaskOperationJSON
  maximum : Nat
  deriving DecidableEq, Repr

/-! ## Errors -/

/-- A refused request, or a `requestRuntimeError`. -/
inductive RequestError where
  | invalid (message : String)
  | runtime (cause : String)
  deriving DecidableEq, Repr

abbrev Parsed := Except RequestError

def refuse (message : String) : RequestError := .invalid message

/-- `fmt.Errorf` with `%w`. -/
def within {α : Type} (context : String) : Parsed α → Parsed α
  | .error (.invalid message) => .error (.invalid (context ++ ": " ++ message))
  | r => r

@[simp] theorem within_ok_iff {α : Type} {context : String} {r : Parsed α} {a : α} :
    within context r = .ok a ↔ r = .ok a := by
  unfold within
  split <;> simp_all

/-! ## Identifiers -/

def idCharacter (c : Char) : Bool :=
  c.isAlphanum || c = '.' || c = '_' || c = ':' || c = '-'

/-- `^[A-Za-z0-9][A-Za-z0-9._:-]{7,127}$` -/
def validID (value : String) : Bool :=
  match value.toList with
  | [] => false
  | first :: rest =>
    first.isAlphanum && rest.all idCharacter && 7 ≤ rest.length && rest.length ≤ 127

def validTypes : List CommandType :=
  [.start, .pause, .resume, .finish, .cancel, .clear, .retarget]

def validPhases : List Phase := [.focus, .shortBreak, .longBreak]

def validTaskOperationTypes : List TaskOperationType := [.upsert, .delete]

/-! ## Clocks -/

def maxSafeInteger : Int := 9007199254740991

/-- Five minutes. -/
def maxClockSkew : Int := 300000000000

/-- `time.Parse(time.RFC3339Nano, ·)` -/
def parseTime (value : String) : Option Time :=
  (Rfc3339.parse value.toList).map fun parsed => ⟨parsed.1, parsed.2⟩

/-- `Time.Sub` saturates at the bounds of a duration. -/
def durationSince (t u : Time) : Int :=
  max (-2 ^ 63) (min (2 ^ 63 - 1) (t.unixNano - u.unixNano))

def parseOperationClock (value : String) (wallMs counter : Option Int) (allowLegacy : Bool)
    (now : Time) : Parsed Time :=
  match wallMs, counter with
  | some wallMs, some counter => do
    check (0 ≤ wallMs ∧ wallMs ≤ maxSafeInteger ∧ 0 ≤ counter ∧ counter ≤ maxSafeInteger)
      (refuse "clock is outside the safe integer range")
    match parseTime value with
    | none => .error (refuse "occurrence time is not RFC 3339")
    | some occurredAt =>
      if wallMs = 0 then do
        check (allowLegacy ∧ counter = 0 ∧ occurredAt.equal ⟨0, 0⟩)
          (refuse "invalid legacy clock sentinel")
        .ok occurredAt
      else do
        let latest : Time := { now with unixNano := now.unixNano + maxClockSkew }
        check (wallMs ≤ latest.unixMilli ∧ occurredAt.unixNano ≤ latest.unixNano)
          (refuse "clock is too far ahead of server time")
        let delta := durationSince occurredAt (Time.ofUnixMilli wallMs)
        check (-maxClockSkew ≤ delta ∧ delta ≤ maxClockSkew)
          (refuse "occurrence time and hybrid clock disagree")
        .ok occurredAt
  | _, _ => .error (refuse "clock is outside the safe integer range")

/-! ## The loops -/

/-- The loop of every parser: the checks of an operation, that its id is new,
and the rest of its parsing. -/
def parseEach {ι α : Type} (id : ι → String) (identity : ι → Parsed Unit) (duplicate : String)
    (parse : ι → Parsed α) : List String → List ι → Parsed (List α)
  | _, [] => .ok []
  | seen, input :: inputs => do
    identity input
    check (id input ∉ seen) (refuse duplicate)
    let operation ← parse input
    let operations ← parseEach id identity duplicate parse (id input :: seen) inputs
    .ok (operation :: operations)

/-! ## Timer commands -/

def defaultRetargetPlannedDurationMs : Int := 1500000

/-- Task ids only on focus start and retarget, an explicit null only to unassign,
and on a retarget one of the two. -/
def validateCommandTaskAssociation (input : SyncCommandJSON) : Parsed Unit := do
  check (¬ (input.taskIDPresent ∧ input.taskID = "" ∧ ¬ input.taskIDExplicitNull))
    (refuse "invalid task association")
  check (¬ (input.taskID ≠ "" ∧ (¬ validID input.taskID ∨
      (input.type ≠ "start" ∧ input.type ≠ "retarget") ∨ input.phase ≠ "focus")))
    (refuse "invalid task association")
  check (¬ (input.taskIDExplicitNull ∧ input.type ≠ "retarget"))
    (refuse "invalid task association")
  check (¬ (input.type = "retarget" ∧ (input.phase ≠ "focus" ∨
      (input.taskID = "" ∧ ¬ input.taskIDExplicitNull))))
    (refuse "retarget requires explicit taskId or null and focus phase")

/-- A field of a retarget that is left out has a default. -/
def retargetDefault (input : SyncCommandJSON) (value : Option Int) (default : Int) : Option Int :=
  if input.type = "retarget" then some (value.getD default) else value

def parseCommand (deviceID : String) (input : SyncCommandJSON) (now : Time) : Parsed Command :=
  match validTypes.find? (fun type => type.text = input.type) with
  | none => .error (refuse "invalid command type")
  | some type => do
    validateCommandTaskAssociation input
    match validPhases.find? (fun phase => phase.text = input.phase) with
    | none => .error (refuse "invalid command phase")
    | some phase =>
      match retargetDefault input input.plannedDurationMs defaultRetargetPlannedDurationMs with
      | none => .error (refuse "invalid timer duration")
      | some plannedDurationMs => do
        check (60000 ≤ plannedDurationMs ∧ plannedDurationMs ≤ 14400000)
          (refuse "invalid timer duration")
        let occurredAt ← within "invalid hybrid clock"
          (parseOperationClock input.occurredAt input.hlcWallMs input.hlcCounter false now)
        match retargetDefault input input.observedElapsedMs 0 with
        | none => .error (refuse "missing observed elapsed")
        | some observedElapsedMs => do
          check (-maxSafeInteger ≤ observedElapsedMs ∧ observedElapsedMs ≤ maxSafeInteger)
            (refuse "observed elapsed is outside the safe integer range")
          .ok { id := input.id
                deviceID := deviceID
                deviceSequence := input.deviceSequence.getD 0
                timerID := input.timerID
                taskID := input.taskID
                type := type
                phase := phase
                plannedDurationMs := plannedDurationMs
                occurredAt := occurredAt
                hlcWallMs := input.hlcWallMs.getD 0
                hlcCounter := input.hlcCounter.getD 0
                observedElapsedMs := observedElapsedMs }

def validCommandIdentity (input : SyncCommandJSON) : Parsed Unit :=
  check (validID input.id ∧ validID input.timerID ∧
      input.deviceSequence.any fun sequence => 0 < sequence ∧ sequence ≤ maxSafeInteger)
    (refuse "invalid command identity")

def parseCommands (deviceID : String) (inputs : List SyncCommandJSON) (now : Time) :
    Parsed (List Command) :=
  parseEach SyncCommandJSON.id validCommandIdentity "duplicate command identity"
    (fun input => parseCommand deviceID input now) [] inputs

/-! ## Task operations -/

/-- What `task.SharedIdentities` answers, which asks the shared core: the id and
the normalized title of each title, a refused title, or a failed call. -/
inductive IdentityError where
  | runtime (cause : String)
  | validation (detail : String)

abbrev SharedIdentities := List String → Except IdentityError (List Task)

def validTaskIdentity (deviceID : String) (input : SyncTaskOperationJSON) : Parsed Unit := do
  check (input.deviceID.all fun device => device = deviceID)
    (refuse "invalid task operation device")
  check (validID input.id ∧ validID input.taskID) (refuse "invalid task operation identity")

/-- The title an operation has the core normalize, if any. -/
def taskOperationTitle (input : SyncTaskOperationJSON) : Parsed (Option String) := do
  check (∃ type ∈ validTaskOperationTypes, type.text = input.type)
    (refuse "invalid task operation type")
  if input.type = "upsert" then .ok (some input.title)
  else do
    check (input.title = "") (refuse "delete task operation has title")
    .ok none

/-- The titles of the operations that have one. -/
def validateTaskOperationInputs (deviceID : String) (inputs : List SyncTaskOperationJSON) :
    Parsed (List String) := do
  let titles ← parseEach SyncTaskOperationJSON.id (validTaskIdentity deviceID)
    "duplicate task operation identity" taskOperationTitle [] inputs
  .ok (titles.filterMap fun title => title)

def parseTaskOperation (deviceID : String) (input : SyncTaskOperationJSON) (title : String)
    (now : Time) : Parsed TaskOperation := do
  let occurredAt ← within "invalid task operation clock"
    (parseOperationClock input.occurredAt input.hlcWallMs input.hlcCounter false now)
  match validTaskOperationTypes.find? (fun type => type.text = input.type) with
  | none => .error (refuse "invalid task operation type")
  | some type =>
    .ok { id := input.id
          deviceID := deviceID
          taskID := input.taskID
          type := type
          title := title
          occurredAt := occurredAt
          hlcWallMs := input.hlcWallMs.getD 0
          hlcCounter := input.hlcCounter.getD 0 }

/-- The second loop, which takes an identity for each upsert. -/
def parseTitledOperations (deviceID : String) (now : Time) :
    List Task → List SyncTaskOperationJSON → Parsed (List TaskOperation)
  | _, [] => .ok []
  | identities, input :: inputs =>
    if input.type = "upsert" then
      match identities with
      | [] => .error (.runtime "missing task identity")
      | identity :: identities => do
        check (identity.id = input.taskID) (refuse "invalid task title")
        let operation ← parseTaskOperation deviceID input identity.title now
        let operations ← parseTitledOperations deviceID now identities inputs
        .ok (operation :: operations)
    else do
      let operation ← parseTaskOperation deviceID input "" now
      let operations ← parseTitledOperations deviceID now identities inputs
      .ok (operation :: operations)

def parseTaskOperations (sharedIdentities : SharedIdentities) (deviceID : String)
    (inputs : List SyncTaskOperationJSON) (now : Time) : Parsed (List TaskOperation) := do
  let titles ← validateTaskOperationInputs deviceID inputs
  match sharedIdentities titles with
  | .error (.runtime cause) => .error (.runtime cause)
  | .error (.validation _) => .error (refuse "invalid task title")
  | .ok identities => parseTitledOperations deviceID now identities inputs

/-! ## The other kinds -/

def validOperationIdentity {ι : Type} (id : ι → String) (message : String) (input : ι) :
    Parsed Unit :=
  check (validID (id input)) (refuse message)

def parseDurationOperation (deviceID : String) (input : SyncDurationOperationJSON) (now : Time) :
    Parsed DurationOperation :=
  match validPhases.find? (fun phase => phase.text = input.phase) with
  | none => .error (refuse "invalid duration phase")
  | some phase =>
    match input.durationMs with
    | none => .error (refuse "invalid duration value")
    | some durationMs => do
      check (60000 ≤ durationMs ∧ durationMs ≤ 10800000 ∧ durationMs % 60000 = 0)
        (refuse "invalid duration value")
      let occurredAt ← within "invalid duration operation clock"
        (parseOperationClock input.occurredAt input.hlcWallMs input.hlcCounter true now)
      .ok { id := input.id
            deviceID := deviceID
            phase := phase
            durationMs := durationMs
            occurredAt := occurredAt
            hlcWallMs := input.hlcWallMs.getD 0
            hlcCounter := input.hlcCounter.getD 0 }

def parseDurationOperations (deviceID : String) (inputs : List SyncDurationOperationJSON)
    (now : Time) : Parsed (List DurationOperation) :=
  parseEach SyncDurationOperationJSON.id
    (validOperationIdentity SyncDurationOperationJSON.id "invalid duration operation identity")
    "duplicate duration operation identity"
    (fun input => parseDurationOperation deviceID input now) [] inputs

def parseAutoStartOperation (deviceID : String) (input : SyncAutoStartOperationJSON) (now : Time) :
    Parsed AutoStartOperation :=
  match input.enabled with
  | none => .error (refuse "missing auto-start value")
  | some enabled => do
    let occurredAt ← within "invalid auto-start operation clock"
      (parseOperationClock input.occurredAt input.hlcWallMs input.hlcCounter true now)
    .ok { id := input.id
          deviceID := deviceID
          enabled := enabled
          occurredAt := occurredAt
          hlcWallMs := input.hlcWallMs.getD 0
          hlcCounter := input.hlcCounter.getD 0 }

def parseAutoStartOperations (deviceID : String) (inputs : List SyncAutoStartOperationJSON)
    (now : Time) : Parsed (List AutoStartOperation) :=
  parseEach SyncAutoStartOperationJSON.id
    (validOperationIdentity SyncAutoStartOperationJSON.id "invalid auto-start operation identity")
    "duplicate auto-start operation identity"
    (fun input => parseAutoStartOperation deviceID input now) [] inputs

def parseNullableTaskID : RawTaskID → Parsed (Option String)
  | .absent => .error (refuse "missing selected-task value")
  | .null => .ok none
  | .string value => do
    check (validID value) (refuse "invalid selected-task value")
    .ok (some value)
  | .other => .error (refuse "invalid selected-task value")

def parseSelectedTaskOperation (deviceID : String) (input : SyncSelectedTaskOperationJSON)
    (now : Time) : Parsed SelectedTaskOperation := do
  let taskID ← parseNullableTaskID input.taskID
  let occurredAt ← within "invalid selected-task operation clock"
    (parseOperationClock input.occurredAt input.hlcWallMs input.hlcCounter true now)
  .ok { id := input.id
        deviceID := deviceID
        taskID := taskID
        occurredAt := occurredAt
        hlcWallMs := input.hlcWallMs.getD 0
        hlcCounter := input.hlcCounter.getD 0 }

def parseSelectedTaskOperations (deviceID : String) (inputs : List SyncSelectedTaskOperationJSON)
    (now : Time) : Parsed (List SelectedTaskOperation) :=
  parseEach SyncSelectedTaskOperationJSON.id
    (validOperationIdentity SyncSelectedTaskOperationJSON.id
      "invalid selected-task operation identity")
    "duplicate selected-task operation identity"
    (fun input => parseSelectedTaskOperation deviceID input now) [] inputs

/-! ## The batch -/

def OperationBatch.operationCount (batch : OperationBatch) : Nat :=
  batch.commands.length + batch.taskOperations.length + batch.durationOperations.length +
    batch.autoStartOperations.length + batch.selectedTaskOperations.length

/-- Each kind within its maximum, and all of them within twice that. -/
def OperationBatch.validCount (batch : OperationBatch) : Bool :=
  batch.commands.length ≤ batch.maximum && batch.taskOperations.length ≤ batch.maximum &&
    batch.durationOperations.length ≤ batch.maximum &&
    batch.autoStartOperations.length ≤ batch.maximum &&
    batch.selectedTaskOperations.length ≤ batch.maximum &&
    batch.operationCount ≤ 2 * batch.maximum

def parseOperationBatch (sharedIdentities : SharedIdentities) (batch : OperationBatch)
    (now : Time) : Parsed SyncRequest := do
  check (batch.validCount) (refuse "too many operations")
  let commands ← parseCommands batch.deviceID batch.commands now
  let tasks ← parseTaskOperations sharedIdentities batch.deviceID batch.taskOperations now
  let durations ← parseDurationOperations batch.deviceID batch.durationOperations now
  let autoStarts ← parseAutoStartOperations batch.deviceID batch.autoStartOperations now
  let selectedTasks ← parseSelectedTaskOperations batch.deviceID batch.selectedTaskOperations now
  .ok { deviceID := batch.deviceID
        lastRevision := 0
        commands := commands
        taskOperations := tasks
        durationOperations := durations
        autoStartOperations := autoStarts
        selectedTaskOperations := selectedTasks }

end Pomodorough.Server.OperationParser
