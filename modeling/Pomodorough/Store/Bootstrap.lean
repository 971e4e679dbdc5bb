import Pomodorough.Store.Sync

/-! # Resolving a bootstrap

A device that signs in with local operations chooses a strategy once: keep what
the server has, replace it, or merge. The response is stored under the request's
id with a hash of the normalized payload, and a retry is answered from there. -/
namespace Pomodorough.Store.Bootstrap
open Pomodorough.Library.Fallible
open Pomodorough.Store.Records Pomodorough.Store.SharedCoreValidation
open Pomodorough.Store.SharedCore Pomodorough.Store.OperationLogs
open Pomodorough.Store.OperationDomains Pomodorough.Store.Sync

def bootstrapKeepRemote : String := "keep_remote"
def bootstrapReplaceRemote : String := "replace_remote"
def bootstrapMerge : String := "merge"

structure BootstrapResolutionRequest where
  requestID : String
  deviceID : String
  expectedRevision : Int
  strategy : String
  commands : List Command
  taskOperations : List TaskOperation
  durationOperations : List DurationOperation
  autoStartOperations : List AutoStartOperation
  autoStartOperationsPresent : Bool
  selectedTaskOperations : List SelectedTaskOperation
  selectedTaskOperationsPresent : Bool
  deriving DecidableEq, Repr

/-- The operations of a resolution as a synchronization request. -/
def BootstrapResolutionRequest.syncRequest (request : BootstrapResolutionRequest) : SyncRequest where
  deviceID := request.deviceID
  lastRevision := 0
  commands := request.commands
  taskOperations := request.taskOperations
  durationOperations := request.durationOperations
  autoStartOperations := request.autoStartOperations
  selectedTaskOperations := request.selectedTaskOperations

/-! ## Payload hashes -/

/-- What `json.Marshal` makes of a value: an object lists its fields in the
order of the struct, and a time is written from its instant. -/
inductive Json where
  | null
  | bool (value : Bool)
  | number (value : Int)
  | string (value : String)
  | time (value : Time)
  | array (values : List Json)
  | object (fields : List (String × Json))

def commandTypeText : CommandType → String
  | .start => "start"
  | .pause => "pause"
  | .resume => "resume"
  | .finish => "finish"
  | .cancel => "cancel"
  | .clear => "clear"
  | .retarget => "retarget"

def taskOperationTypeText : TaskOperationType → String
  | .upsert => "upsert"
  | .delete => "delete"

def commandJson (command : Command) : Json :=
  .object [("ID", .string command.id), ("DeviceID", .string command.deviceID),
    ("DeviceSequence", .number command.deviceSequence), ("TimerID", .string command.timerID),
    ("TaskID", .string command.taskID), ("Type", .string (commandTypeText command.type)),
    ("Phase", .string command.phase.text),
    ("PlannedDurationMs", .number command.plannedDurationMs),
    ("OccurredAt", .time command.occurredAt), ("HLCWallMs", .number command.hlcWallMs),
    ("HLCCounter", .number command.hlcCounter),
    ("ObservedElapsedMs", .number command.observedElapsedMs)]

def taskOperationJson (operation : TaskOperation) : Json :=
  .object [("ID", .string operation.id), ("DeviceID", .string operation.deviceID),
    ("TaskID", .string operation.taskID), ("Type", .string (taskOperationTypeText operation.type)),
    ("Title", .string operation.title), ("OccurredAt", .time operation.occurredAt),
    ("HLCWallMs", .number operation.hlcWallMs), ("HLCCounter", .number operation.hlcCounter)]

def durationOperationJson (operation : DurationOperation) : Json :=
  .object [("ID", .string operation.id), ("DeviceID", .string operation.deviceID),
    ("Phase", .string operation.phase.text), ("DurationMs", .number operation.durationMs),
    ("OccurredAt", .time operation.occurredAt), ("HLCWallMs", .number operation.hlcWallMs),
    ("HLCCounter", .number operation.hlcCounter)]

def autoStartOperationJson (operation : AutoStartOperation) : Json :=
  .object [("ID", .string operation.id), ("DeviceID", .string operation.deviceID),
    ("Enabled", .bool operation.enabled), ("OccurredAt", .time operation.occurredAt),
    ("HLCWallMs", .number operation.hlcWallMs), ("HLCCounter", .number operation.hlcCounter)]

def selectedTaskOperationJson (operation : SelectedTaskOperation) : Json :=
  .object [("ID", .string operation.id), ("DeviceID", .string operation.deviceID),
    ("TaskID", operation.taskID.elim .null .string), ("OccurredAt", .time operation.occurredAt),
    ("HLCWallMs", .number operation.hlcWallMs), ("HLCCounter", .number operation.hlcCounter)]

/-- The normalized payload: every operation carries the request's device and its
UTC time. -/
structure NormalizedPayload where
  deviceID : String
  expectedRevision : Int
  strategy : String
  commands : List Command
  taskOperations : List TaskOperation
  durationOperations : List DurationOperation
  autoStartOperations : List AutoStartOperation
  autoStartOperationsPresent : Bool
  selectedTaskOperations : List SelectedTaskOperation
  selectedTaskOperationsPresent : Bool
  deriving DecidableEq, Repr

def normalizedBootstrap (request : BootstrapResolutionRequest) : NormalizedPayload where
  deviceID := request.deviceID
  expectedRevision := request.expectedRevision
  strategy := request.strategy
  commands := request.commands.map (commandRow request.deviceID)
  taskOperations := request.taskOperations.map (taskOperationRow request.deviceID)
  durationOperations := request.durationOperations.map (durationOperationRow request.deviceID)
  autoStartOperations := request.autoStartOperations.map (autoStartOperationRow request.deviceID)
  autoStartOperationsPresent := request.autoStartOperationsPresent
  selectedTaskOperations :=
    request.selectedTaskOperations.map (selectedTaskOperationRow request.deviceID)
  selectedTaskOperationsPresent := request.selectedTaskOperationsPresent

/-- The fields all three encodings begin with. -/
def coreFields (payload : NormalizedPayload) : List (String × Json) :=
  [("DeviceID", .string payload.deviceID), ("ExpectedRevision", .number payload.expectedRevision),
    ("Strategy", .string payload.strategy), ("Commands", .array (payload.commands.map commandJson)),
    ("TaskOperations", .array (payload.taskOperations.map taskOperationJson)),
    ("DurationOperations", .array (payload.durationOperations.map durationOperationJson))]

def autoStartFields (payload : NormalizedPayload) : List (String × Json) :=
  [("AutoStartOperations", .array (payload.autoStartOperations.map autoStartOperationJson)),
    ("AutoStartOperationsPresent", .bool payload.autoStartOperationsPresent)]

def selectedTaskFields (payload : NormalizedPayload) : List (String × Json) :=
  [("SelectedTaskOperations",
      .array (payload.selectedTaskOperations.map selectedTaskOperationJson)),
    ("SelectedTaskOperationsPresent", .bool payload.selectedTaskOperationsPresent)]

/-- The encoding of `bootstrapPayloadHash`. -/
def bootstrapPayload (request : BootstrapResolutionRequest) : Json :=
  let payload := normalizedBootstrap request
  .object (coreFields payload ++ autoStartFields payload ++ selectedTaskFields payload)

/-- The encoding before there were selected-task operations. -/
def previousBootstrapPayload (request : BootstrapResolutionRequest) : Json :=
  let payload := normalizedBootstrap request
  .object (coreFields payload ++ autoStartFields payload)

/-- The encoding before there were auto-start operations. -/
def legacyBootstrapPayload (request : BootstrapResolutionRequest) : Json :=
  .object (coreFields (normalizedBootstrap request))

/-- SHA-256 of the encoded text. -/
abbrev Sha256 := Json → Hash

def bootstrapPayloadHash (sha256 : Sha256) (request : BootstrapResolutionRequest) : Hash :=
  sha256 (bootstrapPayload request)

def previousBootstrapPayloadHash (sha256 : Sha256) (request : BootstrapResolutionRequest) : Hash :=
  sha256 (previousBootstrapPayload request)

def legacyBootstrapPayloadHash (sha256 : Sha256) (request : BootstrapResolutionRequest) : Hash :=
  sha256 (legacyBootstrapPayload request)

/-! ## The stored response -/

def validateBootstrapResolutionRequest (sha256 : Sha256) (request : BootstrapResolutionRequest) :
    Fallible (SyncRequest × Hash) := do
  validateUniqueOperationIDs request.syncRequest
  check (request.strategy = bootstrapKeepRemote ∨ request.strategy = bootstrapReplaceRemote ∨
      request.strategy = bootstrapMerge)
    (fail ("invalid bootstrap strategy " ++ quote request.strategy))
  check (request.strategy = bootstrapKeepRemote → request.commands = [] ∧
      request.taskOperations = [] ∧ request.durationOperations = [] ∧
      request.autoStartOperations = [] ∧ request.selectedTaskOperations = [])
    (fail "keep_remote requires empty operation arrays")
  .ok (request.syncRequest, bootstrapPayloadHash sha256 request)

/-- A response without a clock is given that of its server time. -/
def normalizeStoredSyncResult (result : SyncResult) : Fallible SyncResult :=
  if result.serverHLCWallMs ≠ 0 then .ok result
  else do
    let serverWallMs := result.serverTime.unixMilli
    check (1 ≤ serverWallMs ∧ serverWallMs ≤ maxSafeRevision)
      (fail "stored bootstrap server time is outside supported range")
    .ok { result with serverHLCWallMs := serverWallMs, serverHLCCounter := 0 }

def storedBootstrapPayloadMatches (sha256 : Sha256) (storedHash payloadHash : Hash)
    (request : BootstrapResolutionRequest) : Bool :=
  storedHash = payloadHash ||
    !request.selectedTaskOperationsPresent &&
      storedHash = previousBootstrapPayloadHash sha256 request ||
    !request.autoStartOperationsPresent && !request.selectedTaskOperationsPresent &&
      storedHash = legacyBootstrapPayloadHash sha256 request

/-- The response as it is read back: `changed` is not part of its JSON. -/
def decodeStoredResponse (response : SyncResult) : SyncResult := { response with changed := false }

def lookupStoredBootstrapResponse (sha256 : Sha256) (t : UserTables)
    (request : BootstrapResolutionRequest) (payloadHash : Hash) : Fallible (Option SyncResult) :=
  match t.bootstrapResolutions.lookup request.requestID with
  | none => .ok none
  | some stored => do
    check (storedBootstrapPayloadMatches sha256 stored.payloadHash payloadHash request)
      .requestIDConflict
    let result := decodeStoredResponse stored.response
    validateCanonicalRevision result.revision
    let result ← normalizeStoredSyncResult result
    .ok (some result)

/-! ## Applying the strategy -/

def bootstrapRevisionForRequest (t : UserTables) (expectedRevision : Int) : Fallible Int := do
  validateCanonicalRevision t.revision
  check (t.revision = expectedRevision) .revisionConflict
  .ok t.revision

def clearForBootstrapReplacement (t : UserTables) (clearAutoStart clearSelectedTask : Bool) :
    UserTables :=
  { t with
    commandOutcomes := ∅
    timerSessions := []
    timerCommands := []
    taskOperations := []
    durationOperations := []
    autoStartOperations := if clearAutoStart then [] else t.autoStartOperations
    selectedTaskOperations := if clearSelectedTask then [] else t.selectedTaskOperations
    currentTimerID := none }

structure BootstrapStrategyApplication where
  operations : OperationApplication := {}
  before : Option AccountReduction
  reduction : AccountReduction

/-- Keeping reduces once; replacing reduces before and after; merging only
after. -/
def applyBootstrapStrategy (core : Core) (t : UserTables) (request : BootstrapResolutionRequest)
    (syncRequest : SyncRequest) (now : Time) :
    Fallible (UserTables × BootstrapStrategyApplication) :=
  if request.strategy = bootstrapKeepRemote then do
    let before ← reduceAccount core t now
    .ok (t, { before := some before, reduction := before })
  else if request.strategy = bootstrapReplaceRemote then do
    let before ← reduceAccount core t now
    let (u, operations) ← applyOperations (clearForBootstrapReplacement t
      request.autoStartOperationsPresent request.selectedTaskOperationsPresent) syncRequest
    let reduction ← reduceAccount core u now
    .ok (u, { operations := operations, before := some before, reduction := reduction })
  else do
    let (u, operations) ← applyOperations t syncRequest
    let reduction ← reduceAccount core u now
    .ok (u, { operations := operations, before := none, reduction := reduction })

def equalSelectedTaskOperations :
    List SelectedTaskOperation → List SelectedTaskOperation → Bool
  | [], [] => true
  | l :: left, r :: right =>
    l.id = r.id && l.deviceID = r.deviceID && l.taskID = r.taskID &&
      l.occurredAt.equal r.occurredAt && l.hlcWallMs = r.hlcWallMs &&
      l.hlcCounter = r.hlcCounter && equalSelectedTaskOperations left right
  | _, _ => false

/-- Whether a replacement changed some log. -/
def replacementChanged (before after : AccountReduction) : Bool :=
  before.commands ≠ after.commands || before.taskOperations ≠ after.taskOperations ||
    before.durationOperations ≠ after.durationOperations ||
    before.autoStartOperations ≠ after.autoStartOperations ||
    !equalSelectedTaskOperations before.selectedTaskOperations after.selectedTaskOperations

def persistBootstrapApplication (t : UserTables) (strategy : String)
    (application : BootstrapStrategyApplication) (revision : Int) :
    Fallible (UserTables × Int × Bool) := do
  let projectionChanged := timerProjectionChanged t application.reduction.timer
  let operationsChanged :=
    if strategy = bootstrapReplaceRemote then
      application.before.any fun before => replacementChanged before application.reduction
    else application.operations.changed
  let changed := operationsChanged || projectionChanged
  let revision ← nextRevision revision changed
  let u ← persistIfChanged t application.reduction revision changed
  .ok (u, revision, changed)

/-- The tables with a response stored under its request's id. -/
def recordResolution (t : UserTables) (requestID : String) (payloadHash : Hash)
    (result : SyncResult) : UserTables :=
  { t with bootstrapResolutions := t.bootstrapResolutions.insert requestID ⟨payloadHash, result⟩ }

def recordBootstrapResponse (core : Core) (t : UserTables) (request : BootstrapResolutionRequest)
    (syncRequest : SyncRequest) (application : BootstrapStrategyApplication) (revision : Int)
    (changed : Bool) (payloadHash : Hash) (now : Time) : Fallible (UserTables × SyncResult) := do
  let result ← resultFromReduction core application.reduction revision now (some syncRequest)
  let result :=
    if request.strategy = bootstrapKeepRemote then result
    else addAcknowledgements result syncRequest application.operations application.reduction
  let result := { result with changed := changed }
  .ok (recordResolution t request.requestID payloadHash result, result)

/-- `Store.ResolveBootstrap`: a retry is answered before anything is checked
against the tables. -/
def resolveBootstrap (core : Core) (sha256 : Sha256) (t : UserTables)
    (request : BootstrapResolutionRequest) (now : Time) : Fallible (UserTables × SyncResult) := do
  let (syncRequest, payloadHash) ← validateBootstrapResolutionRequest sha256 request
  let stored ← lookupStoredBootstrapResponse sha256 t request payloadHash
  match stored with
  | some result => .ok (t, result)
  | none =>
    let revision ← bootstrapRevisionForRequest t request.expectedRevision
    let (u, application) ← applyBootstrapStrategy core t request syncRequest now
    let (v, revision, changed) ← persistBootstrapApplication u request.strategy application revision
    recordBootstrapResponse core v request syncRequest application revision changed payloadHash now

end Pomodorough.Store.Bootstrap
