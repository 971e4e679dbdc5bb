import Mathlib.Algebra.Ring.Nat
import Pomodorough.Web.Database
import Pomodorough.Web.SyncCore

/-! # Core, as the browser calls it

The requests that the storage builds for the compiled Core, and what it reads of
Core's answers. Core itself is a parameter: any function of the requests. The
calendar intervals of a request are the host's function of its other fields and
are left to that parameter. -/
namespace Pomodorough.Web
open Pomodorough.Library.Fallible

/-! ## Requests to the server -/

def LEGACY_EPOCH : String := "1970-01-01T00:00:00.000Z"

/-- The clock of an operation from before operations had one. -/
def Operation.ZeroClock (operation : Operation) : Prop :=
  operation.hlcWallMs = 0 ∧ operation.hlcCounter = 0

instance (operation : Operation) : Decidable operation.ZeroClock :=
  inferInstanceAs (Decidable (_ ∧ _))

/-- `durationRequestOperation`. -/
def durationRequestOperation (operation : Operation) : Operation :=
  { operation with
    deviceId := none
    deviceSequence := none
    occurredAt := if operation.ZeroClock then LEGACY_EPOCH else operation.occurredAt }

/-- `taskRequestOperation`. -/
def taskRequestOperation (operation : Operation) : Operation :=
  { operation with
    deviceId := none
    deviceSequence := none
    fields := match operation.fields with
      | .task taskId type title => .task taskId type (if type = "upsert" then title else none)
      | fields => fields }

/-- `timerRequestCommand`. -/
def timerRequestCommand (command : Operation) : Operation :=
  { command with
    deviceId := none
    fields := match command.fields with
      | .timer timerId type phase plannedDurationMs observedElapsedMs taskId =>
        .timer timerId type phase plannedDurationMs observedElapsedMs
          (if type = "retarget" then taskId
          else match taskId with
            | some (some taskId) => if taskId = "" then none else some (some taskId)
            | _ => none)
      | fields => fields }

/-- `autoStartRequestOperation` and `selectedTaskRequestOperation`. -/
def plainRequestOperation (operation : Operation) : Operation :=
  { operation with deviceId := none, deviceSequence := none }

def autoStartRequestOperation : Operation → Operation := plainRequestOperation

def selectedTaskRequestOperation : Operation → Operation := plainRequestOperation

def requestOperation : Domain → Operation → Operation
  | .commands => timerRequestCommand
  | .taskOperations => taskRequestOperation
  | .durationOperations => durationRequestOperation
  | .autoStartOperations => autoStartRequestOperation
  | .selectedTaskOperations => selectedTaskRequestOperation

@[simp] theorem requestOperation_id (d : Domain) (operation : Operation) :
    (requestOperation d operation).id = operation.id := by
  cases d <;> rfl

/-- `encodeSelectedBatch`. -/
def encodeSelectedBatch (selected : Queues) : Queues := fun domain =>
  (selected domain).map (requestOperation domain)

@[simp] theorem ids_encodeSelectedBatch (selected : Queues) (d : Domain) :
    ids (encodeSelectedBatch selected d) = ids (selected d) := by
  simp [ids, encodeSelectedBatch, Function.comp_def]

/-! ## Requests to Core -/

def emptyBase : Base where
  canonicalTimer := none
  history := "[]"
  preferences := "\x7b\x22durationsMs\x22:\x7b\x22focus\x22:1500000,\x22short_break\x22:300000," ++
    "\x22long_break\x22:900000\x7d,\x22autoStartBreaks\x22:false,\x22selectedTaskId\x22:null," ++
    "\x22tasks\x22:[]\x7d"

/-- `base`. -/
def base (snapshot : Option Snapshot) : Base :=
  match snapshot with
  | none => emptyBase
  | some snapshot => snapshot.base

/-- A workspace of a request. -/
structure Workspace where
  base : Base
  queues : Queues
  canonicalHead : Option Clock
  neverSent : Ids
  timerDependencies : Option Json
  projectionPending : Option Queues

/-- The operation with a device, its own or the given one. -/
def Operation.withDevice (deviceId : String) (operation : Operation) : Operation :=
  match operation.deviceId with
  | some _ => operation
  | none => { operation with deviceId := some deviceId }

@[simp] theorem Operation.withDevice_id (deviceId : String) (operation : Operation) :
    (operation.withDevice deviceId).id = operation.id := by
  unfold Operation.withDevice
  split <;> rfl

/-- `projectionIdentity`. -/
def projectionIdentity (context : Option Queues) (deviceId : String) : Option Queues :=
  context.map fun context domain => (context domain).map (Operation.withDevice deviceId)

/-- `workspace`. -/
def workspace (records : Database) (deviceId : String) (dependencies : Json) (neverSent : Ids) :
    Workspace where
  base := base records.snapshot
  queues := fun domain => (records.queues domain).map (Operation.withDevice deviceId)
  canonicalHead := records.canonicalHead
  neverSent := neverSent
  timerDependencies := some (records.timerDependencies.getD dependencies)
  projectionPending := projectionIdentity records.projectionPending deviceId

/-- `rawWorkspace`. -/
def rawWorkspace (records : Database) : Workspace where
  base := base records.snapshot
  queues := records.queues
  canonicalHead := records.canonicalHead
  neverSent := records.deliveryProof.getD emptyDeliveryProof
  timerDependencies := records.timerDependencies
  projectionPending := records.projectionPending

structure CompletionContext where
  selection : Selection
  lifecycle : Lifecycle
  deriving DecidableEq, Repr

def initialLifecycle : Lifecycle := ⟨[], [], []⟩

/-- `completionContext` of records with these settings, this selected phase and
this completion state. -/
def completionContext (settings : Option Settings) (selectedPhase : Option String)
    (completionState : Option CompletionState) : CompletionContext :=
  match completionState with
  | none =>
    ⟨⟨((settings.bind Settings.selectedPhase).or selectedPhase).getD "focus", 0, false⟩,
      initialLifecycle⟩
  | some stored => ⟨stored.selection, stored.lifecycle.getD initialLifecycle⟩

structure DependencyRequest where
  workspace : Workspace
  nowMs : Nat
  ownerId : Option String
  expectedOwnerId : Option String
  timerOwner : Option TimerOwner
  deviceId : String
  outgoing : Option Claim
  sourceAcknowledgements : Option Json

/-- `dependencyRequest`. -/
def dependencyRequest (records : Database) (deviceId : String)
    (expectedOwnerId ownerId : Option String) (nowMs : Nat) : DependencyRequest where
  workspace := rawWorkspace records
  nowMs := nowMs
  ownerId := ownerId
  expectedOwnerId := expectedOwnerId
  timerOwner := records.timerOwner
  deviceId := deviceId
  outgoing := records.outgoingSync
  sourceAcknowledgements := records.sourceAcknowledgements

/-- Core's answer on legacy dependencies; `none` is a blocked plan. The metadata
writes are the values they record. -/
structure DependencyPlan where
  timerDependencies : Option Json
  metadataWrites : List Json
  deriving DecidableEq, Repr

structure BatchItem where
  id : String
  deviceId : Option String
  hlcWallMs : Nat
  hlcCounter : Nat
  deviceSequence : Option Nat
  deriving DecidableEq, Repr

inductive BatchMode where
  | sync
  | resolve (strategy : Strategy)
  deriving DecidableEq, Repr

inductive BatchRequest where
  | new (mode : BatchMode) (nextDomain : Domain) (queues : Domain → List BatchItem)
      (timerDependencies : Json)
  | saved (mode : BatchMode) (queues : Ids)

/-- `batchRequest`, with the limits of its mode. -/
def batchRequest (queues : Queues) (deviceId : Option String) (dependencies : Json)
    (cursor : Option Domain) (mode : BatchMode) : BatchRequest :=
  .new mode (cursor.getD .commands)
    (fun domain => (queues domain).map fun item =>
      ⟨item.id, item.deviceId.or deviceId, item.hlcWallMs, item.hlcCounter,
        if domain = .commands then item.deviceSequence else none⟩)
    dependencies

/-- `savedBatchRequest`. -/
def savedBatchRequest (sent : Queues) (mode : BatchMode) : BatchRequest := .saved mode sent.ids

inductive BatchStatus where
  | planned
  | replaySaved
  | oversizedSaved
  | oversized
  | blockedDependency
  deriving DecidableEq, Repr

def BatchStatus.name : BatchStatus → String
  | .planned => "planned"
  | .replaySaved => "replay_saved"
  | .oversizedSaved => "oversized_saved"
  | .oversized => "oversized"
  | .blockedDependency => "blocked_dependency"

structure BatchPlan where
  status : BatchStatus
  selected : Ids
  total : Nat
  nextDomain : Domain

/-- `selectedRecords`. -/
def selectedRecords (plan : BatchPlan) (queues : Queues) : Except StorageError Queues := do
  check (∀ domain ∈ DOMAINS, ∀ id ∈ plan.selected domain, id ∈ ids (queues domain))
    (.other "Core selected an unknown retained operation.")
  .ok fun domain => (plan.selected domain).filterMap fun id =>
    (queues domain).find? fun item => item.id = id

theorem selectedRecords_mem {plan : BatchPlan} {queues selected : Queues} {d : Domain}
    {x : Operation} (h : selectedRecords plan queues = .ok selected) (hx : x ∈ selected d) :
    x ∈ queues d := by
  obtain ⟨_, _, hselected⟩ := bind_ok_iff.mp h
  cases hselected
  obtain ⟨id, _, hfind⟩ := List.mem_filterMap.mp hx
  exact List.mem_of_find?_eq_some hfind

inductive OwnershipWrite where
  | removeTimerOwner
  | recordTimerOwner (owner : TimerOwner)
  | recordStart (timerId deviceId : String)
  deriving DecidableEq, Repr

structure OwnershipPlan where
  ownershipWrites : List OwnershipWrite
  renewed : Bool
  deriving DecidableEq, Repr

inductive OwnershipAction where
  | install
  | renew (timerId : String)
  | release
  deriving DecidableEq, Repr

structure OwnershipRequest where
  action : OwnershipAction
  workspace : Workspace
  ownership : Option TimerOwner
  localDeviceId : String
  localTabId : String
  nowMs : Nat
  leaseDurationMs : Option Nat

structure Allocation where
  deviceId : String
  deviceSequence : Nat
  hlc : Clock
  lastUuid : Option String
  deriving DecidableEq, Repr

structure Intent where
  kind : String
  arguments : Json
  deriving DecidableEq, Repr

/-- `mutationDurability`. -/
structure Durability where
  expectedOwnerId : Option String
  ownerId : Option String
  outgoingDurationOperationIds : List String
  localTabId : String
  deriving DecidableEq, Repr

/-- What a mutation is asked for: the stage of a completion, or an intent. -/
inductive MutationKind where
  | completion (stage : Json) (ownership : Option TimerOwner) (localTabId : String)
      (leaseNowMs leaseDurationMs : Nat)
  | intent (intent : Intent) (durability : Option Durability)
  deriving DecidableEq, Repr

structure MutationRequest where
  workspace : Workspace
  context : CompletionContext
  allocation : Allocation
  observation : Option Observation
  nowMs : Nat
  monotonicMs : Option Nat
  continuityId : Option String
  commandUuids : List String
  timerUuid : String
  requestedTimer : Option Json
  kind : MutationKind

/-- What is read of Core's answer to a mutation. -/
structure MutationPlan where
  planned : Bool
  operations : Queues
  retiredDurationOperationIds : List String
  selection : Selection
  lifecycle : Option Lifecycle
  hlc : Clock
  deviceSequence : Nat
  lastUuid : Option String
  base : Base
  neverSent : Ids
  timerDependencies : Json
  projectionPending : Option Queues
  observation : Observation
  history : Json
  completionRecords : List (String × Json)
  group : Json
  ownershipWrites : List OwnershipWrite

/-- What is read of Core's answer on legacy preferences. -/
structure PreferencePlan where
  planned : Bool
  operations : Queues
  settings : Option Settings
  neverSent : Ids
  projectionPending : Option Queues

structure PreferenceRequest where
  settings : Option Settings
  workspace : Workspace
  ownerId : Option String
  expectedOwnerId : Option String
  deviceId : String
  operationUuids : List String
  outgoing : Option Claim

/-- A response of the server, or what its JSON parses to. -/
structure ResponsePayload where
  acknowledgements : Domain → SyncCore.AcknowledgementField
  revision : Nat
  serverTime : String
  serverHlc : Clock
  base : Base
  accountIncarnation : Option String

structure ReconcileRequest where
  queues : Queues
  sent : Queues
  response : ResponsePayload
  timerDependencies : Json
  neverSent : Ids
  projectionPending : Option Queues

/-- What is read of Core's reconciliation. -/
structure Reconciliation where
  queues : Queues
  droppedTimerOperationIds : List String
  droppedTimerIds : List String
  projectionPending : Option Queues
  pendingTimerDependencies : Option Json
  history : Json
  canonicalResponse : Json
  workspace : Json
  revision : Nat
  base : Base

/-- What the installation step of the completion state is given. -/
structure InstallRequest where
  beforeHistory : Json
  afterHistory : Json
  canonicalTimer : Option Json
  context : CompletionContext
  pendingCommandIds : List String
  sendableCommandIds : List String
  otherOperationIds : List String
  acknowledgements : SyncCore.AcknowledgementField
  discardedCommandIds : List String
  referenceTime : String
  commands : List Operation
  history : Json

/-- The operations of Core that the storage calls. A call may throw. -/
structure Core where
  tickHlc : Clock → Nat → Except String Clock
  hlcHead : List Clock → Except String Clock
  legacyDependencyPlan : DependencyRequest → Except String DependencyPlan
  /-- A workspace, its owner and the time. -/
  bootstrapWorkspacePlan : Workspace → Option String → Nat → Except String Unit
  batchPlan : BatchRequest → Except String BatchPlan
  ownershipPlan : OwnershipRequest → Except String OwnershipPlan
  mutation : MutationRequest → Except String MutationPlan
  legacyPreferences : PreferenceRequest → Except String PreferencePlan
  reconcile : ReconcileRequest → Except String Reconciliation
  completionInstall : InstallRequest → Except String CompletionState
  /-- `reserveUuid7`: a time, a count, the last id and the ids of the queues. -/
  reserveUuid7 : Nat → Nat → Option String → List String → Except String (List String)

/-- A call of Core within a transaction. -/
def call {α : Type} (answer : Except String α) : Except StorageError α :=
  match answer with
  | .ok a => .ok a
  | .error message => .error (.core message)

@[simp] theorem call_ok_iff {α : Type} {answer : Except String α} {a : α} :
    call answer = .ok a ↔ answer = .ok a := by
  cases answer <;> simp [call]

/-! ## Acknowledgements -/

def acknowledgementField : Domain → String
  | .commands => "acknowledgements"
  | .taskOperations => "taskAcknowledgements"
  | .durationOperations => "durationAcknowledgements"
  | .autoStartOperations => "autoStartAcknowledgements"
  | .selectedTaskOperations => "selectedTaskAcknowledgements"

/-- `validateAcknowledgements`, and the acknowledged ids by domain. -/
def validateAcknowledgements (payload : ResponsePayload) (sent : Domain → Option (List String)) :
    Except String Ids := do
  let of (domain : Domain) := SyncCore.exactAcknowledgements (payload.acknowledgements domain)
    (acknowledgementField domain) (sent domain)
  let commands ← of .commands
  let tasks ← of .taskOperations
  let durations ← of .durationOperations
  let autoStart ← of .autoStartOperations
  let selectedTask ← of .selectedTaskOperations
  .ok fun
    | .commands => commands.2
    | .taskOperations => tasks.2
    | .durationOperations => durations.2
    | .autoStartOperations => autoStart.2
    | .selectedTaskOperations => selectedTask.2

/-! ## Clock samples -/

def MAX_SAFE_INTEGER : Nat := 2 ^ 53 - 1

def MAX_CLOCK_UNCERTAINTY_MS : Nat := 30000

def validInteger (value minimum : Nat) (maximum : Nat := MAX_SAFE_INTEGER) : Prop :=
  minimum ≤ value ∧ value ≤ maximum

instance (value minimum maximum : Nat) : Decidable (validInteger value minimum maximum) :=
  inferInstanceAs (Decidable (_ ∧ _))

/-- `validClockSample`. -/
def validClockSample (sample : ClockSample) : Prop :=
  sample.offsetMs.natAbs ≤ MAX_SAFE_INTEGER ∧
    validInteger sample.uncertaintyMs 0 MAX_CLOCK_UNCERTAINTY_MS ∧
    validInteger sample.sampledAtWallMs 1 ∧ validInteger sample.requestSequence 1 ∧
    validInteger sample.receivedAtWallMs 1 ∧ sample.sampledAtWallMs ≤ sample.receivedAtWallMs ∧
    0 < (sample.sampledAtWallMs : Int) + sample.offsetMs ∧
    (sample.sampledAtWallMs : Int) + sample.offsetMs ≤ MAX_SAFE_INTEGER

instance (sample : ClockSample) : Decidable (validClockSample sample) :=
  inferInstanceAs (Decidable (_ ∧ _))

/-- `latestClockOffset`. -/
def latestClockOffset (stored incoming : Option ClockSample) :
    Except StorageError (Option ClockSample) :=
  let valid := stored.filter fun sample => validClockSample sample
  match incoming with
  | none => .ok valid
  | some incoming => do
    check (validClockSample incoming) .clockRange
    match valid with
    | none => .ok (some incoming)
    | some stored =>
      if incoming.requestSequence < stored.requestSequence ∨
          stored.requestSequence = incoming.requestSequence ∧
            (incoming.receivedAtWallMs < stored.receivedAtWallMs ∨
              stored.receivedAtWallMs = incoming.receivedAtWallMs ∧
                stored.uncertaintyMs ≤ incoming.uncertaintyMs)
      then .ok (some stored) else .ok (some incoming)

end Pomodorough.Web
