import Pomodorough.Server.OperationParser
import Pomodorough.Store.Bootstrap

/-! # Requests and their envelopes

What is around the operations of a request: the device, the revision, and for a
resolution its id and strategy. The operations are parsed under the device of a
valid envelope. -/
namespace Pomodorough.Server.Requests
open Pomodorough.Library.Fallible Pomodorough.Store.Records Pomodorough.Store.Bootstrap
open Pomodorough.Server.OperationParser

/-! ## Synchronization -/

structure SyncRequestJSON where
  deviceID : String
  lastRevision : Option Int
  commands : Option (List SyncCommandJSON)
  taskOperations : List SyncTaskOperationJSON
  durationOperations : List SyncDurationOperationJSON
  autoStartOperations : List SyncAutoStartOperationJSON
  selectedTaskOperations : List SyncSelectedTaskOperationJSON
  deriving DecidableEq, Repr

def SyncRequestJSON.operationBatch (payload : SyncRequestJSON) : OperationBatch where
  deviceID := payload.deviceID
  commands := payload.commands.getD []
  taskOperations := payload.taskOperations
  durationOperations := payload.durationOperations
  autoStartOperations := payload.autoStartOperations
  selectedTaskOperations := payload.selectedTaskOperations
  maximum := 256

/-- A revision that is present and safe. -/
def validRevision (revision : Option Int) : Bool :=
  revision.any fun revision : Int => 0 ≤ revision && revision ≤ maxSafeRevision

def validSyncEnvelope (payload : SyncRequestJSON) : Bool :=
  validID payload.deviceID && validRevision payload.lastRevision && payload.commands.isSome &&
    payload.operationBatch.validCount

def parseSyncRequest (sharedIdentities : SharedIdentities) (payload : SyncRequestJSON)
    (now : Time) : Parsed SyncRequest := do
  check (validSyncEnvelope payload) (refuse "invalid sync envelope")
  let request ← parseOperationBatch sharedIdentities payload.operationBatch now
  .ok { request with lastRevision := payload.lastRevision.getD 0 }

/-! ## Resolutions -/

/-- A field that is an array of operations where it is present. -/
inductive OptionalOperations (α : Type) where
  | absent
  | array (operations : List α)
  | other
  deriving DecidableEq, Repr

structure BootstrapResolutionRequestJSON where
  requestID : String
  deviceID : String
  expectedRevision : Option Int
  strategy : String
  commands : Option (List SyncCommandJSON)
  taskOperations : Option (List SyncTaskOperationJSON)
  durationOperations : Option (List SyncDurationOperationJSON)
  autoStartOperations : OptionalOperations SyncAutoStartOperationJSON
  selectedTaskOperations : OptionalOperations SyncSelectedTaskOperationJSON
  deriving DecidableEq, Repr

def parseOptionalOperationArray {α : Type} (name : String) :
    OptionalOperations α → Parsed (List α × Bool)
  | .absent => .ok ([], false)
  | .array operations => .ok (operations, true)
  | .other => .error (refuse (name ++ " must be an array"))

def bootstrapOperationBatch (payload : BootstrapResolutionRequestJSON) :
    Parsed (OperationBatch × Bool × Bool) := do
  let (autoStart, autoPresent) ←
    parseOptionalOperationArray "autoStartOperations" payload.autoStartOperations
  let (selected, selectedPresent) ←
    parseOptionalOperationArray "selectedTaskOperations" payload.selectedTaskOperations
  let batch : OperationBatch :=
    { deviceID := payload.deviceID
      commands := payload.commands.getD []
      taskOperations := payload.taskOperations.getD []
      durationOperations := payload.durationOperations.getD []
      autoStartOperations := autoStart
      selectedTaskOperations := selected
      maximum := 4096 }
  .ok (batch, autoPresent, selectedPresent)

def validBootstrapStrategies : List String :=
  [bootstrapKeepRemote, bootstrapReplaceRemote, bootstrapMerge]

def validBootstrapEnvelope (payload : BootstrapResolutionRequestJSON) (batch : OperationBatch) :
    Bool :=
  validID payload.requestID && validID payload.deviceID &&
    validRevision payload.expectedRevision && payload.strategy ∈ validBootstrapStrategies &&
    payload.commands.isSome && payload.taskOperations.isSome &&
    payload.durationOperations.isSome && batch.validCount

def bootstrapResolution (payload : BootstrapResolutionRequestJSON) (operations : SyncRequest)
    (autoPresent selectedPresent : Bool) : BootstrapResolutionRequest where
  requestID := payload.requestID
  deviceID := payload.deviceID
  expectedRevision := payload.expectedRevision.getD 0
  strategy := payload.strategy
  commands := operations.commands
  taskOperations := operations.taskOperations
  durationOperations := operations.durationOperations
  autoStartOperations := operations.autoStartOperations
  autoStartOperationsPresent := autoPresent
  selectedTaskOperations := operations.selectedTaskOperations
  selectedTaskOperationsPresent := selectedPresent

def parseBootstrapResolutionRequest (sharedIdentities : SharedIdentities)
    (payload : BootstrapResolutionRequestJSON) (now : Time) :
    Parsed BootstrapResolutionRequest := do
  let (batch, autoPresent, selectedPresent) ← bootstrapOperationBatch payload
  check (validBootstrapEnvelope payload batch) (refuse "invalid bootstrap resolution envelope")
  check (¬ (payload.strategy = bootstrapKeepRemote ∧ batch.operationCount ≠ 0))
    (refuse "keep_remote requires empty operation arrays")
  let operations ← parseOperationBatch sharedIdentities batch now
  .ok (bootstrapResolution payload operations autoPresent selectedPresent)

/-! ## The operations of a request -/

section
variable {sharedIdentities : SharedIdentities} {now : Time}

/-- The operations of a synchronization are those of a batch whose device has a
valid id. -/
theorem parseSyncRequest_ok {payload : SyncRequestJSON} {request : SyncRequest}
    (h : parseSyncRequest sharedIdentities payload now = .ok request) :
    ∃ operations, validID payload.operationBatch.deviceID = true ∧
      parseOperationBatch sharedIdentities payload.operationBatch now = .ok operations ∧
      request = { operations with lastRevision := payload.lastRevision.getD 0 } := by
  obtain ⟨_, hvalid, h⟩ := bind_ok_iff.mp h
  obtain ⟨operations, hoperations, h⟩ := bind_ok_iff.mp h
  cases h
  rw [check_ok_iff] at hvalid
  unfold validSyncEnvelope at hvalid
  simp only [Bool.and_eq_true] at hvalid
  exact ⟨operations, hvalid.1.1.1, hoperations, rfl⟩

/-- So are the operations of a resolution. -/
theorem parseBootstrapResolutionRequest_ok {payload : BootstrapResolutionRequestJSON}
    {request : BootstrapResolutionRequest}
    (h : parseBootstrapResolutionRequest sharedIdentities payload now = .ok request) :
    ∃ batch operations, validID batch.deviceID = true ∧
      parseOperationBatch sharedIdentities batch now = .ok operations ∧
      request.syncRequest = { operations with deviceID := batch.deviceID, lastRevision := 0 } := by
  obtain ⟨⟨batch, autoPresent, selectedPresent⟩, hbatch, h⟩ := bind_ok_iff.mp h
  simp only at h
  obtain ⟨_, hvalid, h⟩ := bind_ok_iff.mp h
  obtain ⟨_, -, h⟩ := bind_ok_iff.mp h
  obtain ⟨operations, hoperations, h⟩ := bind_ok_iff.mp h
  obtain ⟨⟨autoStart, _⟩, -, hbatch⟩ := bind_ok_iff.mp hbatch
  simp only at hbatch
  obtain ⟨⟨selected, _⟩, -, hbatch⟩ := bind_ok_iff.mp hbatch
  cases h
  cases hbatch
  rw [check_ok_iff] at hvalid
  unfold validBootstrapEnvelope at hvalid
  simp only [Bool.and_eq_true] at hvalid
  exact ⟨_, operations, hvalid.1.1.1.1.1.1.2, hoperations, rfl⟩

end

end Pomodorough.Server.Requests
