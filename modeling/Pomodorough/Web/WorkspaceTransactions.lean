import Pomodorough.Web.WorkspaceCore

/-! # Transactions on the workspace

Each transaction reads all records, checks, and writes; it aborts where a check
fails or Core throws, and then nothing is written. IndexedDB runs the
transactions of all tabs one at a time. -/
namespace Pomodorough.Web
open Pomodorough.Library.Fallible

/-- What a transaction is told of its caller. An outer `none` is a property that
the input does not have; `current` says that `assertCurrent` does not throw, and
`dateNow` is the reading of `Date.now()`. -/
structure Caller where
  current : Bool
  ownerId : Option (Option String)
  expectedUserId : Option (Option String)
  currentUserId : Option String
  deviceId : Option String
  dateNow : Nat
  deriving DecidableEq, Repr

/-- The owner that a workspace transaction expects. -/
def Caller.expectedOwner (caller : Caller) : Option String :=
  caller.ownerId.getD (caller.expectedUserId.getD none)

variable (core : Core)

/-- `assertAccountOwnership`. -/
def assertAccountOwnership (records : Database) (expectedUserId : Option String) :
    Except StorageError Unit :=
  check (expectedUserId ≠ some "" ∧ records.owner = expectedUserId) .accountOwnership

/-! ## Dependencies and the display context -/

/-- `dependencyPlan`. -/
def dependencyPlan (records : Database) (deviceId : Option String) (nowMs : Nat)
    (expectedOwnerId : Option String) : Except StorageError DependencyPlan :=
  call (core.legacyDependencyPlan (dependencyRequest records
    ((deviceId.or records.deviceId).getD "legacy-web") expectedOwnerId records.owner nowMs))

/-- `validatedTimerDependencies`. -/
def validatedTimerDependencies (records : Database) (deviceId : Option String) (nowMs : Nat) :
    Except StorageError Json :=
  match records.timerDependencies with
  | some dependencies => .ok dependencies
  | none => do
    let plan ← dependencyPlan core records deviceId nowMs records.owner
    match plan.timerDependencies with
    | none => .error .legacyDependencyRecovery
    | some dependencies => .ok dependencies

/-- The never-sent ids that a workspace request carries. -/
def neverSent (records : Database) : Ids :=
  neverSentFromProof records.deliveryProof records.queues (records.outgoingSync.map Claim.sent)

/-- Some queued operation names no device. -/
def legacyRecords (records : Database) : Prop :=
  ∃ domain ∈ DOMAINS, ∃ operation ∈ records.queues domain, operation.deviceId = none

instance (records : Database) : Decidable (legacyRecords records) :=
  inferInstanceAs (Decidable (∃ domain ∈ DOMAINS, ∃ operation ∈ records.queues domain, _))

/-- `assertPersistedDisplayContext`. -/
def assertPersistedDisplayContext (records : Database) (deviceId : Option String)
    (dateNow : Nat) : Except StorageError Unit :=
  if records.projectionPending = none then .ok ()
  else
    let checked : Except StorageError Unit :=
      if legacyRecords records then do
        let plan ← dependencyPlan core records deviceId dateNow records.owner
        check (plan.timerDependencies.isSome) .legacyDependencyRecovery
      else
        call (core.bootstrapWorkspacePlan
          (workspace records (deviceId.getD "") "[]" (neverSent records)) records.owner dateNow)
    checked.mapError .persistedDisplayContext

/-- `workspaceRecords`. -/
def workspaceRecords (records : Database) (deviceId : String) (dateNow : Nat) :
    Except StorageError Workspace := do
  assertPersistedDisplayContext core records (some deviceId) dateNow
  let dependencies ← validatedTimerDependencies core
    { records with deliveryProof := some (neverSent records) } (some deviceId) dateNow
  .ok (workspace records deviceId dependencies (neverSent records))

/-- The records that the display context is checked on. -/
def displayRecords (records : Database) : Database :=
  { Database.empty with
    snapshot := records.snapshot
    projectionPending := records.projectionPending
    canonicalHead := records.canonicalHead
    deliveryProof := records.deliveryProof
    outgoingSync := records.outgoingSync
    timerDependencies := records.timerDependencies
    queues := records.queues }

/-- `assertResponseDisplayContext`. -/
def assertResponseDisplayContext (records : Database) (deviceId : Option String)
    (dateNow : Nat) : Except StorageError Unit :=
  assertPersistedDisplayContext core (displayRecords records) (deviceId.or records.deviceId) dateNow

/-- What `syncResponseRequests` reads: the completion state and the source
acknowledgements are not among it. -/
def syncResponseRequests (database : Database) : Database :=
  { database with completionState := none, sourceAcknowledgements := none }

/-- `writeDependencyMigration`: the dependencies, and the values to record. -/
def writeDependencyMigration (records : Database) (caller : Caller) (nowMs : Nat) :
    Except StorageError (Json × List Json) := do
  let plan ← dependencyPlan core records (records.deviceId.or caller.deviceId) nowMs
    (caller.expectedUserId.getD (caller.ownerId.getD none))
  match plan.timerDependencies with
  | none => .error .legacyDependencyRecovery
  | some dependencies => do
    check caller.current .accountOwnership
    .ok (dependencies, plan.metadataWrites)

/-- `migrateDependencyMetadata`. -/
def migrateDependencyMetadata (records : Database) (caller : Caller) (nowMs : Nat) :
    Except StorageError (Json × List Json) :=
  match records.timerDependencies with
  | some dependencies => .ok (dependencies, [])
  | none => writeDependencyMigration core records caller nowMs

/-- The database after the metadata writes of a dependency plan. -/
def Database.recordDependencies (database : Database) (writes : List Json) : Database :=
  { database with
    timerDependencies := writes.foldl (fun _ write => some write) database.timerDependencies }

/-! ## Timer ownership -/

structure Lease where
  tabId : String
  nowMs : Nat
  durationMs : Nat
  deriving DecidableEq, Repr

/-- `writeOwnership`. A start without a lease is a type error. -/
def writeOwnership (owner : Option TimerOwner) (lease : Option Lease) :
    List OwnershipWrite → Except StorageError (Option TimerOwner)
  | [] => .ok owner
  | .removeTimerOwner :: writes => writeOwnership none lease writes
  | .recordTimerOwner owner :: writes => writeOwnership (some owner) lease writes
  | .recordStart timerId deviceId :: writes =>
    match lease with
    | none => .error (.other "Cannot read properties of undefined")
    | some held =>
      writeOwnership (some ⟨timerId, deviceId, held.tabId, held.nowMs + held.durationMs⟩) lease
        writes

structure TimerOwnerClaim where
  deviceId : String
  tabId : String
  nowMs : Nat
  leaseMs : Nat
  deriving DecidableEq, Repr

/-- `ownershipPlan`. -/
def ownershipPlan (records : Database) (input : TimerOwnerClaim) (action : OwnershipAction)
    (dateNow : Nat) : Except StorageError OwnershipPlan := do
  let workspace ← workspaceRecords core records input.deviceId dateNow
  call (core.ownershipPlan
    { action := action
      workspace := workspace
      ownership := records.timerOwner
      localDeviceId := input.deviceId
      localTabId := input.tabId
      nowMs := input.nowMs
      leaseDurationMs := if action = .release then none else some input.leaseMs })

/-! ## Mutations -/

/-- `assertWorkspaceContext`. -/
def assertWorkspaceContext (records : Database) (caller : Caller) : Except StorageError Unit := do
  check caller.current .accountOwnership
  assertAccountOwnership records caller.expectedOwner
  check (records.bootstrapGate = none ∧ records.bootstrapResolution = none)
    (.bootstrapGate "History resolution blocks local changes.")
  check (records.deviceId = none ∨ records.deviceId = caller.deviceId) .accountOwnership
  check (caller.deviceId ≠ none ∧ caller.deviceId ≠ some "") .accountOwnership

structure MutationInput where
  caller : Caller
  tabId : String
  nowMs : Nat
  localNowMs : Nat
  leaseMs : Nat
  monotonicMs : Option Nat
  continuityId : Option String
  timerUuid : String
  inFlightDurationOperationIds : List String
  stage : Option Json
  intent : Intent
  preference : Bool
  requestedTimer : Option Json
  deriving DecidableEq, Repr

/-- `workspaceIdentityCount`. -/
def workspaceIdentityCount (input : MutationInput) : Nat :=
  if input.intent.kind = "renameTask" then 4 else if input.preference then 3 else 2

/-- The ids of all queued operations. -/
def Database.pendingIds (records : Database) : List String :=
  DOMAINS.flatMap fun domain => ids (records.queues domain)

/-- `mutationDurability`. -/
def mutationDurability (records : Database) (input : MutationInput) : Durability where
  expectedOwnerId := input.caller.expectedOwner
  ownerId := records.owner
  outgoingDurationOperationIds :=
    ((records.outgoingSync.elim [] fun claim => ids (claim.sent .durationOperations)) ++
      input.inFlightDurationOperationIds).eraseDups
  localTabId := input.tabId

def mutationKind (records : Database) (input : MutationInput) : MutationKind :=
  match input.stage with
  | some stage => .completion stage records.timerOwner input.tabId input.localNowMs input.leaseMs
  | none =>
    .intent input.intent (if input.preference then some (mutationDurability records input) else none)

/-- The workspace without the never-sent durations that are being sent. -/
def Workspace.dropInFlight (workspace : Workspace) (inFlight : List String) : Workspace :=
  { workspace with
    neverSent := fun domain =>
      if domain = .durationOperations then
        (workspace.neverSent domain).filter fun id => id ∉ inFlight
      else workspace.neverSent domain }

/-- `workspaceMutationRequest`, with what the caller adds to it. -/
def workspaceMutationRequest (records : Database) (input : MutationInput) :
    Except StorageError MutationRequest := do
  let deviceId := records.deviceId.getD ""
  let raw ← workspaceRecords core records deviceId input.caller.dateNow
  let hlc := records.hlc.getD ⟨0, 0⟩
  let tick ← call (core.tickHlc hlc input.nowMs)
  let commandUuids ← call (core.reserveUuid7 tick.wallMs (workspaceIdentityCount input)
    records.uuidV7 records.pendingIds)
  .ok
    { workspace := raw.dropInFlight input.inFlightDurationOperationIds
      context := completionContext records.settings none records.completionState
      allocation := ⟨deviceId, records.deviceSequence.getD 0, hlc, records.uuidV7⟩
      observation := records.workspaceObservation
      nowMs := input.nowMs
      monotonicMs := input.monotonicMs
      continuityId := input.continuityId
      commandUuids := commandUuids
      timerUuid := input.timerUuid
      requestedTimer := input.requestedTimer
      kind := mutationKind records input }

/-- `persistedProjection`. -/
def persistedProjection (context : Option Queues) (retained : Queues) :
    Except StorageError (Option Queues) :=
  match context with
  | none => .ok none
  | some context => do
    check (∀ domain ∈ DOMAINS, ∀ item ∈ context domain, item.id ∈ ids (retained domain))
      (.other "Core display context references an unknown retained identity.")
    .ok (some fun domain => (context domain).map fun item =>
      if ∃ original ∈ retained domain, original.id = item.id ∧ original.deviceId = none
      then { item with deviceId := none } else item)

def Settings.initial : Settings := ⟨none, none, none, none, false, false, false, none⟩

/-- `writePlan`. -/
def writePlan (database records : Database) (plan : MutationPlan) (lease : Lease) :
    Except StorageError Database :=
  if ¬ plan.planned then .ok database
  else do
    let queues ← addQueues database.queues plan.operations
    let projectionPending ← persistedProjection plan.projectionPending
      fun domain => records.queues domain ++ plan.operations domain
    let timerOwner ← writeOwnership database.timerOwner (some lease) plan.ownershipWrites
    .ok
      { database with
        queues := queues.set .durationOperations
          (deleteAll (queues .durationOperations) plan.retiredDurationOperationIds)
        settings := some { records.settings.getD Settings.initial with
          selectedPhase := some plan.selection.phase }
        completionState := match plan.lifecycle with
          | some lifecycle => some ⟨plan.selection, some lifecycle⟩
          | none => database.completionState
        hlc := some plan.hlc
        deviceSequence := some plan.deviceSequence
        uuidV7 := plan.lastUuid
        deliveryProof := some plan.neverSent
        timerDependencies := some plan.timerDependencies
        workspaceObservation := some plan.observation
        projectionPending := projectionPending
        displayHistory := some plan.history
        completionRecords := records.completionRecords ++ plan.completionRecords
        workspaceGroups := records.workspaceGroups ++ [plan.group]
        timerOwner := timerOwner }

/-- The identity that the first planned mutation of a database records. -/
def writeNewIdentity (database records : Database) (deviceId : Option String)
    (plan : MutationPlan) : Database :=
  if records.deviceId = none ∧ plan.planned = true then
    { database with
      deviceId := deviceId
      snapshot := database.snapshot.or (some ⟨0, none, none, plan.base⟩) }
  else database

/-- `planWorkspaceMutation`. -/
def planWorkspaceMutation (input : MutationInput) (database : Database) :
    Except StorageError (Database × MutationPlan) := do
  assertWorkspaceContext database input.caller
  let records := { database with deviceId := database.deviceId.or input.caller.deviceId }
  assertPersistedDisplayContext core records input.caller.deviceId input.caller.dateNow
  let (dependencies, writes) ← migrateDependencyMetadata core records input.caller input.nowMs
  let records := { records with timerDependencies := some dependencies }
  let request ← workspaceMutationRequest core records input
  let plan ← call (core.mutation request)
  check input.caller.current .accountOwnership
  let written ← writePlan (database.recordDependencies writes) records plan
    ⟨input.tabId, input.localNowMs, input.leaseMs⟩
  .ok (writeNewIdentity written database input.caller.deviceId plan, plan)

/-! ## Claims -/

structure ClaimInput where
  caller : Caller
  localNowMs : Nat
  /-- `localNowMs` as an ISO text. -/
  retiredAt : String
  /-- The random UUID that a new claim gets. -/
  claimId : String
  confirmed : Bool
  deriving DecidableEq, Repr

structure ClaimOutcome where
  plan : BatchPlan
  claim : Option Claim
  proof : Option Ids

/-- The claim of a new batch of the stored operations. -/
def newClaim (input : ClaimInput) (database : Database) :
    Except StorageError (Database × ClaimOutcome) := do
  let (dependencies, writes) ←
    migrateDependencyMetadata core database input.caller input.localNowMs
  let plan ← call (core.batchPlan
    (batchRequest database.queues database.deviceId dependencies database.batchNextDomain .sync))
  if plan.status ≠ .planned then
    .ok (database.recordDependencies writes, ⟨plan, none, database.deliveryProof⟩)
  else
    let selected ← selectedRecords plan database.queues
    match database.snapshot with
    | none => .error (.other "Cannot read properties of undefined")
    | some snapshot =>
      let sent := encodeSelectedBatch selected
      let claim : Claim := ⟨some input.claimId, sent, input.caller.ownerId.getD none,
        input.retiredAt, some ⟨database.deviceId, snapshot.revision, sent⟩⟩
      let proof := removeProofIds database.deliveryProof sent
      check input.caller.current .accountOwnership
      .ok
        ({ database.recordDependencies writes with
            deliveryProof := some proof
            outgoingSync := some claim
            batchNextDomain := some plan.nextDomain },
          ⟨plan, some claim, some proof⟩)

/-- The stored claim, to be sent again as it is. -/
def savedClaim (saved : Claim) (input : ClaimInput) (database : Database) :
    Except StorageError (Database × ClaimOutcome) := do
  check (saved.ownerId = none ∨ saved.ownerId = input.caller.ownerId.getD none) .accountOwnership
  let plan ← call (core.batchPlan (savedBatchRequest saved.sent .sync))
  check (plan.status ≠ .replaySaved ∨
      ∀ body ∈ saved.body, body.deviceId = database.deviceId ∧ body.sent = saved.sent)
    (.other "Saved request bytes disagree with retained claim metadata. Recovery is required.")
  .ok (database, ⟨plan, some saved, database.deliveryProof⟩)

/-- `claimWorkspaceBatch`. -/
def claimWorkspaceBatch (input : ClaimInput) (database : Database) :
    Except StorageError (Database × ClaimOutcome) := do
  assertWorkspaceContext database input.caller
  assertPersistedDisplayContext core database input.caller.deviceId input.caller.dateNow
  match database.outgoingSync with
  | some saved => savedClaim core saved input database
  | none => newClaim core input database

/-- `discardUnrecoverableSavedClaim`. -/
def discardUnrecoverableSavedClaim (input : ClaimInput) (database : Database) :
    Except StorageError (Database × ClaimOutcome) := do
  assertWorkspaceContext database input.caller
  assertPersistedDisplayContext core database input.caller.deviceId input.caller.dateNow
  check input.confirmed
    (.other "Discarding the unrecoverable saved claim requires explicit confirmation.")
  match database.outgoingSync with
  | none => .error (.other "No unrecoverable saved sync claim is retained.")
  | some saved => do
    check (saved.body = none)
      (.other "Saved sync claim retains its original request body and must replay exactly.")
    check (saved.ownerId = none ∨ saved.ownerId = input.caller.ownerId.getD none) .accountOwnership
    newClaim core input { database with outgoingSync := none }

/-! ## Mutations of the metadata -/

/-- A gate that is bound to an account is bound to the given user's, where there
is one. -/
def SameTarget (gate : Option Gate) (currentUserId : Option String) : Prop :=
  ∀ target ∈ gate.bind Gate.accountOwnerId, ∀ user ∈ currentUserId,
    target ≠ "" → user ≠ "" → target = user

instance (gate : Option Gate) (currentUserId : Option String) :
    Decidable (SameTarget gate currentUserId) :=
  inferInstanceAs (Decidable (∀ target ∈ gate.bind Gate.accountOwnerId, _))

/-- `assertStorageContext`. -/
def assertStorageContext (records : Database) (caller : Caller) : Except StorageError Unit := do
  check caller.current .accountOwnership
  match caller.expectedUserId with
  | none => .ok ()
  | some expected => assertAccountOwnership records expected
  check (SameTarget records.bootstrapGate caller.currentUserId) .accountOwnership

/-- The checks of `accountMetadataMutation`. -/
def accountMetadataMutation (caller : Caller) (records : Database) : Except StorageError Unit := do
  assertStorageContext records caller
  assertResponseDisplayContext core records caller.deviceId caller.dateNow

/-- The checks of `guardedMutation`. -/
def guardedMutation (allowBootstrap : Bool) (caller : Caller) (records : Database) :
    Except StorageError Unit := do
  check (allowBootstrap = true ∨ records.bootstrapGate = none ∧ records.bootstrapResolution = none)
    (.bootstrapGate "History resolution blocks local changes.")
  assertStorageContext records caller
  assertAccountOwnership records (caller.expectedUserId.getD none)
  assertResponseDisplayContext core records caller.deviceId caller.dateNow

/-- `allocateClockRequestSequence`. -/
def allocateClockRequestSequence (caller : Caller) (database : Database) :
    Except StorageError (Database × Nat) := do
  accountMetadataMutation core caller database
  let sequence := database.clockRequestSequence.getD 0 + 1
  check (sequence ≤ MAX_SAFE_INTEGER) .clockRange
  .ok ({ database with clockRequestSequence := some sequence }, sequence)

/-- `putLatestClockOffset`. -/
def putLatestClockOffset (database : Database) (incoming : Option ClockSample) :
    Except StorageError (Database × Option ClockSample) := do
  let latest ← latestClockOffset database.clockOffset incoming
  .ok (if latest = incoming then { database with clockOffset := incoming } else database, latest)

/-- `saveClockOffset`. -/
def saveClockOffset (sample : ClockSample) (caller : Caller) (database : Database) :
    Except StorageError (Database × Option ClockSample) := do
  accountMetadataMutation core caller database
  putLatestClockOffset database (some sample)

structure PreferencesInput where
  caller : Caller
  nowMs : Nat
  operationUuids : List String
  deriving DecidableEq, Repr

/-- `writeLegacyPreferences`. -/
def writeLegacyPreferences (database : Database) (plan : PreferencePlan) :
    Except StorageError Database :=
  if ¬ plan.planned then .ok database
  else do
    let queues ← addQueues database.queues plan.operations
    .ok
      { database with
        queues := queues
        settings := plan.settings.or database.settings
        deliveryProof := some plan.neverSent
        projectionPending := plan.projectionPending }

/-- `migrateLegacyPreferences`. -/
def migrateLegacyPreferences (input : PreferencesInput) (database : Database) :
    Except StorageError (Database × PreferencePlan) := do
  guardedMutation core true input.caller database
  let deviceId := (database.deviceId.or input.caller.deviceId).getD "legacy-web"
  let results := syncResponseRequests database
  let (dependencies, writes) ← migrateDependencyMetadata core results
    { input.caller with deviceId := some deviceId } input.nowMs
  let records := { results with timerDependencies := some dependencies }
  let plan ← call (core.legacyPreferences
    { settings := records.settings
      workspace := rawWorkspace records
      ownerId := records.owner
      expectedOwnerId := input.caller.expectedUserId.getD none
      deviceId := deviceId
      operationUuids := input.operationUuids
      outgoing := records.outgoingSync })
  check input.caller.current .accountOwnership
  let written ← writeLegacyPreferences (database.recordDependencies writes) plan
  .ok (written, plan)

/-- `migrateLegacyDependencies`. -/
def migrateLegacyDependencies (nowMs : Nat) (caller : Caller) (database : Database) :
    Except StorageError Database := do
  guardedMutation core true caller database
  let (_, writes) ← writeDependencyMigration core (syncResponseRequests database) caller nowMs
  .ok (database.recordDependencies writes)

/-- `renewTimerOwnership` and `releaseTimerOwnership`, by the action. -/
def writeTimerOwnership (action : OwnershipAction) (claim : TimerOwnerClaim) (caller : Caller)
    (database : Database) : Except StorageError (Database × Bool) := do
  guardedMutation core true caller database
  let plan ← ownershipPlan core (syncResponseRequests database) claim action caller.dateNow
  let timerOwner ← writeOwnership database.timerOwner none plan.ownershipWrites
  .ok ({ database with timerOwner := timerOwner }, plan.renewed)

/-- The loop of `migrateDurationQueueFromSettings` over the pending operations. -/
def transferDurations (existing : List Operation) :
    List Operation → List Operation → Except StorageError (List Operation)
  | store, [] => .ok store
  | store, operation :: operations =>
    match existing.find? fun previous => previous.id = operation.id with
    | some previous => do
      check (previous = operation)
        (.other "Legacy duration identity already has a different retained payload.")
      transferDurations existing store operations
    | none => do
      let store ← add store operation
      transferDurations existing store operations

/-- `migrateDurationQueueFromSettings`. -/
def migrateDurationQueueFromSettings (caller : Caller) (database : Database) :
    Except StorageError Database := do
  guardedMutation core true caller database
  match database.settings with
  | none => .ok database
  | some settings =>
    match settings.pendingDurationOperations with
    | none => .ok database
    | some pending => do
      let existing := database.queues .durationOperations
      let durations ← transferDurations existing existing pending
      .ok
        { database with
          queues := database.queues.set .durationOperations durations
          settings := some { settings with pendingDurationOperations := none } }

/-- `persistNewLocalIdentity`, with the tab's values. -/
def persistNewLocalIdentity (deviceId : String) (deviceSequence : Nat) (hlc : Clock)
    (settings : Settings) (caller : Caller) (database : Database) :
    Except StorageError Database := do
  guardedMutation core true caller database
  .ok
    { database with
      deviceId := some deviceId
      deviceSequence := some deviceSequence
      hlc := some hlc
      settings := some settings }

/-- `persistSettings`. -/
def persistSettings (settings : Settings) (caller : Caller) (database : Database) :
    Except StorageError Database := do
  guardedMutation core false caller database
  .ok { database with settings := some settings }

/-- The transaction of `clearAuthorizedLocalData`. -/
def clearLocalData (caller : Caller) (database : Database) : Except StorageError Database := do
  guardedMutation core true caller database
  .ok Database.empty

/-- `confirmCleanupAlreadyComplete`. -/
def confirmCleanupAlreadyComplete (tabId : String) (caller : Caller) (database : Database) :
    Except StorageError Database := do
  guardedMutation core true { caller with expectedUserId := some none } database
  check (database.snapshot = none ∧ database.bootstrapResolution = none ∧
    ∀ domain ∈ DOMAINS, database.queues domain = []) .accountOwnership
  .ok
    { database with
      bootstrapGate := database.bootstrapGate.filter fun gate => gate.token ≠ tabId }

/-! ## What the transactions write -/

section
variable {core} {database written : Database} {caller : Caller}

/-- What the checks of a workspace transaction have established. -/
theorem assertWorkspaceContext_ok (h : assertWorkspaceContext database caller = .ok ()) :
    caller.current = true ∧ database.owner = caller.expectedOwner ∧
      database.bootstrapGate = none ∧ database.bootstrapResolution = none := by
  obtain ⟨_, hcurrent, h⟩ := bind_ok_iff.mp h
  obtain ⟨_, howner, h⟩ := bind_ok_iff.mp h
  obtain ⟨_, hgate, _⟩ := bind_ok_iff.mp h
  rw [check_ok_iff] at hcurrent hgate
  have howner := check_ok_iff.mp howner
  exact ⟨hcurrent, howner.2, hgate⟩

/-- The request of a mutation carries the stored completion context, and no other
never-sent ids than the stored ones; its fresh ids were reserved against the
queued ones. -/
structure MutationAsked (core : Core) (input : MutationInput) (database : Database)
    (request : MutationRequest) : Prop where
  context : request.context = completionContext database.settings none database.completionState
  neverSent : ∀ d, request.workspace.neverSent d ⊆ neverSent database d
  reserved : ∃ wallMs, core.reserveUuid7 wallMs (workspaceIdentityCount input) database.uuidV7
    database.pendingIds = .ok request.commandUuids

theorem dropInFlight_neverSent (workspace : Workspace) (inFlight : List String) (d : Domain) :
    (workspace.dropInFlight inFlight).neverSent d ⊆ workspace.neverSent d := by
  unfold Workspace.dropInFlight
  intro id hid
  dsimp only at hid
  split at hid
  next heq =>
    rw [heq] at *
    exact List.mem_of_mem_filter hid
  next => exact hid

theorem workspaceRecords_ok {records : Database} {deviceId : String} {dateNow : Nat}
    {raw : Workspace} (h : workspaceRecords core records deviceId dateNow = .ok raw) :
    raw.neverSent = neverSent records := by
  obtain ⟨_, _, h⟩ := bind_ok_iff.mp h
  obtain ⟨_, _, h⟩ := bind_ok_iff.mp h
  cases h
  rfl

theorem workspaceMutationRequest_ok {records : Database} {input : MutationInput}
    {request : MutationRequest}
    (h : workspaceMutationRequest core records input = .ok request)
    (hsettings : records.settings = database.settings)
    (hstate : records.completionState = database.completionState)
    (hsent : neverSent records = neverSent database) (huuid : records.uuidV7 = database.uuidV7)
    (hqueues : records.queues = database.queues) :
    MutationAsked core input database request := by
  obtain ⟨raw, hraw, h⟩ := bind_ok_iff.mp h
  obtain ⟨tick, _, h⟩ := bind_ok_iff.mp h
  obtain ⟨commandUuids, huuids, h⟩ := bind_ok_iff.mp h
  cases h
  rw [call_ok_iff] at huuids
  refine ⟨?_, ?_, tick.wallMs, ?_⟩
  · show completionContext records.settings none records.completionState = _
    rw [hsettings, hstate]
  · intro d
    show (raw.dropInFlight input.inFlightDurationOperationIds).neverSent d ⊆ _
    rw [← hsent, ← workspaceRecords_ok hraw]
    exact dropInFlight_neverSent raw _ d
  · have hpending : records.pendingIds = database.pendingIds := by
      unfold Database.pendingIds
      rw [hqueues]
    rw [← hpending, ← huuid]
    exact huuids

/-- What a planned mutation writes, field by field. -/
structure PlanWritten (database : Database) (plan : MutationPlan) (written : Database) : Prop where
  queues : ∃ added, addQueues database.queues plan.operations = .ok added ∧
    written.queues = added.set .durationOperations
      (deleteAll (added .durationOperations) plan.retiredDurationOperationIds)
  completion : written.completionState = match plan.lifecycle with
    | some lifecycle => some ⟨plan.selection, some lifecycle⟩
    | none => database.completionState
  proof : written.deliveryProof = some plan.neverSent

/-- What a mutation leaves as it is. -/
structure MutationKept (database written : Database) : Prop where
  outgoing : written.outgoingSync = database.outgoingSync
  gate : written.bootstrapGate = database.bootstrapGate
  resolution : written.bootstrapResolution = database.bootstrapResolution
  snapshot : written.snapshot = database.snapshot ∨
    database.snapshot = none ∧ ∃ snapshot, written.snapshot = some snapshot

/-- What a mutation writes where Core plans nothing. -/
structure Unplanned (database written : Database) : Prop where
  queues : written.queues = database.queues
  completion : written.completionState = database.completionState
  proof : written.deliveryProof = database.deliveryProof

theorem writePlan_ok {records : Database} {plan : MutationPlan} {lease : Lease}
    (h : writePlan database records plan lease = .ok written) :
    (plan.planned = false ∧ written = database) ∨
      plan.planned = true ∧ PlanWritten database plan written ∧
        written.outgoingSync = database.outgoingSync ∧
        written.bootstrapGate = database.bootstrapGate ∧
        written.bootstrapResolution = database.bootstrapResolution ∧
        written.snapshot = database.snapshot := by
  unfold writePlan at h
  split at h
  next hplanned =>
    cases h
    exact Or.inl ⟨by simpa using hplanned, rfl⟩
  next hplanned =>
    obtain ⟨added, hadded, h⟩ := bind_ok_iff.mp h
    obtain ⟨_, _, h⟩ := bind_ok_iff.mp h
    obtain ⟨_, _, h⟩ := bind_ok_iff.mp h
    cases h
    exact Or.inr ⟨by simpa using hplanned, ⟨⟨added, hadded, rfl⟩, rfl, rfl⟩, rfl, rfl, rfl, rfl⟩

/-- What a mutation asks, and what it writes. -/
structure Mutated (core : Core) (input : MutationInput) (database : Database)
    (plan : MutationPlan) (written : Database) : Prop where
  context : assertWorkspaceContext database input.caller = .ok ()
  asked : ∃ request, core.mutation request = .ok plan ∧ MutationAsked core input database request
  kept : MutationKept database written
  wrote : (plan.planned = false ∧ Unplanned database written) ∨
    plan.planned = true ∧ PlanWritten database plan written

theorem planWorkspaceMutation_ok {input : MutationInput} {plan : MutationPlan}
    (h : planWorkspaceMutation core input database = .ok (written, plan)) :
    Mutated core input database plan written := by
  obtain ⟨_, hcontext, h⟩ := bind_ok_iff.mp h
  obtain ⟨_, _, h⟩ := bind_ok_iff.mp h
  obtain ⟨⟨dependencies, writes⟩, _, h⟩ := bind_ok_iff.mp h
  obtain ⟨request, hrequest, h⟩ := bind_ok_iff.mp h
  obtain ⟨plan', hplan, h⟩ := bind_ok_iff.mp h
  obtain ⟨_, _, h⟩ := bind_ok_iff.mp h
  obtain ⟨planned, hwrite, h⟩ := bind_ok_iff.mp h
  rw [call_ok_iff] at hplan
  cases h
  have hasked : MutationAsked core input database request :=
    workspaceMutationRequest_ok hrequest rfl rfl rfl rfl rfl
  have hwrite := writePlan_ok hwrite
  refine ⟨hcontext, ⟨request, hplan, hasked⟩, ?_, ?_⟩
  · unfold writeNewIdentity
    rcases hwrite with ⟨_, rfl⟩ | ⟨_, _, hout, hgate, hres, hsnap⟩
    · split
      · refine ⟨rfl, rfl, rfl, ?_⟩
        cases hdb : database.snapshot with
        | none => exact Or.inr ⟨rfl, _, by simp [Database.recordDependencies, hdb]; rfl⟩
        | some snapshot => exact Or.inl (by simp [Database.recordDependencies, hdb])
      · exact ⟨rfl, rfl, rfl, Or.inl rfl⟩
    · have hsnap : planned.snapshot = database.snapshot := hsnap
      split
      · refine ⟨hout, hgate, hres, ?_⟩
        cases hdb : database.snapshot with
        | none => exact Or.inr ⟨rfl, _, by simp [hsnap, hdb]; rfl⟩
        | some snapshot => exact Or.inl (by simp [hsnap, hdb])
      · exact ⟨hout, hgate, hres, Or.inl hsnap⟩
  · unfold writeNewIdentity
    rcases hwrite with ⟨hplanned, rfl⟩ | ⟨hplanned, hwritten, _⟩
    · rw [if_neg (by simp [hplanned])]
      exact Or.inl ⟨hplanned, rfl, rfl, rfl⟩
    · refine Or.inr ⟨hplanned, ?_⟩
      split
      · exact ⟨hwritten.queues, hwritten.completion, hwritten.proof⟩
      · exact ⟨hwritten.queues, hwritten.completion, hwritten.proof⟩

/-! ### Claims -/

/-- What making a claim leaves as it is. -/
structure ClaimKept (database written : Database) : Prop where
  queues : written.queues = database.queues
  completion : written.completionState = database.completionState
  gate : written.bootstrapGate = database.bootstrapGate
  resolution : written.bootstrapResolution = database.bootstrapResolution
  snapshot : written.snapshot = database.snapshot

/-- A claim of queued operations is made and stored. -/
structure ClaimMade (input : ClaimInput) (database : Database) (claim : Claim)
    (written : Database) : Prop where
  id : claim.claimId = some input.claimId
  body : claim.body ≠ none
  sent : ∀ d, ids (claim.sent d) ⊆ ids (database.queues d)
  outgoing : written.outgoingSync = some claim
  proof : written.deliveryProof = some (removeProofIds database.deliveryProof claim.sent)

theorem newClaim_ok {input : ClaimInput} {outcome : ClaimOutcome}
    (h : newClaim core input database = .ok (written, outcome)) :
    ClaimKept database written ∧
      ((outcome.claim = none ∧ written.outgoingSync = database.outgoingSync ∧
          written.deliveryProof = database.deliveryProof) ∨
        ∃ claim, outcome.claim = some claim ∧ ClaimMade input database claim written) := by
  obtain ⟨⟨dependencies, writes⟩, _, h⟩ := bind_ok_iff.mp h
  obtain ⟨plan, _, h⟩ := bind_ok_iff.mp h
  split at h
  next =>
    cases h
    exact ⟨⟨rfl, rfl, rfl, rfl, rfl⟩, Or.inl ⟨rfl, rfl, rfl⟩⟩
  next =>
    obtain ⟨selected, hselected, h⟩ := bind_ok_iff.mp h
    split at h
    next => cases h
    next snapshot hsnapshot =>
      obtain ⟨_, _, h⟩ := bind_ok_iff.mp h
      cases h
      refine ⟨⟨rfl, rfl, rfl, rfl, rfl⟩, Or.inr ⟨_, rfl, rfl, by simp, ?_, rfl, rfl⟩⟩
      intro d id hid
      rw [ids_encodeSelectedBatch] at hid
      obtain ⟨x, hx, rfl⟩ := mem_ids.mp hid
      exact mem_ids.mpr ⟨x, selectedRecords_mem hselected hx, rfl⟩

/-- A batch is claimed once: a stored claim is returned as it is. -/
theorem claimWorkspaceBatch_ok {input : ClaimInput} {outcome : ClaimOutcome}
    (h : claimWorkspaceBatch core input database = .ok (written, outcome)) :
    assertWorkspaceContext database input.caller = .ok () ∧
      ((∃ saved, database.outgoingSync = some saved ∧ written = database ∧
          outcome.claim = some saved) ∨
        database.outgoingSync = none ∧
          newClaim core input database = .ok (written, outcome)) := by
  obtain ⟨_, hcontext, h⟩ := bind_ok_iff.mp h
  obtain ⟨_, _, h⟩ := bind_ok_iff.mp h
  refine ⟨hcontext, ?_⟩
  split at h
  next saved hsaved =>
    obtain ⟨_, _, h⟩ := bind_ok_iff.mp h
    obtain ⟨_, _, h⟩ := bind_ok_iff.mp h
    obtain ⟨_, _, h⟩ := bind_ok_iff.mp h
    cases h
    exact Or.inl ⟨saved, hsaved, rfl, rfl⟩
  next hnone => exact Or.inr ⟨hnone, h⟩

/-- Only a claim without a request body is discarded. -/
theorem discardUnrecoverableSavedClaim_ok {input : ClaimInput} {outcome : ClaimOutcome}
    (h : discardUnrecoverableSavedClaim core input database = .ok (written, outcome)) :
    assertWorkspaceContext database input.caller = .ok () ∧
      ∃ saved, database.outgoingSync = some saved ∧ saved.body = none ∧
        newClaim core input { database with outgoingSync := none } = .ok (written, outcome) := by
  obtain ⟨_, hcontext, h⟩ := bind_ok_iff.mp h
  obtain ⟨_, _, h⟩ := bind_ok_iff.mp h
  obtain ⟨_, _, h⟩ := bind_ok_iff.mp h
  refine ⟨hcontext, ?_⟩
  split at h
  next => cases h
  next saved hsaved =>
    obtain ⟨_, hbody, h⟩ := bind_ok_iff.mp h
    obtain ⟨_, _, h⟩ := bind_ok_iff.mp h
    exact ⟨saved, hsaved, check_ok_iff.mp hbody, h⟩

/-! ### Metadata -/

/-- The gate and the resolution, the claim and the proof, the completion state and
the snapshot. -/
structure MetaKept (database written : Database) : Prop where
  gate : written.bootstrapGate = database.bootstrapGate
  resolution : written.bootstrapResolution = database.bootstrapResolution
  outgoing : written.outgoingSync = database.outgoingSync
  completion : written.completionState = database.completionState
  snapshot : written.snapshot = database.snapshot

/-- What only other metadata is written by. -/
structure Untouched (database written : Database) : Prop extends MetaKept database written where
  queues : written.queues = database.queues
  proof : written.deliveryProof = database.deliveryProof

theorem allocateClockRequestSequence_ok {sequence : Nat}
    (h : allocateClockRequestSequence core caller database = .ok (written, sequence)) :
    Untouched database written := by
  obtain ⟨_, _, h⟩ := bind_ok_iff.mp h
  obtain ⟨_, _, h⟩ := bind_ok_iff.mp h
  cases h
  exact ⟨⟨rfl, rfl, rfl, rfl, rfl⟩, rfl, rfl⟩

theorem putLatestClockOffset_ok {incoming latest : Option ClockSample}
    (h : putLatestClockOffset database incoming = .ok (written, latest)) :
    Untouched database written := by
  obtain ⟨_, _, h⟩ := bind_ok_iff.mp h
  cases h
  split <;> exact ⟨⟨rfl, rfl, rfl, rfl, rfl⟩, rfl, rfl⟩

theorem saveClockOffset_ok {sample : ClockSample} {latest : Option ClockSample}
    (h : saveClockOffset core sample caller database = .ok (written, latest)) :
    Untouched database written := by
  obtain ⟨_, _, h⟩ := bind_ok_iff.mp h
  exact putLatestClockOffset_ok h

theorem migrateLegacyDependencies_ok {nowMs : Nat}
    (h : migrateLegacyDependencies core nowMs caller database = .ok written) :
    Untouched database written := by
  obtain ⟨_, _, h⟩ := bind_ok_iff.mp h
  obtain ⟨_, _, h⟩ := bind_ok_iff.mp h
  cases h
  exact ⟨⟨rfl, rfl, rfl, rfl, rfl⟩, rfl, rfl⟩

theorem writeTimerOwnership_ok {action : OwnershipAction} {claim : TimerOwnerClaim}
    {renewed : Bool}
    (h : writeTimerOwnership core action claim caller database = .ok (written, renewed)) :
    Untouched database written := by
  obtain ⟨_, _, h⟩ := bind_ok_iff.mp h
  obtain ⟨_, _, h⟩ := bind_ok_iff.mp h
  obtain ⟨_, _, h⟩ := bind_ok_iff.mp h
  cases h
  exact ⟨⟨rfl, rfl, rfl, rfl, rfl⟩, rfl, rfl⟩

theorem persistNewLocalIdentity_ok {deviceId : String} {deviceSequence : Nat} {hlc : Clock}
    {settings : Settings}
    (h : persistNewLocalIdentity core deviceId deviceSequence hlc settings caller database =
      .ok written) :
    Untouched database written := by
  obtain ⟨_, _, h⟩ := bind_ok_iff.mp h
  cases h
  exact ⟨⟨rfl, rfl, rfl, rfl, rfl⟩, rfl, rfl⟩

theorem persistSettings_ok {settings : Settings}
    (h : persistSettings core settings caller database = .ok written) :
    Untouched database written := by
  obtain ⟨_, _, h⟩ := bind_ok_iff.mp h
  cases h
  exact ⟨⟨rfl, rfl, rfl, rfl, rfl⟩, rfl, rfl⟩

theorem clearLocalData_ok (h : clearLocalData core caller database = .ok written) :
    written = Database.empty := by
  obtain ⟨_, _, h⟩ := bind_ok_iff.mp h
  cases h
  rfl

/-- A cleanup that finds nothing left drops the tab's own gate. -/
theorem confirmCleanupAlreadyComplete_ok {tabId : String}
    (h : confirmCleanupAlreadyComplete core tabId caller database = .ok written) :
    written = { database with
        bootstrapGate := database.bootstrapGate.filter fun gate => gate.token ≠ tabId } ∧
      database.bootstrapResolution = none := by
  obtain ⟨_, _, h⟩ := bind_ok_iff.mp h
  obtain ⟨_, hempty, h⟩ := bind_ok_iff.mp h
  cases h
  exact ⟨rfl, (check_ok_iff.mp hempty).2.1⟩

/-- What a migration of the preferences writes. -/
structure PreferencesMigrated (core : Core) (input : PreferencesInput) (database : Database)
    (plan : PreferencePlan) (written : Database) : Prop where
  kept : MetaKept database written
  asked : ∃ request, core.legacyPreferences request = .ok plan ∧
    request.workspace.neverSent = database.deliveryProof.getD emptyDeliveryProof ∧
    request.operationUuids = input.operationUuids
  wrote : (written.queues = database.queues ∧ written.deliveryProof = database.deliveryProof) ∨
    plan.planned = true ∧ addQueues database.queues plan.operations = .ok written.queues ∧
      written.deliveryProof = some plan.neverSent

theorem migrateLegacyPreferences_ok {input : PreferencesInput} {plan : PreferencePlan}
    (h : migrateLegacyPreferences core input database = .ok (written, plan)) :
    PreferencesMigrated core input database plan written := by
  obtain ⟨_, _, h⟩ := bind_ok_iff.mp h
  obtain ⟨⟨dependencies, writes⟩, _, h⟩ := bind_ok_iff.mp h
  obtain ⟨plan', hplan, h⟩ := bind_ok_iff.mp h
  obtain ⟨_, _, h⟩ := bind_ok_iff.mp h
  obtain ⟨migrated, hwrite, h⟩ := bind_ok_iff.mp h
  rw [call_ok_iff] at hplan
  cases h
  unfold writeLegacyPreferences at hwrite
  split at hwrite
  next =>
    cases hwrite
    exact ⟨⟨rfl, rfl, rfl, rfl, rfl⟩, ⟨_, hplan, rfl, rfl⟩, Or.inl ⟨rfl, rfl⟩⟩
  next hplanned =>
    obtain ⟨queues, hqueues, hwrite⟩ := bind_ok_iff.mp hwrite
    cases hwrite
    exact ⟨⟨rfl, rfl, rfl, rfl, rfl⟩, ⟨_, hplan, rfl, rfl⟩,
      Or.inr ⟨by simpa using hplanned, hqueues, rfl⟩⟩

theorem transferDurations_ok {existing store operations result : List Operation}
    (h : transferDurations existing store operations = .ok result) : store ⊆ result := by
  induction operations generalizing store with
  | nil =>
    cases h
    exact List.Subset.refl _
  | cons operation operations ih =>
    unfold transferDurations at h
    split at h
    next =>
      obtain ⟨_, _, h⟩ := bind_ok_iff.mp h
      exact ih h
    next =>
      obtain ⟨store', hadd, h⟩ := bind_ok_iff.mp h
      obtain ⟨_, _, hadd⟩ := bind_ok_iff.mp hadd
      cases hadd
      exact fun x hx => ih h (List.mem_append_left _ hx)

/-- The settings' durations are added to the queue. -/
theorem migrateDurationQueueFromSettings_ok
    (h : migrateDurationQueueFromSettings core caller database = .ok written) :
    MetaKept database written ∧ written.deliveryProof = database.deliveryProof ∧
      ∀ d, database.queues d ⊆ written.queues d := by
  obtain ⟨_, _, h⟩ := bind_ok_iff.mp h
  split at h
  next =>
    cases h
    exact ⟨⟨rfl, rfl, rfl, rfl, rfl⟩, rfl, fun d => List.Subset.refl _⟩
  next settings hsettings =>
    split at h
    next =>
      cases h
      exact ⟨⟨rfl, rfl, rfl, rfl, rfl⟩, rfl, fun d => List.Subset.refl _⟩
    next pending hpending =>
      obtain ⟨durations, hdurations, h⟩ := bind_ok_iff.mp h
      cases h
      refine ⟨⟨rfl, rfl, rfl, rfl, rfl⟩, rfl, ?_⟩
      intro d x hx
      show x ∈ database.queues.set .durationOperations durations d
      unfold Queues.set
      split
      next heq =>
        rw [heq] at hx
        exact transferDurations_ok hdurations hx
      next => exact hx

end

end Pomodorough.Web
