import Pomodorough.Web.BootstrapGate

/-! # Applying responses

What becomes of the database when the response to a sync request, or the result
of a resolution, is applied. Core reconciles the stored queues with the response;
the transaction replaces the snapshot and rewrites the queues. -/
namespace Pomodorough.Web
open Pomodorough.Library.Fallible

variable (core : Core)

/-! ## Reconciliation -/

/-- `projectionQueues`. -/
def projectionQueues (queues : Queues) (deviceId : String) : Queues := fun domain =>
  (queues domain).map (Operation.withDevice (if deviceId = "" then "legacy-web" else deviceId))

/-- What the caller of an apply transaction gives to reconcile with. -/
structure ReconciliationInput where
  sent : Queues
  /-- The strategy of a resolution's request. -/
  strategy : Option Strategy
  autoStartPresent : Bool
  response : ResponsePayload
  /-- `Date.parse` of the response's server time. -/
  serverTimeMs : Nat
  deviceId : String

/-- The ids of the sent items, by domain. -/
def ReconciliationInput.sentIds (input : ReconciliationInput) : Domain → Option (List String)
  | .autoStartOperations =>
    if input.autoStartPresent then some (ids (input.sent .autoStartOperations)) else none
  | domain => some (ids (input.sent domain))

def rejectedAcknowledgement (operation : Operation) : SyncCore.Acknowledgement :=
  ⟨some operation.id, some "rejected", some "keep_remote"⟩

/-- `keepRemoteReconciliation`: all captured operations count as sent and rejected. -/
def keepRemoteReconciliation (input : ReconciliationInput) (queueIds : Ids) (queues : Queues) :
    Except StorageError ReconciliationInput := do
  let _ ← call (validateAcknowledgements input.response input.sentIds)
  let captured : Queues := fun domain =>
    (queues domain).filter fun item => item.id ∈ queueIds domain
  .ok
    { input with
      sent := captured
      autoStartPresent := true
      response := { input.response with
        acknowledgements := fun domain =>
          .array ((captured domain).map rejectedAcknowledgement) } }

/-- `reconcileState` and `reconcileResolution` on the stored queues. -/
def reconcileStored (records : Database) (input : ReconciliationInput)
    (discardedQueueIds : Option Ids) : Except StorageError Reconciliation := do
  let stored := neverSentFromProof records.deliveryProof records.queues (some input.sent)
  let dependencies ← validatedTimerDependencies core records (some input.deviceId)
    input.serverTimeMs
  let request (shaped : ReconciliationInput) (neverSent : Ids) : ReconcileRequest :=
    { queues := projectionQueues records.queues input.deviceId
      sent := shaped.sent
      response := shaped.response
      timerDependencies := dependencies
      neverSent := neverSent
      projectionPending := records.projectionPending }
  match discardedQueueIds with
  | none => call (core.reconcile (request input stored))
  | some queueIds =>
    if input.strategy = some .keepRemote then do
      let shaped ← keepRemoteReconciliation input queueIds records.queues
      call (core.reconcile (request shaped
        (neverSentFromProof records.deliveryProof records.queues (some shaped.sent))))
    else call (core.reconcile (request input stored))

/-- What the caller of `applySyncResponse` and `applyResolution` gives. -/
structure ResponseInput where
  caller : Caller
  snapshot : Snapshot
  hlc : Clock
  serverHlc : Option Clock
  clockOffset : Option ClockSample
  timerOwnerClaim : Option TimerOwnerClaim
  reconciliation : Option ReconciliationInput
  capturedClaim : Option Claim
  /-- The ids that the response acknowledges. -/
  queueIds : Ids
  promoteCommands : List Operation
  retainedQueues : Option Queues
  dropCommandIds : List String
  selectedPhase : Option String

/-- What `responseTransactionRebase` returns. -/
structure Rebased where
  queues : Option Queues
  droppedCommandIds : List String
  projectionPending : Option Queues
  timerDependencies : Option Json
  history : Option Json
  canonicalResponse : Option Json
  workspace : Option Json

/-- `responseTransactionRebase`. -/
def responseTransactionRebase (input : ResponseInput) (records : Database)
    (discardedQueueIds : Option Ids) : Except StorageError Rebased :=
  match input.reconciliation with
  | none =>
    .ok ⟨input.retainedQueues, input.dropCommandIds, none, none, none, none, none⟩
  | some reconciliation => do
    let rebased ← reconcileStored core records reconciliation discardedQueueIds
    .ok ⟨some rebased.queues, rebased.droppedTimerOperationIds, rebased.projectionPending,
      rebased.pendingTimerDependencies, some rebased.history, some rebased.canonicalResponse,
      some rebased.workspace⟩

/-- `retainedObservation`. -/
def retainedObservation (observation : Option Observation) (queues : Option Queues) :
    Option Observation :=
  observation.map fun observation =>
    { observation with
      commandTimes := observation.commandTimes.filter fun entry =>
        entry.1 ∈ ids ((queues.getD fun _ => []) .commands) }

/-- `sanitizeCanonicalHead`. -/
def sanitizeCanonicalHead (head : Option Clock) : Option Clock :=
  head.filter fun head => 0 < head.wallMs ∧ head.wallMs ≤ MAX_SAFE_INTEGER ∧
    head.counter ≤ MAX_SAFE_INTEGER

/-- `laterHlc`. -/
def laterHlc (left right : Option Clock) : Except StorageError Clock :=
  call (core.hlcHead (left.toList ++ right.toList))

/-- The clock that an applied response leads to. -/
def responseHlc (input : ResponseInput) (clockOffset : Option ClockSample) : Clock :=
  if input.clockOffset ≠ none ∧ clockOffset = input.clockOffset then input.hlc
  else input.serverHlc.getD input.hlc

/-- `installationOwnership`. -/
def installationOwnership (input : ResponseInput) (records : Database)
    (rebased : Option Rebased) : Except StorageError OwnershipPlan :=
  match input.timerOwnerClaim with
  | none => .ok ⟨[], false⟩
  | some claim =>
    let installed := match rebased with
      | none => records
      | some rebased =>
        let queues := rebased.queues.getD records.queues
        { records with
          snapshot := some input.snapshot
          queues := queues
          projectionPending := rebased.projectionPending
          timerDependencies := rebased.timerDependencies
          canonicalHead := input.serverHlc.or records.canonicalHead
          deliveryProof := some (neverSentFromProof records.deliveryProof queues
            (input.reconciliation.map ReconciliationInput.sent))
          outgoingSync := none }
    ownershipPlan core installed claim .install input.caller.dateNow

/-! ## Sync responses -/

/-- `validateSyncResponseApply`. -/
def validateSyncResponseApply (input : ResponseInput) (records : Database) :
    Except StorageError Unit := do
  check input.caller.current .accountOwnership
  let expected := input.caller.expectedUserId.getD none
  check (expected ≠ none ∧ expected ≠ some "" ∧ records.owner = expected ∧
    input.snapshot.owner = expected) .accountOwnership
  check (records.bootstrapGate = none ∧ records.bootstrapResolution = none)
    (.bootstrapGate "History resolution blocks local changes.")
  check (∃ serverTime ∈ input.snapshot.serverTime, SyncCore.validDateTime serverTime = true)
    (.other "Sync response returned an invalid serverTime.")

/-- `captureSyncClaim`. -/
def captureSyncClaim (claim : Claim) (sent : Queues) (ownerId : Option String)
    (deviceId : String) : Except StorageError Claim :=
  match claim.body with
  | none => .error (.other "An exact captured sync claim is required.")
  | some body => do
    check (SyncCore.validDateTime claim.retiredAt = true ∧ claim.claimId ≠ some "" ∧
      claim.sent = sent) (.other "An exact captured sync claim is required.")
    check (claim.ownerId = ownerId) .accountOwnership
    check (body.deviceId = some deviceId ∧ body.lastRevision ≤ MAX_SAFE_INTEGER ∧
      body.sent = sent)
      (.other "Captured request bytes disagree with the acknowledged sync claim.")
    .ok claim

/-- The captured claim of the input, where it presents one. -/
def presentedClaim (input : ResponseInput) : Except StorageError (Option Claim) :=
  match input.capturedClaim with
  | none => .ok none
  | some claim =>
    match input.reconciliation with
    | none => .error (.other "An exact captured sync claim is required.")
    | some reconciliation => do
      let captured ← captureSyncClaim claim reconciliation.sent
        (input.caller.expectedUserId.getD none) reconciliation.deviceId
      .ok (some captured)

/-- `responseClaimPlan`: whether the response applies, and whether it clears the
stored claim. -/
def responseClaimPlan (input : ResponseInput) (records : Database) :
    Except StorageError (Bool × Bool) := do
  let captured ← presentedClaim input
  match captured with
  | none => .ok (records.outgoingSync.isNone, false)
  | some claim => .ok (records.outgoingSync = some claim, records.outgoingSync = some claim)

/-- `responseCompletionState`. -/
def responseCompletionState (input : ResponseInput) (results : Database) (rebased : Rebased) :
    Except StorageError (Option CompletionState) :=
  match input.reconciliation, rebased.queues with
  | none, _ => .ok none
  | some _, none => .error (.other "Cannot read properties of undefined")
  | some reconciliation, some queues => do
    let sendable ← call (core.batchPlan (batchRequest queues (some reconciliation.deviceId)
      (rebased.timerDependencies.getD "[]") (some .commands) .sync))
    let history := (results.snapshot.elim "[]" fun snapshot => snapshot.base.history)
    let state ← call (core.completionInstall
      { beforeHistory := history
        afterHistory := input.snapshot.base.history
        canonicalTimer := input.snapshot.base.canonicalTimer
        context := completionContext none
          (some ((results.settings.bind Settings.selectedPhase).getD "focus"))
          results.completionState
        pendingCommandIds := ids (queues .commands)
        sendableCommandIds := sendable.selected .commands
        otherOperationIds := DOMAINS.tail.flatMap fun domain => ids (queues domain)
        acknowledgements := reconciliation.response.acknowledgements .commands
        discardedCommandIds := rebased.droppedCommandIds
        referenceTime := input.snapshot.serverTime.getD ""
        commands := results.queues .commands
        history := results.displayHistory.getD history })
    .ok (some state)

structure AppliedPlan where
  rebased : Rebased
  clockOffset : Option ClockSample
  hlc : Clock
  canonicalHead : Option Clock
  completion : Option CompletionState
  clearClaim : Bool
  settings : Settings
  observation : Option Observation
  proof : Ids
  ownerPlan : OwnershipPlan

inductive SyncResponsePlan where
  | ignored
  | stale (clockOffset : Option ClockSample) (ownerPlan : OwnershipPlan)
  | apply (plan : AppliedPlan)

def SyncResponsePlan.applies : SyncResponsePlan → Bool
  | .apply _ => true
  | _ => false

/-- `planSyncResponse`. -/
def planSyncResponse (input : ResponseInput) (results : Database) :
    Except StorageError SyncResponsePlan := do
  validateSyncResponseApply input results
  let (applicable, clearClaim) ← responseClaimPlan input results
  if ¬ applicable then .ok .ignored
  else do
    assertResponseDisplayContext core results
      (input.reconciliation.map ReconciliationInput.deviceId) input.caller.dateNow
    let clockOffset ← latestClockOffset results.clockOffset input.clockOffset
    if input.snapshot.revision < results.snapshot.elim 0 Snapshot.revision then do
      let ownerPlan ← installationOwnership core input results none
      .ok (.stale clockOffset ownerPlan)
    else do
      let rebased ← responseTransactionRebase core input results none
      let hlc ← laterHlc core results.hlc (some (responseHlc input clockOffset))
      let settings := results.settings.getD Settings.initial
      let completion ← responseCompletionState core input results rebased
      let selectedPhase := ((completion.map fun state => state.selection.phase).or
        (input.selectedPhase.or settings.selectedPhase)).getD "focus"
      let ownerPlan ← installationOwnership core input results (some rebased)
      .ok (.apply
        { rebased := rebased
          clockOffset := clockOffset
          hlc := hlc
          canonicalHead := (sanitizeCanonicalHead input.serverHlc).or
            (sanitizeCanonicalHead results.canonicalHead)
          completion := completion
          clearClaim := clearClaim
          settings := { settings with selectedPhase := some selectedPhase }
          observation := retainedObservation results.workspaceObservation rebased.queues
          proof := neverSentFromProof results.deliveryProof (rebased.queues.getD fun _ => [])
            (input.reconciliation.map ReconciliationInput.sent)
          ownerPlan := ownerPlan })

/-- `persistReconciledQueue`. -/
def persistReconciledQueue (store : List Operation) (capturedIds : List String)
    (retained : List Operation) : List Operation :=
  putAll (deleteAll store capturedIds) retained

/-- The queues that an applied sync response leaves. -/
def persistReconciledQueues (input : ResponseInput) (rebased : Rebased) (stored : Queues) :
    Queues := fun domain =>
  let retained := (rebased.queues.getD fun _ => []) domain
  if domain = .commands then
    putAll (deleteAll
      (persistReconciledQueue (stored domain) (input.queueIds domain) input.promoteCommands)
      rebased.droppedCommandIds) retained
  else persistReconciledQueue (stored domain) (input.queueIds domain) retained

/-- `persistSyncResponsePlan`. -/
def persistSyncResponsePlan (input : ResponseInput) (database : Database) :
    SyncResponsePlan → Except StorageError Database
  | .ignored => .ok database
  | .stale clockOffset ownerPlan => do
    let timerOwner ← writeOwnership database.timerOwner none ownerPlan.ownershipWrites
    .ok
      { database with
        clockOffset := if clockOffset = input.clockOffset then input.clockOffset
          else database.clockOffset
        timerOwner := timerOwner }
  | .apply plan => do
    let timerOwner ← writeOwnership database.timerOwner none plan.ownerPlan.ownershipWrites
    .ok
      { database with
        clockOffset := if plan.clockOffset = input.clockOffset then input.clockOffset
          else database.clockOffset
        queues := persistReconciledQueues input plan.rebased database.queues
        snapshot := some input.snapshot
        canonicalResponse := plan.rebased.canonicalResponse.or database.canonicalResponse
        reconciledWorkspace := plan.rebased.workspace.or database.reconciledWorkspace
        completionState := plan.completion.or database.completionState
        canonicalHead := plan.canonicalHead.or database.canonicalHead
        projectionPending := plan.rebased.projectionPending
        outgoingSync := if plan.clearClaim then none else database.outgoingSync
        settings := some plan.settings
        timerDependencies := plan.rebased.timerDependencies.or database.timerDependencies
        workspaceObservation := plan.observation
        displayHistory := plan.rebased.history.or (some input.snapshot.base.history)
        deliveryProof := some plan.proof
        timerOwner := timerOwner
        hlc := some plan.hlc }

/-- `applySyncResponse`. -/
def applySyncResponse (input : ResponseInput) (database : Database) :
    Except StorageError (Database × SyncResponsePlan) := do
  let _ ← presentedClaim input
  check (∀ sample ∈ input.clockOffset, validClockSample sample) .clockRange
  let plan ← planSyncResponse core input (syncResponseRequests database)
  let written ← persistSyncResponsePlan input database plan
  .ok (written, plan)

/-! ## Results of resolutions -/

/-- `completeResolutionLegacyMigrations`. -/
def completeResolutionLegacyMigrations (settings : Option Settings) (pending : Resolution) :
    Settings :=
  let value := settings.getD Settings.initial
  let value := if pending.payload.autoStartPresent then value
    else { value with
      autoStartBreaks := none, autoStartBreaksExplicit := none, autoStartSyncBootstrapped := true }
  { value with selectedTaskId := none, selectedTaskSyncBootstrapped := true }

structure ResolutionOutcome where
  applied : Bool
  staleSuccess : Bool

/-- The result was applied before, and nothing is stored that it could resolve. -/
def StaleSuccess (records : Database) (pending : Resolution) (canonical : ResponseInput) : Prop :=
  records.bootstrapResolution = none ∧ records.bootstrapGate = none ∧
    ∃ snapshot ∈ records.snapshot, snapshot.owner = some pending.userId ∧
      canonical.snapshot.revision ≤ snapshot.revision

instance (records : Database) (pending : Resolution) (canonical : ResponseInput) :
    Decidable (StaleSuccess records pending canonical) :=
  inferInstanceAs (Decidable (_ ∧ _ ∧ ∃ snapshot ∈ records.snapshot, _))

/-- `staleResolutionOutcome`, where the success is stale. -/
def staleResolutionOutcome (database : Database) (pending : Resolution)
    (canonical : ResponseInput) : Except StorageError (Database × ResolutionOutcome) := do
  let ownerPlan ← installationOwnership core canonical database none
  check canonical.caller.current .accountOwnership
  let timerOwner ← writeOwnership database.timerOwner none ownerPlan.ownershipWrites
  let (database, _) ← putLatestClockOffset database canonical.clockOffset
  .ok
    ({ database with
        settings := some (completeResolutionLegacyMigrations database.settings pending)
        timerOwner := timerOwner },
      ⟨false, true⟩)

/-- `applyResolutionQueues`. -/
def applyResolutionQueues (stored : Queues) (queueIds : Ids) (canonical : ResponseInput)
    (rebased : Rebased) : Queues := fun domain =>
  let retained := (rebased.queues.getD fun _ => []) domain
  if canonical.reconciliation.isSome then putAll [] retained
  else if domain = .commands then
    deleteAll (putAll (deleteAll (stored domain) (queueIds domain)) canonical.promoteCommands)
      rebased.droppedCommandIds
  else putAll (deleteAll (stored domain) (queueIds domain)) retained

/-- `applyPendingResolution`. -/
def applyPendingResolution (pending : Resolution) (canonical : ResponseInput)
    (database : Database) : Except StorageError (Database × ResolutionOutcome) := do
  check canonical.caller.current .accountOwnership
  check (pending.userId ≠ "" ∧ canonical.snapshot.owner = some pending.userId) .accountOwnership
  assertResponseDisplayContext core database (some pending.payload.deviceId)
    canonical.caller.dateNow
  if StaleSuccess database pending canonical then
    staleResolutionOutcome core database pending canonical
  else do
    validateResolutionApply database pending
    let rebased ← responseTransactionRebase core canonical database (some pending.queueIds)
    let clockOffset ← latestClockOffset database.clockOffset canonical.clockOffset
    let hlc ← laterHlc core database.hlc (some (responseHlc canonical clockOffset))
    let ownerPlan ← installationOwnership core canonical database (some rebased)
    check canonical.caller.current .accountOwnership
    let timerOwner ← writeOwnership database.timerOwner none ownerPlan.ownershipWrites
    .ok
      ({ database with
          queues := applyResolutionQueues database.queues pending.queueIds canonical rebased
          settings := some (completeResolutionLegacyMigrations database.settings pending)
          snapshot := some canonical.snapshot
          clockOffset := if clockOffset = canonical.clockOffset then canonical.clockOffset
            else database.clockOffset
          hlc := some hlc
          canonicalHead := (sanitizeCanonicalHead canonical.serverHlc).or database.canonicalHead
          projectionPending := rebased.projectionPending
          timerOwner := timerOwner
          timerDependencies := rebased.timerDependencies.or database.timerDependencies
          workspaceObservation := retainedObservation database.workspaceObservation rebased.queues
          deliveryProof := match rebased.queues with
            | none => database.deliveryProof
            | some queues => some (neverSentFromProof database.deliveryProof queues
                (some pending.payload.sent))
          displayHistory := rebased.history.or (some canonical.snapshot.base.history)
          outgoingSync := none
          bootstrapResolution := none
          bootstrapGate := none },
        ⟨true, false⟩)

/-- `applyResolution`. -/
def applyResolution (pending : Resolution) (canonical : ResponseInput) (database : Database) :
    Except StorageError (Database × ResolutionOutcome) := do
  check (∀ sample ∈ canonical.clockOffset, validClockSample sample) .clockRange
  applyPendingResolution core pending canonical database

/-! ## What the transactions write -/

section
variable {core} {database written : Database} {input : ResponseInput}

/-- The claims that a response which applies has compared. -/
structure ClaimCompared (input : ResponseInput) (database : Database) (cleared : Bool) : Prop where
  unclaimed : input.capturedClaim = none → database.outgoingSync = none ∧ cleared = false
  claimed : ∀ claim, input.capturedClaim = some claim →
    database.outgoingSync = some claim ∧ cleared = true ∧ claim.body ≠ none ∧
      claim.ownerId = input.caller.expectedUserId.getD none ∧
      ∃ reconciliation, input.reconciliation = some reconciliation ∧
        claim.sent = reconciliation.sent

theorem captureSyncClaim_ok {claim captured : Claim} {sent : Queues} {owner : Option String}
    {deviceId : String} (h : captureSyncClaim claim sent owner deviceId = .ok captured) :
    captured = claim ∧ claim.body ≠ none ∧ claim.ownerId = owner ∧ claim.sent = sent := by
  unfold captureSyncClaim at h
  split at h
  next => cases h
  next body hbody =>
    obtain ⟨_, hclaim, h⟩ := bind_ok_iff.mp h
    obtain ⟨_, howner, h⟩ := bind_ok_iff.mp h
    obtain ⟨_, _, h⟩ := bind_ok_iff.mp h
    cases h
    refine ⟨rfl, ?_, check_ok_iff.mp howner, (check_ok_iff.mp hclaim).2.2⟩
    rw [hbody]
    exact Option.some_ne_none body

theorem presentedClaim_ok {captured : Option Claim} (h : presentedClaim input = .ok captured) :
    captured = input.capturedClaim ∧ ∀ claim, input.capturedClaim = some claim →
      claim.body ≠ none ∧ claim.ownerId = input.caller.expectedUserId.getD none ∧
        ∃ reconciliation, input.reconciliation = some reconciliation ∧
          claim.sent = reconciliation.sent := by
  unfold presentedClaim at h
  split at h
  next hnone =>
    cases h
    refine ⟨hnone.symm, fun claim hclaim => ?_⟩
    rw [hnone] at hclaim
    cases hclaim
  next claim hclaim =>
    split at h
    next => cases h
    next reconciliation hrec =>
      obtain ⟨captured', hcapture, h⟩ := bind_ok_iff.mp h
      cases h
      obtain ⟨rfl, hbody, howner, hsent⟩ := captureSyncClaim_ok hcapture
      refine ⟨hclaim.symm, fun claim' hclaim' => ?_⟩
      rw [hclaim, Option.some.injEq] at hclaim'
      subst hclaim'
      exact ⟨hbody, howner, reconciliation, hrec, hsent⟩

theorem responseClaimPlan_ok {applicable cleared : Bool}
    (h : responseClaimPlan input database = .ok (applicable, cleared))
    (happlicable : applicable = true) : ClaimCompared input database cleared := by
  obtain ⟨captured, hcaptured, h⟩ := bind_ok_iff.mp h
  obtain ⟨rfl, hfacts⟩ := presentedClaim_ok hcaptured
  split at h
  next hnone =>
    cases h
    refine ⟨fun _ => ⟨by simpa using happlicable, rfl⟩, fun claim hclaim => ?_⟩
    rw [hnone] at hclaim
    cases hclaim
  next claim hclaim =>
    cases h
    have hsaved : database.outgoingSync = some claim := by simpa using happlicable
    refine ⟨fun hnone => ?_, fun claim' hclaim' => ?_⟩
    · rw [hnone] at hclaim
      cases hclaim
    · have hfact := hfacts claim' hclaim'
      rw [hclaim, Option.some.injEq] at hclaim'
      subst hclaim'
      exact ⟨hsaved, by simpa using hsaved, hfact⟩

/-- A response applies: what it was planned from, and what it writes. -/
structure ResponseApplied (core : Core) (input : ResponseInput) (database : Database)
    (plan : AppliedPlan) (written : Database) : Prop where
  revision : database.snapshot.elim 0 Snapshot.revision ≤ input.snapshot.revision
  claim : ClaimCompared input database plan.clearClaim
  rebased : responseTransactionRebase core input (syncResponseRequests database) none =
    .ok plan.rebased
  completion : responseCompletionState core input (syncResponseRequests database) plan.rebased =
    .ok plan.completion
  proof : plan.proof = neverSentFromProof database.deliveryProof
    (plan.rebased.queues.getD fun _ => []) (input.reconciliation.map ReconciliationInput.sent)
  queues : written.queues = persistReconciledQueues input plan.rebased database.queues
  snapshot : written.snapshot = some input.snapshot
  outgoing : written.outgoingSync = if plan.clearClaim then none else database.outgoingSync
  state : written.completionState = plan.completion.or database.completionState
  deliveryProof : written.deliveryProof = some plan.proof
  gate : written.bootstrapGate = database.bootstrapGate
  resolution : written.bootstrapResolution = database.bootstrapResolution

/-- What a response that does not apply leaves as it is. -/
structure ResponseSkipped (database written : Database) : Prop extends Untouched database written where
  hlc : written.hlc = database.hlc
  canonicalHead : written.canonicalHead = database.canonicalHead

/-- What a sync response does: it is ignored, or it is stale, or it applies. -/
inductive ResponseDone (core : Core) (input : ResponseInput) (database written : Database) :
    SyncResponsePlan → Prop where
  | ignored (kept : written = database) : ResponseDone core input database written .ignored
  | stale (clockOffset : Option ClockSample) (ownerPlan : OwnershipPlan)
      (lower : input.snapshot.revision < database.snapshot.elim 0 Snapshot.revision)
      (kept : ResponseSkipped database written) :
      ResponseDone core input database written (.stale clockOffset ownerPlan)
  | apply (plan : AppliedPlan) (applied : ResponseApplied core input database plan written) :
      ResponseDone core input database written (.apply plan)

theorem applySyncResponse_ok {plan : SyncResponsePlan}
    (h : applySyncResponse core input database = .ok (written, plan)) :
    validateSyncResponseApply input (syncResponseRequests database) = .ok () ∧
      ResponseDone core input database written plan := by
  obtain ⟨_, _, h⟩ := bind_ok_iff.mp h
  obtain ⟨_, _, h⟩ := bind_ok_iff.mp h
  obtain ⟨plan', hplan, h⟩ := bind_ok_iff.mp h
  obtain ⟨written', hpersist, h⟩ := bind_ok_iff.mp h
  cases h
  obtain ⟨_, hvalid, hplan⟩ := bind_ok_iff.mp hplan
  obtain ⟨⟨applicable, cleared⟩, hclaim, hplan⟩ := bind_ok_iff.mp hplan
  refine ⟨hvalid, ?_⟩
  dsimp only at hplan
  split at hplan
  next =>
    cases hplan
    cases hpersist
    exact .ignored rfl
  next happlicable =>
    have hcompared := responseClaimPlan_ok hclaim (by simpa using happlicable)
    obtain ⟨_, _, hplan⟩ := bind_ok_iff.mp hplan
    obtain ⟨clockOffset, _, hplan⟩ := bind_ok_iff.mp hplan
    split at hplan
    next hlower =>
      obtain ⟨ownerPlan, _, hplan⟩ := bind_ok_iff.mp hplan
      cases hplan
      obtain ⟨_, _, hpersist⟩ := bind_ok_iff.mp hpersist
      cases hpersist
      exact .stale _ _ hlower ⟨⟨⟨rfl, rfl, rfl, rfl, rfl⟩, rfl, rfl⟩, rfl, rfl⟩
    next hrevision =>
      obtain ⟨rebased, hrebased, hplan⟩ := bind_ok_iff.mp hplan
      obtain ⟨_, _, hplan⟩ := bind_ok_iff.mp hplan
      obtain ⟨completion, hcompletion, hplan⟩ := bind_ok_iff.mp hplan
      obtain ⟨_, _, hplan⟩ := bind_ok_iff.mp hplan
      cases hplan
      obtain ⟨_, _, hpersist⟩ := bind_ok_iff.mp hpersist
      cases hpersist
      exact .apply _ ⟨Nat.le_of_not_lt hrevision, ⟨hcompared.unclaimed, hcompared.claimed⟩,
        hrebased, hcompletion, rfl, rfl, rfl, rfl, rfl, rfl, rfl, rfl⟩

/-- A stored gate or resolution, or another account, fails every response. -/
theorem validateSyncResponseApply_ok
    (h : validateSyncResponseApply input database = .ok ()) :
    database.bootstrapGate = none ∧ database.bootstrapResolution = none ∧
      ∃ user, input.caller.expectedUserId = some (some user) ∧ database.owner = some user ∧
        input.snapshot.owner = some user := by
  obtain ⟨_, _, h⟩ := bind_ok_iff.mp h
  obtain ⟨_, howner, h⟩ := bind_ok_iff.mp h
  obtain ⟨_, hgate, _⟩ := bind_ok_iff.mp h
  obtain ⟨hsome, _, hstored, hincoming⟩ := check_ok_iff.mp howner
  obtain ⟨hgate, hres⟩ := check_ok_iff.mp hgate
  refine ⟨hgate, hres, ?_⟩
  obtain ⟨user, huser⟩ := Option.ne_none_iff_exists'.mp hsome
  rw [huser] at hstored hincoming
  refine ⟨user, ?_, hstored, hincoming⟩
  cases hexpected : input.caller.expectedUserId with
  | none => simp [hexpected] at huser
  | some expected =>
    rw [hexpected] at huser
    exact congrArg some huser

/-- The result of a resolution is applied. -/
structure ResolutionApplied (core : Core) (pending : Resolution) (canonical : ResponseInput)
    (database written : Database) : Prop where
  stored : database.bootstrapResolution = some pending
  gate : ¬ foreignGate database.bootstrapGate pending.gateToken
  rebased : ∃ rebased,
    responseTransactionRebase core canonical database (some pending.queueIds) = .ok rebased ∧
      written.queues = applyResolutionQueues database.queues pending.queueIds canonical rebased ∧
      written.deliveryProof = match rebased.queues with
        | none => database.deliveryProof
        | some queues => some (neverSentFromProof database.deliveryProof queues
            (some pending.payload.sent))
  snapshot : written.snapshot = some canonical.snapshot
  completion : written.completionState = database.completionState
  cleared : written.outgoingSync = none ∧ written.bootstrapResolution = none ∧
    written.bootstrapGate = none

theorem staleResolutionOutcome_ok {pending : Resolution} {canonical : ResponseInput}
    {outcome : ResolutionOutcome}
    (h : staleResolutionOutcome core database pending canonical = .ok (written, outcome)) :
    outcome.applied = false ∧ Untouched database written := by
  obtain ⟨_, _, h⟩ := bind_ok_iff.mp h
  obtain ⟨_, _, h⟩ := bind_ok_iff.mp h
  obtain ⟨_, _, h⟩ := bind_ok_iff.mp h
  obtain ⟨⟨_, _⟩, hclock, h⟩ := bind_ok_iff.mp h
  have hkept := putLatestClockOffset_ok hclock
  cases h
  exact ⟨rfl, ⟨hkept.gate, hkept.resolution, hkept.outgoing, hkept.completion, hkept.snapshot⟩,
    hkept.queues, hkept.proof⟩

/-- The result of a resolution is of the resolution's account. -/
theorem applyResolution_ok {pending : Resolution} {canonical : ResponseInput}
    {outcome : ResolutionOutcome}
    (h : applyResolution core pending canonical database = .ok (written, outcome)) :
    canonical.snapshot.owner = some pending.userId ∧
      ((outcome.applied = false ∧ StaleSuccess database pending canonical ∧
          Untouched database written) ∨
        outcome.applied = true ∧ ResolutionApplied core pending canonical database written) := by
  obtain ⟨_, _, h⟩ := bind_ok_iff.mp h
  obtain ⟨_, _, h⟩ := bind_ok_iff.mp h
  obtain ⟨_, howner, h⟩ := bind_ok_iff.mp h
  obtain ⟨_, _, h⟩ := bind_ok_iff.mp h
  refine ⟨(check_ok_iff.mp howner).2, ?_⟩
  split at h
  next hstale =>
    obtain ⟨houtcome, hkept⟩ := staleResolutionOutcome_ok h
    exact Or.inl ⟨houtcome, hstale, hkept⟩
  next =>
    obtain ⟨_, happly, h⟩ := bind_ok_iff.mp h
    obtain ⟨rebased, hrebased, h⟩ := bind_ok_iff.mp h
    obtain ⟨_, _, h⟩ := bind_ok_iff.mp h
    obtain ⟨_, _, h⟩ := bind_ok_iff.mp h
    obtain ⟨_, _, h⟩ := bind_ok_iff.mp h
    obtain ⟨_, _, h⟩ := bind_ok_iff.mp h
    obtain ⟨_, _, h⟩ := bind_ok_iff.mp h
    cases h
    obtain ⟨hstored, hgate⟩ := validateResolutionApply_ok happly
    exact Or.inr ⟨rfl, hstored, hgate, ⟨rebased, hrebased, rfl, rfl⟩, rfl, rfl, rfl, rfl, rfl⟩

end

end Pomodorough.Web
