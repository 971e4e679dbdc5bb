import Pomodorough.Web.WorkspaceTransactions

/-! # The bootstrap gate and the captured resolution

A tab holds the gate for the time of a lease while it resolves which history an
account keeps. The request it is going to send is captured in the database, and
marked before it is sent. -/
namespace Pomodorough.Web
open Pomodorough.Library.Fallible

variable (core : Core)

/-! ## The gate -/

/-- `leaseIsLive`. -/
def leaseIsLive (gate : Option Gate) (nowMs : Nat) : Prop :=
  ∃ held ∈ gate, held.token ≠ "" ∧ nowMs < held.expiresAtMs

instance (gate : Option Gate) (nowMs : Nat) : Decidable (leaseIsLive gate nowMs) :=
  inferInstanceAs (Decidable (∃ held ∈ gate, _))

structure GateInput where
  caller : Caller
  token : String
  nowMs : Nat
  leaseMs : Nat
  deriving DecidableEq, Repr

/-- `boundBootstrapLease`. -/
def boundBootstrapLease (input : GateInput) : Gate :=
  ⟨input.token, input.nowMs, input.nowMs + input.leaseMs,
    input.caller.currentUserId.filter (· ≠ "")⟩

structure GateOutcome where
  acquired : Bool
  takenOver : Bool
  invalidated : Bool
  gate : Option Gate
  resolution : Option Resolution

/-- The token of the stored gate is not this one. -/
def foreignGate (gate : Option Gate) (token : String) : Prop := gate.map Gate.token ≠ some token

instance (gate : Option Gate) (token : String) : Decidable (foreignGate gate token) :=
  inferInstanceAs (Decidable (_ ≠ _))

/-- The resolution with the token of the tab that takes the gate. -/
def Resolution.heldBy (token : String) (resolution : Resolution) : Resolution :=
  { resolution with gateToken := token }

/-- `acquireBootstrapGate`. -/
def acquireBootstrapGate (input : GateInput) (database : Database) :
    Except StorageError (Database × GateOutcome) := do
  accountMetadataMutation core { input.caller with currentUserId := none } database
  let existing := database.bootstrapGate
  let resolution := database.bootstrapResolution
  if ¬ SameTarget existing input.caller.currentUserId then
    .ok (database, ⟨false, false, false, existing, resolution⟩)
  else if foreignGate existing input.token ∧ leaseIsLive existing input.nowMs then
    .ok (database, ⟨false, false, false, existing, resolution⟩)
  else
    let gate := boundBootstrapLease input
    let resolution := resolution.map (Resolution.heldBy input.token)
    .ok
      ({ database with bootstrapResolution := resolution, bootstrapGate := some gate },
        ⟨true, existing.isSome ∧ foreignGate existing input.token, false, some gate, resolution⟩)

/-- `clearBootstrapGate`. -/
def clearBootstrapGate (token : String) (caller : Caller) (database : Database) :
    Except StorageError Database := do
  accountMetadataMutation core caller database
  check (database.bootstrapResolution = none)
    (.bootstrapGate "Saved history resolution still requires completion.")
  check (¬ foreignGate database.bootstrapGate token)
    (.bootstrapGate "Bootstrap gate is owned by another tab.")
  .ok { database with bootstrapGate := none }

/-! ## Capturing a resolution -/

structure CaptureInput where
  caller : Caller
  userId : String
  requestId : String
  deviceId : String
  expectedRevision : Nat
  strategy : Strategy
  autoStartOperationsPresent : Bool
  gateToken : String
  replaceExisting : Bool
  deriving DecidableEq, Repr

/-- `validateResolutionCapture`. -/
def validateResolutionCapture (records : Database) (input : CaptureInput) :
    Except StorageError Unit := do
  assertStorageContext records { input.caller with currentUserId := some input.userId }
  check (¬ foreignGate records.bootstrapGate input.gateToken)
    (.bootstrapGate "Bootstrap gate is owned by another tab.")
  match records.bootstrapResolution with
  | none => .ok ()
  | some existing => do
    check (¬ (input.replaceExisting = true ∧ existing.deliveryState ≠ .neverSent))
      (.bootstrapGate
        "Possibly delivered history request cannot be replaced without non-delivery evidence.")
    check (input.replaceExisting = true)
      (.bootstrapGate "Saved history resolution already exists.")
    check (existing.gateToken = input.gateToken ∧ input.requestId ≠ "" ∧
        input.requestId ≠ existing.payload.requestId)
      (.bootstrapGate
        "Saved history resolution replacement requires its owner and a fresh request ID.")

/-- The queued operation is encoded with another time. -/
def recoded (queue : List Operation) (encoded : Operation) : Prop :=
  ∃ original ∈ queue, original.id = encoded.id ∧ encoded.occurredAt ≠ original.occurredAt

instance (queue : List Operation) (encoded : Operation) : Decidable (recoded queue encoded) :=
  inferInstanceAs (Decidable (∃ original ∈ queue, _))

/-- The queue after its operations got the times of the encoded ones. -/
def recodeQueue (queue encoded : List Operation) : List Operation :=
  encoded.foldl (fun store operation =>
    match queue.find? fun original => original.id = operation.id with
    | none => store
    | some original =>
      if operation.occurredAt ≠ original.occurredAt
      then put store { original with occurredAt := operation.occurredAt } else store) queue

/-- `persistCapturedDurationEncoding`. -/
def persistCapturedDurationEncoding (records : Database) (encoded : List Operation) :
    Except StorageError (List Operation) := do
  let proven := neverSent records .durationOperations
  let durations := records.queues .durationOperations
  check (∀ operation ∈ encoded, recoded durations operation → operation.id ∈ proven)
    (.bootstrapGate "Possibly delivered legacy duration cannot be rewritten for history resolution.")
  .ok (recodeQueue durations encoded)

/-- What `resolutionCaptureRequests` reads. -/
def resolutionCaptureRequests (database : Database) : Database :=
  { database with deviceId := none, timerOwner := none, sourceAcknowledgements := none }

/-- The dependencies of the queues that a resolution uploads. -/
def planningDependencies (input : CaptureInput) (database : Database) :
    Except StorageError Json :=
  if input.strategy = .keepRemote then .ok "[]"
  else validatedTimerDependencies core (resolutionCaptureRequests database) (some input.deviceId)
    input.caller.dateNow

/-- `captureResolution`. -/
def captureResolution (input : CaptureInput) (database : Database) :
    Except StorageError (Database × Resolution) := do
  validateResolutionCapture database input
  assertResponseDisplayContext core database (some input.deviceId) input.caller.dateNow
  let planningQueues : Queues :=
    if input.strategy = .keepRemote then fun _ => [] else database.queues
  let dependencies ← planningDependencies core input database
  let plan ← call (core.batchPlan (batchRequest planningQueues (some input.deviceId) dependencies
    (some .commands) (.resolve input.strategy)))
  check (plan.status = .planned) (.resolutionLimit plan.status.name plan.total 8192)
  let selected ← selectedRecords plan planningQueues
  let sent := encodeSelectedBatch selected
  let durations ← persistCapturedDurationEncoding database (sent .durationOperations)
  let pending : Resolution :=
    { userId := input.userId
      payload := ⟨input.requestId, input.deviceId, input.expectedRevision, input.strategy, sent,
        database.queues .autoStartOperations ≠ [] ∨ input.autoStartOperationsPresent = true⟩
      queueIds := database.queues.ids
      deliveryState := .neverSent
      gateToken := input.gateToken
      sourceOwnerId := some database.owner }
  .ok
    ({ database with
        queues := database.queues.set .durationOperations durations
        bootstrapResolution := some pending },
      pending)

/-! ## Taking over and sending -/

structure AccountBinding where
  ownerId : String
  gateOwnerId : String
  sourceOwnerId : Option String
  deriving DecidableEq, Repr

/-- `assertBootstrapAccountBinding`. -/
def assertBootstrapAccountBinding (records : Database) (input : GateInput)
    (accountBinding : Option AccountBinding) : Except StorageError Unit :=
  match records.bootstrapGate.bind Gate.accountOwnerId with
  | none => .ok ()
  | some gateOwnerId =>
    check (some gateOwnerId = input.caller.currentUserId ∨
        ∃ binding ∈ accountBinding, some binding.ownerId = input.caller.currentUserId ∧
          binding.gateOwnerId = gateOwnerId ∧ binding.sourceOwnerId = records.owner)
      .accountOwnership

/-- The resolution is of the current user. -/
def Resolution.OfUser (user : Option String) (resolution : Resolution) : Prop :=
  some resolution.userId = user

instance (user : Option String) (resolution : Resolution) : Decidable (resolution.OfUser user) :=
  inferInstanceAs (Decidable (_ = _))

/-- `invalidateForeignResolution`. -/
def invalidateForeignResolution (input : GateInput) (accountBinding : Option AccountBinding)
    (database : Database) : Except StorageError (Database × GateOutcome) := do
  accountMetadataMutation core { input.caller with currentUserId := none } database
  assertBootstrapAccountBinding database input accountBinding
  let mine := database.bootstrapResolution.filter (·.OfUser input.caller.currentUserId)
  if foreignGate database.bootstrapGate input.token ∧
      leaseIsLive database.bootstrapGate input.nowMs then
    .ok (database, ⟨false, false, false, database.bootstrapGate, mine⟩)
  else
    let resolution := mine.map (Resolution.heldBy input.token)
    let gate := boundBootstrapLease input
    .ok
      ({ database with bootstrapResolution := resolution, bootstrapGate := some gate },
        ⟨true, false, database.bootstrapResolution.isSome ∧ mine = none, some gate, resolution⟩)

/-- `validateResolutionApply`. -/
def validateResolutionApply (records : Database) (pending : Resolution) :
    Except StorageError Unit := do
  assertStorageContext records
    { current := true
      ownerId := none
      expectedUserId := pending.sourceOwnerId
      currentUserId := some pending.userId
      deviceId := none
      dateNow := 0 }
  check (records.bootstrapResolution = some pending)
    (.bootstrapGate "Saved history resolution changed before apply.")
  check (¬ foreignGate records.bootstrapGate pending.gateToken)
    (.bootstrapGate "Bootstrap gate is owned by another tab.")

/-- The resolution once it may have been delivered. -/
def Resolution.claimed (resolution : Resolution) : Resolution :=
  { resolution with deliveryState := .possiblyDelivered }

/-- `validatePendingForSend`. -/
def validatePendingForSend (input : GateInput) (pending : Resolution) (database : Database) :
    Except StorageError (Database × Resolution) := do
  accountMetadataMutation core input.caller database
  check (pending.OfUser input.caller.currentUserId ∧
      database.bootstrapResolution = some pending)
    (.bootstrapGate "Saved history resolution does not match current account.")
  validateResolutionApply database pending
  let plan ← call (core.batchPlan
    (savedBatchRequest pending.payload.sent (.resolve pending.payload.strategy)))
  check (plan.status = .replaySaved)
    (.bootstrapGate
      "Saved history request exceeds Core limits. Retained request remains blocked and unchanged.")
  .ok
    ({ database with
        bootstrapResolution := some pending.claimed
        deliveryProof := some (removeProofIds database.deliveryProof pending.payload.sent)
        bootstrapGate := some (boundBootstrapLease input) },
      pending.claimed)

/-! ## Legacy durations -/

/-- `needsLegacyDurationCanonicalization`. -/
def needsLegacyDurationCanonicalization (operation : Operation) : Prop :=
  operation.ZeroClock ∧ operation.occurredAt ≠ LEGACY_EPOCH

instance (operation : Operation) : Decidable (needsLegacyDurationCanonicalization operation) :=
  inferInstanceAs (Decidable (_ ∧ _))

/-- `canonicalizeLegacyDuration`. -/
def canonicalizeLegacyDuration (operation : Operation) : Operation :=
  if needsLegacyDurationCanonicalization operation
  then { operation with occurredAt := LEGACY_EPOCH } else operation

/-- `canonicalizeLegacyDurationQueue`. -/
def canonicalizeLegacyDurationQueue (durations : List Operation) : List Operation :=
  durations.foldl (fun store operation =>
    if needsLegacyDurationCanonicalization operation
    then put store (canonicalizeLegacyDuration operation) else store) durations

structure NormalizeInput where
  caller : Caller
  gateToken : Option String
  replacementRequestId : String
  deriving DecidableEq, Repr

/-- `rotateLegacyDurationResolution`. -/
def rotateLegacyDurationResolution (records : Database) (input : NormalizeInput) :
    Except StorageError (Option Resolution) :=
  match records.bootstrapResolution with
  | none => .ok none
  | some captured =>
    let operations := captured.payload.sent .durationOperations
    if (¬ ∃ operation ∈ operations, needsLegacyDurationCanonicalization operation) ∨
        input.gateToken = none ∨ input.gateToken = some "" then .ok (some captured)
    else do
      check (captured.deliveryState = .neverSent)
        (.bootstrapGate "Possibly delivered legacy history request cannot be rewritten.")
      check (records.bootstrapGate.map Gate.token = input.gateToken ∧
          some captured.gateToken = input.gateToken)
        (.bootstrapGate "Bootstrap gate is owned by another tab.")
      check (input.replacementRequestId ≠ "" ∧
          input.replacementRequestId ≠ captured.payload.requestId)
        (.bootstrapGate "Legacy history resolution requires a fresh request ID.")
      .ok (some
        { captured with
          payload := { captured.payload with
            requestId := input.replacementRequestId
            sent := captured.payload.sent.set .durationOperations
              (operations.map canonicalizeLegacyDuration) } })

/-- `normalizeLegacyDurationOperations`. -/
def normalizeLegacyDurationOperations (input : NormalizeInput) (database : Database) :
    Except StorageError (Database × Option Resolution) := do
  assertStorageContext database input.caller
  assertResponseDisplayContext core database input.caller.deviceId input.caller.dateNow
  let outgoing := database.outgoingSync.elim [] fun claim => ids (claim.sent .durationOperations)
  let proven := sanitizeDeliveryProof database.deliveryProof .durationOperations
  let durations := database.queues .durationOperations
  check (∀ operation ∈ durations, needsLegacyDurationCanonicalization operation →
      operation.id ∈ proven ∧ operation.id ∉ outgoing)
    (.bootstrapGate "Possibly delivered legacy duration cannot be rewritten.")
  let resolution ← rotateLegacyDurationResolution database input
  .ok
    ({ database with
        queues := database.queues.set .durationOperations (canonicalizeLegacyDurationQueue durations)
        bootstrapResolution := resolution },
      resolution)

/-! ## What the transactions write -/

section
variable {core} {database written : Database} {token : String}

/-- The gate is another token's, and its lease is live. -/
def Fenced (database : Database) (token : String) (nowMs : Nat) : Prop :=
  foreignGate database.bootstrapGate token ∧ leaseIsLive database.bootstrapGate nowMs

instance (database : Database) (token : String) (nowMs : Nat) :
    Decidable (Fenced database token nowMs) :=
  inferInstanceAs (Decidable (_ ∧ _))

theorem not_foreignGate {gate : Option Gate} :
    ¬ foreignGate gate token ↔ ∃ held, gate = some held ∧ held.token = token := by
  cases gate <;> simp [foreignGate]

theorem acquireBootstrapGate_ok {input : GateInput} {outcome : GateOutcome}
    (h : acquireBootstrapGate core input database = .ok (written, outcome)) :
    written = database ∨ ¬ Fenced database input.token input.nowMs ∧
      written = { database with
        bootstrapResolution := database.bootstrapResolution.map (Resolution.heldBy input.token)
        bootstrapGate := some (boundBootstrapLease input) } := by
  obtain ⟨_, _, h⟩ := bind_ok_iff.mp h
  dsimp only at h
  split at h
  next =>
    cases h
    exact Or.inl rfl
  next =>
    split at h
    next =>
      cases h
      exact Or.inl rfl
    next hfree =>
      cases h
      exact Or.inr ⟨hfree, rfl⟩

theorem clearBootstrapGate_ok {caller : Caller}
    (h : clearBootstrapGate core token caller database = .ok written) :
    database.bootstrapResolution = none ∧ ¬ foreignGate database.bootstrapGate token ∧
      written = { database with bootstrapGate := none } := by
  obtain ⟨_, _, h⟩ := bind_ok_iff.mp h
  obtain ⟨_, hres, h⟩ := bind_ok_iff.mp h
  obtain ⟨_, hgate, h⟩ := bind_ok_iff.mp h
  cases h
  exact ⟨check_ok_iff.mp hres, check_ok_iff.mp hgate, rfl⟩

theorem invalidateForeignResolution_ok {input : GateInput} {binding : Option AccountBinding}
    {outcome : GateOutcome}
    (h : invalidateForeignResolution core input binding database = .ok (written, outcome)) :
    written = database ∨ ¬ Fenced database input.token input.nowMs ∧
      written = { database with
        bootstrapResolution :=
          (database.bootstrapResolution.filter (·.OfUser input.caller.currentUserId)).map
            (Resolution.heldBy input.token)
        bootstrapGate := some (boundBootstrapLease input) } := by
  obtain ⟨_, _, h⟩ := bind_ok_iff.mp h
  obtain ⟨_, _, h⟩ := bind_ok_iff.mp h
  dsimp only at h
  split at h
  next =>
    cases h
    exact Or.inl rfl
  next hfree =>
    cases h
    exact Or.inr ⟨hfree, rfl⟩

/-- What a capture has checked, and what it writes. -/
structure Captured (input : CaptureInput) (database : Database) (pending : Resolution)
    (written : Database) : Prop where
  context : assertStorageContext database
    { input.caller with currentUserId := some input.userId } = .ok ()
  gate : ¬ foreignGate database.bootstrapGate input.gateToken
  replaced : ∀ existing ∈ database.bootstrapResolution,
    existing.deliveryState = .neverSent ∧ existing.gateToken = input.gateToken
  captured : pending.userId = input.userId ∧ pending.gateToken = input.gateToken ∧
    pending.deliveryState = .neverSent
  wrote : ∃ encoded,
    (∀ operation ∈ encoded, recoded (database.queues .durationOperations) operation →
      operation.id ∈ neverSent database .durationOperations) ∧
    written = { database with
      queues := database.queues.set .durationOperations
        (recodeQueue (database.queues .durationOperations) encoded)
      bootstrapResolution := some pending }

theorem validateResolutionCapture_ok {input : CaptureInput}
    (h : validateResolutionCapture database input = .ok ()) :
    assertStorageContext database
        { input.caller with currentUserId := some input.userId } = .ok () ∧
      ¬ foreignGate database.bootstrapGate input.gateToken ∧
      ∀ existing ∈ database.bootstrapResolution,
        existing.deliveryState = .neverSent ∧ existing.gateToken = input.gateToken := by
  obtain ⟨_, hcontext, h⟩ := bind_ok_iff.mp h
  obtain ⟨_, hgate, h⟩ := bind_ok_iff.mp h
  refine ⟨hcontext, check_ok_iff.mp hgate, ?_⟩
  split at h
  next hnone => simp [hnone]
  next existing hexisting =>
    obtain ⟨_, hsent, h⟩ := bind_ok_iff.mp h
    obtain ⟨_, hreplace, h⟩ := bind_ok_iff.mp h
    have hsent := check_ok_iff.mp hsent
    have hreplace := check_ok_iff.mp hreplace
    have hfresh := check_ok_iff.mp h
    intro e he
    rw [hexisting, Option.mem_some_iff] at he
    subst he
    exact ⟨by_contra fun hdelivered => hsent ⟨hreplace, hdelivered⟩, hfresh.1⟩

theorem captureResolution_ok {input : CaptureInput} {pending : Resolution}
    (h : captureResolution core input database = .ok (written, pending)) :
    Captured input database pending written := by
  obtain ⟨_, hvalid, h⟩ := bind_ok_iff.mp h
  obtain ⟨_, _, h⟩ := bind_ok_iff.mp h
  obtain ⟨_, _, h⟩ := bind_ok_iff.mp h
  obtain ⟨_, _, h⟩ := bind_ok_iff.mp h
  obtain ⟨_, _, h⟩ := bind_ok_iff.mp h
  obtain ⟨selected, _, h⟩ := bind_ok_iff.mp h
  obtain ⟨durations, hencode, h⟩ := bind_ok_iff.mp h
  obtain ⟨_, hproven, hdurations⟩ := bind_ok_iff.mp hencode
  obtain ⟨hcontext, hgate, hreplaced⟩ := validateResolutionCapture_ok hvalid
  cases hdurations
  cases h
  exact ⟨hcontext, hgate, hreplaced, ⟨rfl, rfl, rfl⟩, _, check_ok_iff.mp hproven, rfl⟩

theorem validateResolutionApply_ok {pending : Resolution}
    (h : validateResolutionApply database pending = .ok ()) :
    database.bootstrapResolution = some pending ∧
      ¬ foreignGate database.bootstrapGate pending.gateToken := by
  obtain ⟨_, _, h⟩ := bind_ok_iff.mp h
  obtain ⟨_, hsame, h⟩ := bind_ok_iff.mp h
  exact ⟨check_ok_iff.mp hsame, check_ok_iff.mp h⟩

/-- The stored resolution is the one to be sent, the gate is that of its token, and
Core plans to send it. -/
structure SendAdmitted (core : Core) (input : GateInput) (pending : Resolution)
    (database : Database) : Prop where
  context : accountMetadataMutation core input.caller database = .ok ()
  stored : pending.OfUser input.caller.currentUserId ∧ database.bootstrapResolution = some pending
  held : validateResolutionApply database pending = .ok ()
  saved : ∃ plan, core.batchPlan (savedBatchRequest pending.payload.sent
    (.resolve pending.payload.strategy)) = .ok plan ∧ plan.status = .replaySaved

/-- What a send writes. -/
def Database.afterSend (database : Database) (input : GateInput) (pending : Resolution) :
    Database :=
  { database with
    bootstrapResolution := some pending.claimed
    deliveryProof := some (removeProofIds database.deliveryProof pending.payload.sent)
    bootstrapGate := some (boundBootstrapLease input) }

/-- The send commits where it is admitted. -/
theorem validatePendingForSend_iff {input : GateInput} {pending claimed : Resolution} :
    validatePendingForSend core input pending database = .ok (written, claimed) ↔
      SendAdmitted core input pending database ∧ claimed = pending.claimed ∧
        written = database.afterSend input pending := by
  constructor
  · intro h
    obtain ⟨_, hcontext, h⟩ := bind_ok_iff.mp h
    obtain ⟨_, hstored, h⟩ := bind_ok_iff.mp h
    obtain ⟨_, hheld, h⟩ := bind_ok_iff.mp h
    obtain ⟨plan, hplan, h⟩ := bind_ok_iff.mp h
    obtain ⟨_, hstatus, h⟩ := bind_ok_iff.mp h
    cases h
    exact ⟨⟨hcontext, check_ok_iff.mp hstored, hheld, plan, call_ok_iff.mp hplan,
      check_ok_iff.mp hstatus⟩, rfl, rfl⟩
  · rintro ⟨⟨hcontext, hstored, hheld, plan, hplan, hstatus⟩, rfl, rfl⟩
    refine bind_ok_iff.mpr ⟨(), hcontext, ?_⟩
    refine bind_ok_iff.mpr ⟨(), check_ok_iff.mpr hstored, ?_⟩
    refine bind_ok_iff.mpr ⟨(), hheld, ?_⟩
    refine bind_ok_iff.mpr ⟨plan, call_ok_iff.mpr hplan, ?_⟩
    exact bind_ok_iff.mpr ⟨(), check_ok_iff.mpr hstatus, rfl⟩

/-- A captured resolution is given a new request, by the tab that holds it. -/
structure Rotated (database : Database) (input : NormalizeInput) (captured rotated : Resolution) :
    Prop where
  stored : database.bootstrapResolution = some captured
  neverSent : captured.deliveryState = .neverSent ∧ rotated.deliveryState = .neverSent
  gate : ∃ token, input.gateToken = some token ∧ ¬ foreignGate database.bootstrapGate token ∧
    rotated.gateToken = token ∧ captured.gateToken = token
  user : rotated.userId = captured.userId

theorem rotateLegacyDurationResolution_ok {input : NormalizeInput} {result : Option Resolution}
    (h : rotateLegacyDurationResolution database input = .ok result) :
    result = database.bootstrapResolution ∨
      ∃ captured rotated, result = some rotated ∧ Rotated database input captured rotated := by
  unfold rotateLegacyDurationResolution at h
  split at h
  next hnone =>
    cases h
    exact Or.inl hnone.symm
  next captured hcaptured =>
    dsimp only at h
    split at h
    next =>
      cases h
      exact Or.inl hcaptured.symm
    next hneeds =>
      obtain ⟨_, hsent, h⟩ := bind_ok_iff.mp h
      obtain ⟨_, hgate, h⟩ := bind_ok_iff.mp h
      obtain ⟨_, _, h⟩ := bind_ok_iff.mp h
      cases h
      have hsent := check_ok_iff.mp hsent
      have hgate := check_ok_iff.mp hgate
      refine Or.inr ⟨captured, _, rfl, hcaptured, ⟨hsent, hsent⟩, ?_, rfl⟩
      refine ⟨captured.gateToken, hgate.2.symm, ?_, rfl, rfl⟩
      unfold foreignGate
      rw [not_not, hgate.1, ← hgate.2]

/-- What a normalization has checked, and what it writes. -/
structure Normalized (input : NormalizeInput) (database : Database) (result : Option Resolution)
    (written : Database) : Prop where
  proven : ∀ operation ∈ database.queues .durationOperations,
    needsLegacyDurationCanonicalization operation →
      operation.id ∈ sanitizeDeliveryProof database.deliveryProof .durationOperations ∧
        ∀ claim ∈ database.outgoingSync, operation.id ∉ ids (claim.sent .durationOperations)
  rotated : result = database.bootstrapResolution ∨
    ∃ captured rotated, result = some rotated ∧ Rotated database input captured rotated
  wrote : written = { database with
    queues := database.queues.set .durationOperations
      (canonicalizeLegacyDurationQueue (database.queues .durationOperations))
    bootstrapResolution := result }

theorem normalizeLegacyDurationOperations_ok {input : NormalizeInput}
    {result : Option Resolution}
    (h : normalizeLegacyDurationOperations core input database = .ok (written, result)) :
    Normalized input database result written := by
  obtain ⟨_, _, h⟩ := bind_ok_iff.mp h
  obtain ⟨_, _, h⟩ := bind_ok_iff.mp h
  obtain ⟨_, hproven, h⟩ := bind_ok_iff.mp h
  obtain ⟨_, hrotate, h⟩ := bind_ok_iff.mp h
  cases h
  refine ⟨?_, rotateLegacyDurationResolution_ok hrotate, rfl⟩
  intro operation hop hneeds
  obtain ⟨hin, hout⟩ := check_ok_iff.mp hproven operation hop hneeds
  refine ⟨hin, fun claim hclaim => ?_⟩
  rw [Option.mem_def] at hclaim
  rw [hclaim] at hout
  exact hout

end

end Pomodorough.Web
