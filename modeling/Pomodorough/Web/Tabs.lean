import Pomodorough.Library.Traces
import Pomodorough.Web.Responses

/-! # Any number of tabs

The tabs of a browser share one database. Each of them may run any transaction at
any time, with whatever it has read before; a transaction that aborts changes
nothing. -/
namespace Pomodorough.Web
open Pomodorough.Library.Fallible
open Pomodorough.Library

variable (core : Core)

/-! ## What a tab gives with a sync response -/

/-- What a tab remembers of the database. -/
structure TabState where
  caller : Caller
  deviceId : String
  tabId : String
  owner : Option String
  queues : Queues
  deliveryProof : Option Ids
  projectionPending : Option Queues

/-- `neverSentForQueues`. -/
def neverSentForQueues (proof : Option Ids) (queues sent : Queues) : Ids := fun domain =>
  ((proof.getD emptyDeliveryProof) domain).filter fun id =>
    id ∈ ids (queues domain) ∧ id ∉ ids (sent domain)

def TIMER_OWNER_LEASE_MS : Nat := 60000

/-- `assertResponseAccount`. -/
def assertResponseAccount (payload : ResponsePayload) (expectedOwnerId : String) :
    Except StorageError Unit :=
  check (∃ incarnation ∈ payload.accountIncarnation, "account:v1:" ++ incarnation = expectedOwnerId)
    (.other "Response account incarnation changed. Retained local work was not applied.")

/-- What `acceptSyncResponse` gives to `applySyncResponse`; the checks of the
payload's other fields only refuse it. The clock sample and the clock are what
`responseClockOffset` and `mergeServerHlc` return. -/
def acceptSyncResponse (tab : TabState) (payload : ResponsePayload) (sent : Queues)
    (expectedUserId : String) (clockOffset : Option ClockSample) (hlc : Clock)
    (serverTimeMs : Nat) (capturedClaim : Claim) : Except StorageError ResponseInput := do
  check (tab.caller.ownerId = some (some expectedUserId)) .accountOwnership
  assertResponseAccount payload expectedUserId
  let claim ← captureSyncClaim capturedClaim sent (some expectedUserId) tab.deviceId
  let acknowledgedIds ← call (validateAcknowledgements payload fun domain =>
    some (ids (sent domain)))
  check (SyncCore.validDateTime payload.serverTime = true)
    (.other "Bootstrap response omitted serverTime.")
  check tab.caller.current .accountOwnership
  let rebased ← call (core.reconcile
    { queues := projectionQueues tab.queues tab.deviceId
      sent := sent
      response := payload
      timerDependencies := "[]"
      neverSent := neverSentForQueues tab.deliveryProof tab.queues sent
      projectionPending := tab.projectionPending })
  .ok
    { caller := { tab.caller with expectedUserId := some (some expectedUserId), deviceId := none }
      snapshot := ⟨rebased.revision, tab.owner, some payload.serverTime, rebased.base⟩
      hlc := hlc
      serverHlc := some payload.serverHlc
      clockOffset := clockOffset
      timerOwnerClaim := some
        ⟨tab.deviceId, tab.tabId, tab.caller.dateNow, TIMER_OWNER_LEASE_MS⟩
      reconciliation := some
        { sent := sent
          strategy := none
          autoStartPresent := true
          response := payload
          serverTimeMs := serverTimeMs
          deviceId := tab.deviceId }
      capturedClaim := some claim
      queueIds := acknowledgedIds
      promoteCommands := []
      retainedQueues := some rebased.queues
      dropCommandIds := rebased.droppedTimerOperationIds
      selectedPhase := none }

/-- The input is one that a tab gives with a response it accepted. -/
def ResponseInput.Accepted (core : Core) (input : ResponseInput) : Prop :=
  ∃ tab payload sent expectedUserId clockOffset hlc serverTimeMs capturedClaim,
    acceptSyncResponse core tab payload sent expectedUserId clockOffset hlc serverTimeMs
      capturedClaim = .ok input

/-- The response acknowledges the operation. -/
def ResponsePayload.Acknowledges (payload : ResponsePayload) (d : Domain) (id : String) : Prop :=
  ∃ acknowledgements, payload.acknowledgements d = .array acknowledgements ∧
    ∃ acknowledgement ∈ acknowledgements, acknowledgement.id = some id

section
variable {core} {input : ResponseInput} {d : Domain} {id : String}

theorem exactAcknowledgementsFrom_mem {field : String}
    {expectedIds acknowledgedIds result : List String}
    {acknowledgements : List SyncCore.Acknowledgement}
    (h : SyncCore.exactAcknowledgementsFrom field expectedIds acknowledgedIds acknowledgements =
      .ok result) (hid : id ∈ result) :
    id ∈ acknowledgedIds ∨
      id ∈ expectedIds ∧ ∃ a ∈ acknowledgements, a.id = some id := by
  induction acknowledgements generalizing acknowledgedIds with
  | nil =>
    cases h
    exact Or.inl hid
  | cons a acknowledgements ih =>
    unfold SyncCore.exactAcknowledgementsFrom at h
    split at h
    next => cases h
    next key hkey =>
      obtain ⟨_, hcheck, h⟩ := bind_ok_iff.mp h
      have hexpected := (check_ok_iff.mp hcheck).1
      rcases ih h with hmem | ⟨hmem, b, hb, hbid⟩
      · rw [List.mem_append, List.mem_singleton] at hmem
        rcases hmem with hmem | rfl
        · exact Or.inl hmem
        · exact Or.inr ⟨hexpected, a, List.mem_cons_self .., hkey⟩
      · exact Or.inr ⟨hmem, b, List.mem_cons_of_mem a hb, hbid⟩

theorem exactAcknowledgements_mem {payload : SyncCore.AcknowledgementField} {field : String}
    {sent result : List String} {acknowledgements : List SyncCore.Acknowledgement}
    (h : SyncCore.exactAcknowledgements payload field (some sent) = .ok (acknowledgements, result))
    (hid : id ∈ result) :
    id ∈ sent ∧ payload = .array acknowledgements ∧ ∃ a ∈ acknowledgements, a.id = some id := by
  unfold SyncCore.exactAcknowledgements at h
  split at h
  next =>
    rw [if_neg (by simp)] at h
    cases h
  next => cases h
  next list =>
    obtain ⟨_, _, h⟩ := bind_ok_iff.mp h
    obtain ⟨acknowledged, hfrom, h⟩ := bind_ok_iff.mp h
    cases h
    rcases exactAcknowledgementsFrom_mem hfrom hid with hmem | ⟨hmem, hack⟩
    · cases hmem
    · exact ⟨hmem, rfl, hack⟩

theorem validateAcknowledgements_mem {payload : ResponsePayload} {sent : Queues} {result : Ids}
    (h : validateAcknowledgements payload (fun domain => some (ids (sent domain))) = .ok result)
    (hid : id ∈ result d) : id ∈ ids (sent d) ∧ payload.Acknowledges d id := by
  obtain ⟨⟨_, _⟩, hcommands, h⟩ := bind_ok_iff.mp h
  obtain ⟨⟨_, _⟩, htasks, h⟩ := bind_ok_iff.mp h
  obtain ⟨⟨_, _⟩, hdurations, h⟩ := bind_ok_iff.mp h
  obtain ⟨⟨_, _⟩, hautoStart, h⟩ := bind_ok_iff.mp h
  obtain ⟨⟨_, _⟩, hselectedTask, h⟩ := bind_ok_iff.mp h
  cases h
  cases d with
  | commands =>
    obtain ⟨hsent, harray, hack⟩ := exactAcknowledgements_mem hcommands hid
    exact ⟨hsent, _, harray, hack⟩
  | taskOperations =>
    obtain ⟨hsent, harray, hack⟩ := exactAcknowledgements_mem htasks hid
    exact ⟨hsent, _, harray, hack⟩
  | durationOperations =>
    obtain ⟨hsent, harray, hack⟩ := exactAcknowledgements_mem hdurations hid
    exact ⟨hsent, _, harray, hack⟩
  | autoStartOperations =>
    obtain ⟨hsent, harray, hack⟩ := exactAcknowledgements_mem hautoStart hid
    exact ⟨hsent, _, harray, hack⟩
  | selectedTaskOperations =>
    obtain ⟨hsent, harray, hack⟩ := exactAcknowledgements_mem hselectedTask hid
    exact ⟨hsent, _, harray, hack⟩

/-- An accepted response presents a claim, and its ids are those of the claim that
the response acknowledges. -/
structure AcceptedResponse (input : ResponseInput) (claim : Claim)
    (reconciliation : ReconciliationInput) : Prop where
  presented : input.capturedClaim = some claim
  reconciled : input.reconciliation = some reconciliation
  acknowledged : ∀ d, ∀ id ∈ input.queueIds d,
    id ∈ ids (claim.sent d) ∧ reconciliation.response.Acknowledges d id
  promoted : input.promoteCommands = []

theorem ResponseInput.Accepted.spec (h : input.Accepted core) :
    ∃ claim reconciliation, AcceptedResponse input claim reconciliation := by
  obtain ⟨tab, payload, sent, user, offset, hlc, ms, claim, h⟩ := h
  obtain ⟨_, _, h⟩ := bind_ok_iff.mp h
  obtain ⟨_, _, h⟩ := bind_ok_iff.mp h
  obtain ⟨captured, hcapture, h⟩ := bind_ok_iff.mp h
  obtain ⟨acknowledged, hack, h⟩ := bind_ok_iff.mp h
  obtain ⟨_, _, h⟩ := bind_ok_iff.mp h
  obtain ⟨_, _, h⟩ := bind_ok_iff.mp h
  obtain ⟨rebased, _, h⟩ := bind_ok_iff.mp h
  rw [call_ok_iff] at hack
  obtain ⟨hcaptured, _, _, hsent⟩ := captureSyncClaim_ok hcapture
  cases h
  refine ⟨captured, _, rfl, rfl, ?_, rfl⟩
  intro d id hid
  rw [hcaptured, hsent]
  exact validateAcknowledgements_mem hack hid

end

/-! ## Transactions and runs -/

/-- A transaction of some tab, with its input. -/
inductive Transaction where
  | mutate (input : MutationInput)
  | claim (input : ClaimInput)
  | discardClaim (input : ClaimInput)
  | syncResponse (input : ResponseInput)
  | resolution (pending : Resolution) (canonical : ResponseInput)
  | acquireGate (input : GateInput)
  | clearGate (token : String) (caller : Caller)
  | invalidate (input : GateInput) (binding : Option AccountBinding)
  | capture (input : CaptureInput)
  | send (input : GateInput) (pending : Resolution)
  | normalize (input : NormalizeInput)
  | preferences (input : PreferencesInput)
  | dependencies (nowMs : Nat) (caller : Caller)
  | clockSequence (caller : Caller)
  | clockOffset (sample : ClockSample) (caller : Caller)
  | timerOwnership (action : OwnershipAction) (claim : TimerOwnerClaim) (caller : Caller)
  | settingsDurations (caller : Caller)
  | newIdentity (deviceId : String) (deviceSequence : Nat) (hlc : Clock) (settings : Settings)
      (caller : Caller)
  | settings (settings : Settings) (caller : Caller)
  | clear (caller : Caller)
  | confirmCleanup (tabId : String) (caller : Caller)

/-- What the transaction writes, unless it aborts. -/
def Transaction.exec : Transaction → Database → Except StorageError Database
  | .mutate input, database => Prod.fst <$> planWorkspaceMutation core input database
  | .claim input, database => Prod.fst <$> claimWorkspaceBatch core input database
  | .discardClaim input, database =>
    Prod.fst <$> discardUnrecoverableSavedClaim core input database
  | .syncResponse input, database => Prod.fst <$> applySyncResponse core input database
  | .resolution pending canonical, database =>
    Prod.fst <$> applyResolution core pending canonical database
  | .acquireGate input, database => Prod.fst <$> acquireBootstrapGate core input database
  | .clearGate token caller, database => clearBootstrapGate core token caller database
  | .invalidate input binding, database =>
    Prod.fst <$> invalidateForeignResolution core input binding database
  | .capture input, database => Prod.fst <$> captureResolution core input database
  | .send input pending, database => Prod.fst <$> validatePendingForSend core input pending database
  | .normalize input, database => Prod.fst <$> normalizeLegacyDurationOperations core input database
  | .preferences input, database => Prod.fst <$> migrateLegacyPreferences core input database
  | .dependencies nowMs caller, database => migrateLegacyDependencies core nowMs caller database
  | .clockSequence caller, database => Prod.fst <$> allocateClockRequestSequence core caller database
  | .clockOffset sample caller, database => Prod.fst <$> saveClockOffset core sample caller database
  | .timerOwnership action owner caller, database =>
    Prod.fst <$> writeTimerOwnership core action owner caller database
  | .settingsDurations caller, database => migrateDurationQueueFromSettings core caller database
  | .newIdentity deviceId deviceSequence hlc value caller, database =>
    persistNewLocalIdentity core deviceId deviceSequence hlc value caller database
  | .settings value caller, database => persistSettings core value caller database
  | .clear caller, database => clearLocalData core caller database
  | .confirmCleanup tabId caller, database =>
    confirmCleanupAlreadyComplete core tabId caller database

/-- The database after the transaction, whether it commits or aborts. -/
def step (database : Database) (t : Transaction) : Database :=
  match t.exec core database with
  | .ok written => written
  | .error _ => database

/-- The database after the transactions of a run. -/
abbrev run (database : Database) (ts : List Transaction) : Database :=
  Traces.run (step core) database ts

section
variable {core} {database written : Database} {t : Transaction}

theorem run_append (ts us : List Transaction) :
    run core database (ts ++ us) = run core (run core database ts) us :=
  Traces.run_append

theorem step_ok (h : t.exec core database = .ok written) : step core database t = written := by
  unfold step
  rw [h]

/-- An aborted transaction writes nothing. -/
theorem step_error {e : StorageError} (h : t.exec core database = .error e) :
    step core database t = database := by
  unfold step
  rw [h]

/-- What holds before and after every commit holds after every step. -/
theorem step_induction {P : Database → Prop} (hbefore : P database)
    (hcommit : ∀ written, t.exec core database = .ok written → P written) :
    P (step core database t) := by
  cases h : t.exec core database with
  | ok written =>
    rw [step_ok h]
    exact hcommit written h
  | error e =>
    rw [step_error h]
    exact hbefore

/-- A transaction that ran, with its outcome. -/
theorem exec_outcome {α : Type} {x : Except StorageError (Database × α)}
    (h : Prod.fst <$> x = .ok written) : ∃ outcome, x = .ok (written, outcome) := by
  obtain ⟨⟨written', outcome⟩, hx, rfl⟩ := map_ok_iff.mp h
  exact ⟨outcome, hx⟩

/-- The transactions that write none of the records the others are fenced by. -/
def Transaction.Plain : Transaction → Prop
  | .dependencies .. | .clockSequence _ | .clockOffset .. | .timerOwnership .. | .newIdentity ..
  | .settings .. => True
  | _ => False

theorem exec_plain (hplain : t.Plain) (h : t.exec core database = .ok written) :
    Untouched database written := by
  cases t with
  | dependencies => exact migrateLegacyDependencies_ok h
  | clockSequence =>
    obtain ⟨_, h⟩ := exec_outcome h
    exact allocateClockRequestSequence_ok h
  | clockOffset =>
    obtain ⟨_, h⟩ := exec_outcome h
    exact saveClockOffset_ok h
  | timerOwnership =>
    obtain ⟨_, h⟩ := exec_outcome h
    exact writeTimerOwnership_ok h
  | newIdentity => exact persistNewLocalIdentity_ok h
  | settings => exact persistSettings_ok h
  | _ => cases hplain

end

end Pomodorough.Web
