import Mathlib.Algebra.Ring.Nat
import Pomodorough.Web.Effects

/-! # A Core to run the model with

The smallest Core that plans what it is asked for: it sends all that is queued,
keeps what was not sent, and remembers every completion. -/
namespace Pomodorough.Web
open Pomodorough.Library.Fallible

def laterClock (left right : Clock) : Clock :=
  if left.wallMs < right.wallMs ∨ left.wallMs = right.wallMs ∧ left.counter < right.counter
  then right else left

/-- An id that is longer than all of these. -/
def freshId (taken : List String) (n : Nat) : String :=
  String.ofList (List.replicate ((taken.map String.length).foldr max 0 + 1 + n) 'u')

/-- The command that a planned mutation enqueues. -/
def referenceCommand (request : MutationRequest) (id : String) : Operation where
  id := id
  deviceId := some request.allocation.deviceId
  deviceSequence := some (request.allocation.deviceSequence + 1)
  occurredAt := "2026-01-01T00:00:00.000Z"
  hlcWallMs := request.nowMs
  hlcCounter := request.allocation.hlc.counter + 1
  fields := .timer request.timerUuid "start" "focus" 1500000 0 none

/-- A stage consumes a completion and moves the selection on. -/
def referenceContext (request : MutationRequest) : CompletionContext :=
  match request.kind with
  | .completion stage .. =>
    { selection := { request.context.selection with
        generation := request.context.selection.generation + 1 }
      lifecycle := { request.context.lifecycle with
        consumedCompletions := request.context.lifecycle.consumedCompletions ++ [stage] } }
  | .intent .. => request.context

def referenceCore : Core where
  tickHlc local_ nowMs := .ok (laterClock ⟨local_.wallMs, local_.counter + 1⟩ ⟨nowMs, 0⟩)
  hlcHead observed := .ok (observed.foldl laterClock ⟨0, 0⟩)
  legacyDependencyPlan _ := .ok ⟨some "[]", []⟩
  bootstrapWorkspacePlan _ _ _ := .ok ()
  batchPlan
    | .new _ nextDomain queues _ => .ok
      { status := .planned
        selected := fun domain => (queues domain).map BatchItem.id
        total := (DOMAINS.map fun domain => (queues domain).length).sum
        nextDomain := nextDomain }
    | .saved _ queues => .ok
      { status := .replaySaved
        selected := queues
        total := (DOMAINS.map fun domain => (queues domain).length).sum
        nextDomain := .commands }
  ownershipPlan _ := .ok ⟨[], false⟩
  mutation request :=
    let context := referenceContext request
    let commands := (request.commandUuids.take 1).map (referenceCommand request)
    .ok
      { planned := true
        operations := fun domain => if domain = .commands then commands else []
        retiredDurationOperationIds := []
        selection := context.selection
        lifecycle := some context.lifecycle
        hlc := ⟨request.nowMs, request.allocation.hlc.counter + 1⟩
        deviceSequence := request.allocation.deviceSequence + 1
        lastUuid := request.commandUuids.getLast?
        base := request.workspace.base
        neverSent := fun domain =>
          request.workspace.neverSent domain ++ if domain = .commands then ids commands else []
        timerDependencies := request.workspace.timerDependencies.getD "[]"
        projectionPending := none
        observation := request.observation.getD ⟨none, []⟩
        history := request.workspace.base.history
        completionRecords := []
        group := ""
        ownershipWrites := [] }
  legacyPreferences request := .ok
    { planned := false
      operations := fun _ => []
      settings := request.settings
      neverSent := request.workspace.neverSent
      projectionPending := none }
  reconcile request := .ok
    { queues := fun domain =>
        (request.queues domain).filter fun operation => operation.id ∉ ids (request.sent domain)
      droppedTimerOperationIds := []
      droppedTimerIds := []
      projectionPending := none
      pendingTimerDependencies := some request.timerDependencies
      history := request.response.base.history
      canonicalResponse := ""
      workspace := ""
      revision := request.response.revision
      base := request.response.base }
  completionInstall request := .ok ⟨request.context.selection, some request.context.lifecycle⟩
  reserveUuid7 _ count _ pendingIds := .ok ((List.range count).map (freshId pendingIds))

theorem length_le_foldr_max {lengths : List Nat} {n : Nat} (h : n ∈ lengths) :
    n ≤ lengths.foldr max 0 := by
  induction lengths with
  | nil => cases h
  | cons m lengths ih =>
    rw [List.foldr_cons]
    rcases List.mem_cons.mp h with rfl | h
    · exact Nat.le_max_left _ _
    · exact Nat.le_trans (ih h) (Nat.le_max_right _ _)

/-- The ids that the reference Core reserves are new. -/
theorem freshId_not_mem (taken : List String) (n : Nat) : freshId taken n ∉ taken := by
  intro h
  have hle := length_le_foldr_max (List.mem_map_of_mem (f := String.length) h)
  have hlength : (freshId taken n).length = (taken.map String.length).foldr max 0 + 1 + n := by
    simp [freshId]
  omega

/-! ## A workspace with one account -/

def referenceCaller : Caller where
  current := true
  ownerId := some (some "account:v1:1")
  expectedUserId := some (some "account:v1:1")
  currentUserId := some "account:v1:1"
  deviceId := some "device"
  dateNow := 1000

def referenceBase : Base := ⟨none, "[]", "[]"⟩

/-- A database of the account, with nothing queued. -/
def referenceDatabase : Database :=
  { Database.empty with
    snapshot := some ⟨5, some "account:v1:1", some "2026-01-01T00:00:00.000Z", referenceBase⟩
    deviceId := some "device"
    timerDependencies := some "[]" }

def referenceMutation : MutationInput where
  caller := referenceCaller
  tabId := "tab"
  nowMs := 1000
  localNowMs := 1000
  leaseMs := 60000
  monotonicMs := none
  continuityId := none
  timerUuid := "timer"
  inFlightDurationOperationIds := []
  stage := none
  intent := ⟨"start", ""⟩
  preference := false
  requestedTimer := none

def referenceClaim : ClaimInput where
  caller := referenceCaller
  localNowMs := 1000
  retiredAt := "2026-01-01T00:00:00.000Z"
  claimId := "claim"
  confirmed := false

/-- The server's answer to a request, at a revision. -/
def referencePayload (sent : Queues) (revision : Nat) : ResponsePayload where
  acknowledgements := fun domain =>
    .array ((sent domain).map fun operation => ⟨some operation.id, some "applied", some ""⟩)
  revision := revision
  serverTime := "2026-01-01T00:00:01.000Z"
  serverHlc := ⟨1000, 0⟩
  base := referenceBase
  accountIncarnation := some "1"

def referenceTab : TabState where
  caller := referenceCaller
  deviceId := "device"
  tabId := "tab"
  owner := some "account:v1:1"
  queues := fun _ => []
  deliveryProof := none
  projectionPending := none

/-- What a tab gives with the response to a claim, at a revision. -/
def referenceResponse (claim : Claim) (revision : Nat) : ResponseInput where
  caller := { referenceCaller with deviceId := none }
  snapshot := ⟨revision, some "account:v1:1", some "2026-01-01T00:00:01.000Z", referenceBase⟩
  hlc := ⟨1000, 0⟩
  serverHlc := some ⟨1000, 0⟩
  clockOffset := none
  timerOwnerClaim := some ⟨"device", "tab", 1000, TIMER_OWNER_LEASE_MS⟩
  reconciliation := some
    { sent := claim.sent
      strategy := none
      autoStartPresent := true
      response := referencePayload claim.sent revision
      serverTimeMs := 1000
      deviceId := "device" }
  capturedClaim := some claim
  queueIds
    | .commands => ids (claim.sent .commands)
    | .taskOperations => ids (claim.sent .taskOperations)
    | .durationOperations => ids (claim.sent .durationOperations)
    | .autoStartOperations => ids (claim.sent .autoStartOperations)
    | .selectedTaskOperations => ids (claim.sent .selectedTaskOperations)
  promoteCommands := []
  retainedQueues := some fun _ => []
  dropCommandIds := []
  selectedPhase := none

/-- The claim of one command. -/
def referenceSaved : Claim :=
  let sent : Queues := fun domain => if domain = .commands then
    [⟨"u", none, some 1, "2026-01-01T00:00:00.000Z", 1000, 1,
      .timer "timer" "start" "focus" 1500000 0 none⟩] else []
  ⟨some "claim", sent, some "account:v1:1", "2026-01-01T00:00:00.000Z",
    some ⟨some "device", 5, sent⟩⟩

theorem referenceServerTime_valid : SyncCore.validDateTime "2026-01-01T00:00:01.000Z" = true := by
  decide +kernel

/-- The reference tab gives this with the response to the claim. -/
theorem referenceResponse_accepted (revision : Nat) :
    (referenceResponse referenceSaved revision).Accepted referenceCore := by
  refine ⟨referenceTab, referencePayload referenceSaved.sent revision, referenceSaved.sent,
    "account:v1:1", none, ⟨1000, 0⟩, 1000, referenceSaved, ?_⟩
  refine bind_ok_iff.mpr ⟨(), by rfl, ?_⟩
  refine bind_ok_iff.mpr ⟨(), by rfl, ?_⟩
  refine bind_ok_iff.mpr ⟨referenceSaved, by rfl, ?_⟩
  refine bind_ok_iff.mpr ⟨(referenceResponse referenceSaved revision).queueIds, by rfl, ?_⟩
  refine bind_ok_iff.mpr ⟨(), check_ok_iff.mpr referenceServerTime_valid, ?_⟩
  refine bind_ok_iff.mpr ⟨(), by rfl, ?_⟩
  exact bind_ok_iff.mpr ⟨_, call_ok_iff.mpr rfl, rfl⟩

/-- An operation is enqueued and claimed. -/
def referenceClaimed : Database :=
  run referenceCore referenceDatabase [.mutate referenceMutation, .claim referenceClaim]

example : referenceClaimed.outgoingSync = some referenceSaved := by decide +kernel

end Pomodorough.Web
