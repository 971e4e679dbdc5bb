import Mathlib.Tactic.Tauto
import Pomodorough.Library.Fallible

/-! # The browser's database

The records of the IndexedDB stores: the metadata by key, and the five queues of
operations by id. A value that only Core reads is kept as its JSON text. -/
namespace Pomodorough.Web
open Pomodorough.Library.Fallible

abbrev Json := String

/-- What a transaction fails with; it then aborts and writes nothing. -/
inductive StorageError where
  | accountOwnership
  | bootstrapGate (message : String)
  | clockRange
  | persistedDisplayContext (cause : StorageError)
  | legacyDependencyRecovery
  | resolutionLimit (field : String) (count limit : Nat)
  | constraint
  | core (message : String)
  | other (message : String)
  deriving DecidableEq, Repr

inductive Domain where
  | commands
  | taskOperations
  | durationOperations
  | autoStartOperations
  | selectedTaskOperations
  deriving DecidableEq, Repr

def DOMAINS : List Domain :=
  [.commands, .taskOperations, .durationOperations, .autoStartOperations, .selectedTaskOperations]

@[simp] theorem mem_DOMAINS (d : Domain) : d ∈ DOMAINS := by cases d <;> simp [DOMAINS]

instance {α : Type} [DecidableEq α] : DecidableEq (Domain → α) := fun f g =>
  decidable_of_iff (∀ d ∈ DOMAINS, f d = g d)
    ⟨fun h => funext fun d => h d (mem_DOMAINS d), fun h d _ => congrFun h d⟩

/-- What an operation carries of its own domain. A task of `some none` is an
explicit null. -/
inductive OperationFields where
  | timer (timerId type phase : String) (plannedDurationMs observedElapsedMs : Nat)
      (taskId : Option (Option String))
  | task (taskId type : String) (title : Option String)
  | duration (phase : String) (durationMs : Nat)
  | autoStart (enabled : Bool)
  | selectedTask (taskId : Option String)
  deriving DecidableEq, Repr

/-- A queued operation, or one of a request, which names no device. -/
structure Operation where
  id : String
  deviceId : Option String
  deviceSequence : Option Nat
  occurredAt : String
  hlcWallMs : Nat
  hlcCounter : Nat
  fields : OperationFields
  deriving DecidableEq, Repr

abbrev Queues := Domain → List Operation

abbrev Ids := Domain → List String

def ids (queue : List Operation) : List String := queue.map Operation.id

def Queues.ids (queues : Queues) : Ids := fun domain => Web.ids (queues domain)

/-! ## Records of the metadata -/

/-- What Core calls the base of a workspace. -/
structure Base where
  canonicalTimer : Option Json
  history : Json
  preferences : Json
  deriving DecidableEq, Repr

/-- The user is kept as `accountOwnerId` of it. -/
structure Snapshot where
  revision : Nat
  owner : Option String
  serverTime : Option String
  base : Base
  deriving DecidableEq, Repr

structure Clock where
  wallMs : Nat
  counter : Nat
  deriving DecidableEq, Repr

structure ClockSample where
  offsetMs : Int
  uncertaintyMs : Nat
  sampledAtWallMs : Nat
  requestSequence : Nat
  receivedAtWallMs : Nat
  deriving DecidableEq, Repr

structure Gate where
  token : String
  acquiredAtMs : Nat
  expiresAtMs : Nat
  accountOwnerId : Option String
  deriving DecidableEq, Repr

inductive DeliveryState where
  | neverSent
  | possiblyDelivered
  deriving DecidableEq, Repr

inductive Strategy where
  | keepRemote
  | replaceRemote
  | merge
  deriving DecidableEq, Repr

/-- The request of a resolution. -/
structure ResolutionPayload where
  requestId : String
  deviceId : String
  expectedRevision : Nat
  strategy : Strategy
  sent : Queues
  autoStartPresent : Bool

instance : DecidableEq ResolutionPayload := fun a b =>
  decidable_of_iff
    (a.requestId = b.requestId ∧ a.deviceId = b.deviceId ∧
      a.expectedRevision = b.expectedRevision ∧ a.strategy = b.strategy ∧ a.sent = b.sent ∧
      a.autoStartPresent = b.autoStartPresent)
    (by cases a; cases b; simp)

/-- A captured resolution; an old record has no `sourceOwnerId`. -/
structure Resolution where
  userId : String
  payload : ResolutionPayload
  queueIds : Ids
  deliveryState : DeliveryState
  gateToken : String
  sourceOwnerId : Option (Option String)

instance : DecidableEq Resolution := fun a b =>
  decidable_of_iff
    (a.userId = b.userId ∧ a.payload = b.payload ∧ a.queueIds = b.queueIds ∧
      a.deliveryState = b.deliveryState ∧ a.gateToken = b.gateToken ∧
      a.sourceOwnerId = b.sourceOwnerId)
    (by cases a; cases b; simp)

/-- The request a claim was made for. -/
structure RequestBody where
  deviceId : Option String
  lastRevision : Nat
  sent : Queues

instance : DecidableEq RequestBody := fun a b =>
  decidable_of_iff
    (a.deviceId = b.deviceId ∧ a.lastRevision = b.lastRevision ∧ a.sent = b.sent)
    (by cases a; cases b; simp)

structure Claim where
  claimId : Option String
  sent : Queues
  ownerId : Option String
  retiredAt : String
  body : Option RequestBody

instance : DecidableEq Claim := fun a b =>
  decidable_of_iff
    (a.claimId = b.claimId ∧ a.sent = b.sent ∧ a.ownerId = b.ownerId ∧
      a.retiredAt = b.retiredAt ∧ a.body = b.body)
    (by cases a; cases b; simp)

structure Selection where
  phase : String
  generation : Nat
  explicit : Bool
  deriving DecidableEq, Repr

structure Lifecycle where
  consumedCompletions : List Json
  pendingBreaks : List Json
  finishEvidence : List Json
  deriving DecidableEq, Repr

structure CompletionState where
  selection : Selection
  lifecycle : Option Lifecycle
  deriving DecidableEq, Repr

structure Settings where
  selectedPhase : Option String
  autoStartBreaks : Option Bool
  autoStartBreaksExplicit : Option Bool
  selectedTaskId : Option String
  durationSyncBootstrapped : Bool
  autoStartSyncBootstrapped : Bool
  selectedTaskSyncBootstrapped : Bool
  pendingDurationOperations : Option (List Operation)
  deriving DecidableEq, Repr

structure TimerOwner where
  timerId : String
  deviceId : String
  tabId : String
  leaseExpiresAtMs : Nat
  deriving DecidableEq, Repr

structure Observation where
  canonicalAnchorAt : Option Json
  commandTimes : List (String × Json)
  deriving DecidableEq, Repr

/-- All records of the database. -/
structure Database where
  snapshot : Option Snapshot
  settings : Option Settings
  deviceId : Option String
  deviceSequence : Option Nat
  hlc : Option Clock
  uuidV7 : Option String
  clockOffset : Option ClockSample
  clockRequestSequence : Option Nat
  canonicalHead : Option Clock
  deliveryProof : Option Ids
  projectionPending : Option Queues
  outgoingSync : Option Claim
  timerDependencies : Option Json
  workspaceObservation : Option Observation
  workspaceGroups : List Json
  completionRecords : List (String × Json)
  completionState : Option CompletionState
  displayHistory : Option Json
  timerOwner : Option TimerOwner
  batchNextDomain : Option Domain
  bootstrapGate : Option Gate
  bootstrapResolution : Option Resolution
  sourceAcknowledgements : Option Json
  canonicalResponse : Option Json
  reconciledWorkspace : Option Json
  queues : Queues

def Database.empty : Database where
  snapshot := none
  settings := none
  deviceId := none
  deviceSequence := none
  hlc := none
  uuidV7 := none
  clockOffset := none
  clockRequestSequence := none
  canonicalHead := none
  deliveryProof := none
  projectionPending := none
  outgoingSync := none
  timerDependencies := none
  workspaceObservation := none
  workspaceGroups := []
  completionRecords := []
  completionState := none
  displayHistory := none
  timerOwner := none
  batchNextDomain := none
  bootstrapGate := none
  bootstrapResolution := none
  sourceAcknowledgements := none
  canonicalResponse := none
  reconciledWorkspace := none
  queues := fun _ => []

/-- The account that the snapshot is of. -/
def Database.owner (database : Database) : Option String := database.snapshot.bind Snapshot.owner

/-! ## Object stores -/

/-- `put` of an object store with key path `id`. -/
def put (store : List Operation) (operation : Operation) : List Operation :=
  store.filter (fun stored => stored.id ≠ operation.id) ++ [operation]

/-- `delete` of an object store. -/
def delete (store : List Operation) (id : String) : List Operation :=
  store.filter fun stored => stored.id ≠ id

/-- `add` of an object store: a taken key aborts the transaction. -/
def add (store : List Operation) (operation : Operation) : Except StorageError (List Operation) := do
  check (operation.id ∉ ids store) .constraint
  .ok (store ++ [operation])

def putAll (store operations : List Operation) : List Operation := operations.foldl put store

def deleteAll (store : List Operation) (keys : List String) : List Operation :=
  keys.foldl delete store

def addAll : List Operation → List Operation → Except StorageError (List Operation)
  | store, [] => .ok store
  | store, operation :: operations => do
    let store ← add store operation
    addAll store operations

/-- `addAll` on each of the five stores. -/
def addQueues (queues operations : Queues) : Except StorageError Queues := do
  let commands ← addAll (queues .commands) (operations .commands)
  let taskOperations ← addAll (queues .taskOperations) (operations .taskOperations)
  let durationOperations ← addAll (queues .durationOperations) (operations .durationOperations)
  let autoStartOperations ← addAll (queues .autoStartOperations) (operations .autoStartOperations)
  let selectedTaskOperations ←
    addAll (queues .selectedTaskOperations) (operations .selectedTaskOperations)
  .ok fun
    | .commands => commands
    | .taskOperations => taskOperations
    | .durationOperations => durationOperations
    | .autoStartOperations => autoStartOperations
    | .selectedTaskOperations => selectedTaskOperations

/-- The queues with another list of one domain. -/
def Queues.set (queues : Queues) (domain : Domain) (operations : List Operation) : Queues :=
  fun d => if d = domain then operations else queues d

section
variable {store operations : List Operation} {operation x : Operation} {id : String}
  {keys : List String} {queues added : Queues} {d e : Domain}

@[simp] theorem Queues.set_self : queues.set d operations d = operations := if_pos rfl

theorem Queues.set_ne (h : e ≠ d) : queues.set d operations e = queues e := if_neg h

@[simp] theorem mem_ids : id ∈ ids store ↔ ∃ x ∈ store, x.id = id := List.mem_map

theorem mem_put : x ∈ put store operation ↔ x = operation ∨ x ∈ store ∧ x.id ≠ operation.id := by
  simp [put, or_comm]

theorem mem_delete : x ∈ delete store id ↔ x ∈ store ∧ x.id ≠ id := by
  simp [delete]

theorem ids_put : id ∈ ids (put store operation) ↔ id = operation.id ∨ id ∈ ids store := by
  simp only [mem_ids, mem_put]
  constructor
  · rintro ⟨x, rfl | ⟨hx, _⟩, rfl⟩
    · exact Or.inl rfl
    · exact Or.inr ⟨x, hx, rfl⟩
  · intro h
    by_cases heq : id = operation.id
    · exact ⟨operation, Or.inl rfl, heq.symm⟩
    · obtain ⟨x, hx, rfl⟩ := h.resolve_left heq
      exact ⟨x, Or.inr ⟨hx, heq⟩, rfl⟩

theorem mem_deleteAll : x ∈ deleteAll store keys ↔ x ∈ store ∧ x.id ∉ keys := by
  unfold deleteAll
  induction keys generalizing store with
  | nil => simp
  | cons key keys ih =>
    rw [List.foldl_cons, ih, mem_delete, List.mem_cons, not_or, and_assoc]

theorem ids_deleteAll : id ∈ ids (deleteAll store keys) ↔ id ∈ ids store ∧ id ∉ keys := by
  simp only [mem_ids, mem_deleteAll]
  constructor
  · rintro ⟨x, ⟨hx, hkey⟩, rfl⟩
    exact ⟨⟨x, hx, rfl⟩, hkey⟩
  · rintro ⟨⟨x, hx, rfl⟩, hkey⟩
    exact ⟨x, ⟨hx, hkey⟩, rfl⟩

theorem ids_putAll : id ∈ ids (putAll store operations) ↔ id ∈ ids operations ∨ id ∈ ids store := by
  unfold putAll
  induction operations generalizing store with
  | nil => simp [ids]
  | cons operation operations ih =>
    rw [List.foldl_cons, ih, ids_put]
    simp only [ids, List.map_cons, List.mem_cons]
    tauto

/-- An operation whose id is not put again stays as it is. -/
theorem mem_putAll_of_not_mem (hx : x ∈ store) (hid : x.id ∉ ids operations) :
    x ∈ putAll store operations := by
  unfold putAll
  induction operations generalizing store with
  | nil => exact hx
  | cons operation operations ih =>
    simp only [ids, List.map_cons, List.mem_cons, not_or] at hid
    exact ih (mem_put.mpr (Or.inr ⟨hx, hid.1⟩)) hid.2

/-- What a successful `addAll` leaves in the store. -/
theorem addAll_ok {result : List Operation} (h : addAll store operations = .ok result) :
    result = store ++ operations ∧ ∀ id ∈ ids operations, id ∉ ids store := by
  induction operations generalizing store with
  | nil =>
    cases h
    simp [ids]
  | cons operation operations ih =>
    obtain ⟨store', hadd, h⟩ := bind_ok_iff.mp h
    obtain ⟨_, hfree, hstore⟩ := bind_ok_iff.mp hadd
    rw [check_ok_iff] at hfree
    cases hstore
    obtain ⟨rfl, hrest⟩ := ih h
    refine ⟨by simp, ?_⟩
    intro id hid
    simp only [ids, List.map_cons, List.mem_cons] at hid
    rcases hid with rfl | hid
    · exact hfree
    · intro hmem
      apply hrest id hid
      simp only [ids, List.map_append, List.mem_append]
      exact Or.inl hmem

/-- What a successful `addQueues` leaves in the stores. -/
theorem addQueues_ok {result : Queues} (h : addQueues queues added = .ok result) :
    (∀ d, result d = queues d ++ added d) ∧ ∀ d, ∀ id ∈ ids (added d), id ∉ ids (queues d) := by
  obtain ⟨_, hc, h⟩ := bind_ok_iff.mp h
  obtain ⟨_, ht, h⟩ := bind_ok_iff.mp h
  obtain ⟨_, hd, h⟩ := bind_ok_iff.mp h
  obtain ⟨_, ha, h⟩ := bind_ok_iff.mp h
  obtain ⟨_, hs, h⟩ := bind_ok_iff.mp h
  cases h
  constructor <;> intro d <;> cases d
  exacts [(addAll_ok hc).1, (addAll_ok ht).1, (addAll_ok hd).1, (addAll_ok ha).1, (addAll_ok hs).1,
    (addAll_ok hc).2, (addAll_ok ht).2, (addAll_ok hd).2, (addAll_ok ha).2, (addAll_ok hs).2]

end

/-! ## Delivery proof -/

def emptyDeliveryProof : Ids := fun _ => []

/-- `sanitizeDeliveryProof`. -/
def sanitizeDeliveryProof (proof : Option Ids) : Ids :=
  match proof with
  | none => emptyDeliveryProof
  | some proof => fun domain => ((proof domain).filter (· ≠ "")).eraseDups

/-- `removeProofIds`. -/
def removeProofIds (proof : Option Ids) (sent : Queues) : Ids := fun domain =>
  (sanitizeDeliveryProof proof domain).filter fun id => id ∉ ids (sent domain)

/-- `neverSentFromProof`. -/
def neverSentFromProof (proof : Option Ids) (queues : Queues) (sent : Option Queues) : Ids :=
  fun domain => (sanitizeDeliveryProof proof domain).filter fun id =>
    id ∈ ids (queues domain) ∧ id ∉ ids ((sent.getD fun _ => []) domain)

/-- The id is in the stored proof. -/
def Proven (proof : Option Ids) (domain : Domain) (id : String) : Prop :=
  ∃ ids ∈ proof, id ∈ ids domain

section
variable {proof : Option Ids} {queues sent : Queues} {outgoing : Option Queues} {d : Domain}
  {id : String}

theorem mem_sanitizeDeliveryProof :
    id ∈ sanitizeDeliveryProof proof d ↔ Proven proof d id ∧ id ≠ "" := by
  cases proof with
  | none => simp [sanitizeDeliveryProof, emptyDeliveryProof, Proven]
  | some proof => simp [sanitizeDeliveryProof, Proven]

theorem mem_removeProofIds :
    id ∈ removeProofIds proof sent d ↔
      (Proven proof d id ∧ id ≠ "") ∧ id ∉ ids (sent d) := by
  simp [removeProofIds, mem_sanitizeDeliveryProof]

theorem mem_neverSentFromProof :
    id ∈ neverSentFromProof proof queues outgoing d ↔
      (Proven proof d id ∧ id ≠ "") ∧ id ∈ ids (queues d) ∧
        id ∉ ids ((outgoing.getD fun _ => []) d) := by
  simp [neverSentFromProof, mem_sanitizeDeliveryProof]

end

end Pomodorough.Web
