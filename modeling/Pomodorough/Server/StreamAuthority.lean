import Pomodorough.Library.Members
import Pomodorough.Server.RequestFence

/-! # Streams and the revocation of their sessions

`handleStream` authenticates, subscribes, makes its starting read and serves.
A handler that revokes sessions commits the revocation and then disconnects the
streams in the hub. Every store call is one step here, and the requests of one
account take their steps in any order. -/
namespace Pomodorough.Server.StreamAuthority
open Pomodorough.Library.AtomicSteps Pomodorough.Library.Members
open Pomodorough.Store.Records Pomodorough.Store.SharedCoreValidation Pomodorough.Store.SharedCore
open Pomodorough.Store.DeletionLedger Pomodorough.Store.Accounts Pomodorough.Store.LedgerSpec
open Pomodorough.Store.Bootstrap Pomodorough.Store.Orderly Pomodorough.Store.LockedCalls Pomodorough.Store.GenerationFence
open Pomodorough.Store
open Pomodorough.Store.AccountRuns (absentTimerCore)
open Pomodorough.Server.Hub Pomodorough.Server.Principals Pomodorough.Server.RequestFence
open Relation (ReflTransGen)

/-! ## Requests of an account -/

/-- Where `handleStream` is; `id` is its subscription, which a closed hub does
not give. -/
inductive StreamPhase where
  | authenticated
  | subscribed (id : Option Nat)
  | read (id : Option Nat) (calls : List HubCall)
  | serving (id : Option Nat)
  | ended (id : Option Nat)

/-- The starting read has gone well. -/
def StreamPhase.Served : StreamPhase → Prop
  | .read .. | .serving _ => True
  | _ => False

def StreamPhase.id : StreamPhase → Option Nat
  | .authenticated => none
  | .subscribed id | .read id _ | .serving id | .ended id => id

/-- Where any other handler is; a handler whose store call fails is gone. -/
inductive HandlerPhase where
  | admitted
  | committed (calls : List HubCall)
  | returned

structure Stream where
  identity : Principal
  phase : StreamPhase

structure Handler where
  operation : Operation
  identity : Principal
  phase : HandlerPhase

/-- The account, the hub, and the requests that have authenticated. -/
structure System where
  disk : AccountDisk
  hub : RevisionHub
  admitted : List (Request × Principal)
  streams : List Stream
  handlers : List Handler

def System.initial : System where
  disk := .blank
  hub := .empty
  admitted := []
  streams := []
  handlers := []

/-- The hub calls of a handler, for its own user and generation. -/
def performCalls (userID : String) (identity : Principal) (calls : List HubCall)
    (hub : RevisionHub) : RevisionHub :=
  calls.foldl (fun hub call => call.perform userID identity.generation hub) hub

/-- The subscription a call of `subscribe` gives. -/
def subscriptionID (hub : RevisionHub) : Option Nat :=
  if hub.closed then none else some (hub.nextID + 1)

/-- Sign-ins, refreshes and deletions outside of any request. -/
def storeCall : LockedCall → Bool
  | .signIn .. | .refresh .. | .deleteUser .. => true
  | .restart .. | .operate .. => false

/-- What a step is to the streams: one of them subscribes, or none does. -/
inductive Event where
  | subscribe (identity : Principal)
  | other

section
variable (core : Core) (sha256 : Sha256) (userID : String)

inductive Step : System → Event → System → Prop where
  | authenticate {s request identity disk}
      (h : (request.identify userID).exec s.disk = (.ok identity, disk)) :
      Step s .other { s with disk, admitted := (request, identity) :: s.admitted }
  | openStream {s request identity before after}
      (h : s.admitted = before ++ (request, identity) :: after)
      (hstream : request.operation = .stream) :
      Step s .other { s with
        admitted := before ++ after
        streams := ⟨identity, .authenticated⟩ :: s.streams }
  | subscribe {s identity before after}
      (h : s.streams = before ++ ⟨identity, .authenticated⟩ :: after) :
      Step s (.subscribe identity) { s with
        streams := before ++ ⟨identity, .subscribed (subscriptionID s.hub)⟩ :: after
        hub := HubCall.perform (.subscribe identity.sessionID identity.deviceID) userID
          identity.generation s.hub }
  | read {s identity id before after now clock answer disk}
      (h : s.streams = before ++ ⟨identity, .subscribed id⟩ :: after)
      (hread : (Operation.perform core sha256 .stream identity now clock).exec s.disk =
        (.ok answer, disk)) :
      Step s .other { s with
        disk
        streams := before ++
          ⟨identity, .read id (Operation.hubCalls .stream identity answer)⟩ :: after }
  | refuse {s identity id before after now clock e disk}
      (h : s.streams = before ++ ⟨identity, .subscribed id⟩ :: after)
      (hread : (Operation.perform core sha256 .stream identity now clock).exec s.disk =
        (.error e, disk)) :
      Step s .other { s with disk, streams := before ++ ⟨identity, .ended id⟩ :: after }
  | serve {s identity id calls before after}
      (h : s.streams = before ++ ⟨identity, .read id calls⟩ :: after) :
      Step s .other { s with
        streams := before ++ ⟨identity, .serving id⟩ :: after
        hub := performCalls userID identity calls s.hub }
  /-- The client is gone, a write failed or the channel was closed. -/
  | finish {s identity id before after}
      (h : s.streams = before ++ ⟨identity, .serving id⟩ :: after) :
      Step s .other { s with streams := before ++ ⟨identity, .ended id⟩ :: after }
  | unsubscribe {s identity id before after}
      (h : s.streams = before ++ ⟨identity, .ended (some id)⟩ :: after) :
      Step s .other { s with
        streams := before ++ after
        hub := HubCall.perform (.unsubscribe id) userID identity.generation s.hub }
  | handle {s request identity before after}
      (h : s.admitted = before ++ (request, identity) :: after)
      (hother : request.operation ≠ .stream) :
      Step s .other { s with
        admitted := before ++ after
        handlers := ⟨request.operation, identity, .admitted⟩ :: s.handlers }
  | commit {s operation identity before after now clock answer disk}
      (h : s.handlers = before ++ ⟨operation, identity, .admitted⟩ :: after)
      (hcommit : (operation.perform core sha256 identity now clock).exec s.disk =
        (.ok answer, disk)) :
      Step s .other { s with
        disk
        handlers := before ++
          ⟨operation, identity, .committed (operation.hubCalls identity answer)⟩ :: after }
  | fail {s operation identity before after now clock e disk}
      (h : s.handlers = before ++ ⟨operation, identity, .admitted⟩ :: after)
      (hfail : (operation.perform core sha256 identity now clock).exec s.disk = (.error e, disk)) :
      Step s .other { s with disk, handlers := before ++ after }
  /-- The handler calls the hub and returns. -/
  | disconnect {s operation identity calls before after}
      (h : s.handlers = before ++ ⟨operation, identity, .committed calls⟩ :: after) :
      Step s .other { s with
        handlers := before ++ ⟨operation, identity, .returned⟩ :: after
        hub := performCalls userID identity calls s.hub }
  | store {s call r disk} (hcall : storeCall call = true)
      (h : (call.body core sha256).exec s.disk = (r, disk)) : Step s .other { s with disk }
  | outside {s} (call : HubCall) (scope : RevisionScope) (hother : scope.userID ≠ userID) :
      Step s .other { s with hub := call.perform scope.userID scope.generation s.hub }
  | shutdown {s} : Step s .other { s with hub := s.hub.shutdown }
  | restart {s r disk clock}
      (h : ((LockedCall.restart clock).body core sha256).exec s.disk = (r, disk)) :
      Step s .other { System.initial with disk }

/-- Runs whose steps all satisfy `ok`. -/
def Runs (ok : System → Event → Prop) : System → System → Prop :=
  ReflTransGen fun s s' => ∃ event, Step core sha256 userID s event s' ∧ ok s event

end

/-- Whose sessions a handler revokes: a logout its own, a device revocation
those of the device, a deletion those of the account. -/
def Revokes (operation : Operation) (handler stream : Principal) : Prop :=
  handler.generation = stream.generation ∧ match operation with
    | .revokeSession => stream.sessionID = handler.sessionID
    | .revokeDevice deviceID => stream.deviceID = deviceID
    | .deleteAccount => True
    | _ => False

/-- The stream's channel is in the hub. -/
def Subscribed (userID : String) (hub : RevisionHub) (stream : Stream) : Prop :=
  ∃ subscription ∈ hub.streams ⟨userID, stream.identity.generation⟩,
    stream.phase.id = some subscription.id

/-- No stream subscribes after a logout or a device revocation of its session
has returned. -/
def Timely (s : System) : Event → Prop
  | .subscribe identity => ∀ handler ∈ s.handlers, handler.phase = .returned →
      Revokes handler.operation handler.identity identity → handler.operation = .deleteAccount
  | .other => True

/-! ## Invariant -/

/-- The operations after which a handler disconnects streams. -/
def Revoking : Operation → Prop
  | .revokeSession | .revokeDevice _ | .deleteAccount => True
  | _ => False

structure Invariant (userID : String) (s : System) : Prop where
  account : OrderlyAccount s.disk
  admitted : ∀ entry ∈ s.admitted, Admitted entry.1 (.ok entry.2) s.disk
  possible : ∀ stream ∈ s.streams, Possible s.disk stream.identity
  calls : ∀ stream ∈ s.streams, ∀ id calls, stream.phase = .read id calls →
    ∀ call ∈ calls, call.subscribes = false
  handlers : ∀ handler ∈ s.handlers, Possible s.disk handler.identity ∧
    (handler.operation = .deleteAccount → handler.identity.credential.tokenHash ≠ 0)
  committed : ∀ handler ∈ s.handlers, ∀ calls, handler.phase = .committed calls →
    (∀ call ∈ calls, call.subscribes = false) ∧
      (Revoking handler.operation → calls = handler.operation.hubCalls handler.identity .done)
  deleted : ∀ handler ∈ s.handlers, handler.operation = .deleteAccount →
    handler.phase ≠ .admitted → handler.identity.generation ≤ tombstone s.disk
  bounded : ∀ generation, ∀ subscription ∈ s.hub.streams ⟨userID, generation⟩,
    subscription.id ≤ s.hub.nextID
  placed : ∀ stream ∈ s.streams, ∀ id, stream.phase.id = some id → id ≤ s.hub.nextID ∧
    ∀ subscription ∈ s.hub.streams ⟨userID, stream.identity.generation⟩, subscription.id = id →
      subscription.sessionID = stream.identity.sessionID ∧
        subscription.deviceID = stream.identity.deviceID
  cut : ∀ handler ∈ s.handlers, handler.phase = .returned → ∀ stream ∈ s.streams,
    Revokes handler.operation handler.identity stream.identity → Subscribed userID s.hub stream →
    handler.operation = .deleteAccount ∧ ¬ stream.phase.Served

section
variable {core : Core} {sha256 : Sha256} {userID : String} {s s' : System} {event : Event}

theorem subscribed_fewer {hub hub' : RevisionHub} (h : Fewer userID hub hub') {stream : Stream}
    (hsub : Subscribed userID hub' stream) : Subscribed userID hub stream := by
  obtain ⟨subscription, hmem, hid⟩ := hsub
  obtain ⟨old, hold, hsame, -⟩ := h.streams _ subscription hmem
  exact ⟨old, hold, hsame ▸ hid⟩

/-- The account moves on. -/
theorem Invariant.disk (h : Invariant userID s) {disk : AccountDisk} (hst : Onward s.disk disk) :
    Invariant userID { s with disk } where
  account := hst.orderly h.account
  admitted entry hmem := Admitted.onward (h.admitted entry hmem) hst
  possible stream hmem := (h.possible stream hmem).onward hst
  calls := h.calls
  handlers handler hmem := ⟨(h.handlers handler hmem).1.onward hst, (h.handlers handler hmem).2⟩
  committed := h.committed
  deleted handler hmem hop hphase := (h.deleted handler hmem hop hphase).trans hst.tombstone
  bounded := h.bounded
  placed := h.placed
  cut := h.cut

/-- Streams of the account leave the hub. -/
theorem Invariant.hub (h : Invariant userID s) {hub : RevisionHub} (hfewer : Fewer userID s.hub hub) :
    Invariant userID { s with hub } where
  account := h.account
  admitted := h.admitted
  possible := h.possible
  calls := h.calls
  handlers := h.handlers
  committed := h.committed
  deleted := h.deleted
  bounded generation subscription hmem := by
    obtain ⟨old, hold, hid, -⟩ := hfewer.streams generation subscription hmem
    exact hid ▸ (h.bounded generation old hold).trans hfewer.nextID
  placed stream hmem id hid := by
    obtain ⟨hle, hplaced⟩ := h.placed stream hmem id hid
    refine ⟨hle.trans hfewer.nextID, fun subscription hsub heq => ?_⟩
    obtain ⟨old, hold, hsame, hsession, hdevice⟩ := hfewer.streams _ subscription hsub
    obtain ⟨hsession', hdevice'⟩ := hplaced old hold (hsame.trans heq)
    exact ⟨hsession ▸ hsession', hdevice ▸ hdevice'⟩
  cut handler hmem hphase stream hstream hrevokes hsub :=
    h.cut handler hmem hphase stream hstream hrevokes (subscribed_fewer hfewer hsub)

theorem Invariant.setAdmitted (h : Invariant userID s) {admitted : List (Request × Principal)}
    (hadmitted : ∀ entry ∈ admitted, Admitted entry.1 (.ok entry.2) s.disk) :
    Invariant userID { s with admitted } :=
  ⟨h.account, hadmitted, h.possible, h.calls, h.handlers, h.committed, h.deleted, h.bounded, h.placed,
    h.cut⟩

/-- Every stream is an old one, or one of the same identity and subscription
that is not served against a handler. -/
theorem Invariant.setStreams (h : Invariant userID s) {streams : List Stream}
    (hstreams : ∀ stream ∈ streams, stream ∈ s.streams ∨ Possible s.disk stream.identity ∧
      (∀ id calls, stream.phase = .read id calls → ∀ call ∈ calls, call.subscribes = false) ∧
      (stream.phase.id = none ∨ ∃ old ∈ s.streams, old.identity = stream.identity ∧
        old.phase.id = stream.phase.id ∧ (stream.phase.Served → old.phase.Served ∨
          tombstone s.disk < stream.identity.generation))) :
    Invariant userID { s with streams } where
  account := h.account
  admitted := h.admitted
  possible stream hmem := by
    rcases hstreams stream hmem with hold | ⟨hpossible, -⟩
    · exact h.possible stream hold
    · exact hpossible
  calls stream hmem := by
    rcases hstreams stream hmem with hold | ⟨-, hcalls, -⟩
    · exact h.calls stream hold
    · exact hcalls
  handlers := h.handlers
  committed := h.committed
  deleted := h.deleted
  bounded := h.bounded
  placed stream hmem id hid := by
    rcases hstreams stream hmem with hold | ⟨-, -, hnone | ⟨old, hold, hidentity, hsame, -⟩⟩
    · exact h.placed stream hold id hid
    · rw [hnone] at hid
      cases hid
    · exact hidentity ▸ h.placed old hold id (hsame.trans hid)
  cut handler hmem hphase stream hstream hrevokes hsub := by
    rcases hstreams stream hstream with hold | ⟨-, -, hnone | ⟨old, hold, hidentity, hsame, hserved⟩⟩
    · exact h.cut handler hmem hphase stream hold hrevokes hsub
    · obtain ⟨subscription, -, hid⟩ := hsub
      rw [hnone] at hid
      cases hid
    · have hsub' : Subscribed userID s.hub old := by
        obtain ⟨subscription, hmem, hid⟩ := hsub
        exact ⟨subscription, hidentity ▸ hmem, hsame.trans hid⟩
      obtain ⟨hop, hnot⟩ := h.cut handler hmem hphase old hold (hidentity ▸ hrevokes) hsub'
      refine ⟨hop, fun hnow => ?_⟩
      rcases hserved hnow with hbefore | hlive
      · exact hnot hbefore
      · have hdeleted := h.deleted handler hmem hop (by rw [hphase]; simp)
        have hgeneration := hrevokes.1
        omega

/-- One stream goes on. -/
theorem Invariant.setStream (h : Invariant userID s) {before after : List Stream}
    {identity : Principal} {phase : StreamPhase} (phase' : StreamPhase)
    (hsplit : s.streams = before ++ ⟨identity, phase⟩ :: after) (hid : phase'.id = phase.id)
    (hcalls : ∀ id calls, phase' = .read id calls → ∀ call ∈ calls, call.subscribes = false)
    (hserved : phase'.Served → phase.Served ∨ tombstone s.disk < identity.generation) :
    Invariant userID { s with streams := before ++ ⟨identity, phase'⟩ :: after } := by
  have hmem : (⟨identity, phase⟩ : Stream) ∈ s.streams := by rw [hsplit]; simp
  refine h.setStreams fun stream hstream => ?_
  rcases mem_replaced hsplit hstream with rfl | hold
  · have hpossible : Possible s.disk identity := h.possible _ hmem
    exact .inr ⟨hpossible, hcalls, .inr ⟨_, hmem, rfl, hid.symm, hserved⟩⟩
  · exact .inl hold

/-- Every handler is an old one, or what becomes of one. -/
theorem Invariant.setHandlers (h : Invariant userID s) {handlers : List Handler}
    (hhandlers : ∀ handler ∈ handlers, handler ∈ s.handlers ∨
      (Possible s.disk handler.identity ∧
        (handler.operation = .deleteAccount → handler.identity.credential.tokenHash ≠ 0)) ∧
      (∀ calls, handler.phase = .committed calls → (∀ call ∈ calls, call.subscribes = false) ∧
        (Revoking handler.operation → calls = handler.operation.hubCalls handler.identity .done)) ∧
      (handler.operation = .deleteAccount → handler.phase ≠ .admitted →
        handler.identity.generation ≤ tombstone s.disk) ∧
      (handler.phase = .returned → ∀ stream ∈ s.streams,
        Revokes handler.operation handler.identity stream.identity →
        ¬ Subscribed userID s.hub stream)) :
    Invariant userID { s with handlers } where
  account := h.account
  admitted := h.admitted
  possible := h.possible
  calls := h.calls
  handlers handler hmem := by
    rcases hhandlers handler hmem with hold | ⟨hpossible, -⟩
    · exact h.handlers handler hold
    · exact hpossible
  committed handler hmem := by
    rcases hhandlers handler hmem with hold | ⟨-, hcommitted, -⟩
    · exact h.committed handler hold
    · exact hcommitted
  deleted handler hmem := by
    rcases hhandlers handler hmem with hold | ⟨-, -, hdeleted, -⟩
    · exact h.deleted handler hold
    · exact hdeleted
  bounded := h.bounded
  placed := h.placed
  cut handler hmem hphase stream hstream hrevokes hsub := by
    rcases hhandlers handler hmem with hold | ⟨-, -, -, hcut⟩
    · exact h.cut handler hold hphase stream hstream hrevokes hsub
    · exact absurd hsub (hcut hphase stream hstream hrevokes)

/-- A stream subscribes in time. -/
theorem Invariant.subscribe (h : Invariant userID s) {identity : Principal}
    {before after : List Stream} (hsplit : s.streams = before ++ ⟨identity, .authenticated⟩ :: after)
    (htimely : Timely s (.subscribe identity)) :
    Invariant userID { s with
      streams := before ++ ⟨identity, .subscribed (subscriptionID s.hub)⟩ :: after
      hub := HubCall.perform (.subscribe identity.sessionID identity.deviceID) userID
        identity.generation s.hub } := by
  by_cases hclosed : s.hub.closed = true
  · have hnone : subscriptionID s.hub = none := if_pos hclosed
    have hsame : HubCall.perform (.subscribe identity.sessionID identity.deviceID) userID
        identity.generation s.hub = s.hub := if_pos hclosed
    rw [hnone, hsame]
    refine h.setStreams fun stream hmem => ?_
    rcases mem_replaced hsplit hmem with rfl | hold
    · have hpossible := h.possible ⟨identity, .authenticated⟩ (by rw [hsplit]; simp)
      exact .inr ⟨hpossible, (by rintro _ _ ⟨⟩), .inl rfl⟩
    · exact .inl hold
  · have hsome : subscriptionID s.hub = some (s.hub.nextID + 1) := if_neg hclosed
    set entered : RevisionSubscription :=
      ⟨s.hub.nextID + 1, none, identity.sessionID, identity.deviceID⟩ with hentered
    set scope : RevisionScope := ⟨userID, identity.generation⟩ with hscope
    have hhub : HubCall.perform (.subscribe identity.sessionID identity.deviceID) userID
        identity.generation s.hub = ({ s.hub with nextID := s.hub.nextID + 1 } : RevisionHub).setStreams
          scope (s.hub.streams scope ++ [entered]) := if_neg hclosed
    rw [hsome, hhub]
    have hsubs : ∀ generation, ∀ subscription ∈ (({ s.hub with
        nextID := s.hub.nextID + 1 } : RevisionHub).setStreams scope
          (s.hub.streams scope ++ [entered])).streams ⟨userID, generation⟩,
        subscription ∈ s.hub.streams ⟨userID, generation⟩ ∨ subscription = entered := by
      intro generation subscription hmem
      by_cases heq : (⟨userID, generation⟩ : RevisionScope) = scope
      · rw [heq, streams_setStreams] at hmem
        rw [heq]
        exact (List.mem_append.mp hmem).imp_right List.mem_singleton.mp
      · rw [(onlyScope_setStreams _).streams _ heq] at hmem
        exact .inl hmem
    have hold : ∀ stream ∈ s.streams, ∀ generation, ∀ subscription ∈ (({ s.hub with
        nextID := s.hub.nextID + 1 } : RevisionHub).setStreams scope
          (s.hub.streams scope ++ [entered])).streams ⟨userID, generation⟩,
        stream.phase.id = some subscription.id →
        subscription ∈ s.hub.streams ⟨userID, generation⟩ := by
      intro stream hstream generation subscription hmem hid
      refine (hsubs generation subscription hmem).resolve_right ?_
      rintro rfl
      have hle := (h.placed stream hstream _ hid).1
      simp [hentered] at hle
    refine ⟨h.account, h.admitted, fun stream hmem => ?_, fun stream hmem => ?_, h.handlers,
      h.committed, h.deleted, fun generation subscription hmem => ?_, fun stream hmem id hid => ?_,
      fun handler hhandler hphase stream hmem hrevokes hsub => ?_⟩
    · rcases mem_replaced hsplit hmem with rfl | hmem
      · exact h.possible ⟨identity, .authenticated⟩ (by rw [hsplit]; simp)
      · exact h.possible stream hmem
    · rcases mem_replaced hsplit hmem with rfl | hmem
      · rintro _ _ ⟨⟩
      · exact h.calls stream hmem
    · rcases hsubs generation subscription hmem with hmem | rfl
      · exact Nat.le_succ_of_le (h.bounded generation subscription hmem)
      · exact le_rfl
    · rcases mem_replaced hsplit hmem with rfl | hmem
      · cases hid
        refine ⟨le_rfl, fun subscription hsub heq => ?_⟩
        rcases hsubs _ subscription hsub with hsub | rfl
        · have hle := h.bounded _ subscription hsub
          omega
        · exact ⟨rfl, rfl⟩
      · obtain ⟨hle, hplaced⟩ := h.placed stream hmem id hid
        exact ⟨Nat.le_succ_of_le hle, fun subscription hsub heq =>
          hplaced subscription (hold stream hmem _ subscription hsub (heq ▸ hid)) heq⟩
    · rcases mem_replaced hsplit hmem with rfl | hmem
      · exact ⟨htimely handler hhandler hphase hrevokes, id⟩
      · obtain ⟨subscription, hsub, hid⟩ := hsub
        exact h.cut handler hhandler hphase stream hmem hrevokes
          ⟨subscription, hold stream hmem _ subscription hsub hid, hid⟩

/-! ## Store calls -/

section
variable {operation : Operation} {identity : Principal} {now : Time} {clock : WallClock}
  {disk disk' : AccountDisk} {answer : Answer} {r : Except StoreError Answer}

theorem onward_of_steps {G : AccountDisk → AccountDisk → Prop} {s t : AccountDisk}
    (hG : ∀ a b, G a b → Onward a b) (h : ReflTransGen G s t) : Onward s t := by
  induction h with
  | refl => exact .refl s
  | tail _ hstep ih => exact ih.trans (hG _ _ hstep)

theorem exec_identify {request : Request} (ho : OrderlyAccount disk)
    (h : (request.identify userID).exec disk = (.ok identity, disk')) :
    Onward disk disk' ∧ Admitted request (.ok identity) disk' := by
  have hmeets : Meets Onward Foreign (Admitted request) (request.identify userID) disk :=
    identify_safe request ho disk (.refl disk)
  have hsteps := hmeets.exec_steps Onward.refl
  have hresult := hmeets.exec Onward.refl
  rw [h] at hsteps hresult
  exact ⟨onward_of_steps (fun _ _ => Foreign.onward) hsteps, hresult⟩

theorem exec_perform (ho : OrderlyAccount disk) (hid : Possible disk identity)
    (hhash : operation = .deleteAccount → identity.credential.tokenHash ≠ 0)
    (h : (operation.perform core sha256 identity now clock).exec disk = (r, disk')) :
    Onward disk disk' ∧ OperationOutcome core sha256 operation identity now disk r := by
  have hmeets : Meets Foreign (Moves Anything)
      (fun r _ => OperationOutcome core sha256 operation identity now disk r)
      (operation.perform core sha256 identity now clock) disk :=
    locked_perform ho hid trivial hhash
  have hsteps := hmeets.exec_steps Foreign.refl
  have hresult := hmeets.exec Foreign.refl
  rw [h] at hsteps hresult
  exact ⟨onward_of_steps (fun _ _ hmoves => hmoves.onward) hsteps, hresult⟩

/-- A store call outside of any request. -/
theorem exec_locked {call : LockedCall} (ho : OrderlyAccount disk)
    (hstart : call.start .initial .initial)
    (h : (call.body core sha256).exec disk = (r, disk')) : Onward disk disk' := by
  have hinorder : InOrder disk Traffic.initial :=
    ⟨ho, fun _ hmem => (by cases hmem), fun _ hmem => by cases hmem⟩
  have hmeets : Meets Foreign Onward (fun _ _ => True) (call.body core sha256) disk :=
    (hinorder.start hstart).2 disk (.refl disk)
  have hsteps := hmeets.exec_steps Foreign.refl
  rw [h] at hsteps
  exact onward_of_steps (fun _ _ => id) hsteps

/-- A deletion that succeeds leaves its tombstone. -/
theorem exec_deleteAccount (ho : OrderlyAccount disk) (hid : Possible disk identity)
    (h : (Operation.perform core sha256 .deleteAccount identity now clock).exec disk =
      (.ok answer, disk')) : identity.generation ≤ tombstone disk' := by
  obtain ⟨_, t, hdelete, hpure⟩ := Op.exec_bind_ok.mp h
  obtain rfl : t = disk' := (Prod.mk.injEq .. ▸ hpure).2
  have hmeets : Meets Foreign (Moves Anything)
      (fun r t => ReceiptDeletion identity.generation identity.credential identity.csrfHash
        (some identity.sessionID) disk r ∧ (r = .ok () → identity.generation ≤ tombstone t))
      (deleteUserWithReceipt identity.generation identity.credential identity.csrfHash
        (some identity.sessionID) clock) disk :=
    locked_deleteUserWithReceipt ho hid.1 hid.2 fun _ _ _ => trivial
  have hresult := (hmeets.exec Foreign.refl).2
  rw [hdelete] at hresult
  exact hresult rfl

/-- A starting read that succeeds finds its generation live. -/
theorem exec_stream (ho : OrderlyAccount disk) (hid : Possible disk identity)
    (h : (Operation.perform core sha256 .stream identity now clock).exec disk = (.ok answer, disk')) :
    tombstone disk < identity.generation := by
  have houtcome := (exec_perform ho hid (by rintro ⟨⟩) h).2
  generalize hr : (Except.ok answer : Except StoreError Answer) = r at houtcome
  cases houtcome with
  | answered hlive => exact hlive.live
  | failed hlive => exact hlive.live
  | receipted hop _ => cases hop
  | repeated hop _ => cases hop
  | refused _ => cases hr

theorem exec_revoking (hop : Revoking operation)
    (h : (operation.perform core sha256 identity now clock).exec disk = (.ok answer, disk')) :
    answer = .done := by
  cases operation with
  | revokeSession | revokeDevice _ | deleteAccount =>
    obtain ⟨_, t, -, hpure⟩ := Op.exec_bind_ok.mp h
    cases hpure
    rfl
  | _ => cases hop

theorem hubCalls_subscribes (operation : Operation) (identity : Principal) (answer : Answer) :
    ∀ call ∈ operation.hubCalls identity answer, call.subscribes = false := by
  intro call hcall
  unfold Operation.hubCalls at hcall
  split at hcall
  · split at hcall
    · cases List.mem_singleton.mp hcall
      rfl
    · cases hcall
  · split at hcall
    · cases List.mem_singleton.mp hcall
      rfl
    · cases hcall
  all_goals first | (cases List.mem_singleton.mp hcall; rfl) | cases hcall

end

theorem fewer_performCalls (identity : Principal) {calls : List HubCall}
    (hcalls : ∀ call ∈ calls, call.subscribes = false) (hub : RevisionHub) :
    Fewer userID hub (performCalls userID identity calls hub) := by
  induction calls generalizing hub with
  | nil => exact .refl _ _
  | cons call calls ih =>
    have hcall := call.fewer (hcalls call (List.mem_cons_self ..)) userID userID
      identity.generation hub
    exact hcall.trans (ih (fun other hother => hcalls other (List.mem_cons_of_mem _ hother)) _)

/-! ## Every step -/

theorem initial_invariant {disk : AccountDisk} (ho : OrderlyAccount disk) :
    Invariant userID { System.initial with disk } where
  account := ho
  admitted _ h := by cases h
  possible _ h := by cases h
  calls _ h := by cases h
  handlers _ h := by cases h
  committed _ h := by cases h
  deleted _ h := by cases h
  bounded generation subscription h := by
    change subscription ∈ (Finmap.lookup (⟨userID, generation⟩ : RevisionScope)
      (∅ : Finmap fun _ : RevisionScope => List RevisionSubscription)).getD [] at h
    rw [Finmap.lookup_empty] at h
    cases h
  placed _ h := by cases h
  cut _ h := by cases h

/-- The hub call of a revoking handler leaves none of the streams it is for. -/
theorem cut_off (h : Invariant userID s) {operation : Operation} {identity : Principal}
    {stream : Stream} (hstream : stream ∈ s.streams) (hop : Revoking operation)
    (hrevokes : Revokes operation identity stream.identity) :
    ¬ Subscribed userID (performCalls userID identity (operation.hubCalls identity .done) s.hub)
      stream := by
  rintro ⟨subscription, hmem, hid⟩
  obtain ⟨hgeneration, hmatch⟩ := hrevokes
  rw [← hgeneration] at hmem
  have hplaced := (h.placed stream hstream subscription.id hid).2
  rw [← hgeneration] at hplaced
  have hfiltered : ∀ keep : RevisionSubscription → Bool,
      subscription ∈ (s.hub.setStreams ⟨userID, identity.generation⟩
        ((s.hub.streams ⟨userID, identity.generation⟩).filter keep)).streams
          ⟨userID, identity.generation⟩ →
      keep subscription = true ∧ subscription.sessionID = stream.identity.sessionID ∧
        subscription.deviceID = stream.identity.deviceID := by
    intro keep hkeep
    rw [streams_setStreams] at hkeep
    obtain ⟨hold, hkeep⟩ := List.mem_filter.mp hkeep
    exact ⟨hkeep, hplaced subscription hold rfl⟩
  cases operation with
  | revokeSession =>
    obtain ⟨hkeep, hsession, -⟩ := hfiltered _ hmem
    simp [hsession, hmatch] at hkeep
  | revokeDevice deviceID =>
    obtain ⟨hkeep, -, hdevice⟩ := hfiltered _ hmem
    simp [hdevice, hmatch] at hkeep
  | deleteAccount =>
    change subscription ∈ (Finmap.lookup _ (s.hub.subscribers.erase _)).getD [] at hmem
    rw [Finmap.lookup_erase] at hmem
    cases hmem
  | _ => cases hop

theorem Invariant.step (h : Invariant userID s) (hstep : Step core sha256 userID s event s')
    (htimely : Timely s event) : Invariant userID s' := by
  cases hstep with
  | @authenticate request identity disk hexec =>
    obtain ⟨hst, hadmitted⟩ := exec_identify h.account hexec
    refine (h.disk hst).setAdmitted fun entry hmem => ?_
    rcases List.mem_cons.mp hmem with rfl | hmem
    · exact hadmitted
    · exact (h.disk hst).admitted entry hmem
  | @openStream request identity before after hsplit hstream =>
    have hentry := h.admitted (request, identity) (by rw [hsplit]; simp)
    have hleft := h.setAdmitted fun entry hmem => h.admitted entry (mem_removed hsplit hmem)
    refine hleft.setStreams fun stream hmem => ?_
    rcases List.mem_cons.mp hmem with rfl | hmem
    · exact .inr ⟨(hentry identity rfl).1, (by rintro _ _ ⟨⟩), .inl rfl⟩
    · exact .inl hmem
  | subscribe hsplit => exact h.subscribe hsplit htimely
  | @read identity id before after now clock answer disk hsplit hread =>
    have hpossible := h.possible ⟨identity, .subscribed id⟩ (by rw [hsplit]; simp)
    have hlive := exec_stream h.account hpossible hread
    have hst := (exec_perform h.account hpossible (by rintro ⟨⟩) hread).1
    have hnext := h.setStream (.read id (Operation.hubCalls .stream identity answer)) hsplit rfl
      (by rintro _ _ ⟨⟩; exact hubCalls_subscribes _ _ _) fun _ => .inr hlive
    exact hnext.disk hst
  | @refuse identity id before after now clock e disk hsplit hread =>
    have hpossible := h.possible ⟨identity, .subscribed id⟩ (by rw [hsplit]; simp)
    have hst := (exec_perform h.account hpossible (by rintro ⟨⟩) hread).1
    have hnext := h.setStream (.ended id) hsplit rfl (by rintro _ _ ⟨⟩) False.elim
    exact hnext.disk hst
  | @serve identity id calls before after hsplit =>
    have hcalls := h.calls ⟨identity, .read id calls⟩ (by rw [hsplit]; simp) id calls rfl
    have hnext := h.setStream (.serving id) hsplit rfl (by rintro _ _ ⟨⟩) .inl
    exact hnext.hub (fewer_performCalls identity hcalls s.hub)
  | @finish identity id before after hsplit =>
    exact h.setStream (.ended id) hsplit rfl (by rintro _ _ ⟨⟩) False.elim
  | @unsubscribe identity id before after hsplit =>
    have hfewer : Fewer userID s.hub ((HubCall.unsubscribe id).perform userID identity.generation s.hub) :=
      HubCall.fewer rfl userID userID identity.generation s.hub
    exact (h.hub hfewer).setStreams fun stream hstream => .inl (mem_removed hsplit hstream)
  | @handle request identity before after hsplit hother =>
    have hentry := h.admitted (request, identity) (by rw [hsplit]; simp)
    have hleft := h.setAdmitted fun entry hmem => h.admitted entry (mem_removed hsplit hmem)
    refine hleft.setHandlers fun handler hmem => ?_
    rcases List.mem_cons.mp hmem with rfl | hmem
    · exact .inr ⟨hentry identity rfl, (by rintro _ ⟨⟩), fun _ hphase => absurd rfl hphase,
        (by rintro ⟨⟩)⟩
    · exact .inl hmem
  | @commit operation identity before after now clock answer disk hsplit hcommit =>
    have hmem : (⟨operation, identity, .admitted⟩ : Handler) ∈ s.handlers := by rw [hsplit]; simp
    obtain ⟨hpossible, hhash⟩ := h.handlers _ hmem
    have hst := (exec_perform h.account hpossible hhash hcommit).1
    have hnext := h.disk hst
    refine hnext.setHandlers fun handler hhandler => ?_
    rcases mem_replaced hsplit hhandler with rfl | hold
    · refine .inr ⟨⟨hpossible.onward hst, hhash⟩, ?_, fun hop _ => ?_, (by rintro ⟨⟩)⟩
      · rintro _ ⟨⟩
        refine ⟨hubCalls_subscribes _ _ _, fun hop => ?_⟩
        rw [exec_revoking hop hcommit]
      · obtain rfl : operation = .deleteAccount := hop
        exact exec_deleteAccount h.account hpossible hcommit
    · exact .inl hold
  | @fail operation identity before after now clock e disk hsplit hfail =>
    have hmem : (⟨operation, identity, .admitted⟩ : Handler) ∈ s.handlers := by rw [hsplit]; simp
    obtain ⟨hpossible, hhash⟩ := h.handlers _ hmem
    have hst := (exec_perform h.account hpossible hhash hfail).1
    exact (h.disk hst).setHandlers fun handler hhandler => .inl (mem_removed hsplit hhandler)
  | @disconnect operation identity calls before after hsplit =>
    have hmem : (⟨operation, identity, .committed calls⟩ : Handler) ∈ s.handlers := by
      rw [hsplit]; simp
    obtain ⟨hcalls, hdone⟩ := h.committed _ hmem calls rfl
    have hpossible : Possible s.disk identity ∧
        (operation = .deleteAccount → identity.credential.tokenHash ≠ 0) := h.handlers _ hmem
    have hdeleted : operation = .deleteAccount → identity.generation ≤ tombstone s.disk :=
      fun hop => h.deleted _ hmem hop (by simp)
    have hnext := h.hub (fewer_performCalls identity hcalls s.hub)
    refine hnext.setHandlers fun handler hhandler => ?_
    rcases mem_replaced hsplit hhandler with rfl | hold
    · refine .inr ⟨hpossible, (by rintro _ ⟨⟩), fun hop _ => hdeleted hop, fun _ stream hstream
        hrevokes => ?_⟩
      · have hop : Revoking operation := by
          obtain ⟨-, hmatch⟩ := hrevokes
          cases operation <;> trivial
        rw [hdone hop]
        exact cut_off h hstream hop hrevokes
    · exact .inl hold
  | @store call r disk hcall hexec =>
    have hstart : call.start .initial .initial := by
      cases call <;> first | rfl | cases hcall
    exact h.disk (exec_locked h.account hstart hexec)
  | outside call scope hother =>
    exact h.hub (call.fewer_outside hother scope.generation s.hub)
  | shutdown => exact h.hub (fewer_shutdown userID s.hub)
  | @restart r disk clock hexec =>
    have hstart : (LockedCall.restart clock).start .initial .initial := rfl
    have hst := exec_locked h.account hstart hexec
    exact initial_invariant (hst.orderly h.account)

theorem run_invariant (hrun : Runs core sha256 userID Timely System.initial s) :
    Invariant userID s := by
  have hblank : OrderlyAccount AccountDisk.blank := initial_inOrder.account
  induction hrun with
  | refl => exact initial_invariant hblank
  | tail _ hstep ih =>
    obtain ⟨event, hstep, htimely⟩ := hstep
    exact ih.step hstep htimely

end

/-- No stream outlives its authority: in every run in which no stream subscribes
after a logout or a device revocation of its session has returned, once a
handler has returned no stream of a session it revoked is both subscribed and
served. After a logout or a device revocation none is subscribed at all, and
after a deletion every starting read fails. -/
theorem no_stream_outlives_its_authority {core : Core} {sha256 : Sha256} {userID : String}
    {s : System} (hrun : Runs core sha256 userID Timely System.initial s) {handler : Handler}
    {stream : Stream} (hhandler : handler ∈ s.handlers) (hreturned : handler.phase = .returned)
    (hstream : stream ∈ s.streams)
    (hrevokes : Revokes handler.operation handler.identity stream.identity) :
    ¬ (Subscribed userID s.hub stream ∧ stream.phase.Served) ∧
    (handler.operation ≠ .deleteAccount → ¬ Subscribed userID s.hub stream) ∧
    (handler.operation = .deleteAccount → ∀ now clock answer disk,
      (Operation.perform core sha256 .stream stream.identity now clock).exec s.disk ≠
        (.ok answer, disk)) := by
  have h := run_invariant hrun
  refine ⟨fun ⟨hsub, hserved⟩ => ?_, fun hop hsub => ?_, fun hop now clock answer disk hread => ?_⟩
  · exact (h.cut handler hhandler hreturned stream hstream hrevokes hsub).2 hserved
  · exact hop (h.cut handler hhandler hreturned stream hstream hrevokes hsub).1
  · have hlive := exec_stream h.account (h.possible stream hstream) hread
    have hdeleted := h.deleted handler hhandler hop (by rw [hreturned]; simp)
    have hgeneration := hrevokes.1
    omega

/-! ## A stream and a logout -/

section
variable {ok : System → Event → Prop} {s s' : System} {event : Event}

theorem Runs.step (h : Step absentTimerCore noHash "user" s event s') (hok : ok s event) :
    Runs absentTimerCore noHash "user" ok s s' := .single ⟨event, h, hok⟩

/-- The account after the logout of its session. -/
def loggedOut : AccountDisk :=
  ((Operation.perform absentTimerCore noHash .revokeSession sessionPrincipal ⟨0, 0⟩ firstClock).exec
    signedInDisk).2

def logout (phase : HandlerPhase) : Handler := ⟨.revokeSession, sessionPrincipal, phase⟩

/-- A stream and a logout of one session have authenticated. -/
def bothAdmitted : System where
  disk := signedInDisk
  hub := .empty
  admitted := []
  streams := [⟨sessionPrincipal, .authenticated⟩]
  handlers := [logout .admitted]

theorem runs_bothAdmitted (hok : ∀ s, ok s .other) :
    Runs absentTimerCore noHash "user" ok System.initial bothAdmitted := by
  have hsignIn : (signIn.body absentTimerCore noHash).exec .blank = (.ok .done, signedInDisk) := rfl
  have hidentify : ∀ operation, operation = .stream ∨ operation = .revokeSession →
      ((sessionRequest operation).identify "user").exec signedInDisk =
        (.ok sessionPrincipal, signedInDisk) := by
    rintro _ (rfl | rfl) <;> rfl
  have hlogout : (sessionRequest .revokeSession).operation ≠ .stream := by simp [sessionRequest]
  let admitted (operation : Operation) : List (Request × Principal) :=
    [(sessionRequest operation, sessionPrincipal)]
  let streams : List Stream := [⟨sessionPrincipal, .authenticated⟩]
  refine (Runs.step (.store rfl hsignIn) (hok _)).trans ?_
  refine (Runs.step (.authenticate (hidentify _ (.inl rfl))) (hok _)).trans ?_
  refine (Runs.step (@Step.openStream _ _ _ ⟨signedInDisk, .empty, admitted .stream, [], []⟩ _ _
    [] [] rfl rfl) (hok _)).trans ?_
  refine (Runs.step (.authenticate (hidentify _ (.inr rfl))) (hok _)).trans ?_
  exact Runs.step (@Step.handle _ _ _ ⟨signedInDisk, .empty, admitted .revokeSession, streams, []⟩
    _ _ [] [] rfl hlogout) (hok _)

/-- The logout goes through whatever the stream does. -/
theorem runs_logout (hok : ∀ s, ok s .other) (hub : RevisionHub) (streams : List Stream) :
    Runs absentTimerCore noHash "user" ok
      ⟨signedInDisk, hub, [], streams, [logout .admitted]⟩
      ⟨loggedOut, hub.disconnectSession "user" 1 "session", [], streams, [logout .returned]⟩ := by
  have hcommit : (Operation.perform absentTimerCore noHash .revokeSession sessionPrincipal ⟨0, 0⟩
      firstClock).exec signedInDisk = (.ok .done, loggedOut) := rfl
  refine (Runs.step (@Step.commit _ _ _ ⟨signedInDisk, hub, [], streams, [logout .admitted]⟩ _ _
    [] [] _ _ _ _ rfl hcommit) (hok _)).trans ?_
  exact Runs.step (@Step.disconnect _ _ _ ⟨loggedOut, hub, [], streams,
    [logout (.committed [.disconnectSession "session"])]⟩ _ _ _ [] [] rfl) (hok _)

theorem step_subscribe (disk : AccountDisk) (handlers : List Handler) :
    Step absentTimerCore noHash "user"
      ⟨disk, .empty, [], [⟨sessionPrincipal, .authenticated⟩], handlers⟩ (.subscribe sessionPrincipal)
      ⟨disk, RevisionHub.empty.subscribe "user" 1 "session" "", [],
        [⟨sessionPrincipal, .subscribed (some 1)⟩], handlers⟩ :=
  @Step.subscribe _ _ _ ⟨disk, .empty, [], [⟨sessionPrincipal, .authenticated⟩], handlers⟩ _ [] []
    rfl

end

/-- The stream subscribed before the logout. -/
theorem authority_in_time : ¬ Subscribed "user"
    ((RevisionHub.empty.subscribe "user" 1 "session" "").disconnectSession "user" 1 "session")
    ⟨sessionPrincipal, .subscribed (some 1)⟩ := by
  have htimely : Timely bothAdmitted (.subscribe sessionPrincipal) := by
    intro handler hmem hphase
    obtain rfl := List.mem_singleton.mp hmem
    cases hphase
  have hrun := ((runs_bothAdmitted fun _ => trivial).trans
    (Runs.step (step_subscribe _ _) htimely)).trans (runs_logout (fun _ => trivial) _ _)
  exact (no_stream_outlives_its_authority hrun (List.mem_singleton_self _) rfl
    (List.mem_singleton_self _) ⟨rfl, rfl⟩).2.1 (by simp [logout])

/-- A stream that subscribes after the logout of its session is served. -/
theorem logout_misses_stream : ¬ ∀ s,
    Runs absentTimerCore noHash "user" (fun _ _ => True) System.initial s →
    ∀ handler ∈ s.handlers, handler.phase = .returned → ∀ stream ∈ s.streams,
      Revokes handler.operation handler.identity stream.identity →
      ¬ (Subscribed "user" s.hub stream ∧ stream.phase.Served) := by
  intro h
  let ok : System → Event → Prop := fun _ _ => True
  have hread : ∃ answer disk, (Operation.perform absentTimerCore noHash .stream sessionPrincipal
      ⟨0, 0⟩ firstClock).exec loggedOut = (.ok answer, disk) := ⟨_, _, rfl⟩
  obtain ⟨answer, disk, hread⟩ := hread
  have hempty : RevisionHub.empty.disconnectSession "user" 1 "session" = .empty := rfl
  have hlogout : Runs absentTimerCore noHash "user" ok bothAdmitted _ :=
    runs_logout (fun _ => trivial) .empty _
  rw [hempty] at hlogout
  have hsubscribed := ((runs_bothAdmitted fun _ => trivial).trans hlogout).trans
    (Runs.step (step_subscribe _ _) trivial)
  have hserved := hsubscribed.trans (Runs.step (@Step.read _ _ _ ⟨loggedOut, _, [], _, _⟩ _ _
    [] [] _ _ _ _ rfl hread) trivial)
  refine h _ hserved (logout .returned) (List.mem_singleton_self _) rfl _
    (List.mem_singleton_self _) ⟨rfl, rfl⟩ ⟨⟨⟨1, none, "session", ""⟩, ?_, rfl⟩, trivial⟩
  exact List.mem_singleton_self _

end Pomodorough.Server.StreamAuthority
