import Mathlib.Data.Finmap

/-! # The revision hub

`hub.go`: the open streams of every user and account generation, and what the
handlers do to them. A stream's channel holds at most the latest revision; a
closed channel has left the hub. -/
namespace Pomodorough.Server.Hub

structure RevisionScope where
  userID : String
  generation : Nat
  deriving DecidableEq, Repr

/-- `channel` is what the stream's channel buffers. -/
structure RevisionSubscription where
  id : Nat
  channel : Option Int
  sessionID : String
  deviceID : String
  deriving DecidableEq, Repr

/-- `revisionHub`; a scope without subscribers has no entry. -/
structure RevisionHub where
  nextID : Nat
  subscribers : Finmap fun _ : RevisionScope => List RevisionSubscription
  latest : Finmap fun _ : RevisionScope => Int
  closed : Bool

/-- `newRevisionHub`. -/
def RevisionHub.empty : RevisionHub where
  nextID := 0
  subscribers := ∅
  latest := ∅
  closed := false

namespace RevisionHub

/-- The streams of a scope. -/
def streams (hub : RevisionHub) (scope : RevisionScope) : List RevisionSubscription :=
  (hub.subscribers.lookup scope).getD []

/-- The streams of a scope replaced; an empty list is deleted. -/
def setStreams (hub : RevisionHub) (scope : RevisionScope) (streams : List RevisionSubscription) :
    RevisionHub :=
  { hub with
    subscribers :=
      if streams = [] then hub.subscribers.erase scope else hub.subscribers.insert scope streams }

def subscribe (hub : RevisionHub) (userID : String) (generation : Nat)
    (sessionID deviceID : String) : RevisionHub :=
  if hub.closed then hub
  else
    let scope : RevisionScope := { userID, generation }
    let id := hub.nextID + 1
    let streams := hub.streams scope ++ [{ id, channel := none, sessionID, deviceID }]
    { hub with nextID := id }.setStreams scope streams

/-- What `subscribe` returns beside the channel. -/
def unsubscribe (hub : RevisionHub) (userID : String) (generation id : Nat) : RevisionHub :=
  let scope : RevisionScope := { userID, generation }
  hub.setStreams scope ((hub.streams scope).filter fun subscription => subscription.id ≠ id)

/-- A full channel gives up the revision it held. -/
def publish (hub : RevisionHub) (userID : String) (generation : Nat) (revision : Int) :
    RevisionHub :=
  let scope : RevisionScope := { userID, generation }
  if revision ≤ (hub.latest.lookup scope).getD 0 then hub
  else
    let streams := (hub.streams scope).map fun subscription =>
      { subscription with channel := some revision }
    { hub with latest := hub.latest.insert scope revision }.setStreams scope streams

def disconnect (hub : RevisionHub) (userID : String) (generation : Nat) : RevisionHub :=
  let scope : RevisionScope := { userID, generation }
  { hub with
    subscribers := hub.subscribers.erase scope
    latest := hub.latest.erase scope }

def disconnectMatching (hub : RevisionHub) (userID : String) (generation : Nat)
    (isMatch : RevisionSubscription → Bool) : RevisionHub :=
  let scope : RevisionScope := { userID, generation }
  hub.setStreams scope ((hub.streams scope).filter fun subscription => !isMatch subscription)

def disconnectSession (hub : RevisionHub) (userID : String) (generation : Nat)
    (sessionID : String) : RevisionHub :=
  hub.disconnectMatching userID generation fun subscription => subscription.sessionID = sessionID

def disconnectDevice (hub : RevisionHub) (userID : String) (generation : Nat)
    (deviceID : String) : RevisionHub :=
  hub.disconnectMatching userID generation fun subscription => subscription.deviceID = deviceID

/-- The server stops: every channel is closed, and later ones are born closed. -/
def shutdown (hub : RevisionHub) : RevisionHub :=
  { hub with
    subscribers := ∅
    latest := hub.subscribers.foldl (fun latest scope _ => latest.erase scope)
      (fun _ _ _ _ _ => Finmap.erase_erase) hub.latest
    closed := true }

end RevisionHub

/-! ## What the handlers do -/

/-- The hub calls of an authenticated request. -/
inductive HubCall where
  | subscribe (sessionID deviceID : String)
  | unsubscribe (id : Nat)
  | publish (revision : Int)
  | disconnect
  | disconnectSession (sessionID : String)
  | disconnectDevice (deviceID : String)
  deriving DecidableEq, Repr

/-- A hub call for the user and the generation of the request's principal. -/
def HubCall.perform (call : HubCall) (userID : String) (generation : Nat) (hub : RevisionHub) :
    RevisionHub :=
  match call with
  | .subscribe sessionID deviceID => hub.subscribe userID generation sessionID deviceID
  | .unsubscribe id => hub.unsubscribe userID generation id
  | .publish revision => hub.publish userID generation revision
  | .disconnect => hub.disconnect userID generation
  | .disconnectSession sessionID => hub.disconnectSession userID generation sessionID
  | .disconnectDevice deviceID => hub.disconnectDevice userID generation deviceID

/-! ## Scopes are independent -/

/-- Nothing of other scopes differs. -/
structure OnlyScope (scope : RevisionScope) (hub hub' : RevisionHub) : Prop where
  streams : ∀ other, other ≠ scope → hub'.streams other = hub.streams other
  latest : ∀ other, other ≠ scope → hub'.latest.lookup other = hub.latest.lookup other
  closed : hub'.closed = hub.closed

section
variable {scope : RevisionScope} {hub hub' : RevisionHub}

theorem OnlyScope.refl (scope : RevisionScope) (hub : RevisionHub) : OnlyScope scope hub hub :=
  ⟨fun _ _ => rfl, fun _ _ => rfl, rfl⟩

theorem onlyScope_setStreams (streams : List RevisionSubscription) :
    OnlyScope scope hub (hub.setStreams scope streams) := by
  refine ⟨fun other hother => ?_, fun _ _ => rfl, rfl⟩
  unfold RevisionHub.streams RevisionHub.setStreams
  split
  · rw [Finmap.lookup_erase_ne hother]
  · rw [Finmap.lookup_insert_of_ne _ hother]

/-- A hub call touches the streams of its user and generation only. -/
theorem HubCall.onlyScope (call : HubCall) (userID : String) (generation : Nat)
    (hub : RevisionHub) :
    OnlyScope ⟨userID, generation⟩ hub (call.perform userID generation hub) := by
  cases call with
  | subscribe sessionID deviceID =>
    show OnlyScope _ hub (hub.subscribe userID generation sessionID deviceID)
    unfold RevisionHub.subscribe
    split
    · exact .refl _ _
    · have h := @onlyScope_setStreams ⟨userID, generation⟩ { hub with nextID := hub.nextID + 1 }
        (hub.streams ⟨userID, generation⟩ ++ [⟨hub.nextID + 1, none, sessionID, deviceID⟩])
      exact ⟨h.streams, h.latest, h.closed⟩
  | unsubscribe id => exact onlyScope_setStreams _
  | publish revision =>
    show OnlyScope _ hub (hub.publish userID generation revision)
    unfold RevisionHub.publish
    dsimp only
    split
    · exact .refl _ _
    · refine ⟨fun other hother => ?_, fun other hother => ?_, rfl⟩
      · exact (onlyScope_setStreams _).streams other hother
      · exact Finmap.lookup_insert_of_ne _ hother
  | disconnect =>
    refine ⟨fun other hother => ?_, fun other hother => ?_, rfl⟩
    · show (Finmap.lookup other (hub.subscribers.erase _)).getD [] = hub.streams other
      rw [Finmap.lookup_erase_ne hother]
      rfl
    · exact Finmap.lookup_erase_ne hother
  | disconnectSession sessionID => exact onlyScope_setStreams _
  | disconnectDevice deviceID => exact onlyScope_setStreams _

theorem streams_setStreams (hub : RevisionHub) (scope : RevisionScope)
    (streams : List RevisionSubscription) :
    (hub.setStreams scope streams).streams scope = streams := by
  unfold RevisionHub.streams RevisionHub.setStreams
  split
  · rename_i h
    rw [Finmap.lookup_erase, h]
    rfl
  · rw [Finmap.lookup_insert]
    rfl

/-! ## Streams that stay -/

/-- Nobody has subscribed for the user. -/
structure Fewer (userID : String) (hub hub' : RevisionHub) : Prop where
  nextID : hub.nextID ≤ hub'.nextID
  streams : ∀ generation, ∀ subscription ∈ hub'.streams ⟨userID, generation⟩,
    ∃ old ∈ hub.streams ⟨userID, generation⟩, old.id = subscription.id ∧
      old.sessionID = subscription.sessionID ∧ old.deviceID = subscription.deviceID

theorem Fewer.refl (userID : String) (hub : RevisionHub) : Fewer userID hub hub :=
  ⟨le_rfl, fun _ subscription h => ⟨subscription, h, rfl, rfl, rfl⟩⟩

theorem Fewer.trans {userID : String} {hub'' : RevisionHub} (h : Fewer userID hub hub')
    (h' : Fewer userID hub' hub'') : Fewer userID hub hub'' := by
  refine ⟨h.nextID.trans h'.nextID, fun generation subscription hmem => ?_⟩
  obtain ⟨middle, hmiddle, hid', hsession', hdevice'⟩ := h'.streams generation subscription hmem
  obtain ⟨old, hold, hid, hsession, hdevice⟩ := h.streams generation middle hmiddle
  exact ⟨old, hold, hid.trans hid', hsession.trans hsession', hdevice.trans hdevice'⟩

/-- The streams of one scope are replaced by some of them. -/
theorem fewer_setStreams (userID : String) {streams : List RevisionSubscription}
    (h : ∀ subscription ∈ streams, ∃ old ∈ hub.streams scope, old.id = subscription.id ∧
      old.sessionID = subscription.sessionID ∧ old.deviceID = subscription.deviceID) :
    Fewer userID hub (hub.setStreams scope streams) := by
  refine ⟨le_rfl, fun generation subscription hmem => ?_⟩
  by_cases hscope : (⟨userID, generation⟩ : RevisionScope) = scope
  · rw [hscope, streams_setStreams] at hmem
    rw [hscope]
    exact h subscription hmem
  · rw [(onlyScope_setStreams streams).streams _ hscope] at hmem
    exact ⟨subscription, hmem, rfl, rfl, rfl⟩

theorem fewer_filter (userID : String) (keep : RevisionSubscription → Bool) :
    Fewer userID hub (hub.setStreams scope ((hub.streams scope).filter keep)) :=
  fewer_setStreams userID fun subscription hmem =>
    ⟨subscription, (List.mem_filter.mp hmem).1, rfl, rfl, rfl⟩

def HubCall.subscribes : HubCall → Bool
  | .subscribe .. => true
  | _ => false

/-- Of all the calls only `subscribe` adds a stream. -/
theorem HubCall.fewer {call : HubCall} (hcall : call.subscribes = false) (userID other : String)
    (generation : Nat) (hub : RevisionHub) :
    Fewer userID hub (call.perform other generation hub) := by
  cases call with
  | subscribe sessionID deviceID => cases hcall
  | unsubscribe id => exact fewer_filter userID _
  | publish revision =>
    show Fewer userID hub (hub.publish other generation revision)
    unfold RevisionHub.publish
    dsimp only
    split
    · exact .refl _ _
    · have h := @fewer_setStreams ⟨other, generation⟩ { hub with
        latest := hub.latest.insert ⟨other, generation⟩ revision } userID
        ((hub.streams ⟨other, generation⟩).map fun subscription =>
          { subscription with channel := some revision }) fun subscription hmem => by
          obtain ⟨old, hold, rfl⟩ := List.mem_map.mp hmem
          exact ⟨old, hold, rfl, rfl, rfl⟩
      exact ⟨h.nextID, h.streams⟩
  | disconnect =>
    refine ⟨le_rfl, fun current subscription hmem => ?_⟩
    by_cases hscope : (⟨userID, current⟩ : RevisionScope) = ⟨other, generation⟩
    · change subscription ∈ (Finmap.lookup _ (hub.subscribers.erase _)).getD [] at hmem
      rw [hscope, Finmap.lookup_erase] at hmem
      cases hmem
    · have honly := HubCall.onlyScope .disconnect other generation hub
      rw [honly.streams _ hscope] at hmem
      exact ⟨subscription, hmem, rfl, rfl, rfl⟩
  | disconnectSession sessionID => exact fewer_filter userID _
  | disconnectDevice deviceID => exact fewer_filter userID _

theorem fewer_shutdown (userID : String) (hub : RevisionHub) : Fewer userID hub hub.shutdown := by
  refine ⟨le_rfl, fun generation subscription hmem => ?_⟩
  change subscription ∈ (Finmap.lookup (⟨userID, generation⟩ : RevisionScope)
    (∅ : Finmap fun _ : RevisionScope => List RevisionSubscription)).getD [] at hmem
  rw [Finmap.lookup_empty] at hmem
  cases hmem

/-- A call for another user. -/
theorem HubCall.fewer_outside {userID other : String} (hother : other ≠ userID) (call : HubCall)
    (generation : Nat) (hub : RevisionHub) :
    Fewer userID hub (call.perform other generation hub) := by
  refine ⟨?_, fun current subscription hmem => ?_⟩
  · cases hcall : call.subscribes with
    | false => exact (call.fewer hcall userID other generation hub).nextID
    | true =>
      cases call with
      | subscribe sessionID deviceID =>
        show hub.nextID ≤ (hub.subscribe other generation sessionID deviceID).nextID
        unfold RevisionHub.subscribe
        split
        · exact le_rfl
        · exact Nat.le_succ _
      | _ => cases hcall
  · have honly := call.onlyScope other generation hub
    have hne : (⟨userID, current⟩ : RevisionScope) ≠ ⟨other, generation⟩ := by
      rintro ⟨⟩
      exact hother rfl
    rw [honly.streams _ hne] at hmem
    exact ⟨subscription, hmem, rfl, rfl, rfl⟩

end

end Pomodorough.Server.Hub
