import Pomodorough.Library.Channels
import Pomodorough.Library.Serialized
import Pomodorough.Server.Hub

/-! # The hub's channels

`hub.go` and `stream.go` send by send: the hub's calls hold its mutex, and the
streams receive from their channels between any two steps of such a call.
A panic of a send or of a close is the error of the call that made it. -/
namespace Pomodorough.Server.RevisionChannels
open Pomodorough.Library.AtomicSteps Pomodorough.Library.Channels Pomodorough.Library.Serialized
open Pomodorough.Server.Hub (RevisionScope)

/-! ## The hub and its streams -/

/-- An entry of `subscribers`: `scope` and `id` are its keys there, and `channel`
is the stream that reads its channel. -/
structure RevisionSubscription where
  scope : RevisionScope
  id : Nat
  channel : Nat
  sessionID : String
  deviceID : String
  deriving DecidableEq, Repr

/-- `revisionHub`. -/
structure RevisionHub where
  nextID : Nat
  subscribers : List RevisionSubscription
  latest : Finmap fun _ : RevisionScope => Int
  closed : Bool

/-- `newRevisionHub`. -/
def RevisionHub.empty : RevisionHub where
  nextID := 0
  subscribers := []
  latest := ∅
  closed := false

/-- `h.subscribers[scope]`. -/
def RevisionHub.streams (hub : RevisionHub) (scope : RevisionScope) : List RevisionSubscription :=
  hub.subscribers.filter fun subscription => subscription.scope = scope

/-- `h.latest[scope]`. -/
def RevisionHub.latestOf (hub : RevisionHub) (scope : RevisionScope) : Int :=
  (hub.latest.lookup scope).getD 0

/-- Where `handleStream` is after its `subscribe`. -/
inductive StreamPhase where
  | reading
  | starting (revision : Int)
  | serving (lastSent : Int)
  | received (revision lastSent : Int)
  | ended
  deriving DecidableEq, Repr

/-- A stream. What it has received and written, the revisions that were
committed before its starting read and how many had been published before it
subscribed are its history. -/
structure Stream where
  scope : RevisionScope
  channel : Channel Int
  phase : StreamPhase
  received : List Int
  written : List Int
  committed : List Int
  subscribedAt : Nat

/-- A stream as `subscribe` leaves it. -/
def Stream.fresh (scope : RevisionScope) (channel : Channel Int) (subscribedAt : Nat) : Stream where
  scope
  channel
  phase := .reading
  received := []
  written := []
  committed := []
  subscribedAt

/-- The hub, the streams so far, and what was published so far. -/
structure System where
  hub : RevisionHub
  streams : Nat → Stream
  opened : Nat
  published : List (RevisionScope × Int)

def System.initial : System where
  hub := .empty
  streams := fun _ => .fresh ⟨"", 0⟩ (.make Int 0) 0
  opened := 0
  published := []

namespace System

def setStream (s : System) (i : Nat) (stream : Stream) : System :=
  { s with streams := Function.update s.streams i stream }

def setChannel (s : System) (i : Nat) (channel : Channel Int) : System :=
  s.setStream i { s.streams i with channel }

def openStream (s : System) (scope : RevisionScope) (channel : Channel Int) : System :=
  { s.setStream s.opened (.fresh scope channel s.published.length) with opened := s.opened + 1 }

/-- The channel a closed hub hands out. -/
def closedChannel : Channel Int := { Channel.make Int 0 with closed := true }

/-- `subscribe`: nothing in it can be seen before it returns. -/
def subscribe (s : System) (scope : RevisionScope) (sessionID deviceID : String) : System :=
  if s.hub.closed then s.openStream scope closedChannel
  else
    let id := s.hub.nextID + 1
    let subscription := { scope, id, channel := s.opened, sessionID, deviceID }
    let opened := s.openStream scope (.make Int 1)
    { opened with
      hub := { s.hub with nextID := id, subscribers := s.hub.subscribers ++ [subscription] } }

def unsubscribe (s : System) (scope : RevisionScope) (id : Nat) : System :=
  { s with hub := { s.hub with
      subscribers := s.hub.subscribers.filter fun subscription =>
        !decide (subscription.scope = scope ∧ subscription.id = id) } }

/-- The start of `publish`: the streams to notify. -/
def announce (s : System) (scope : RevisionScope) (revision : Int) :
    List RevisionSubscription × System :=
  let s := { s with published := s.published ++ [(scope, revision)] }
  if revision ≤ s.hub.latestOf scope then ([], s)
  else (s.hub.streams scope,
    { s with hub := { s.hub with latest := s.hub.latest.insert scope revision } })

/-- A deletion from `h.subscribers[scope]`. -/
def remove (s : System) (subscription : RevisionSubscription) : System :=
  { s with hub := { s.hub with
      subscribers := s.hub.subscribers.filter fun other => other ≠ subscription } }

/-- A deletion from `h.subscribers` and `h.latest`. -/
def removeScope (s : System) (scope : RevisionScope) : System :=
  { s with hub := { s.hub with
      subscribers := s.hub.subscribers.filter fun other => other.scope ≠ scope
      latest := s.hub.latest.erase scope } }

end System

/-! ## Calls of the hub -/

abbrev HubOp := Op System Fault

/-- The order in which a `range` over a map visits it: any. -/
structure RangeOrder (α : Type) where
  visit : List α → List α
  perm : ∀ l, (visit l).Perm l

def RangeOrder.asListed (α : Type) : RangeOrder α := ⟨id, fun l => .refl l⟩

def trySend (i : Nat) (revision : Int) : HubOp Bool :=
  .tryStep fun s =>
    let (sent, channel) := (s.streams i).channel.trySend revision
    (sent, s.setChannel i channel)

def tryReceive (i : Nat) : HubOp (Received Int) :=
  .step fun s =>
    let (received, channel) := (s.streams i).channel.tryReceive
    (received, s.setChannel i channel)

def closeChannel (i : Nat) : HubOp Unit :=
  .tryStep fun s =>
    let (closed, channel) := (s.streams i).channel.close
    (closed, s.setChannel i channel)

/-- The body of the loop of `publish`: a full channel gives up what it held. -/
def sendLatest (revision : Int) (subscription : RevisionSubscription) : HubOp Unit := do
  let sent ← trySend subscription.channel revision
  if sent then pure ()
  else
    let _ ← tryReceive subscription.channel
    let _ ← trySend subscription.channel revision
    pure ()

def publish (scope : RevisionScope) (revision : Int) (order : RangeOrder RevisionSubscription) :
    HubOp Unit := do
  let subscriptions ← .step fun s => s.announce scope revision
  Op.forEach (sendLatest revision) (order.visit subscriptions)

def disconnect (scope : RevisionScope) (order : RangeOrder RevisionSubscription) : HubOp Unit := do
  let subscriptions ← .read fun s => s.hub.streams scope
  Op.forEach (fun subscription => closeChannel subscription.channel) (order.visit subscriptions)
  .modify fun s => s.removeScope scope

/-- Every scope goes the way of a disconnected account. -/
def shutdown (scopes : RangeOrder RevisionScope) (order : RangeOrder RevisionSubscription) :
    HubOp Unit := do
  let subscribed ← .step fun s =>
    ((s.hub.subscribers.map fun subscription => subscription.scope).dedup,
      { s with hub := { s.hub with closed := true } })
  Op.forEach (fun scope => disconnect scope order) (scopes.visit subscribed)

def disconnectMatching (scope : RevisionScope) (isMatch : RevisionSubscription → Bool)
    (order : RangeOrder RevisionSubscription) : HubOp Unit := do
  let subscriptions ← .read fun s => s.hub.streams scope
  Op.forEach (fun subscription =>
    if isMatch subscription then do
      closeChannel subscription.channel
      .modify fun s => s.remove subscription
    else pure ()) (order.visit subscriptions)

def disconnectSession (scope : RevisionScope) (sessionID : String) :
    RangeOrder RevisionSubscription → HubOp Unit :=
  disconnectMatching scope fun subscription => subscription.sessionID = sessionID

def disconnectDevice (scope : RevisionScope) (deviceID : String) :
    RangeOrder RevisionSubscription → HubOp Unit :=
  disconnectMatching scope fun subscription => subscription.deviceID = deviceID

/-- The calls that hold the hub's mutex. -/
inductive HubCall where
  | subscribe (scope : RevisionScope) (sessionID deviceID : String)
  | unsubscribe (scope : RevisionScope) (id : Nat)
  | publish (scope : RevisionScope) (revision : Int) (order : RangeOrder RevisionSubscription)
  | disconnect (scope : RevisionScope) (order : RangeOrder RevisionSubscription)
  | disconnectSession (scope : RevisionScope) (sessionID : String)
    (order : RangeOrder RevisionSubscription)
  | disconnectDevice (scope : RevisionScope) (deviceID : String)
    (order : RangeOrder RevisionSubscription)
  | shutdown (scopes : RangeOrder RevisionScope) (order : RangeOrder RevisionSubscription)

def HubCall.body : HubCall → HubOp Unit
  | .subscribe scope sessionID deviceID => .modify fun s => s.subscribe scope sessionID deviceID
  | .unsubscribe scope id => .modify fun s => s.unsubscribe scope id
  | .publish scope revision order => RevisionChannels.publish scope revision order
  | .disconnect scope order => RevisionChannels.disconnect scope order
  | .disconnectSession scope sessionID order =>
    RevisionChannels.disconnectSession scope sessionID order
  | .disconnectDevice scope deviceID order => RevisionChannels.disconnectDevice scope deviceID order
  | .shutdown scopes order => RevisionChannels.shutdown scopes order

/-- The scopes whose streams a call works on. -/
def HubCall.Touches : HubCall → RevisionScope → Prop
  | .subscribe .., _ | .unsubscribe .., _ => False
  | .publish scope .., other | .disconnect scope _, other | .disconnectSession scope .., other
  | .disconnectDevice scope .., other => other = scope
  | .shutdown .., _ => True

/-! ## What streams do -/

/-- The revisions committed for each account, newest first. -/
abbrev Commits := RevisionScope → List Int

/-- What an account's read returns. -/
def Commits.current (commits : Commits) (scope : RevisionScope) : Int := (commits scope).headD 0

def Commits.commit (commits : Commits) (scope : RevisionScope) (revision : Int) : Commits :=
  Function.update commits scope (revision :: commits scope)

/-- A step of a stream on its own, from its starting revision on. -/
inductive StreamStep : Stream → Stream → Prop where
  /-- `serve` writes the starting revision. -/
  | start {stream revision} (h : stream.phase = .starting revision) :
      StreamStep stream { stream with phase := .serving revision, written := [revision] }
  | receive {stream lastSent revision} (h : stream.phase = .serving lastSent)
      (hvalue : stream.channel.tryReceive.1 = .value revision) :
      StreamStep stream { stream with
        phase := .received revision lastSent
        channel := stream.channel.tryReceive.2
        received := revision :: stream.received }
  | closed {stream lastSent} (h : stream.phase = .serving lastSent)
      (hclosed : stream.channel.tryReceive.1 = .closed) :
      StreamStep stream { stream with phase := .ended }
  | write {stream revision lastSent} (h : stream.phase = .received revision lastSent)
      (hlt : lastSent < revision) :
      StreamStep stream { stream with
        phase := .serving revision
        written := revision :: stream.written }
  | skip {stream revision lastSent} (h : stream.phase = .received revision lastSent)
      (hle : revision ≤ lastSent) :
      StreamStep stream { stream with phase := .serving lastSent }
  /-- A read or a write fails, or the client is gone. -/
  | stop {stream} : StreamStep stream { stream with phase := .ended }

/-- What happens without the hub's mutex. The starting read may itself commit a
revision, which it then publishes. -/
inductive Beside : System × Commits → System × Commits → Prop where
  | commit {s w} (scope : RevisionScope) (revision : Int) (hpos : 0 < revision)
      (hnew : ∀ old ∈ w scope, old < revision) : Beside (s, w) (s, w.commit scope revision)
  | read {s : System} {w : Commits} {i} (hi : i < s.opened) (h : (s.streams i).phase = .reading) :
      Beside (s, w) (s.setStream i { s.streams i with
        phase := .starting (w.current (s.streams i).scope)
        committed := w (s.streams i).scope }, w)
  | stream {s : System} {w : Commits} {i stream} (hi : i < s.opened)
      (h : StreamStep (s.streams i) stream) : Beside (s, w) (s.setStream i stream, w)

/-- A revision is published once it has been committed. -/
def HubCall.start : HubCall → Commits → Commits → Prop
  | .publish scope revision _, w, w' => revision ∈ w scope ∧ w' = w
  | _, w, w' => w' = w

/-- The hub of a server with its streams. -/
def hubMachine : Machine System Commits HubCall (Except Fault Unit) where
  body call := ExceptT.run call.body
  others := Beside
  start := HubCall.start
  finish _ result w w' := result.isSome ∧ w' = w

abbrev HubConfig := Config System Commits HubCall (Except Fault Unit)

def HubConfig.initial : HubConfig := ⟨.initial, fun _ => [], none⟩

end Pomodorough.Server.RevisionChannels
