import Pomodorough.Server.RevisionChannels

/-! # Delivery of revisions

Whatever the interleaving, the hub's calls neither block nor fault, and the
latest revision of an account reaches each of its streams or was no news to it:
it was published before the stream subscribed, and so the stream's starting read
knew it. -/
namespace Pomodorough.Server.RevisionDelivery
open Pomodorough.Library.AtomicSteps Pomodorough.Library.Channels Pomodorough.Library.Serialized
open Pomodorough.Server.Hub (RevisionScope)
open Pomodorough.Server.RevisionChannels

/-! ## What a stream does to its channel -/

/-- The stream may still get, or has got, the revision. -/
def Has (stream : Stream) (revision : Int) : Prop :=
  revision ∈ stream.channel.buffer ∨ revision ∈ stream.received

/-- The same stream as far as the hub is concerned. -/
structure SameStream (stream stream' : Stream) : Prop where
  scope : stream'.scope = stream.scope
  subscribedAt : stream'.subscribedAt = stream.subscribedAt
  capacity : stream'.channel.capacity = stream.channel.capacity

/-- The same stream with nothing lost. -/
structure Kept (stream stream' : Stream) : Prop extends SameStream stream stream' where
  closed : stream'.channel.closed = stream.channel.closed
  has : ∀ revision, Has stream revision → Has stream' revision
  shrinks : stream'.channel.buffer.length ≤ stream.channel.buffer.length

section
variable {stream stream' stream'' : Stream}

theorem SameStream.refl (stream : Stream) : SameStream stream stream := ⟨rfl, rfl, rfl⟩

theorem SameStream.trans (h : SameStream stream stream') (h' : SameStream stream' stream'') :
    SameStream stream stream'' :=
  ⟨h'.scope.trans h.scope, h'.subscribedAt.trans h.subscribedAt, h'.capacity.trans h.capacity⟩

theorem Kept.refl (stream : Stream) : Kept stream stream :=
  ⟨.refl stream, rfl, fun _ => id, le_rfl⟩

theorem Kept.trans (h : Kept stream stream') (h' : Kept stream' stream'') :
    Kept stream stream'' where
  toSameStream := h.toSameStream.trans h'.toSameStream
  closed := h'.closed.trans h.closed
  has revision hrevision := h'.has revision (h.has revision hrevision)
  shrinks := h'.shrinks.trans h.shrinks

/-- A receive hands over what leaves the channel. -/
theorem StreamStep.kept (h : StreamStep stream stream') : Kept stream stream' := by
  cases h with
  | receive h hvalue =>
    rcases Channel.tryReceive_buffer stream.channel with
      ⟨a, ha, hbuffer⟩ | ⟨hsame, hbuffer⟩
    · rw [hvalue] at ha
      cases ha
      refine ⟨⟨rfl, rfl, Channel.tryReceive_capacity _⟩, Channel.tryReceive_closed _, fun r hr => ?_, ?_⟩
      · simp only [Has, hbuffer, List.mem_cons] at hr ⊢
        tauto
      · simp [hbuffer]
    · refine ⟨⟨rfl, rfl, Channel.tryReceive_capacity _⟩, Channel.tryReceive_closed _, fun r hr => ?_, ?_⟩
      · simp only [Has, List.mem_cons, hsame] at hr ⊢
        tauto
      · simp [hsame]
  | _ => exact ⟨⟨rfl, rfl, rfl⟩, rfl, fun _ => id, le_rfl⟩

/-- What a stream knows once it has written `last`. -/
structure Settled (committed received written : List Int) (last : Int) : Prop where
  nonneg : 0 ≤ last
  committed : ∀ revision ∈ committed, revision ≤ last
  received : ∀ revision ∈ received, revision ≤ last
  written : written.head? = some last

/-- What a stream has written, newest first. -/
structure Ordered (stream : Stream) : Prop where
  descending : stream.written.Pairwise (· > ·)
  phase : match stream.phase with
    | .reading => stream.received = [] ∧ stream.written = []
    | .starting revision => stream.received = [] ∧ stream.written = [] ∧ 0 ≤ revision ∧
        ∀ old ∈ stream.committed, old ≤ revision
    | .serving lastSent => Settled stream.committed stream.received stream.written lastSent
    | .received revision lastSent => ∃ rest, stream.received = revision :: rest ∧
        Settled stream.committed rest stream.written lastSent
    | .ended => True

theorem ordered_fresh (scope : RevisionScope) (channel : Channel Int) (subscribedAt : Nat) :
    Ordered (.fresh scope channel subscribedAt) :=
  ⟨List.Pairwise.nil, rfl, rfl⟩

/-- What is written is newer than all that was written before. -/
theorem descending_cons {written : List Int} {last revision : Int}
    (h : written.Pairwise (· > ·)) (hlast : written.head? = some last) (hlt : last < revision) :
    (revision :: written).Pairwise (· > ·) := by
  cases written with
  | nil => cases hlast
  | cons head rest =>
    cases hlast
    refine List.pairwise_cons.mpr ⟨fun old hold => ?_, h⟩
    rcases List.mem_cons.mp hold with rfl | hold
    · exact hlt
    · exact (List.rel_of_pairwise_cons h hold).trans hlt

theorem Ordered.step (hstream : Ordered stream) (h : StreamStep stream stream') :
    Ordered stream' := by
  obtain ⟨hdescending, hphase⟩ := hstream
  cases h with
  | @start revision h =>
    rw [h] at hphase
    obtain ⟨hreceived, -, hnonneg, hcommitted⟩ := hphase
    refine ⟨List.pairwise_singleton _ _, hnonneg, hcommitted, fun r hr => ?_, rfl⟩
    rw [hreceived] at hr
    cases hr
  | receive h hvalue =>
    rw [h] at hphase
    exact ⟨hdescending, stream.received, rfl, hphase.nonneg, hphase.committed, hphase.received,
      hphase.written⟩
  | closed h _ => exact ⟨hdescending, trivial⟩
  | @write revision lastSent h hlt =>
    rw [h] at hphase
    obtain ⟨rest, hreceived, hsettled⟩ := hphase
    refine ⟨descending_cons hdescending hsettled.written hlt, hsettled.nonneg.trans hlt.le,
      fun r hr => (hsettled.committed r hr).trans hlt.le, fun r hr => ?_, rfl⟩
    rw [hreceived] at hr
    rcases List.mem_cons.mp hr with rfl | hr
    · exact le_rfl
    · exact (hsettled.received r hr).trans hlt.le
  | @skip revision lastSent h hle =>
    rw [h] at hphase
    obtain ⟨rest, hreceived, hsettled⟩ := hphase
    refine ⟨hdescending, hsettled.nonneg, hsettled.committed, fun r hr => ?_, hsettled.written⟩
    rw [hreceived] at hr
    rcases List.mem_cons.mp hr with rfl | hr
    · exact hle
    · exact hsettled.received r hr
  | stop => exact ⟨hdescending, trivial⟩

end

/-! ## The hub's streams -/

/-- What the streams do while a call holds the mutex. -/
structure Apart (s s' : System) : Prop where
  hub : s'.hub = s.hub
  opened : s'.opened = s.opened
  published : s'.published = s.published
  streams : ∀ i, Kept (s.streams i) (s'.streams i)

/-- The subscribers' places. -/
structure Wired (s : System) : Prop where
  placed : ∀ subscription ∈ s.hub.subscribers, subscription.channel < s.opened ∧
    (s.streams subscription.channel).scope = subscription.scope ∧
    (s.streams subscription.channel).channel.capacity = 1
  distinct : (s.hub.subscribers.map fun subscription => subscription.channel).Nodup
  since : ∀ subscription ∈ s.hub.subscribers, ∀ revision,
    (subscription.scope, revision) ∈
      s.published.drop (s.streams subscription.channel).subscribedAt →
    revision ≤ s.hub.latestOf subscription.scope
  history : ∀ i < s.opened, (s.streams i).subscribedAt ≤ s.published.length
  latest : ∀ scope revision, s.hub.latest.lookup scope = some revision →
    (scope, revision) ∈ s.published

/-- The latest revision of a scope is news to none of its streams. -/
def Delivering (s : System) (scope : RevisionScope) : Prop :=
  ∀ subscription ∈ s.hub.subscribers, subscription.scope = scope →
    (s.streams subscription.channel).channel.closed = false ∧
      (s.hub.latest.lookup scope = none ∨
        Has (s.streams subscription.channel) (s.hub.latestOf scope) ∨
        (scope, s.hub.latestOf scope) ∈
          s.published.take (s.streams subscription.channel).subscribedAt)

section
variable {s s' s'' : System} {scope : RevisionScope} {i : Nat} {channel : Channel Int}

theorem Apart.refl (s : System) : Apart s s := ⟨rfl, rfl, rfl, fun _ => .refl _⟩

theorem Apart.trans (h : Apart s s') (h' : Apart s' s'') : Apart s s'' :=
  ⟨h'.hub.trans h.hub, h'.opened.trans h.opened, h'.published.trans h.published,
    fun i => (h.streams i).trans (h'.streams i)⟩

/-- The hub and the places of its streams as they were. -/
structure SamePlaces (s s' : System) : Prop where
  hub : s'.hub = s.hub
  opened : s'.opened = s.opened
  published : s'.published = s.published
  streams : ∀ i, SameStream (s.streams i) (s'.streams i)

theorem SamePlaces.refl (s : System) : SamePlaces s s := ⟨rfl, rfl, rfl, fun _ => .refl _⟩

theorem SamePlaces.trans (h : SamePlaces s s') (h' : SamePlaces s' s'') : SamePlaces s s'' :=
  ⟨h'.hub.trans h.hub, h'.opened.trans h.opened, h'.published.trans h.published,
    fun i => (h.streams i).trans (h'.streams i)⟩

theorem Apart.places (h : Apart s s') : SamePlaces s s' :=
  ⟨h.hub, h.opened, h.published, fun i => (h.streams i).toSameStream⟩

@[simp] theorem setChannel_hub : (s.setChannel i channel).hub = s.hub := rfl
@[simp] theorem setChannel_opened : (s.setChannel i channel).opened = s.opened := rfl
@[simp] theorem setChannel_published : (s.setChannel i channel).published = s.published := rfl

@[simp] theorem setChannel_self :
    (s.setChannel i channel).streams i = { s.streams i with channel } :=
  Function.update_self i _ _

@[simp] theorem setChannel_of_ne {j : Nat} (h : j ≠ i) :
    (s.setChannel i channel).streams j = s.streams j := Function.update_of_ne h _ _

theorem places_setChannel (h : channel.capacity = (s.streams i).channel.capacity) :
    SamePlaces s (s.setChannel i channel) := by
  refine ⟨rfl, rfl, rfl, fun j => ?_⟩
  by_cases hj : j = i
  · subst hj
    rw [setChannel_self]
    exact ⟨rfl, rfl, h⟩
  · rw [setChannel_of_ne hj]
    exact .refl _

theorem SamePlaces.wired (h : SamePlaces s s') (hs : Wired s) : Wired s' where
  placed subscription hmem := by
    rw [h.hub] at hmem
    obtain ⟨hopened, hscope, hcapacity⟩ := hs.placed subscription hmem
    have hstream := h.streams subscription.channel
    exact ⟨h.opened ▸ hopened, hstream.scope.trans hscope, hstream.capacity.trans hcapacity⟩
  distinct := h.hub ▸ hs.distinct
  since subscription hmem revision hrevision := by
    rw [h.hub] at hmem ⊢
    rw [h.published, (h.streams subscription.channel).subscribedAt] at hrevision
    exact hs.since subscription hmem revision hrevision
  history i hi := by
    rw [h.published, (h.streams i).subscribedAt]
    exact hs.history i (h.opened ▸ hi)
  latest scope revision hlatest := by
    rw [h.hub] at hlatest
    exact h.published ▸ hs.latest scope revision hlatest

/-- Fewer subscribers, and the rest as it was. -/
theorem Delivering.kept (hs : Delivering s scope)
    (hsubs : ∀ subscription ∈ s'.hub.subscribers, subscription.scope = scope →
      subscription ∈ s.hub.subscribers ∧
        Kept (s.streams subscription.channel) (s'.streams subscription.channel))
    (hlatest : s'.hub.latest.lookup scope = s.hub.latest.lookup scope)
    (hpublished : s.published <+: s'.published) (hwired : Wired s) : Delivering s' scope := by
  intro subscription hmem hscope
  obtain ⟨hmem, hkept⟩ := hsubs subscription hmem hscope
  obtain ⟨hopen, hhas⟩ := hs subscription hmem hscope
  have hof : s'.hub.latestOf scope = s.hub.latestOf scope := by
    unfold RevisionHub.latestOf
    rw [hlatest]
  refine ⟨hkept.closed.trans hopen, ?_⟩
  rw [hlatest, hof]
  rcases hhas with hnone | hhas | hbefore
  · exact .inl hnone
  · exact .inr (.inl (hkept.has _ hhas))
  · refine .inr (.inr ?_)
    have hlength := hwired.history _ (hwired.placed subscription hmem).1
    obtain ⟨rest, hrest⟩ := hpublished
    rw [hkept.subscribedAt, ← hrest, List.take_append_of_le_length hlength]
    exact hbefore

theorem Apart.delivering (h : Apart s s') (hwired : Wired s) (hs : Delivering s scope) :
    Delivering s' scope :=
  hs.kept (fun subscription hmem _ => ⟨h.hub ▸ hmem, h.streams _⟩) (by rw [h.hub])
    (h.published ▸ List.prefix_refl _) hwired

end

/-! ## What a call does -/

/-- A step of a call: streams of other scopes lose nothing, and no stream but
its channel changes. -/
structure Moves (call : HubCall) (s s' : System) : Prop where
  wired : Wired s → Wired s'
  delivering : ∀ scope, ¬ call.Touches scope → Wired s → Delivering s scope → Delivering s' scope
  streams : ∀ i < s'.opened, (i < s.opened ∧ ∃ channel, s'.streams i = { s.streams i with channel }) ∨
    ∃ scope channel, s'.streams i = .fresh scope channel s.published.length
  published : s'.published = s.published ∨ ∃ scope revision order,
    call = .publish scope revision order ∧ s'.published = s.published ++ [(scope, revision)]

section
variable {call : HubCall} {s s' : System} {scope : RevisionScope} {i : Nat}

/-- A step that only works on a channel of the call's scope. -/
theorem moves_setChannel {channel : Channel Int} (hscope : call.Touches (s.streams i).scope)
    (hcapacity : channel.capacity = (s.streams i).channel.capacity) :
    Moves call s (s.setChannel i channel) where
  wired := (places_setChannel hcapacity).wired
  delivering scope hscope' hwired hs := by
    refine hs.kept (fun subscription hmem heq => ⟨hmem, ?_⟩) rfl (List.prefix_refl _) hwired
    have hne : subscription.channel ≠ i := by
      rintro rfl
      rw [(hwired.placed subscription hmem).2.1, heq] at hscope
      exact hscope' hscope
    rw [setChannel_of_ne hne]
    exact .refl _
  streams j hj := by
    refine .inl ⟨hj, ?_⟩
    by_cases h : j = i
    · subst h
      exact ⟨channel, setChannel_self⟩
    · exact ⟨(s.streams j).channel, setChannel_of_ne h⟩
  published := .inl rfl

/-- A step that only takes subscribers away, and the latest revision with the
last subscriber of a scope. -/
theorem moves_fewer {hub : RevisionHub} (hsubs : hub.subscribers.Sublist s.hub.subscribers)
    (hlatest : ∀ scope, hub.latest.lookup scope = s.hub.latest.lookup scope ∨
      call.Touches scope ∧ hub.latest.lookup scope = none ∧
        ∀ subscription ∈ hub.subscribers, subscription.scope ≠ scope) :
    Moves call s { s with hub } where
  wired hs := {
    placed := fun subscription hmem => hs.placed subscription (hsubs.subset hmem)
    distinct := hs.distinct.sublist (hsubs.map _)
    since := fun subscription hmem revision hrevision => by
      have hold := hs.since subscription (hsubs.subset hmem) revision hrevision
      rcases hlatest subscription.scope with heq | ⟨-, -, hgone⟩
      · simpa [RevisionHub.latestOf, heq] using hold
      · exact absurd rfl (hgone subscription hmem)
    history := hs.history
    latest := fun scope revision hrevision => by
      rcases hlatest scope with heq | ⟨-, hnone, -⟩
      · exact hs.latest scope revision (heq ▸ hrevision)
      · rw [hnone] at hrevision
        cases hrevision }
  delivering scope hscope hwired hs := by
    rcases hlatest scope with heq | ⟨htouches, -⟩
    · exact hs.kept (fun subscription hmem _ => ⟨hsubs.subset hmem, .refl _⟩) heq
        (List.prefix_refl _) hwired
    · exact absurd htouches hscope
  streams i hi := .inl ⟨hi, _, rfl⟩
  published := .inl rfl

theorem moves_refl (s : System) : Moves call s s where
  wired := id
  delivering _ _ _ := id
  streams _ hi := .inl ⟨hi, _, rfl⟩
  published := .inl rfl

/-! ### Subscriptions -/

@[simp] theorem openStream_hub (channel : Channel Int) :
    (s.openStream scope channel).hub = s.hub := rfl

@[simp] theorem openStream_published (channel : Channel Int) :
    (s.openStream scope channel).published = s.published := rfl

@[simp] theorem openStream_self (s : System) (scope : RevisionScope) (channel : Channel Int) :
    (s.openStream scope channel).streams s.opened = .fresh scope channel s.published.length :=
  Function.update_self s.opened _ s.streams

@[simp] theorem openStream_of_ne (channel : Channel Int) (h : i ≠ s.opened) :
    (s.openStream scope channel).streams i = s.streams i := Function.update_of_ne h _ s.streams

/-- A new stream is beyond the ones there were. -/
theorem openStream_cases (channel : Channel Int) (h : i < (s.openStream scope channel).opened) :
    i = s.opened ∨ i < s.opened ∧ i ≠ s.opened := by
  have hlt : i < s.opened + 1 := h
  omega

theorem wired_openStream (channel : Channel Int) (hs : Wired s) :
    Wired (s.openStream scope channel) := by
  have hstream : ∀ subscription ∈ s.hub.subscribers,
      (s.openStream scope channel).streams subscription.channel = s.streams subscription.channel :=
    fun subscription hmem => openStream_of_ne channel (hs.placed subscription hmem).1.ne
  constructor
  · intro subscription hmem
    rw [hstream subscription hmem]
    obtain ⟨hopened, hrest⟩ := hs.placed subscription hmem
    exact ⟨Nat.lt_succ_of_lt hopened, hrest⟩
  · exact hs.distinct
  · intro subscription hmem
    rw [hstream subscription hmem]
    exact hs.since subscription hmem
  · intro i hi
    rcases openStream_cases channel hi with rfl | ⟨hold, hne⟩
    · rw [openStream_self]
      exact le_rfl
    · rw [openStream_of_ne channel hne]
      exact hs.history i hold
  · exact hs.latest

theorem moves_openStream (channel : Channel Int) : Moves call s (s.openStream scope channel) where
  wired := wired_openStream channel
  delivering other hother hwired hs := by
    refine hs.kept (fun subscription hmem _ => ⟨hmem, ?_⟩) rfl (List.prefix_refl _) hwired
    rw [openStream_of_ne channel (hwired.placed subscription hmem).1.ne]
    exact .refl _
  streams i hi := by
    rcases openStream_cases channel hi with rfl | ⟨hold, hne⟩
    · exact .inr ⟨scope, channel, openStream_self s scope channel⟩
    · exact .inl ⟨hold, _, openStream_of_ne channel hne⟩
  published := .inl rfl

/-- A new subscriber knows what was published before it. -/
theorem moves_subscribe (scope : RevisionScope) (sessionID deviceID : String) :
    Moves call s (s.subscribe scope sessionID deviceID) := by
  unfold System.subscribe
  split
  · exact moves_openStream _
  · set entered : RevisionSubscription := ⟨scope, s.hub.nextID + 1, s.opened, sessionID, deviceID⟩
    have hmoves : Moves call s (s.openStream scope (Channel.make Int 1)) := moves_openStream _
    refine ⟨fun hs => ?_, fun other hother hwired hs => ?_, hmoves.streams, .inl rfl⟩
    · have hopened := hmoves.wired hs
      constructor
      · intro subscription hmem
        rcases List.mem_append.mp hmem with hmem | hmem
        · exact hopened.placed subscription hmem
        · obtain rfl := List.mem_singleton.mp hmem
          have hstream := openStream_self s scope (Channel.make Int 1)
          exact ⟨Nat.lt_succ_self _, by rw [hstream]; exact ⟨rfl, rfl⟩⟩
      · have hnew : ∀ subscription ∈ s.hub.subscribers, ¬ subscription.channel = s.opened :=
          fun subscription hmem => (hs.placed subscription hmem).1.ne
        simpa [List.nodup_append, entered] using ⟨hs.distinct, hnew⟩
      · intro subscription hmem
        rcases List.mem_append.mp hmem with hmem | hmem
        · exact hopened.since subscription hmem
        · obtain rfl := List.mem_singleton.mp hmem
          intro revision hrevision
          have hstream := openStream_self s scope (Channel.make Int 1)
          rw [show entered.channel = s.opened from rfl, hstream] at hrevision
          simp [Stream.fresh] at hrevision
      · exact hopened.history
      · exact hopened.latest
    · intro subscription hmem hscope
      rcases List.mem_append.mp hmem with hmem | hmem
      · exact hmoves.delivering other hother hwired hs subscription hmem hscope
      · obtain rfl := List.mem_singleton.mp hmem
        obtain rfl : scope = other := hscope
        have hstream := openStream_self s scope (Channel.make Int 1)
        rw [show entered.channel = s.opened from rfl, hstream]
        refine ⟨rfl, ?_⟩
        cases hlatest : s.hub.latest.lookup scope with
        | none => exact .inl rfl
        | some revision =>
          refine .inr (.inr ?_)
          have hpublished := hwired.latest scope revision hlatest
          simpa [Stream.fresh, RevisionHub.latestOf, hlatest] using hpublished

/-! ### Publications -/

theorem moves_announce {revision : Int} {order : RangeOrder RevisionSubscription} :
    Moves (.publish scope revision order) s (s.announce scope revision).2 := by
  have hdrop : ∀ {subscription r}, Wired s → subscription ∈ s.hub.subscribers →
      (subscription.scope, r) ∈ (s.published ++ [(scope, revision)]).drop
        (s.streams subscription.channel).subscribedAt →
      r ≤ s.hub.latestOf subscription.scope ∨ subscription.scope = scope ∧ r = revision := by
    intro subscription r hs hmem hr
    have hlength := hs.history _ (hs.placed subscription hmem).1
    rw [List.drop_append_of_le_length hlength] at hr
    rcases List.mem_append.mp hr with hr | hr
    · exact .inl (hs.since subscription hmem r hr)
    · obtain ⟨hscope, hr⟩ := Prod.mk.injEq .. ▸ List.mem_singleton.mp hr
      exact .inr ⟨hscope, hr⟩
  unfold System.announce
  dsimp only
  split
  · rename_i hle
    refine ⟨fun hs => ⟨hs.placed, hs.distinct, fun subscription hmem r hr => ?_, fun i hi => ?_,
      fun other r hr => ?_⟩, fun other hother hwired hs => ?_, fun i hi => .inl ⟨hi, _, rfl⟩,
      .inr ⟨scope, revision, order, rfl, rfl⟩⟩
    · rcases hdrop hs hmem hr with hold | ⟨hscope, rfl⟩
      · exact hold
      · exact hscope ▸ hle
    · exact (hs.history i hi).trans (by simp)
    · exact List.mem_append_left _ (hs.latest other r hr)
    · exact hs.kept (fun _ hmem _ => ⟨hmem, .refl _⟩) rfl (List.prefix_append _ _) hwired
  · rename_i hlt
    have hnew : ∀ other, other ≠ scope → (s.hub.latest.insert scope revision).lookup other =
        s.hub.latest.lookup other := fun other hother => Finmap.lookup_insert_of_ne _ hother
    refine ⟨fun hs => ⟨hs.placed, hs.distinct, fun subscription hmem r hr => ?_, fun i hi => ?_,
      fun other r hr => ?_⟩, fun other hother hwired hs => ?_, fun i hi => .inl ⟨hi, _, rfl⟩,
      .inr ⟨scope, revision, order, rfl, rfl⟩⟩
    · unfold RevisionHub.latestOf at hdrop hlt ⊢
      by_cases hscope : subscription.scope = scope
      · have hlatest : (s.hub.latest.insert scope revision).lookup scope = some revision :=
          Finmap.lookup_insert _
        rw [hscope]
        simp only [hlatest, Option.getD_some]
        rcases hdrop hs hmem hr with hold | ⟨-, rfl⟩
        · rw [hscope] at hold
          omega
        · exact le_rfl
      · simp only [hnew _ hscope]
        rcases hdrop hs hmem hr with hold | ⟨heq, -⟩
        · exact hold
        · exact absurd heq hscope
    · exact (hs.history i hi).trans (by simp)
    · by_cases hscope : other = scope
      · subst hscope
        rw [Finmap.lookup_insert] at hr
        cases hr
        exact List.mem_append_right _ (List.mem_singleton_self _)
      · rw [hnew other hscope] at hr
        exact List.mem_append_left _ (hs.latest other r hr)
    · exact hs.kept (fun _ hmem _ => ⟨hmem, .refl _⟩) (hnew other hother) (List.prefix_append _ _)
        hwired

end

/-! ## Loops of a call -/

/-- Only what `i` buffers may have been lost. -/
structure Around (i : Nat) (s s' : System) : Prop where
  places : SamePlaces s s'
  kept : ∀ j, j ≠ i → Kept (s.streams j) (s'.streams j)

section
variable {call : HubCall} {s s' s'' : System} {i : Nat} {revision : Int}

theorem Around.trans (h : Around i s s') (h' : Around i s' s'') : Around i s s'' :=
  ⟨h.places.trans h'.places, fun j hj => (h.kept j hj).trans (h'.kept j hj)⟩

theorem Apart.around (h : Apart s s') : Around i s s' := ⟨h.places, fun j _ => h.streams j⟩

theorem around_setChannel {channel : Channel Int}
    (h : channel.capacity = (s.streams i).channel.capacity) :
    Around i s (s.setChannel i channel) := by
  refine ⟨places_setChannel h, fun j hj => ?_⟩
  rw [setChannel_of_ne hj]
  exact .refl _

/-- A send into an open channel, as the call and then the streams see it. -/
theorem meets_trySend {Q : Except Fault Bool → System → Prop}
    (htouches : call.Touches (s.streams i).scope)
    (hopen : (s.streams i).channel.closed = false)
    (hsent : ∀ t, Around i s t → (t.streams i).channel.closed = false →
      Has (t.streams i) revision → Q (.ok true) t)
    (hfull : ∀ t, Around i s t → (t.streams i).channel.closed = false →
      (s.streams i).channel.buffer.length = (s.streams i).channel.capacity → Q (.ok false) t) :
    Meets Apart (Moves call) Q (trySend i revision) s := by
  have hcapacity := Channel.trySend_capacity (s.streams i).channel revision
  refine (meets_tryStep _ s).mpr ⟨moves_setChannel htouches hcapacity, fun t ht => ?_⟩
  have haround : Around i s t := (around_setChannel hcapacity).trans ht.around
  have hstream := ht.streams i
  rw [setChannel_self] at hstream
  have hclosed : (t.streams i).channel.closed = false :=
    hstream.closed.trans ((Channel.trySend_closed _ _).trans hopen)
  rcases Channel.trySend_open revision hopen with ⟨hresult, hbuffer⟩ | ⟨hresult, hlength⟩
  · rw [show ((s.streams i).channel.trySend revision).1 = .ok true by rw [hresult]]
    refine hsent t haround hclosed (hstream.has revision (.inl ?_))
    simp [hbuffer]
  · rw [show ((s.streams i).channel.trySend revision).1 = .ok false by rw [hresult]]
    exact hfull t haround hclosed hlength

/-- What a call takes out of a channel of capacity one leaves room for one. -/
theorem meets_tryReceive {Q : Except Fault (Received Int) → System → Prop}
    (htouches : call.Touches (s.streams i).scope)
    (hcapacity : (s.streams i).channel.capacity = 1)
    (hQ : ∀ r t, Around i s t →
      (t.streams i).channel.closed = (s.streams i).channel.closed →
      (t.streams i).channel.buffer.length = 0 → Q (.ok r) t) :
    Meets Apart (Moves call) Q (tryReceive i) s := by
  have hsame := Channel.tryReceive_capacity (s.streams i).channel
  refine (meets_step _ s).mpr ⟨moves_setChannel htouches hsame, fun t ht => ?_⟩
  have hstream := ht.streams i
  rw [setChannel_self] at hstream
  refine hQ _ t ((around_setChannel hsame).trans ht.around)
    (hstream.closed.trans (Channel.tryReceive_closed _)) ?_
  have hbounded := (s.streams i).channel.bounded
  have hshrinks := hstream.shrinks
  rcases Channel.tryReceive_buffer (s.streams i).channel with
    ⟨_, -, hbuffer⟩ | ⟨hsame, hbuffer⟩
  · rw [hbuffer, List.length_cons] at hbounded
    dsimp only at hshrinks
    omega
  · simp only [hsame, hbuffer, List.length_nil, Nat.le_zero] at hshrinks
    exact hshrinks

/-- Replace on full: whatever the stream receives meanwhile, it gets the
revision. -/
theorem meets_sendLatest {subscription : RevisionSubscription}
    (htouches : call.Touches (s.streams subscription.channel).scope)
    (hopen : (s.streams subscription.channel).channel.closed = false)
    (hcapacity : (s.streams subscription.channel).channel.capacity = 1) :
    Meets Apart (Moves call) (fun r t => r = .ok () ∧ Around subscription.channel s t ∧
        (t.streams subscription.channel).channel.closed = false ∧
        Has (t.streams subscription.channel) revision)
      (sendLatest revision subscription) s := by
  refine (meets_bind _ _ s).mpr (meets_trySend htouches hopen (fun t hst hclosed hhas => ?_)
    fun t hst hclosed _ => ?_)
  · exact ⟨rfl, hst, hclosed, hhas⟩
  have htouches' : call.Touches (t.streams subscription.channel).scope :=
    (hst.places.streams _).scope ▸ htouches
  have hcapacity' := (hst.places.streams subscription.channel).capacity.trans hcapacity
  refine (meets_bind _ _ t).mpr (meets_tryReceive htouches' hcapacity'
    fun _ u htu hclosed' hempty => ?_)
  have hopen' := hclosed'.trans hclosed
  have htouches'' : call.Touches (u.streams subscription.channel).scope :=
    (htu.places.streams _).scope ▸ htouches'
  refine (meets_bind _ _ u).mpr (meets_trySend htouches'' hopen' (fun v huv hclosed hhas => ?_)
    fun v _ _ hfull => ?_)
  · exact ⟨rfl, (hst.trans htu).trans huv, hclosed, hhas⟩
  · -- nobody else sends
    have hcapacity'' := (htu.places.streams subscription.channel).capacity.trans hcapacity'
    omega

/-- The close of an open channel. -/
theorem meets_closeChannel (htouches : call.Touches (s.streams i).scope)
    (hopen : (s.streams i).channel.closed = false) :
    Meets Apart (Moves call) (fun r t => r = .ok () ∧ Around i s t) (closeChannel i) s := by
  have hcapacity : (s.streams i).channel.close.2.capacity = (s.streams i).channel.capacity := by
    unfold Channel.close
    split <;> rfl
  refine (meets_tryStep _ s).mpr ⟨moves_setChannel htouches hcapacity, fun t ht => ?_⟩
  exact ⟨Channel.close_open hopen, (around_setChannel hcapacity).trans ht.around⟩

end

/-! ## Calls -/

section
variable {call : HubCall} {s t : System} {scope : RevisionScope} {revision : Int}
  {order : RangeOrder RevisionSubscription}

theorem mem_streams {hub : RevisionHub} {subscription : RevisionSubscription} :
    subscription ∈ hub.streams scope ↔
      subscription ∈ hub.subscribers ∧ subscription.scope = scope := by
  simp [RevisionHub.streams]

theorem mem_visit {l : List RevisionSubscription} {subscription : RevisionSubscription} :
    subscription ∈ order.visit l ↔ subscription ∈ l := (order.perm l).mem_iff

/-- The streams of a scope are visited once each. -/
theorem nodup_visit (scope : RevisionScope) (order : RangeOrder RevisionSubscription)
    (hs : Wired s) : (order.visit (s.hub.streams scope)).Nodup :=
  (order.perm _).nodup_iff.mpr (hs.distinct.of_map.filter _)

theorem Wired.touches (hs : Wired s) {subscription : RevisionSubscription}
    (hmem : subscription ∈ s.hub.streams scope) (hscope : call.Touches scope) :
    call.Touches (s.streams subscription.channel).scope := by
  obtain ⟨hmem, hsub⟩ := mem_streams.mp hmem
  rw [(hs.placed subscription hmem).2.1, hsub]
  exact hscope

theorem meets_publish (hwired : Wired s) (hs : Delivering s scope) :
    Meets Apart (Moves (.publish scope revision order))
      (fun r t => r = .ok () ∧ Delivering t scope) (publish scope revision order) s := by
  refine (meets_bind _ _ s).mpr ((meets_step _ s).mpr ⟨moves_announce, fun t hst => ?_⟩)
  dsimp only
  have hannounce : Moves (.publish scope revision order) s (s.announce scope revision).2 :=
    moves_announce
  have hwired' := hannounce.wired hwired
  generalize hannounced : s.announce scope revision = announced at hst hwired' ⊢
  obtain ⟨subscriptions, u⟩ := announced
  unfold System.announce at hannounced
  dsimp only at hannounced hst hwired' ⊢
  split at hannounced
  · cases hannounced
    have hnone : order.visit [] = [] := List.perm_nil.mp (order.perm [])
    rw [hnone]
    refine ⟨rfl, hst.delivering hwired' ?_⟩
    exact hs.kept (fun _ hmem _ => ⟨hmem, .refl _⟩) rfl (List.prefix_append _ _) hwired
  · cases hannounced
    refine Meets.imp (Meets.forEach (I := fun done v => SamePlaces t v ∧
      (∀ subscription ∈ s.hub.streams scope,
        (v.streams subscription.channel).channel.closed = false) ∧
      ∀ subscription ∈ done, Has (v.streams subscription.channel) revision) ?_ ?_) ?_
    · intro done subscription todo v hlist ⟨hplaces, hopen, hhas⟩
      have hmem : subscription ∈ s.hub.streams scope :=
        mem_visit.mp (hlist ▸ List.mem_append_right _ (List.mem_cons_self ..))
      have hhub : v.hub.streams scope = s.hub.streams scope := by
        rw [hplaces.hub, hst.hub]
        rfl
      have hwiredv := hplaces.wired (hst.places.wired hwired')
      have hcapacity := (hwiredv.placed subscription (mem_streams.mp (hhub ▸ hmem)).1).2.2
      refine Meets.imp (meets_sendLatest (hwiredv.touches (hhub ▸ hmem) rfl)
        (hopen subscription hmem) hcapacity) ?_
      rintro r x ⟨hr, haround, hclosed, hsent⟩
      refine ⟨hr, hplaces.trans haround.places, fun other hother => ?_, fun other hother => ?_⟩
      · by_cases heq : other.channel = subscription.channel
        · exact heq ▸ hclosed
        · exact (haround.kept _ heq).closed.trans (hopen other hother)
      · by_cases heq : other.channel = subscription.channel
        · exact heq ▸ hsent
        · rcases List.mem_append.mp hother with hother | hother
          · exact (haround.kept _ heq).has _ (hhas other hother)
          · exact absurd (congrArg _ (List.mem_singleton.mp hother)) heq
    · refine ⟨.refl t, fun subscription hmem => ?_, fun _ h => by cases h⟩
      obtain ⟨hmem, hscope⟩ := mem_streams.mp hmem
      exact (hst.streams _).closed.trans (hs subscription hmem hscope).1
    · rintro r v ⟨hr, hplaces, hopen, hhas⟩
      refine ⟨hr, fun subscription hmem hscope => ?_⟩
      rw [hplaces.hub, hst.hub] at hmem ⊢
      have hvisited := mem_streams.mpr ⟨hmem, hscope⟩
      have hlatest : (s.hub.latest.insert scope revision).lookup scope = some revision :=
        Finmap.lookup_insert _
      refine ⟨hopen subscription hvisited, .inr (.inl ?_)⟩
      simp only [RevisionHub.latestOf, hlatest, Option.getD_some]
      exact hhas subscription (mem_visit.mpr hvisited)

/-- What is left after a scope is disconnected. -/
structure Disconnected (scope : RevisionScope) (s t : System) : Prop where
  subscribers : t.hub.subscribers = s.hub.subscribers.filter fun other => other.scope ≠ scope
  wired : Wired t
  kept : ∀ i, (s.streams i).scope ≠ scope → Kept (s.streams i) (t.streams i)

theorem moves_removeScope (htouches : call.Touches scope) : Moves call s (s.removeScope scope) := by
  refine moves_fewer List.filter_sublist fun other => ?_
  by_cases h : other = scope
  · subst h
    refine .inr ⟨htouches, Finmap.lookup_erase .., fun subscription hmem => ?_⟩
    simpa using (List.mem_filter.mp hmem).2
  · exact .inl (Finmap.lookup_erase_ne h)

theorem meets_disconnect (htouches : call.Touches scope) (hwired : Wired s)
    (hopen : ∀ subscription ∈ s.hub.streams scope,
      (s.streams subscription.channel).channel.closed = false) :
    Meets Apart (Moves call) (fun r t => r = .ok () ∧ Disconnected scope s t)
      (disconnect scope order) s := by
  refine (meets_bind _ _ s).mpr ((meets_read _ s).mpr ⟨moves_refl s, fun t hst => ?_⟩)
  refine Meets.bind (Meets.forEach (I := fun done v => SamePlaces s v ∧
    (∀ subscription ∈ s.hub.streams scope, subscription ∉ done →
      (v.streams subscription.channel).channel.closed = false) ∧
    ∀ i, (s.streams i).scope ≠ scope → Kept (s.streams i) (v.streams i)) ?_ ?_)
    (fun _ v hv => ?_) fun _ _ hv => by cases hv.1
  · intro done subscription todo v hlist ⟨hplaces, hclosed, hkept⟩
    have hmem : subscription ∈ s.hub.streams scope :=
      mem_visit.mp (hlist ▸ List.mem_append_right _ (List.mem_cons_self ..))
    have hfresh : subscription ∉ done := by
      have hnodup := nodup_visit scope order hwired
      rw [hlist] at hnodup
      exact fun h => (List.nodup_append.mp hnodup).2.2 _ h _ (List.mem_cons_self ..) rfl
    have htouches' := (hplaces.wired hwired).touches (hplaces.hub ▸ hmem) htouches
    refine Meets.imp (meets_closeChannel htouches' (hclosed subscription hmem hfresh)) ?_
    rintro r x ⟨hr, haround⟩
    refine ⟨hr, hplaces.trans haround.places, fun other hother hnot => ?_, fun i hi => ?_⟩
    · simp only [List.mem_append, List.mem_singleton, not_or] at hnot
      have hne : other.channel ≠ subscription.channel := fun heq => hnot.2
        (List.inj_on_of_nodup_map hwired.distinct (mem_streams.mp hother).1
          (mem_streams.mp hmem).1 heq)
      exact (haround.kept _ hne).closed.trans (hclosed other hother hnot.1)
    · refine (hkept i hi).trans (haround.kept i ?_)
      rintro rfl
      obtain ⟨hmem, hscope⟩ := mem_streams.mp hmem
      exact hi ((hwired.placed subscription hmem).2.1.trans hscope)
  · exact ⟨hst.places, fun subscription hmem _ => (hst.streams _).closed.trans
      (hopen subscription hmem), fun i _ => hst.streams i⟩
  · obtain ⟨-, hplaces, -, hkept⟩ := hv
    refine (meets_modify _ v).mpr ⟨moves_removeScope htouches, fun x hvx => ⟨rfl, ?_, ?_, ?_⟩⟩
    · rw [hvx.hub]
      show List.filter _ v.hub.subscribers = _
      rw [hplaces.hub]
    · exact hvx.places.wired ((moves_removeScope htouches).wired (hplaces.wired hwired))
    · exact fun i hi => (hkept i hi).trans (hvx.streams i)

theorem moves_remove (subscription : RevisionSubscription) :
    Moves call s (s.remove subscription) :=
  moves_fewer List.filter_sublist fun _ => .inl rfl

/-- What a disconnection of some streams of a scope leaves. -/
structure Thinned (s t : System) : Prop where
  latest : t.hub.latest = s.hub.latest
  published : t.published = s.published
  wired : Wired t
  subscribers : ∀ subscription ∈ t.hub.subscribers, subscription ∈ s.hub.subscribers ∧
    Kept (s.streams subscription.channel) (t.streams subscription.channel)

theorem meets_disconnectMatching {isMatch : RevisionSubscription → Bool}
    (htouches : call.Touches scope) (hwired : Wired s)
    (hopen : ∀ subscription ∈ s.hub.streams scope,
      (s.streams subscription.channel).channel.closed = false) :
    Meets Apart (Moves call) (fun r t => r = .ok () ∧ Thinned s t)
      (disconnectMatching scope isMatch order) s := by
  refine (meets_bind _ _ s).mpr ((meets_read _ s).mpr ⟨moves_refl s, fun t hst => ?_⟩)
  refine Meets.imp (Meets.forEach (I := fun done v => Thinned s v ∧
    ∀ subscription ∈ s.hub.streams scope, subscription ∉ done →
      Kept (s.streams subscription.channel) (v.streams subscription.channel)) ?_ ?_)
    fun _ _ hv => ⟨hv.1, hv.2.1⟩
  · intro done subscription todo v hlist ⟨hthinned, htodo⟩
    have hmem : subscription ∈ s.hub.streams scope :=
      mem_visit.mp (hlist ▸ List.mem_append_right _ (List.mem_cons_self ..))
    have hfresh : subscription ∉ done := by
      have hnodup := nodup_visit scope order hwired
      rw [hlist] at hnodup
      exact fun h => (List.nodup_append.mp hnodup).2.2 _ h _ (List.mem_cons_self ..) rfl
    have hkept := htodo subscription hmem hfresh
    by_cases hmatch : isMatch subscription = true
    · rw [if_pos hmatch]
      have htouches' : call.Touches (v.streams subscription.channel).scope :=
        hkept.scope ▸ hwired.touches hmem htouches
      refine Meets.bind (meets_closeChannel htouches'
        (hkept.closed.trans (hopen subscription hmem))) (fun _ x hx => ?_) fun _ _ hx => by cases hx.1
      obtain ⟨-, haround⟩ := hx
      have hwiredx := haround.places.wired hthinned.wired
      have hremove : Moves call x (x.remove subscription) := moves_remove subscription
      refine (meets_modify _ x).mpr ⟨hremove, fun y hxy => ⟨rfl, ?_, ?_⟩⟩
      · refine ⟨?_, ?_, hxy.places.wired (hremove.wired hwiredx), ?_⟩
        · rw [hxy.hub]
          show x.hub.latest = _
          rw [haround.places.hub, hthinned.latest]
        · rw [hxy.published]
          show x.published = _
          rw [haround.places.published, hthinned.published]
        · intro other hother
          rw [hxy.hub] at hother
          obtain ⟨hother, hne⟩ := List.mem_filter.mp hother
          rw [haround.places.hub] at hother
          obtain ⟨hold, hkept'⟩ := hthinned.subscribers other hother
          have hchannel : other.channel ≠ subscription.channel := fun heq => by
            have := List.inj_on_of_nodup_map hwired.distinct hold (mem_streams.mp hmem).1 heq
            simp [this] at hne
          exact ⟨hold, (hkept'.trans (haround.kept _ hchannel)).trans (hxy.streams _)⟩
      · intro other hother hnot
        simp only [List.mem_append, List.mem_singleton, not_or] at hnot
        have hchannel : other.channel ≠ subscription.channel := fun heq => hnot.2
          (List.inj_on_of_nodup_map hwired.distinct (mem_streams.mp hother).1
            (mem_streams.mp hmem).1 heq)
        exact ((htodo other hother hnot.1).trans (haround.kept _ hchannel)).trans (hxy.streams _)
    · rw [if_neg hmatch]
      refine ⟨rfl, hthinned, fun other hother hnot => htodo other hother fun h => hnot ?_⟩
      exact List.mem_append_left _ h
  · refine ⟨⟨by rw [hst.hub], hst.published, hst.places.wired hwired, fun subscription hmem => ?_⟩,
      fun subscription _ _ => hst.streams _⟩
    exact ⟨hst.hub ▸ hmem, hst.streams _⟩

/-- A shutdown disconnects one scope after the other. -/
theorem meets_shutdown {scopes : RangeOrder RevisionScope} (hall : ∀ scope, call.Touches scope)
    (hwired : Wired s) (hs : ∀ scope, Delivering s scope) :
    Meets Apart (Moves call) (fun r t => r = .ok () ∧ t.hub.subscribers = [])
      (shutdown scopes order) s := by
  have hclosing : Moves call s { s with hub := { s.hub with closed := true } } :=
    moves_fewer (List.Sublist.refl _) fun _ => .inl rfl
  refine (meets_bind _ _ s).mpr ((meets_step _ s).mpr ⟨hclosing, fun t hst => ?_⟩)
  refine Meets.imp (Meets.forEach (I := fun done v => Wired v ∧
    ∀ subscription ∈ v.hub.subscribers, subscription ∈ s.hub.subscribers ∧
      subscription.scope ∉ done ∧ (v.streams subscription.channel).channel.closed = false) ?_ ?_) ?_
  · intro done scope todo v _ ⟨hwiredv, hrest⟩
    refine Meets.imp (meets_disconnect (hall scope) hwiredv fun subscription hmem =>
      (hrest subscription (mem_streams.mp hmem).1).2.2) ?_
    rintro r x ⟨hr, hx⟩
    refine ⟨hr, hx.wired, fun subscription hmem => ?_⟩
    rw [hx.subscribers] at hmem
    obtain ⟨hmem, hne⟩ := List.mem_filter.mp hmem
    obtain ⟨hold, hnot, hopen⟩ := hrest subscription hmem
    have hscope : (v.streams subscription.channel).scope ≠ scope := by
      rw [(hwiredv.placed subscription hmem).2.1]
      simpa using hne
    refine ⟨hold, ?_, (hx.kept _ hscope).closed.trans hopen⟩
    simp only [List.mem_append, List.mem_singleton, not_or]
    exact ⟨hnot, by simpa using hne⟩
  · refine ⟨hst.places.wired (hclosing.wired hwired), fun subscription hmem => ?_⟩
    rw [hst.hub] at hmem
    exact ⟨hmem, List.not_mem_nil, (hst.streams _).closed.trans (hs _ subscription hmem rfl).1⟩
  · rintro r v ⟨hr, -, hrest⟩
    refine ⟨hr, List.eq_nil_iff_forall_not_mem.mpr fun subscription hmem => ?_⟩
    obtain ⟨hold, hnot, -⟩ := hrest subscription hmem
    refine hnot ((scopes.perm _).mem_iff.mpr (List.mem_dedup.mpr ?_))
    exact List.mem_map_of_mem hold

/-- What a call leaves of the scopes it works on. -/
def Finished (call : HubCall) (r : Except Fault Unit) (s : System) : Prop :=
  r = .ok () ∧ ∀ scope, call.Touches scope → Delivering s scope

theorem Thinned.delivering (h : Thinned s t) (hwired : Wired s) (hs : Delivering s scope) :
    Delivering t scope :=
  hs.kept (fun subscription hmem _ => h.subscribers subscription hmem) (by rw [h.latest])
    (h.published ▸ List.prefix_refl _) hwired

theorem meets_body (hwired : Wired s) (hs : ∀ scope, Delivering s scope) :
    Meets Apart (Moves call) (Finished call) call.body s := by
  have hopen : ∀ scope, ∀ subscription ∈ s.hub.streams scope,
      (s.streams subscription.channel).channel.closed = false := fun scope subscription hmem => by
    obtain ⟨hmem, hscope⟩ := mem_streams.mp hmem
    exact (hs scope subscription hmem hscope).1
  cases call with
  | subscribe scope sessionID deviceID =>
    exact (meets_modify _ s).mpr ⟨moves_subscribe scope sessionID deviceID, fun _ _ =>
      ⟨rfl, fun _ h => h.elim⟩⟩
  | unsubscribe scope id =>
    exact (meets_modify _ s).mpr ⟨moves_fewer List.filter_sublist fun _ => .inl rfl, fun _ _ =>
      ⟨rfl, fun _ h => h.elim⟩⟩
  | publish scope revision order =>
    refine (meets_publish hwired (hs scope)).imp fun r t ⟨hr, ht⟩ => ⟨hr, ?_⟩
    rintro _ rfl
    exact ht
  | disconnect scope order =>
    have htouches : (HubCall.disconnect scope order).Touches scope := rfl
    refine (meets_disconnect htouches hwired (hopen scope)).imp fun r t ⟨hr, ht⟩ => ⟨hr, ?_⟩
    rintro _ rfl subscription hmem hscope
    rw [ht.subscribers] at hmem
    exact absurd hscope (by simpa using (List.mem_filter.mp hmem).2)
  | disconnectSession scope sessionID order =>
    have htouches : (HubCall.disconnectSession scope sessionID order).Touches scope := rfl
    exact (meets_disconnectMatching htouches hwired (hopen scope)).imp fun r t ⟨hr, ht⟩ =>
      ⟨hr, fun other _ => ht.delivering hwired (hs other)⟩
  | disconnectDevice scope deviceID order =>
    have htouches : (HubCall.disconnectDevice scope deviceID order).Touches scope := rfl
    exact (meets_disconnectMatching htouches hwired (hopen scope)).imp fun r t ⟨hr, ht⟩ =>
      ⟨hr, fun other _ => ht.delivering hwired (hs other)⟩
  | shutdown scopes order =>
    have htouches : ∀ scope, (HubCall.shutdown scopes order).Touches scope := fun _ => trivial
    refine (meets_shutdown htouches hwired hs).imp fun r t ⟨hr, ht⟩ => ⟨hr, ?_⟩
    intro scope _ subscription hmem
    rw [ht] at hmem
    cases hmem

end

/-! ## Every interleaving -/

/-- The stream has made its starting read and goes on. -/
def Underway (stream : Stream) : Prop := stream.phase ≠ .reading ∧ stream.phase ≠ .ended

/-- Between any two steps; where the current call works, its streams wait. -/
structure Invariant (current : Option HubCall) (s : System) (w : Commits) : Prop where
  wired : Wired s
  delivering : ∀ scope, (∀ call, current = some call → ¬ call.Touches scope) → Delivering s scope
  ordered : ∀ i < s.opened, Ordered (s.streams i)
  published : ∀ scope revision, (scope, revision) ∈ s.published → revision ∈ w scope
  publishing : ∀ scope revision order, current = some (.publish scope revision order) →
    revision ∈ w scope
  known : ∀ i < s.opened, Underway (s.streams i) → ∀ revision,
    ((s.streams i).scope, revision) ∈ s.published.take (s.streams i).subscribedAt →
    revision ∈ (s.streams i).committed
  newest : ∀ scope, ∀ revision ∈ w scope, revision ≤ w.current scope
  nonneg : ∀ scope, 0 ≤ w.current scope

section
variable {current : Option HubCall} {s s' : System} {w w' : Commits} {call : HubCall}

@[simp] theorem setStream_self (i : Nat) (stream : Stream) :
    (s.setStream i stream).streams i = stream := Function.update_self i _ _

@[simp] theorem setStream_of_ne {i j : Nat} (stream : Stream) (h : j ≠ i) :
    (s.setStream i stream).streams j = s.streams j := Function.update_of_ne h _ _

theorem apart_setStream {i : Nat} {stream : Stream} (h : Kept (s.streams i) stream) :
    Apart s (s.setStream i stream) := by
  refine ⟨rfl, rfl, rfl, fun j => ?_⟩
  by_cases hj : j = i
  · subst hj
    rwa [setStream_self]
  · rw [setStream_of_ne _ hj]
    exact .refl _

/-- A step of one stream. -/
theorem Invariant.setStream (h : Invariant current s w) {i : Nat} {stream : Stream}
    (hkept : Kept (s.streams i) stream) (hordered : Ordered stream)
    (hknown : Underway stream → ∀ revision,
      ((s.streams i).scope, revision) ∈ s.published.take (s.streams i).subscribedAt →
      revision ∈ stream.committed) :
    Invariant current (s.setStream i stream) w where
  wired := (apart_setStream hkept).places.wired h.wired
  delivering scope hscope := (apart_setStream hkept).delivering h.wired (h.delivering scope hscope)
  ordered j hj := by
    by_cases heq : j = i
    · subst heq
      rwa [setStream_self]
    · rw [setStream_of_ne _ heq]
      exact h.ordered j hj
  published := h.published
  publishing := h.publishing
  known j hj := by
    by_cases heq : j = i
    · subst heq
      rw [setStream_self, hkept.scope, hkept.subscribedAt]
      exact hknown
    · rw [setStream_of_ne _ heq]
      exact h.known j hj
  newest := h.newest
  nonneg := h.nonneg

theorem Invariant.beside (h : Invariant current s w) (hstep : Beside (s, w) (s', w')) :
    Invariant current s' w' ∧ Apart s s' := by
  cases hstep with
  | commit scope revision hpos hnew =>
    have hof : ∀ other, (w.commit scope revision) other =
        if other = scope then revision :: w scope else w other := fun other =>
      Function.update_apply _ _ _ _
    refine ⟨⟨h.wired, h.delivering, h.ordered, fun other r hr => ?_, fun other r order hr => ?_,
      h.known, fun other r hr => ?_, fun other => ?_⟩, .refl s⟩
    · have hold := h.published other r hr
      rw [hof]
      split
      · rename_i heq
        exact List.mem_cons_of_mem _ (heq ▸ hold)
      · exact hold
    · have hold := h.publishing other r order hr
      rw [hof]
      split
      · rename_i heq
        exact List.mem_cons_of_mem _ (heq ▸ hold)
      · exact hold
    · rw [hof] at hr
      rw [Commits.current, hof]
      split at hr
      · rename_i heq
        rw [if_pos heq]
        rcases List.mem_cons.mp hr with rfl | hr
        · exact le_rfl
        · exact (hnew r hr).le
      · rename_i hne
        rw [if_neg hne]
        exact h.newest other r hr
    · rw [Commits.current, hof]
      split
      · exact hpos.le
      · exact h.nonneg other
  | @read _ _ i hi hphase =>
    have hkept : Kept (s.streams i) { s.streams i with
        phase := .starting (w.current (s.streams i).scope)
        committed := w (s.streams i).scope } := ⟨⟨rfl, rfl, rfl⟩, rfl, fun _ => id, le_rfl⟩
    refine ⟨h.setStream hkept ?_ fun _ revision hrevision => ?_, apart_setStream hkept⟩
    · obtain ⟨hdescending, hreading⟩ := h.ordered i hi
      rw [hphase] at hreading
      exact ⟨hdescending, hreading.1, hreading.2, h.nonneg _, h.newest _⟩
    · exact h.published _ revision (List.mem_of_mem_take hrevision)
  | @stream _ _ i stream hi hstream =>
    have hkept := StreamStep.kept hstream
    refine ⟨h.setStream hkept ((h.ordered i hi).step hstream) fun hphase revision hrevision => ?_,
      apart_setStream hkept⟩
    have hcommitted : stream.committed = (s.streams i).committed := by cases hstream <;> rfl
    rw [hcommitted]
    refine h.known i hi ?_ revision hrevision
    cases hstream with
    | start hphase' | receive hphase' _ | write hphase' _ | skip hphase' _ =>
      exact ⟨by simp [hphase'], by simp [hphase']⟩
    | closed _ _ | stop => exact absurd rfl hphase.2

theorem Invariant.start (h : Invariant none s w) (hstart : call.start w w') :
    Invariant (some call) s w' := by
  have hdelivering : ∀ scope, Delivering s scope := fun scope =>
    h.delivering scope fun _ hcall => by cases hcall
  cases call with
  | publish scope revision order =>
    obtain ⟨hcommitted, rfl⟩ := hstart
    refine ⟨h.wired, fun scope _ => hdelivering scope, h.ordered, h.published, ?_, h.known,
      h.newest, h.nonneg⟩
    rintro _ _ _ ⟨⟩
    exact hcommitted
  | _ =>
    obtain rfl : w' = w := hstart
    exact ⟨h.wired, fun scope _ => hdelivering scope, h.ordered, h.published, (by rintro _ _ _ ⟨⟩),
      h.known, h.newest, h.nonneg⟩

theorem Invariant.act (h : Invariant (some call) s w) (hmoves : Moves call s s') :
    Invariant (some call) s' w := by
  have hprefix : s.published <+: s'.published := by
    rcases hmoves.published with heq | ⟨scope, revision, order, -, heq⟩
    · exact heq ▸ List.prefix_refl _
    · exact heq ▸ List.prefix_append _ _
  refine ⟨hmoves.wired h.wired, fun scope hscope => ?_, fun i hi => ?_, fun scope revision hr => ?_,
    h.publishing, fun i hi => ?_, h.newest, h.nonneg⟩
  · exact hmoves.delivering scope (hscope call rfl) h.wired (h.delivering scope hscope)
  · rcases hmoves.streams i hi with ⟨hi, channel, heq⟩ | ⟨scope, channel, heq⟩
    · rw [heq]
      exact ⟨(h.ordered i hi).descending, (h.ordered i hi).phase⟩
    · rw [heq]
      exact ordered_fresh scope channel _
  · rcases hmoves.published with heq | ⟨other, newest, order, hcall, heq⟩
    · exact h.published scope revision (heq ▸ hr)
    · rw [heq] at hr
      rcases List.mem_append.mp hr with hr | hr
      · exact h.published scope revision hr
      · cases List.mem_singleton.mp hr
        exact h.publishing scope revision order (congrArg some hcall)
  · rcases hmoves.streams i hi with ⟨hi, channel, heq⟩ | ⟨scope, channel, heq⟩
    · rw [heq]
      intro hunderway revision hrevision
      obtain ⟨rest, hrest⟩ := hprefix
      rw [← hrest, List.take_append_of_le_length (h.wired.history i hi)] at hrevision
      exact h.known i hi hunderway revision hrevision
    · rw [heq]
      exact fun hunderway => absurd rfl hunderway.1

theorem hub_rules : CallRules hubMachine (fun _ _ => True) Apart Moves
    (fun call r s => Finished call r s) Invariant where
  refl := Apart.refl
  trans _ _ _ := Apart.trans
  others h hstep := h.beside hstep
  start {call s w w'} h hstart := by
    refine ⟨h.start hstart, fun t hst => ?_⟩
    have hdelivering : ∀ scope, Delivering s scope := fun scope =>
      h.delivering scope fun _ hcall => by cases hcall
    exact meets_body (hst.places.wired h.wired) fun scope =>
      hst.delivering h.wired (hdelivering scope)
  act h hmoves _ := h.act hmoves
  finish {call s w w' r} h hresult hfinish := by
    obtain ⟨hsome, rfl⟩ := hfinish
    obtain ⟨r, rfl⟩ := Option.isSome_iff_exists.mp hsome
    have hfinished := hresult r rfl
    refine ⟨h.wired, fun scope _ => ?_, h.ordered, h.published, (by rintro _ _ _ ⟨⟩), h.known,
      h.newest, h.nonneg⟩
    by_cases htouches : call.Touches scope
    · exact hfinished.2 scope htouches
    · exact h.delivering scope fun other hother => by cases hother; exact htouches

theorem initial_invariant : Invariant none System.initial (fun _ => []) where
  wired := by
    refine ⟨fun _ h => ?_, List.nodup_nil, fun _ h => ?_, fun _ h => ?_, fun scope r h => ?_⟩
    · cases h
    · cases h
    · exact absurd h (Nat.not_lt_zero _)
    · cases (Finmap.lookup_empty (β := fun _ : RevisionScope => Int) scope).symm.trans h
  delivering scope _ _ h := by cases h
  ordered _ h := absurd h (Nat.not_lt_zero _)
  published _ _ h := by cases h
  publishing := by rintro _ _ _ ⟨⟩
  known _ h := absurd h (Nat.not_lt_zero _)
  newest _ _ h := by cases h
  nonneg _ := le_rfl

end

/-- What was published to a stream's account since the stream subscribed. -/
def Since (s : System) (stream : Stream) (revision : Int) : Prop :=
  (stream.scope, revision) ∈ s.published.drop stream.subscribedAt

/-- What was published to a stream's account before the stream subscribed. -/
def Before (s : System) (stream : Stream) (revision : Int) : Prop :=
  (stream.scope, revision) ∈ s.published.take stream.subscribedAt

/-- No call works on the streams of the scope. -/
def Quiet (c : HubConfig) (scope : RevisionScope) : Prop :=
  ∀ call p, c.current = some (call, p) → ¬ call.Touches scope

section
variable {c : HubConfig} {s : System} {subscription : RevisionSubscription}

theorem run_invariant (hrun : Runs hubMachine (fun _ _ => True) HubConfig.initial c) :
    CallHolds Apart Moves (fun call r s => Finished call r s) Invariant c :=
  hub_rules.runs (.idle initial_invariant) hrun

/-- The largest revision published since is the latest one, unless that was
published before. -/
theorem delivered {current : Option HubCall} {w : Commits} (h : Invariant current s w)
    (hmem : subscription ∈ s.hub.subscribers) (hs : Delivering s subscription.scope) {newest : Int}
    (hnewest : Since s (s.streams subscription.channel) newest)
    (hlargest : ∀ revision, Since s (s.streams subscription.channel) revision → revision ≤ newest) :
    Has (s.streams subscription.channel) newest ∨ newest ≤ 0 ∨
      ∃ revision, Before s (s.streams subscription.channel) revision ∧ newest ≤ revision := by
  have hscope := (h.wired.placed subscription hmem).2.1
  unfold Since Before at *
  rw [hscope] at hnewest hlargest ⊢
  have hle := h.wired.since subscription hmem newest hnewest
  obtain ⟨-, hnone | hhas | hbefore⟩ := hs subscription hmem rfl
  · refine .inr (.inl ?_)
    simpa [RevisionHub.latestOf, hnone] using hle
  · by_cases hzero : s.hub.latest.lookup subscription.scope = none
    · exact .inr (.inl (by simpa [RevisionHub.latestOf, hzero] using hle))
    · obtain ⟨latest, hlatest⟩ := Option.ne_none_iff_exists'.mp hzero
      have hof : s.hub.latestOf subscription.scope = latest := by
        simp [RevisionHub.latestOf, hlatest]
      rw [hof] at hle hhas
      have hpublished := h.wired.latest _ _ hlatest
      rw [← List.take_append_drop (s.streams subscription.channel).subscribedAt s.published] at hpublished
      rcases List.mem_append.mp hpublished with hbefore | hsince
      · exact .inr (.inr ⟨latest, hbefore, hle⟩)
      · rw [le_antisymm hle (hlargest latest hsince)]
        exact .inl hhas
  · exact .inr (.inr ⟨_, hbefore, hle⟩)

/-- A stream that waits with an empty channel has written the latest revision. -/
theorem drained {current : Option HubCall} {w : Commits} (h : Invariant current s w)
    (hmem : subscription ∈ s.hub.subscribers) (hs : Delivering s subscription.scope)
    {lastSent revision : Int}
    (hphase : (s.streams subscription.channel).phase = .serving lastSent)
    (hempty : (s.streams subscription.channel).channel.buffer = [])
    (hrevision : revision ∈ (s.streams subscription.channel).committed ∨
      Since s (s.streams subscription.channel) revision) :
    ∃ written ∈ (s.streams subscription.channel).written, revision ≤ written := by
  obtain ⟨hopened, hscope, -⟩ := h.wired.placed subscription hmem
  have hsettled := (h.ordered _ hopened).phase
  rw [hphase] at hsettled
  refine ⟨lastSent, List.mem_of_mem_head? hsettled.written, ?_⟩
  rcases hrevision with hcommitted | hsince
  · exact hsettled.committed revision hcommitted
  · unfold Since at hsince
    rw [hscope] at hsince
    refine (h.wired.since subscription hmem revision hsince).trans ?_
    obtain ⟨-, hnone | hhas | hbefore⟩ := hs subscription hmem rfl
    · simpa [RevisionHub.latestOf, hnone] using hsettled.nonneg
    · rcases hhas with hbuffer | hreceived
      · rw [hempty] at hbuffer
        cases hbuffer
      · exact hsettled.received _ hreceived
    · have hunderway : Underway (s.streams subscription.channel) := by simp [Underway, hphase]
      exact hsettled.committed _ (h.known _ hopened hunderway _ (hscope ▸ hbefore))

end

/-- Revision hub delivery: in every run no call of the hub ends in a fault and
each can return without anyone else; while no call works on its scope, a
subscriber has in its channel or has received the largest revision published
since it subscribed, unless that is no larger than one published before; every
stream writes strictly increasing revisions, and one that waits with an empty
channel has written all that was committed before its starting read or published
since it subscribed. -/
theorem revision_delivery {c : HubConfig}
    (hrun : Runs hubMachine (fun _ _ => True) HubConfig.initial c) :
    (∀ call p, c.current = some (call, p) → (p.run c.shared).1 = .ok ()) ∧
    (∀ subscription ∈ c.shared.hub.subscribers, Quiet c subscription.scope →
      ∀ newest, Since c.shared (c.shared.streams subscription.channel) newest →
      (∀ revision, Since c.shared (c.shared.streams subscription.channel) revision →
        revision ≤ newest) →
      Has (c.shared.streams subscription.channel) newest ∨ newest ≤ 0 ∨
        ∃ revision, Before c.shared (c.shared.streams subscription.channel) revision ∧
          newest ≤ revision) ∧
    (∀ i < c.shared.opened, (c.shared.streams i).written.Pairwise (· > ·)) ∧
    ∀ subscription ∈ c.shared.hub.subscribers, Quiet c subscription.scope → ∀ lastSent,
      (c.shared.streams subscription.channel).phase = .serving lastSent →
      (c.shared.streams subscription.channel).channel.buffer = [] → ∀ revision,
      revision ∈ (c.shared.streams subscription.channel).committed ∨
        Since c.shared (c.shared.streams subscription.channel) revision →
      ∃ written ∈ (c.shared.streams subscription.channel).written, revision ≤ written := by
  have hholds := run_invariant hrun
  have hquiet : ∀ scope, Quiet c scope → Delivering c.shared scope := by
    intro scope h
    refine hholds.inv.delivering scope fun call hcall => ?_
    obtain ⟨⟨call', p⟩, hcurrent, rfl⟩ := Option.map_eq_some_iff.mp hcall
    exact h call' p hcurrent
  refine ⟨fun call p hcurrent => ?_, fun subscription hmem h newest hnewest hlargest =>
    delivered hholds.inv hmem (hquiet _ h) hnewest hlargest,
    fun i hi => (hholds.inv.ordered i hi).descending, fun subscription hmem h lastSent hphase hempty
    revision hrevision => drained hholds.inv hmem (hquiet _ h) hphase hempty hrevision⟩
  have hsafe := hholds.safe call p hcurrent c.shared (.refl _)
  exact (hsafe.run Apart.refl).1

/-! ## A late publication -/

section
variable {w : Commits} {s : System}

/-- Without interference a call runs to its end. -/
theorem runs_hubCall {call : HubCall} (hstart : call.start w w) :
    Runs hubMachine (fun _ _ => True) ⟨s, w, none⟩ ⟨(call.body.exec s).2, w, none⟩ :=
  Runs.call (M := hubMachine) rfl hstart ⟨rfl, rfl⟩ trivial (fun _ _ _ _ => trivial) trivial

theorem runs_beside {s' : System} {w' : Commits} (h : Beside (s, w) (s', w')) :
    Runs hubMachine (fun _ _ => True) ⟨s, w, none⟩ ⟨s', w', none⟩ :=
  Runs.single (.other h) trivial

end

def lateScope : RevisionScope := ⟨"user", 1⟩

def lateCommits : Commits :=
  (Commits.commit (fun _ => []) lateScope 3).commit lateScope 5

/-- Revision 5 is published before the stream subscribes, and revision 3 after. -/
def lateCalls : List HubCall :=
  [.publish lateScope 5 (.asListed _), .subscribe lateScope "session" "device",
    .publish lateScope 3 (.asListed _)]

def lateSystem : System := lateCalls.foldl (fun s call => (call.body.exec s).2) .initial

def lateSubscription : RevisionSubscription := ⟨lateScope, 1, 0, "session", "device"⟩

/-- The stream after its starting read. -/
def lateRead : System :=
  lateSystem.setStream 0 { lateSystem.streams 0 with
    phase := .starting (lateCommits.current (lateSystem.streams 0).scope)
    committed := lateCommits (lateSystem.streams 0).scope }

/-- The stream after its first write. -/
def lateWritten : System :=
  lateRead.setStream 0 { lateRead.streams 0 with phase := .serving 5, written := [5] }

theorem runs_late :
    Runs hubMachine (fun _ _ => True) HubConfig.initial ⟨lateWritten, lateCommits, none⟩ := by
  have hcommits : Runs hubMachine (fun _ _ => True) HubConfig.initial
      ⟨System.initial, lateCommits, none⟩ :=
    (runs_beside (.commit lateScope 3 (by decide) (by rintro _ ⟨⟩))).trans
      (runs_beside (.commit lateScope 5 (by decide) (by decide)))
  have hcalls : ∀ calls : List HubCall, (∀ call ∈ calls, call.start lateCommits lateCommits) →
      ∀ s, Runs hubMachine (fun _ _ => True) ⟨s, lateCommits, none⟩
        ⟨calls.foldl (fun s call => (call.body.exec s).2) s, lateCommits, none⟩ := by
    intro calls
    induction calls with
    | nil => exact fun _ _ => .refl
    | cons call calls ih =>
      intro h s
      exact (runs_hubCall (h call (List.mem_cons_self ..))).trans
        (ih (fun other hother => h other (List.mem_cons_of_mem _ hother)) _)
  have hlate : ∀ call ∈ lateCalls, call.start lateCommits lateCommits := by
    intro call hcall
    simp only [lateCalls, List.mem_cons, List.not_mem_nil, or_false] at hcall
    rcases hcall with rfl | rfl | rfl
    · exact ⟨by decide, rfl⟩
    · rfl
    · exact ⟨by decide, rfl⟩
  refine ((hcommits.trans (hcalls lateCalls hlate _)).trans (runs_beside (.read ?_ ?_))).trans
    (runs_beside (.stream ?_ (.start ?_)))
  · decide
  · rfl
  · decide
  · rfl

theorem since_late {revision : Int} :
    Since lateWritten (lateWritten.streams 0) revision ↔ revision = 3 := by
  have hsince : lateWritten.published.drop (lateWritten.streams 0).subscribedAt =
      [(lateScope, 3)] := rfl
  unfold Since
  rw [hsince, List.mem_singleton]
  exact ⟨fun h => by cases h; rfl, fun h => by cases h; rfl⟩

/-- The stream of the late publication has written what it missed. -/
theorem delivery_late : ∃ written ∈ (lateWritten.streams 0).written, 3 ≤ written :=
  (revision_delivery runs_late).2.2.2 lateSubscription (by decide) (by rintro _ _ ⟨⟩) 5 rfl rfl 3
    (.inr (since_late.mpr rfl))

/-- A revision published after a larger one is not delivered. -/
theorem delivery_skips_stale : ¬ ∀ c : HubConfig,
    Runs hubMachine (fun _ _ => True) HubConfig.initial c →
    ∀ subscription ∈ c.shared.hub.subscribers, Quiet c subscription.scope →
    ∀ newest, Since c.shared (c.shared.streams subscription.channel) newest →
      (∀ revision, Since c.shared (c.shared.streams subscription.channel) revision →
        revision ≤ newest) →
      Has (c.shared.streams subscription.channel) newest := by
  intro h
  have hlargest : ∀ revision, Since lateWritten (lateWritten.streams 0) revision → revision ≤ 3 :=
    fun revision hrevision => (since_late.mp hrevision).le
  rcases h _ runs_late lateSubscription (by decide) (by rintro _ _ ⟨⟩) 3 (since_late.mpr rfl)
    hlargest with hbuffer | hreceived
  · have hempty : (lateWritten.streams 0).channel.buffer = [] := rfl
    exact absurd (hempty ▸ hbuffer) List.not_mem_nil
  · have hempty : (lateWritten.streams 0).received = [] := rfl
    exact absurd (hempty ▸ hreceived) List.not_mem_nil

end Pomodorough.Server.RevisionDelivery
