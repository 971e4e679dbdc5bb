import Mathlib.Data.List.Perm.Basic

/-! # Owned resources

A host makes calls on a state it does not control and owns some of what they answer.
The calls it made are the events of its run. What a run takes over, obtains, gives back
and leaves is told by its events, whatever the calls answer. -/
namespace Pomodorough.Library.OwnedResources
open scoped List

/-- A run: its answer, the events and the state after them. -/
def Host (σ Event α : Type) := σ → α × List Event × σ

namespace Host
variable {σ Event Event' α β : Type}

instance : Monad (Host σ Event) where
  pure a := fun s => (a, [], s)
  bind m f := fun s =>
    let (a, before, s) := m s
    let (b, after, s) := f a s
    (b, before ++ after, s)

/-- A call, with the event that its answer makes. -/
def call (f : σ → α × σ) (event : α → Event) : Host σ Event α := fun s =>
  let (answer, s) := f s
  (answer, [event answer], s)

def read (f : σ → α) : Host σ Event α := fun s => (f s, [], s)

def update (f : σ → σ) : Host σ Event Unit := fun s => ((), [], f s)

/-- A run whose events are seen as other events. -/
def tag (f : Event → Event') (m : Host σ Event α) : Host σ Event' α := fun s =>
  let (answer, events, s) := m s
  (answer, events.map f, s)

/-- What holds of the answer, the events and the last state of a run from a state. -/
def After (m : Host σ Event α) (s : σ) (Q : α → List Event → σ → Prop) : Prop :=
  Q (m s).1 (m s).2.1 (m s).2.2

section After
variable {m : Host σ Event α} {f : α → Host σ Event β} {s : σ} {Q : α → List Event → σ → Prop}

theorem After.pure {a : α} (h : Q a [] s) : After (pure a : Host σ Event α) s Q := h

theorem After.bind {R : β → List Event → σ → Prop} (hm : After m s Q)
    (hf : ∀ a before s', Q a before s' →
      After (f a) s' fun b after last => R b (before ++ after) last) :
    After (m >>= f) s R :=
  hf _ _ _ hm

theorem After.mono {R : α → List Event → σ → Prop} (hm : After m s Q)
    (h : ∀ a events last, Q a events last → R a events last) : After m s R :=
  h _ _ _ hm

theorem After.call {g : σ → α × σ} {event : α → Event}
    (h : Q (g s).1 [event (g s).1] (g s).2) : After (call g event) s Q := h

theorem After.read {g : σ → α} (h : Q (g s) [] s) : After (read g : Host σ Event α) s Q := h

theorem After.update {g : σ → σ} {Q : Unit → List Event → σ → Prop} (h : Q () [] (g s)) :
    After (update g : Host σ Event Unit) s Q := h

end After

/-- What holds of the answer and the events of every run. -/
def Spec (m : Host σ Event α) (Q : α → List Event → Prop) : Prop :=
  ∀ s, After m s fun a events _ => Q a events

section Spec
variable {m : Host σ Event α} {f : α → Host σ Event β} {Q : α → List Event → Prop}

theorem Spec.pure {a : α} (h : Q a []) : Spec (pure a : Host σ Event α) Q := fun _ => After.pure h

theorem Spec.bind {R : β → List Event → Prop} (hm : Spec m Q)
    (hf : ∀ a before, Q a before → Spec (f a) fun b after => R b (before ++ after)) :
    Spec (m >>= f) R :=
  fun s => After.bind (hm s) fun a before last h => hf a before h last

theorem Spec.mono {R : α → List Event → Prop} (hm : Spec m Q)
    (h : ∀ a events, Q a events → R a events) : Spec m R :=
  fun s => (hm s).mono fun a events _ => h a events

theorem Spec.call {g : σ → α × σ} {event : α → Event} (h : ∀ a, Q a [event a]) :
    Spec (call g event) Q := fun s => After.call (h (g s).1)

theorem Spec.tag {g : Event → Event'} {R : α → List Event' → Prop}
    (hm : Spec m fun a events => R a (events.map g)) : Spec (tag g m) R := fun s => hm s

end Spec

end Host

section Transfers
variable {Event Resource : Type} (obtains releases : Event → Option Resource)

/-- Events that begin with the resources `taken` and end with those that are `left`. Each
adds what it obtains, and gives back only what is owned then. -/
inductive Transfers : List Resource → List Event → List Resource → Prop where
  | nil {taken left : List Resource} : taken ~ left → Transfers taken [] left
  | cons {taken kept left : List Resource} {event : Event} {events : List Event} :
      taken ++ (obtains event).toList ~ (releases event).toList ++ kept →
      Transfers kept events left → Transfers taken (event :: events) left

variable {obtains releases} {taken left kept : List Resource} {events later : List Event}

theorem Transfers.perm_taken (h : Transfers obtains releases kept events left)
    (hperm : taken ~ kept) : Transfers obtains releases taken events left := by
  cases h with
  | nil h => exact .nil (hperm.trans h)
  | cons hstep h => exact .cons ((hperm.append_right _).trans hstep) h

theorem Transfers.perm_left (h : Transfers obtains releases taken events kept)
    (hperm : kept ~ left) : Transfers obtains releases taken events left := by
  induction h with
  | nil h => exact .nil (h.trans hperm)
  | cons hstep _ ih => exact .cons hstep (ih hperm)

theorem Transfers.trans (h : Transfers obtains releases taken events kept)
    (h' : Transfers obtains releases kept later left) :
    Transfers obtains releases taken (events ++ later) left := by
  induction h with
  | nil h => exact h'.perm_taken h
  | cons hstep _ ih => exact .cons hstep (ih h')

/-- What a run does not touch it leaves. -/
theorem Transfers.frame (h : Transfers obtains releases taken events left) (kept : List Resource) :
    Transfers obtains releases (kept ++ taken) events (kept ++ left) := by
  induction h with
  | nil h => exact .nil (h.append_left kept)
  | @cons taken owned left event events hstep _ ih =>
    refine .cons ?_ ih
    calc
      (kept ++ taken) ++ (obtains event).toList
      _ = kept ++ (taken ++ (obtains event).toList) := List.append_assoc _ _ _
      _ ~ kept ++ ((releases event).toList ++ owned) := hstep.append_left kept
      _ = (kept ++ (releases event).toList) ++ owned := (List.append_assoc _ _ _).symm
      _ ~ ((releases event).toList ++ kept) ++ owned := List.perm_append_comm.append_right owned
      _ = (releases event).toList ++ (kept ++ owned) := List.append_assoc _ _ _

/-- A run that takes nothing over adds to what is owned. -/
theorem Transfers.beside (h : Transfers obtains releases [] events left) (kept : List Resource) :
    Transfers obtains releases kept events (kept ++ left) := by
  simpa using h.frame kept

/-- A run that takes nothing over and leaves nothing keeps what is owned. -/
theorem Transfers.keep (h : Transfers obtains releases [] events []) (kept : List Resource) :
    Transfers obtains releases kept events kept := by
  simpa using h.frame kept

/-- An event that gives nothing back. -/
theorem Transfers.event {event : Event} (h : releases event = none) :
    Transfers obtains releases [] [event] (obtains event).toList :=
  .cons (by simp [h]) (.nil (.refl _))

theorem Transfers.obtain {event : Event} {resource : Resource} (h : obtains event = some resource)
    (h' : releases event = none) : Transfers obtains releases [] [event] [resource] :=
  .cons (by simp [h, h']) (.nil (.refl _))

theorem Transfers.release {event : Event} {resource : Resource} (h : obtains event = none)
    (h' : releases event = some resource) : Transfers obtains releases [resource] [event] [] :=
  .cons (by simp [h, h']) (.nil (.refl _))

theorem Transfers.other {event : Event} (h : obtains event = none) (h' : releases event = none) :
    Transfers obtains releases [] [event] [] :=
  .cons (by simp [h, h']) (.nil (.refl _))

theorem Transfers.others
    (h : ∀ event ∈ events, obtains event = none ∧ releases event = none) :
    Transfers obtains releases [] events [] := by
  induction events with
  | nil => exact .nil (.refl _)
  | cons event events ih =>
    obtain ⟨hevent, hevents⟩ := List.forall_mem_cons.mp h
    exact (Transfers.other hevent.1 hevent.2).trans (ih hevents)

/-- Events seen as other events, of resources seen as other resources. -/
theorem Transfers.map {Event' Resource' : Type} {obtains' releases' : Event' → Option Resource'}
    {g : Event → Event'} {k : Resource → Resource'}
    (h : Transfers obtains releases taken events left)
    (hobtains : ∀ event, obtains' (g event) = (obtains event).map k)
    (hreleases : ∀ event, releases' (g event) = (releases event).map k) :
    Transfers obtains' releases' (taken.map k) (events.map g) (left.map k) := by
  induction h with
  | nil h => exact .nil (h.map k)
  | cons hstep _ ih =>
    have hmapped := hstep.map k
    rw [List.map_append, List.map_append, ← Option.toList_map, ← Option.toList_map, ← hobtains,
      ← hreleases] at hmapped
    exact .cons hmapped ih

/-- All that is taken over or obtained is given back or left. -/
theorem Transfers.perm (h : Transfers obtains releases taken events left) :
    taken ++ events.filterMap obtains ~ events.filterMap releases ++ left := by
  induction h with
  | nil h => simpa using h
  | @cons taken kept left event events hstep _ ih =>
    have hcons (f : Event → Option Resource) :
        (event :: events).filterMap f = (f event).toList ++ events.filterMap f := by
      cases hf : f event <;> simp [hf]
    rw [hcons, hcons]
    calc
      taken ++ ((obtains event).toList ++ events.filterMap obtains)
      _ = (taken ++ (obtains event).toList) ++ events.filterMap obtains :=
        (List.append_assoc _ _ _).symm
      _ ~ ((releases event).toList ++ kept) ++ events.filterMap obtains := hstep.append_right _
      _ = (releases event).toList ++ (kept ++ events.filterMap obtains) := List.append_assoc _ _ _
      _ ~ (releases event).toList ++ (events.filterMap releases ++ left) := ih.append_left _
      _ = ((releases event).toList ++ events.filterMap releases) ++ left :=
        (List.append_assoc _ _ _).symm

variable (obtains releases) in
/-- Every resource that is obtained is given back exactly once, while it is owned. -/
structure ReleasedOnce (events : List Event) : Prop where
  transfers : Transfers obtains releases [] events []
  released : ∀ resource,
    resource ∈ events.filterMap releases ↔ resource ∈ events.filterMap obtains
  once : (events.filterMap obtains).Nodup → (events.filterMap releases).Nodup

theorem Transfers.releasedOnce (h : Transfers obtains releases [] events []) :
    ReleasedOnce obtains releases events := by
  have hperm : events.filterMap obtains ~ events.filterMap releases := by simpa using h.perm
  exact ⟨h, fun _ => hperm.mem_iff.symm, hperm.nodup_iff.mp⟩

end Transfers

end Pomodorough.Library.OwnedResources
