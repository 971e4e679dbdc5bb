import Mathlib.Data.Int.Notation
import Mathlib.Data.List.Count
import Mathlib.Logic.Function.Basic
import Mathlib.Logic.Relation

/-! # The locks of the users

`LockUser` keeps one counted lock for each user in a map under a registry mutex, and
the last release takes it out. Any number of calls, each with its release, take the
single steps of the source in any order. -/
namespace Pomodorough.Store.UserLocks
open Relation (ReflTransGen)

/-! ## The source -/

structure UserLock where
  mutex : Bool
  refs : Int
  deriving DecidableEq, Repr

/-- What the calls share: the map of the locks by their addresses, the locks there, the
next address that was never given out, and whether the registry mutex is locked. -/
structure Registry where
  locks : String → Option Nat
  heap : Nat → UserLock
  next : Nat
  locksMu : Bool

def Registry.initial : Registry where
  locks := fun _ => none
  heap := fun _ => ⟨false, 0⟩
  next := 0
  locksMu := false

/-- Writes one lock. -/
def Registry.set (s : Registry) (lock : Nat) (value : UserLock) : Registry :=
  { s with heap := Function.update s.heap lock value }

@[simp] theorem Registry.set_locks (s : Registry) (lock : Nat) (value : UserLock) :
    (s.set lock value).locks = s.locks := rfl

@[simp] theorem Registry.set_next (s : Registry) (lock : Nat) (value : UserLock) :
    (s.set lock value).next = s.next := rfl

@[simp] theorem Registry.set_locksMu (s : Registry) (lock : Nat) (value : UserLock) :
    (s.set lock value).locksMu = s.locksMu := rfl

theorem Registry.set_heap (s : Registry) (lock other : Nat) (value : UserLock) :
    (s.set lock value).heap other = if other = lock then value else s.heap other :=
  Function.update_apply ..

/-- What a call does next, and for its release what it has captured. -/
inductive Phase where
  | called (userID : String)
  | lookup (userID : String)
  | count (userID : String) (lock : Nat)
  | unlockRegistry (userID : String) (lock : Nat)
  | wait (userID : String) (lock : Nat)
  | held (userID : String) (lock : Nat)
  | released (userID : String) (lock : Nat)
  | uncount (userID : String) (lock : Nat)
  | prune (userID : String) (lock : Nat)
  | leave
  | returned
  deriving DecidableEq, Repr

/-- The step of a call in a phase. A call is blocked where a mutex it wants is locked,
and one that has returned takes no step. -/
def advance (s : Registry) : Phase → Option (Phase × Registry)
  | .called userID => if s.locksMu then none else some (.lookup userID, { s with locksMu := true })
  | .lookup userID =>
    match s.locks userID with
    | some lock => some (.count userID lock, s)
    | none => some (.count userID s.next,
        { s.set s.next ⟨false, 0⟩ with
          locks := Function.update s.locks userID (some s.next), next := s.next + 1 })
  | .count userID lock => some (.unlockRegistry userID lock,
      s.set lock { s.heap lock with refs := (s.heap lock).refs + 1 })
  | .unlockRegistry userID lock => some (.wait userID lock, { s with locksMu := false })
  | .wait userID lock =>
    if (s.heap lock).mutex then none
    else some (.held userID lock, s.set lock { s.heap lock with mutex := true })
  | .held userID lock => some (.released userID lock,
      s.set lock { s.heap lock with mutex := false })
  | .released userID lock =>
    if s.locksMu then none else some (.uncount userID lock, { s with locksMu := true })
  | .uncount userID lock => some (.prune userID lock,
      s.set lock { s.heap lock with refs := (s.heap lock).refs - 1 })
  | .prune userID lock =>
    if (s.heap lock).refs = 0 then
      some (.leave, { s with locks := Function.update s.locks userID none })
    else some (.leave, s)
  | .leave => some (.returned, { s with locksMu := false })
  | .returned => none

/-- The registry and every call that was ever made. -/
structure System where
  registry : Registry
  calls : List Phase

def System.initial : System := ⟨.initial, []⟩

/-- A goroutine calls `LockUser`, or one of the calls takes its next step. A call that
holds its lock takes the step when its release is called. -/
inductive Step : System → System → Prop where
  | call (userID : String) (s : System) :
    Step s ⟨s.registry, .called userID :: s.calls⟩
  | act {s : Registry} {before after : List Phase} {phase phase' : Phase} {s' : Registry}
    (h : advance s phase = some (phase', s')) :
    Step ⟨s, before ++ phase :: after⟩ ⟨s', before ++ phase' :: after⟩

def Run : System → System → Prop := ReflTransGen Step

/-! ## What a call uses -/

namespace Phase

/-- The call has locked the registry mutex. -/
def inRegistry : Phase → Bool
  | .lookup _ | .count .. | .unlockRegistry .. | .uncount .. | .prune .. | .leave => true
  | _ => false

/-- The user and the lock of a call that waits for the lock, holds it or is releasing it:
from when it has found or made the lock to when its release has tested the references. -/
def uses : Phase → Option (String × Nat)
  | .count userID lock | .unlockRegistry userID lock | .wait userID lock | .held userID lock
  | .released userID lock | .uncount userID lock | .prune userID lock => some (userID, lock)
  | _ => none

/-- The references of a lock count this call. -/
def counts (lock : Nat) : Phase → Bool
  | .unlockRegistry _ l | .wait _ l | .held _ l | .released _ l | .uncount _ l => l = lock
  | _ => false

def holds (lock : Nat) : Phase → Bool
  | .held _ l => l = lock
  | _ => false

def holdsUser (userID : String) : Phase → Bool
  | .held u _ => u = userID
  | _ => false

theorem uses_of_counts {phase : Phase} {lock : Nat} (h : phase.counts lock = true) :
    ∃ userID, phase.uses = some (userID, lock) := by
  cases phase <;> simp_all [counts, uses]

theorem uses_of_holds {phase : Phase} {lock : Nat} (h : phase.holds lock = true) :
    ∃ userID, phase.uses = some (userID, lock) := by
  cases phase <;> simp_all [holds, uses]

theorem uses_of_holdsUser {phase : Phase} {userID : String} (h : phase.holdsUser userID = true) :
    ∃ lock, phase.uses = some (userID, lock) ∧ phase.holds lock = true := by
  cases phase <;> simp_all [holdsUser, holds, uses]

/-- Outside the registry a call that uses a lock is counted. -/
theorem counts_of_uses {phase : Phase} {userID : String} {lock : Nat}
    (h : phase.uses = some (userID, lock)) (hout : phase.inRegistry = false) :
    phase.counts lock = true := by
  cases phase <;> simp_all [counts, uses, inRegistry]

end Phase

/-! ## The invariant -/

structure Invariant (s : Registry) (calls : List Phase) : Prop where
  registry : calls.countP Phase.inRegistry = if s.locksMu then 1 else 0
  mapped : ∀ phase ∈ calls, ∀ userID lock, phase.uses = some (userID, lock) →
    s.locks userID = some lock
  used : ∀ userID lock, s.locks userID = some lock →
    ∃ phase ∈ calls, phase.uses = some (userID, lock)
  allocated : ∀ userID lock, s.locks userID = some lock → lock < s.next
  separate : ∀ userID userID' lock, s.locks userID = some lock → s.locks userID' = some lock →
    userID = userID'
  refs : ∀ userID lock, s.locks userID = some lock →
    (s.heap lock).refs = calls.countP (Phase.counts lock)
  mutex : ∀ userID lock, s.locks userID = some lock →
    calls.countP (Phase.holds lock) = if (s.heap lock).mutex then 1 else 0

section
variable {s s' : Registry} {calls calls' : List Phase} {phase phase' : Phase}

theorem Invariant.initial : Invariant .initial [] where
  registry := rfl
  mapped := by simp
  used := by simp [Registry.initial]
  allocated := by simp [Registry.initial]
  separate := by simp [Registry.initial]
  refs := by simp [Registry.initial]
  mutex := by simp [Registry.initial]

/-- The order of the calls does not matter. -/
theorem Invariant.perm (h : Invariant s calls) (hperm : calls.Perm calls') :
    Invariant s calls' where
  registry := by rw [← hperm.countP_eq, h.registry]
  mapped := fun p hp => h.mapped p (hperm.mem_iff.mpr hp)
  used := by
    intro userID lock hlock
    obtain ⟨p, hp, huses⟩ := h.used userID lock hlock
    exact ⟨p, hperm.mem_iff.mp hp, huses⟩
  allocated := h.allocated
  separate := h.separate
  refs := by
    intro userID lock hlock
    rw [← hperm.countP_eq, h.refs userID lock hlock]
  mutex := by
    intro userID lock hlock
    rw [← hperm.countP_eq, h.mutex userID lock hlock]

/-- A call that is in the registry is the only one there. -/
theorem Invariant.alone (h : Invariant s (phase :: calls)) (hin : phase.inRegistry = true) :
    s.locksMu = true ∧ ∀ other ∈ calls, other.inRegistry = false := by
  have hcount := h.registry
  rw [List.countP_cons, if_pos hin] at hcount
  split at hcount
  · rename_i hlocked
    refine ⟨hlocked, fun other hother => ?_⟩
    have hzero : calls.countP Phase.inRegistry = 0 := by omega
    simpa using List.countP_eq_zero.mp hzero other hother
  · omega

/-- Two phases that differ in nothing but where the registry mutex stands. -/
structure Phase.Alike (phase phase' : Phase) : Prop where
  uses : phase'.uses = phase.uses
  counts : ∀ lock, phase'.counts lock = phase.counts lock
  holds : ∀ lock, phase'.holds lock = phase.holds lock

theorem countP_alike {p : Phase → Bool} (h : p phase' = p phase) :
    (phase' :: calls).countP p = (phase :: calls).countP p := by
  simp [List.countP_cons, h]

theorem Invariant.mapped_of_uses (h : Invariant s (phase :: calls))
    (huses : phase'.uses = phase.uses) : ∀ p ∈ phase' :: calls, ∀ userID lock,
      p.uses = some (userID, lock) → s.locks userID = some lock := by
  intro p hp userID lock hlock
  rcases List.mem_cons.mp hp with rfl | hp
  · exact h.mapped phase List.mem_cons_self userID lock (huses ▸ hlock)
  · exact h.mapped p (List.mem_cons_of_mem _ hp) userID lock hlock

theorem Invariant.used_of_uses (h : Invariant s (phase :: calls))
    (huses : phase'.uses = phase.uses) : ∀ userID lock, s.locks userID = some lock →
      ∃ p ∈ phase' :: calls, p.uses = some (userID, lock) := by
  intro userID lock hlock
  obtain ⟨p, hp, hpuses⟩ := h.used userID lock hlock
  rcases List.mem_cons.mp hp with rfl | hp
  · exact ⟨phase', List.mem_cons_self, huses.trans hpuses⟩
  · exact ⟨p, List.mem_cons_of_mem _ hp, hpuses⟩

/-- Locking and unlocking the registry mutex. -/
theorem Invariant.turn (h : Invariant s (phase :: calls)) (halike : phase.Alike phase')
    {locked : Bool}
    (hregistry : (phase' :: calls).countP Phase.inRegistry = if locked then 1 else 0) :
    Invariant { s with locksMu := locked } (phase' :: calls) where
  registry := hregistry
  mapped := h.mapped_of_uses halike.uses
  used := h.used_of_uses halike.uses
  allocated := h.allocated
  separate := h.separate
  refs := by
    intro userID lock hlock
    rw [countP_alike (halike.counts lock)]
    exact h.refs userID lock hlock
  mutex := by
    intro userID lock hlock
    rw [countP_alike (halike.holds lock)]
    exact h.mutex userID lock hlock

/-- Writing the lock that the call uses. -/
theorem Invariant.write {lock : Nat} {value : UserLock} (h : Invariant s (phase :: calls))
    (huses : phase'.uses = phase.uses) (hregistry : phase'.inRegistry = phase.inRegistry)
    (hcounts : ∀ other, other ≠ lock → phase'.counts other = phase.counts other)
    (hholds : ∀ other, other ≠ lock → phase'.holds other = phase.holds other)
    (hrefs : (s.heap lock).refs = (phase :: calls).countP (Phase.counts lock) →
      value.refs = (phase' :: calls).countP (Phase.counts lock))
    (hmutex : (phase :: calls).countP (Phase.holds lock) = (if (s.heap lock).mutex then 1 else 0) →
      (phase' :: calls).countP (Phase.holds lock) = if value.mutex then 1 else 0) :
    Invariant (s.set lock value) (phase' :: calls) where
  registry := by
    rw [countP_alike hregistry]
    exact h.registry
  mapped := h.mapped_of_uses huses
  used := h.used_of_uses huses
  allocated := h.allocated
  separate := h.separate
  refs := by
    intro userID other hother
    rw [Registry.set_heap]
    split
    · rename_i heq
      subst heq
      exact hrefs (h.refs userID other hother)
    · rename_i hne
      rw [countP_alike (hcounts other hne)]
      exact h.refs userID other hother
  mutex := by
    intro userID other hother
    rw [Registry.set_heap]
    split
    · rename_i heq
      subst heq
      exact hmutex (h.mutex userID other hother)
    · rename_i hne
      rw [countP_alike (hholds other hne)]
      exact h.mutex userID other hother

/-- The lock of the user is in the map. -/
theorem Invariant.find {userID : String} {lock : Nat}
    (h : Invariant s (.lookup userID :: calls)) (hlock : s.locks userID = some lock) :
    Invariant s (.count userID lock :: calls) where
  registry := h.registry
  mapped := by
    intro p hp userID' lock' huses
    rcases List.mem_cons.mp hp with rfl | hp
    · cases huses
      exact hlock
    · exact h.mapped p (List.mem_cons_of_mem _ hp) userID' lock' huses
  used := by
    intro userID' lock' hlock'
    obtain ⟨p, hp, huses⟩ := h.used userID' lock' hlock'
    rcases List.mem_cons.mp hp with rfl | hp
    · cases huses
    · exact ⟨p, List.mem_cons_of_mem _ hp, huses⟩
  allocated := h.allocated
  separate := h.separate
  refs := h.refs
  mutex := h.mutex

/-- A lock that no call knows is put into the map. -/
theorem Invariant.create {userID : String} (h : Invariant s (.lookup userID :: calls))
    (hlock : s.locks userID = none) :
    Invariant { s.set s.next ⟨false, 0⟩ with
      locks := Function.update s.locks userID (some s.next), next := s.next + 1 }
      (.count userID s.next :: calls) := by
  have hfresh : ∀ userID', s.locks userID' ≠ some s.next := by
    intro userID' heq
    exact Nat.lt_irrefl _ (h.allocated userID' s.next heq)
  have hnone : ∀ p ∈ calls, ∀ userID', p.uses ≠ some (userID', s.next) := by
    intro p hp userID' huses
    exact hfresh userID' (h.mapped p (List.mem_cons_of_mem _ hp) userID' s.next huses)
  have hcounts : calls.countP (Phase.counts s.next) = 0 := by
    refine List.countP_eq_zero.mpr fun p hp hcounts => ?_
    obtain ⟨userID', huses⟩ := Phase.uses_of_counts hcounts
    exact hnone p hp userID' huses
  have hholds : calls.countP (Phase.holds s.next) = 0 := by
    refine List.countP_eq_zero.mpr fun p hp hholds => ?_
    obtain ⟨userID', huses⟩ := Phase.uses_of_holds hholds
    exact hnone p hp userID' huses
  refine ⟨h.registry, ?_, ?_, ?_, ?_, ?_, ?_⟩
  · intro p hp userID' lock huses
    simp only [Function.update_apply]
    rcases List.mem_cons.mp hp with rfl | hp
    · cases huses
      rw [if_pos rfl]
    · have hmapped := h.mapped p (List.mem_cons_of_mem _ hp) userID' lock huses
      have hne : userID' ≠ userID := by
        intro heq
        rw [heq, hlock] at hmapped
        cases hmapped
      rw [if_neg hne, hmapped]
  · intro userID' lock hlock'
    simp only [Function.update_apply] at hlock'
    split at hlock'
    · rename_i heq
      cases hlock'
      exact ⟨_, List.mem_cons_self, by rw [heq]; rfl⟩
    · obtain ⟨p, hp, huses⟩ := h.used userID' lock hlock'
      rcases List.mem_cons.mp hp with rfl | hp
      · cases huses
      · exact ⟨p, List.mem_cons_of_mem _ hp, huses⟩
  · intro userID' lock hlock'
    simp only [Function.update_apply] at hlock'
    split at hlock'
    · cases hlock'
      exact Nat.lt_succ_self _
    · exact Nat.lt_succ_of_lt (h.allocated userID' lock hlock')
  · intro first second lock hfirst hsecond
    simp only [Function.update_apply] at hfirst hsecond
    split at hfirst <;> split at hsecond
    · simp_all
    · cases hfirst
      exact absurd hsecond (hfresh second)
    · cases hsecond
      exact absurd hfirst (hfresh first)
    · exact h.separate first second lock hfirst hsecond
  · intro userID' lock hlock'
    simp only [Function.update_apply] at hlock'
    change ((s.set s.next ⟨false, 0⟩).heap lock).refs = _
    rw [Registry.set_heap]
    split at hlock'
    · cases hlock'
      simp [Phase.counts, hcounts]
    · have hne : lock ≠ s.next := by
        intro heq
        exact hfresh userID' (heq ▸ hlock')
      rw [if_neg hne]
      exact h.refs userID' lock hlock'
  · intro userID' lock hlock'
    simp only [Function.update_apply] at hlock'
    change _ = if ((s.set s.next ⟨false, 0⟩).heap lock).mutex then 1 else 0
    rw [Registry.set_heap]
    split at hlock'
    · cases hlock'
      simp [Phase.holds, hholds]
    · have hne : lock ≠ s.next := by
        intro heq
        exact hfresh userID' (heq ▸ hlock')
      rw [if_neg hne]
      exact h.mutex userID' lock hlock'

/-- Other calls use the lock still. -/
theorem Invariant.keep {userID : String} {lock : Nat}
    (h : Invariant s (.prune userID lock :: calls)) (hrefs : (s.heap lock).refs ≠ 0) :
    Invariant s (.leave :: calls) where
  registry := h.registry
  mapped := fun p hp => by
    rcases List.mem_cons.mp hp with rfl | hp
    · intro _ _ huses
      cases huses
    · exact h.mapped p (List.mem_cons_of_mem _ hp)
  used := by
    intro userID' lock' hlock'
    obtain ⟨p, hp, huses⟩ := h.used userID' lock' hlock'
    rcases List.mem_cons.mp hp with rfl | hp
    · cases huses
      have hpos : 0 < calls.countP (Phase.counts lock) := by
        rw [h.refs userID lock hlock'] at hrefs
        simp only [List.countP_cons, Phase.counts] at hrefs
        simp only [Bool.false_eq_true, if_false] at hrefs
        omega
      obtain ⟨q, hq, hcounts⟩ := List.countP_pos_iff.mp hpos
      obtain ⟨other, hother⟩ := Phase.uses_of_counts hcounts
      have hmapped := h.mapped q (List.mem_cons_of_mem _ hq) other lock hother
      rw [h.separate other userID lock hmapped hlock'] at hother
      exact ⟨q, List.mem_cons_of_mem _ hq, hother⟩
    · exact ⟨p, List.mem_cons_of_mem _ hp, huses⟩
  allocated := h.allocated
  separate := h.separate
  refs := h.refs
  mutex := h.mutex

/-- The last release takes the lock out of the map. -/
theorem Invariant.delete {userID : String} {lock : Nat}
    (h : Invariant s (.prune userID lock :: calls)) (hrefs : (s.heap lock).refs = 0) :
    Invariant { s with locks := Function.update s.locks userID none } (.leave :: calls) := by
  have hlock := h.mapped _ List.mem_cons_self userID lock rfl
  -- a call that used the lock would be counted, for none other is in the registry
  have hunused : ∀ p ∈ calls, p.uses ≠ some (userID, lock) := by
    intro p hp huses
    have hcounted := Phase.counts_of_uses huses ((h.alone rfl).2 p hp)
    have hpos := List.countP_pos_iff.mpr ⟨p, hp, hcounted⟩
    have hcount := h.refs userID lock hlock
    rw [List.countP_cons] at hcount
    omega
  refine ⟨h.registry, ?_, ?_, ?_, ?_, ?_, ?_⟩
  · intro p hp userID' lock' huses
    simp only [Function.update_apply]
    rcases List.mem_cons.mp hp with rfl | hp
    · cases huses
    · have hmapped := h.mapped p (List.mem_cons_of_mem _ hp) userID' lock' huses
      have hne : userID' ≠ userID := by
        rintro rfl
        rw [hlock] at hmapped
        cases hmapped
        exact hunused p hp huses
      rw [if_neg hne, hmapped]
  · intro userID' lock' hlock'
    simp only [Function.update_apply] at hlock'
    split at hlock'
    · cases hlock'
    · rename_i hne
      obtain ⟨p, hp, huses⟩ := h.used userID' lock' hlock'
      rcases List.mem_cons.mp hp with rfl | hp
      · cases huses
        exact absurd rfl hne
      · exact ⟨p, List.mem_cons_of_mem _ hp, huses⟩
  · intro userID' lock' hlock'
    simp only [Function.update_apply] at hlock'
    split at hlock'
    · cases hlock'
    · exact h.allocated userID' lock' hlock'
  · intro first second lock' hfirst hsecond
    simp only [Function.update_apply] at hfirst hsecond
    split at hfirst
    · cases hfirst
    · split at hsecond
      · cases hsecond
      · exact h.separate first second lock' hfirst hsecond
  · intro userID' lock' hlock'
    simp only [Function.update_apply] at hlock'
    split at hlock'
    · cases hlock'
    · exact h.refs userID' lock' hlock'
  · intro userID' lock' hlock'
    simp only [Function.update_apply] at hlock'
    split at hlock'
    · cases hlock'
    · exact h.mutex userID' lock' hlock'

/-- No call is in the registry while its mutex is free. -/
theorem Invariant.enter (h : Invariant s (phase :: calls)) (halike : phase.Alike phase')
    (hfree : ¬s.locksMu = true) (hin : phase'.inRegistry = true) :
    Invariant { s with locksMu := true } (phase' :: calls) := by
  refine h.turn halike ?_
  have hcount := h.registry
  rw [if_neg hfree, List.countP_cons] at hcount
  rw [if_pos rfl, List.countP_cons, if_pos hin]
  omega

theorem Invariant.exit (h : Invariant s (phase :: calls)) (halike : phase.Alike phase')
    (hin : phase.inRegistry = true) (hout : phase'.inRegistry = false) :
    Invariant { s with locksMu := false } (phase' :: calls) := by
  refine h.turn halike (List.countP_eq_zero.mpr fun p hp => ?_)
  rcases List.mem_cons.mp hp with rfl | hp
  · simp [hout]
  · simp [(h.alone hin).2 p hp]

/-- Each step of a call keeps the invariant. -/
theorem Invariant.act (h : Invariant s (phase :: calls))
    (hstep : advance s phase = some (phase', s')) : Invariant s' (phase' :: calls) := by
  cases phase with
  | called userID =>
    simp only [advance] at hstep
    split at hstep
    · cases hstep
    · rename_i hfree
      cases hstep
      exact h.enter ⟨rfl, fun _ => rfl, fun _ => rfl⟩ hfree rfl
  | lookup userID =>
    simp only [advance] at hstep
    split at hstep
    · rename_i lock hlock
      cases hstep
      exact h.find hlock
    · rename_i hlock
      cases hstep
      exact h.create hlock
  | count userID lock =>
    cases hstep
    refine h.write rfl rfl ?_ (fun _ _ => rfl) ?_ (fun hmutex => hmutex)
    · intro other hne
      simp [Phase.counts, hne.symm]
    · intro hrefs
      simp only [List.countP_cons, Phase.counts, decide_true, Bool.false_eq_true, if_false,
        if_true] at hrefs ⊢
      omega
  | unlockRegistry userID lock =>
    cases hstep
    exact h.exit ⟨rfl, fun _ => rfl, fun _ => rfl⟩ rfl rfl
  | wait userID lock =>
    simp only [advance] at hstep
    split at hstep
    · cases hstep
    · rename_i hfree
      cases hstep
      refine h.write rfl rfl (fun _ _ => rfl) ?_ (fun hrefs => hrefs) ?_
      · intro other hne
        simp [Phase.holds, hne.symm]
      · intro hmutex
        simp only [hfree, List.countP_cons, Phase.holds, decide_true, Bool.false_eq_true,
          if_false, if_true] at hmutex ⊢
        omega
  | held userID lock =>
    cases hstep
    refine h.write rfl rfl (fun _ _ => rfl) ?_ (fun hrefs => hrefs) ?_
    · intro other hne
      simp [Phase.holds, hne.symm]
    · intro hmutex
      simp only [List.countP_cons, Phase.holds, decide_true, Bool.false_eq_true, if_false,
        if_true] at hmutex ⊢
      split at hmutex <;> omega
  | released userID lock =>
    simp only [advance] at hstep
    split at hstep
    · cases hstep
    · rename_i hfree
      cases hstep
      exact h.enter ⟨rfl, fun _ => rfl, fun _ => rfl⟩ hfree rfl
  | uncount userID lock =>
    cases hstep
    refine h.write rfl rfl ?_ (fun _ _ => rfl) ?_ (fun hmutex => hmutex)
    · intro other hne
      simp [Phase.counts, hne.symm]
    · intro hrefs
      simp only [List.countP_cons, Phase.counts, decide_true, Bool.false_eq_true, if_false,
        if_true] at hrefs ⊢
      omega
  | prune userID lock =>
    simp only [advance] at hstep
    split at hstep
    · rename_i hrefs
      cases hstep
      exact h.delete hrefs
    · rename_i hrefs
      cases hstep
      exact h.keep hrefs
  | leave =>
    cases hstep
    exact h.exit ⟨rfl, fun _ => rfl, fun _ => rfl⟩ rfl rfl
  | returned => cases hstep

/-- A new call has not looked at anything yet. -/
theorem Invariant.call (h : Invariant s calls) (userID : String) :
    Invariant s (.called userID :: calls) where
  registry := h.registry
  mapped := by
    intro p hp
    rcases List.mem_cons.mp hp with rfl | hp
    · intro _ _ huses
      cases huses
    · exact h.mapped p hp
  used := by
    intro userID' lock hlock
    obtain ⟨p, hp, huses⟩ := h.used userID' lock hlock
    exact ⟨p, List.mem_cons_of_mem _ hp, huses⟩
  allocated := h.allocated
  separate := h.separate
  refs := h.refs
  mutex := h.mutex

theorem Invariant.step {c c' : System} (h : Invariant c.registry c.calls) (hstep : Step c c') :
    Invariant c'.registry c'.calls := by
  cases hstep with
  | call userID => exact h.call userID
  | @act s before after phase phase' s' hadvance =>
    have hfirst : Invariant s (phase :: (before ++ after)) := h.perm List.perm_middle
    exact (hfirst.act hadvance).perm List.perm_middle.symm

theorem invariant_of_run {c : System} (h : Run .initial c) : Invariant c.registry c.calls := by
  induction h with
  | refl => exact .initial
  | tail _ hstep ih => exact ih.step hstep

/-! ## The locks in every run -/

theorem Invariant.held_locked {userID : String} {lock : Nat} (h : Invariant s calls)
    (hmem : Phase.held userID lock ∈ calls) : (s.heap lock).mutex = true := by
  have hpos : 0 < calls.countP (Phase.holds lock) :=
    List.countP_pos_iff.mpr ⟨_, hmem, by simp [Phase.holds]⟩
  rw [h.mutex userID lock (h.mapped _ hmem userID lock rfl)] at hpos
  by_contra hfree
  simp [hfree] at hpos

theorem Invariant.one_holder (h : Invariant s calls) (userID : String) :
    calls.countP (Phase.holdsUser userID) ≤ 1 := by
  cases hlock : s.locks userID with
  | none =>
    have hzero : calls.countP (Phase.holdsUser userID) = 0 := by
      refine List.countP_eq_zero.mpr fun p hp hholds => ?_
      obtain ⟨lock, huses, -⟩ := Phase.uses_of_holdsUser hholds
      rw [h.mapped p hp userID lock huses] at hlock
      cases hlock
    omega
  | some lock =>
    have hle : calls.countP (Phase.holdsUser userID) ≤ calls.countP (Phase.holds lock) := by
      refine List.countP_mono_left fun p hp hholds => ?_
      obtain ⟨lock', huses, hheld⟩ := Phase.uses_of_holdsUser hholds
      rw [h.mapped p hp userID lock' huses] at hlock
      cases hlock
      exact hheld
    rw [h.mutex userID lock hlock] at hle
    split at hle <;> omega

theorem Invariant.mapped_iff (h : Invariant s calls) (userID : String) (lock : Nat) :
    s.locks userID = some lock ↔ ∃ phase ∈ calls, phase.uses = some (userID, lock) := by
  constructor
  · exact h.used userID lock
  · intro hused
    obtain ⟨phase, hmem, huses⟩ := hused
    exact h.mapped phase hmem userID lock huses

end

/-- In every interleaving a user's lock has one holder at most, the calls of a user use
one lock, and the map has a lock exactly while a call waits for it, holds it or is
releasing it. -/
theorem user_locks_sound {c : System} (h : Run .initial c) :
    (∀ userID, c.calls.countP (Phase.holdsUser userID) ≤ 1) ∧
    (∀ first ∈ c.calls, ∀ second ∈ c.calls, ∀ userID lock lock',
      first.uses = some (userID, lock) → second.uses = some (userID, lock') → lock = lock') ∧
    ∀ userID, (c.registry.locks userID).isSome ↔
      ∃ phase ∈ c.calls, ∃ lock, phase.uses = some (userID, lock) := by
  have hinvariant := invariant_of_run h
  refine ⟨hinvariant.one_holder, ?_, fun userID => ?_⟩
  · intro first hfirst second hsecond userID lock lock' huses huses'
    have hlock := hinvariant.mapped first hfirst userID lock huses
    rw [hinvariant.mapped second hsecond userID lock' huses'] at hlock
    exact (Option.some.inj hlock).symm
  · rw [Option.isSome_iff_exists]
    constructor
    · intro hmapped
      obtain ⟨lock, hlock⟩ := hmapped
      obtain ⟨phase, hmem, huses⟩ := (hinvariant.mapped_iff userID lock).mp hlock
      exact ⟨phase, hmem, lock, huses⟩
    · intro hused
      obtain ⟨phase, hmem, lock, huses⟩ := hused
      exact ⟨lock, (hinvariant.mapped_iff userID lock).mpr ⟨phase, hmem, huses⟩⟩

/-- A call that holds its lock while another is about to ask for it. -/
theorem user_locks_sound_held : ∃ c, Run .initial c ∧
    c.calls = [.called "ada", .held "ada" 0] ∧
    c.calls.countP (Phase.holdsUser "ada") ≤ 1 ∧ (c.registry.locks "ada").isSome = true := by
  have hrun : Run .initial _ :=
    (((((((ReflTransGen.refl.tail (.call "ada" .initial)).tail
      (@Step.act _ [] [] (.called "ada") (.lookup "ada") _ rfl)).tail
      (@Step.act _ [] [] (.lookup "ada") (.count "ada" 0) _ rfl)).tail
      (@Step.act _ [] [] (.count "ada" 0) (.unlockRegistry "ada" 0) _ rfl)).tail
      (@Step.act _ [] [] (.unlockRegistry "ada" 0) (.wait "ada" 0) _ rfl)).tail
      (@Step.act _ [] [] (.wait "ada" 0) (.held "ada" 0) _ rfl)).tail
      (.call "ada" _))
  obtain ⟨hone, -, hmapped⟩ := user_locks_sound hrun
  exact ⟨_, hrun, rfl, hone "ada", (hmapped "ada").mpr ⟨.held "ada" 0, by simp, 0, rfl⟩⟩

end Pomodorough.Store.UserLocks
