import Mathlib.Order.Nat
import Pomodorough.Web.ReferenceCore
import Pomodorough.Web.SessionSections

/-! # When a pending sign-out is forgotten

The marker of a sign-out is removed by the section that ends a flow. What the flow has
gathered, it has gathered for the marker that it captured; nothing in the marker tells
a later sign-out of the same account from it. -/
namespace Pomodorough.Web.Session
open Pomodorough.Library

/-! ## Storage that works -/

section
variable {storage : LocalStorage} {userId : Option String} {token : Option String} {text : String}

@[simp] theorem markPendingLogout_none : (markPendingLogout .none userId storage).1 =
    { storage with
      pendingLogout := some "1"
      pendingLogoutOwner := some ⟨userId⟩
      pendingLogoutSignIn := none } := by
  simp [markPendingLogout, attempt, removeItem, setItem, Faults.none]

@[simp] theorem clearPendingLogout_none : clearPendingLogout .none storage =
    { storage with
      pendingLogout := none
      pendingLogoutOwner := none
      pendingLogoutSignIn := none } := by
  simp [clearPendingLogout, attempt, removeItem, Faults.none]

@[simp] theorem pendingLocalLogout_none :
    pendingLocalLogout .none storage = storage.pendingLogout.isSome := by
  simp [pendingLocalLogout, Faults.none]

@[simp] theorem logoutMarkerState_none :
    logoutMarkerState .none storage = some (storage.pendingLogout, storage.pendingLogoutOwner) := by
  simp [logoutMarkerState, Faults.none]

@[simp] theorem removePendingDeletionAttempt_none :
    removePendingDeletionAttempt .none storage = { storage with pendingDeletion := none } := by
  simp [removePendingDeletionAttempt, attempt, removeItem, Faults.none]

@[simp] theorem writeCandidate_none {candidate : DeletionAttempt} :
    writeCandidate .none candidate storage =
      ({ storage with pendingDeletion := some candidate }, true) := by
  simp [writeCandidate, attempt, setItem, Faults.none]

@[simp] theorem writeIssued_none {issued : DeletionAttempt} :
    writeIssued .none issued storage = ({ storage with pendingDeletion := some issued }, true) := by
  simp [writeIssued, attempt, setItem, Faults.none]

/-- A token is issued where a sign-out is pending and has none. -/
theorem pendingSignInToken_none :
    pendingSignInToken .none text storage = storage ∨
      storage.pendingLogout.isSome = true ∧ storage.pendingLogoutSignIn = none ∧
        pendingSignInToken .none text storage =
          { storage with pendingLogoutSignIn := some text } := by
  unfold pendingSignInToken
  split
  · exact .inl rfl
  next h =>
    simp only [pendingLocalLogout_none, not_or, Bool.not_eq_true,
      Option.isSome_eq_false_iff, Option.isNone_iff_eq_none] at h
    exact .inr ⟨Option.isSome_iff_ne_none.mpr h.1, h.2.2, by simp [attempt, setItem, Faults.none]⟩

end

theorem present_ne {value : Option String} : present value ≠ some "" := by
  intro h
  simpa using (Option.filter_eq_some_iff.mp h).2

theorem ownerId_ne (tab : SessionTab) : tab.ownerId ≠ some "" := by
  intro h
  rcases Option.or_eq_some_iff.mp h with huser | ⟨_, hlocal⟩
  · exact present_ne huser
  · exact present_ne hlocal

namespace Browser
variable {core : Core} {faults : Faults} {s t : Browser} {i tab : Nat} {flow : Flow}
  {id : Identity} {completion : Completion}

/-! ## What a flow has gathered -/

/-- The marker is the one that the identity was captured from. -/
def Current (s : Browser) (id : Identity) : Prop := id.marks = s.history.marks

/-- The sign-out that the marker stands for was one of `owner`. -/
def MarkedFor (s : Browser) (owner : String) : Prop :=
  s.storage.pendingLogout.isSome = true ∧ s.storage.pendingLogoutOwner = some ⟨some owner⟩

instance {s : Browser} {owner : String} : Decidable (s.MarkedFor owner) :=
  inferInstanceAs (Decidable (_ ∧ _))

structure IdentityOk (s : Browser) (id : Identity) : Prop where
  marks : id.marks ≤ s.history.marks
  captured : s.Current id → s.storage.pendingLogout.isSome = true →
    id.markerState = some (s.storage.pendingLogout, s.storage.pendingLogoutOwner)
  recovery : ∀ owner, id.markerState = some (some "1", some ⟨some owner⟩) → owner ≠ "" →
    id.recovery = some owner ∧ id.expectedUserId = some owner

/-- The session that the marker stands for is dead. -/
def SessionDead (s : Browser) : Prop := ∃ evidence, (s.history.marks, evidence) ∈ s.history.evidence

/-- The local data of the owner were cleared, or found cleared, after the marker was
written. -/
def ClearedFor (s : Browser) (owner : String) : Prop :=
  ∃ cleared ∈ s.history.cleared, cleared.marks = s.history.marks ∧ cleared.userId = some owner

def ClearedSince (s : Browser) (id : Identity) : Prop :=
  s.Current id → ∀ owner, s.MarkedFor owner → s.ClearedFor owner

/-- The account is deleted, and the marker, if it is the captured one, is its sign-out. -/
def DeletedFor (s : Browser) (id : Identity) (owner : String) : Prop :=
  owner ∈ s.history.deleted ∧ (s.Current id → ∀ marked, s.MarkedFor marked → marked = owner)

def CompletionOk (s : Browser) (id : Identity) : Completion → Prop
  | .logout clearMarker => clearMarker = true → s.Current id → s.SessionDead
  | .settle => s.Current id → s.SessionDead
  | .deletion issued => s.DeletedFor id issued.ownerId
  | .recovery attempt => s.DeletedFor id attempt.userId
  | .revoke _ | .clear => True

def FlowOk (s : Browser) : Flow → Prop
  | .revocation id sent =>
    s.IdentityOk id ∧ ∀ mark, sent = some mark → id.marks ≤ mark ∧ mark ≤ s.history.marks
  | .binding _ id => ∀ captured, id = some captured → s.IdentityOk captured
  | .session _ id sent => ∀ captured, id = some captured →
    s.IdentityOk captured ∧ captured.marks ≤ sent ∧ sent ≤ s.history.marks
  | .answered _ id response => ∀ captured, id = some captured →
    s.IdentityOk captured ∧ (response.status = 401 → s.Current captured → s.SessionDead)
  | .cleaning id completion => s.IdentityOk id ∧ s.CompletionOk id completion
  | .cleared id completion =>
    s.IdentityOk id ∧ s.CompletionOk id completion ∧ s.ClearedSince id
  | .revoking id sent =>
    s.IdentityOk id ∧ s.ClearedSince id ∧ id.marks ≤ sent ∧ sent ≤ s.history.marks
  | .deleted issued => issued.ownerId ∈ s.history.deleted
  | _ => True

/-! ## What later sections keep of it -/

/-- Nothing gathered is forgotten; a marker is the one of before, or a later one. -/
structure Onward (s t : Browser) : Prop where
  marker : s.history.marks < t.history.marks ∨
    s.history.marks = t.history.marks ∧ (t.storage.pendingLogout.isSome = true →
      s.storage.pendingLogout = t.storage.pendingLogout ∧
        s.storage.pendingLogoutOwner = t.storage.pendingLogoutOwner)
  evidence : ∀ x ∈ s.history.evidence, x ∈ t.history.evidence
  cleared : ∀ x ∈ s.history.cleared, x ∈ t.history.cleared
  deleted : ∀ x ∈ s.history.deleted, x ∈ t.history.deleted

theorem Onward.marks (h : s.Onward t) : s.history.marks ≤ t.history.marks := by
  rcases h.marker with hlt | ⟨heq, _⟩
  · exact hlt.le
  · exact heq.le

/-- A captured identity that is current later was current before, on the same marker. -/
theorem Onward.current (h : s.Onward t) (hid : id.marks ≤ s.history.marks) (hcurrent : t.Current id) :
    s.Current id ∧ s.history.marks = t.history.marks ∧
      ∀ owner, t.MarkedFor owner → s.MarkedFor owner := by
  have hmarks : s.history.marks = t.history.marks :=
    Nat.le_antisymm h.marks (hcurrent.symm.le.trans hid)
  refine ⟨hcurrent.trans hmarks.symm, hmarks, ?_⟩
  rintro owner ⟨hsome, howner⟩
  rcases h.marker with hlt | ⟨_, hsame⟩
  · exact absurd hmarks hlt.ne
  · obtain ⟨hlogout, hrecord⟩ := hsame hsome
    exact ⟨hlogout ▸ hsome, hrecord.trans howner⟩

theorem IdentityOk.onward (h : s.IdentityOk id) (hon : s.Onward t) : t.IdentityOk id := by
  refine ⟨h.marks.trans hon.marks, ?_, h.recovery⟩
  intro hcurrent hsome
  rcases hon.marker with hlt | ⟨heq, hsame⟩
  · exact absurd (hcurrent ▸ h.marks) (Nat.not_le.mpr hlt)
  · obtain ⟨hlogout, hrecord⟩ := hsame hsome
    rw [← hlogout, ← hrecord]
    exact h.captured (hcurrent.trans heq.symm) (hlogout ▸ hsome)

theorem SessionDead.onward (h : s.SessionDead) (hon : s.Onward t)
    (hmarks : s.history.marks = t.history.marks) : t.SessionDead := by
  obtain ⟨evidence, hmem⟩ := h
  exact ⟨evidence, hmarks ▸ hon.evidence _ hmem⟩

theorem ClearedSince.onward (h : s.ClearedSince id) (hid : id.marks ≤ s.history.marks)
    (hon : s.Onward t) : t.ClearedSince id := by
  intro hcurrent owner hmarked
  obtain ⟨hbefore, hmarks, hsame⟩ := hon.current hid hcurrent
  obtain ⟨cleared, hmem, hat, huser⟩ := h hbefore owner (hsame owner hmarked)
  exact ⟨cleared, hon.cleared _ hmem, hat.trans hmarks, huser⟩

theorem DeletedFor.onward {owner : String} (h : s.DeletedFor id owner)
    (hid : id.marks ≤ s.history.marks) (hon : s.Onward t) : t.DeletedFor id owner := by
  refine ⟨hon.deleted _ h.1, ?_⟩
  intro hcurrent marked hmarked
  obtain ⟨hbefore, _, hsame⟩ := hon.current hid hcurrent
  exact h.2 hbefore marked (hsame marked hmarked)

theorem dead_onward {P : Prop} (h : P → s.Current id → s.SessionDead)
    (hid : id.marks ≤ s.history.marks) (hon : s.Onward t) : P → t.Current id → t.SessionDead := by
  intro hp hcurrent
  obtain ⟨hbefore, hmarks, _⟩ := hon.current hid hcurrent
  exact (h hp hbefore).onward hon hmarks

theorem CompletionOk.onward (h : s.CompletionOk id completion) (hid : id.marks ≤ s.history.marks)
    (hon : s.Onward t) : t.CompletionOk id completion := by
  cases completion with
  | logout clearMarker => exact dead_onward h hid hon
  | settle => exact dead_onward (fun _ : True => h) hid hon trivial
  | revoke csrfToken => trivial
  | deletion issued => exact DeletedFor.onward h hid hon
  | recovery attempt => exact DeletedFor.onward h hid hon
  | clear => trivial

theorem FlowOk.onward (h : s.FlowOk flow) (hon : s.Onward t) : t.FlowOk flow := by
  cases flow with
  | revocation id sent =>
    refine ⟨h.1.onward hon, ?_⟩
    intro mark hsent
    exact ⟨(h.2 mark hsent).1, (h.2 mark hsent).2.trans hon.marks⟩
  | binding load id => exact fun captured hid => (h captured hid).onward hon
  | session load id sent =>
    intro captured hid
    obtain ⟨hok, hfrom, hto⟩ := h captured hid
    exact ⟨hok.onward hon, hfrom, hto.trans hon.marks⟩
  | answered load id response =>
    intro captured hid
    obtain ⟨hok, hdead⟩ := h captured hid
    exact ⟨hok.onward hon, dead_onward hdead hok.marks hon⟩
  | cleaning id completion => exact ⟨h.1.onward hon, h.2.onward h.1.marks hon⟩
  | cleared id completion =>
    exact ⟨h.1.onward hon, h.2.1.onward h.1.marks hon, h.2.2.onward h.1.marks hon⟩
  | revoking id sent =>
    exact ⟨h.1.onward hon, h.2.1.onward h.1.marks hon, h.2.2.1, h.2.2.2.trans hon.marks⟩
  | deleted issued => exact hon.deleted _ h
  | deleting | ended | recovering => trivial

theorem Onward.refl (s : Browser) : s.Onward s :=
  ⟨.inr ⟨rfl, fun _ => ⟨rfl, rfl⟩⟩, fun _ h => h, fun _ h => h, fun _ h => h⟩

/-- The sections that touch neither the marker nor the history. -/
theorem Onward.of_same (hstorage : t.storage = s.storage) (hhistory : t.history = s.history) :
    s.Onward t := by
  refine ⟨.inr ⟨by rw [hhistory], fun _ => ?_⟩, ?_, ?_, ?_⟩
  · rw [hstorage]
    exact ⟨rfl, rfl⟩
  all_goals
    rw [hhistory]
    exact fun _ h => h

theorem Onward.marked {userId : Option String} : s.Onward (s.markPendingLogout faults userId) :=
  ⟨.inl (Nat.lt_succ_self _), fun _ h => h, fun _ h => h, fun _ h => h⟩

theorem Onward.found {mark : Nat} {evidence : Evidence} : s.Onward (s.found mark evidence) :=
  ⟨.inr ⟨rfl, fun _ => ⟨rfl, rfl⟩⟩, fun _ h => List.mem_cons_of_mem _ h, fun _ h => h, fun _ h => h⟩

theorem Onward.wasCleared {database : Database} : s.Onward (s.wasCleared database id) :=
  ⟨.inr ⟨rfl, fun _ => ⟨rfl, rfl⟩⟩, fun _ h => h, fun _ h => List.mem_cons_of_mem _ h, fun _ h => h⟩

/-- Storage keeps its sign-out marker, or has none. -/
theorem Onward.withStorage {storage : LocalStorage}
    (h : storage.pendingLogout.isSome = true →
      s.storage.pendingLogout = storage.pendingLogout ∧
        s.storage.pendingLogoutOwner = storage.pendingLogoutOwner) :
    s.Onward (s.withStorage storage) :=
  ⟨.inr ⟨rfl, h⟩, fun _ h => h, fun _ h => h, fun _ h => h⟩

/-! ## The invariant of a run -/

structure StorageOk (s : Browser) : Prop where
  marker : ∀ text, s.storage.pendingLogout = some text →
    text = "1" ∧ ∃ userId, s.storage.pendingLogoutOwner = some ⟨userId⟩ ∧ userId ≠ some ""
  token : ∀ text, s.storage.pendingLogoutSignIn = some text →
    s.storage.pendingLogout.isSome = true ∧ s.history.signInMark = s.history.marks

structure Consistent (s : Browser) : Prop where
  storage : s.StorageOk
  flows : s.Flows s.FlowOk
  cleanups : ∀ tab cleanup, s.cleanups tab = some cleanup → s.IdentityOk cleanup.identity

theorem StorageOk.of_same (h : s.StorageOk) (hstorage : t.storage = s.storage)
    (hhistory : t.history = s.history) : t.StorageOk := by
  constructor
  · rw [hstorage]
    exact h.marker
  · rw [hstorage, hhistory]
    exact h.token

/-- A marker of which it is known whose sign-out it stands for. -/
theorem StorageOk.markedFor {owner : String} (h : s.StorageOk) (hmarked : s.MarkedFor owner) :
    (s.storage.pendingLogout, s.storage.pendingLogoutOwner) =
      (some "1", some ⟨some owner⟩) ∧ owner ≠ "" := by
  obtain ⟨hsome, howner⟩ := hmarked
  obtain ⟨text, htext⟩ := Option.isSome_iff_exists.mp hsome
  obtain ⟨rfl, userId, huser, hne⟩ := h.marker text htext
  rw [howner] at huser
  cases huser
  exact ⟨by rw [htext, howner], fun hempty => hne (by rw [hempty])⟩

/-- What a section keeps, where all flows that it leaves were in order. -/
theorem Consistent.next (h : s.Onward t) (hstorage : t.StorageOk)
    (hflows : t.Flows s.FlowOk)
    (hcleanups : ∀ tab cleanup, t.cleanups tab = some cleanup → s.IdentityOk cleanup.identity) :
    t.Consistent where
  storage := hstorage
  flows i tab flow hflow := (hflows i tab flow hflow).onward h
  cleanups tab cleanup hcleanup := (hcleanups tab cleanup hcleanup).onward h

/-- A section that only changes storage and the history. -/
theorem Consistent.onward (h : s.Consistent) (hon : s.Onward t) (hstorage : t.StorageOk)
    (hflows : t.flows = s.flows) (hcleanups : t.cleanups = s.cleanups) : t.Consistent :=
  .next hon hstorage (h.flows.of_eq hflows) (hcleanups ▸ h.cleanups)

/-- A flow goes on to another that is in order, or ends. -/
theorem Consistent.update (h : s.Consistent) {next : Option (Nat × Flow)}
    (hnext : ∀ owner flow, next = some (owner, flow) → s.FlowOk flow) :
    Consistent { s with flows := Function.update s.flows i next } :=
  .next (s := s) (.of_same rfl rfl) (h.storage.of_same rfl rfl) (h.flows.update hnext) h.cleanups

/-- A cleanup starts, or goes on to its confirmation. -/
theorem Consistent.setCleanup (h : s.Consistent) {next : Cleanup}
    (hnext : s.IdentityOk next.identity) :
    Consistent { s with cleanups := Function.update s.cleanups tab (some next) } := by
  refine .next (s := s) (.of_same rfl rfl) (h.storage.of_same rfl rfl) h.flows ?_
  intro owner cleanup hcleanup
  by_cases howner : owner = tab
  · subst howner
    simp only [Function.update_self, Option.some.injEq] at hcleanup
    exact hcleanup ▸ hnext
  · simp only [Function.update_of_ne howner] at hcleanup
    exact h.cleanups owner cleanup hcleanup

theorem Consistent.setFlow (h : s.Consistent) (hflow : s.FlowOk flow) :
    (s.setFlow i tab flow).Consistent := by
  refine h.update ?_
  rintro owner next ⟨⟩
  exact hflow

theorem Consistent.endFlow (h : s.Consistent) : (s.endFlow i).Consistent :=
  h.update fun _ _ hnone => by cases hnone

theorem Consistent.startFlow (h : s.Consistent) (hflow : s.FlowOk flow) :
    (s.startFlow tab flow).Consistent := by
  have hset : (s.setFlow s.nextFlow tab flow).Consistent := h.setFlow hflow
  exact hset.onward (.of_same rfl rfl) (hset.storage.of_same rfl rfl) rfl rfl

/-- What a rejected cleanup leaves of a flow is in order. -/
theorem rejected_ok {owner : Nat} (h : rejected tab completion = some (owner, flow)) :
    s.FlowOk flow := by
  cases completion with
  | deletion issued =>
    cases h
    trivial
  | _ => cases h

theorem identity_ok (s : Browser) : s.IdentityOk (s.identity .none tab) := by
  refine ⟨Nat.le_refl _, fun _ _ => logoutMarkerState_none, ?_⟩
  intro owner hstate hne
  have hstate : logoutMarkerState .none s.storage = some (some "1", some ⟨some owner⟩) := hstate
  have hrecovery : pendingLogoutRecovery .none s.storage = some owner := by
    simp [pendingLogoutRecovery, hstate, hne]
  simp [identity, cleanupIdentity, hrecovery]

theorem Consistent.clearLocalData (h : s.Consistent) (hid : s.IdentityOk id)
    (hcompletion : s.CompletionOk id completion) :
    (s.clearLocalData .none i tab id completion).Consistent := by
  unfold Browser.clearLocalData
  split
  · have hset : (s.setFlow i tab (.cleaning id completion)).Consistent :=
      h.setFlow ⟨hid, hcompletion⟩
    refine hset.setCleanup ?_
    cases hrunning : s.cleanups tab with
    | none => exact hid.onward (.of_same rfl rfl)
    | some running => exact hset.cleanups tab running hrunning
  · exact h.update fun owner flow hrejected => rejected_ok hrejected

theorem Consistent.endCleanup (h : s.Consistent)
    {next : Identity → Completion → Option (Nat × Flow)}
    (hnext : ∀ id completion owner flow, s.IdentityOk id → s.CompletionOk id completion →
      next id completion = some (owner, flow) → s.FlowOk flow) :
    (s.endCleanup tab next).Consistent := by
  refine .next (s := s) (.of_same rfl rfl) (h.storage.of_same rfl rfl) ?_ ?_
  · exact h.flows.endCleanup fun id completion owner flow hcleaning =>
      hnext id completion owner flow hcleaning.1 hcleaning.2
  · intro owner cleanup hcleanup
    by_cases howner : owner = tab
    · subst howner
      simp [Browser.endCleanup] at hcleanup
    · simp only [Browser.endCleanup, Function.update_of_ne howner] at hcleanup
      exact h.cleanups owner cleanup hcleanup

theorem Consistent.rejectCleanup (h : s.Consistent) : (s.rejectCleanup tab).Consistent :=
  h.endCleanup fun _ _ _ _ _ _ hrejected => rejected_ok hrejected

/-- A cleanup that completes has cleared for the owner of the marker that is stored then. -/
theorem clearedSince_of_holds {cleanup : Identity} (h : s.StorageOk)
    (hid : s.IdentityOk cleanup) (hholds : s.Holds .none tab cleanup)
    (hcleared : ∃ cleared ∈ s.history.cleared, cleared.marks = s.history.marks ∧
      cleared.userId = cleanup.expectedUserId) : s.ClearedSince id := by
  intro _ owner hmarked
  obtain ⟨hmarker, hne⟩ := h.markedFor hmarked
  have hstate : cleanup.markerState = some (some "1", some ⟨some owner⟩) := by
    rw [← hholds.markerState, logoutMarkerState_none, hmarker]
  obtain ⟨cleared, hmem, hmarks, huser⟩ := hcleared
  exact ⟨cleared, hmem, hmarks, huser.trans (hid.recovery owner hstate hne).2⟩

theorem Consistent.completeCleanup {database : Database} (h : s.Consistent)
    (hid : s.IdentityOk id) :
    ((s.wasCleared database id).completeCleanup .none tab id).Consistent := by
  have hcleared : (s.wasCleared database id).Consistent :=
    h.onward .wasCleared ⟨h.storage.marker, h.storage.token⟩ rfl rfl
  unfold Browser.completeCleanup
  split
  next hholds =>
    refine hcleared.endCleanup ?_
    intro joined completion owner flow hjoined hcompletion hnext
    split at hnext
    · cases hnext
      exact ⟨hjoined, hcompletion, clearedSince_of_holds hcleared.storage
        (hid.onward .wasCleared) hholds ⟨_, List.mem_cons_self, rfl, rfl⟩⟩
    · exact rejected_ok hnext
  · exact hcleared.rejectCleanup

theorem Consistent.cleanup {available current : Bool} {dateNow : Nat} (h : s.Consistent) :
    (s.cleanup core .none tab available current dateNow).Consistent := by
  unfold Browser.cleanup
  split
  · exact h
  next identity confirming hcleanup =>
    have hid : s.IdentityOk identity := h.cleanups tab _ hcleanup
    split
    · exact h.rejectCleanup
    · dsimp only
      split
      · split
        · exact h.completeCleanup hid
        · exact h.rejectCleanup
      · split
        · exact h.completeCleanup hid
        · split
          · exact h.setCleanup hid
          · exact h.rejectCleanup

/-! ## The sections of a sign-out -/

theorem Consistent.markPendingLogout {userId : Option String} (h : s.Consistent)
    (huser : userId ≠ some "") : (s.markPendingLogout .none userId).Consistent := by
  refine h.onward .marked ⟨?_, ?_⟩ rfl rfl
  · intro text htext
    simp only [Browser.markPendingLogout, markPendingLogout_none, Option.some.injEq] at htext ⊢
    exact ⟨htext.symm, userId, rfl, huser⟩
  · intro text htext
    simp [Browser.markPendingLogout] at htext

/-- A marker that was just written is the sign-out of its owner. -/
theorem markPendingLogout_for {userId : Option String} {owner : String}
    (h : (s.markPendingLogout .none userId).MarkedFor owner) : userId = some owner := by
  have hrecord := h.2
  simp only [Browser.markPendingLogout, markPendingLogout_none, Option.some.injEq,
    OwnerRecord.mk.injEq] at hrecord
  exact hrecord

theorem Consistent.clearPendingLogout (h : s.Consistent) :
    (s.clearPendingLogout .none).Consistent := by
  refine h.onward (.withStorage ?_) ⟨?_, ?_⟩ rfl rfl
  · simp
  · intro text htext
    simp [Browser.clearPendingLogout, Browser.withStorage] at htext
  · intro text htext
    simp [Browser.clearPendingLogout, Browser.withStorage] at htext

/-- Storage with another deletion marker, or without one. -/
theorem Consistent.withDeletion {deletion : Option DeletionAttempt} (h : s.Consistent) :
    (s.withStorage { s.storage with pendingDeletion := deletion }).Consistent :=
  h.onward (.withStorage fun _ => ⟨rfl, rfl⟩) ⟨h.storage.marker, h.storage.token⟩ rfl rfl

theorem Consistent.logout (h : s.Consistent) : (s.logout .none tab).Consistent := by
  have hmarked := h.markPendingLogout (ownerId_ne (s.tabs tab))
  unfold Browser.logout
  dsimp only
  split
  · refine hmarked.startFlow ⟨identity_ok _, ?_⟩
    intro mark hsent
    obtain ⟨_, _, rfl⟩ := Option.map_eq_some_iff.mp hsent
    exact ⟨Nat.le_refl _, Nat.le_refl _⟩
  · exact hmarked

theorem Consistent.settle (h : s.Consistent) (hid : s.IdentityOk id)
    (hdead : s.Current id → s.SessionDead) : (s.settle .none i tab id).Consistent := by
  unfold Browser.settle
  split
  · exact h.clearLocalData hid hdead
  next hnone =>
    -- the marker is gone: another one will not be the one that was captured
    refine h.setFlow ⟨hid, hdead, ?_⟩
    intro _ owner hmarked
    exact absurd hmarked.1 (by simpa using hnone)

theorem Consistent.finishPendingLogout {response : Response} (h : s.Consistent)
    (hid : s.IdentityOk id) : (s.finishPendingLogout .none i tab id response).Consistent := by
  unfold Browser.finishPendingLogout
  split
  · exact h.endFlow
  next userId _ =>
    split
    next hexpected =>
      refine h.clearLocalData ⟨hid.marks, hid.captured, ?_⟩ trivial
      intro owner hstate hne
      obtain ⟨hrecovery, howner⟩ := hid.recovery owner hstate hne
      refine ⟨hrecovery, ?_⟩
      rw [howner] at hexpected
      rcases hexpected with hnone | huser
      · cases hnone
      · exact huser.symm
    · exact h.endFlow

/-- A landing whose token is accepted has ended the session that the marker stands for. -/
theorem Consistent.landed (h : s.Consistent)
    (hlanded : s.completedSignInLanding .none tab = some t) :
    t.Consistent ∧ s.Onward t ∧ t.SessionDead := by
  unfold Browser.completedSignInLanding at hlanded
  split at hlanded
  next storage token haccepted htoken =>
    cases hlanded
    obtain ⟨hstored, rfl⟩ := completedSignInLanding_accepts haccepted
    rw [htoken] at hstored
    have hmark := (h.storage.token token hstored).2
    have hon : s.Onward
        { (s.found s.history.signInMark .landed).withStorage
            { s.storage with pendingLogoutSignIn := none } with
          history := { (s.found s.history.signInMark .landed).history with
            accepted := token :: s.history.accepted } } :=
      ⟨.inr ⟨rfl, fun _ => ⟨rfl, rfl⟩⟩, fun _ hmem => List.mem_cons_of_mem _ hmem,
        fun _ hmem => hmem, fun _ hmem => hmem⟩
    refine ⟨h.onward hon ⟨h.storage.marker, ?_⟩ rfl rfl, hon, .landed, ?_⟩
    · intro text htext
      cases htext
    · exact List.mem_cons.mpr (.inl (Prod.ext hmark.symm rfl))
  · cases hlanded

theorem Consistent.loadSession {load : Bool} {captured : Option Identity} {response : Response}
    (h : s.Consistent) (hflow : s.FlowOk (.answered load captured response)) :
    (s.loadSession .none i tab load captured response).Consistent := by
  unfold Browser.loadSession
  split
  · exact h.endFlow
  next id =>
    obtain ⟨hid, hdead⟩ := hflow id rfl
    split
    next hstatus => exact h.settle hid (hdead hstatus)
    · split
      · exact h.endFlow
      · split
        next landed hlanded =>
          obtain ⟨hconsistent, hon, hsession⟩ := h.landed hlanded
          exact hconsistent.settle (hid.onward hon) fun _ => hsession
        · exact h.finishPendingLogout hid

/-! ## The sections of an account deletion -/

theorem Consistent.deleted (h : s.Consistent) (owner : String) :
    Consistent { s with history := { s.history with deleted := owner :: s.history.deleted } } :=
  h.onward ⟨.inr ⟨rfl, fun _ => ⟨rfl, rfl⟩⟩, fun _ hmem => hmem, fun _ hmem => hmem,
    fun _ hmem => List.mem_cons_of_mem _ hmem⟩ ⟨h.storage.marker, h.storage.token⟩ rfl rfl

theorem Consistent.refused (h : s.Consistent) (attemptId : Option String) :
    Consistent
      { s with history := { s.history with refused := attemptId :: s.history.refused } } :=
  h.onward ⟨.inr ⟨rfl, fun _ => ⟨rfl, rfl⟩⟩, fun _ hmem => hmem, fun _ hmem => hmem,
    fun _ hmem => hmem⟩ ⟨h.storage.marker, h.storage.token⟩ rfl rfl

theorem Consistent.removePendingDeletionAttempt (h : s.Consistent) :
    (s.removePendingDeletionAttempt .none).Consistent := by
  unfold Browser.removePendingDeletionAttempt
  rw [removePendingDeletionAttempt_none]
  exact h.withDeletion

theorem Consistent.discardPendingDeletion (h : s.Consistent) :
    (s.discardPendingDeletion .none).Consistent := by
  unfold Browser.discardPendingDeletion
  split
  · exact h
  · exact h.removePendingDeletionAttempt

theorem Consistent.requestAccountDeletion {random : Nat → String} (h : s.Consistent) :
    (s.requestAccountDeletion random .none tab).Consistent := by
  unfold Browser.requestAccountDeletion
  split
  · exact h
  · split
    · simp only [writeCandidate_none, writeIssued_none]
      refine Consistent.startFlow (h.onward ?_ ⟨h.storage.marker, h.storage.token⟩ rfl rfl) trivial
      exact ⟨.inr ⟨rfl, fun _ => ⟨rfl, rfl⟩⟩, fun _ hmem => hmem, fun _ hmem => hmem,
        fun _ hmem => hmem⟩
    · exact h

theorem Consistent.recoverPendingDeletion (h : s.Consistent) :
    (s.recoverPendingDeletion .none tab).Consistent := by
  unfold Browser.recoverPendingDeletion
  split
  · exact h
  · dsimp only
    split
    · refine Consistent.startFlow ?_ trivial
      split
      · exact h.onward ⟨.inr ⟨rfl, fun _ => ⟨rfl, rfl⟩⟩, fun _ hmem => hmem, fun _ hmem => hmem,
          fun _ hmem => hmem⟩ ⟨h.storage.marker, h.storage.token⟩ rfl rfl
      · exact h
    · exact h

/-- The sign-out that follows a confirmed deletion of its owner. -/
theorem Consistent.signOutDeleted {userId : Option String} {owner : String} (h : s.Consistent)
    (hdeleted : owner ∈ s.history.deleted) (huser : userId = some owner) (hne : userId ≠ some "")
    (hcompletion : ∀ t : Browser, ∀ id, t.DeletedFor id owner → t.CompletionOk id completion) :
    ((s.markPendingLogout .none userId).clearLocalData .none i tab
      ((s.markPendingLogout .none userId).identity .none tab) completion).Consistent := by
  refine (h.markPendingLogout hne).clearLocalData (identity_ok _) (hcompletion _ _ ⟨hdeleted, ?_⟩)
  intro _ marked hmarked
  exact Option.some.inj ((markPendingLogout_for hmarked).symm.trans huser)

theorem Consistent.deletionAnswered {issued : IssuedAttempt} {response : Response}
    (h : s.Consistent) : (s.deletionAnswered .none i tab issued response).Consistent := by
  unfold Browser.deletionAnswered
  split
  · exact (h.deleted issued.ownerId).setFlow List.mem_cons_self
  · split
    · exact ((h.refused _).endFlow).removePendingDeletionAttempt
    · exact h.endFlow

theorem Consistent.recoveryAnswered {attempt : DeletionAttempt} {ownerId : Option String}
    {response : Response} (h : s.Consistent) (howner : (s.tabs tab).ownerId = ownerId) :
    (s.recoveryAnswered .none i tab attempt ownerId response).Consistent := by
  unfold Browser.recoveryAnswered
  split
  · split
    next huser =>
      exact (h.deleted attempt.userId).signOutDeleted List.mem_cons_self huser
        (howner ▸ ownerId_ne _) fun _ _ hfor => hfor
    · exact h.endFlow
  · split
    · exact ((h.refused _).endFlow).removePendingDeletionAttempt
    · exact h.endFlow

/-! ## A step -/

theorem Consistent.completed (h : s.Consistent) (hflow : s.FlowOk (.cleared id completion)) :
    (s.completed .none i tab id completion).Consistent := by
  obtain ⟨hid, _, hcleared⟩ := hflow
  cases completion with
  | logout clearMarker =>
    simp only [Browser.completed]
    split
    · exact h.endFlow.clearPendingLogout
    · exact h.endFlow
  | settle =>
    simp only [Browser.completed]
    split
    · exact h.endFlow.clearPendingLogout
    · exact h.endFlow
  | revoke csrfToken =>
    simp only [Browser.completed]
    split
    · exact h.setFlow ⟨hid, hcleared, hid.marks, Nat.le_refl _⟩
    · exact h.endFlow
  | deletion issued =>
    have hended : (s.setFlow i tab (.ended issued true)).Consistent := h.setFlow trivial
    simp only [Browser.completed]
    split
    · exact hended.clearPendingLogout
    · exact hended
  | recovery attempt =>
    simp only [Browser.completed]
    split
    · exact h.endFlow.clearPendingLogout.discardPendingDeletion
    · exact h.endFlow
  | clear => exact h.endFlow

theorem Consistent.goOn {response : Option Response} (h : s.Consistent)
    (hflow : s.FlowOk flow) : (s.goOn .none i tab flow response).Consistent := by
  cases flow with
  | revocation id sent =>
    obtain ⟨hid, hsent⟩ := hflow
    simp only [Browser.goOn]
    split
    next hrevoked =>
      -- the request was sent for the marker that was captured, or a later one
      obtain ⟨mark, rfl⟩ := Option.isSome_iff_exists.mp (Bool.and_eq_true_iff.mp hrevoked).1
      have hfound : (s.found mark .revoked).Consistent :=
        h.onward .found ⟨h.storage.marker, h.storage.token⟩ rfl rfl
      split
      · refine hfound.clearLocalData (hid.onward .found) ?_
        intro _ hcurrent
        obtain ⟨hfrom, hto⟩ := hsent mark rfl
        have hmark : mark = s.history.marks := Nat.le_antisymm hto (hcurrent.symm.le.trans hfrom)
        exact ⟨.revoked, by simp [Browser.found, hmark]⟩
      · exact hfound.endFlow
    next hnot =>
      split
      · exact h.clearLocalData hid fun htrue => absurd htrue hnot
      · exact h.endFlow
  | binding load captured =>
    refine h.setFlow ?_
    intro id hid
    exact ⟨hflow id hid, (hflow id hid).marks, Nat.le_refl _⟩
  | session load captured sent =>
    cases response with
    | none => exact h.endFlow
    | some response =>
      simp only [Browser.goOn]
      split
      · have hfound : (s.found sent .unauthorized).Consistent :=
          h.onward .found ⟨h.storage.marker, h.storage.token⟩ rfl rfl
        refine hfound.setFlow ?_
        intro id hid
        obtain ⟨hok, hfrom, hto⟩ := hflow id hid
        refine ⟨hok.onward .found, fun _ hcurrent => ?_⟩
        have hsent : sent = s.history.marks := Nat.le_antisymm hto (hcurrent.symm.le.trans hfrom)
        exact ⟨.unauthorized, by simp [Browser.found, hsent]⟩
      next hstatus =>
        refine h.setFlow ?_
        intro id hid
        exact ⟨(hflow id hid).1, fun hunauthorized => absurd hunauthorized hstatus⟩
  | answered load captured answer => exact h.loadSession hflow
  | cleaning id completion => exact h
  | cleared id completion => exact h.completed hflow
  | revoking id sent =>
    cases response with
    | none => exact h.endFlow
    | some response =>
      simp only [Browser.goOn]
      split
      · have hfound : (s.found sent .revoked).Consistent :=
          h.onward .found ⟨h.storage.marker, h.storage.token⟩ rfl rfl
        split
        · exact hfound.endFlow.clearPendingLogout
        · exact hfound.endFlow
      · exact h.endFlow
  | deleting issued =>
    cases response with
    | none => exact h.endFlow
    | some response =>
      simp only [Browser.goOn]
      split
      · exact h.deletionAnswered
      · exact h.endFlow
  | deleted issued =>
    simp only [Browser.goOn]
    split
    next howner =>
      exact h.signOutDeleted hflow howner (ownerId_ne _) fun _ _ hfor => hfor
    · exact h.endFlow
  | ended issued cleaned => exact h.endFlow.discardPendingDeletion
  | recovering attempt ownerId =>
    cases response with
    | none => exact h.endFlow
    | some response =>
      simp only [Browser.goOn]
      split
      next hholds => exact h.recoveryAnswered hholds.1
      · exact h.endFlow

theorem Consistent.stop (h : s.Consistent) : (s.stop .none i tab flow).Consistent := by
  cases flow with
  | cleaning => exact h
  | ended => exact h.endFlow.discardPendingDeletion
  | cleared id completion =>
    cases completion with
    | deletion issued => exact h.setFlow trivial
    | _ => exact h.endFlow
  | _ => exact h.endFlow

theorem Consistent.step {random : Nat → String} (h : s.Consistent) (e : SessionEvent) :
    (s.step core random .none e).Consistent := by
  cases e with
  | tab tab state => exact h.onward (.of_same rfl rfl) (h.storage.of_same rfl rfl) rfl rfl
  | transaction t => exact h.onward (.of_same rfl rfl) (h.storage.of_same rfl rfl) rfl rfl
  | logout tab => exact h.logout
  | clearLocalData tab =>
    have hcompletion : s.CompletionOk (s.identity .none tab) .clear := trivial
    have hclear : (s.clearLocalData .none s.nextFlow tab (s.identity .none tab) .clear).Consistent :=
      h.clearLocalData (identity_ok s) hcompletion
    exact hclear.onward (.of_same rfl rfl) (hclear.storage.of_same rfl rfl) rfl rfl
  | fetchSessionPayload tab load =>
    refine h.startFlow ?_
    intro captured hcaptured
    split at hcaptured
    · cases hcaptured
      exact identity_ok s
    · cases hcaptured
  | redirectToLogin tab =>
    simp only [Browser.step]
    rcases @pendingSignInToken_none s.storage (random s.drawn) with hsame | ⟨hsome, habsent, hissued⟩
    · rw [hsame]
      refine h.onward ⟨.inr ⟨rfl, fun _ => ⟨rfl, rfl⟩⟩, fun _ hmem => hmem, fun _ hmem => hmem,
        fun _ hmem => hmem⟩ ⟨h.storage.marker, ?_⟩ rfl rfl
      simpa [withStorage] using h.storage.token
    · rw [hissued]
      refine h.onward ⟨.inr ⟨rfl, fun _ => ⟨rfl, rfl⟩⟩, fun _ hmem => hmem, fun _ hmem => hmem,
        fun _ hmem => hmem⟩ ⟨h.storage.marker, ?_⟩ rfl rfl
      intro text _
      refine ⟨hsome, if_neg fun hsame => ?_⟩
      rw [← hsame] at habsent
      cases habsent
  | requestAccountDeletion tab => exact h.requestAccountDeletion
  | recoverPendingDeletion tab => exact h.recoverPendingDeletion
  | resume i response current =>
    simp only [Browser.step]
    split
    · exact h
    next tab flow hflow =>
      split
      · exact h.goOn (h.flows i tab flow hflow)
      · exact h.stop
  | cleanup tab available current dateNow => exact h.cleanup
  | crash tab =>
    refine .next (s := s) (.of_same rfl rfl) (h.storage.of_same rfl rfl) ?_ ?_
    · intro i owner flow hflow
      exact h.flows i owner flow (Option.filter_eq_some_iff.mp hflow).1
    · intro owner cleanup hcleanup
      by_cases howner : owner = tab
      · subst howner
        simp [Browser.step] at hcleanup
      · simp only [Browser.step, Function.update_of_ne howner] at hcleanup
        exact h.cleanups owner cleanup hcleanup

theorem start_consistent {tabs : Nat → SessionTab} {database : Database}
    {legacy : Option (String × Option String)} : (start tabs database legacy).Consistent := by
  refine ⟨⟨?_, ?_⟩, ?_, ?_⟩
  · intro text htext
    cases htext
  · intro text htext
    cases htext
  · intro i tab flow hflow
    cases hflow
  · intro tab cleanup hcleanup
    cases hcleanup

/-! ## Which steps remove the marker -/

/-- The identity that the section of the flow checks before it removes the marker. -/
def removing (s : Browser) : Flow → Option Response → Option Identity
  | .cleared id (.logout true), _ | .cleared id .settle, _ | .cleared id (.deletion _), _ => some id
  | .cleared id (.recovery attempt), _ =>
    if holdsPendingDeletionAttempt .none s.storage attempt then some id else none
  | .revoking id _, some response => if response.revoked then some id else none
  | _, _ => none

/-- A section is about to remove a marker that was written after the flow has captured
the one it is to remove, with the same content. -/
def confuses (s : Browser) : SessionEvent → Bool
  | .resume i response true => (s.flows i).any fun (tab, flow) =>
    (s.removing flow response).any fun id =>
      decide (s.Holds .none tab id) && s.storage.pendingLogout.isSome &&
        decide (id.marks < s.history.marks)
  | _ => false

theorem confuses_of {response : Option Response} (hflow : s.flows i = some (tab, flow))
    (hremoving : s.removing flow response = some id) (hholds : s.Holds .none tab id)
    (hsome : s.storage.pendingLogout.isSome = true) (hlt : id.marks < s.history.marks) :
    s.confuses (.resume i response true) = true := by
  simp [confuses, hflow, hremoving, hholds, hsome, hlt]

theorem discardPendingDeletion_pendingLogout :
    (s.discardPendingDeletion .none).storage.pendingLogout = s.storage.pendingLogout := by
  unfold discardPendingDeletion
  split
  · rfl
  · simp [removePendingDeletionAttempt, withStorage]

theorem loadSession_pendingLogout {load : Bool} {captured : Option Identity} {response : Response} :
    (s.loadSession .none i tab load captured response).storage.pendingLogout =
      s.storage.pendingLogout := by
  unfold loadSession
  split
  · rfl
  · split
    · simp
    · split
      · rfl
      · split
        next landed hlanded =>
          unfold completedSignInLanding at hlanded
          split at hlanded
          next storage token haccepted _ =>
            cases hlanded
            obtain ⟨_, rfl⟩ := completedSignInLanding_accepts haccepted
            simp [withStorage]
          · cases hlanded
        · simp

theorem clearLocalData_pendingLogout {userId : Option String} :
    ((s.markPendingLogout .none userId).clearLocalData .none i tab id
      completion).storage.pendingLogout = some "1" := by
  simp [Browser.markPendingLogout]

theorem deletionAnswered_pendingLogout {issued : IssuedAttempt} {response : Response} :
    (s.deletionAnswered .none i tab issued response).storage.pendingLogout =
      s.storage.pendingLogout := by
  unfold deletionAnswered
  split
  · rfl
  · split
    · simp [removePendingDeletionAttempt, withStorage]
    · rfl

theorem recoveryAnswered_pendingLogout {attempt : DeletionAttempt} {ownerId : Option String}
    {response : Response} :
    (s.recoveryAnswered .none i tab attempt ownerId response).storage.pendingLogout =
        s.storage.pendingLogout ∨
      (s.recoveryAnswered .none i tab attempt ownerId response).storage.pendingLogout =
        some "1" := by
  unfold recoveryAnswered
  split
  · split
    · exact .inr clearLocalData_pendingLogout
    · exact .inl rfl
  · split
    · exact .inl (by simp [removePendingDeletionAttempt, withStorage])
    · exact .inl rfl

theorem cleanup_storage {available current : Bool} {dateNow : Nat} :
    (s.cleanup core faults tab available current dateNow).storage = s.storage := by
  unfold cleanup
  split
  · rfl
  · split
    · rfl
    · dsimp only
      split
      · split
        · exact completeCleanup_storage
        · rfl
      · split
        · exact completeCleanup_storage
        · split <;> rfl

/-- A section that goes on removes the marker only where it checks an identity before. -/
theorem goOn_removes {response : Option Response} (hsome : s.storage.pendingLogout.isSome = true)
    (hnone : (s.goOn .none i tab flow response).storage.pendingLogout = none) :
    ∃ id, s.removing flow response = some id ∧ s.Holds .none tab id := by
  have hkept : (s.goOn .none i tab flow response).storage.pendingLogout ≠
      s.storage.pendingLogout := by
    rw [hnone]
    exact fun h => by simp [← h] at hsome
  cases flow with
  | revocation id sent =>
    refine absurd ?_ hkept
    simp only [goOn]
    split <;> split <;> simp [found]
  | binding load captured => exact absurd rfl hkept
  | session load captured sent =>
    refine absurd ?_ hkept
    cases response with
    | none => rfl
    | some response =>
      simp only [goOn]
      split <;> rfl
  | answered load captured answer => exact absurd loadSession_pendingLogout hkept
  | cleaning id completion => exact absurd rfl hkept
  | cleared id completion =>
    simp only [goOn, completed] at hkept
    cases completion with
    | logout clearMarker =>
      dsimp only at hkept
      split at hkept
      next hholds =>
        obtain ⟨rfl, hholds⟩ := hholds
        exact ⟨id, rfl, hholds⟩
      · exact absurd rfl hkept
    | settle =>
      dsimp only at hkept
      split at hkept
      next hholds => exact ⟨id, rfl, hholds⟩
      · exact absurd rfl hkept
    | revoke csrfToken =>
      dsimp only at hkept
      split at hkept <;> exact absurd rfl hkept
    | deletion issued =>
      dsimp only at hkept
      split at hkept
      next hholds => exact ⟨id, rfl, hholds⟩
      · exact absurd rfl hkept
    | recovery attempt =>
      dsimp only at hkept
      split at hkept
      next hholds => exact ⟨id, if_pos hholds.2, hholds.1⟩
      · exact absurd rfl hkept
    | clear => exact absurd rfl hkept
  | revoking id sent =>
    cases response with
    | none => exact absurd rfl hkept
    | some response =>
      simp only [goOn] at hkept
      split at hkept
      next hrevoked =>
        split at hkept
        next hholds => exact ⟨id, if_pos hrevoked, hholds⟩
        · exact absurd rfl hkept
      · exact absurd rfl hkept
  | deleting issued =>
    refine absurd ?_ hkept
    cases response with
    | none => rfl
    | some response =>
      simp only [goOn]
      split
      · exact deletionAnswered_pendingLogout
      · rfl
  | deleted issued =>
    simp only [goOn] at hnone
    split at hnone
    · rw [confirmDeleteAccount, clearLocalData_pendingLogout] at hnone
      cases hnone
    · rw [endFlow_storage] at hnone
      rw [hnone] at hsome
      cases hsome
  | ended issued cleaned => exact absurd discardPendingDeletion_pendingLogout hkept
  | recovering attempt ownerId =>
    cases response with
    | none => exact absurd rfl hkept
    | some response =>
      simp only [goOn] at hnone hkept
      split at hkept
      next hholds =>
        rw [if_pos hholds] at hnone
        rcases @recoveryAnswered_pendingLogout s i tab attempt ownerId response with hsame | hmarked
        · exact absurd hsame hkept
        · rw [hmarked] at hnone
          cases hnone
      · exact absurd rfl hkept

theorem stop_pendingLogout :
    (s.stop .none i tab flow).storage.pendingLogout = s.storage.pendingLogout := by
  cases flow with
  | ended => exact discardPendingDeletion_pendingLogout
  | cleared id completion => cases completion <;> rfl
  | _ => rfl

theorem requestAccountDeletion_pendingLogout {random : Nat → String} :
    (s.requestAccountDeletion random .none tab).storage.pendingLogout =
      s.storage.pendingLogout := by
  unfold requestAccountDeletion
  split
  · rfl
  · split
    · simp [note, withStorage]
    · rfl

theorem recoverPendingDeletion_storage :
    (s.recoverPendingDeletion faults tab).storage = s.storage := by
  unfold recoverPendingDeletion
  split
  · rfl
  · dsimp only
    split
    · split <;> rfl
    · rfl

/-- Only a flow that goes on removes the marker, after it has checked its identity. -/
theorem step_removes {random : Nat → String} {e : SessionEvent}
    (hsome : s.storage.pendingLogout.isSome = true)
    (hnone : (s.step core random .none e).storage.pendingLogout = none) :
    ∃ i response tab flow id, e = .resume i response true ∧ s.flows i = some (tab, flow) ∧
      s.removing flow response = some id ∧ s.Holds .none tab id := by
  have hkept : (s.step core random .none e).storage.pendingLogout ≠ s.storage.pendingLogout := by
    rw [hnone]
    exact fun h => by simp [← h] at hsome
  cases e with
  | logout tab =>
    simp only [step, logout] at hnone
    split at hnone <;> simp [Browser.markPendingLogout] at hnone
  | redirectToLogin tab =>
    refine absurd ?_ hkept
    simp only [step]
    rcases @pendingSignInToken_none s.storage (random s.drawn) with hsame | ⟨_, _, hissued⟩
    · rw [hsame]
      rfl
    · rw [hissued]
      rfl
  | resume i response current =>
    simp only [step] at hnone hkept
    split at hnone
    · simp [hnone] at hsome
    next tab flow hflow =>
      rw [hflow] at hkept
      cases current with
      | false => exact absurd stop_pendingLogout hkept
      | true =>
        obtain ⟨id, hremoving, hholds⟩ := goOn_removes hsome hnone
        exact ⟨i, response, tab, flow, id, rfl, hflow, hremoving, hholds⟩
  | clearLocalData tab => exact absurd (by simp [step]) hkept
  | requestAccountDeletion tab => exact absurd requestAccountDeletion_pendingLogout hkept
  | recoverPendingDeletion tab =>
    exact absurd (by simp [step, recoverPendingDeletion_storage]) hkept
  | cleanup tab available current dateNow => exact absurd (by simp [step, cleanup_storage]) hkept
  | tab | transaction | fetchSessionPayload | crash => exact absurd rfl hkept

/-! ## What a removal rests on -/

/-- After the marker of this number was written, the local data of its owner were
cleared or found cleared, and its session is dead. -/
structure SignOutDone (mark : Nat) (history : History) (owner : String) : Prop where
  cleared : ∃ cleared ∈ history.cleared, cleared.marks = mark ∧ cleared.userId = some owner
  dead : (∃ evidence, (mark, evidence) ∈ history.evidence) ∨ owner ∈ history.deleted

theorem goOn_history_of_cleared {response : Option Response} :
    (s.goOn .none i tab (.cleared id completion) response).history = s.history := by
  cases completion <;> simp only [goOn, completed, discardPendingDeletion] <;>
    (repeat' split) <;> rfl

theorem FlowOk.done {response : Option Response} {owner : String} (hflow : s.FlowOk flow)
    (hremoving : s.removing flow response = some id) (hcurrent : s.Current id)
    (hmarked : s.MarkedFor owner) :
    SignOutDone s.history.marks (s.goOn .none i tab flow response).history owner := by
  cases flow with
  | cleared captured completion =>
    rw [goOn_history_of_cleared]
    cases completion with
    | logout clearMarker =>
      cases clearMarker with
      | false => cases hremoving
      | true =>
        cases hremoving
        exact ⟨hflow.2.2 hcurrent owner hmarked, .inl (hflow.2.1 rfl hcurrent)⟩
    | settle =>
      cases hremoving
      exact ⟨hflow.2.2 hcurrent owner hmarked, .inl (hflow.2.1 hcurrent)⟩
    | deletion issued =>
      cases hremoving
      obtain ⟨hdeleted, hfor⟩ := hflow.2.1
      refine ⟨hflow.2.2 hcurrent owner hmarked, .inr ?_⟩
      rw [hfor hcurrent owner hmarked]
      exact hdeleted
    | recovery attempt =>
      simp only [removing] at hremoving
      split at hremoving
      · cases hremoving
        obtain ⟨hdeleted, hfor⟩ := hflow.2.1
        refine ⟨hflow.2.2 hcurrent owner hmarked, .inr ?_⟩
        rw [hfor hcurrent owner hmarked]
        exact hdeleted
      · cases hremoving
    | revoke | clear => cases hremoving
  | revoking captured sent =>
    cases response with
    | none => cases hremoving
    | some response =>
      simp only [removing] at hremoving
      split at hremoving
      next hrevoked =>
        cases hremoving
        obtain ⟨_, hcleared, hfrom, hto⟩ := hflow
        -- the request was sent for the marker that is stored
        have hsent : sent = s.history.marks := Nat.le_antisymm hto (hcurrent.symm.le.trans hfrom)
        have hhistory : (s.goOn .none i tab (.revoking id sent) (some response)).history =
            (s.found sent .revoked).history := by
          simp only [goOn, if_pos hrevoked]
          split <;> rfl
        rw [hhistory]
        exact ⟨hcleared hcurrent owner hmarked, .inl ⟨.revoked, by simp [found, hsent]⟩⟩
      · cases hremoving
  | _ => cases hremoving

theorem removing_cases {response : Option Response} (h : s.removing flow response = some id) :
    (∃ completion, flow = .cleared id completion) ∨ ∃ sent, flow = .revoking id sent := by
  cases flow with
  | cleared captured completion =>
    refine .inl ⟨completion, ?_⟩
    cases completion with
    | logout clearMarker =>
      cases clearMarker with
      | false => cases h
      | true =>
        cases h
        rfl
    | recovery attempt =>
      simp only [removing] at h
      split at h
      · cases h
        rfl
      · cases h
    | settle | deletion =>
      cases h
      rfl
    | revoke | clear => cases h
  | revoking captured sent =>
    refine .inr ⟨sent, ?_⟩
    cases response with
    | none => cases h
    | some response =>
      simp only [removing] at h
      split at h
      · cases h
        rfl
      · cases h
  | _ => cases h

theorem FlowOk.removing_marks {response : Option Response} (hflow : s.FlowOk flow)
    (h : s.removing flow response = some id) : id.marks ≤ s.history.marks := by
  rcases removing_cases h with ⟨completion, rfl⟩ | ⟨sent, rfl⟩
  · exact hflow.1.marks
  · exact hflow.1.marks

/-- A step that removes a marker of some owner, and confuses it with no other, removes it
once its sign-out is done. -/
theorem Consistent.done {random : Nat → String} {e : SessionEvent} {owner : String}
    (h : s.Consistent) (hkeeps : s.confuses e = false) (hmarked : s.MarkedFor owner)
    (hnone : (s.step core random .none e).storage.pendingLogout = none) :
    SignOutDone s.history.marks (s.step core random .none e).history owner := by
  obtain ⟨i, response, tab, flow, id, rfl, hflow, hremoving, hholds⟩ :=
    step_removes hmarked.1 hnone
  have hok := h.flows i tab flow hflow
  have hid := hok.removing_marks hremoving
  have hcurrent : s.Current id := by
    refine Nat.le_antisymm hid (Nat.not_lt.mp fun hlt => ?_)
    rw [confuses_of hflow hremoving hholds hmarked.1 hlt] at hkeeps
    cases hkeeps
  have hstep : s.step core random .none (.resume i response true) =
      s.goOn .none i tab flow response := by
    simp [Browser.step, hflow]
  rw [hstep]
  exact hok.done hremoving hcurrent hmarked

/-! ## Sign-in tokens -/

/-- Tokens come from the values that were drawn; an accepted one is not stored. -/
structure TokensOk (random : Nat → String) (s : Browser) : Prop where
  stored : ∀ token, s.storage.pendingLogoutSignIn = some token →
    token ∉ s.history.accepted ∧ ∃ n < s.drawn, token = random n
  accepted : ∀ token ∈ s.history.accepted, ∃ n < s.drawn, token = random n
  nodup : s.history.accepted.Nodup

variable {random : Nat → String}

theorem TokensOk.kept (h : TokensOk random s) (hkept : s.TokensKept t) : TokensOk random t := by
  have hdrawn : ∀ token : String, (∃ n < s.drawn, token = random n) →
      ∃ n < t.drawn, token = random n := by
    rintro token ⟨n, hn, htoken⟩
    exact ⟨n, hn.trans_le hkept.drawn, htoken⟩
  refine ⟨?_, ?_, hkept.accepted ▸ h.nodup⟩
  · intro token htoken
    rcases hkept.signIn with hsame | hnone
    · obtain ⟨hfresh, hdraw⟩ := h.stored token (hsame ▸ htoken)
      exact ⟨hkept.accepted ▸ hfresh, hdrawn token hdraw⟩
    · rw [hnone] at htoken
      cases htoken
  · intro token hmem
    exact hdrawn token (h.accepted token (hkept.accepted ▸ hmem))

theorem TokensOk.accept {token : String} (h : TokensOk random s)
    (haccepted : s.TokenAccepted t token) : TokensOk random t := by
  obtain ⟨hfresh, n, hn, htoken⟩ := h.stored token haccepted.stored
  refine ⟨?_, ?_, ?_⟩
  · intro stored hstored
    rw [haccepted.consumed] at hstored
    cases hstored
  · intro other hmem
    rw [haccepted.accepted] at hmem
    rcases List.mem_cons.mp hmem with rfl | hmem
    · exact ⟨n, hn.trans_le haccepted.drawn, htoken⟩
    · obtain ⟨m, hm, hother⟩ := h.accepted other hmem
      exact ⟨m, hm.trans_le haccepted.drawn, hother⟩
  · rw [haccepted.accepted]
    exact List.nodup_cons.mpr ⟨hfresh, h.nodup⟩

/-- A fresh token is stored. -/
theorem TokensOk.issue (h : TokensOk random s) (hrandom : Function.Injective random)
    (hstored : t.storage.pendingLogoutSignIn = some (random s.drawn))
    (haccepted : t.history.accepted = s.history.accepted) (hdrawn : t.drawn = s.drawn + 1) :
    TokensOk random t := by
  refine ⟨?_, ?_, haccepted ▸ h.nodup⟩
  · intro token htoken
    rw [hstored] at htoken
    cases htoken
    refine ⟨?_, s.drawn, hdrawn ▸ Nat.lt_succ_self _, rfl⟩
    intro hmem
    obtain ⟨n, hn, hsame⟩ := h.accepted _ (haccepted ▸ hmem)
    exact hn.ne (hrandom hsame).symm
  · intro token hmem
    obtain ⟨n, hn, htoken⟩ := h.accepted token (haccepted ▸ hmem)
    exact ⟨n, hdrawn ▸ hn.trans (Nat.lt_succ_self _), htoken⟩

theorem TokensOk.step (h : TokensOk random s) (hrandom : Function.Injective random)
    (e : SessionEvent) : TokensOk random (s.step core random .none e) := by
  cases e with
  | tab | transaction | fetchSessionPayload | crash => exact h.kept ⟨.inl rfl, rfl, Nat.le_refl _⟩
  | logout tab => exact h.kept (@Kept.logout .none s tab False).toTokensKept
  | clearLocalData tab =>
    have hclear : s.Kept False (s.step core random .none (.clearLocalData tab)) :=
      Kept.clearLocalData.same rfl rfl rfl
    exact h.kept hclear.toTokensKept
  | redirectToLogin tab =>
    rcases @pendingSignInToken_none s.storage (random s.drawn) with hsame | ⟨_, _, hissued⟩
    · refine h.kept ⟨.inl ?_, rfl, Nat.le_succ _⟩
      simp only [Browser.step, hsame]
      rfl
    · refine h.issue hrandom ?_ rfl rfl
      simp only [Browser.step, hissued]
      rfl
  | requestAccountDeletion tab => exact h.kept requestAccountDeletion_tokens
  | recoverPendingDeletion tab => exact h.kept recoverPendingDeletion_tokens
  | resume i response current =>
    simp only [Browser.step]
    split
    · exact h
    · split
      · rcases goOn_kept with hkept | ⟨token, hlanded⟩
        · exact h.kept hkept.toTokensKept
        · exact h.accept hlanded.toTokenAccepted
      · exact h.kept Kept.stop.toTokensKept
  | cleanup tab available current dateNow => exact h.kept (@Kept.cleanup core .none s tab False _ _ _).toTokensKept

theorem start_tokens {tabs : Nat → SessionTab} {database : Database}
    {legacy : Option (String × Option String)} : TokensOk random (start tabs database legacy) := by
  refine ⟨?_, ?_, List.nodup_nil⟩
  · intro token htoken
    cases htoken
  · intro token hmem
    cases hmem

/-! ## Runs -/

/-- The browser after the events, with storage that works. -/
abbrev run (core : Core) (random : Nat → String) (s : Browser) (events : List SessionEvent) :
    Browser :=
  Traces.run (Browser.step core random .none) s events

/-- In every run in which no section confuses a marker with an older one, a marker is
removed only when its sign-out is done: after it was written the local data of its owner
were cleared or found cleared, and its session was revoked, or found dead, or replaced by a
sign-in that its token proves, or its account was deleted. A sign-in token is accepted at
most once. -/
theorem sign_out_forgotten_when_done (core : Core) (random : Nat → String)
    (hrandom : Function.Injective random) (tabs : Nat → SessionTab) (database : Database)
    (legacy : Option (String × Option String)) (events : List SessionEvent)
    (hkeeps : Traces.Meets (Browser.step core random .none) (fun s e => s.confuses e = false)
      (start tabs database legacy) events) :
    (∀ before e after, events = before ++ e :: after → ∀ owner,
      (run core random (start tabs database legacy) before).MarkedFor owner →
      (run core random (start tabs database legacy) (before ++ [e])).storage.pendingLogout = none →
      SignOutDone (run core random (start tabs database legacy) before).history.marks
        (run core random (start tabs database legacy) (before ++ [e])).history owner) ∧
    (run core random (start tabs database legacy) events).history.accepted.Nodup := by
  have hconsistent : ∀ es, (run core random (start tabs database legacy) es).Consistent :=
    fun es => Traces.always (fun s e h => h.step e) start_consistent
  have htokens : TokensOk random (run core random (start tabs database legacy) events) :=
    Traces.always (fun s e h => h.step hrandom e) start_tokens
  refine ⟨?_, htokens.nodup⟩
  rintro before e after rfl owner hmarked hnone
  have hat := hkeeps.at
  have hstep : run core random (start tabs database legacy) (before ++ [e]) =
      (run core random (start tabs database legacy) before).step core random .none e := by simp
  rw [hstep] at hnone ⊢
  exact (hconsistent before).done hat hmarked hnone

/-! ## A sign-out that another one hides -/

def signedIn : SessionTab := ⟨"tab", some "account:v1:1", some "account:v1:1", some "token", none⟩

def starting : SessionTab := ⟨"other tab", none, none, none, none⟩

def twoTabs (tab : Nat) : SessionTab := if tab = 0 then signedIn else starting

/-- One value after another, all different. -/
def drawnText (n : Nat) : String := String.ofList (List.replicate n 'x')

theorem drawnText_injective : Function.Injective drawnText := by
  intro m n h
  have hlist : List.replicate m 'x' = List.replicate n 'x' := String.ofList_injective h
  simpa using congrArg List.length hlist

def unauthorized : Response := ⟨401, none, none⟩

def noContent : Response := ⟨204, none, none⟩

/-- A tab signs out; its request is answered late. A tab that starts meanwhile finds the
session dead, clears the local data and removes the marker. -/
def recovered : List SessionEvent :=
  [.logout 0, .fetchSessionPayload 1 true, .resume 1 none true,
    .resume 1 (some unauthorized) true, .resume 1 none true, .cleanup 1 true true 0,
    .resume 1 none true]

/-- The same account signs in there and signs out again. Then the first tab goes on. -/
def confused : List SessionEvent :=
  recovered ++ [.tab 1 signedIn, .logout 1, .resume 0 (some noContent) true,
    .cleanup 0 true true 0, .cleanup 0 true true 0, .resume 0 none true]

/-- The two tabs share the local data of one account. -/
def signedInBrowser : Browser := start twoTabs referenceDatabase none

/-- The removal in the tab that starts is one of the theorem's. -/
theorem sign_out_forgotten_recovered :
    SignOutDone (run referenceCore drawnText signedInBrowser (recovered.take 6)).history.marks
      (run referenceCore drawnText signedInBrowser
        (recovered.take 6 ++ [.resume 1 none true])).history "account:v1:1" :=
  (sign_out_forgotten_when_done referenceCore drawnText drawnText_injective twoTabs
    referenceDatabase none recovered (by decide +kernel)).1 (recovered.take 6)
    (.resume 1 none true) [] rfl "account:v1:1" (by decide +kernel) (by decide +kernel)

/-- The answer to the first request removes the marker of the second sign-out, whose
session is still alive. -/
theorem sign_out_forgotten_early : ∃ before e, confused = before ++ [e] ∧
    (run referenceCore drawnText signedInBrowser before).MarkedFor "account:v1:1" ∧
    (run referenceCore drawnText signedInBrowser (before ++ [e])).storage.pendingLogout = none ∧
    ¬ SignOutDone (run referenceCore drawnText signedInBrowser before).history.marks
      (run referenceCore drawnText signedInBrowser (before ++ [e])).history "account:v1:1" := by
  refine ⟨confused.take 12, .resume 0 none true, rfl, by decide +kernel, by decide +kernel, ?_⟩
  have hmarks : (run referenceCore drawnText signedInBrowser (confused.take 12)).history.marks =
      2 := by
    decide +kernel
  have hevidence : (run referenceCore drawnText signedInBrowser
      (confused.take 12 ++ [.resume 0 none true])).history.evidence =
        [(1, .revoked), (1, .unauthorized)] := by
    decide +kernel
  have hdeleted : (run referenceCore drawnText signedInBrowser
      (confused.take 12 ++ [.resume 0 none true])).history.deleted = [] := by
    decide +kernel
  rintro ⟨_, ⟨evidence, hmem⟩ | hmem⟩
  · rw [hmarks, hevidence] at hmem
    simp at hmem
  · rw [hdeleted] at hmem
    cases hmem

end Browser

end Pomodorough.Web.Session
