import Pomodorough.Web.PendingSignOut

/-! # When the marker of a deletion is removed

An issued marker is what a later start of the application finishes a deletion with, so
it may go once the server refused the deletion, or the local data are cleared. The flow of
a deletion ends with a look at the other marker only, and a refusal with none. -/
namespace Pomodorough.Web.Session
open Pomodorough.Library

theorem pendingSignInToken_deletion {faults : Faults} {text : String} {storage : LocalStorage} :
    (pendingSignInToken faults text storage).pendingDeletion = storage.pendingDeletion := by
  unfold pendingSignInToken
  split
  · rfl
  · refine attempt_keeps (P := fun next => next.pendingDeletion = storage.pendingDeletion) rfl ?_
    intro statement hmem before after hsame hafter
    rw [List.mem_singleton] at hmem
    subst hmem
    exact setItem_keeps (P := fun next => next.pendingDeletion = storage.pendingDeletion)
      hsame hsame hafter

namespace Browser
variable {core : Core} {random : Nat → String} {faults : Faults} {s t : Browser} {i tab : Nat}
  {flow : Flow} {id : Identity} {completion : Completion} {discards : Prop}
  {attemptId : Option String} {userId : String}

/-! ## Issued markers -/

/-- The marker is stored in stage `issued`. -/
def Issued (s : Browser) (marker : DeletionAttempt) : Prop :=
  s.storage.pendingDeletion = some marker ∧ marker.stage = some .issued

instance {s : Browser} {marker : DeletionAttempt} : Decidable (s.Issued marker) :=
  inferInstanceAs (Decidable (_ ∧ _))

/-- A marker that retries the deletion of the account is stored. -/
def IssuedFor (s : Browser) (userId : String) : Prop :=
  ∃ marker, s.Issued marker ∧ marker.userId = userId

/-- From `s` to `t` there is no need of the marker any more: the server refused its
deletion, or confirmed it, and the local data of the account were cleared, or found
cleared, after the last marker that `s` knows was issued. -/
def Settled (s t : Browser) (marker : DeletionAttempt) : Prop :=
  marker.attemptId ∈ t.history.refused ∨
    marker.userId ∈ t.history.deleted ∧ ∃ cleared ∈ t.history.cleared,
      cleared.issues = s.history.issues ∧ cleared.userId = some marker.userId

/-! ## What later sections keep of a deletion -/

/-- Nothing of a deletion is forgotten; an issued marker is the one of before, or one with
a fresh attempt. -/
structure Later (random : Nat → String) (s t : Browser) : Prop where
  drawn : s.drawn ≤ t.drawn
  issues : s.history.issues ≤ t.history.issues
  cleared : s.history.cleared ⊆ t.history.cleared
  deleted : s.history.deleted ⊆ t.history.deleted
  refused : s.history.refused ⊆ t.history.refused
  issued : ∀ marker, t.Issued marker →
    s.Issued marker ∧ t.history.issues = s.history.issues ∨
      ∃ n ≥ s.drawn, marker.attemptId = some (random n)

theorem Kept.later (h : s.Kept discards t) : Later random s t where
  drawn := h.drawn
  issues := h.issues.symm.le
  cleared := h.cleared
  deleted := h.deleted
  refused := h.refused
  issued := by
    rintro marker ⟨hmarker, hstage⟩
    rcases h.pendingDeletion with hsame | ⟨_, hnone⟩
    · exact .inl ⟨⟨hsame ▸ hmarker, hstage⟩, h.issues⟩
    · rw [hnone] at hmarker
      cases hmarker

theorem Landed.later {token : String} (h : s.Landed t token) : Later random s t where
  drawn := h.drawn
  issues := h.issues.symm.le
  cleared := h.cleared ▸ List.Subset.refl _
  deleted := h.deleted ▸ List.Subset.refl _
  refused := h.refused ▸ List.Subset.refl _
  issued := by
    rintro marker ⟨hmarker, hstage⟩
    exact .inl ⟨⟨h.pendingDeletion ▸ hmarker, hstage⟩, h.issues⟩

/-- The sections that touch neither storage nor the history. -/
theorem Later.of_same (hstorage : t.storage = s.storage) (hhistory : t.history = s.history)
    (hdrawn : t.drawn = s.drawn) : Later random s t :=
  (Kept.of_same hstorage hhistory hdrawn : s.Kept False t).later

/-! ## What a flow knows of its attempt -/

/-- The attempt was drawn, and its marker, if that is stored, is of the account. -/
structure Known (random : Nat → String) (s : Browser) (attemptId : Option String)
    (userId : String) : Prop where
  drawn : ∀ text, attemptId = some text → ∃ n < s.drawn, text = random n
  owner : ∀ marker, s.Issued marker → marker.attemptId = attemptId → marker.userId = userId

structure Confirmed (random : Nat → String) (s : Browser) (attemptId : Option String)
    (userId : String) : Prop extends Known random s attemptId userId where
  deleted : userId ∈ s.history.deleted

/-- The local data were cleared after the marker was issued, if that is stored. -/
def ClearedAfter (s : Browser) (attemptId : Option String) (userId : String) : Prop :=
  ∃ cleared ∈ s.history.cleared, cleared.userId = some userId ∧
    ∀ marker, s.Issued marker → marker.attemptId = attemptId →
      cleared.issues = s.history.issues

/-- The flow clears the local data of the account. -/
structure Cleaning (random : Nat → String) (s : Browser) (id : Identity)
    (attemptId : Option String) (userId : String) : Prop
    extends Confirmed random s attemptId userId where
  identity : id.userId.or id.localOwnerId = some userId

def DeletionOk (random : Nat → String) (s : Browser) : Flow → Prop
  | .deleting issued => s.Known random (some issued.attemptId) issued.ownerId
  | .deleted issued => s.Confirmed random (some issued.attemptId) issued.ownerId
  | .cleaning id (.deletion issued) =>
    s.Cleaning random id (some issued.attemptId) issued.ownerId
  | .cleaning id (.recovery attempt) => s.Cleaning random id attempt.attemptId attempt.userId
  | .cleared _ (.deletion issued) =>
    s.Confirmed random (some issued.attemptId) issued.ownerId ∧
      s.ClearedAfter (some issued.attemptId) issued.ownerId
  | .cleared _ (.recovery attempt) =>
    s.Confirmed random attempt.attemptId attempt.userId ∧
      s.ClearedAfter attempt.attemptId attempt.userId
  | .ended issued cleaned =>
    s.Confirmed random (some issued.attemptId) issued.ownerId ∧
      (cleaned = true → s.ClearedAfter (some issued.attemptId) issued.ownerId)
  | .recovering attempt _ => s.Known random attempt.attemptId attempt.userId
  | _ => True

section
variable (hrandom : Function.Injective random) (hlater : Later random s t)
include hrandom hlater

/-- The marker of a known attempt was stored before: a fresh one has another attempt. -/
theorem Known.issued (h : s.Known random attemptId userId) {marker : DeletionAttempt}
    (hissued : t.Issued marker) (hattempt : marker.attemptId = attemptId) :
    s.Issued marker ∧ t.history.issues = s.history.issues := by
  rcases hlater.issued marker hissued with hbefore | ⟨n, hn, hfresh⟩
  · exact hbefore
  · obtain ⟨m, hm, hsame⟩ := h.drawn (random n) (hattempt.symm.trans hfresh)
    have hnm : n = m := hrandom hsame
    exact absurd (hnm ▸ hm) (Nat.not_lt.mpr hn)

theorem Known.later (h : s.Known random attemptId userId) : t.Known random attemptId userId where
  drawn := by
    intro text htext
    obtain ⟨n, hn, hsame⟩ := h.drawn text htext
    exact ⟨n, hn.trans_le hlater.drawn, hsame⟩
  owner := by
    intro marker hissued hattempt
    exact h.owner marker (h.issued hrandom hlater hissued hattempt).1 hattempt

theorem Confirmed.later (h : s.Confirmed random attemptId userId) :
    t.Confirmed random attemptId userId :=
  ⟨h.toKnown.later hrandom hlater, hlater.deleted h.deleted⟩

theorem ClearedAfter.later (h : s.ClearedAfter attemptId userId)
    (hknown : s.Known random attemptId userId) : t.ClearedAfter attemptId userId := by
  obtain ⟨cleared, hmem, huser, hissues⟩ := h
  refine ⟨cleared, hlater.cleared hmem, huser, ?_⟩
  intro marker hissued hattempt
  obtain ⟨hbefore, hsame⟩ := hknown.issued hrandom hlater hissued hattempt
  rw [hsame]
  exact hissues marker hbefore hattempt

theorem Cleaning.later (h : s.Cleaning random id attemptId userId) :
    t.Cleaning random id attemptId userId :=
  ⟨h.toConfirmed.later hrandom hlater, h.identity⟩

theorem DeletionOk.later (h : s.DeletionOk random flow) : t.DeletionOk random flow := by
  cases flow with
  | deleting issued => exact Known.later hrandom hlater h
  | deleted issued => exact Confirmed.later hrandom hlater h
  | cleaning id completion =>
    cases completion with
    | deletion issued => exact Cleaning.later hrandom hlater h
    | recovery attempt => exact Cleaning.later hrandom hlater h
    | logout | settle | revoke | clear => trivial
  | cleared id completion =>
    cases completion with
    | deletion issued =>
      exact ⟨h.1.later hrandom hlater, h.2.later hrandom hlater h.1.toKnown⟩
    | recovery attempt =>
      exact ⟨h.1.later hrandom hlater, h.2.later hrandom hlater h.1.toKnown⟩
    | logout | settle | revoke | clear => trivial
  | ended issued cleaned =>
    refine ⟨h.1.later hrandom hlater, ?_⟩
    intro hcleaned
    exact (h.2 hcleaned).later hrandom hlater h.1.toKnown
  | recovering attempt ownerId => exact Known.later hrandom hlater h
  | revocation | binding | session | answered | revoking => trivial

end

/-! ## The flows of a browser -/

def FlowsOk (random : Nat → String) (s : Browser) : Prop := s.Flows (s.DeletionOk random)

section
variable (hrandom : Function.Injective random)
include hrandom

/-- What was in order before a section is so after it. -/
theorem FlowsOk.of_before (h : t.Flows (s.DeletionOk random)) (hlater : Later random s t) :
    t.FlowsOk random := by
  intro i tab flow hflow
  exact (h i tab flow hflow).later hrandom hlater

theorem FlowsOk.later (h : s.FlowsOk random) (hlater : Later random s t)
    (hflows : t.flows = s.flows) : t.FlowsOk random :=
  .of_before hrandom (Flows.of_eq h hflows) hlater

/-- A flow goes on to another that is in order, or ends. -/
theorem FlowsOk.update (h : s.FlowsOk random) {next : Option (Nat × Flow)}
    (hnext : ∀ owner flow, next = some (owner, flow) → s.DeletionOk random flow) :
    FlowsOk random { s with flows := Function.update s.flows i next } :=
  .of_before hrandom (Flows.update h hnext) (.of_same rfl rfl rfl)

theorem FlowsOk.setFlow (h : s.FlowsOk random) (hflow : s.DeletionOk random flow) :
    (s.setFlow i tab flow).FlowsOk random := by
  refine h.update hrandom ?_
  rintro owner next ⟨⟩
  exact hflow

theorem FlowsOk.endFlow (h : s.FlowsOk random) : (s.endFlow i).FlowsOk random :=
  h.update hrandom fun _ _ hnone => by cases hnone

theorem FlowsOk.startFlow (h : s.FlowsOk random) (hflow : s.DeletionOk random flow) :
    (s.startFlow tab flow).FlowsOk random := by
  have hset : (s.setFlow s.nextFlow tab flow).FlowsOk random := h.setFlow hrandom hflow
  exact hset.later hrandom (.of_same rfl rfl rfl) rfl

end

/-- What a flow that clears goes on to where the clear fails. -/
theorem rejected_deletionOk {owner : Nat}
    (h : s.DeletionOk random (.cleaning id completion))
    (hrejected : rejected tab completion = some (owner, flow)) : s.DeletionOk random flow := by
  cases completion with
  | deletion issued =>
    cases hrejected
    exact ⟨h.toConfirmed, fun hcleaned => by cases hcleaned⟩
  | _ => cases hrejected

/-- Where two identities hold in one tab, the one expects the owner that the other has. -/
theorem expected_of_holds {joined : Identity} (hid : s.Holds faults tab id)
    (hjoined : s.Holds faults tab joined) (howner : joined.userId.or joined.localOwnerId = some userId) :
    id.expectedUserId = some userId := by
  rw [← hjoined.userId, ← hjoined.localOwnerId, hid.userId, hid.localOwnerId,
    Option.or_eq_some_iff] at howner
  rcases howner with huser | ⟨_, hlocal⟩
  · rcases hid.user with hnone | hsame
    · rw [hnone] at huser
      cases huser
    · exact hsame.symm.trans huser
  · rcases hid.localOwner with hnone | hsame
    · rw [hnone] at hlocal
      cases hlocal
    · exact hsame.symm.trans hlocal

section
variable (hrandom : Function.Injective random)
include hrandom

theorem FlowsOk.clearLocalData (h : s.FlowsOk random)
    (hcleaning : s.DeletionOk random (.cleaning id completion)) :
    (s.clearLocalData faults i tab id completion).FlowsOk random := by
  unfold Browser.clearLocalData
  split
  · have hset : (s.setFlow i tab (.cleaning id completion)).FlowsOk random :=
      h.setFlow hrandom hcleaning
    exact hset.later hrandom (.of_same rfl rfl rfl) rfl
  · exact h.update hrandom fun _ _ hrejected => rejected_deletionOk hcleaning hrejected

theorem FlowsOk.rejectCleanup (h : s.FlowsOk random) : (s.rejectCleanup tab).FlowsOk random := by
  have hended : (s.rejectCleanup tab).Flows (s.DeletionOk random) :=
    Flows.endCleanup h fun _ _ _ _ hcleaning hnext => rejected_deletionOk hcleaning hnext
  exact .of_before hrandom hended (.of_same rfl rfl rfl)

theorem FlowsOk.completeCleanup {database : Database} (h : s.FlowsOk random) :
    ((s.wasCleared database id).completeCleanup faults tab id).FlowsOk random := by
  have hlater : Later random s (s.wasCleared database id) :=
    (Kept.wasCleared : s.Kept False _).later
  have hcleared : (s.wasCleared database id).FlowsOk random := h.later hrandom hlater rfl
  -- the clear is of the account, and later than all that was issued
  have hsince : ∀ {joined attemptId userId},
      (s.wasCleared database id).Holds faults tab id →
      (s.wasCleared database id).Holds faults tab joined →
      (s.wasCleared database id).Cleaning random joined attemptId userId →
      (s.wasCleared database id).Confirmed random attemptId userId ∧
        (s.wasCleared database id).ClearedAfter attemptId userId := by
    intro joined attemptId userId hid hjoined hcleaning
    have hexpected := expected_of_holds hid hjoined hcleaning.identity
    exact ⟨hcleaning.toConfirmed, _, List.mem_cons_self, hexpected, fun _ _ _ => rfl⟩
  unfold Browser.completeCleanup
  split
  next hid =>
    have hended : ((s.wasCleared database id).resolveCleanup faults tab).Flows
        ((s.wasCleared database id).DeletionOk random) := by
      refine Flows.endCleanup hcleared ?_
      intro joined completion owner flow hcleaning hnext
      split at hnext
      next hjoined =>
        cases hnext
        cases completion with
        | deletion issued => exact hsince hid hjoined hcleaning
        | recovery attempt => exact hsince hid hjoined hcleaning
        | logout | settle | revoke | clear => trivial
      · exact rejected_deletionOk hcleaning hnext
    exact .of_before hrandom hended (.of_same rfl rfl rfl)
  · exact hcleared.rejectCleanup hrandom

theorem FlowsOk.cleanup {available current : Bool} {dateNow : Nat} (h : s.FlowsOk random) :
    (s.cleanup core faults tab available current dateNow).FlowsOk random := by
  unfold Browser.cleanup
  split
  · exact h
  · split
    · exact h.rejectCleanup hrandom
    · dsimp only
      split
      · split
        · exact h.completeCleanup hrandom
        · exact h.rejectCleanup hrandom
      · split
        · exact h.completeCleanup hrandom
        · split
          · exact h.later hrandom (.of_same rfl rfl rfl) rfl
          · exact h.rejectCleanup hrandom

theorem FlowsOk.settle (h : s.FlowsOk random) : (s.settle faults i tab id).FlowsOk random := by
  unfold Browser.settle
  split
  · exact h.clearLocalData hrandom trivial
  · exact h.setFlow hrandom trivial

theorem FlowsOk.loadSession {load : Bool} {captured : Option Identity} {response : Response}
    (h : s.FlowsOk random) :
    (s.loadSession faults i tab load captured response).FlowsOk random := by
  unfold Browser.loadSession
  split
  · exact h.endFlow hrandom
  next id =>
    split
    · exact h.settle hrandom
    · split
      · exact h.endFlow hrandom
      · split
        next landed hlanded =>
          -- the consumed token changes nothing that a deletion rests on
          have hsame : landed.FlowsOk random := by
            unfold Browser.completedSignInLanding at hlanded
            split at hlanded
            next storage token haccepted htoken =>
              cases hlanded
              obtain ⟨_, rfl⟩ := completedSignInLanding_accepts haccepted
              refine h.later hrandom ?_ rfl
              exact ⟨Nat.le_refl _, Nat.le_refl _, List.Subset.refl _, List.Subset.refl _,
                List.Subset.refl _, fun marker hissued => .inl ⟨hissued, rfl⟩⟩
            · cases hlanded
          exact hsame.settle hrandom
        · unfold finishPendingLogout
          split
          · exact h.endFlow hrandom
          · split
            · exact h.clearLocalData hrandom trivial
            · exact h.endFlow hrandom

theorem FlowsOk.discardPendingDeletion (h : s.FlowsOk random) :
    (s.discardPendingDeletion faults).FlowsOk random := by
  refine h.later hrandom Kept.discardPendingDeletion.later ?_
  unfold Browser.discardPendingDeletion
  split <;> rfl

theorem FlowsOk.clearPendingLogout (h : s.FlowsOk random) :
    (s.clearPendingLogout faults).FlowsOk random :=
  h.later hrandom (Kept.clearPendingLogout : s.Kept False _).later rfl

/-- A confirmed deletion clears for the owner of its tab. -/
theorem Confirmed.cleaning {ownerId : Option String}
    (h : s.Confirmed random attemptId userId) (howner : (s.tabs tab).ownerId = some userId) :
    (s.markPendingLogout faults ownerId).Cleaning random
      ((s.markPendingLogout faults ownerId).identity faults tab) attemptId userId :=
  ⟨h.later hrandom (Kept.markPendingLogout : s.Kept False _).later, howner⟩

theorem FlowsOk.markPendingLogout {ownerId : Option String} (h : s.FlowsOk random) :
    (s.markPendingLogout faults ownerId).FlowsOk random :=
  h.later hrandom (Kept.markPendingLogout : s.Kept False _).later rfl

theorem FlowsOk.deletionAnswered {issued : IssuedAttempt} {response : Response}
    (h : s.FlowsOk random) (hknown : s.Known random (some issued.attemptId) issued.ownerId) :
    (s.deletionAnswered faults i tab issued response).FlowsOk random := by
  unfold Browser.deletionAnswered
  split
  · have hconfirmed : s.Kept False { s with history :=
        { s.history with deleted := issued.ownerId :: s.history.deleted } } := .confirmed
    refine (h.later hrandom hconfirmed.later rfl).setFlow hrandom ?_
    exact ⟨hknown.later hrandom hconfirmed.later, List.mem_cons_self⟩
  · split
    · refine (h.endFlow hrandom).later hrandom
        (Kept.removePendingDeletionAttempt.after (Kept.refuse.same rfl rfl rfl)).later rfl
    · exact h.endFlow hrandom

theorem FlowsOk.recoveryAnswered {attempt : DeletionAttempt} {ownerId : Option String}
    {response : Response} (h : s.FlowsOk random)
    (hknown : s.Known random attempt.attemptId attempt.userId)
    (howner : (s.tabs tab).ownerId = ownerId) :
    (s.recoveryAnswered faults i tab attempt ownerId response).FlowsOk random := by
  unfold Browser.recoveryAnswered
  split
  · split
    next hsame =>
      have hconfirmed : s.Kept False { s with history :=
          { s.history with deleted := attempt.userId :: s.history.deleted } } := .confirmed
      refine ((h.later hrandom hconfirmed.later rfl).markPendingLogout hrandom).clearLocalData
        hrandom (Confirmed.cleaning hrandom ?_ (howner.trans hsame))
      exact ⟨hknown.later hrandom hconfirmed.later, List.mem_cons_self⟩
    · exact h.endFlow hrandom
  · split
    · exact (h.endFlow hrandom).later hrandom
        (Kept.removePendingDeletionAttempt.after (Kept.refuse.same rfl rfl rfl)).later rfl
    · exact h.endFlow hrandom

theorem FlowsOk.completed (h : s.FlowsOk random)
    (hflow : s.DeletionOk random (.cleared id completion)) :
    (s.completed faults i tab id completion).FlowsOk random := by
  have hended : (s.endFlow i).FlowsOk random := h.endFlow hrandom
  cases completion with
  | revoke csrfToken =>
    simp only [Browser.completed]
    split
    · exact h.setFlow hrandom trivial
    · exact hended
  | logout clearMarker =>
    simp only [Browser.completed]
    split
    · exact hended.clearPendingLogout hrandom
    · exact hended
  | settle =>
    simp only [Browser.completed]
    split
    · exact hended.clearPendingLogout hrandom
    · exact hended
  | deletion issued =>
    have hset : (s.setFlow i tab (.ended issued true)).FlowsOk random :=
      h.setFlow hrandom ⟨hflow.1, fun _ => hflow.2⟩
    simp only [Browser.completed]
    split
    · exact hset.clearPendingLogout hrandom
    · exact hset
  | recovery attempt =>
    simp only [Browser.completed]
    split
    · exact (hended.clearPendingLogout hrandom).discardPendingDeletion hrandom
    · exact hended
  | clear => exact hended

theorem FlowsOk.goOn {response : Option Response} (h : s.FlowsOk random)
    (hflow : s.DeletionOk random flow) : (s.goOn faults i tab flow response).FlowsOk random := by
  have hended : (s.endFlow i).FlowsOk random := h.endFlow hrandom
  have hfound : ∀ mark evidence, (s.found mark evidence).FlowsOk random := fun _ _ =>
    h.later hrandom (Kept.found : s.Kept False _).later rfl
  cases flow with
  | revocation id sent =>
    simp only [Browser.goOn]
    split <;> split
    · exact (hfound _ _).clearLocalData hrandom trivial
    · exact (hfound _ _).endFlow hrandom
    · exact h.clearLocalData hrandom trivial
    · exact hended
  | binding load captured => exact h.setFlow hrandom trivial
  | session load captured sent =>
    cases response with
    | none => exact hended
    | some response =>
      simp only [Browser.goOn]
      split
      · exact (hfound _ _).setFlow hrandom trivial
      · exact h.setFlow hrandom trivial
  | answered load captured answer => exact h.loadSession hrandom
  | cleaning id completion => exact h
  | cleared id completion => exact h.completed hrandom hflow
  | revoking id sent =>
    cases response with
    | none => exact hended
    | some response =>
      simp only [Browser.goOn]
      split
      · have hanswered : ((s.found sent .revoked).endFlow i).FlowsOk random :=
          (hfound _ _).endFlow hrandom
        split
        · exact hanswered.clearPendingLogout hrandom
        · exact hanswered
      · exact hended
  | deleting issued =>
    cases response with
    | none => exact hended
    | some response =>
      simp only [Browser.goOn]
      split
      · exact h.deletionAnswered hrandom hflow
      · exact hended
  | deleted issued =>
    simp only [Browser.goOn]
    split
    next howner =>
      exact (h.markPendingLogout hrandom).clearLocalData hrandom
        (Confirmed.cleaning hrandom hflow howner)
    · exact hended
  | ended issued cleaned => exact hended.discardPendingDeletion hrandom
  | recovering attempt ownerId =>
    cases response with
    | none => exact hended
    | some response =>
      simp only [Browser.goOn]
      split
      next hcurrent => exact h.recoveryAnswered hrandom hflow hcurrent.1
      · exact hended

theorem FlowsOk.stop (h : s.FlowsOk random) (hflow : s.DeletionOk random flow) :
    (s.stop faults i tab flow).FlowsOk random := by
  have hended : (s.endFlow i).FlowsOk random := h.endFlow hrandom
  cases flow with
  | ended issued cleaned => exact hended.discardPendingDeletion hrandom
  | cleaning id completion => exact h
  | cleared id completion =>
    cases completion with
    | deletion issued => exact h.setFlow hrandom ⟨hflow.1, fun _ => hflow.2⟩
    | _ => exact hended
  | _ => exact hended

end

/-! ## A new attempt -/

/-- Every request for a deletion follows the check of its candidate. -/
def Preceded (notes : List DeletionNote) : Prop :=
  ∀ newer attemptId older, notes = newer ++ .sent attemptId :: older → .verified attemptId ∈ older

theorem Preceded.verified {notes : List DeletionNote} (h : Preceded notes) :
    Preceded (.verified attemptId :: notes) := by
  intro newer sent older hnotes
  cases newer with
  | nil => cases hnotes
  | cons note newer =>
    have hrest : notes = newer ++ .sent sent :: older := (List.cons.inj hnotes).2
    exact h newer sent older hrest

theorem Preceded.sent {notes : List DeletionNote} (h : Preceded notes)
    (hverified : .verified attemptId ∈ notes) : Preceded (.sent attemptId :: notes) := by
  intro newer sent older hnotes
  cases newer with
  | nil =>
    cases hnotes
    exact hverified
  | cons note newer =>
    have hrest : notes = newer ++ .sent sent :: older := (List.cons.inj hnotes).2
    exact h newer sent older hrest

/-- The marker is a new one: a candidate whose promotion failed, or an issued one. -/
structure NewMarker (random : Nat → String) (faults : Faults) (s t : Browser) (ownerId : String)
    (marker : DeletionAttempt) : Prop where
  stored : t.storage.pendingDeletion = some marker
  attempt : marker.attemptId = some (random s.drawn)
  written : faults.setItem .candidate = .stored ∨
    ∃ candidate, s.storage.pendingDeletion = some candidate ∧ candidate.stage = some .candidate
  stage :
    marker.stage = some .candidate ∧
      (faults.getItemThrows .pendingDeletion = true ∨ faults.setItem .issued ≠ .stored) ∨
    marker.stage = some .issued ∧ marker.userId = ownerId ∧
      .verified marker.attemptId ∈ t.history.notes

/-- What `requestAccountDeletion` does up to its request, where it makes an attempt. -/
structure Requested (random : Nat → String) (faults : Faults) (s t : Browser) (ownerId : String) :
    Prop where
  drawn : t.drawn = s.drawn + 1
  issues : s.history.issues ≤ t.history.issues
  cleared : t.history.cleared = s.history.cleared
  deleted : t.history.deleted = s.history.deleted
  refused : t.history.refused = s.history.refused
  preceded : Preceded s.history.notes → Preceded t.history.notes
  marker :
    t.storage.pendingDeletion = s.storage.pendingDeletion ∧ t.history.notes = s.history.notes ∧
      t.history.issues = s.history.issues ∨
    ∃ marker, s.NewMarker random faults t ownerId marker
  flows : t.flows = s.flows ∨ ∃ i tab, t.flows =
    Function.update s.flows i (some (tab, .deleting ⟨ownerId, random s.drawn⟩))

/-- After a candidate was read back, it is stored, or the issued form of it. -/
theorem newMarker_of_written {candidate issued : DeletionAttempt} {before written : LocalStorage}
    {ownerId : String} {promoted : Bool}
    (hwritten : writeIssued faults issued before = (written, promoted))
    (hbefore : before.pendingDeletion = some candidate)
    (hset : faults.setItem .candidate = .stored ∨ s.storage.pendingDeletion = some candidate)
    (hcandidate : candidate.stage = some .candidate)
    (hattempt : candidate.attemptId = some (random s.drawn))
    (hissued : issued = ⟨ownerId, candidate.csrfToken, candidate.attemptId, some .issued⟩)
    (ht : t.storage = written) (hverified : .verified candidate.attemptId ∈ t.history.notes) :
    ∃ marker, s.NewMarker random faults t ownerId marker := by
  have hstorage : written = (writeIssued faults issued before).1 := by rw [hwritten]
  have hcandidateSet : faults.setItem .candidate = .stored ∨
      ∃ old, s.storage.pendingDeletion = some old ∧ old.stage = some .candidate :=
    hset.imp_right fun hsame => ⟨candidate, hsame, hcandidate⟩
  rw [writeIssued_storage] at hstorage
  split at hstorage
  · refine ⟨issued, ?_, ?_, hcandidateSet, .inr ⟨?_, ?_, ?_⟩⟩
    · rw [ht, hstorage]
    · rw [hissued]
      exact hattempt
    · rw [hissued]
    · rw [hissued]
    · rw [hissued]
      exact hverified
  next hpromote =>
    refine ⟨candidate, ?_, hattempt, hcandidateSet, .inl ⟨hcandidate, .inr hpromote⟩⟩
    rw [ht, hstorage]
    exact hbefore

theorem requestAccountDeletion_requested :
    s.requestAccountDeletion random faults tab = s ∨
      ∃ ownerId, (s.tabs tab).ownerId = some ownerId ∧ (accountHeaders ownerId).isSome = true ∧
        Requested random faults s (s.requestAccountDeletion random faults tab) ownerId := by
  unfold requestAccountDeletion
  cases howner : (s.tabs tab).ownerId with
  | none => exact .inl rfl
  | some ownerId =>
    dsimp only
    split
    next hheaders =>
      refine .inr ⟨ownerId, rfl, hheaders, ?_⟩
      split
      next storage hcandidate =>
        refine ⟨rfl, Nat.le_refl _, rfl, rfl, rfl, id, ?_, .inl rfl⟩
        rcases writeCandidate_unverified hcandidate with rfl | ⟨hset, hget, rfl⟩
        · exact .inl ⟨rfl, rfl, rfl⟩
        · exact .inr ⟨_, rfl, rfl, .inl hset, .inl ⟨rfl, .inl hget⟩⟩
      next storage hcandidate =>
        obtain ⟨rfl, hset⟩ := writeCandidate_verified hcandidate
        split
        next written hissued =>
          refine ⟨rfl, Nat.le_refl _, rfl, rfl, rfl, Preceded.verified, .inr ?_, .inl rfl⟩
          exact newMarker_of_written hissued rfl hset rfl rfl rfl rfl List.mem_cons_self
        next written hissued =>
          refine ⟨rfl, Nat.le_succ _, rfl, rfl, rfl,
            fun h => h.verified.sent List.mem_cons_self, .inr ?_, .inr ⟨_, _, rfl⟩⟩
          exact newMarker_of_written hissued rfl hset rfl rfl rfl rfl
            (List.mem_cons_of_mem _ List.mem_cons_self)
    · exact .inl rfl

theorem Requested.later {ownerId : String} (h : s.Requested random faults t ownerId) :
    Later random s t where
  drawn := h.drawn ▸ Nat.le_succ _
  issues := h.issues
  cleared := h.cleared ▸ List.Subset.refl _
  deleted := h.deleted ▸ List.Subset.refl _
  refused := h.refused ▸ List.Subset.refl _
  issued := by
    rintro marker ⟨hmarker, hstage⟩
    rcases h.marker with ⟨hsame, _, hissues⟩ | ⟨new, hnew⟩
    · exact .inl ⟨⟨hsame ▸ hmarker, hstage⟩, hissues⟩
    · rw [hnew.stored, Option.some.injEq] at hmarker
      subst hmarker
      exact .inr ⟨s.drawn, Nat.le_refl _, hnew.attempt⟩

/-- The attempt that is made is known to its flow. -/
theorem Requested.known {ownerId : String} (hrandom : Function.Injective random)
    (h : s.Requested random faults t ownerId)
    (hdrawn : ∀ marker text, s.storage.pendingDeletion = some marker →
      marker.attemptId = some text → ∃ n < s.drawn, text = random n) :
    t.Known random (some (random s.drawn)) ownerId where
  drawn := by
    rintro text ⟨⟩
    exact ⟨s.drawn, h.drawn ▸ Nat.lt_succ_self _, rfl⟩
  owner := by
    rintro marker ⟨hmarker, hstage⟩ hattempt
    rcases h.marker with ⟨hsame, _⟩ | ⟨new, hnew⟩
    · obtain ⟨n, hn, heq⟩ := hdrawn marker _ (hsame ▸ hmarker) hattempt
      exact absurd (hrandom heq) hn.ne'
    · rw [hnew.stored, Option.some.injEq] at hmarker
      subst hmarker
      rcases hnew.stage with ⟨hcandidate, _⟩ | ⟨_, howner, _⟩
      · rw [hcandidate] at hstage
        cases hstage
      · exact howner

/-! ## The invariant of a run -/

structure Remembers (random : Nat → String) (s : Browser) : Prop where
  drawn : ∀ marker text, s.storage.pendingDeletion = some marker →
    marker.attemptId = some text → ∃ n < s.drawn, text = random n
  verified : ∀ marker, s.Issued marker → .verified marker.attemptId ∈ s.history.notes
  preceded : Preceded s.history.notes
  flows : s.FlowsOk random

/-- A section that stores no new marker. -/
theorem Remembers.next (h : s.Remembers random)
    (hmarker : t.storage.pendingDeletion = s.storage.pendingDeletion ∨
      t.storage.pendingDeletion = none)
    (hdrawn : s.drawn ≤ t.drawn) (hnotes : s.history.notes ⊆ t.history.notes)
    (hpreceded : Preceded t.history.notes) (hflows : t.FlowsOk random) : t.Remembers random := by
  have hbefore : ∀ marker, t.storage.pendingDeletion = some marker →
      s.storage.pendingDeletion = some marker := by
    intro marker hstored
    rcases hmarker with hsame | hnone
    · exact hsame ▸ hstored
    · rw [hnone] at hstored
      cases hstored
  refine ⟨?_, ?_, hpreceded, hflows⟩
  · intro marker text hstored htext
    obtain ⟨n, hn, hsame⟩ := h.drawn marker text (hbefore marker hstored) htext
    exact ⟨n, hn.trans_le hdrawn, hsame⟩
  · rintro marker ⟨hstored, hstage⟩
    exact hnotes (h.verified marker ⟨hbefore marker hstored, hstage⟩)

theorem Remembers.kept (h : s.Remembers random) (hkept : s.Kept discards t)
    (hflows : t.FlowsOk random) : t.Remembers random :=
  h.next (hkept.pendingDeletion.imp_right And.right) hkept.drawn
    (hkept.notes ▸ List.Subset.refl _) (hkept.notes ▸ h.preceded) hflows

theorem Remembers.same (h : s.Remembers random) (hstorage : t.storage = s.storage)
    (hhistory : t.history = s.history) (hdrawn : t.drawn = s.drawn) (hflows : t.FlowsOk random) :
    t.Remembers random :=
  h.kept (Kept.of_same hstorage hhistory hdrawn : s.Kept False t) hflows

theorem Remembers.landed {token : String} (h : s.Remembers random) (hlanded : s.Landed t token)
    (hflows : t.FlowsOk random) : t.Remembers random :=
  h.next (.inl hlanded.pendingDeletion) hlanded.drawn
    (hlanded.notes ▸ List.Subset.refl _) (hlanded.notes ▸ h.preceded) hflows

theorem Remembers.requested {ownerId : String} (hrandom : Function.Injective random)
    (h : s.Remembers random) (hrequested : s.Requested random faults t ownerId) :
    t.Remembers random := by
  refine ⟨?_, ?_, hrequested.preceded h.preceded, ?_⟩
  · intro marker text hstored htext
    rcases hrequested.marker with ⟨hsame, _⟩ | ⟨new, hnew⟩
    · obtain ⟨n, hn, heq⟩ := h.drawn marker text (hsame ▸ hstored) htext
      exact ⟨n, hn.trans_le hrequested.later.drawn, heq⟩
    · rw [hnew.stored, Option.some.injEq] at hstored
      subst hstored
      rw [hnew.attempt, Option.some.injEq] at htext
      exact ⟨s.drawn, hrequested.drawn ▸ Nat.lt_succ_self _, htext.symm⟩
  · rintro marker ⟨hstored, hstage⟩
    rcases hrequested.marker with ⟨hsame, hnotes, _⟩ | ⟨new, hnew⟩
    · rw [hnotes]
      exact h.verified marker ⟨hsame ▸ hstored, hstage⟩
    · rw [hnew.stored, Option.some.injEq] at hstored
      subst hstored
      rcases hnew.stage with ⟨hcandidate, _⟩ | ⟨_, _, hverified⟩
      · rw [hcandidate] at hstage
        cases hstage
      · exact hverified
  · have hknown : t.DeletionOk random (.deleting ⟨ownerId, random s.drawn⟩) :=
      hrequested.known hrandom h.drawn
    have hflows : s.Flows (t.DeletionOk random) := fun i tab flow hflow =>
      (h.flows i tab flow hflow).later hrandom hrequested.later
    rcases hrequested.flows with hsame | ⟨i, owner, hset⟩
    · exact hflows.of_eq hsame
    · have hnext : (s.setFlow i owner (.deleting ⟨ownerId, random s.drawn⟩)).Flows
          (t.DeletionOk random) := hflows.setFlow hknown
      exact hnext.of_eq hset

/-- What recovery reads is the stored marker. -/
theorem pendingDeletionAttempt_stored {attempt : DeletionAttempt}
    (h : pendingDeletionAttempt faults s.storage = some attempt) :
    s.storage.pendingDeletion = some attempt := by
  unfold pendingDeletionAttempt at h
  split at h
  · cases h
  · exact (Option.filter_eq_some_iff.mp h).1

/-- `DELETE` is sent for an issued marker only. -/
theorem recoverPendingDeletion_notes :
    (s.recoverPendingDeletion faults tab).history.notes = s.history.notes ∨
      ∃ marker, s.Issued marker ∧ (s.recoverPendingDeletion faults tab).history.notes =
        .sent marker.attemptId :: s.history.notes := by
  unfold recoverPendingDeletion
  split
  · exact .inl rfl
  next attempt hattempt =>
    dsimp only
    split
    · split
      next hissued =>
        exact .inr ⟨attempt, ⟨pendingDeletionAttempt_stored hattempt, hissued⟩, rfl⟩
      · exact .inl rfl
    · exact .inl rfl

theorem recoverPendingDeletion_later :
    Later random s (s.recoverPendingDeletion faults tab) := by
  unfold recoverPendingDeletion
  split
  · exact .of_same rfl rfl rfl
  · dsimp only
    split
    · split
      · exact ⟨Nat.le_refl _, Nat.le_refl _, List.Subset.refl _, List.Subset.refl _,
          List.Subset.refl _, fun marker hissued => .inl ⟨hissued, rfl⟩⟩
      · exact .of_same rfl rfl rfl
    · exact .of_same rfl rfl rfl

theorem FlowsOk.recoverPendingDeletion (hrandom : Function.Injective random)
    (h : s.Remembers random) : (s.recoverPendingDeletion faults tab).FlowsOk random := by
  refine .of_before (s := s) hrandom ?_ recoverPendingDeletion_later
  unfold Browser.recoverPendingDeletion
  split
  · exact h.flows
  next attempt hattempt =>
    have hstored := pendingDeletionAttempt_stored hattempt
    have hknown : s.DeletionOk random (.recovering attempt (s.tabs tab).ownerId) := by
      refine ⟨?_, ?_⟩
      · intro text htext
        exact h.drawn attempt text hstored htext
      · rintro marker ⟨hmarker, _⟩ _
        rw [hstored, Option.some.injEq] at hmarker
        rw [hmarker]
    dsimp only
    split
    · split
      · exact Flows.startFlow (s := s.note (.sent attempt.attemptId)) h.flows hknown
      · exact Flows.startFlow h.flows hknown
    · exact h.flows

theorem step_later {e : SessionEvent} : Later random s (s.step core random faults e) := by
  cases e with
  | logout tab => exact (Kept.logout : s.Kept False _).later
  | clearLocalData tab =>
    have hclear : s.Kept False (s.step core random faults (.clearLocalData tab)) :=
      Kept.clearLocalData.same rfl rfl rfl
    exact hclear.later
  | redirectToLogin tab =>
    have hsame : (s.step core random faults (.redirectToLogin tab)).storage.pendingDeletion =
        s.storage.pendingDeletion := pendingSignInToken_deletion
    exact ⟨Nat.le_succ _, Nat.le_refl _, List.Subset.refl _, List.Subset.refl _,
      List.Subset.refl _, fun marker hissued => .inl ⟨⟨hsame ▸ hissued.1, hissued.2⟩, rfl⟩⟩
  | requestAccountDeletion tab =>
    rcases @requestAccountDeletion_requested random faults s tab with hsame | ⟨ownerId, _, _, hnew⟩
    · simp only [Browser.step, hsame]
      exact .of_same rfl rfl rfl
    · exact hnew.later
  | recoverPendingDeletion tab => exact recoverPendingDeletion_later
  | resume i response current =>
    simp only [Browser.step]
    split
    · exact .of_same rfl rfl rfl
    next tab flow hflow =>
      split
      · rcases @goOn_kept faults s i tab flow response with hkept | ⟨token, hlanded⟩
        · exact hkept.later
        · exact hlanded.later
      · exact Kept.stop.later
  | cleanup tab available current dateNow => exact (Kept.cleanup : s.Kept False _).later
  | tab | transaction | fetchSessionPayload | crash => exact .of_same rfl rfl rfl

theorem Remembers.step (hrandom : Function.Injective random) (h : s.Remembers random)
    (e : SessionEvent) : (s.step core random faults e).Remembers random := by
  cases e with
  | tab tab state =>
    exact h.same rfl rfl rfl
      (h.flows.later hrandom (.of_same rfl rfl rfl) rfl)
  | transaction t =>
    exact h.same rfl rfl rfl
      (h.flows.later hrandom (.of_same rfl rfl rfl) rfl)
  | logout tab =>
    refine h.kept (Kept.logout : s.Kept False _) ?_
    have hmarked : (s.markPendingLogout faults (s.tabs tab).ownerId).FlowsOk random :=
      h.flows.markPendingLogout hrandom
    simp only [Browser.step, Browser.logout]
    split
    · exact hmarked.startFlow hrandom trivial
    · exact hmarked
  | clearLocalData tab =>
    have hclear : (s.clearLocalData faults s.nextFlow tab (s.identity faults tab) .clear).FlowsOk
        random := h.flows.clearLocalData hrandom trivial
    exact h.kept ((Kept.clearLocalData : s.Kept False _).same rfl rfl rfl)
      (hclear.later hrandom (.of_same rfl rfl rfl) rfl)
  | fetchSessionPayload tab load =>
    exact h.same rfl rfl rfl (h.flows.startFlow hrandom trivial)
  | redirectToLogin tab =>
    have hsame : (s.step core random faults (.redirectToLogin tab)).storage.pendingDeletion =
        s.storage.pendingDeletion := pendingSignInToken_deletion
    exact h.next (.inl hsame) (Nat.le_succ _) (List.Subset.refl _) h.preceded
      (h.flows.later hrandom step_later rfl)
  | requestAccountDeletion tab =>
    rcases @requestAccountDeletion_requested random faults s tab with hsame | ⟨ownerId, _, _, hnew⟩
    · simp only [Browser.step, hsame]
      exact h
    · exact h.requested hrandom hnew
  | recoverPendingDeletion tab =>
    have hflows : (s.recoverPendingDeletion faults tab).FlowsOk random :=
      .recoverPendingDeletion hrandom h
    have hstorage : (s.recoverPendingDeletion faults tab).storage = s.storage :=
      recoverPendingDeletion_storage
    refine h.next (.inl (congrArg _ hstorage)) (@recoverPendingDeletion_later random faults s tab).drawn ?_ ?_
      hflows
    · rcases @recoverPendingDeletion_notes faults s tab with hsame | ⟨marker, _, hsent⟩
      · simp only [Browser.step, hsame]
        exact List.Subset.refl _
      · simp only [Browser.step, hsent]
        exact List.subset_cons_self _ _
    · rcases @recoverPendingDeletion_notes faults s tab with hsame | ⟨marker, hissued, hsent⟩
      · simp only [Browser.step, hsame]
        exact h.preceded
      · simp only [Browser.step, hsent]
        exact h.preceded.sent (h.verified marker hissued)
  | resume i response current =>
    simp only [Browser.step]
    split
    · exact h
    next tab flow hflow =>
      have hok := h.flows i tab flow hflow
      split
      · rcases @goOn_kept faults s i tab flow response with hkept | ⟨token, hlanded⟩
        · exact h.kept hkept (h.flows.goOn hrandom hok)
        · exact h.landed hlanded (h.flows.goOn hrandom hok)
      · exact h.kept Kept.stop (h.flows.stop hrandom hok)
  | cleanup tab available current dateNow =>
    exact h.kept (Kept.cleanup : s.Kept False _) (h.flows.cleanup hrandom)
  | crash tab =>
    refine h.same rfl rfl rfl ?_
    refine .of_before (s := s) hrandom ?_ (.of_same rfl rfl rfl)
    intro i owner flow hflow
    exact h.flows i owner flow (Option.filter_eq_some_iff.mp hflow).1

theorem start_remembers {tabs : Nat → SessionTab} {database : Database}
    {legacy : Option (String × Option String)} : (start tabs database legacy).Remembers random := by
  refine ⟨?_, ?_, ?_, ?_⟩
  · rintro marker text hstored htext
    obtain ⟨_, _, rfl⟩ := Option.map_eq_some_iff.mp hstored
    cases htext
  · rintro marker ⟨hstored, hstage⟩
    obtain ⟨_, _, rfl⟩ := Option.map_eq_some_iff.mp hstored
    cases hstage
  · intro newer attemptId older hnotes
    cases newer <;> cases hnotes
  · intro i tab flow hflow
    cases hflow

/-! ## What removes an issued marker -/

/-- A refusal, or the end of a deletion that was not cleared for or had another attempt,
removes the marker that is stored; or a new attempt takes its place in vain. -/
def discardsEarly (faults : Faults) (s : Browser) : SessionEvent → Bool
  | .resume i response current =>
    match s.storage.pendingDeletion, s.flows i with
    | some stored, some (tab, flow) =>
      decide (stored.stage = some .issued) && !faults.removeItemThrows .pendingDeletion &&
        match flow, response with
        | .deleting issued, some response =>
          current && decide ((s.tabs tab).ownerId = some issued.ownerId) && response.refused &&
            decide (stored.attemptId ≠ some issued.attemptId)
        | .ended issued cleaned, _ =>
          !pendingLocalLogout faults s.storage &&
            (!cleaned || decide (stored.attemptId ≠ some issued.attemptId))
        | _, _ => false
    | _, _ => false
  | .requestAccountDeletion tab =>
    match s.storage.pendingDeletion, (s.tabs tab).ownerId with
    | some stored, some ownerId =>
      decide (stored.stage = some .issued) && (accountHeaders ownerId).isSome &&
        decide (faults.setItem .candidate = .stored) &&
          (faults.getItemThrows .pendingDeletion || decide (faults.setItem .issued ≠ .stored) ||
            decide (ownerId ≠ stored.userId))
    | _, _ => false
  | _ => false


/-- A flow whose context is not current removes the marker only at the end of a deletion. -/
theorem stop_pendingDeletion (h : ∀ issued cleaned, flow ≠ .ended issued cleaned) :
    (s.stop faults i tab flow).storage.pendingDeletion = s.storage.pendingDeletion := by
  cases flow with
  | ended issued cleaned => exact absurd rfl (h issued cleaned)
  | cleared id completion => cases completion <;> rfl
  | _ => rfl

theorem issuedFor_of_same {marker : DeletionAttempt} (h : s.Issued marker)
    (hsame : t.storage.pendingDeletion = s.storage.pendingDeletion) : t.IssuedFor marker.userId :=
  ⟨marker, ⟨hsame.trans h.1, h.2⟩, rfl⟩

theorem Later.settled {u : Browser} {marker : DeletionAttempt} (hlater : Later random t u)
    (h : s.Settled t marker) : s.Settled u marker := by
  rcases h with hrefused | ⟨hdeleted, cleared, hmem, hissues⟩
  · exact .inl (hlater.refused hrefused)
  · exact .inr ⟨hlater.deleted hdeleted, cleared, hlater.cleared hmem, hissues⟩

/-- What a flow has confirmed and cleared settles the marker of its attempt. -/
theorem Confirmed.settled {marker : DeletionAttempt} (h : s.Confirmed random attemptId userId)
    (hcleared : s.ClearedAfter attemptId userId) (hissued : s.Issued marker)
    (hattempt : marker.attemptId = attemptId) : s.Settled s marker := by
  obtain ⟨cleared, hmem, huser, hissues⟩ := hcleared
  rw [← h.owner marker hissued hattempt] at huser
  refine .inr ⟨?_, cleared, hmem, hissues marker hissued hattempt, huser⟩
  rw [h.owner marker hissued hattempt]
  exact h.deleted

/-- The last section of a deletion leaves the marker, or has settled it. -/
theorem ended_settled {issued : IssuedAttempt} {cleaned current : Bool}
    {response : Option Response} {marker : DeletionAttempt} (hissued : s.Issued marker)
    (hflow : s.flows i = some (tab, .ended issued cleaned))
    (hok : s.DeletionOk random (.ended issued cleaned))
    (hkeeps : s.discardsEarly faults (.resume i response current) = false) :
    ((s.endFlow i).discardPendingDeletion faults).IssuedFor marker.userId ∨
      s.Settled ((s.endFlow i).discardPendingDeletion faults) marker := by
  have hended : s.Kept True (s.endFlow i) := .of_same rfl rfl rfl
  have hlater : Later random s ((s.endFlow i).discardPendingDeletion faults) :=
    (Kept.discardPendingDeletion.after hended).later
  by_cases hkept : pendingLocalLogout faults s.storage = true ∨
      faults.removeItemThrows .pendingDeletion = true
  · refine .inl (issuedFor_of_same hissued ?_)
    unfold discardPendingDeletion
    split
    · rfl
    next hpending =>
      have hthrows := hkept.resolve_left hpending
      simp [Browser.removePendingDeletionAttempt, removePendingDeletionAttempt_storage, hthrows,
        withStorage]
  · refine .inr (hlater.settled ?_)
    simp only [not_or, Bool.not_eq_true] at hkept
    simp only [discardsEarly, hissued.1, hflow, hissued.2, hkept.1, hkept.2, Bool.not_false,
      Bool.and_true, Bool.true_and, decide_true, Bool.or_eq_false_iff, Bool.not_eq_false',
      decide_eq_false_iff_not, ne_eq, not_not] at hkeeps
    exact hok.1.settled (hok.2 hkeeps.1) hissued hkeeps.2

/-- The answer to a deletion leaves the marker, or is the refusal of its attempt. -/
theorem deletionAnswered_settled {issued : IssuedAttempt} {response : Response}
    {marker : DeletionAttempt} (hissued : s.Issued marker)
    (hflow : s.flows i = some (tab, .deleting issued))
    (howner : (s.tabs tab).ownerId = some issued.ownerId)
    (hkeeps : s.discardsEarly faults (.resume i (some response) true) = false) :
    (s.deletionAnswered faults i tab issued response).IssuedFor marker.userId ∨
      s.Settled (s.deletionAnswered faults i tab issued response) marker := by
  unfold deletionAnswered
  split
  · exact .inl (issuedFor_of_same hissued rfl)
  · split
    next hrefused =>
      by_cases hthrows : faults.removeItemThrows .pendingDeletion = true
      · refine .inl (issuedFor_of_same hissued ?_)
        simp [Browser.removePendingDeletionAttempt, removePendingDeletionAttempt_storage, hthrows,
          withStorage, endFlow]
      · simp only [Bool.not_eq_true] at hthrows
        simp only [discardsEarly, hissued.1, hflow, hissued.2, hthrows, howner, hrefused,
          Bool.not_false, Bool.and_true, Bool.true_and, decide_true, decide_eq_false_iff_not, ne_eq,
          not_not] at hkeeps
        refine .inr (.inl ?_)
        rw [hkeeps]
        exact List.mem_cons_self
    · exact .inl (issuedFor_of_same hissued rfl)

/-- The record that recovery checks is the marker that is stored. -/
theorem holds_marker {attempt marker : DeletionAttempt}
    (h : holdsPendingDeletionAttempt faults s.storage attempt = true) (hissued : s.Issued marker) :
    marker = attempt := by
  simp only [holdsPendingDeletionAttempt, Bool.and_eq_true, decide_eq_true_eq] at h
  exact Option.some.inj (hissued.1.symm.trans h.2)

theorem recoveryAnswered_settled {attempt : DeletionAttempt} {ownerId : Option String}
    {response : Response} (hissued : s.Issued attempt) :
    (s.recoveryAnswered faults i tab attempt ownerId response).IssuedFor attempt.userId ∨
      s.Settled (s.recoveryAnswered faults i tab attempt ownerId response) attempt := by
  unfold recoveryAnswered
  split
  · split
    · refine .inl (issuedFor_of_same hissued ?_)
      rw [clearLocalData_storage]
      exact markPendingLogout_kept.pendingDeletion
    · exact .inl (issuedFor_of_same hissued rfl)
  · split
    · exact .inr (.inl List.mem_cons_self)
    · exact .inl (issuedFor_of_same hissued rfl)

theorem goOn_settled {response : Option Response} {marker : DeletionAttempt}
    (hissued : s.Issued marker) (hflow : s.flows i = some (tab, flow))
    (hok : s.DeletionOk random flow)
    (hkeeps : s.discardsEarly faults (.resume i response true) = false) :
    (s.goOn faults i tab flow response).IssuedFor marker.userId ∨
      s.Settled (s.goOn faults i tab flow response) marker := by
  by_cases hdiscards : Discards flow
  · cases flow with
    | deleting issued =>
      cases response with
      | none => exact .inl (issuedFor_of_same hissued rfl)
      | some response =>
        simp only [goOn]
        split
        next howner => exact deletionAnswered_settled hissued hflow howner hkeeps
        · exact .inl (issuedFor_of_same hissued rfl)
    | ended issued cleaned => exact ended_settled hissued hflow hok hkeeps
    | recovering attempt ownerId =>
      cases response with
      | none => exact .inl (issuedFor_of_same hissued rfl)
      | some response =>
        simp only [goOn]
        split
        next hcurrent =>
          obtain rfl := holds_marker hcurrent.2 hissued
          exact recoveryAnswered_settled hissued
        · exact .inl (issuedFor_of_same hissued rfl)
    | cleared id completion =>
      cases completion with
      | recovery attempt =>
        have hlater : Later random s (s.completed faults i tab id (.recovery attempt)) :=
          Kept.completed.later
        by_cases hholds :
            s.Holds faults tab id ∧ holdsPendingDeletionAttempt faults s.storage attempt = true
        · obtain rfl := holds_marker hholds.2 hissued
          exact .inr (hlater.settled (hok.1.settled hok.2 hissued rfl))
        · refine .inl (issuedFor_of_same hissued ?_)
          simp only [goOn, completed, if_neg hholds]
          rfl
      | _ => cases hdiscards
    | _ => cases hdiscards
  · refine .inl (issuedFor_of_same hissued ?_)
    rcases @goOn_kept faults s i tab flow response with hkept | ⟨token, hlanded⟩
    · exact hkept.pendingDeletion.resolve_right fun h => hdiscards h.1
    · exact hlanded.pendingDeletion

/-- A new attempt that takes the place of the marker is of the same account. -/
theorem requestAccountDeletion_settled {marker : DeletionAttempt} (hissued : s.Issued marker)
    (hkeeps : s.discardsEarly faults (.requestAccountDeletion tab) = false) :
    (s.requestAccountDeletion random faults tab).IssuedFor marker.userId := by
  rcases @requestAccountDeletion_requested random faults s tab with
    hsame | ⟨ownerId, howner, hheaders, hrequested⟩
  · rw [hsame]
    exact ⟨marker, hissued, rfl⟩
  · rcases hrequested.marker with ⟨hsame, _⟩ | ⟨new, hnew⟩
    · exact issuedFor_of_same hissued hsame
    · have hset : faults.setItem .candidate = .stored := by
        rcases hnew.written with hset | ⟨candidate, hstored, hcandidate⟩
        · exact hset
        · rw [hissued.1, Option.some.injEq] at hstored
          rw [← hstored, hissued.2] at hcandidate
          cases hcandidate
      simp only [discardsEarly, hissued.1, howner, hissued.2, hheaders, hset, decide_true,
        Bool.true_and, Bool.or_eq_false_iff, decide_eq_false_iff_not, ne_eq, not_not] at hkeeps
      obtain ⟨⟨hget, hpromoted⟩, hsame⟩ := hkeeps
      rcases hnew.stage with ⟨_, hfailed⟩ | ⟨hstage, huser, _⟩
      · simp [hget, hpromoted] at hfailed
      · exact ⟨new, ⟨hnew.stored, hstage⟩, huser.trans hsame⟩

theorem Remembers.settled {e : SessionEvent} {marker : DeletionAttempt} (h : s.Remembers random)
    (hissued : s.Issued marker) (hkeeps : s.discardsEarly faults e = false) :
    (s.step core random faults e).IssuedFor marker.userId ∨
      s.Settled (s.step core random faults e) marker := by
  have hsame : ∀ t : Browser, s.Kept False t → t.IssuedFor marker.userId := fun t hkept =>
    issuedFor_of_same hissued (hkept.pendingDeletion.resolve_right And.left)
  cases e with
  | logout tab => exact .inl (hsame _ .logout)
  | clearLocalData tab => exact .inl (hsame _ ((Kept.clearLocalData).same rfl rfl rfl))
  | cleanup tab available current dateNow => exact .inl (hsame _ .cleanup)
  | redirectToLogin tab => exact .inl (issuedFor_of_same hissued pendingSignInToken_deletion)
  | requestAccountDeletion tab => exact .inl (requestAccountDeletion_settled hissued hkeeps)
  | recoverPendingDeletion tab =>
    exact .inl (issuedFor_of_same hissued (congrArg _ recoverPendingDeletion_storage))
  | resume i response current =>
    simp only [Browser.step]
    split
    · exact .inl ⟨marker, hissued, rfl⟩
    next tab flow hflow =>
      have hok := h.flows i tab flow hflow
      cases current with
      | true => exact goOn_settled hissued hflow hok hkeeps
      | false =>
        by_cases hended : ∃ issued cleaned, flow = .ended issued cleaned
        · obtain ⟨issued, cleaned, rfl⟩ := hended
          exact ended_settled hissued hflow hok hkeeps
        · refine .inl (issuedFor_of_same hissued (stop_pendingDeletion ?_))
          intro issued cleaned heq
          exact hended ⟨issued, cleaned, heq⟩
  | tab | transaction | fetchSessionPayload | crash => exact .inl (issuedFor_of_same hissued rfl)


/-! ## Runs -/

/-- A section with the accesses of it that fail. -/
abbrev stepFailing (core : Core) (random : Nat → String) (s : Browser)
    (e : Faults × SessionEvent) : Browser :=
  s.step core random e.1 e.2

abbrev runFailing (core : Core) (random : Nat → String) (s : Browser)
    (events : List (Faults × SessionEvent)) : Browser :=
  Traces.run (stepFailing core random) s events

theorem run_later {events : List (Faults × SessionEvent)} {marker : DeletionAttempt}
    (h : s.Settled t marker) : s.Settled (runFailing core random t events) marker :=
  Traces.always (I := fun u => s.Settled u marker)
    (fun u e hsettled => (@step_later core random e.1 u e.2).settled hsettled) h

/-- A marker that is stored at some time is stored at the end, or another for its account
is; or one of them went once it was settled. -/
theorem Remembers.run {events : List (Faults × SessionEvent)} {marker : DeletionAttempt}
    (hrandom : Function.Injective random) (h : s.Remembers random) (hissued : s.Issued marker)
    (hkeeps : Traces.Meets (stepFailing core random)
      (fun s e => s.discardsEarly e.1 e.2 = false) s events) :
    (runFailing core random s events).IssuedFor marker.userId ∨
      ∃ middle after last, events = middle ++ after ∧
        (runFailing core random s middle).Issued last ∧ last.userId = marker.userId ∧
          (runFailing core random s middle).Settled (runFailing core random s events) last := by
  by_cases hend : (runFailing core random s events).IssuedFor marker.userId
  · exact .inl hend
  · obtain ⟨middle, e, after, rfl, ⟨last, hlast, huser⟩, hgone, _⟩ :=
      Traces.ended (P := fun u : Browser => u.IssuedFor marker.userId) (Q := fun _ _ => True)
        (fun _ _ _ => .inr trivial) ⟨marker, hissued, rfl⟩ hend
    have hmiddle : (runFailing core random s middle).Remembers random :=
      Traces.always (fun _ e h => h.step hrandom e.2) h
    refine .inr ⟨middle, e :: after, last, rfl, hlast, huser, ?_⟩
    have hsettled := (hmiddle.settled hlast hkeeps.at).resolve_left (huser ▸ hgone)
    simp only [runFailing, Traces.run_append, Traces.run_cons]
    exact run_later hsettled

/-- In every run in which no section discards an issued marker early: recovery sends
`DELETE` only for a stored marker in stage `issued`; a candidate of that attempt was read
back before, and before each request for it; an issued marker goes only once its deletion
was refused, or was confirmed and the local data of the account were cleared, and what a
run leaves of a marker is another one for the account, if these did not happen. -/
theorem deletion_marker_kept (core : Core) (random : Nat → String)
    (hrandom : Function.Injective random) (tabs : Nat → SessionTab) (database : Database)
    (legacy : Option (String × Option String)) (events : List (Faults × SessionEvent))
    (hkeeps : Traces.Meets (stepFailing core random)
      (fun s e => s.discardsEarly e.1 e.2 = false) (start tabs database legacy) events) :
    let reached := runFailing core random (start tabs database legacy)
    (∀ before faults tab after, events = before ++ (faults, .recoverPendingDeletion tab) :: after →
      (reached (before ++ [(faults, .recoverPendingDeletion tab)])).history.notes =
          (reached before).history.notes ∨
        ∃ marker, (reached before).Issued marker ∧
          (reached (before ++ [(faults, .recoverPendingDeletion tab)])).history.notes =
            .sent marker.attemptId :: (reached before).history.notes) ∧
    (∀ marker, (reached events).Issued marker →
      .verified marker.attemptId ∈ (reached events).history.notes) ∧
    Preceded (reached events).history.notes ∧
    (∀ before e after, events = before ++ e :: after → ∀ marker, (reached before).Issued marker →
      (reached (before ++ [e])).IssuedFor marker.userId ∨
        (reached before).Settled (reached (before ++ [e])) marker) ∧
    ∀ before after, events = before ++ after → ∀ marker, (reached before).Issued marker →
      (reached events).IssuedFor marker.userId ∨
        ∃ middle rest last, after = middle ++ rest ∧ (reached (before ++ middle)).Issued last ∧
          last.userId = marker.userId ∧
            (reached (before ++ middle)).Settled (reached events) last := by
  intro reached
  have hremembers : ∀ es, (reached es).Remembers random := fun es =>
    Traces.always (fun _ e h => h.step hrandom e.2) start_remembers
  have hstep : ∀ before e, reached (before ++ [e]) =
      (reached before).step core random e.1 e.2 := by
    intro before e
    simp [reached]
  refine ⟨?_, (hremembers events).verified, (hremembers events).preceded, ?_, ?_⟩
  · intro before faults tab after _
    rw [hstep]
    exact recoverPendingDeletion_notes
  · rintro before e after rfl marker hissued
    rw [hstep]
    exact (hremembers before).settled hissued hkeeps.at
  · rintro before after rfl marker hissued
    have hafter := (Traces.meets_append.mp hkeeps).2
    have hrun := (hremembers before).run hrandom hissued hafter
    simpa only [reached, runFailing, Traces.run_append] using hrun

/-! ## A confirmed deletion that nothing retries -/

def deletedAccount : String :=
  "account:v1:" ++ String.ofList (List.replicate 64 'a')

/-- A tab whose account is deleted, with its local data. -/
def deletingBrowser : Browser :=
  start (fun _ => ⟨"tab", some deletedAccount, some deletedAccount, some "token", none⟩)
    { referenceDatabase with
      snapshot := some ⟨5, some deletedAccount, some "2026-01-01T00:00:00.000Z", referenceBase⟩ }
    none

/-- The storage is full when the sign-out of the deleted account is marked. -/
def fullStorage : Faults where
  getItemThrows _ := false
  removeItemThrows _ := false
  setItem
    | .pendingLogout | .pendingLogoutOwner => .throws
    | _ => .stored

/-- The deletion is issued and confirmed. -/
def confirmedDeletion : List (Faults × SessionEvent) :=
  [(.none, .requestAccountDeletion 0), (.none, .resume 0 (some noContent) true)]

/-- The sign-out is marked, the local data are cleared, and the deletion ends. -/
def clearedDeletion : List (Faults × SessionEvent) :=
  confirmedDeletion ++ [(.none, .resume 0 none true), (.none, .cleanup 0 true true 0),
    (.none, .resume 0 none true)]

/-- The sign-out cannot be marked and the local data cannot be cleared. -/
def unclearedDeletion : List (Faults × SessionEvent) :=
  confirmedDeletion ++ [(fullStorage, .resume 0 none true), (.none, .cleanup 0 false true 0)]

def deletedMarker : DeletionAttempt := ⟨deletedAccount, some "token", some "", some .issued⟩



theorem not_issuedFor (h : s.storage.pendingDeletion = none) : ¬ s.IssuedFor userId := by
  rintro ⟨marker, ⟨hstored, _⟩, _⟩
  rw [h] at hstored
  cases hstored

/-- The marker of a deletion that is confirmed and cleared for goes at the end of it. -/
theorem deletion_marker_cleared :
    (runFailing referenceCore drawnText deletingBrowser clearedDeletion).Settled
      (runFailing referenceCore drawnText deletingBrowser
        (clearedDeletion ++ [(.none, .resume 0 none true)])) deletedMarker :=
  ((deletion_marker_kept referenceCore drawnText drawnText_injective _ _ none
    (clearedDeletion ++ [(.none, .resume 0 none true)]) (by decide +kernel)).2.2.2.1
      clearedDeletion (.none, .resume 0 none true) [] rfl deletedMarker
      (by decide +kernel)).resolve_left (not_issuedFor (by decide +kernel))

/-- Where neither succeeds, the end of the deletion removes the last marker: the local data
of the deleted account stay, and nothing retries to clear them. -/
theorem deletion_marker_lost : ∃ e : Faults × SessionEvent,
    (runFailing referenceCore drawnText deletingBrowser unclearedDeletion).Issued deletedMarker ∧
    ¬ (runFailing referenceCore drawnText deletingBrowser
      (unclearedDeletion ++ [e])).IssuedFor deletedMarker.userId ∧
    ¬ (runFailing referenceCore drawnText deletingBrowser unclearedDeletion).Settled
      (runFailing referenceCore drawnText deletingBrowser (unclearedDeletion ++ [e]))
      deletedMarker ∧
    (runFailing referenceCore drawnText deletingBrowser
      (unclearedDeletion ++ [e])).storage.pendingLogout = none ∧
    (runFailing referenceCore drawnText deletingBrowser
      (unclearedDeletion ++ [e])).database = deletingBrowser.database := by
  refine ⟨(.none, .resume 0 none true), by decide +kernel, not_issuedFor (by decide +kernel), ?_,
    by decide +kernel, by rfl⟩
  have hrefused : (runFailing referenceCore drawnText deletingBrowser
      (unclearedDeletion ++ [(.none, .resume 0 none true)])).history.refused = [] := by
    decide +kernel
  have hcleared : (runFailing referenceCore drawnText deletingBrowser
      (unclearedDeletion ++ [(.none, .resume 0 none true)])).history.cleared.length = 0 := by
    decide +kernel
  rintro (hmem | ⟨_, cleared, hmem, _⟩)
  · rw [hrefused] at hmem
    cases hmem
  · rw [List.length_eq_zero_iff.mp hcleared] at hmem
    cases hmem

end Browser

end Pomodorough.Web.Session
