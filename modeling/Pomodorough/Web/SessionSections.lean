import Mathlib.Order.Nat
import Pomodorough.Web.SessionFlows

/-! # What one section of a flow leaves alone

Most sections of the session write neither marker. What a section keeps of storage and of
what happened before holds whether or not storage works. -/
namespace Pomodorough.Web.Session

/-! ## Statements that may throw -/

section
variable {P : LocalStorage → Prop} {faults : Faults} {storage next : LocalStorage}

theorem setItem_keeps {item : Written} {write : LocalStorage → LocalStorage} (h : P storage)
    (hwrite : P (write storage)) (hnext : setItem faults item write storage = some next) : P next := by
  unfold setItem at hnext
  split at hnext
  · cases hnext
    exact hwrite
  · cases hnext
    exact h
  · cases hnext

theorem removeItem_keeps {item : Item} {erase : LocalStorage → LocalStorage}
    (herase : P (erase storage)) (hnext : removeItem faults item erase storage = some next) :
    P next := by
  unfold removeItem at hnext
  split at hnext
  · cases hnext
  · cases hnext
    exact herase

/-- What every statement keeps holds where the block ends, or throws. -/
theorem attempt_keeps {statements : List (LocalStorage → Option LocalStorage)} (h : P storage)
    (hstatements : ∀ statement ∈ statements, ∀ before after, P before →
      statement before = some after → P after) : P (attempt statements storage).1 := by
  induction statements generalizing storage with
  | nil => exact h
  | cons statement rest ih =>
    simp only [attempt]
    split
    · exact h
    next after hafter =>
      exact ih (hstatements statement List.mem_cons_self storage after h hafter)
        fun other hother => hstatements other (List.mem_cons_of_mem _ hother)

/-- The deletion marker stays, and the sign-in token, unless it is discarded. -/
structure StorageKept (before after : LocalStorage) : Prop where
  pendingDeletion : after.pendingDeletion = before.pendingDeletion
  signIn : after.pendingLogoutSignIn = before.pendingLogoutSignIn ∨ after.pendingLogoutSignIn = none

theorem markPendingLogout_kept {userId : Option String} :
    StorageKept storage (markPendingLogout faults userId storage).1 := by
  refine attempt_keeps ⟨rfl, .inl rfl⟩ ?_
  intro statement hmem before after hkept hafter
  simp only [List.mem_cons, List.not_mem_nil, or_false] at hmem
  rcases hmem with rfl | rfl | rfl
  · exact removeItem_keeps (P := StorageKept storage) ⟨hkept.pendingDeletion, .inr rfl⟩ hafter
  · exact setItem_keeps (P := StorageKept storage) hkept ⟨hkept.pendingDeletion, hkept.signIn⟩ hafter
  · exact setItem_keeps (P := StorageKept storage) hkept ⟨hkept.pendingDeletion, hkept.signIn⟩ hafter

theorem clearPendingLogout_kept : StorageKept storage (clearPendingLogout faults storage) := by
  refine attempt_keeps ⟨rfl, .inl rfl⟩ ?_
  intro statement hmem before after hkept hafter
  simp only [List.mem_cons, List.not_mem_nil, or_false] at hmem
  rcases hmem with rfl | rfl | rfl
  · exact removeItem_keeps (P := StorageKept storage) ⟨hkept.pendingDeletion, hkept.signIn⟩ hafter
  · exact removeItem_keeps (P := StorageKept storage) ⟨hkept.pendingDeletion, hkept.signIn⟩ hafter
  · exact removeItem_keeps (P := StorageKept storage) ⟨hkept.pendingDeletion, .inr rfl⟩ hafter

/-- A token is accepted once it is the stored one, and is consumed with that. -/
theorem completedSignInLanding_accepts {token : Option String}
    (h : completedSignInLanding faults token storage = (next, true)) :
    storage.pendingLogoutSignIn = token ∧ next = { storage with pendingLogoutSignIn := none } := by
  unfold completedSignInLanding at h
  split at h
  · cases h
  next hstored =>
    simp only [not_or, ne_eq, not_not] at hstored
    refine ⟨hstored.2.2, ?_⟩
    simp only [attempt, removeItem] at h
    by_cases hthrows : faults.removeItemThrows .pendingLogoutSignIn = true
    · simp [hthrows] at h
    · simp only [hthrows] at h
      exact (congrArg Prod.fst h).symm

theorem removePendingDeletionAttempt_storage :
    removePendingDeletionAttempt faults storage =
      if faults.removeItemThrows .pendingDeletion then storage
      else { storage with pendingDeletion := none } := by
  unfold removePendingDeletionAttempt removeItem
  by_cases h : faults.removeItemThrows .pendingDeletion = true
  · simp [attempt, h]
  · simp [attempt, h]

/-- A candidate that was read back unchanged is stored, and was written or there before. -/
theorem writeCandidate_verified {candidate : DeletionAttempt}
    (h : writeCandidate faults candidate storage = (next, true)) :
    next = { storage with pendingDeletion := some candidate } ∧
      (faults.setItem .candidate = .stored ∨ storage.pendingDeletion = some candidate) := by
  unfold writeCandidate setItem at h
  cases hwrite : faults.setItem .candidate with
  | throws => simp [attempt, hwrite] at h
  | stored =>
    simp only [attempt, hwrite] at h
    split at h
    · cases h
    next after hafter =>
      split at hafter
      · cases hafter
      · cases hafter
        exact ⟨(congrArg Prod.fst h).symm, .inl rfl⟩
  | lost =>
    simp only [attempt, hwrite] at h
    split at h
    · cases h
    next after hafter =>
      split at hafter
      · cases hafter
      next hsame =>
        cases hafter
        cases h
        simp only [not_or, ne_eq, not_not] at hsame
        exact ⟨by rw [← hsame.2], .inr hsame.2⟩

/-- A candidate that was not read back is stored where only reading failed. -/
theorem writeCandidate_unverified {candidate : DeletionAttempt}
    (h : writeCandidate faults candidate storage = (next, false)) :
    next = storage ∨ faults.setItem .candidate = .stored ∧
      faults.getItemThrows .pendingDeletion = true ∧
        next = { storage with pendingDeletion := some candidate } := by
  unfold writeCandidate setItem at h
  cases hwrite : faults.setItem .candidate with
  | throws =>
    simp only [attempt, hwrite] at h
    exact .inl (congrArg Prod.fst h).symm
  | lost =>
    simp only [attempt, hwrite] at h
    split at h
    · exact .inl (congrArg Prod.fst h).symm
    · cases h
  | stored =>
    simp only [attempt, hwrite] at h
    split at h
    next hthrows =>
      split at hthrows
      next hread =>
        have hget : faults.getItemThrows .pendingDeletion = true := by simpa using hread
        exact .inr ⟨rfl, hget, (congrArg Prod.fst h).symm⟩
      · cases hthrows
    · cases h

theorem writeIssued_storage {issued : DeletionAttempt} :
    (writeIssued faults issued storage).1 =
      if faults.setItem .issued = .stored then { storage with pendingDeletion := some issued }
      else storage := by
  unfold writeIssued setItem
  cases hwrite : faults.setItem .issued <;> simp [attempt]

theorem writeCandidate_signIn {candidate : DeletionAttempt} :
    (writeCandidate faults candidate storage).1.pendingLogoutSignIn =
      storage.pendingLogoutSignIn := by
  rcases hwrite : writeCandidate faults candidate storage with ⟨next, verified⟩
  cases verified with
  | false =>
    rcases writeCandidate_unverified hwrite with hsame | ⟨_, _, hstored⟩
    · rw [hsame]
    · rw [hstored]
  | true => rw [(writeCandidate_verified hwrite).1]

theorem writeIssued_signIn {issued : DeletionAttempt} :
    (writeIssued faults issued storage).1.pendingLogoutSignIn = storage.pendingLogoutSignIn := by
  rw [writeIssued_storage]
  split <;> rfl

end

namespace Browser
variable {core : Core} {random : Nat → String} {faults : Faults} {s t : Browser} {i tab : Nat}
  {flow : Flow} {id : Identity} {completion : Completion} {discards : Prop}

/-! ## Sections that write no marker -/

@[simp] theorem setFlow_storage : (s.setFlow i tab flow).storage = s.storage := rfl
@[simp] theorem setFlow_history : (s.setFlow i tab flow).history = s.history := rfl
@[simp] theorem endFlow_storage : (s.endFlow i).storage = s.storage := rfl
@[simp] theorem endFlow_history : (s.endFlow i).history = s.history := rfl
@[simp] theorem startFlow_storage : (s.startFlow tab flow).storage = s.storage := rfl
@[simp] theorem startFlow_history : (s.startFlow tab flow).history = s.history := rfl

@[simp] theorem clearLocalData_storage :
    (s.clearLocalData faults i tab id completion).storage = s.storage := by
  unfold clearLocalData
  split <;> rfl

@[simp] theorem clearLocalData_history :
    (s.clearLocalData faults i tab id completion).history = s.history := by
  unfold clearLocalData
  split <;> rfl

@[simp] theorem rejectCleanup_storage : (s.rejectCleanup tab).storage = s.storage := rfl
@[simp] theorem rejectCleanup_history : (s.rejectCleanup tab).history = s.history := rfl

@[simp] theorem completeCleanup_storage :
    (s.completeCleanup faults tab id).storage = s.storage := by
  unfold completeCleanup
  split <;> rfl

@[simp] theorem completeCleanup_history :
    (s.completeCleanup faults tab id).history = s.history := by
  unfold completeCleanup
  split <;> rfl

@[simp] theorem settle_storage : (s.settle faults i tab id).storage = s.storage := by
  unfold settle
  split
  · exact clearLocalData_storage
  · rfl

@[simp] theorem settle_history : (s.settle faults i tab id).history = s.history := by
  unfold settle
  split
  · exact clearLocalData_history
  · rfl

@[simp] theorem finishPendingLogout_storage {response : Response} :
    (s.finishPendingLogout faults i tab id response).storage = s.storage := by
  unfold finishPendingLogout
  split
  · rfl
  · split
    · exact clearLocalData_storage
    · rfl

@[simp] theorem finishPendingLogout_history {response : Response} :
    (s.finishPendingLogout faults i tab id response).history = s.history := by
  unfold finishPendingLogout
  split
  · rfl
  · split
    · exact clearLocalData_history
    · rfl

/-! ## What holds of all flows -/

/-- Every flow satisfies `P`. -/
def Flows (P : Flow → Prop) (s : Browser) : Prop :=
  ∀ i tab flow, s.flows i = some (tab, flow) → P flow

section
variable {P : Flow → Prop} {s t : Browser} {i tab : Nat} {flow : Flow} {id : Identity}
  {completion : Completion}

theorem Flows.of_eq (h : s.Flows P) (hflows : t.flows = s.flows) : t.Flows P := by
  intro i tab flow hflow
  exact h i tab flow (hflows ▸ hflow)

/-- A flow goes on to another, or ends. -/
theorem Flows.update (h : s.Flows P) {next : Option (Nat × Flow)}
    (hnext : ∀ owner flow, next = some (owner, flow) → P flow) :
    Flows P { s with flows := Function.update s.flows i next } := by
  intro j owner flow hflow
  by_cases hj : j = i
  · subst hj
    simp only [Function.update_self] at hflow
    exact hnext owner flow hflow
  · simp only [Function.update_of_ne hj] at hflow
    exact h j owner flow hflow

theorem Flows.setFlow (h : s.Flows P) (hflow : P flow) : (s.setFlow i tab flow).Flows P := by
  refine h.update ?_
  rintro owner next ⟨⟩
  exact hflow

theorem Flows.endFlow (h : s.Flows P) : (s.endFlow i).Flows P :=
  h.update fun _ _ hnone => by cases hnone

theorem Flows.startFlow (h : s.Flows P) (hflow : P flow) : (s.startFlow tab flow).Flows P :=
  h.setFlow hflow

theorem Flows.clearLocalData {faults : Faults} (h : s.Flows P)
    (hcleaning : s.Holds faults tab id → P (.cleaning id completion))
    (hrejected : ∀ owner flow, rejected tab completion = some (owner, flow) → P flow) :
    (s.clearLocalData faults i tab id completion).Flows P := by
  unfold Browser.clearLocalData
  split
  next hholds => exact h.setFlow (hcleaning hholds)
  · exact h.update hrejected

/-- The flows that awaited the cleanup satisfy what they go on to. -/
theorem Flows.endCleanup (h : s.Flows P) {next : Identity → Completion → Option (Nat × Flow)}
    (hnext : ∀ id completion owner flow, P (.cleaning id completion) →
      next id completion = some (owner, flow) → P flow) : (s.endCleanup tab next).Flows P := by
  intro i owner flow hflow
  simp only [Browser.endCleanup] at hflow
  split at hflow
  next id completion hcleaning =>
    split at hflow
    · exact hnext id completion owner flow (h i _ _ hcleaning) hflow
    · exact h i owner flow hflow
  · exact h i owner flow hflow

end

/-! ## What a section keeps -/

/-- The section issues no token and accepts none; it may discard the stored one. -/
structure TokensKept (s t : Browser) : Prop where
  signIn : t.storage.pendingLogoutSignIn = s.storage.pendingLogoutSignIn ∨
    t.storage.pendingLogoutSignIn = none
  accepted : t.history.accepted = s.history.accepted
  drawn : s.drawn ≤ t.drawn

theorem TokensKept.refl (s : Browser) : s.TokensKept s := ⟨.inl rfl, rfl, Nat.le_refl _⟩

/-- The section writes no deletion marker, and forgets nothing of a deletion. It may remove
the marker where it `discards`. -/
structure Kept (discards : Prop) (s t : Browser) : Prop extends TokensKept s t where
  pendingDeletion : t.storage.pendingDeletion = s.storage.pendingDeletion ∨
    discards ∧ t.storage.pendingDeletion = none
  issues : t.history.issues = s.history.issues
  notes : t.history.notes = s.history.notes
  cleared : s.history.cleared ⊆ t.history.cleared
  deleted : s.history.deleted ⊆ t.history.deleted
  refused : s.history.refused ⊆ t.history.refused

theorem Kept.of_same (hstorage : t.storage = s.storage) (hhistory : t.history = s.history)
    (hdrawn : t.drawn = s.drawn) : s.Kept discards t where
  signIn := .inl (by rw [hstorage])
  accepted := by rw [hhistory]
  drawn := hdrawn.symm.le
  pendingDeletion := .inl (by rw [hstorage])
  issues := by rw [hhistory]
  notes := by rw [hhistory]
  cleared := hhistory ▸ List.Subset.refl _
  deleted := hhistory ▸ List.Subset.refl _
  refused := hhistory ▸ List.Subset.refl _

theorem Kept.refl (s : Browser) : s.Kept discards s := .of_same rfl rfl rfl

theorem Kept.after {u : Browser} (h' : t.Kept discards u) (h : s.Kept discards t) :
    s.Kept discards u where
  signIn := by
    rcases h'.signIn with hsame | hnone
    · rw [hsame]
      exact h.signIn
    · exact .inr hnone
  accepted := h'.accepted.trans h.accepted
  drawn := h.drawn.trans h'.drawn
  pendingDeletion := by
    rcases h'.pendingDeletion with hsame | hnone
    · rw [hsame]
      exact h.pendingDeletion
    · exact .inr hnone
  issues := h'.issues.trans h.issues
  notes := h'.notes.trans h.notes
  cleared := List.Subset.trans h.cleared h'.cleared
  deleted := List.Subset.trans h.deleted h'.deleted
  refused := List.Subset.trans h.refused h'.refused

/-- What follows writes nothing. -/
theorem Kept.same {u : Browser} (h : s.Kept discards t) (hstorage : u.storage = t.storage)
    (hhistory : u.history = t.history) (hdrawn : u.drawn = t.drawn) : s.Kept discards u :=
  (Kept.of_same hstorage hhistory hdrawn).after h

theorem Kept.found {mark : Nat} {evidence : Evidence} : s.Kept discards (s.found mark evidence) :=
  ⟨⟨.inl rfl, rfl, Nat.le_refl _⟩, .inl rfl, rfl, rfl, List.Subset.refl _, List.Subset.refl _,
    List.Subset.refl _⟩

theorem Kept.confirmed {ownerId : String} :
    s.Kept discards { s with history := { s.history with deleted := ownerId :: s.history.deleted } } :=
  ⟨⟨.inl rfl, rfl, Nat.le_refl _⟩, .inl rfl, rfl, rfl, List.Subset.refl _,
    List.subset_cons_self _ _, List.Subset.refl _⟩

theorem Kept.refuse {attemptId : Option String} :
    s.Kept discards
      { s with history := { s.history with refused := attemptId :: s.history.refused } } :=
  ⟨⟨.inl rfl, rfl, Nat.le_refl _⟩, .inl rfl, rfl, rfl, List.Subset.refl _, List.Subset.refl _,
    List.subset_cons_self _ _⟩

theorem Kept.wasCleared {database : Database} : s.Kept discards (s.wasCleared database id) :=
  ⟨⟨.inl rfl, rfl, Nat.le_refl _⟩, .inl rfl, rfl, rfl, List.subset_cons_self _ _,
    List.Subset.refl _, List.Subset.refl _⟩

theorem clearLocalData_drawn :
    (s.clearLocalData faults i tab id completion).drawn = s.drawn := by
  unfold clearLocalData
  split <;> rfl

theorem Kept.clearLocalData : s.Kept discards (s.clearLocalData faults i tab id completion) :=
  .of_same clearLocalData_storage clearLocalData_history clearLocalData_drawn

theorem Kept.completeCleanup : s.Kept discards (s.completeCleanup faults tab id) := by
  unfold Browser.completeCleanup
  split <;> exact .of_same rfl rfl rfl

theorem Kept.markPendingLogout {userId : Option String} :
    s.Kept discards (s.markPendingLogout faults userId) where
  signIn := markPendingLogout_kept.signIn
  accepted := rfl
  drawn := Nat.le_refl _
  pendingDeletion := .inl markPendingLogout_kept.pendingDeletion
  issues := rfl
  notes := rfl
  cleared := List.Subset.refl _
  deleted := List.Subset.refl _
  refused := List.Subset.refl _

theorem Kept.clearPendingLogout : s.Kept discards (s.clearPendingLogout faults) where
  signIn := clearPendingLogout_kept.signIn
  accepted := rfl
  drawn := Nat.le_refl _
  pendingDeletion := .inl clearPendingLogout_kept.pendingDeletion
  issues := rfl
  notes := rfl
  cleared := List.Subset.refl _
  deleted := List.Subset.refl _
  refused := List.Subset.refl _

theorem Kept.removePendingDeletionAttempt :
    s.Kept True (s.removePendingDeletionAttempt faults) := by
  simp only [Browser.removePendingDeletionAttempt, removePendingDeletionAttempt_storage]
  split
  · exact .of_same rfl rfl rfl
  · exact ⟨⟨.inl rfl, rfl, Nat.le_refl _⟩, .inr ⟨trivial, rfl⟩, rfl, rfl, List.Subset.refl _,
      List.Subset.refl _, List.Subset.refl _⟩

theorem Kept.discardPendingDeletion : s.Kept True (s.discardPendingDeletion faults) := by
  unfold Browser.discardPendingDeletion
  split
  · exact .refl s
  · exact .removePendingDeletionAttempt

/-! ## The sections of a run -/

/-- The flows whose next section may remove the deletion marker. -/
def Discards : Flow → Prop
  | .deleting _ | .ended _ _ | .recovering _ _ | .cleared _ (.recovery _) => True
  | _ => False

theorem settle_drawn : (s.settle faults i tab id).drawn = s.drawn := by
  unfold settle
  split
  · exact clearLocalData_drawn
  · rfl

theorem Kept.settle : s.Kept discards (s.settle faults i tab id) :=
  .of_same settle_storage settle_history settle_drawn

theorem finishPendingLogout_drawn {response : Response} :
    (s.finishPendingLogout faults i tab id response).drawn = s.drawn := by
  unfold finishPendingLogout
  split
  · rfl
  · split
    · exact clearLocalData_drawn
    · rfl

theorem Kept.finishPendingLogout {response : Response} :
    s.Kept discards (s.finishPendingLogout faults i tab id response) :=
  .of_same finishPendingLogout_storage finishPendingLogout_history finishPendingLogout_drawn

theorem Kept.logout : s.Kept discards (s.logout faults tab) := by
  have hmarked : s.Kept discards (s.markPendingLogout faults (s.tabs tab).ownerId) := .markPendingLogout
  simp only [Browser.logout]
  split
  · exact hmarked.same rfl rfl rfl
  · exact hmarked

theorem Kept.cleanup {available current : Bool} {dateNow : Nat} :
    s.Kept discards (s.cleanup core faults tab available current dateNow) := by
  have hcleared : ∀ database captured,
      s.Kept discards ((s.wasCleared database captured).completeCleanup faults tab captured) :=
    fun _ _ => Kept.completeCleanup.after .wasCleared
  unfold Browser.cleanup
  split
  · exact .refl s
  · split
    · exact .of_same rfl rfl rfl
    · dsimp only
      split
      · split
        · exact hcleared _ _
        · exact .of_same rfl rfl rfl
      · split
        · exact hcleared _ _
        · split <;> exact .of_same rfl rfl rfl

theorem Kept.deletionAnswered {issued : IssuedAttempt} {response : Response} :
    s.Kept True (s.deletionAnswered faults i tab issued response) := by
  unfold Browser.deletionAnswered
  split
  · exact Kept.confirmed.same rfl rfl rfl
  · split
    · exact Kept.removePendingDeletionAttempt.after (Kept.refuse.same rfl rfl rfl)
    · exact .of_same rfl rfl rfl

theorem Kept.recoveryAnswered {attempt : DeletionAttempt} {ownerId : Option String}
    {response : Response} : s.Kept True (s.recoveryAnswered faults i tab attempt ownerId response) := by
  unfold Browser.recoveryAnswered
  split
  · split
    · exact Kept.clearLocalData.after (Kept.markPendingLogout.after .confirmed)
    · exact .of_same rfl rfl rfl
  · split
    · exact Kept.removePendingDeletionAttempt.after (Kept.refuse.same rfl rfl rfl)
    · exact .of_same rfl rfl rfl

theorem Kept.completed :
    s.Kept (Discards (.cleared id completion)) (s.completed faults i tab id completion) := by
  have hended : ∀ {discards}, s.Kept discards (s.endFlow i) := .of_same rfl rfl rfl
  cases completion with
  | revoke csrfToken =>
    simp only [Browser.completed]
    split <;> exact .of_same rfl rfl rfl
  | logout clearMarker =>
    simp only [Browser.completed]
    split
    · exact Kept.clearPendingLogout.after hended
    · exact hended
  | settle =>
    simp only [Browser.completed]
    split
    · exact Kept.clearPendingLogout.after hended
    · exact hended
  | deletion issued =>
    simp only [Browser.completed]
    split
    · exact Kept.clearPendingLogout.after (.of_same rfl rfl rfl)
    · exact .of_same rfl rfl rfl
  | recovery attempt =>
    simp only [Browser.completed]
    split
    · exact Kept.discardPendingDeletion.after (Kept.clearPendingLogout.after hended)
    · exact hended
  | clear => exact hended

/-- The stored token is accepted, and no longer stored. -/
structure TokenAccepted (s t : Browser) (token : String) : Prop where
  stored : s.storage.pendingLogoutSignIn = some token
  consumed : t.storage.pendingLogoutSignIn = none
  accepted : t.history.accepted = token :: s.history.accepted
  drawn : s.drawn ≤ t.drawn

/-- A sign-in token that is accepted changes nothing of a deletion. -/
structure Landed (s t : Browser) (token : String) : Prop extends TokenAccepted s t token where
  pendingDeletion : t.storage.pendingDeletion = s.storage.pendingDeletion
  issues : t.history.issues = s.history.issues
  notes : t.history.notes = s.history.notes
  cleared : t.history.cleared = s.history.cleared
  deleted : t.history.deleted = s.history.deleted
  refused : t.history.refused = s.history.refused

theorem loadSession_kept {load : Bool} {captured : Option Identity} {response : Response} :
    s.Kept discards (s.loadSession faults i tab load captured response) ∨
      ∃ token, s.Landed (s.loadSession faults i tab load captured response) token := by
  unfold loadSession
  split
  · exact .inl (.of_same rfl rfl rfl)
  · split
    · exact .inl .settle
    · split
      · exact .inl (.of_same rfl rfl rfl)
      · split
        next landed hlanded =>
          unfold Browser.completedSignInLanding at hlanded
          split at hlanded
          next storage token haccepted htoken =>
            cases hlanded
            obtain ⟨hstored, rfl⟩ := completedSignInLanding_accepts haccepted
            refine .inr ⟨token, ⟨hstored.trans htoken, ?_, ?_, ?_⟩, ?_, ?_, ?_, ?_, ?_, ?_⟩
            · rw [settle_storage]
              rfl
            · rw [settle_history]
            · rw [settle_drawn]
              exact Nat.le_refl _
            · rw [settle_storage]
              rfl
            all_goals
              rw [settle_history]
              rfl
          · cases hlanded
        · exact .inl .finishPendingLogout

theorem goOn_kept {response : Option Response} :
    s.Kept (Discards flow) (s.goOn faults i tab flow response) ∨
      ∃ token, s.Landed (s.goOn faults i tab flow response) token := by
  have hended : ∀ {discards}, s.Kept discards (s.endFlow i) := .of_same rfl rfl rfl
  cases flow with
  | revocation id sent =>
    refine .inl ?_
    simp only [goOn]
    split <;> split
    · exact Kept.clearLocalData.after .found
    · exact Kept.found.same rfl rfl rfl
    · exact .clearLocalData
    · exact hended
  | binding load captured => exact .inl (.of_same rfl rfl rfl)
  | session load captured sent =>
    cases response with
    | none => exact .inl hended
    | some response =>
      refine .inl ?_
      simp only [goOn]
      split
      · exact Kept.found.same rfl rfl rfl
      · exact .of_same rfl rfl rfl
  | answered load captured answer => exact loadSession_kept
  | cleaning id completion => exact .inl (.refl s)
  | cleared id completion => exact .inl .completed
  | revoking id sent =>
    cases response with
    | none => exact .inl hended
    | some response =>
      refine .inl ?_
      simp only [goOn]
      split
      · split
        · exact Kept.clearPendingLogout.after (Kept.found.same rfl rfl rfl)
        · exact Kept.found.same rfl rfl rfl
      · exact hended
  | deleting issued =>
    cases response with
    | none => exact .inl hended
    | some response =>
      refine .inl ?_
      simp only [goOn]
      split
      · exact .deletionAnswered
      · exact hended
  | deleted issued =>
    refine .inl ?_
    simp only [goOn]
    split
    · exact Kept.clearLocalData.after .markPendingLogout
    · exact hended
  | ended issued cleaned => exact .inl (Kept.discardPendingDeletion.after hended)
  | recovering attempt ownerId =>
    cases response with
    | none => exact .inl hended
    | some response =>
      refine .inl ?_
      simp only [goOn]
      split
      · exact .recoveryAnswered
      · exact hended

theorem Kept.stop : s.Kept (Discards flow) (s.stop faults i tab flow) := by
  have hended : ∀ {discards}, s.Kept discards (s.endFlow i) := .of_same rfl rfl rfl
  cases flow with
  | ended => exact Kept.discardPendingDeletion.after hended
  | cleaning => exact .refl s
  | cleared id completion =>
    cases completion with
    | deletion issued => exact .of_same rfl rfl rfl
    | _ => exact hended
  | _ => exact hended

/-! ## What a new attempt and its recovery keep -/

theorem requestAccountDeletion_tokens :
    s.TokensKept (s.requestAccountDeletion random faults tab) := by
  unfold requestAccountDeletion
  split
  · exact .refl s
  · split
    · dsimp only
      split
      next storage hcandidate =>
        have hsignIn := hcandidate ▸ writeCandidate_signIn
        exact ⟨.inl hsignIn, rfl, Nat.le_succ _⟩
      next storage hcandidate =>
        have hsignIn := hcandidate ▸ writeCandidate_signIn
        split
        next written hissued =>
          have hissuedSignIn := hissued ▸ writeIssued_signIn
          exact ⟨.inl (hissuedSignIn.trans hsignIn), rfl, Nat.le_succ _⟩
        next written hissued =>
          have hissuedSignIn := hissued ▸ writeIssued_signIn
          exact ⟨.inl (hissuedSignIn.trans hsignIn), rfl, Nat.le_succ _⟩
    · exact .refl s

theorem recoverPendingDeletion_tokens : s.TokensKept (s.recoverPendingDeletion faults tab) := by
  unfold recoverPendingDeletion
  split
  · exact .refl s
  · dsimp only
    split
    · split <;> exact ⟨.inl rfl, rfl, Nat.le_refl _⟩
    · exact .refl s

end Browser

end Pomodorough.Web.Session
