import Pomodorough.Web.GateFencing

/-! # The stored snapshot

Sync responses and results of resolutions replace the snapshot. The former compare
revisions; the latter are as fresh as the snapshot that their request was captured
on, and while a resolution is stored the snapshot stays as it is. -/
namespace Pomodorough.Web
open Pomodorough.Library.Fallible
open Pomodorough.Library

/-- What becomes of the snapshot in one transaction. -/
inductive SnapshotStep (core : Core) (database written : Database) : Transaction → Prop where
  | kept {t} (snapshot : written.snapshot = database.snapshot) :
      SnapshotStep core database written t
  | first {t} (absent : database.snapshot = none) (unresolved : database.bootstrapResolution = none) :
      SnapshotStep core database written t
  | answered {input} (unresolved : database.bootstrapResolution = none)
      (revision : database.snapshot.elim 0 Snapshot.revision ≤ input.snapshot.revision)
      (snapshot : written.snapshot = some input.snapshot) :
      SnapshotStep core database written (.syncResponse input)
  | resolved {pending canonical} (stored : database.bootstrapResolution = some pending)
      (resolved : written.bootstrapResolution = none)
      (snapshot : written.snapshot = some canonical.snapshot) :
      SnapshotStep core database written (.resolution pending canonical)
  | cleared {t} (empty : written = Database.empty) : SnapshotStep core database written t

/-- The database, and the snapshot that was stored when a resolution was last
captured. -/
structure Observed where
  database : Database
  captured : Option Snapshot

/-- A capture that commits is observed. -/
def observe (core : Core) (observed : Observed) (t : Transaction) : Observed where
  database := step core observed.database t
  captured := match t with
    | .capture input =>
      match captureResolution core input observed.database with
      | .ok _ => observed.database.snapshot
      | .error _ => observed.captured
    | _ => observed.captured

/-- The result of the stored resolution has at least the revision of its account's
snapshot that was stored when it was captured. -/
def ResultsFresh (observed : Observed) : Transaction → Prop
  | .resolution pending canonical => observed.database.bootstrapResolution = some pending →
      ∀ snapshot ∈ observed.captured, snapshot.owner = canonical.snapshot.owner →
        snapshot.revision ≤ canonical.snapshot.revision
  | _ => True

/-- While a resolution is stored, the snapshot is the one it was captured on. -/
def CaptureKept (observed : Observed) : Prop :=
  observed.database.bootstrapResolution ≠ none →
    observed.captured = observed.database.snapshot

def Database.revision (database : Database) : Nat := database.snapshot.elim 0 Snapshot.revision

section
variable {core : Core} {database written : Database} {t : Transaction} {observed : Observed}

theorem exec_snapshot (h : t.exec core database = .ok written) :
    SnapshotStep core database written t := by
  cases exec_effect h with
  | plain hkept => exact .kept hkept.snapshot
  | gated _ _ hwrote =>
    subst hwrote
    exact .kept rfl
  | mutated hdone =>
    have hmutated := planWorkspaceMutation_ok hdone
    obtain ⟨_, _, _, hnone⟩ := assertWorkspaceContext_ok hmutated.context
    rcases hmutated.kept.snapshot with hkept | ⟨habsent, _⟩
    · exact .kept hkept
    · exact .first habsent hnone
  | claimed _ _ hmade => exact .kept hmade.kept.snapshot
  | dropped hdropped => exact .kept hdropped.kept.snapshot
  | answered hdone happlied =>
    have hvalid := validateSyncResponseApply_ok (applySyncResponse_ok hdone).1
    exact .answered hvalid.2.1 happlied.revision happlied.snapshot
  | resolved _ _ happlied => exact .resolved happlied.stored happlied.cleared.2.1 happlied.snapshot
  | captured _ hcaptured =>
    obtain ⟨_, _, rfl⟩ := hcaptured.wrote
    exact .kept rfl
  | sent _ hwrote =>
    subst hwrote
    exact .kept rfl
  | normalized _ hnormalized =>
    rw [hnormalized.wrote]
    exact .kept rfl
  | migrated hmigrated => exact .kept hmigrated.kept.snapshot
  | transferred hkept _ _ => exact .kept hkept.snapshot
  | cleared _ hempty => exact .cleared hempty

/-- A resolution is captured, or it was stored before. -/
theorem stored_or_captured (h : t.exec core database = .ok written)
    (hstored : written.bootstrapResolution ≠ none) :
    database.bootstrapResolution ≠ none ∨
      ∃ input pending, t = .capture input ∧
        captureResolution core input database = .ok (written, pending) := by
  cases exec_gate h with
  | kept _ hkept => exact Or.inl (by rwa [hkept] at hstored)
  | acquired _ _ hheld =>
    refine Or.inl fun hnone => hstored ?_
    rw [hheld, hnone]
    rfl
  | invalidated _ _ hheld =>
    refine Or.inl fun hnone => hstored ?_
    rw [hheld, hnone]
    rfl
  | released _ _ _ hnone | cleanedUp _ _ hnone | applied _ hnone _ => exact absurd hnone hstored
  | @captured input pending _ _ _ =>
    obtain ⟨pending, h⟩ := exec_outcome h
    exact Or.inr ⟨input, pending, rfl, h⟩
  | sent hadmitted _ _ => exact Or.inl (by rw [hadmitted.stored.2]; exact Option.some_ne_none _)
  | rotated _ _ hrotation _ _ => exact Or.inl (by rw [hrotation.stored]; exact Option.some_ne_none _)
  | cleared hempty =>
    rw [hempty] at hstored
    exact absurd rfl hstored

/-- While a resolution is stored, only its result or a clear changes the snapshot. -/
theorem snapshot_kept (h : t.exec core database = .ok written)
    (hbefore : database.bootstrapResolution ≠ none)
    (hafter : written.bootstrapResolution ≠ none) : written.snapshot = database.snapshot := by
  cases exec_snapshot h with
  | kept hkept => exact hkept
  | first _ hnone | answered hnone _ _ => exact absurd hnone hbefore
  | resolved _ hnone _ => exact absurd hnone hafter
  | cleared hempty =>
    rw [hempty] at hafter
    exact absurd rfl hafter

theorem captured_observe (h : t.exec core observed.database = .ok written) :
    (observe core observed t).captured = observed.captured ∨
      (observe core observed t).captured = observed.database.snapshot := by
  cases t with
  | capture input =>
    obtain ⟨pending, h⟩ := exec_outcome h
    refine Or.inr ?_
    unfold observe
    dsimp only
    rw [h]
  | _ => exact Or.inl rfl

/-- A transaction that aborts is not observed. -/
theorem observe_error {e : StorageError} (h : t.exec core observed.database = .error e) :
    observe core observed t = observed := by
  have hstep := step_error h
  unfold observe
  rw [hstep]
  cases t with
  | capture input =>
    cases hcapture : captureResolution core input observed.database with
    | error =>
      dsimp only
      rw [hcapture]
    | ok captured =>
      have hok : (Transaction.capture input).exec core observed.database = .ok captured.1 :=
        map_ok_iff.mpr ⟨captured, hcapture, rfl⟩
      rw [hok] at h
      cases h
  | _ => rfl

theorem captureKept_observe (hkept : CaptureKept observed) :
    CaptureKept (observe core observed t) := by
  intro hstored
  cases h : t.exec core observed.database with
  | error =>
    rw [observe_error h] at hstored ⊢
    exact hkept hstored
  | ok written =>
    have hdatabase : (observe core observed t).database = written := step_ok h
    rw [hdatabase] at hstored ⊢
    rcases stored_or_captured h hstored with hbefore | ⟨input, pending, rfl, hcapture⟩
    · rw [snapshot_kept h hbefore hstored]
      rcases captured_observe h with hsame | hnew
      · rw [hsame]
        exact hkept hbefore
      · exact hnew
    · obtain ⟨_, _, hwritten⟩ := (captureResolution_ok hcapture).wrote
      unfold observe
      dsimp only
      rw [hcapture, hwritten]

/-- One transaction does not take the snapshot of an account back. -/
theorem revision_step {user : String} (hkept : CaptureKept observed)
    (hfresh : ResultsFresh observed t) (hbefore : observed.database.owner = some user)
    (hafter : (step core observed.database t).owner = some user) :
    observed.database.revision ≤ (step core observed.database t).revision := by
  revert hafter
  apply step_induction (P := fun written => written.owner = some user →
    observed.database.revision ≤ written.revision) (fun _ => Nat.le_refl _)
  intro written h hafter
  unfold Database.revision
  cases exec_snapshot h with
  | kept hsame => exact Nat.le_of_eq (by rw [hsame])
  | first habsent _ =>
    rw [habsent]
    exact Nat.zero_le _
  | answered _ hrevision hwritten =>
    rw [hwritten]
    exact hrevision
  | resolved hstored _ hwritten =>
    have hcaptured := hkept (by rw [hstored]; exact Option.some_ne_none _)
    obtain ⟨snapshot, hsnapshot, howner⟩ := Option.bind_eq_some_iff.mp hbefore
    unfold Database.owner at hafter
    rw [hwritten, Option.bind_some] at hafter
    rw [hwritten, hsnapshot]
    exact hfresh hstored snapshot (hcaptured.trans hsnapshot) (howner.trans hafter.symm)
  | cleared hempty =>
    rw [hempty] at hafter
    cases hafter

theorem run_observe (observed : Observed) (ts : List Transaction) :
    (Traces.run (observe core) observed ts).database = run core observed.database ts := by
  induction ts generalizing observed with
  | nil => rfl
  | cons t ts ih => exact ih (observe core observed t)

theorem captureKept_run {ts : List Transaction} (hkept : CaptureKept observed) :
    CaptureKept (Traces.run (observe core) observed ts) := by
  induction ts generalizing observed with
  | nil => exact hkept
  | cons t ts ih => exact ih (captureKept_observe hkept)

/-- As long as the snapshot is of one account, no run takes it back. -/
theorem revision_run {ts : List Transaction} {user : String} (hkept : CaptureKept observed)
    (hfresh : Traces.Meets (observe core) ResultsFresh observed ts)
    (howner : ∀ pre post, ts = pre ++ post → (run core observed.database pre).owner = some user) :
    observed.database.revision ≤ (run core observed.database ts).revision := by
  induction ts generalizing observed with
  | nil => exact Nat.le_refl _
  | cons t ts ih =>
    have hstep : observed.database.revision ≤ (step core observed.database t).revision :=
      revision_step hkept hfresh.1 (howner [] (t :: ts) rfl) (howner [t] ts rfl)
    refine Nat.le_trans hstep (ih (captureKept_observe hkept) hfresh.2 ?_)
    intro pre post hts
    exact howner (t :: pre) post (by rw [hts]; rfl)

/-! ## Transactions that write nothing -/

/-- The owner of the snapshot that the transaction insists on. -/
def Transaction.expectedOwner : Transaction → Option (Option String)
  | .mutate input => some input.caller.expectedOwner
  | .claim input | .discardClaim input => some input.caller.expectedOwner
  | .syncResponse input => some (input.caller.expectedUserId.getD none)
  | .resolution .. => none
  | .acquireGate input | .invalidate input _ | .send input _ => input.caller.expectedUserId
  | .clearGate _ caller | .clockSequence caller | .clockOffset _ caller => caller.expectedUserId
  | .capture input => input.caller.expectedUserId
  | .normalize input => input.caller.expectedUserId
  | .preferences input => some (input.caller.expectedUserId.getD none)
  | .dependencies _ caller | .timerOwnership _ _ caller | .settingsDurations caller
  | .newIdentity _ _ _ _ caller | .settings _ caller | .clear caller =>
    some (caller.expectedUserId.getD none)
  | .confirmCleanup .. => some none

theorem assertStorageContext_ok {caller : Caller} {owner : Option String}
    (h : assertStorageContext database caller = .ok ()) (howner : caller.expectedUserId = some owner) :
    database.owner = owner := by
  obtain ⟨_, _, h⟩ := bind_ok_iff.mp h
  rw [howner] at h
  obtain ⟨_, h, _⟩ := bind_ok_iff.mp h
  exact (check_ok_iff.mp h).2

theorem accountMetadataMutation_ok {caller : Caller} {owner : Option String}
    (h : accountMetadataMutation core caller database = .ok ())
    (howner : caller.expectedUserId = some owner) : database.owner = owner := by
  obtain ⟨_, hcontext, _⟩ := bind_ok_iff.mp h
  exact assertStorageContext_ok hcontext howner

theorem guardedMutation_ok {allowBootstrap : Bool} {caller : Caller}
    (h : guardedMutation core allowBootstrap caller database = .ok ()) :
    database.owner = caller.expectedUserId.getD none := by
  obtain ⟨_, _, h⟩ := bind_ok_iff.mp h
  obtain ⟨_, _, h⟩ := bind_ok_iff.mp h
  obtain ⟨_, howner, _⟩ := bind_ok_iff.mp h
  exact (check_ok_iff.mp howner).2

theorem exec_owner {owner : Option String} (h : t.exec core database = .ok written)
    (howner : t.expectedOwner = some owner) : database.owner = owner := by
  cases t with
  | mutate input =>
    cases howner
    obtain ⟨plan, h⟩ := exec_outcome h
    exact (assertWorkspaceContext_ok (planWorkspaceMutation_ok h).context).2.1
  | claim input =>
    cases howner
    obtain ⟨outcome, h⟩ := exec_outcome h
    exact (assertWorkspaceContext_ok (claimWorkspaceBatch_ok h).1).2.1
  | discardClaim input =>
    cases howner
    obtain ⟨outcome, h⟩ := exec_outcome h
    exact (assertWorkspaceContext_ok (discardUnrecoverableSavedClaim_ok h).1).2.1
  | syncResponse input =>
    cases howner
    obtain ⟨plan, h⟩ := exec_outcome h
    obtain ⟨user, hexpected, hstored, _⟩ := (validateSyncResponseApply_ok (applySyncResponse_ok h).1).2.2
    rw [hexpected]
    exact hstored
  | resolution => cases howner
  | capture input =>
    obtain ⟨pending, h⟩ := exec_outcome h
    exact assertStorageContext_ok (captureResolution_ok h).context howner
  | send input pending =>
    obtain ⟨claimed, h⟩ := exec_outcome h
    exact accountMetadataMutation_ok (validatePendingForSend_iff.mp h).1.context howner
  | acquireGate input =>
    obtain ⟨outcome, h⟩ := exec_outcome h
    obtain ⟨_, hcontext, _⟩ := bind_ok_iff.mp h
    exact accountMetadataMutation_ok hcontext howner
  | invalidate input binding =>
    obtain ⟨outcome, h⟩ := exec_outcome h
    obtain ⟨_, hcontext, _⟩ := bind_ok_iff.mp h
    exact accountMetadataMutation_ok hcontext howner
  | normalize input =>
    obtain ⟨result, h⟩ := exec_outcome h
    obtain ⟨_, hcontext, _⟩ := bind_ok_iff.mp h
    exact assertStorageContext_ok hcontext howner
  | clearGate token caller =>
    obtain ⟨_, hcontext, _⟩ := bind_ok_iff.mp h
    exact accountMetadataMutation_ok hcontext howner
  | clockSequence caller =>
    obtain ⟨sequence, h⟩ := exec_outcome h
    obtain ⟨_, hcontext, _⟩ := bind_ok_iff.mp h
    exact accountMetadataMutation_ok hcontext howner
  | clockOffset sample caller =>
    obtain ⟨latest, h⟩ := exec_outcome h
    obtain ⟨_, hcontext, _⟩ := bind_ok_iff.mp h
    exact accountMetadataMutation_ok hcontext howner
  | preferences input =>
    cases howner
    obtain ⟨plan, h⟩ := exec_outcome h
    obtain ⟨_, hguard, _⟩ := bind_ok_iff.mp h
    exact guardedMutation_ok hguard
  | timerOwnership action owner caller =>
    cases howner
    obtain ⟨renewed, h⟩ := exec_outcome h
    obtain ⟨_, hguard, _⟩ := bind_ok_iff.mp h
    exact guardedMutation_ok hguard
  | _ =>
    cases howner
    obtain ⟨_, hguard, _⟩ := bind_ok_iff.mp h
    exact guardedMutation_ok hguard

/-- A stored gate or resolution fails every response. -/
theorem syncResponse_gated {input : ResponseInput}
    (h : database.bootstrapGate ≠ none ∨ database.bootstrapResolution ≠ none) :
    ∃ e, applySyncResponse core input database = .error e := by
  cases happly : applySyncResponse core input database with
  | error e => exact ⟨e, rfl⟩
  | ok result =>
    obtain ⟨written, plan⟩ := result
    obtain ⟨hgate, hresolution, _⟩ :=
      validateSyncResponseApply_ok (applySyncResponse_ok happly).1
    rcases h with hstored | hstored
    · exact absurd hgate hstored
    · exact absurd hresolution hstored

/-- What a stale response leaves as it is. -/
structure StaleKept (database written : Database) : Prop where
  queues : written.queues = database.queues
  snapshot : written.snapshot = database.snapshot
  hlc : written.hlc = database.hlc
  canonicalHead : written.canonicalHead = database.canonicalHead
  deliveryProof : written.deliveryProof = database.deliveryProof

theorem syncResponse_stale {input : ResponseInput}
    (hlower : input.snapshot.revision < database.revision) :
    StaleKept database (step core database (.syncResponse input)) := by
  apply step_induction (P := StaleKept database) ⟨rfl, rfl, rfl, rfl, rfl⟩
  intro written h
  obtain ⟨plan, h⟩ := exec_outcome h
  cases (applySyncResponse_ok h).2 with
  | ignored hkept =>
    subst hkept
    exact ⟨rfl, rfl, rfl, rfl, rfl⟩
  | stale _ _ _ hkept =>
    exact ⟨hkept.queues, hkept.snapshot, hkept.hlc, hkept.canonicalHead, hkept.proof⟩
  | apply _ happlied => exact absurd happlied.revision (Nat.not_le_of_lt hlower)

end

/-- The stored snapshot of an account never goes back: with results of resolutions
as fresh as the snapshot they were captured on, no run decreases its revision as long
as it is of the account; a stale response keeps the queues, the snapshot, the clock,
the canonical head and the delivery proof; a stored gate or resolution fails every
response; and a transaction that aborts, as it does where another account's snapshot
is stored than it insists on, writes nothing. -/
theorem snapshot_never_goes_back (core : Core) :
    (∀ (database : Database) (pre ts : List Transaction) (user : String),
      database.bootstrapResolution = none →
      Traces.Meets (observe core) ResultsFresh ⟨database, none⟩ (pre ++ ts) →
      (∀ mid post, ts = mid ++ post → (run core database (pre ++ mid)).owner = some user) →
      (run core database pre).revision ≤ (run core database (pre ++ ts)).revision) ∧
    (∀ (database : Database) (input : ResponseInput),
      input.snapshot.revision < database.revision →
      StaleKept database (step core database (.syncResponse input))) ∧
    (∀ (database : Database) (input : ResponseInput),
      database.bootstrapGate ≠ none ∨ database.bootstrapResolution ≠ none →
      (∃ e, applySyncResponse core input database = .error e) ∧
        step core database (.syncResponse input) = database) ∧
    (∀ (database : Database) (t : Transaction) (e : StorageError),
      t.exec core database = .error e → step core database t = database) ∧
    ∀ (database : Database) (t : Transaction) (owner : Option String),
      t.expectedOwner = some owner → database.owner ≠ owner →
      (∃ e, t.exec core database = .error e) ∧ step core database t = database := by
  have haborted : ∀ (database : Database) (t : Transaction) (e : StorageError),
      t.exec core database = .error e → step core database t = database := fun _ _ _ => step_error
  refine ⟨?_, fun _ _ => syncResponse_stale, ?_, haborted, ?_⟩
  · intro database pre ts user hnone hfresh howner
    have hkept : CaptureKept (Traces.run (observe core) ⟨database, none⟩ pre) :=
      captureKept_run fun hstored => absurd hnone hstored
    have hrun : (Traces.run (observe core) ⟨database, none⟩ pre).database =
        run core database pre := run_observe _ pre
    have howned : ∀ mid post, ts = mid ++ post →
        (run core (Traces.run (observe core) ⟨database, none⟩ pre).database mid).owner =
          some user := by
      intro mid post hts
      rw [hrun, ← run_append]
      exact howner mid post hts
    have hle := revision_run hkept (Traces.meets_append.mp hfresh).2 howned
    rw [hrun] at hle
    rw [run_append]
    exact hle
  · intro database input hstored
    obtain ⟨e, herror⟩ : ∃ e, applySyncResponse core input database = .error e :=
      syncResponse_gated hstored
    refine ⟨⟨e, herror⟩, haborted database (.syncResponse input) e ?_⟩
    show Prod.fst <$> applySyncResponse core input database = .error e
    rw [herror]
    rfl
  · intro database t owner hexpected hother
    cases h : t.exec core database with
    | error e => exact ⟨⟨e, rfl⟩, step_error h⟩
    | ok written => exact absurd (exec_owner h hexpected) hother

/-! ## A resolution of the account's own history -/

def referenceOwnGate : GateInput := { referenceGate "owner" 1000 with caller := referenceCaller }

def referenceOwnCapture : List Transaction :=
  [.acquireGate referenceOwnGate,
    .capture { referenceCapture "owner" with caller := referenceCaller }]

def referenceOwnResolution : Resolution :=
  { referenceResolution "owner" with sourceOwnerId := some (some "account:v1:1") }

/-- The result of the resolution, at a revision. -/
def referenceResult (revision : Nat) : ResponseInput :=
  { referenceResponse referenceSaved revision with reconciliation := none, capturedClaim := none }

def referenceOwnResolved : List Transaction :=
  [.send referenceOwnGate referenceOwnResolution,
    .resolution referenceOwnResolution.claimed (referenceResult 6)]

/-- The tab of another account. -/
def referenceForeign : Transaction :=
  .settings Settings.initial { referenceCaller with expectedUserId := some none }

/-- A resolution takes the snapshot on; a late response, a response under the gate and
another account's settings leave everything as it is. -/
theorem reference_snapshot_kept :
    (run referenceCore referenceDatabase referenceOwnCapture).revision ≤
      (run referenceCore referenceDatabase (referenceOwnCapture ++ referenceOwnResolved)).revision ∧
    StaleKept referenceClaimed
      (step referenceCore referenceClaimed (.syncResponse (referenceResponse referenceSaved 4))) ∧
    (∃ e, applySyncResponse referenceCore (referenceResponse referenceSaved 6)
      (run referenceCore referenceDatabase referenceOwnCapture) = .error e) ∧
    step referenceCore referenceDatabase referenceForeign = referenceDatabase ∧
    ∃ e, referenceForeign.exec referenceCore referenceDatabase = .error e := by
  have hnever := snapshot_never_goes_back referenceCore
  obtain ⟨⟨e, herror⟩, _⟩ := hnever.2.2.2.2 referenceDatabase referenceForeign none rfl
    (by decide +kernel)
  refine ⟨?_, ?_, ?_, ?_, e, herror⟩
  · refine hnever.1 referenceDatabase referenceOwnCapture referenceOwnResolved "account:v1:1"
      (by decide +kernel) ⟨trivial, trivial, trivial, ?_, trivial⟩ ?_
    · intro _ snapshot hsnapshot _
      have hcaptured : (Traces.run (observe referenceCore) ⟨referenceDatabase, none⟩
          (referenceOwnCapture ++ referenceOwnResolved.take 1)).captured =
            referenceDatabase.snapshot := by decide +kernel
      have hstored : referenceDatabase.snapshot = some snapshot := hcaptured.symm.trans hsnapshot
      cases hstored
      decide
    · intro mid post hts
      rcases List.cons_eq_append_iff.mp hts with ⟨rfl, _⟩ | ⟨later, rfl, hrest⟩
      · decide +kernel
      · rcases List.cons_eq_append_iff.mp hrest with ⟨rfl, _⟩ | ⟨last, rfl, hnil⟩
        · decide +kernel
        · obtain ⟨rfl, _⟩ := List.nil_eq_append_iff.mp hnil
          decide +kernel
  · exact hnever.2.1 _ _ (by decide +kernel)
  · exact (hnever.2.2.1 _ _ (by decide +kernel)).1
  · exact hnever.2.2.2.1 _ _ e herror

end Pomodorough.Web
