import Pomodorough.Web.Tabs

/-! # What a transaction does

One inversion of all transactions. What a run keeps or changes of the database
follows from it, case by case. -/
namespace Pomodorough.Web
open Pomodorough.Library.Fallible

/-- The claim of a batch was made by this transaction. -/
def ClaimStored (core : Core) (database : Database) (claim : Claim) : Transaction → Prop
  | .claim input => ∃ written outcome, database.outgoingSync = none ∧
      claimWorkspaceBatch core input database = .ok (written, outcome) ∧
      outcome.claim = some claim
  | .discardClaim input => ∃ written outcome,
      discardUnrecoverableSavedClaim core input database = .ok (written, outcome) ∧
      outcome.claim = some claim
  | _ => False

/-- A claim that was made: a stored one has no body. -/
structure ClaimWritten (database : Database) (claim : Claim) (written : Database) : Prop where
  kept : ClaimKept database written
  body : claim.body ≠ none
  sent : ∀ d, ids (claim.sent d) ⊆ ids (database.queues d)
  outgoing : written.outgoingSync = some claim
  proof : written.deliveryProof = some (removeProofIds database.deliveryProof claim.sent)
  replaced : ∀ saved ∈ database.outgoingSync, saved.body = none

/-- A claim without a body was dropped, and none made. -/
structure ClaimDropped (database written : Database) : Prop where
  kept : ClaimKept database written
  bodiless : ∃ saved ∈ database.outgoingSync, saved.body = none
  outgoing : written.outgoingSync = none
  proof : written.deliveryProof = database.deliveryProof

/-- What a transaction that commits has done. -/
inductive Effect (core : Core) (database written : Database) : Transaction → Prop where
  /-- Nothing of what the others are fenced by, and no operation. -/
  | plain {t} (kept : Untouched database written) : Effect core database written t
  /-- The gate, and the token of the resolution. -/
  | gated {t} (gate : Option Gate) (resolution : Option Resolution)
      (wrote : written = { database with
        bootstrapGate := gate, bootstrapResolution := resolution }) : Effect core database written t
  | mutated {input plan} (done : planWorkspaceMutation core input database = .ok (written, plan)) :
      Effect core database written (.mutate input)
  | claimed {t} (claim : Claim) (stored : ClaimStored core database claim t)
      (made : ClaimWritten database claim written) : Effect core database written t
  | dropped {input} (dropped : ClaimDropped database written) :
      Effect core database written (.discardClaim input)
  | answered {input plan}
      (done : applySyncResponse core input database = .ok (written, .apply plan))
      (applied : ResponseApplied core input database plan written) :
      Effect core database written (.syncResponse input)
  | resolved {pending canonical outcome}
      (done : applyResolution core pending canonical database = .ok (written, outcome))
      (outcome : outcome.applied = true)
      (applied : ResolutionApplied core pending canonical database written) :
      Effect core database written (.resolution pending canonical)
  | captured {input} (pending : Resolution) (captured : Captured input database pending written) :
      Effect core database written (.capture input)
  | sent {input pending} (admitted : SendAdmitted core input pending database)
      (wrote : written = database.afterSend input pending) :
      Effect core database written (.send input pending)
  | normalized {input} (result : Option Resolution)
      (normalized : Normalized input database result written) :
      Effect core database written (.normalize input)
  | migrated {input plan} (migrated : PreferencesMigrated core input database plan written) :
      Effect core database written (.preferences input)
  | transferred {caller} (kept : MetaKept database written)
      (proof : written.deliveryProof = database.deliveryProof)
      (grown : ∀ d, database.queues d ⊆ written.queues d) :
      Effect core database written (.settingsDurations caller)
  | cleared {caller} (done : clearLocalData core caller database = .ok written)
      (empty : written = Database.empty) : Effect core database written (.clear caller)

section
variable {core : Core} {database written : Database} {t : Transaction}

theorem newClaim_sent {input : ClaimInput} {outcome : ClaimOutcome} {claim : Claim}
    (h : newClaim core input database = .ok (written, outcome))
    (hclaim : outcome.claim = some claim) : ClaimMade input database claim written := by
  rcases (newClaim_ok h).2 with ⟨hnone, _⟩ | ⟨made, hmade, hspec⟩
  · rw [hclaim] at hnone
    cases hnone
  · rw [hclaim, Option.some.injEq] at hmade
    rwa [hmade]

/-- The transaction that makes a claim writes it. -/
theorem ClaimStored.exec {claim : Claim} (h : ClaimStored core database claim t) :
    ∃ written, t.exec core database = .ok written ∧ ClaimWritten database claim written := by
  cases t with
  | claim input =>
    obtain ⟨written, outcome, hnone, h, hclaim⟩ := h
    rcases (claimWorkspaceBatch_ok h).2 with ⟨saved, hsaved, _⟩ | ⟨_, hnew⟩
    · rw [hnone] at hsaved
      cases hsaved
    · have hmade := newClaim_sent hnew hclaim
      exact ⟨written, map_ok_iff.mpr ⟨_, h, rfl⟩, (newClaim_ok hnew).1, hmade.body, hmade.sent,
        hmade.outgoing, hmade.proof, by simp [hnone]⟩
  | discardClaim input =>
    obtain ⟨written, outcome, h, hclaim⟩ := h
    obtain ⟨_, saved, hsaved, hbody, hnew⟩ := discardUnrecoverableSavedClaim_ok h
    have hmade := newClaim_sent hnew hclaim
    have hkept := (newClaim_ok hnew).1
    refine ⟨written, map_ok_iff.mpr ⟨_, h, rfl⟩, ⟨hkept.queues, hkept.completion, hkept.gate,
      hkept.resolution, hkept.snapshot⟩, hmade.body, hmade.sent, hmade.outgoing, hmade.proof, ?_⟩
    intro other hother
    rw [Option.mem_def, hsaved, Option.some.injEq] at hother
    rwa [← hother]
  | _ => cases h

theorem exec_effect (h : t.exec core database = .ok written) : Effect core database written t := by
  cases t with
  | mutate input =>
    obtain ⟨plan, h⟩ := exec_outcome h
    exact .mutated h
  | claim input =>
    obtain ⟨outcome, hclaimed⟩ := exec_outcome h
    rcases (claimWorkspaceBatch_ok hclaimed).2 with ⟨_, _, rfl, _⟩ | ⟨hnone, hnew⟩
    · exact .plain ⟨⟨rfl, rfl, rfl, rfl, rfl⟩, rfl, rfl⟩
    · obtain ⟨hkept, hunmade | ⟨claim, hclaim, _⟩⟩ := newClaim_ok hnew
      · exact .plain ⟨⟨hkept.gate, hkept.resolution, hunmade.2.1, hkept.completion, hkept.snapshot⟩,
          hkept.queues, hunmade.2.2⟩
      · have hstored : ClaimStored core database claim (.claim input) :=
          ⟨written, outcome, hnone, hclaimed, hclaim⟩
        obtain ⟨written', hexec, hwritten⟩ := hstored.exec
        rw [h, Except.ok.injEq] at hexec
        exact .claimed claim hstored (hexec ▸ hwritten)
  | discardClaim input =>
    obtain ⟨outcome, hclaimed⟩ := exec_outcome h
    obtain ⟨_, saved, hsaved, hbody, hnew⟩ := discardUnrecoverableSavedClaim_ok hclaimed
    obtain ⟨hkept, hunmade | ⟨claim, hclaim, _⟩⟩ := newClaim_ok hnew
    · exact .dropped ⟨⟨hkept.queues, hkept.completion, hkept.gate, hkept.resolution,
        hkept.snapshot⟩, ⟨saved, hsaved, hbody⟩, hunmade.2.1, hunmade.2.2⟩
    · have hstored : ClaimStored core database claim (.discardClaim input) :=
        ⟨written, outcome, hclaimed, hclaim⟩
      obtain ⟨written', hexec, hwritten⟩ := hstored.exec
      rw [h, Except.ok.injEq] at hexec
      exact .claimed claim hstored (hexec ▸ hwritten)
  | syncResponse input =>
    obtain ⟨plan, h⟩ := exec_outcome h
    cases (applySyncResponse_ok h).2 with
    | ignored hkept =>
      subst hkept
      exact .plain ⟨⟨rfl, rfl, rfl, rfl, rfl⟩, rfl, rfl⟩
    | stale _ _ _ hkept => exact .plain hkept.toUntouched
    | apply _ hspec => exact .answered h hspec
  | resolution pending canonical =>
    obtain ⟨outcome, h⟩ := exec_outcome h
    rcases (applyResolution_ok h).2 with ⟨_, _, hkept⟩ | ⟨happlied, hspec⟩
    · exact .plain hkept
    · exact .resolved h happlied hspec
  | acquireGate input =>
    obtain ⟨outcome, h⟩ := exec_outcome h
    rcases acquireBootstrapGate_ok h with rfl | ⟨_, rfl⟩
    · exact .gated _ _ rfl
    · exact .gated _ _ rfl
  | clearGate token caller =>
    obtain ⟨_, _, rfl⟩ := clearBootstrapGate_ok h
    exact .gated _ _ rfl
  | invalidate input binding =>
    obtain ⟨outcome, h⟩ := exec_outcome h
    rcases invalidateForeignResolution_ok h with rfl | ⟨_, rfl⟩
    · exact .gated _ _ rfl
    · exact .gated _ _ rfl
  | capture input =>
    obtain ⟨pending, h⟩ := exec_outcome h
    exact .captured pending (captureResolution_ok h)
  | send input pending =>
    obtain ⟨claimed, h⟩ := exec_outcome h
    obtain ⟨hadmitted, _, hwrote⟩ := validatePendingForSend_iff.mp h
    exact .sent hadmitted hwrote
  | normalize input =>
    obtain ⟨result, h⟩ := exec_outcome h
    exact .normalized result (normalizeLegacyDurationOperations_ok h)
  | preferences input =>
    obtain ⟨plan, h⟩ := exec_outcome h
    exact .migrated (migrateLegacyPreferences_ok h)
  | settingsDurations caller =>
    obtain ⟨hkept, hproof, hgrown⟩ := migrateDurationQueueFromSettings_ok h
    exact .transferred hkept hproof hgrown
  | clear caller => exact .cleared h (clearLocalData_ok h)
  | confirmCleanup tabId caller =>
    obtain ⟨rfl, _⟩ := confirmCleanupAlreadyComplete_ok h
    exact .gated _ _ rfl
  | _ => exact .plain (exec_plain (by trivial) h)

end

end Pomodorough.Web
