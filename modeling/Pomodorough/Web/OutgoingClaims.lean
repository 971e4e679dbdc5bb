import Pomodorough.Web.QueueRetention

/-! # The stored claim

A claim with a request body stays as it is until it is answered, replaced by a
resolution or cleared, and it is answered at most once. -/
namespace Pomodorough.Web
open Pomodorough.Library.Fallible
open Pomodorough.Library

/-- A response that presents this claim is applied. -/
def Answers (core : Core) (database : Database) (claim : Claim) : Transaction → Prop
  | .syncResponse input => input.capturedClaim = some claim ∧
      ∃ written plan, applySyncResponse core input database = .ok (written, .apply plan)
  | _ => False

/-- What removes a stored claim. -/
inductive Removes (core : Core) (database : Database) (claim : Claim) : Transaction → Prop where
  | answered {t} (answers : Answers core database claim t) : Removes core database claim t
  | resolved {pending canonical outcome written}
      (resolved : applyResolution core pending canonical database = .ok (written, outcome))
      (applied : outcome.applied = true) :
      Removes core database claim (.resolution pending canonical)
  | cleared {caller written} (cleared : clearLocalData core caller database = .ok written) :
      Removes core database claim (.clear caller)

/-- The response presents no claim while one is stored, or not the stored one, or
another account's. -/
def Mismatched (input : ResponseInput) (database : Database) : Prop :=
  match input.capturedClaim with
  | none => database.outgoingSync ≠ none
  | some claim => database.outgoingSync ≠ some claim ∨ claim.ownerId ≠ database.owner

instance (input : ResponseInput) (database : Database) : Decidable (Mismatched input database) := by
  unfold Mismatched
  cases input.capturedClaim <;> exact inferInstance

section
variable {core : Core} {database written : Database} {t : Transaction} {claim : Claim}

/-- A response that applies clears the claim it presents, and there was no other. -/
theorem ResponseApplied.outgoing_none {input : ResponseInput} {plan : AppliedPlan}
    (h : ResponseApplied core input database plan written) : written.outgoingSync = none := by
  rw [h.outgoing]
  cases hclaim : input.capturedClaim with
  | none =>
    obtain ⟨hnone, hcleared⟩ := h.claim.unclaimed hclaim
    rw [hcleared]
    exact hnone
  | some claim => rw [(h.claim.claimed claim hclaim).2.1, if_pos rfl]

/-- What becomes of the stored claim in one transaction. -/
inductive ClaimStep (core : Core) (database : Database) (t : Transaction) (written : Database) :
    Prop where
  | kept (kept : written.outgoingSync = database.outgoingSync)
  | stored (claim : Claim) (stored : ClaimStored core database claim t)
      (outgoing : written.outgoingSync = some claim)
      (replaced : ∀ saved ∈ database.outgoingSync, saved.body = none)
  | discarded (bodiless : ∃ saved ∈ database.outgoingSync, saved.body = none)
      (outgoing : written.outgoingSync = none)
  | removed (removed : ∀ saved ∈ database.outgoingSync, Removes core database saved t)
      (outgoing : written.outgoingSync = none)

theorem exec_claim (h : t.exec core database = .ok written) : ClaimStep core database t written := by
  cases exec_effect h with
  | plain hkept => exact .kept hkept.outgoing
  | gated _ _ hwrote =>
    subst hwrote
    exact .kept rfl
  | mutated hdone => exact .kept (planWorkspaceMutation_ok hdone).kept.outgoing
  | claimed claim hstored hmade => exact .stored claim hstored hmade.outgoing hmade.replaced
  | dropped hdropped => exact .discarded hdropped.bodiless hdropped.outgoing
  | @answered input plan hdone happlied =>
    refine .removed ?_ happlied.outgoing_none
    intro saved hsaved
    rw [Option.mem_def] at hsaved
    cases hclaim : input.capturedClaim with
    | none =>
      rw [(happlied.claim.unclaimed hclaim).1] at hsaved
      cases hsaved
    | some claim =>
      rw [(happlied.claim.claimed claim hclaim).1, Option.some.injEq] at hsaved
      subst hsaved
      exact .answered ⟨hclaim, written, plan, hdone⟩
  | resolved hdone houtcome happlied =>
    exact .removed (fun _ _ => .resolved hdone houtcome) happlied.cleared.1
  | captured _ hcaptured =>
    obtain ⟨_, _, rfl⟩ := hcaptured.wrote
    exact .kept rfl
  | sent _ hwrote =>
    subst hwrote
    exact .kept rfl
  | normalized _ hnormalized =>
    rw [hnormalized.wrote]
    exact .kept rfl
  | migrated hmigrated => exact .kept hmigrated.kept.outgoing
  | transferred hkept _ _ => exact .kept hkept.outgoing
  | cleared hdone hempty =>
    refine .removed (fun _ _ => .cleared hdone) ?_
    rw [hempty]
    rfl

/-- A claim with a body stays, or it is removed for a reason. -/
theorem claim_kept_or_removed (hstored : database.outgoingSync = some claim)
    (hbody : claim.body ≠ none) :
    (step core database t).outgoingSync = some claim ∨
      Removes core database claim t ∧ (step core database t).outgoingSync = none := by
  apply step_induction
    (P := fun written => written.outgoingSync = some claim ∨ _ ∧ written.outgoingSync = none)
    (Or.inl hstored)
  intro written h
  cases exec_claim h with
  | kept hkept => exact Or.inl (hkept.trans hstored)
  | stored claim' _ _ hreplaced => exact absurd (hreplaced claim hstored) hbody
  | discarded hbodiless _ =>
    obtain ⟨saved, hsaved, hnone⟩ := hbodiless
    rw [Option.mem_def, hstored, Option.some.injEq] at hsaved
    subst hsaved
    exact absurd hnone hbody
  | removed hremoved hnone => exact Or.inr ⟨hremoved claim hstored, hnone⟩

/-- A claim is stored only by the transaction that makes it. -/
theorem claim_absent_or_stored (habsent : database.outgoingSync ≠ some claim) :
    (step core database t).outgoingSync ≠ some claim ∨ ClaimStored core database claim t := by
  apply step_induction (P := fun written => written.outgoingSync ≠ some claim ∨ _)
    (Or.inl habsent)
  intro written h
  cases exec_claim h with
  | kept hkept => exact Or.inl (by rwa [hkept])
  | stored claim' hstored houtgoing _ =>
    by_cases heq : claim' = claim
    · exact Or.inr (heq ▸ hstored)
    · exact Or.inl (by rw [houtgoing]; simpa using heq)
  | discarded _ hnone => exact Or.inl (by simp [hnone])
  | removed _ hnone => exact Or.inl (by simp [hnone])

/-- The transaction of an answer finds the claim, and leaves none. -/
theorem Answers.spec (h : Answers core database claim t) :
    database.outgoingSync = some claim ∧ (step core database t).outgoingSync = none := by
  cases t with
  | syncResponse input =>
    obtain ⟨hclaim, written, plan, h⟩ := h
    cases (applySyncResponse_ok h).2 with
    | apply _ happlied =>
      refine ⟨(happlied.claim.claimed claim hclaim).1, ?_⟩
      rw [step_ok (map_ok_iff.mpr ⟨_, h, rfl⟩)]
      exact happlied.outgoing_none
  | _ => cases h

/-- A mismatched response writes nothing. -/
theorem mismatched_step {input : ResponseInput} (hmismatch : Mismatched input database) :
    step core database (.syncResponse input) = database := by
  apply step_induction (P := fun written => written = database) rfl
  intro written h
  obtain ⟨plan, h⟩ := exec_outcome h
  obtain ⟨hvalid, hdone⟩ := applySyncResponse_ok h
  have howner := (validateSyncResponseApply_ok hvalid).2.2
  obtain ⟨user, huser, hstored, _⟩ := howner
  unfold Mismatched at hmismatch
  obtain ⟨captured, hcaptured, h⟩ := bind_ok_iff.mp h
  obtain ⟨rfl, hfacts⟩ := presentedClaim_ok hcaptured
  obtain ⟨_, _, h⟩ := bind_ok_iff.mp h
  obtain ⟨plan', hplan, h⟩ := bind_ok_iff.mp h
  obtain ⟨_, _, hplan⟩ := bind_ok_iff.mp hplan
  obtain ⟨⟨applicable, cleared⟩, hclaim, hplan⟩ := bind_ok_iff.mp hplan
  have hunapplicable : applicable = false := by
    by_contra happlicable
    have hcompared := responseClaimPlan_ok hclaim (by simpa using happlicable)
    cases hpresented : input.capturedClaim with
    | none =>
      rw [hpresented] at hmismatch
      exact hmismatch (hcompared.unclaimed hpresented).1
    | some claim =>
      rw [hpresented] at hmismatch
      obtain ⟨hsaved, _, _, howned, _⟩ := hcompared.claimed claim hpresented
      rcases hmismatch with hstale | hforeign
      · exact hstale hsaved
      · apply hforeign
        rw [howned, huser]
        exact hstored.symm
  rw [hunapplicable] at hplan
  cases hplan
  obtain ⟨_, hpersist, h⟩ := bind_ok_iff.mp h
  cases hpersist
  cases h
  rfl

end

/-- The outgoing claim is sent and answered exactly once. While a claim with a
request body is stored it does not change, and only an answer to it, a resolution
or a clear removes it; every batch that is claimed meanwhile is that claim; between
two answers to a claim it was stored again; and a response with no claim, a stale
one or another account's changes nothing. -/
theorem outgoing_claim_exactly_once (core : Core) :
    (∀ (database : Database) (ts : List Transaction) (claim : Claim),
      database.outgoingSync = some claim → claim.body ≠ none →
      (run core database ts).outgoingSync ≠ some claim →
      ∃ pre t post, ts = pre ++ t :: post ∧ (run core database pre).outgoingSync = some claim ∧
        Removes core (run core database pre) claim t ∧
        (run core database (pre ++ [t])).outgoingSync = none) ∧
    (∀ (database written : Database) (claim : Claim) (input : ClaimInput)
      (outcome : ClaimOutcome), database.outgoingSync = some claim →
      claimWorkspaceBatch core input database = .ok (written, outcome) →
      outcome.claim = some claim ∧ written = database) ∧
    (∀ (database : Database) (first second : Transaction) (ts : List Transaction) (claim : Claim),
      Answers core database claim first →
      Answers core (run core database (first :: ts)) claim second →
      ∃ pre t post, ts = pre ++ t :: post ∧
        ClaimStored core (run core database (first :: pre)) claim t) ∧
    ∀ (database : Database) (input : ResponseInput), Mismatched input database →
      step core database (.syncResponse input) = database := by
  refine ⟨?_, ?_, ?_, ?_⟩
  · intro database ts claim hstored hbody hgone
    obtain ⟨pre, t, post, hts, hbefore, hafter, hremoved, hnone⟩ := Traces.ended
      (P := fun s : Database => s.outgoingSync = some claim)
      (fun s t hs => claim_kept_or_removed hs hbody) hstored hgone
    refine ⟨pre, t, post, hts, hbefore, hremoved, ?_⟩
    rw [run_append]
    exact hnone
  · intro database written claim input outcome hstored h
    rcases (claimWorkspaceBatch_ok h).2 with ⟨saved, hsaved, hkept, hclaim⟩ | ⟨hnone, _⟩
    · rw [hstored] at hsaved
      rw [hclaim, ← hsaved]
      exact ⟨rfl, hkept⟩
    · rw [hstored] at hnone
      cases hnone
  · intro database first second ts claim hfirst hsecond
    have hcleared : (step core database first).outgoingSync ≠ some claim := by
      rw [hfirst.spec.2]
      exact fun h => by cases h
    obtain ⟨pre, t, post, hts, _, _, hstored⟩ := Traces.ended
      (P := fun s : Database => s.outgoingSync ≠ some claim) (fun s t hs => claim_absent_or_stored hs)
      hcleared (not_not.mpr hsecond.spec.1)
    exact ⟨pre, t, post, hts, hstored⟩
  · exact fun database input hmismatch => mismatched_step hmismatch

/-- The same claim is made again: a new identity counts from the start. -/
def referenceRestored : List Transaction :=
  [.newIdentity "device" 0 ⟨1000, 0⟩ Settings.initial referenceCaller,
    .mutate referenceMutation, .claim referenceClaim]

theorem referenceResponse_answers {database : Database}
    (h : (applySyncResponse referenceCore (referenceResponse referenceSaved 5)
      database).toOption.any (fun result => result.2.applies) = true) :
    Answers referenceCore database referenceSaved
      (.syncResponse (referenceResponse referenceSaved 5)) := by
  obtain ⟨⟨written, plan⟩, happlied, hkind⟩ := exists_ok h
  cases plan with
  | ignored => cases hkind
  | stale => cases hkind
  | apply plan => exact ⟨rfl, written, plan, happlied⟩

/-- A claim is answered, stored again and answered again; a response without a
claim changes nothing while it is stored. -/
theorem reference_claim_exactly_once :
    (∃ pre t post, [.syncResponse (referenceResponse referenceSaved 5)] = pre ++ t :: post ∧
      (run referenceCore referenceClaimed pre).outgoingSync = some referenceSaved ∧
      Removes referenceCore (run referenceCore referenceClaimed pre) referenceSaved t ∧
      (run referenceCore referenceClaimed (pre ++ [t])).outgoingSync = none) ∧
    (∃ written outcome, claimWorkspaceBatch referenceCore referenceClaim referenceClaimed =
        .ok (written, outcome) ∧ outcome.claim = some referenceSaved ∧
      written = referenceClaimed) ∧
    (∃ pre t post, referenceRestored = pre ++ t :: post ∧
      ClaimStored referenceCore (run referenceCore referenceClaimed
        (.syncResponse (referenceResponse referenceSaved 5) :: pre)) referenceSaved t) ∧
    step referenceCore referenceClaimed
      (.syncResponse { referenceResponse referenceSaved 5 with capturedClaim := none }) =
        referenceClaimed := by
  have hstored : referenceClaimed.outgoingSync = some referenceSaved := by decide +kernel
  have honce := outgoing_claim_exactly_once referenceCore
  refine ⟨?_, ?_, ?_, ?_⟩
  · exact honce.1 _ _ _ hstored (by decide) (by decide +kernel)
  · obtain ⟨⟨written, outcome⟩, hclaimed, _⟩ := exists_ok
      (x := claimWorkspaceBatch referenceCore referenceClaim referenceClaimed)
      (p := fun _ => true) (by decide +kernel)
    exact ⟨written, outcome, hclaimed, honce.2.1 _ _ _ _ _ hstored hclaimed⟩
  · exact honce.2.2.1 _ _ (.syncResponse (referenceResponse referenceSaved 5)) _ _
      (referenceResponse_answers (by decide +kernel))
      (referenceResponse_answers (by decide +kernel))
  · exact honce.2.2.2 _ _ (by decide +kernel)

end Pomodorough.Web
