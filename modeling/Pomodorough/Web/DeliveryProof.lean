import Pomodorough.Web.QueueRetention

/-! # The delivery proof

The proof names the queued operations that were never sent. It is reduced before a
request body can leave the browser, and grows only by ids that are minted within a
transaction. -/
namespace Pomodorough.Web
open Pomodorough.Library.Fallible
open Pomodorough.Library

/-- Core returns never-sent ids that it was given, or that were minted for the
transaction; an id is minted apart from those of all queued operations. -/
structure Core.ProvesMinted (core : Core) : Prop where
  mutation : ∀ request plan, core.mutation request = .ok plan → plan.planned = true →
    ∀ d, ∀ id ∈ plan.neverSent d,
      id ∈ request.workspace.neverSent d ∨ id ∈ request.commandUuids
  preferences : ∀ request plan, core.legacyPreferences request = .ok plan → plan.planned = true →
    ∀ d, ∀ id ∈ plan.neverSent d,
      id ∈ request.workspace.neverSent d ∨ id ∈ request.operationUuids
  minted : ∀ wallMs count last pending uuids,
    core.reserveUuid7 wallMs count last pending = .ok uuids → ∀ id ∈ uuids, id ∉ pending

/-- A migration of preferences brings random ids that no queued operation has. -/
def Mints (database : Database) : Transaction → Prop
  | .preferences input => ∀ id ∈ input.operationUuids, id ∉ database.pendingIds
  | _ => True

/-- The transaction writes the operation into a stored claim, or into a resolution
that it marks as possibly delivered. -/
inductive Delivers (core : Core) (database : Database) (d : Domain) (id : String) :
    Transaction → Prop where
  | claimed {t claim} (stored : ClaimStored core database claim t) (sent : id ∈ ids (claim.sent d)) :
      Delivers core database d id t
  | marked {input pending written claimed}
      (marked : validatePendingForSend core input pending database = .ok (written, claimed))
      (sent : id ∈ ids (pending.payload.sent d)) : Delivers core database d id (.send input pending)

section
variable {core : Core} {database written : Database} {t : Transaction} {d : Domain} {id : String}

theorem mem_pendingIds : id ∈ database.pendingIds ↔ ∃ d, Queued database d id := by
  unfold Database.pendingIds
  rw [List.mem_flatMap]
  constructor
  · rintro ⟨d, _, hid⟩
    exact ⟨d, hid⟩
  · rintro ⟨d, hid⟩
    exact ⟨d, mem_DOMAINS d, hid⟩

theorem proven_kept {proof : Option Ids} (hkept : written.deliveryProof = proof)
    (h : Proven written.deliveryProof d id) : Proven proof d id :=
  hkept ▸ h

theorem proven_removed {proof : Option Ids} {sent : Queues}
    (hwritten : written.deliveryProof = some (removeProofIds proof sent))
    (h : Proven written.deliveryProof d id) : Proven proof d id ∧ id ∉ ids (sent d) := by
  rw [hwritten] at h
  obtain ⟨_, hproof, hid⟩ := h
  cases hproof
  rw [mem_removeProofIds] at hid
  exact ⟨hid.1.1, hid.2⟩

theorem proven_reconciled {proof : Option Ids} {queues : Queues} {sent : Option Queues}
    (hwritten : written.deliveryProof = some (neverSentFromProof proof queues sent))
    (h : Proven written.deliveryProof d id) : Proven proof d id := by
  rw [hwritten] at h
  obtain ⟨_, hproof, hid⟩ := h
  cases hproof
  exact (mem_neverSentFromProof.mp hid).1.1

theorem exec_proof (hcore : core.ProvesMinted) (hmints : Mints database t)
    (h : t.exec core database = .ok written) (hproven : Proven written.deliveryProof d id) :
    Proven database.deliveryProof d id ∨ ¬ Queued database d id := by
  cases exec_effect h with
  | plain hkept => exact Or.inl (proven_kept hkept.proof hproven)
  | gated _ _ hwrote =>
    subst hwrote
    exact Or.inl hproven
  | @mutated input plan hdone =>
    have hmutated := planWorkspaceMutation_ok hdone
    rcases hmutated.wrote with ⟨_, hkept⟩ | ⟨hplanned, hwritten⟩
    · exact Or.inl (proven_kept hkept.proof hproven)
    · obtain ⟨request, hplan, hasked⟩ := hmutated.asked
      rw [hwritten.proof] at hproven
      obtain ⟨_, hproof, hid⟩ := hproven
      cases hproof
      rcases hcore.mutation request plan hplan hplanned d id hid with hgiven | hminted
      · have hsent := hasked.neverSent d hgiven
        exact Or.inl (mem_neverSentFromProof.mp hsent).1.1
      · obtain ⟨wallMs, hreserved⟩ := hasked.reserved
        refine Or.inr fun hqueued => ?_
        exact hcore.minted _ _ _ _ _ hreserved id hminted (mem_pendingIds.mpr ⟨d, hqueued⟩)
  | claimed _ _ hmade => exact Or.inl (proven_removed hmade.proof hproven).1
  | dropped hdropped => exact Or.inl (proven_kept hdropped.proof hproven)
  | answered _ happlied =>
    have hwritten := happlied.deliveryProof
    rw [happlied.proof] at hwritten
    exact Or.inl (proven_reconciled hwritten hproven)
  | resolved _ _ happlied =>
    obtain ⟨rebased, _, _, hwritten⟩ := happlied.rebased
    cases hqueues : rebased.queues with
    | none =>
      rw [hqueues] at hwritten
      exact Or.inl (proven_kept hwritten hproven)
    | some queues =>
      rw [hqueues] at hwritten
      exact Or.inl (proven_reconciled hwritten hproven)
  | captured _ hcaptured =>
    obtain ⟨_, _, rfl⟩ := hcaptured.wrote
    exact Or.inl hproven
  | sent _ hwrote =>
    subst hwrote
    exact Or.inl (proven_removed rfl hproven).1
  | normalized _ hnormalized =>
    rw [hnormalized.wrote] at hproven
    exact Or.inl hproven
  | @migrated input plan hmigrated =>
    rcases hmigrated.wrote with ⟨_, hkept⟩ | ⟨hplanned, _, hwritten⟩
    · exact Or.inl (proven_kept hkept hproven)
    · obtain ⟨request, hplan, hgiven, hids⟩ := hmigrated.asked
      rw [hwritten] at hproven
      obtain ⟨_, hproof, hid⟩ := hproven
      cases hproof
      rcases hcore.preferences request plan hplan hplanned d id hid with hstored | hminted
      · rw [hgiven] at hstored
        cases hproof : database.deliveryProof with
        | none =>
          rw [hproof] at hstored
          cases hstored
        | some proof =>
          rw [hproof] at hstored
          exact Or.inl ⟨proof, rfl, hstored⟩
      · rw [hids] at hminted
        exact Or.inr fun hqueued => hmints id hminted (mem_pendingIds.mpr ⟨d, hqueued⟩)
  | transferred _ hproof _ => exact Or.inl (proven_kept hproof hproven)
  | cleared _ hempty =>
    rw [hempty] at hproven
    obtain ⟨_, hproof, _⟩ := hproven
    cases hproof

/-- An id only comes into the proof while its operation is not queued. -/
theorem proven_step (hcore : core.ProvesMinted) (hmints : Mints database t)
    (hqueued : Queued database d id) (hproven : ¬ Proven database.deliveryProof d id) :
    ¬ Proven (step core database t).deliveryProof d id := by
  apply step_induction (P := fun written => ¬ Proven written.deliveryProof d id) hproven
  intro written h hafter
  rcases exec_proof hcore hmints h hafter with hbefore | hnot
  · exact hproven hbefore
  · exact hnot hqueued

/-- What is delivered is taken out of the proof. -/
theorem Delivers.not_proven (h : Delivers core database d id t) :
    ¬ Proven (step core database t).deliveryProof d id := by
  intro hproven
  cases h with
  | claimed hstored hsent =>
    obtain ⟨written, hexec, hmade⟩ := hstored.exec
    rw [step_ok hexec] at hproven
    exact (proven_removed hmade.proof hproven).2 hsent
  | marked hmarked hsent =>
    rw [step_ok (map_ok_iff.mpr ⟨_, hmarked, rfl⟩)] at hproven
    obtain ⟨_, _, rfl⟩ := validatePendingForSend_iff.mp hmarked
    exact (proven_removed rfl hproven).2 hsent

end

/-- The delivery proof is sound: an operation that was written into a stored claim,
or into a resolution that was marked as possibly delivered, is not in the proof as
long as it stays queued. -/
theorem delivery_proof_sound (core : Core) (database : Database) (t : Transaction)
    (ts : List Transaction) (d : Domain) (id : String) (hcore : core.ProvesMinted)
    (hmints : Traces.Meets (step core) Mints (step core database t) ts)
    (hdelivers : Delivers core database d id t)
    (hqueued : ∀ pre post, ts = pre ++ post →
      Queued (run core (step core database t) pre) d id) :
    ¬ Proven (run core (step core database t) ts).deliveryProof d id := by
  have hmeets : Traces.Meets (step core) (fun s t => Mints s t ∧ Queued s d id)
      (step core database t) ts := by
    rw [Traces.meets_iff] at hmints ⊢
    intro pre e post hts
    exact ⟨hmints pre e post hts, hqueued pre _ hts⟩
  refine Traces.invariant (I := fun s : Database => ¬ Proven s.deliveryProof d id) ?_
    hdelivers.not_proven hmeets
  rintro s t hproven ⟨hmint, hqueue⟩
  exact proven_step hcore hmint hqueue hproven

theorem referenceCore_provesMinted : referenceCore.ProvesMinted where
  mutation request plan h _ d id hid := by
    cases h
    rcases List.mem_append.mp hid with hgiven | hminted
    · exact Or.inl hgiven
    · split at hminted
      next =>
        obtain ⟨command, hcommand, rfl⟩ := mem_ids.mp hminted
        obtain ⟨uuid, huuid, rfl⟩ := List.mem_map.mp hcommand
        exact Or.inr (List.mem_of_mem_take huuid)
      next => cases hminted
  preferences request plan h hplanned := by
    cases h
    cases hplanned
  minted wallMs count last pending uuids h id hid := by
    cases h
    obtain ⟨n, _, rfl⟩ := List.mem_map.mp hid
    exact freshId_not_mem pending n

/-- A claimed command is not in the proof when the next one is enqueued. -/
theorem reference_proof_sound :
    ¬ Proven (run referenceCore (step referenceCore
        (run referenceCore referenceDatabase [.mutate referenceMutation]) (.claim referenceClaim))
      [.mutate referenceMutation]).deliveryProof .commands "u" := by
  obtain ⟨⟨written, outcome⟩, hclaimed, hsaved⟩ := exists_ok
    (x := claimWorkspaceBatch referenceCore referenceClaim
      (run referenceCore referenceDatabase [.mutate referenceMutation]))
    (p := fun result => result.2.claim = some referenceSaved) (by decide +kernel)
  refine delivery_proof_sound referenceCore _ _ _ _ _ referenceCore_provesMinted ⟨trivial, trivial⟩
    (.claimed ⟨written, outcome, by decide +kernel, hclaimed, of_decide_eq_true hsaved⟩
      (by decide +kernel)) ?_
  intro pre post hts
  rcases List.cons_eq_append_iff.mp hts with ⟨rfl, _⟩ | ⟨pre', rfl, hnil⟩
  · decide +kernel
  · obtain ⟨rfl, _⟩ := List.nil_eq_append_iff.mp hnil
    decide +kernel

end Pomodorough.Web
