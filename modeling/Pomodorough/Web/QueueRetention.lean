import Pomodorough.Web.ReferenceCore

/-! # Queued operations

An operation leaves its queue only with a reason: the response to the stored claim
acknowledges it, Core drops or retires it, a resolution is applied, or the local
data are cleared. -/
namespace Pomodorough.Web
open Pomodorough.Library.Fallible
open Pomodorough.Library

/-- The operation is in the queue of its domain. -/
def Queued (database : Database) (d : Domain) (id : String) : Prop := id ∈ ids (database.queues d)

instance (database : Database) (d : Domain) (id : String) : Decidable (Queued database d id) :=
  inferInstanceAs (Decidable (id ∈ ids (database.queues d)))

/-- Core's reconciliation within a sync response's transaction drops the command. -/
def Drops (core : Core) (input : ResponseInput) (database : Database) (d : Domain) (id : String) :
    Prop :=
  d = .commands ∧ ∃ reconciliation answer, input.reconciliation = some reconciliation ∧
    reconcileStored core (syncResponseRequests database) reconciliation none = .ok answer ∧
    id ∈ answer.droppedTimerOperationIds

/-- The response to the stored claim acknowledges the operation. -/
def Acknowledged (input : ResponseInput) (database : Database) (d : Domain) (id : String) : Prop :=
  ∃ claim reconciliation, input.capturedClaim = some claim ∧ database.outgoingSync = some claim ∧
    input.reconciliation = some reconciliation ∧ id ∈ ids (claim.sent d) ∧
    reconciliation.response.Acknowledges d id

/-- The reasons for which a transaction may take an operation off its queue. -/
inductive Released (core : Core) (database : Database) (d : Domain) (id : String) :
    Transaction → Prop where
  | acknowledged {input plan written}
      (applied : applySyncResponse core input database = .ok (written, .apply plan))
      (acknowledged : Acknowledged input database d id) :
      Released core database d id (.syncResponse input)
  | dropped {input plan written}
      (applied : applySyncResponse core input database = .ok (written, .apply plan))
      (dropped : Drops core input database d id) :
      Released core database d id (.syncResponse input)
  | retired {input plan written}
      (planned : planWorkspaceMutation core input database = .ok (written, plan))
      (domain : d = .durationOperations) (retired : id ∈ plan.retiredDurationOperationIds) :
      Released core database d id (.mutate input)
  | resolved {pending canonical outcome written}
      (resolved : applyResolution core pending canonical database = .ok (written, outcome))
      (applied : outcome.applied = true) :
      Released core database d id (.resolution pending canonical)
  | cleared {caller written} (cleared : clearLocalData core caller database = .ok written) :
      Released core database d id (.clear caller)

/-- Sync responses are applied by tabs that accepted them. -/
def Transaction.FromTab (core : Core) : Transaction → Prop
  | .syncResponse input => input.Accepted core
  | _ => True

section
variable {core : Core} {database written : Database} {d : Domain} {id : String}

theorem ids_subset {store store' : List Operation} (h : store ⊆ store') : ids store ⊆ ids store' :=
  List.map_subset _ h

/-- Rewriting operations under their ids takes none off the queue. -/
theorem mem_ids_recodeQueue {queue encoded : List Operation} (h : id ∈ ids queue) :
    id ∈ ids (recodeQueue queue encoded) := by
  unfold recodeQueue
  suffices hstore : ∀ store, id ∈ ids store → id ∈ ids (encoded.foldl _ store) from hstore queue h
  induction encoded with
  | nil => exact fun store hid => hid
  | cons operation encoded ih =>
    intro store hid
    rw [List.foldl_cons]
    apply ih
    split
    · exact hid
    · split
      · exact ids_put.mpr (Or.inr hid)
      · exact hid

theorem mem_ids_canonicalizeLegacyDurationQueue {queue : List Operation} (h : id ∈ ids queue) :
    id ∈ ids (canonicalizeLegacyDurationQueue queue) := by
  unfold canonicalizeLegacyDurationQueue
  suffices hstore : ∀ (operations store : List Operation),
      id ∈ ids store → id ∈ ids (operations.foldl _ store) from hstore queue queue h
  intro operations
  induction operations with
  | nil => exact fun store hid => hid
  | cons operation operations ih =>
    intro store hid
    rw [List.foldl_cons]
    apply ih
    split
    · exact ids_put.mpr (Or.inr hid)
    · exact hid

theorem queued_set {queues : Queues} {durations : List Operation} (h : id ∈ ids (queues d))
    (hd : ∀ id ∈ ids (queues .durationOperations), id ∈ ids durations) :
    id ∈ ids (queues.set .durationOperations durations d) := by
  by_cases heq : d = .durationOperations
  · subst heq
    rw [Queues.set_self]
    exact hd id h
  · rw [Queues.set_ne heq]
    exact h

theorem queued_mono {queues : Queues} (hq : written.queues = queues)
    (h : id ∈ ids (queues d)) : Queued written d id := by
  unfold Queued
  rw [hq]
  exact h

theorem addQueues_queued {queues added result : Queues} (h : addQueues queues added = .ok result)
    (hid : id ∈ ids (queues d)) : id ∈ ids (result d) := by
  rw [(addQueues_ok h).1 d]
  exact ids_subset (List.subset_append_left _ _) hid

/-- A planned mutation takes off only the durations it retires. -/
theorem mutate_queued {input : MutationInput} {plan : MutationPlan}
    (h : planWorkspaceMutation core input database = .ok (written, plan))
    (hid : Queued database d id) :
    Queued written d id ∨ d = .durationOperations ∧ id ∈ plan.retiredDurationOperationIds := by
  rcases (planWorkspaceMutation_ok h).wrote with ⟨_, hkept⟩ | ⟨_, hwrote⟩
  · exact Or.inl (queued_mono hkept.queues hid)
  · obtain ⟨added, hadded, hqueues⟩ := hwrote.queues
    have hadd : id ∈ ids (added d) := addQueues_queued hadded hid
    by_cases hretired : d = .durationOperations ∧ id ∈ plan.retiredDurationOperationIds
    · exact Or.inr hretired
    · refine Or.inl (queued_mono hqueues ?_)
      by_cases hdomain : d = .durationOperations
      · subst hdomain
        rw [Queues.set_self, ids_deleteAll]
        exact ⟨hadd, fun hmem => hretired ⟨rfl, hmem⟩⟩
      · rw [Queues.set_ne hdomain]
        exact hadd

/-- An applied response takes off what it acknowledges and what Core drops. -/
theorem persistReconciledQueues_queued {input : ResponseInput} {rebased : Rebased}
    {stored : Queues} (hid : id ∈ ids (stored d)) (hack : id ∉ input.queueIds d)
    (hdrop : d = .commands → id ∉ rebased.droppedCommandIds) :
    id ∈ ids (persistReconciledQueues input rebased stored d) := by
  have hkept : ∀ retained,
      id ∈ ids (persistReconciledQueue (stored d) (input.queueIds d) retained) := by
    intro retained
    exact ids_putAll.mpr (Or.inr (ids_deleteAll.mpr ⟨hid, hack⟩))
  unfold persistReconciledQueues
  dsimp only
  split
  next hd => exact ids_putAll.mpr (Or.inr (ids_deleteAll.mpr ⟨hkept _, hdrop hd⟩))
  next => exact hkept _

/-- What a response that applies drops is what Core's reconciliation reports. -/
theorem ResponseApplied.drops {input : ResponseInput} {plan : AppliedPlan}
    {reconciliation : ReconciliationInput}
    (h : ResponseApplied core input database plan written)
    (hrec : input.reconciliation = some reconciliation) :
    ∃ answer, reconcileStored core (syncResponseRequests database) reconciliation none =
      .ok answer ∧ plan.rebased.droppedCommandIds = answer.droppedTimerOperationIds := by
  have hrebased := h.rebased
  unfold responseTransactionRebase at hrebased
  rw [hrec] at hrebased
  obtain ⟨answer, hanswer, hrebased⟩ := bind_ok_iff.mp hrebased
  refine ⟨answer, hanswer, ?_⟩
  have heq := Except.ok.inj hrebased
  rw [← heq]

theorem syncResponse_queued {input : ResponseInput} {plan : SyncResponsePlan}
    (haccepted : input.Accepted core)
    (h : applySyncResponse core input database = .ok (written, plan))
    (hid : Queued database d id) :
    Queued written d id ∨ ∃ applied, plan = .apply applied ∧
      (Acknowledged input database d id ∨ Drops core input database d id) := by
  obtain ⟨claim, reconciliation, hspec⟩ := haccepted.spec
  cases (applySyncResponse_ok h).2 with
  | ignored hkept =>
    rw [hkept]
    exact Or.inl hid
  | stale _ _ _ hkept => exact Or.inl (queued_mono hkept.queues hid)
  | apply applied happlied =>
    obtain ⟨answer, hanswer, hdropped⟩ := happlied.drops hspec.reconciled
    by_cases hack : id ∈ input.queueIds d
    · refine Or.inr ⟨applied, rfl, Or.inl ?_⟩
      obtain ⟨hsent, hacknowledged⟩ := hspec.acknowledged d id hack
      have hstored := (happlied.claim.claimed claim hspec.presented).1
      exact ⟨claim, reconciliation, hspec.presented, hstored, hspec.reconciled, hsent,
        hacknowledged⟩
    · by_cases hdrop : d = .commands ∧ id ∈ answer.droppedTimerOperationIds
      · refine Or.inr ⟨applied, rfl, Or.inr ?_⟩
        exact ⟨hdrop.1, reconciliation, answer, hspec.reconciled, hanswer, hdrop.2⟩
      · refine Or.inl (queued_mono happlied.queues ?_)
        apply persistReconciledQueues_queued hid hack
        intro hd hmem
        rw [hdropped] at hmem
        exact hdrop ⟨hd, hmem⟩

/-- One transaction keeps an operation queued, or has a reason to release it. -/
theorem queued_or_released {t : Transaction} (htab : t.FromTab core)
    (hid : Queued database d id) :
    Queued (step core database t) d id ∨ Released core database d id t := by
  apply step_induction (P := fun written => Queued written d id ∨ _) (Or.inl hid)
  intro written h
  cases exec_effect h with
  | plain hkept => exact Or.inl (queued_mono hkept.queues hid)
  | gated _ _ hwrote =>
    subst hwrote
    exact Or.inl hid
  | mutated hdone =>
    exact (mutate_queued hdone hid).imp_right fun hretired => .retired hdone hretired.1 hretired.2
  | claimed _ _ hmade => exact Or.inl (queued_mono hmade.kept.queues hid)
  | dropped hdropped => exact Or.inl (queued_mono hdropped.kept.queues hid)
  | answered hdone _ =>
    rcases syncResponse_queued htab hdone hid with hkept | ⟨applied, _, hack | hdrop⟩
    · exact Or.inl hkept
    · exact Or.inr (.acknowledged hdone hack)
    · exact Or.inr (.dropped hdone hdrop)
  | resolved hdone happlied _ => exact Or.inr (.resolved hdone happlied)
  | captured _ hcaptured =>
    obtain ⟨encoded, _, rfl⟩ := hcaptured.wrote
    exact Or.inl (queued_set hid fun _ => mem_ids_recodeQueue)
  | sent _ hwrote =>
    subst hwrote
    exact Or.inl hid
  | normalized _ hnormalized =>
    rw [hnormalized.wrote]
    exact Or.inl (queued_set hid fun _ => mem_ids_canonicalizeLegacyDurationQueue)
  | migrated hmigrated =>
    rcases hmigrated.wrote with ⟨hkept, _⟩ | ⟨_, hadded, _⟩
    · exact Or.inl (queued_mono hkept hid)
    · exact Or.inl (addQueues_queued hadded hid)
  | transferred _ _ hgrown => exact Or.inl (ids_subset (hgrown d) hid)
  | cleared hdone _ => exact Or.inr (.cleared hdone)

end

/-- No queued operation is lost. In any run, an operation leaves its queue by a
transaction that has a reason to release it; and what is enqueued after a claim
was stored is still queued after the response to that claim is applied, unless
Core drops it. -/
theorem no_queued_operation_lost (core : Core) :
    (∀ (database : Database) (ts : List Transaction) (d : Domain) (id : String),
      (∀ t ∈ ts, t.FromTab core) → Queued database d id → ¬ Queued (run core database ts) d id →
      ∃ pre t post, ts = pre ++ t :: post ∧ Queued (run core database pre) d id ∧
        ¬ Queued (step core (run core database pre) t) d id ∧
        Released core (run core database pre) d id t) ∧
    ∀ (before : Database) (t : Transaction) (claim : Claim) (ts : List Transaction)
      (input : ResponseInput) (written : Database) (plan : AppliedPlan) (d : Domain) (id : String),
      ClaimStored core before claim t → ¬ Queued before d id → input.Accepted core →
      input.capturedClaim = some claim → Queued (run core before (t :: ts)) d id →
      applySyncResponse core input (run core before (t :: ts)) = .ok (written, .apply plan) →
      Queued written d id ∨ Drops core input (run core before (t :: ts)) d id := by
  constructor
  · intro database ts d id htabs hqueued hgone
    obtain ⟨pre, t, post, hts, hbefore, hafter, hreleased⟩ := Traces.ended
      (Q := fun s t => t.FromTab core → Released core s d id t)
      (fun s t hs => or_iff_not_imp_left.mpr fun hnot htab =>
        (queued_or_released htab hs).resolve_left hnot) hqueued hgone
    refine ⟨pre, t, post, hts, hbefore, hafter, hreleased ?_⟩
    exact htabs t (by rw [hts]; simp)
  · intro before t claim ts input written plan d id hstored hnew haccepted hpresented hqueued h
    rcases syncResponse_queued haccepted h hqueued with hkept | ⟨_, _, hack | hdrop⟩
    · exact Or.inl hkept
    · obtain ⟨claim', _, hclaim', _, _, hsent, _⟩ := hack
      rw [hpresented, Option.some.injEq] at hclaim'
      subst hclaim'
      obtain ⟨_, _, hmade⟩ := hstored.exec
      exact absurd (hmade.sent d hsent) hnew
    · exact Or.inr hdrop

/-- The response to a claim takes its command off the queue, and leaves the command
that was enqueued after the claim. -/
theorem reference_operations_kept :
    (∃ pre t post, [.syncResponse (referenceResponse referenceSaved 6)] = pre ++ t :: post ∧
      Queued (run referenceCore referenceClaimed pre) .commands "u" ∧
      ¬ Queued (step referenceCore (run referenceCore referenceClaimed pre) t) .commands "u" ∧
      Released referenceCore (run referenceCore referenceClaimed pre) .commands "u" t) ∧
    ∃ written plan, applySyncResponse referenceCore (referenceResponse referenceSaved 6)
        (run referenceCore (run referenceCore referenceDatabase [.mutate referenceMutation])
          [.claim referenceClaim, .mutate referenceMutation]) = .ok (written, .apply plan) ∧
      (Queued written .commands "uu" ∨ Drops referenceCore (referenceResponse referenceSaved 6)
        (run referenceCore (run referenceCore referenceDatabase [.mutate referenceMutation])
          [.claim referenceClaim, .mutate referenceMutation]) .commands "uu") := by
  have haccepted := referenceResponse_accepted 6
  constructor
  · apply (no_queued_operation_lost referenceCore).1
    · intro t ht
      rw [List.mem_singleton] at ht
      subst ht
      exact haccepted
    · decide +kernel
    · decide +kernel
  · have hclaim : (claimWorkspaceBatch referenceCore referenceClaim
        (run referenceCore referenceDatabase [.mutate referenceMutation])).toOption.any
          (fun result => result.2.claim = some referenceSaved) = true := by decide +kernel
    have happly : (applySyncResponse referenceCore (referenceResponse referenceSaved 6)
        (run referenceCore (run referenceCore referenceDatabase [.mutate referenceMutation])
          [.claim referenceClaim, .mutate referenceMutation])).toOption.any
          (fun result => result.2.applies) = true := by decide +kernel
    obtain ⟨⟨claimed, outcome⟩, hclaimed, hsaved⟩ := exists_ok hclaim
    obtain ⟨⟨written, plan⟩, happlied, hkind⟩ := exists_ok happly
    cases plan with
    | ignored => cases hkind
    | stale => cases hkind
    | apply plan =>
      refine ⟨written, plan, happlied, ?_⟩
      exact (no_queued_operation_lost referenceCore).2 _ (.claim referenceClaim) referenceSaved
        [.mutate referenceMutation] _ written plan .commands "uu"
        ⟨claimed, outcome, by decide +kernel, hclaimed, of_decide_eq_true hsaved⟩
        (by decide +kernel) haccepted rfl (by decide +kernel) happlied

end Pomodorough.Web
