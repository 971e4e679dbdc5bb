import Pomodorough.Web.ReferenceCore

/-! # The completion state

A mutation reads the stored completion state and installs what follows from it. A
sync response does not read it, so it installs what follows from the initial state:
what was stored survives only where it was the initial state. -/
namespace Pomodorough.Web
open Pomodorough.Library.Fallible
open Pomodorough.Library

/-- A later completion context: no consumed completion is missing, and the
selection has not gone back. -/
structure CompletionContext.Kept (before after : CompletionContext) : Prop where
  consumed : before.lifecycle.consumedCompletions ⊆ after.lifecycle.consumedCompletions
  generation : before.selection.generation ≤ after.selection.generation

instance (before after : CompletionContext) : Decidable (before.Kept after) :=
  decidable_of_iff (_ ∧ _) ⟨fun h => ⟨h.1, h.2⟩, fun h => ⟨h.consumed, h.generation⟩⟩

def CompletionState.context (state : CompletionState) : CompletionContext :=
  ⟨state.selection, state.lifecycle.getD initialLifecycle⟩

/-- What is recorded of completions. -/
def Database.completion (database : Database) : CompletionContext :=
  completionContext none none database.completionState

/-- Core keeps the completions and the generation it is given. -/
structure Core.KeepsCompletions (core : Core) : Prop where
  mutation : ∀ request plan, core.mutation request = .ok plan → plan.planned = true →
    ∀ lifecycle, plan.lifecycle = some lifecycle →
      request.context.Kept ⟨plan.selection, lifecycle⟩
  install : ∀ request state, core.completionInstall request = .ok state →
    request.context.Kept state.context

/-- The phase that a sync response selects where no completion state is read. -/
def Database.settledPhase (database : Database) : String :=
  (database.settings.bind Settings.selectedPhase).getD "focus"

/-- The response reconciles nothing, or the stored completion state is what an
absent one counts as: the phase of the settings, generation 0, not explicit, and an
empty lifecycle. -/
def CompletionRead (input : ResponseInput) (database : Database) : Prop :=
  input.reconciliation = none ∨
    completionContext none (some database.settledPhase) database.completionState =
      completionContext none (some database.settledPhase) none

/-- What Core's install step makes of the stored completion state. -/
def installStored (core : Core) (input : ResponseInput) (database : Database) (rebased : Rebased) :
    Except StorageError (Option CompletionState) :=
  responseCompletionState core input
    { syncResponseRequests database with completionState := database.completionState } rebased

/-- A response that applies persists what the install step makes of the stored
completion state. -/
def Installs (core : Core) (input : ResponseInput) (database : Database) : Prop :=
  ∀ written plan, applySyncResponse core input database = .ok (written, .apply plan) →
    ∃ completion, installStored core input database plan.rebased = .ok completion ∧
      written.completionState = completion.or database.completionState

section
variable {core : Core} {database written : Database} {input : ResponseInput}

theorem CompletionContext.Kept.refl (context : CompletionContext) : context.Kept context :=
  ⟨List.Subset.refl _, Nat.le_refl _⟩

theorem CompletionContext.Kept.trans {a b c : CompletionContext} (hab : a.Kept b)
    (hbc : b.Kept c) : a.Kept c :=
  ⟨List.Subset.trans hab.consumed hbc.consumed, Nat.le_trans hab.generation hbc.generation⟩

/-- The settings only say the phase. -/
theorem completionContext_kept (settings settings' : Option Settings) (phase phase' : Option String)
    (state : Option CompletionState) :
    (completionContext settings phase state).Kept (completionContext settings' phase' state) := by
  cases state with
  | none => exact ⟨List.Subset.refl _, Nat.le_refl _⟩
  | some state => exact .refl _

theorem completion_kept (h : written.completionState = database.completionState) :
    database.completion.Kept written.completion := by
  unfold Database.completion
  rw [h]
  exact .refl _

/-- The install step sees the stored completion state as its context, and nothing
else of it. -/
theorem responseCompletionState_congr {results results' : Database} {rebased : Rebased}
    (hsnapshot : results.snapshot = results'.snapshot)
    (hqueues : results.queues = results'.queues)
    (hhistory : results.displayHistory = results'.displayHistory)
    (hcontext : completionContext none (some results.settledPhase) results.completionState =
      completionContext none (some results'.settledPhase) results'.completionState) :
    responseCompletionState core input results rebased =
      responseCompletionState core input results' rebased := by
  unfold Database.settledPhase at hcontext
  unfold responseCompletionState
  rw [hcontext, hsnapshot, hqueues, hhistory]

/-- What is installed follows from the context that was given. -/
theorem responseCompletionState_ok {results : Database} {rebased : Rebased}
    {completion : Option CompletionState}
    (h : responseCompletionState core input results rebased = .ok completion) :
    (input.reconciliation = none ∧ completion = none) ∨
      ∃ request state, core.completionInstall request = .ok state ∧ completion = some state ∧
        request.context =
          completionContext none (some results.settledPhase) results.completionState := by
  unfold responseCompletionState at h
  split at h
  next hnone =>
    cases h
    exact Or.inl ⟨hnone, rfl⟩
  next => cases h
  next =>
    obtain ⟨_, _, h⟩ := bind_ok_iff.mp h
    obtain ⟨state, hstate, h⟩ := bind_ok_iff.mp h
    cases h
    exact Or.inr ⟨_, state, call_ok_iff.mp hstate, rfl, rfl⟩

/-- Another install step, which answers every request, changes the completion state
of the plan only. -/
theorem planSyncResponse_install (install : InstallRequest → Except String CompletionState)
    {plan : AppliedPlan} (hinstall : ∀ request, ∃ state, install request = .ok state)
    (h : planSyncResponse core input (syncResponseRequests database) = .ok (.apply plan)) :
    ∃ kind, planSyncResponse { core with completionInstall := install } input
        (syncResponseRequests database) = .ok kind ∧
      ∃ plan', kind = .apply plan' ∧ plan'.rebased = plan.rebased ∧
        plan'.ownerPlan = plan.ownerPlan := by
  obtain ⟨_, hvalid, h⟩ := bind_ok_iff.mp h
  refine exists_bind hvalid ?_
  obtain ⟨⟨applicable, cleared⟩, hclaim, h⟩ := bind_ok_iff.mp h
  refine exists_bind hclaim ?_
  dsimp only at h ⊢
  split at h
  next => cases h
  next happlicable =>
    rw [if_neg happlicable]
    obtain ⟨_, hdisplay, h⟩ := bind_ok_iff.mp h
    refine exists_bind hdisplay ?_
    obtain ⟨clockOffset, hoffset, h⟩ := bind_ok_iff.mp h
    refine exists_bind hoffset ?_
    split at h
    next =>
      obtain ⟨_, _, h⟩ := bind_ok_iff.mp h
      cases h
    next hrevision =>
      rw [if_neg hrevision]
      obtain ⟨rebased, hrebased, h⟩ := bind_ok_iff.mp h
      refine exists_bind hrebased ?_
      obtain ⟨hlc, hhlc, h⟩ := bind_ok_iff.mp h
      refine exists_bind hhlc ?_
      obtain ⟨completion, hcompletion, h⟩ := bind_ok_iff.mp h
      obtain ⟨completion', hcompletion'⟩ : ∃ completion', responseCompletionState
          { core with completionInstall := install } input (syncResponseRequests database)
          rebased = .ok completion' := by
        unfold responseCompletionState at hcompletion ⊢
        split at hcompletion
        next => exact ⟨none, rfl⟩
        next => cases hcompletion
        next =>
          obtain ⟨sendable, hsendable, _⟩ := bind_ok_iff.mp hcompletion
          obtain ⟨state, hstate⟩ := hinstall _
          exact ⟨some state, bind_ok_iff.mpr ⟨sendable, hsendable,
            bind_ok_iff.mpr ⟨state, call_ok_iff.mpr hstate, rfl⟩⟩⟩
      refine exists_bind hcompletion' ?_
      obtain ⟨ownerPlan, howner, h⟩ := bind_ok_iff.mp h
      refine exists_bind howner ?_
      cases h
      exact ⟨_, rfl, _, rfl, rfl, rfl⟩

theorem applySyncResponse_install (install : InstallRequest → Except String CompletionState)
    {plan : AppliedPlan} (hinstall : ∀ request, ∃ state, install request = .ok state)
    (h : applySyncResponse core input database = .ok (written, .apply plan)) :
    ∃ result, applySyncResponse { core with completionInstall := install } input database =
      .ok result ∧ ∃ plan', result.2 = .apply plan' ∧ plan'.rebased = plan.rebased := by
  obtain ⟨_, hpresented, h⟩ := bind_ok_iff.mp h
  refine exists_bind hpresented ?_
  obtain ⟨_, hclock, h⟩ := bind_ok_iff.mp h
  refine exists_bind hclock ?_
  obtain ⟨kind, hplan, h⟩ := bind_ok_iff.mp h
  obtain ⟨written', hpersist, h⟩ := bind_ok_iff.mp h
  cases h
  obtain ⟨_, hplan', plan', rfl, hrebased, howner⟩ := planSyncResponse_install install hinstall hplan
  refine exists_bind hplan' ?_
  obtain ⟨timerOwner, htimer, _⟩ := bind_ok_iff.mp hpersist
  rw [← howner] at htimer
  refine exists_bind (bind_ok_iff.mpr ⟨timerOwner, htimer, rfl⟩) ?_
  exact ⟨_, rfl, plan', rfl, hrebased⟩

/-- A response whose install step does not see the stored completion state installs
what follows from another. -/
theorem not_installs {reconciliation : ReconciliationInput} {plan : AppliedPlan}
    (hreconciled : input.reconciliation = some reconciliation)
    (hcontext : completionContext none (some database.settledPhase) database.completionState ≠
      completionContext none (some database.settledPhase) none)
    (h : applySyncResponse core input database = .ok (written, .apply plan)) :
    ∃ install, ¬ Installs { core with completionInstall := install } input database := by
  let seen := completionContext none (some database.settledPhase) none
  let install : InstallRequest → Except String CompletionState := fun request =>
    .ok ⟨⟨"", if request.context = seen then 0 else 1, false⟩, none⟩
  refine ⟨install, fun hinstalls => ?_⟩
  obtain ⟨⟨written', kind⟩, happlied, plan', rfl, _⟩ :=
    applySyncResponse_install install (fun request => ⟨_, rfl⟩) h
  obtain ⟨completion, hstored, hwritten⟩ := hinstalls written' plan' happlied
  cases (applySyncResponse_ok happlied).2 with
  | apply _ hspec =>
    have hdone := hspec.completion
    have hstate := hspec.state
    rcases responseCompletionState_ok hdone with ⟨hnone, _⟩ | ⟨request, state, hinst, hplan, hseen⟩
    · rw [hreconciled] at hnone
      cases hnone
    rcases responseCompletionState_ok hstored with
      ⟨hnone, _⟩ | ⟨request', state', hinst', rfl, hseen'⟩
    · rw [hreconciled] at hnone
      cases hnone
    rw [hwritten, hplan] at hstate
    cases hstate
    have hseen : request.context = seen := hseen
    have hseen' : request'.context ≠ seen := fun heq => hcontext (hseen'.symm.trans heq)
    have hinst : (install request) = .ok state := hinst
    have hinst' : (install request') = .ok state := hinst'
    simp only [install, hseen, hseen', if_true, if_false, Except.ok.injEq] at hinst hinst'
    rw [← hinst] at hinst'
    cases hinst'

/-- A response whose install step sees what is stored installs what follows from it. -/
theorem installs (hread : CompletionRead input database) : Installs core input database := by
  intro written plan h
  cases (applySyncResponse_ok h).2 with
  | apply _ hspec =>
    refine ⟨plan.completion, ?_, hspec.state⟩
    rw [← hspec.completion]
    unfold installStored
    rcases hread with hnone | hcontext
    · unfold responseCompletionState
      rw [hnone]
    · exact responseCompletionState_congr rfl rfl rfl hcontext

/-- What the install step keeps, a response that installs keeps. -/
theorem Installs.kept (hkeeps : core.KeepsCompletions) (hinstalls : Installs core input database)
    {plan : AppliedPlan}
    (h : applySyncResponse core input database = .ok (written, .apply plan)) :
    database.completion.Kept written.completion := by
  obtain ⟨completion, hstored, hwritten⟩ := hinstalls written plan h
  rcases responseCompletionState_ok hstored with ⟨_, rfl⟩ | ⟨request, state, hinst, rfl, hcontext⟩
  · exact completion_kept hwritten
  · have hkept := hkeeps.install request state hinst
    rw [hcontext] at hkept
    have hstate : written.completion = state.context := by
      unfold Database.completion
      rw [hwritten]
      rfl
    rw [hstate]
    exact (completionContext_kept none none none _ database.completionState).trans hkept

/-! ## Runs -/

/-- A clear forgets everything; a sync response meets the condition. -/
def CompletionStep (database : Database) : Transaction → Prop
  | .clear _ => False
  | .syncResponse input => CompletionRead input database
  | _ => True

theorem exec_completion {t : Transaction} (hkeeps : core.KeepsCompletions)
    (hstep : CompletionStep database t) (h : t.exec core database = .ok written) :
    database.completion.Kept written.completion := by
  cases exec_effect h with
  | plain hkept => exact completion_kept hkept.completion
  | gated _ _ hwrote =>
    subst hwrote
    exact .refl _
  | @mutated input plan hdone =>
    have hmutated := planWorkspaceMutation_ok hdone
    rcases hmutated.wrote with ⟨_, hkept⟩ | ⟨hplanned, hwritten⟩
    · exact completion_kept hkept.completion
    · obtain ⟨request, hplan, hasked⟩ := hmutated.asked
      cases hlifecycle : plan.lifecycle with
      | none => exact completion_kept (by rw [hwritten.completion, hlifecycle])
      | some lifecycle =>
        have hkept := hkeeps.mutation request plan hplan hplanned lifecycle hlifecycle
        rw [hasked.context] at hkept
        have hstate : written.completion = ⟨plan.selection, lifecycle⟩ := by
          unfold Database.completion
          rw [hwritten.completion, hlifecycle]
          rfl
        rw [hstate]
        exact (completionContext_kept none _ none none database.completionState).trans hkept
  | claimed _ _ hmade => exact completion_kept hmade.kept.completion
  | dropped hdropped => exact completion_kept hdropped.kept.completion
  | answered hdone _ => exact (installs hstep).kept hkeeps hdone
  | resolved _ _ happlied => exact completion_kept happlied.completion
  | captured _ hcaptured =>
    obtain ⟨_, _, rfl⟩ := hcaptured.wrote
    exact .refl _
  | sent _ hwrote =>
    subst hwrote
    exact .refl _
  | normalized _ hnormalized =>
    rw [hnormalized.wrote]
    exact .refl _
  | migrated hmigrated => exact completion_kept hmigrated.kept.completion
  | transferred hkept _ _ => exact completion_kept hkept.completion
  | cleared _ _ => cases hstep

end

/-- A sync response that applies installs what Core's install step makes of the
stored completion state, whatever that step is, exactly where it sees the stored
state; and with a Core that keeps completions, in every run whose sync responses do,
no recorded completion disappears and the generation never goes back. -/
theorem completion_survives_iff (core : Core) :
    (∀ (input : ResponseInput) (database written : Database) (plan : AppliedPlan),
      applySyncResponse core input database = .ok (written, .apply plan) →
      ((∀ install, Installs { core with completionInstall := install } input database) ↔
        CompletionRead input database)) ∧
    ∀ (database : Database) (ts : List Transaction), core.KeepsCompletions →
      Traces.Meets (step core) CompletionStep database ts →
      database.completion.Kept (run core database ts).completion := by
  constructor
  · intro input database written plan h
    constructor
    · intro hinstalls
      cases hreconciled : input.reconciliation with
      | none => exact Or.inl hreconciled
      | some reconciliation =>
        refine Or.inr (by_contra fun hcontext => ?_)
        obtain ⟨install, hnot⟩ := not_installs hreconciled hcontext h
        exact hnot (hinstalls install)
    · exact fun hread install => installs hread
  · intro database ts hkeeps hmeets
    refine Traces.related (R := fun s t => s.completion.Kept t.completion)
      (fun s => .refl _) (fun s t u hst htu => hst.trans htu) ?_ hmeets
    intro s t hstep
    exact step_induction (P := fun written => s.completion.Kept written.completion) (.refl _)
      fun written h => exec_completion hkeeps hstep h

/-- A completion is consumed, and what is queued is claimed. -/
def referenceCompletion : List Transaction :=
  [.mutate { referenceMutation with stage := some "focus" }, .claim referenceClaim]

theorem referenceCore_keepsCompletions : referenceCore.KeepsCompletions where
  mutation request plan h _ lifecycle hlifecycle := by
    cases h
    cases hlifecycle
    show request.context.Kept (referenceContext request)
    unfold referenceContext
    split
    · exact ⟨List.subset_append_left _ _, Nat.le_succ _⟩
    · exact .refl _
  install request state h := by
    cases h
    exact .refl _

/-- With no completion stored, the response to the claim installs what it should. -/
theorem reference_completion_kept :
    (∀ install, Installs { referenceCore with completionInstall := install }
      (referenceResponse referenceSaved 6) referenceClaimed) ∧
    referenceDatabase.completion.Kept (run referenceCore referenceDatabase
      [.mutate referenceMutation, .claim referenceClaim,
        .syncResponse (referenceResponse referenceSaved 6)]).completion := by
  obtain ⟨⟨written, plan⟩, happlied, hkind⟩ := exists_ok
    (x := applySyncResponse referenceCore (referenceResponse referenceSaved 6) referenceClaimed)
    (p := fun result => result.2.applies) (by decide +kernel)
  constructor
  · cases plan with
    | ignored => cases hkind
    | stale => cases hkind
    | apply plan =>
      refine ((completion_survives_iff _).1 _ _ written plan happlied).mpr (Or.inr ?_)
      decide +kernel
  · exact (completion_survives_iff _).2 _ _ referenceCore_keepsCompletions
      ⟨trivial, trivial, Or.inr (by decide +kernel), trivial⟩

/-- The response to a claim that was made after a completion forgets the
completion. -/
theorem reference_completion_lost :
    ¬ Installs referenceCore (referenceResponse referenceSaved 6)
      (run referenceCore referenceDatabase referenceCompletion) ∧
    referenceCore.KeepsCompletions ∧
    (run referenceCore referenceDatabase referenceCompletion).completion =
      ⟨⟨"focus", 1, false⟩, ⟨["focus"], [], []⟩⟩ ∧
    (run referenceCore referenceDatabase (referenceCompletion ++
      [.syncResponse (referenceResponse referenceSaved 6)])).completion =
      ⟨⟨"focus", 0, false⟩, ⟨[], [], []⟩⟩ := by
  refine ⟨?_, referenceCore_keepsCompletions, by decide +kernel, by decide +kernel⟩
  intro hinstalls
  obtain ⟨⟨written, plan⟩, happlied, hkind⟩ := exists_ok
    (x := applySyncResponse referenceCore (referenceResponse referenceSaved 6)
      (run referenceCore referenceDatabase referenceCompletion))
    (p := fun result => result.2.applies ∧
      ¬ (run referenceCore referenceDatabase referenceCompletion).completion.Kept
        result.1.completion) (by decide +kernel)
  obtain ⟨happlies, hlost⟩ := of_decide_eq_true hkind
  cases plan with
  | ignored => cases happlies
  | stale => cases happlies
  | apply plan => exact hlost (hinstalls.kept referenceCore_keepsCompletions happlied)

end Pomodorough.Web
