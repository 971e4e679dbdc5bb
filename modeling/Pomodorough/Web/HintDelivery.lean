import Mathlib.Order.Nat
import Pomodorough.Web.SyncCoordinator

/-! # Which revision hints are followed

A hint arms the timer with a forced sync. Every failure arms it again, but for a sync
that is not forced, and a sync that is not forced ends at its preflight where the
queues are empty. There, and only there, a hint is lost. -/
namespace Pomodorough.Web
open Pomodorough.Library SyncCoordinator

namespace SyncCoordinator
variable {tab : SyncCoordinator} {operation : SyncOperation} {queues : Queues}

@[simp] theorem finish_syncPromise : (finish tab).syncPromise = none := by
  unfold finish
  split <;> rfl

@[simp] theorem finish_syncAgain : (finish tab).syncAgain = false := by
  unfold finish
  split <;> rfl

@[simp] theorem finish_revision : (finish tab).revision = tab.revision := by
  unfold finish
  split <;> rfl

@[simp] theorem finish_attempts : (finish tab).attempts = tab.attempts := by
  unfold finish
  split <;> rfl

/-- An operation leaves an armed timer armed, and arms it where it runs again. -/
theorem finish_armed (h : tab.retryTimer ≠ none ∨ tab.syncAgain = true)
    (hretry : tab.retrying = false) : (finish tab).retryTimer ≠ none := by
  unfold finish
  split
  · simp [scheduleSync]
  next hagain =>
    rcases h with harmed | hrun
    · exact harmed
    · simp [hrun, hretry] at hagain

/-- Where nothing asks for another operation, none is scheduled. -/
theorem finish_idle (htimer : tab.retryTimer = none) (hagain : tab.syncAgain = false) :
    (finish tab).retryTimer = none ∧ (finish tab).retrying = tab.retrying := by
  simp [finish, htimer, hagain]

@[simp] theorem defer_syncPromise : (defer tab).syncPromise = none := finish_syncPromise

@[simp] theorem defer_syncAgain : (defer tab).syncAgain = false := finish_syncAgain

@[simp] theorem defer_revision : (defer tab).revision = tab.revision := finish_revision

@[simp] theorem defer_attempts : (defer tab).attempts = tab.attempts := finish_attempts

/-- After an error the timer is armed, whatever else was asked for. -/
theorem defer_armed : (defer tab).retryTimer ≠ none := by
  simp [defer, finish, scheduleRetry]

@[simp] theorem complete_syncPromise {revision : Nat} :
    (complete queues revision tab).syncPromise = none := finish_syncPromise

@[simp] theorem complete_syncAgain {revision : Nat} :
    (complete queues revision tab).syncAgain = false := finish_syncAgain

@[simp] theorem complete_revision {revision : Nat} :
    (complete queues revision tab).revision = revision := finish_revision

@[simp] theorem complete_attempts {revision : Nat} :
    (complete queues revision tab).attempts = tab.attempts := finish_attempts

theorem complete_armed {revision : Nat} (h : tab.retryTimer ≠ none ∨ tab.syncAgain = true) :
    (complete queues revision tab).retryTimer ≠ none := by
  refine finish_armed ?_ rfl
  rcases h with harmed | hagain
  · exact .inl harmed
  · exact .inr (by simp [hagain])

@[simp] theorem preflight_revision : (preflight operation queues tab).revision = tab.revision := by
  unfold preflight
  split
  · exact finish_revision
  · rfl

@[simp] theorem preflight_attempts : (preflight operation queues tab).attempts = tab.attempts := by
  unfold preflight
  split
  · exact finish_attempts
  · rfl

/-- A preflight ends the operation or lets it go on to its claim. -/
theorem preflight_cases :
    (operation.force = false ∧ hasPendingOperations queues = false ∧
      preflight operation queues tab = finish { tab with pending := queues, retrying := false }) ∨
    preflight operation queues tab =
      await operation .claimWorkspaceBatch { tab with pending := queues, retrying := false } := by
  unfold preflight
  split
  next h =>
    simp only [Bool.and_eq_true, Bool.not_eq_true'] at h
    exact .inl ⟨h.1, h.2, rfl⟩
  · exact .inr rfl

/-- A caller joins the running operation. -/
theorem syncNow_running {force : Bool} (h : tab.syncPromise = some operation) :
    syncNow force tab =
      { tab with syncAgain := true, syncAgainForce := tab.syncAgainForce || force } := by
  simp [syncNow, h]

theorem syncNow_idle {force : Bool} (h : tab.syncPromise = none) :
    syncNow force tab =
      { tab with
        syncPromise := some ⟨tab.attempts + 1, force, .readBootstrapState⟩
        attempts := tab.attempts + 1 } := by
  simp [syncNow, h]

@[simp] theorem syncNow_revision {force : Bool} : (syncNow force tab).revision = tab.revision := by
  unfold syncNow
  split <;> rfl

@[simp] theorem runTimer_revision : (runTimer tab).revision = tab.revision := by
  unfold runTimer
  split
  · rfl
  · exact syncNow_revision

@[simp] theorem receiveRevisionHint_revision {hint : Option Nat} :
    (receiveRevisionHint hint tab).revision = tab.revision := by
  unfold receiveRevisionHint
  split <;> rfl

@[simp] theorem receiveRevisionHint_attempts {hint : Option Nat} :
    (receiveRevisionHint hint tab).attempts = tab.attempts := by
  unfold receiveRevisionHint
  split <;> rfl

end SyncCoordinator

/-! ## What a hint is owed -/

/-- The revision of the state that a hint is compared with: that when it came, or the
present one. -/
inductive Comparison where
  | received
  | present

namespace SyncedTab
variable {s : SyncedTab} {hint : RevisionHint} {against : Comparison}

def compared (s : SyncedTab) (hint : RevisionHint) : Comparison → Nat
  | .received => hint.revision
  | .present => s.tab.revision

/-- An operation that started at or after the hint had its response applied. -/
def Followed (s : SyncedTab) (hint : RevisionHint) : Prop :=
  ∃ number ∈ s.applied, hint.attempts < number

/-- The hint exceeds the revision of the state and was not followed. -/
def Owed (against : Comparison) (s : SyncedTab) (hint : RevisionHint) : Prop :=
  exceeds hint.hinted (s.compared hint against) = true ∧ ¬ s.Followed hint

/-- No operation runs or is to run again, no timer is armed and nothing is retried. -/
structure Quiescent (s : SyncedTab) : Prop where
  idle : s.tab.syncPromise = none
  again : s.tab.syncAgain = false
  timer : s.tab.retryTimer = none
  retrying : s.tab.retrying = false

/-- The event lets an operation that is not forced find the queues empty, while a hint
is owed and neither the timer nor another caller will start an operation. -/
structure LosesHint (against : Comparison) (s : SyncedTab) (queues : Queues)
    (operation : SyncOperation) : Prop where
  running : s.tab.syncPromise = some operation
  refreshed : operation.awaited = .refreshAllPendingOperations
  unforced : operation.force = false
  empty : hasPendingOperations queues = false
  timer : s.tab.retryTimer = none
  again : s.tab.syncAgain = false
  owed : ∃ hint ∈ s.hints, s.Owed against hint

def Loses (against : Comparison) (s : SyncedTab) (e : SyncEvent) : Prop :=
  ∃ queues operation, e = .succeeded queues ∧ s.LosesHint against queues operation

/-! ## The operations and the revisions of a run -/

/-- The running operation is the last that started, and revisions only grow. -/
structure Ordered (s : SyncedTab) : Prop where
  number : ∀ operation, s.tab.syncPromise = some operation → operation.number = s.tab.attempts
  received : ∀ hint ∈ s.hints, hint.attempts ≤ s.tab.attempts
  revision : s.tab.revision ≤ s.stored
  stored : s.stored ≤ s.server
  response : ∀ operation revision, s.tab.syncPromise = some operation →
    operation.awaited = .applySyncResponse revision → s.stored ≤ revision ∧ revision ≤ s.server
  reload : ∀ operation, s.tab.syncPromise = some operation →
    operation.awaited = .reloadPersistedState → operation.number ∈ s.applied

/-- A tab without an operation, on the revisions of before. -/
theorem Ordered.ended {tab : SyncCoordinator} (h : s.Ordered) (hidle : tab.syncPromise = none)
    (hrevision : tab.revision ≤ s.stored) (hattempts : tab.attempts = s.tab.attempts) :
    (s.withTab tab).Ordered where
  number := by simp [withTab, hidle]
  received := by simpa [withTab, hattempts] using h.received
  revision := hrevision
  stored := h.stored
  response := by simp [withTab, hidle]
  reload := by simp [withTab, hidle]

/-- A tab with the operation of before. -/
theorem Ordered.continued {tab : SyncCoordinator} (h : s.Ordered)
    (hpromise : tab.syncPromise = s.tab.syncPromise) (hrevision : tab.revision = s.tab.revision)
    (hattempts : tab.attempts = s.tab.attempts) : (s.withTab tab).Ordered where
  number := by simpa [withTab, hpromise, hattempts] using h.number
  received := by simpa [withTab, hattempts] using h.received
  revision := by simpa [withTab, hrevision] using h.revision
  stored := h.stored
  response := by simpa [withTab, hpromise] using h.response
  reload := by simpa [withTab, hpromise] using h.reload

/-- The running operation awaits something else. -/
theorem Ordered.awaits {tab : SyncCoordinator} {operation : SyncOperation} {awaited : Awaited}
    (h : s.Ordered) (hrunning : s.tab.syncPromise = some operation)
    (hpromise : tab.syncPromise = some { operation with awaited := awaited })
    (hrevision : tab.revision = s.tab.revision) (hattempts : tab.attempts = s.tab.attempts)
    (hresponse : ∀ revision, awaited = .applySyncResponse revision →
      s.stored ≤ revision ∧ revision ≤ s.server)
    (hreload : awaited = .reloadPersistedState → operation.number ∈ s.applied) :
    (s.withTab tab).Ordered where
  number := by
    intro next hnext
    obtain rfl : _ = next := Option.some.inj (hpromise.symm.trans hnext)
    exact (h.number operation hrunning).trans hattempts.symm
  received := by simpa [withTab, hattempts] using h.received
  revision := by simpa [withTab, hrevision] using h.revision
  stored := h.stored
  response := by
    intro next revision hnext hawaited
    obtain rfl : _ = next := Option.some.inj (hpromise.symm.trans hnext)
    exact hresponse revision hawaited
  reload := by
    intro next hnext hawaited
    obtain rfl : _ = next := Option.some.inj (hpromise.symm.trans hnext)
    exact hreload hawaited

theorem Ordered.syncNow {force : Bool} {tab : SyncCoordinator} (h : s.Ordered)
    (hpromise : tab.syncPromise = s.tab.syncPromise) (hrevision : tab.revision = s.tab.revision)
    (hattempts : tab.attempts = s.tab.attempts) :
    (s.withTab (SyncCoordinator.syncNow force tab)).Ordered := by
  cases hrunning : tab.syncPromise with
  | some operation =>
    rw [syncNow_running hrunning]
    exact h.continued hpromise hrevision hattempts
  | none =>
    rw [syncNow_idle hrunning]
    refine ⟨?_, ?_, hrevision.trans_le h.revision, h.stored, ?_, ?_⟩
    · rintro operation ⟨⟩
      rfl
    · intro hint hmem
      exact (h.received hint hmem).trans (hattempts ▸ Nat.le_succ _)
    · rintro operation revision ⟨⟩ hawaited
      cases hawaited
    · rintro operation ⟨⟩ hawaited
      cases hawaited

/-- In one tab no response is older than the stored snapshot. -/
theorem Ordered.applyResponse {operation : SyncOperation} {revision : Nat} (h : s.Ordered)
    (hrunning : s.tab.syncPromise = some operation)
    (hawaited : operation.awaited = .applySyncResponse revision) :
    s.applyResponse operation.number revision =
      { s with stored := revision, applied := operation.number :: s.applied } := by
  have hstored := (h.response operation revision hrunning hawaited).1
  simp [SyncedTab.applyResponse, Nat.not_lt.mpr hstored]

theorem Ordered.resume {operation : SyncOperation} {queues : Queues} (h : s.Ordered)
    (hrunning : s.tab.syncPromise = some operation) : (s.resume operation queues).Ordered := by
  unfold SyncedTab.resume
  split
  next => exact h.awaits hrunning rfl rfl rfl (by simp) (by simp)
  next =>
    rcases @preflight_cases s.tab operation queues with
      ⟨_, _, hended⟩ | hclaims
    · rw [hended]
      exact h.ended finish_syncPromise (by simpa using h.revision) (by simp)
    · rw [hclaims]
      exact h.awaits hrunning rfl rfl rfl (by simp) (by simp)
  next => exact h.awaits hrunning rfl rfl rfl (by simp) (by simp)
  next =>
    refine h.awaits hrunning rfl rfl rfl ?_ (by simp)
    rintro revision ⟨⟩
    exact ⟨h.stored, le_rfl⟩
  next revision hawaited =>
    obtain ⟨hstored, hserver⟩ := h.response operation revision hrunning hawaited
    rw [h.applyResponse hrunning hawaited]
    have happlied : Ordered
        { s with stored := revision, applied := operation.number :: s.applied } := by
      refine ⟨h.number, h.received, h.revision.trans hstored, hserver, ?_, ?_⟩
      · intro next later hnext hlater
        obtain rfl : operation = next := Option.some.inj (hrunning.symm.trans hnext)
        obtain rfl : revision = later := by simpa [hawaited] using hlater
        exact ⟨le_rfl, hserver⟩
      · intro next hnext hlater
        exact List.mem_cons_of_mem _ (h.reload next hnext hlater)
    exact happlied.awaits hrunning rfl rfl rfl (by simp) (by simp)
  next => exact h.ended complete_syncPromise (by simp) (by simp)

theorem Ordered.step (h : s.Ordered) (e : SyncEvent) : (s.step e).Ordered := by
  cases e with
  | serverCommit =>
    refine ⟨h.number, h.received, h.revision, h.stored.trans (Nat.le_succ _), ?_, h.reload⟩
    intro operation revision hrunning hawaited
    obtain ⟨hstored, hserver⟩ := h.response operation revision hrunning hawaited
    exact ⟨hstored, hserver.trans (Nat.le_succ _)⟩
  | revisionHint hinted =>
    have htab : (s.withTab (receiveRevisionHint hinted s.tab)).Ordered := by
      unfold receiveRevisionHint
      split
      · exact h.continued rfl rfl rfl
      · exact h
    refine ⟨htab.number, ?_, htab.revision, htab.stored, htab.response, htab.reload⟩
    intro hint hmem
    rcases List.mem_cons.mp hmem with rfl | hmem
    · exact receiveRevisionHint_attempts.ge
    · exact htab.received hint hmem
  | scheduleSync delayMs force => exact h.continued rfl rfl rfl
  | syncNow force => exact h.syncNow rfl rfl rfl
  | localChange queues => exact h.continued rfl rfl rfl
  | timer =>
    simp only [SyncedTab.step, runTimer]
    split
    · exact h
    · exact h.syncNow rfl rfl rfl
  | failed =>
    simp only [SyncedTab.step]
    split
    · exact h.ended defer_syncPromise (by simpa using h.revision) (by simp)
    · exact h
  | succeeded queues =>
    simp only [SyncedTab.step]
    split
    next operation hrunning => exact h.resume hrunning
    · exact h

/-! ## What is owed stays owed -/

/-- The state has no older revision, and no applied response is forgotten. -/
structure Later (s t : SyncedTab) : Prop where
  revision : s.tab.revision ≤ t.tab.revision
  applied : ∀ number ∈ s.applied, number ∈ t.applied

theorem Later.of_tab {tab : SyncCoordinator} (h : s.tab.revision ≤ tab.revision) :
    s.Later (s.withTab tab) := ⟨h, fun _ hmem => hmem⟩

theorem Ordered.later (h : s.Ordered) (e : SyncEvent) : s.Later (s.step e) := by
  cases e with
  | serverCommit => exact ⟨le_rfl, fun _ hmem => hmem⟩
  | revisionHint hinted => exact ⟨receiveRevisionHint_revision.ge, fun _ hmem => hmem⟩
  | scheduleSync delayMs force => exact .of_tab le_rfl
  | syncNow force => exact .of_tab syncNow_revision.ge
  | localChange queues => exact .of_tab le_rfl
  | timer => exact .of_tab runTimer_revision.ge
  | failed =>
    simp only [SyncedTab.step]
    split
    · exact .of_tab defer_revision.ge
    · exact ⟨le_rfl, fun _ hmem => hmem⟩
  | succeeded queues =>
    simp only [SyncedTab.step]
    split
    next operation hrunning =>
      unfold SyncedTab.resume
      split
      next => exact .of_tab le_rfl
      next => exact .of_tab preflight_revision.ge
      next => exact .of_tab le_rfl
      next => exact .of_tab le_rfl
      next revision hawaited =>
        rw [h.applyResponse hrunning hawaited]
        exact ⟨le_rfl, fun _ hmem => List.mem_cons_of_mem _ hmem⟩
      next => exact .of_tab (h.revision.trans complete_revision.ge)
    · exact ⟨le_rfl, fun _ hmem => hmem⟩

/-- A newer revision is exceeded by no more hints. -/
theorem exceeds_of_le {hinted : Option Nat} {older newer : Nat} (hle : older ≤ newer)
    (h : exceeds hinted newer = true) : exceeds hinted older = true := by
  cases hinted with
  | none => rfl
  | some revision => exact decide_eq_true (hle.trans_lt (of_decide_eq_true h))

theorem Owed.before {t : SyncedTab} (h : t.Owed against hint) (hlater : s.Later t) :
    s.Owed against hint := by
  obtain ⟨hexceeds, hunfollowed⟩ := h
  refine ⟨?_, ?_⟩
  · cases against with
    | received => exact hexceeds
    | present => exact exceeds_of_le hlater.revision hexceeds
  · rintro ⟨number, hmem, hlt⟩
    exact hunfollowed ⟨number, hlater.applied number hmem, hlt⟩

/-! ## What stands for an owed hint -/

/-- While a hint is owed, an operation runs or the timer is armed; where the operation
started before the hint, another is to follow it. -/
structure Covered (against : Comparison) (s : SyncedTab) : Prop where
  again : s.tab.syncPromise = none → s.tab.syncAgain = false
  armed : s.tab.syncPromise = none → ∀ hint ∈ s.hints, s.Owed against hint →
    s.tab.retryTimer ≠ none
  followed : ∀ operation, s.tab.syncPromise = some operation → ∀ hint ∈ s.hints,
    s.Owed against hint → operation.number ≤ hint.attempts →
    s.tab.retryTimer ≠ none ∨ s.tab.syncAgain = true

/-- An armed timer stands for every hint. -/
theorem Covered.of_armed (hagain : s.tab.syncPromise = none → s.tab.syncAgain = false)
    (htimer : s.tab.retryTimer ≠ none) : s.Covered against :=
  ⟨hagain, fun _ _ _ _ => htimer, fun _ _ _ _ _ _ => .inl htimer⟩

/-- The running operation awaits something else; the timer and the flag are as before. -/
theorem Covered.awaits {t : SyncedTab} {operation next : SyncOperation}
    (h : s.Covered against) (hrunning : s.tab.syncPromise = some operation)
    (hnext : t.tab.syncPromise = some next) (hnumber : next.number = operation.number)
    (hhints : t.hints = s.hints) (htimer : t.tab.retryTimer = s.tab.retryTimer)
    (hagain : t.tab.syncAgain = s.tab.syncAgain) (hlater : s.Later t) :
    t.Covered against := by
  refine ⟨by simp [hnext], by simp [hnext], ?_⟩
  intro last hlast hint hmem howed hle
  obtain rfl : next = last := Option.some.inj (hnext.symm.trans hlast)
  rw [htimer, hagain]
  exact h.followed operation hrunning hint (hhints ▸ hmem) (howed.before hlater)
    (hnumber ▸ hle)

/-- A caller joins the operation or starts one, which follows every hint so far. -/
theorem Ordered.covers_syncNow {force : Bool} (h : s.Ordered) :
    (s.withTab (SyncCoordinator.syncNow force s.tab)).Covered against := by
  cases hrunning : s.tab.syncPromise with
  | some operation =>
    rw [syncNow_running hrunning]
    refine ⟨?_, ?_, fun _ _ _ _ _ _ => .inr rfl⟩ <;> simp [withTab, hrunning]
  | none =>
    rw [syncNow_idle hrunning]
    refine ⟨by simp [withTab], by simp [withTab], ?_⟩
    rintro operation ⟨⟩ hint hmem _ hle
    exact absurd (h.received hint hmem) (Nat.not_le.mpr hle)

/-- The preflight loses no owed hint, where the event is not one that loses hints. -/
theorem Covered.preflight {operation : SyncOperation} {queues : Queues} (h : s.Covered against)
    (hrunning : s.tab.syncPromise = some operation)
    (hawaited : operation.awaited = .refreshAllPendingOperations)
    (hkeeps : ¬ s.LosesHint against queues operation) :
    (s.withTab (SyncCoordinator.preflight operation queues s.tab)).Covered against := by
  rcases @preflight_cases s.tab operation queues with
    ⟨hunforced, hempty, hended⟩ | hclaims
  · rw [hended]
    refine ⟨fun _ => finish_syncAgain, ?_, by simp [withTab]⟩
    intro _ hint hmem howed
    -- without an armed timer or another caller this hint would be lost
    refine finish_armed ?_ rfl
    by_contra hnothing
    simp only [ne_eq, not_or, not_not, Bool.not_eq_true] at hnothing
    exact hkeeps ⟨hrunning, hawaited, hunforced, hempty, hnothing.1, hnothing.2, hint, hmem,
      howed.before (.of_tab (by simp))⟩
  · rw [hclaims]
    exact h.awaits hrunning rfl rfl rfl rfl rfl (.of_tab le_rfl)

/-- What the operation awaits succeeds. -/
theorem Covered.resume {operation : SyncOperation} {queues : Queues} (h : s.Covered against)
    (hordered : s.Ordered) (hrunning : s.tab.syncPromise = some operation)
    (hkeeps : ¬ s.LosesHint against queues operation) :
    (s.resume operation queues).Covered against := by
  unfold SyncedTab.resume
  split
  next => exact h.awaits hrunning rfl rfl rfl rfl rfl (.of_tab le_rfl)
  next hawaited => exact h.preflight hrunning hawaited hkeeps
  next => exact h.awaits hrunning rfl rfl rfl rfl rfl (.of_tab le_rfl)
  next => exact h.awaits hrunning rfl rfl rfl rfl rfl (.of_tab le_rfl)
  next revision hawaited =>
    rw [hordered.applyResponse hrunning hawaited]
    exact h.awaits hrunning rfl rfl rfl rfl rfl
      ⟨le_rfl, fun _ hmem => List.mem_cons_of_mem _ hmem⟩
  next hawaited =>
    refine ⟨fun _ => complete_syncAgain, ?_, by simp [withTab]⟩
    intro _ hint hmem howed
    -- the response was applied: a hint that is still owed came after the operation started
    have hafter : operation.number ≤ hint.attempts := by
      by_contra hlt
      exact howed.2 ⟨_, hordered.reload operation hrunning hawaited, Nat.not_le.mp hlt⟩
    have hbefore := howed.before (.of_tab (hordered.revision.trans complete_revision.ge))
    exact complete_armed (h.followed operation hrunning hint hmem hbefore hafter)

theorem Covered.step (h : s.Covered against) (hordered : s.Ordered) {e : SyncEvent}
    (hkeeps : ¬ s.Loses against e) : (s.step e).Covered against := by
  cases e with
  | serverCommit => exact ⟨h.again, h.armed, h.followed⟩
  | revisionHint hinted =>
    simp only [SyncedTab.step, receiveRevisionHint]
    split
    · exact .of_armed h.again (by simp [scheduleSync])
    next hlow =>
      -- the new hint exceeds nothing: neither the revision then nor the present one
      have hold : ∀ hint ∈ (⟨hinted, s.tab.revision, s.tab.attempts⟩ :: s.hints : List _),
          s.Owed against hint → hint ∈ s.hints := by
        intro hint hmem howed
        rcases List.mem_cons.mp hmem with rfl | hmem
        · cases against <;> exact absurd howed.1 hlow
        · exact hmem
      refine ⟨h.again, ?_, ?_⟩
      · intro hidle hint hmem howed
        exact h.armed hidle hint (hold hint hmem howed) howed
      · intro operation hrunning hint hmem howed
        exact h.followed operation hrunning hint (hold hint hmem howed) howed
  | scheduleSync delayMs force => exact .of_armed h.again (Option.some_ne_none _)
  | syncNow force => exact hordered.covers_syncNow
  | localChange queues => exact ⟨h.again, h.armed, h.followed⟩
  | timer =>
    simp only [SyncedTab.step, runTimer]
    split
    · exact h
    next timer _ =>
      have hfired : (s.withTab { s.tab with retryTimer := none }).Ordered :=
        hordered.continued rfl rfl rfl
      exact hfired.covers_syncNow
  | failed =>
    simp only [SyncedTab.step]
    split
    · exact .of_armed (fun _ => defer_syncAgain) defer_armed
    · exact h
  | succeeded queues =>
    simp only [SyncedTab.step]
    split
    next operation hrunning =>
      exact h.resume hordered hrunning fun hloses => hkeeps ⟨queues, operation, rfl, hloses⟩
    · exact h

/-- A quiescent tab owes nothing. -/
theorem Covered.quiescent (h : s.Covered against) (hquiet : s.Quiescent)
    (hmem : hint ∈ s.hints) : ¬ s.Owed against hint :=
  fun howed => h.armed hquiet.idle hint hmem howed hquiet.timer

/-- Where a hint is lost the tab comes to rest and still owes it. -/
theorem LosesHint.rests {queues : Queues} {operation : SyncOperation}
    (h : s.LosesHint against queues operation) :
    (s.step (.succeeded queues)).Quiescent ∧
      ∃ hint ∈ (s.step (.succeeded queues)).hints, (s.step (.succeeded queues)).Owed against hint := by
  obtain ⟨hint, hmem, howed⟩ := h.owed
  have hstep : s.step (.succeeded queues) =
      s.withTab (finish { s.tab with pending := queues, retrying := false }) := by
    simp [SyncedTab.step, h.running, SyncedTab.resume, h.refreshed, SyncCoordinator.preflight,
      h.unforced, h.empty]
  rw [hstep]
  obtain ⟨htimer, hretrying⟩ := @finish_idle
    { s.tab with pending := queues, retrying := false } h.timer h.again
  refine ⟨⟨finish_syncPromise, finish_syncAgain, htimer, hretrying⟩, hint, hmem, ?_, howed.2⟩
  cases against with
  | received => exact howed.1
  | present => simpa [compared, withTab] using howed.1

theorem start_ordered (queues : Queues) (revision ahead : Nat) :
    (start queues revision ahead).Ordered := by
  constructor <;> simp [start, create]

theorem start_covered (queues : Queues) (revision ahead : Nat) :
    (start queues revision ahead).Covered against := by
  constructor <;> simp [start, create]

/-- In a run that loses no hint every owed hint is covered. -/
theorem covered_of_keeps {queues : Queues} {revision ahead : Nat} {events : List SyncEvent}
    (h : Traces.Meets step (fun s e => ¬ s.Loses against e) (start queues revision ahead) events) :
    (Traces.run step (start queues revision ahead) events).Ordered ∧
      (Traces.run step (start queues revision ahead) events).Covered against := by
  refine Traces.invariant (I := fun s => s.Ordered ∧ s.Covered against) ?_
    ⟨start_ordered .., start_covered ..⟩ h
  rintro s e ⟨hordered, hcovered⟩ hkeeps
  exact ⟨hordered.step e, hcovered.step hordered hkeeps⟩

/-- Whenever the tab comes to rest, every hint that exceeds the revision of the state was
followed by an operation whose response was applied, exactly if no operation that is not
forced finds the queues empty while a hint is owed and nothing else will start one. -/
theorem hints_are_followed_iff (against : Comparison) (queues : Queues) (revision ahead : Nat)
    (events : List SyncEvent) :
    (∀ before after, events = before ++ after →
      (Traces.run step (start queues revision ahead) before).Quiescent →
      ∀ hint ∈ (Traces.run step (start queues revision ahead) before).hints,
        exceeds hint.hinted
          ((Traces.run step (start queues revision ahead) before).compared hint against) = true →
        (Traces.run step (start queues revision ahead) before).Followed hint) ↔
    Traces.Meets step (fun s e => ¬ s.Loses against e) (start queues revision ahead) events := by
  constructor
  · intro h
    rw [Traces.meets_iff]
    rintro before e after rfl ⟨answer, operation, rfl, hloses⟩
    obtain ⟨hquiet, hint, hmem, hexceeds, hunfollowed⟩ := hloses.rests
    have hrun : Traces.run step (start queues revision ahead) (before ++ [.succeeded answer]) =
        (Traces.run step (start queues revision ahead) before).step (.succeeded answer) := by simp
    rw [← hrun] at hquiet hmem hexceeds hunfollowed
    exact hunfollowed (h (before ++ [.succeeded answer]) after (by simp) hquiet hint hmem hexceeds)
  · rintro h before after rfl hquiet hint hmem hexceeds
    have hcovered := (covered_of_keeps (Traces.meets_append.mp h).1).2
    by_contra hunfollowed
    exact hcovered.quiescent hquiet hmem ⟨hexceeds, hunfollowed⟩

/-- The queues stay empty; a hint arms the timer, the bootstrap state cannot be read, and
the retry finds nothing to send. -/
def unreadGate : List SyncEvent :=
  [.serverCommit, .revisionHint (some 1), .timer, .failed, .timer,
    .succeeded fun _ => [], .succeeded fun _ => []]

/-- The tab comes to rest below the revision of a hint that no operation followed. -/
theorem hints_are_followed_fails : ∃ before after, unreadGate = before ++ after ∧
    (Traces.run step (start (fun _ => []) 0 0) before).Quiescent ∧
    ∃ hint ∈ (Traces.run step (start (fun _ => []) 0 0) before).hints,
      (∀ against, exceeds hint.hinted
        ((Traces.run step (start (fun _ => []) 0 0) before).compared hint against) = true) ∧
      ¬ (Traces.run step (start (fun _ => []) 0 0) before).Followed hint := by
  refine ⟨unreadGate, [], rfl, ⟨rfl, rfl, rfl, rfl⟩, ⟨some 1, 0, 0⟩, List.mem_singleton.mpr rfl,
    ?_, ?_⟩
  · intro against
    cases against <;> rfl
  · rintro ⟨number, hmem, _⟩
    exact List.not_mem_nil hmem

end SyncedTab

end Pomodorough.Web
