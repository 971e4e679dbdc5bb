import Pomodorough.Store.Resolutions

/-! # The revision law

The revision counts the transactions that changed something: an operation log,
or the timer projection at the precision in which it is stored. A replacement
compares whole logs and an emptied projection instead. -/
namespace Pomodorough.Store.Revisions
open Pomodorough.Library.Fallible Pomodorough.Library.KeyedLog
open Pomodorough.Store.Records Pomodorough.Store.SharedCoreValidation
open Pomodorough.Store.SharedCore Pomodorough.Store.OperationLogs
open Pomodorough.Store.OperationDomains Pomodorough.Store.Sync Pomodorough.Store.Bootstrap
open Pomodorough.Store.Transactions Pomodorough.Store.AccountRuns Pomodorough.Store.Resolutions

variable {core : Core} {sha256 : Sha256} {s t u v : UserTables} {now : Time} {call : Call}
  {reduction : AccountReduction} {event : Event} {events : List Event} {result : SyncResult}

/-! ## Projections at millisecond precision -/

/-- A session at millisecond precision; the zero time is an absent one. -/
structure MilliSession where
  timerID : String
  taskID : String
  phase : String
  status : String
  plannedDurationMs : Int
  elapsedAtAnchorMs : Int
  anchorAt : Option Int
  startedAt : Option Int
  endedAt : Option Int
  lastCommandID : String
  terminalCommandID : String
  supersededByTimerID : String
  deriving DecidableEq, Repr

def atMilli (session : TimerSession) : MilliSession where
  timerID := session.timerID
  taskID := session.taskID
  phase := session.phase
  status := session.status
  plannedDurationMs := session.plannedDurationMs
  elapsedAtAnchorMs := session.elapsedAtAnchorMs
  anchorAt := unixMilli session.anchorAt
  startedAt := unixMilli session.startedAt
  endedAt := unixMilli session.endedAt
  lastCommandID := session.lastCommandID
  terminalCommandID := session.terminalCommandID
  supersededByTimerID := session.supersededByTimerID

/-- The current timer and the sessions, in the order of their timers. -/
structure MilliProjection where
  currentID : String
  sessions : List MilliSession
  deriving DecidableEq, Repr

def storedProjection (t : UserTables) : MilliProjection :=
  ⟨loadCurrentTimerProjectionID t, (loadTimerSessionProjection t).map atMilli⟩

def reducedProjection (result : TimerResult) : MilliProjection :=
  ⟨(result.canonical.map CanonicalTimer.id).getD "", result.sessions.map atMilli⟩

theorem sameProjectedTime_iff {left right : Time} :
    sameProjectedTime left right = true ↔ unixMilli left = unixMilli right := by
  unfold sameProjectedTime unixMilli
  cases left.isZero <;> cases right.isZero <;> simp

theorem sameProjectedSession_iff {stored session : TimerSession} :
    sameProjectedSession stored session = true ↔ atMilli stored = atMilli session := by
  simp only [sameProjectedSession, atMilli, Bool.and_eq_true, decide_eq_true_eq,
    sameProjectedTime_iff, MilliSession.mk.injEq, and_assoc]

theorem sameTimerSessionProjection_iff {persisted reduced : List TimerSession} :
    sameTimerSessionProjection persisted reduced = true ↔
      persisted.map atMilli = reduced.map atMilli := by
  induction persisted generalizing reduced with
  | nil => cases reduced <;> simp [sameTimerSessionProjection]
  | cons stored persisted ih =>
    cases reduced with
    | nil => simp [sameTimerSessionProjection]
    | cons session reduced =>
      simp [sameTimerSessionProjection, sameProjectedSession_iff, ih]

theorem timerProjectionChanged_iff {timer : TimerResult} :
    timerProjectionChanged t timer = true ↔ storedProjection t ≠ reducedProjection timer := by
  simp only [timerProjectionChanged, storedProjection, reducedProjection, Bool.or_eq_true,
    decide_eq_true_eq, Bool.not_eq_true', ne_eq, MilliProjection.mk.injEq, not_and_or,
    ← sameTimerSessionProjection_iff, Bool.not_eq_true]

theorem storedProjection_congr (h : SameBesideLogs t u) : storedProjection u = storedProjection t := by
  unfold storedProjection loadCurrentTimerProjectionID loadTimerSessionProjection
  rw [h.currentTimerID, h.timerSessions]

/-! ## Logs that differ -/

/-- The two states store different operations in some log. -/
def LogsDiffer (s t : UserTables) : Prop :=
  ∃ (d : Domain) (x : d.Operation), ¬ (x ∈ d.log s ↔ x ∈ d.log t)

/-- Some operation was inserted. -/
def Inserted (s t : UserTables) : Prop := ∃ d : Domain, ∃ x ∈ d.log t, x ∉ d.log s

/-- What is loaded tells which operations are stored. -/
theorem loaded_eq_iff (hs : ValidLogs s) (ht : ValidLogs t) (d : Domain) :
    d.loaded s = d.loaded t ↔ ∀ x, x ∈ d.log s ↔ x ∈ d.log t := by
  constructor
  · intro h x
    rw [← d.loaded_perm.mem_iff, h, d.loaded_perm.mem_iff]
  · intro h
    have hnodup : ∀ {u : UserTables}, ValidLogs u → (d.log u).Nodup := fun hu =>
      (hu.distinct d).of_map
    exact d.loaded_eq_of_perm (hs.distinct d)
      ((List.perm_ext_iff_of_nodup (hnodup hs) (hnodup ht)).mpr h)

theorem equalSelectedTaskOperations_iff {left right : List SelectedTaskOperation}
    (hl : ∀ x ∈ left, x.occurredAt.zone = 0) (hr : ∀ x ∈ right, x.occurredAt.zone = 0) :
    equalSelectedTaskOperations left right = true ↔ left = right := by
  induction left generalizing right with
  | nil => cases right <;> simp [equalSelectedTaskOperations]
  | cons l left ih =>
    cases right with
    | nil => simp [equalSelectedTaskOperations]
    | cons r right =>
      have hl' : l.occurredAt.zone = 0 := hl l (by simp)
      have hr' : r.occurredAt.zone = 0 := hr r (by simp)
      have htime : l.occurredAt.equal r.occurredAt = true ↔ l.occurredAt = r.occurredAt := by
        rw [Time.equal_iff_eq_utc hl']
        have hutc : r.occurredAt.utc = r.occurredAt := by
          unfold Time.utc
          rw [← hr']
        rw [hutc]
      have htail := ih (fun x hx => hl x (List.mem_cons_of_mem l hx))
        (fun x hx => hr x (List.mem_cons_of_mem r hx))
      cases l
      cases r
      simp only [equalSelectedTaskOperations, Bool.and_eq_true, decide_eq_true_eq, htail, htime,
        List.cons.injEq, SelectedTaskOperation.mk.injEq, and_assoc]

/-- A replacement counts as a change exactly where some log differs. -/
theorem replacementChanged_iff {before after : AccountReduction} (hs : ValidLogs s)
    (hu : ValidLogs u) (hbefore : Reduces s before) (hafter : Reduces u after) :
    replacementChanged before after = true ↔ LogsDiffer s u := by
  have hutc : ∀ {t : UserTables}, ValidLogs t → ∀ x ∈ loadSelectedTaskOperations t,
      x.occurredAt.zone = 0 := fun ht x hx =>
    ht.utc .selectedTask x ((Domain.loaded_perm .selectedTask).mem_iff.mp hx)
  have hdiffer : LogsDiffer s u ↔ ∃ d : Domain, d.loaded s ≠ d.loaded u := by
    unfold LogsDiffer
    refine exists_congr fun d => ?_
    rw [ne_eq, loaded_eq_iff hs hu d, not_forall]
  rw [hdiffer, Domain.exists_iff]
  unfold replacementChanged
  rw [hbefore.commands, hbefore.taskOperations, hbefore.durationOperations,
    hbefore.autoStartOperations, hbefore.selectedTaskOperations, hafter.commands,
    hafter.taskOperations, hafter.durationOperations, hafter.autoStartOperations,
    hafter.selectedTaskOperations]
  simp only [Bool.or_eq_true, decide_eq_true_eq, Bool.not_eq_true', ← Bool.not_eq_true,
    equalSelectedTaskOperations_iff (hutc hs) (hutc hu), or_assoc, Domain.loaded, ne_eq]

/-- Offering rows changes a log exactly where one is inserted. -/
theorem changed_iff_inserted {request : SyncRequest} {applied : OperationApplication}
    (hs : ValidLogs s) (h : Applied s request u applied) :
    applied.changed = true ↔ Inserted s u := by
  rw [h.changed]
  refine exists_congr fun d => ?_
  constructor
  · intro hne
    obtain ⟨tail, htail⟩ : d.log s <+: d.log u := by
      rw [h.log d]
      exact prefix_offers
    cases tail with
    | nil => exact absurd (by simpa using htail.symm) hne
    | cons x tail =>
      refine ⟨x, by simp [← htail], fun hmem => ?_⟩
      have hnodup : (d.log u).Nodup := ((h.valid hs).distinct d).of_map
      rw [← htail, List.nodup_append] at hnodup
      exact hnodup.2.2 x hmem x (by simp) rfl
  · rintro ⟨x, hx, hnot⟩ heq
    rw [heq] at hx
    exact hnot hx

/-! ## The law of one transaction -/

/-- Whether a call replaces what the server has. -/
def replaces : Call → Bool
  | .resolveBootstrap request => request.strategy = bootstrapReplaceRemote
  | _ => false

/-- The stored resolution a call is answered from. -/
def found (s : UserTables) : Call → Option BootstrapResolution
  | .resolveBootstrap request => s.bootstrapResolutions.lookup request.requestID
  | _ => none

def LogsChanged (call : Call) (s t : UserTables) : Prop :=
  if replaces call then LogsDiffer s t else Inserted s t

/-- The projection a reduction is compared with. -/
def comparedProjection (call : Call) (s : UserTables) : MilliProjection :=
  if replaces call then ⟨"", []⟩ else storedProjection s

/-- The law of a transaction that commits. -/
structure CommitLaw (core : Core) (call : Call) (now : Time) (s t : UserTables)
    (result : SyncResult) : Prop where
  valid : ValidRevision t.revision
  revision : ∃ reduction, reduceAccount core t now = .ok reduction ∧
    (LogsChanged call s t ∨ comparedProjection call s ≠ reducedProjection reduction.timer →
      t.revision = s.revision + 1) ∧
    (¬ (LogsChanged call s t ∨ comparedProjection call s ≠ reducedProjection reduction.timer) →
      t.revision = s.revision)
  reported : result.revision = t.revision

theorem commitLaw_of_commit {changed : Bool} (h : Commit core now u reduction changed v)
    (hrevision : u.revision = s.revision) (ht : t.revision = v.revision)
    (hlogs : ∀ d : Domain, d.log t = d.log u)
    (hchanged : changed = true ↔
      LogsChanged call s t ∨ comparedProjection call s ≠ reducedProjection reduction.timer)
    (hresult : result.revision = v.revision) : CommitLaw core call now s t result := by
  have hvalid : ValidRevision t.revision := ht ▸ h.valid
  have hreduced : reduceAccount core t now = .ok { reduction with revision := t.revision } := by
    rw [reduceAccount_congr hvalid h.reduces.valid fun d => d.loaded_congr (hlogs d), h.reduced]
    rfl
  have hnext := h.revision
  rw [← ht, hrevision] at hnext
  refine ⟨hvalid, ⟨_, hreduced, fun hc => ?_, fun hc => ?_⟩, hresult.trans ht.symm⟩
  · rw [hnext, if_pos (hchanged.mpr hc)]
  · rw [hnext, if_neg fun htrue => hc (hchanged.mp htrue), Int.add_zero]

theorem logsDiffer_congr (h : ∀ d : Domain, d.log t = d.log u) :
    LogsDiffer s t ↔ LogsDiffer s u := by
  unfold LogsDiffer
  simp only [h]

theorem inserted_congr (h : ∀ d : Domain, d.log t = d.log u) : Inserted s t ↔ Inserted s u := by
  unfold Inserted
  simp only [h]

theorem sync_law {request : SyncRequest} (hs : ValidLogs s)
    (h : sync core s request now = .ok (t, result)) :
    CommitLaw core (.sync request) now s t result := by
  obtain ⟨u, applied, reduction, hcommit⟩ := sync_ok h
  have hbase : ValidLogs (recordSyncDevice s request.deviceID now) := hs.ofLogs fun d => by simp
  have happlied := applyOperations_ok hbase.utc hcommit.operations
  refine commitLaw_of_commit hcommit.commit happlied.beside.revision rfl hcommit.commit.log ?_
    hcommit.reported
  have hinserted : Inserted (recordSyncDevice s request.deviceID now) u ↔ Inserted s t := by
    rw [inserted_congr hcommit.commit.log]
    unfold Inserted
    simp only [log_recordSyncDevice]
  have hprojection : storedProjection u = storedProjection s := by
    rw [storedProjection_congr happlied.beside]
    rfl
  rw [Bool.or_eq_true, changed_iff_inserted hbase happlied, timerProjectionChanged_iff, hinserted,
    hprojection]
  rfl

theorem materialize_law (hcall : replaces call = false)
    (h : materializeProjection core s now = .ok (t, result)) :
    CommitLaw core call now s t result := by
  obtain ⟨reduction, hcommit⟩ := materializeProjection_ok h
  refine commitLaw_of_commit hcommit.commit rfl rfl hcommit.commit.log ?_ hcommit.reported
  have hnothing : ¬ Inserted s t := by
    rintro ⟨d, x, hx, hnot⟩
    rw [hcommit.commit.log d] at hx
    exact hnot hx
  unfold LogsChanged comparedProjection
  rw [timerProjectionChanged_iff, hcall]
  simp [hnothing]

theorem resolve_law {request : BootstrapResolutionRequest}
    {application : BootstrapStrategyApplication} (hs : ValidLogs s)
    (h : ResolveCommit core sha256 s request now u application v t result) :
    CommitLaw core (.resolveBootstrap request) now s t result := by
  have hbase := @validLogs_strategyBase s hs request
  have happlied := applyOperations_ok hbase.utc h.applied.operations
  have hu : ValidLogs u := happlied.valid hbase
  have hlogs : ∀ d : Domain, d.log t = d.log u := fun d => by
    rw [← h.commit.log d, h.recorded]
    cases d <;> rfl
  have ht : t.revision = v.revision := by rw [h.recorded]; rfl
  refine commitLaw_of_commit h.commit (happlied.beside.revision.trans strategyBase_revision) ht
    hlogs ?_ h.reported
  rw [Bool.or_eq_true, timerProjectionChanged_iff, storedProjection_congr happlied.beside]
  unfold LogsChanged comparedProjection
  by_cases hstrategy : request.strategy = bootstrapReplaceRemote
  · obtain ⟨before, hbefore, hreduced⟩ := h.applied.before hstrategy
    have hreplaces : replaces (.resolveBootstrap request) = true := decide_eq_true hstrategy
    have hoperations : operationsChanged request.strategy application = true ↔ LogsDiffer s t := by
      unfold operationsChanged
      rw [if_pos hstrategy, hbefore, Option.any_some, logsDiffer_congr hlogs]
      exact replacementChanged_iff hs hu (reduceAccount_ok hreduced) h.commit.reduces
    rw [if_pos hreplaces, if_pos hreplaces, hoperations, strategyBase_replace hstrategy]
    rfl
  · have hreplaces : ¬ replaces (.resolveBootstrap request) = true := by
      show ¬ decide _ = true
      rwa [decide_eq_true_eq]
    have hoperations : operationsChanged request.strategy application = true ↔ Inserted s t := by
      unfold operationsChanged
      rw [if_neg hstrategy, changed_iff_inserted hbase happlied, strategyBase_other hstrategy,
        inserted_congr hlogs]
    rw [if_neg hreplaces, if_neg hreplaces, hoperations, strategyBase_other hstrategy]

/-! ## The law of a run -/

theorem normalizeStoredSyncResult_revision {stored : SyncResult}
    (h : normalizeStoredSyncResult stored = .ok result) : result.revision = stored.revision := by
  unfold normalizeStoredSyncResult at h
  split at h
  · cases h
    rfl
  · obtain ⟨_, -, h⟩ := bind_ok_iff.mp h
    cases h
    rfl

/-- What one call does: a failure changes nothing, a retry is answered with the
revision its first application committed, and everything else commits. -/
def StepLaw (core : Core) (s : UserTables) (event : Event) (t : UserTables) : Prop :=
  match event.answer, found s event.call with
  | .error _, _ => t = s
  | .ok result, some stored => t = s ∧ result.revision = stored.response.revision
  | .ok result, none => CommitLaw core event.call event.now s t result

theorem stepLaw (hs : ValidLogs s) (h : Step core sha256 s event t) : StepLaw core s event t := by
  obtain ⟨call, now, answer⟩ := event
  obtain ⟨result, hanswer, hexec⟩ | ⟨⟨e, hanswer⟩, rfl⟩ := h.cases_answer
  · cases hanswer
    cases call with
    | sync request => exact sync_law hs hexec
    | bootstrap => exact materialize_law rfl hexec
    | history => exact materialize_law rfl hexec
    | resolveBootstrap request =>
      unfold StepLaw found
      dsimp only
      cases hfound : s.bootstrapResolutions.lookup request.requestID with
      | some stored =>
        obtain ⟨ht, hreplay⟩ := resolveBootstrap_of_stored hfound hexec
        exact ⟨ht, by rw [normalizeStoredSyncResult_revision hreplay.result]; rfl⟩
      | none =>
        obtain ⟨stored, hreplay, -⟩ | ⟨u, application, v, hcommit⟩ :=
          resolveBootstrap_ok (validLogs_strategyBase hs).utc hexec
        · rw [hreplay.found] at hfound
          cases hfound
        · exact resolve_law hs hcommit
  · cases hanswer
    rfl

theorem StepLaw.revision (h : StepLaw core s event t) (hs : ValidRevision s.revision) :
    ValidRevision t.revision ∧ s.revision ≤ t.revision := by
  unfold StepLaw at h
  split at h
  · subst h
    exact ⟨hs, le_refl _⟩
  · obtain ⟨rfl, -⟩ := h
    exact ⟨hs, le_refl _⟩
  · obtain ⟨reduction, -, hchanged, hkept⟩ := h.revision
    refine ⟨h.valid, ?_⟩
    by_cases hc : LogsChanged event.call s t ∨
        comparedProjection event.call s ≠ reducedProjection reduction.timer
    · rw [hchanged hc]
      omega
    · rw [hkept hc]

/-- A resolution is stored with the response of the call that committed it. -/
theorem stored_step {id : String} {stored : BootstrapResolution} (hs : ValidLogs s)
    (h : Step core sha256 s event t) (hstored : t.bootstrapResolutions.lookup id = some stored) :
    s.bootstrapResolutions.lookup id = some stored ∨
      event.answer = .ok stored.response ∧ t.revision = stored.response.revision := by
  obtain hearlier | ⟨request, result, u, application, v, -, hanswer, -, rfl, hcommit⟩ :=
    exists_commit_of_stored hs h hstored
  · exact .inl hearlier
  · exact .inr ⟨hanswer, (resolve_law hs hcommit).reported.symm⟩

/-- Every stored response was answered, and its revision committed, by a call of
the run, unless it was stored before. -/
theorem stored_run {id : String} {stored : BootstrapResolution} (hs : ValidLogs s)
    (h : Run core sha256 s events v) (hstored : v.bootstrapResolutions.lookup id = some stored) :
    s.bootstrapResolutions.lookup id = some stored ∨
      ∃ before event after u, events = before ++ event :: after ∧
        Run core sha256 s (before ++ [event]) u ∧ Run core sha256 u after v ∧
        event.answer = .ok stored.response ∧ u.revision = stored.response.revision := by
  induction h with
  | nil => exact .inl hstored
  | @cons s m v event events hstep hrest ih =>
    have hm : ValidLogs m := validLogs_run hs (.cons hstep .nil)
    obtain hearlier | ⟨before, other, after, u, rfl, hbefore, hafter, hanswer⟩ := ih hm hstored
    · obtain hearlier | hanswer := stored_step hs hstep hearlier
      · exact .inl hearlier
      · exact .inr ⟨[], event, events, m, rfl, .cons hstep .nil, hrest, hanswer⟩
    · exact .inr ⟨event :: before, other, after, u, rfl, .cons hstep hbefore, hafter, hanswer⟩

theorem validRevision_run (hs : ValidLogs s) (hrev : ValidRevision s.revision)
    (h : Run core sha256 s events v) : ValidRevision v.revision ∧ s.revision ≤ v.revision := by
  induction h with
  | nil => exact ⟨hrev, le_refl _⟩
  | cons hstep hrest ih =>
    obtain ⟨hvalid, hle⟩ := (stepLaw hs hstep).revision hrev
    obtain ⟨hvalid', hle'⟩ := ih (validLogs_run hs (.cons hstep .nil)) hvalid
    exact ⟨hvalid', hle.trans hle'⟩

/-- The revision law: across a run the revision is one the store accepts and
never decreases, each call obeys the law of one transaction, and the revision a
retry reports was committed by the first application. -/
theorem revision_law (hs : ValidLogs s) (hrev : ValidRevision s.revision)
    (h : Run core sha256 s events v) :
    ValidRevision v.revision ∧ s.revision ≤ v.revision ∧
      (∀ before event after, events = before ++ event :: after → ∃ t u,
        Run core sha256 s before t ∧ Step core sha256 t event u ∧ Run core sha256 u after v ∧
          StepLaw core t event u) ∧
      ∀ id stored, v.bootstrapResolutions.lookup id = some stored →
        s.bootstrapResolutions.lookup id = some stored ∨
          ∃ before event after u, events = before ++ event :: after ∧
            Run core sha256 s (before ++ [event]) u ∧ Run core sha256 u after v ∧
            event.answer = .ok stored.response ∧ u.revision = stored.response.revision := by
  obtain ⟨hvalid, hle⟩ := validRevision_run hs hrev h
  refine ⟨hvalid, hle, ?_, fun id stored hstored => stored_run hs h hstored⟩
  rintro before event after rfl
  obtain ⟨t, hbefore, hrest⟩ := h.split
  cases hrest with
  | @cons _ u _ _ _ hstep hafter =>
    exact ⟨t, u, hbefore, hstep, hafter, stepLaw (validLogs_run hs hbefore) hstep⟩

/-- A command submitted twice: the second time nothing changes. -/
theorem revision_law_pauses :
    let request := pauseRequest "command-1" "device-a" 1000
    let now := Time.ofUnixMilli 2000
    let repeated : Event := ⟨.sync request, now, .ok (pauseAnswer "command-1" 1 2000 false)⟩
    let run := performAll absentTimerCore (fun _ => 0) .initial
      [(.sync request, now), (.sync request, now), (.history, now)]
    ValidRevision run.2.revision ∧ ∃ before after t u, run.1 = before ++ repeated :: after ∧
      Step absentTimerCore (fun _ => 0) t repeated u ∧ StepLaw absentTimerCore t repeated u := by
  intro request now repeated run
  have hrun : Run absentTimerCore (fun _ => 0) .initial run.1 run.2 := run_performAll
  obtain ⟨before, after, hevents⟩ : ∃ before after, run.1 = before ++ repeated :: after :=
    ⟨run.1.take 1, run.1.drop 2, rfl⟩
  obtain ⟨hvalid, -, hlaw, -⟩ := revision_law validLogs_initial (by decide) hrun
  obtain ⟨t, u, -, hstep, -, hstepLaw⟩ := hlaw before repeated after hevents
  exact ⟨hvalid, before, after, t, u, hevents, hstep, hstepLaw⟩

end Pomodorough.Store.Revisions
