import Pomodorough.Store.Acknowledgements
import Pomodorough.Store.TimerSoundness
import Pomodorough.Web.CanonicalResponses

/-! # What the server has checked of a response

The server checks what the shared core answers before it stores or serves it. What a
response therefore is, is said here in the words of the browser that will read it, for
the answers that are computed and for those that are repeated. -/
namespace Pomodorough.Server.CheckedResponses
open Pomodorough.Library.Fallible
open Pomodorough.Store.Records Pomodorough.Store.SharedCoreValidation
open Pomodorough.Store.SharedCore Pomodorough.Store.OperationLogs
open Pomodorough.Store.OperationDomains Pomodorough.Store.Sync Pomodorough.Store.Bootstrap
open Pomodorough.Store.Transactions Pomodorough.Store.AccountRuns
open Pomodorough.Store.Resolutions Pomodorough.Store.TimerSoundness
open Pomodorough.Store.Acknowledgements
open Pomodorough.Web.CanonicalResponses (phases timerStatuses historyStatuses)

structure CheckedTimer (timer : CanonicalTimer) : Prop where
  id : timer.id ≠ ""
  phase : timer.phase ∈ phases
  status : timer.status ∈ timerStatuses
  planned : minimumDurationMs ≤ timer.plannedDurationMs ∧
    timer.plannedDurationMs ≤ maximumTimerDurationMs
  elapsed : 0 ≤ timer.elapsedAtAnchorMs ∧ timer.elapsedAtAnchorMs ≤ timer.plannedDurationMs

structure CheckedItem (item : HistoryItem) : Prop where
  id : item.id ≠ ""
  timerID : item.timerID ≠ ""
  phase : item.phase ∈ phases
  status : item.status ∈ historyStatuses
  planned : minimumDurationMs ≤ item.plannedDurationMs ∧
    item.plannedDurationMs ≤ maximumTimerDurationMs
  ended : item.endedAt.text ≠ ""
  completed : item.completedAt.text = "" ↔ item.status ≠ "completed"

/-- A duration that can be set. -/
def CheckedDuration (durationMs : Int) : Prop :=
  minimumDurationMs ≤ durationMs ∧ durationMs ≤ maximumDurationMs ∧
    durationMs % minimumDurationMs = 0

structure Valid (result : SyncResult) : Prop where
  revision : ValidRevision result.revision
  canonicalTimer : ∀ timer ∈ result.canonicalTimer, CheckedTimer timer
  history : ∀ item ∈ result.history, CheckedItem item
  historyIDs : (result.history.map HistoryItem.id).Nodup
  tasks : ∀ task ∈ result.tasks, task.id ≠ ""
  durations : CheckedDuration result.durationsMs.focus ∧
    CheckedDuration result.durationsMs.shortBreak ∧ CheckedDuration result.durationsMs.longBreak
  selectedTask : ∀ id ∈ result.selectedTaskID, id ≠ ""

section Checks
variable {commands : List Command} {sessions : List CoreTimerSession} {history : List HistoryItem}
  {ids : List String} {previous : Time} {previousTimerID : String}

theorem mem_phases {phase : String} (h : validTimerPhase phase = true) : phase ∈ phases := by
  simpa [validTimerPhase, phases, or_assoc] using h

theorem mem_timerStatuses {status : String} (h : validTimerStatus status = true) :
    status ∈ timerStatuses := by
  simpa [validTimerStatus, timerStatuses, or_assoc] using h

theorem validateOrderedSessions_each {seen : List CoreTimerSession} {previousID : String}
    (h : validateOrderedSessions commands seen previousID sessions = .ok ()) :
    ∀ session ∈ sessions, validateCoreTimerSession session commands = .ok () := by
  induction sessions generalizing seen previousID with
  | nil => simp
  | cons session sessions ih =>
    obtain ⟨_, hsession, h⟩ := bind_ok_iff.mp h
    obtain ⟨_, -, h⟩ := bind_ok_iff.mp h
    obtain ⟨_, -, h⟩ := bind_ok_iff.mp h
    exact List.forall_mem_cons.mpr ⟨hsession, ih h⟩

theorem validateCoreTimerSession_ok {session : CoreTimerSession}
    (h : validateCoreTimerSession session commands = .ok ()) :
    validTimerPhase session.phase = true ∧ minimumDurationMs ≤ session.plannedDurationMs ∧
      session.plannedDurationMs ≤ maximumTimerDurationMs := by
  obtain ⟨_, -, h⟩ := bind_ok_iff.mp h
  obtain ⟨_, hkind, h⟩ := bind_ok_iff.mp h
  obtain ⟨_, hduration, -⟩ := bind_ok_iff.mp h
  rw [check_ok_iff] at hkind hduration
  exact ⟨hkind.1, hduration.1, hduration.2.1⟩

theorem validateHistoryCompletion_ok {item : HistoryItem}
    (h : validateHistoryCompletion item = .ok ()) :
    item.completedAt.text = "" ↔ item.status ≠ "completed" := by
  unfold validateHistoryCompletion at h
  split at h
  next hstatus =>
    obtain ⟨_, hcompleted, -⟩ := bind_ok_iff.mp h
    simp [hstatus, (parseRequiredCoreTime_ok hcompleted).1]
  next hstatus =>
    rw [check_ok_iff] at h
    simp [hstatus, h]

/-- An item has its phase and its duration from its session. -/
theorem checkedItem_of_ok {item : HistoryItem} {endedAt : Time}
    (hsessions : ∀ session ∈ sessions, validateCoreTimerSession session commands = .ok ())
    (h : validateCoreHistoryItem item sessions commands = .ok endedAt) (hid : item.id ≠ "") :
    CheckedItem item := by
  obtain ⟨hstatus, -, session, hsession, hagrees⟩ := validateCoreHistoryItem_ok h
  obtain ⟨hphase, hplanned⟩ :=
    validateCoreTimerSession_ok (hsessions session (List.mem_of_find?_eq_some hsession))
  obtain ⟨_, htimer, h⟩ := bind_ok_iff.mp h
  rw [check_ok_iff] at htimer
  rw [hsession] at h
  obtain ⟨_, -, h⟩ := bind_ok_iff.mp h
  obtain ⟨ended, hended, h⟩ := bind_ok_iff.mp h
  have hcompletion : validateHistoryCompletion item = .ok () := by
    split at h
    next =>
      obtain ⟨_, -, h⟩ := bind_ok_iff.mp h
      obtain ⟨_, -, h⟩ := bind_ok_iff.mp h
      obtain ⟨_, hcompletion, -⟩ := bind_ok_iff.mp h
      exact hcompletion
    next =>
      obtain ⟨_, -, h⟩ := bind_ok_iff.mp h
      obtain ⟨_, hcompletion, -⟩ := bind_ok_iff.mp h
      exact hcompletion
  refine ⟨hid, htimer, ?_, ?_, ?_, (parseRequiredCoreTime_ok hended).1,
    validateHistoryCompletion_ok hcompletion⟩
  · rw [hagrees.phase]
    exact mem_phases hphase
  · simpa [historyStatuses, Terminal] using hstatus
  · rw [hagrees.plannedDurationMs]
    exact hplanned

theorem validateOrderedHistory_ids
    (h : validateOrderedHistory sessions commands ids previous previousTimerID history = .ok ())
    (hids : ids.Nodup) : (∀ item ∈ history, item.id ≠ "") ∧
      (history.map HistoryItem.id).Nodup ∧ ∀ item ∈ history, item.id ∉ ids := by
  induction history generalizing ids previous previousTimerID with
  | nil => simp
  | cons item history ih =>
    obtain ⟨endedAt, -, h⟩ := bind_ok_iff.mp h
    obtain ⟨_, hid, h⟩ := bind_ok_iff.mp h
    obtain ⟨_, -, h⟩ := bind_ok_iff.mp h
    rw [check_ok_iff] at hid
    obtain ⟨hnonempty, hnodup, hnew⟩ := ih h (List.nodup_cons.mpr ⟨hid.2, hids⟩)
    refine ⟨List.forall_mem_cons.mpr ⟨hid.1, hnonempty⟩, ?_,
      List.forall_mem_cons.mpr ⟨hid.2, fun other hother => ?_⟩⟩
    · rw [List.map_cons, List.nodup_cons]
      refine ⟨fun hmem => ?_, hnodup⟩
      obtain ⟨other, hother, heq⟩ := List.mem_map.mp hmem
      exact hnew other hother (heq ▸ List.mem_cons_self)
    · exact fun hmem => hnew other hother (List.mem_cons_of_mem _ hmem)

theorem checkedTimer_of_ok {timer : CanonicalTimer}
    (h : validateCoreCanonical (some timer) sessions commands = .ok ()) : CheckedTimer timer := by
  obtain ⟨_, hid, h⟩ := bind_ok_iff.mp h
  rw [check_ok_iff] at hid
  split at h
  next => cases h
  next =>
    obtain ⟨_, hkind, h⟩ := bind_ok_iff.mp h
    obtain ⟨_, hduration, -⟩ := bind_ok_iff.mp h
    rw [check_ok_iff] at hkind hduration
    exact ⟨hid, mem_phases hkind.1, mem_timerStatuses hkind.2, ⟨hduration.1, hduration.2.1⟩,
      hduration.2.2⟩

/-- Both ways of reducing the commands end with the checks of one result. -/
theorem timer_checked {core : Core} {now : Time} {result : TimerResult}
    (h : reduceTimerWithSharedCore core commands now = .ok result) :
    (∀ timer ∈ result.canonical, CheckedTimer timer) ∧
      (∀ item ∈ result.history, CheckedItem item) ∧
      (result.history.map HistoryItem.id).Nodup := by
  have hresult : ∃ output, timerResultFromCore output commands = .ok result := by
    unfold reduceTimerWithSharedCore replayTimerPages at h
    split at h
    · obtain ⟨_, -, h⟩ := bind_ok_iff.mp h
      exact ⟨_, h⟩
    · obtain ⟨output, -, h⟩ := bind_ok_iff.mp h
      exact ⟨output, h⟩
  obtain ⟨output, h⟩ := hresult
  obtain ⟨_, hvalid, h⟩ := bind_ok_iff.mp h
  obtain ⟨_, -, h⟩ := bind_ok_iff.mp h
  cases h
  obtain ⟨history, sessions, outcomes, hhistory, -, -, hchecked⟩ :=
    validateCoreTimerResult_ok (wrap_ok_iff.mp hvalid)
  obtain ⟨_, hordered, -⟩ := bind_ok_iff.mp hchecked.timerSessions
  have hsessions := validateOrderedSessions_each hordered
  obtain ⟨hnonempty, hnodup, -⟩ := validateOrderedHistory_ids hchecked.timerHistory List.nodup_nil
  rw [hhistory]
  refine ⟨fun timer htimer => ?_, fun item hitem => ?_, hnodup⟩
  · have hcanonical := hchecked.canonicalTimer
    rw [show output.canonical.value = some timer from htimer] at hcanonical
    exact checkedTimer_of_ok hcanonical
  · obtain ⟨endedAt, hitemOk⟩ := validateOrderedHistory_items hchecked.timerHistory item hitem
    exact checkedItem_of_ok hsessions hitemOk (hnonempty item hitem)

end Checks

theorem tasks_checked {winners : AList fun _ : String => String} {seen tasks : List Task}
    (h : validateOrderedTasks winners seen tasks = .ok ()) : ∀ task ∈ tasks, task.id ≠ "" := by
  induction tasks generalizing seen with
  | nil => simp
  | cons task tasks ih =>
    obtain ⟨_, hid, h⟩ := bind_ok_iff.mp h
    obtain ⟨_, -, h⟩ := bind_ok_iff.mp h
    obtain ⟨_, -, h⟩ := bind_ok_iff.mp h
    obtain ⟨_, -, h⟩ := bind_ok_iff.mp h
    rw [check_ok_iff] at hid
    exact List.forall_mem_cons.mpr ⟨hid.1, ih h⟩

theorem taskResult_checked {output : CoreTaskResult} {operations : List TaskOperation}
    {result : List Task × AList fun _ : String => String}
    (h : taskResultFromCore output operations = .ok result) : ∀ task ∈ result.1, task.id ≠ "" := by
  unfold taskResultFromCore at h
  split at h
  next =>
    obtain ⟨_, -, h⟩ := bind_ok_iff.mp h
    obtain ⟨_, hordered, h⟩ := bind_ok_iff.mp h
    cases h
    exact tasks_checked hordered
  next => cases h

theorem durationResult_checked {output : CoreDurationResult} {operations : List DurationOperation}
    {result : DurationsMs × List String}
    (h : durationResultFromCore output operations = .ok result) :
    CheckedDuration result.1.focus ∧ CheckedDuration result.1.shortBreak ∧
      CheckedDuration result.1.longBreak := by
  unfold durationResultFromCore at h
  split at h
  next durationsMs _ _ _ =>
    obtain ⟨_, hvalid, h⟩ := bind_ok_iff.mp h
    cases h
    obtain ⟨_, -, hvalid⟩ := bind_ok_iff.mp hvalid
    obtain ⟨_, hphases, -⟩ := bind_ok_iff.mp hvalid
    rw [checkAll_ok_iff] at hphases
    have heach : ∀ phase ∈ ["focus", "short_break", "long_break"],
        CheckedDuration ((durationsMs.lookup phase).getD 0) := by
      intro phase hphase
      have hchecked := hphases phase hphase
      rw [check_ok_iff] at hchecked
      obtain ⟨value, hvalue, hlow, hhigh, hminutes⟩ := hchecked
      rw [Option.mem_def.mp hvalue]
      exact ⟨hlow, hhigh, hminutes⟩
    exact ⟨heach "focus" (by simp), heach "short_break" (by simp), heach "long_break" (by simp)⟩
  next => cases h

/-- A selected task is one of the tasks. -/
theorem selectedTask_checked {output : CoreSelectedTaskResult}
    {operations : List SelectedTaskOperation} {tasks : List Task} {result : Option String × String}
    (h : selectedTaskResultFromCore output operations tasks = .ok result)
    (htasks : ∀ task ∈ tasks, task.id ≠ "") : ∀ id ∈ result.1, id ≠ "" := by
  unfold selectedTaskResultFromCore at h
  obtain ⟨_, -, h⟩ := bind_ok_iff.mp h
  obtain ⟨_, -, h⟩ := bind_ok_iff.mp h
  split at h
  next =>
    cases h
    simp
  next id _ =>
    obtain ⟨_, hactive, h⟩ := bind_ok_iff.mp h
    rw [check_ok_iff] at hactive
    cases h
    obtain ⟨task, htask, rfl⟩ := hactive
    intro id hid
    cases hid
    exact htasks task htask

section Results
variable {core : Core} {sha256 : Sha256} {s t u v : UserTables} {now : Time}
  {reduction : AccountReduction} {result base stored : SyncResult}

/-- Everything but the acknowledgements and the mark of a change is as it was. -/
def SameSnapshot (left right : SyncResult) : Prop :=
  left.revision = right.revision ∧ left.canonicalTimer = right.canonicalTimer ∧
    left.history = right.history ∧ left.tasks = right.tasks ∧
    left.durationsMs = right.durationsMs ∧ left.selectedTaskID = right.selectedTaskID

theorem Valid.same (h : Valid base) (hsame : SameSnapshot result base) : Valid result := by
  obtain ⟨hrevision, htimer, hhistory, htasks, hdurations, hselected⟩ := hsame
  constructor
  · exact hrevision ▸ h.revision
  · exact htimer ▸ h.canonicalTimer
  · exact hhistory ▸ h.history
  · exact hhistory ▸ h.historyIDs
  · exact htasks ▸ h.tasks
  · exact hdurations ▸ h.durations
  · exact hselected ▸ h.selectedTask

theorem valid_of_reduction {revision : Int} {asked : Option SyncRequest}
    (hreduced : reduceAccount core u now = .ok reduction) (hrevision : ValidRevision revision)
    (h : resultFromReduction core reduction revision now asked = .ok base) : Valid base := by
  obtain ⟨_, -, h⟩ := bind_ok_iff.mp h
  cases h
  obtain ⟨_, -, hreduced⟩ := bind_ok_iff.mp hreduced
  obtain ⟨timer, htimer, hreduced⟩ := bind_ok_iff.mp hreduced
  obtain ⟨tasks, htasks, hreduced⟩ := bind_ok_iff.mp hreduced
  obtain ⟨durations, hdurations, hreduced⟩ := bind_ok_iff.mp hreduced
  obtain ⟨autoStart, -, hreduced⟩ := bind_ok_iff.mp hreduced
  obtain ⟨selectedTask, hselectedTask, hreduced⟩ := bind_ok_iff.mp hreduced
  cases hreduced
  rw [wrap_ok_iff] at htimer htasks hdurations hselectedTask
  obtain ⟨_, -, htasks⟩ := bind_ok_iff.mp htasks
  obtain ⟨_, -, hdurations⟩ := bind_ok_iff.mp hdurations
  obtain ⟨_, -, hselectedTask⟩ := bind_ok_iff.mp hselectedTask
  obtain ⟨hcanonical, hhistory, hids⟩ := timer_checked htimer
  have htasksChecked := taskResult_checked htasks
  exact ⟨hrevision, hcanonical, hhistory, hids, htasksChecked, durationResult_checked hdurations,
    selectedTask_checked hselectedTask htasksChecked⟩

theorem valid_sync {request : SyncRequest} (h : sync core s request now = .ok (t, result)) :
    Valid result := by
  obtain ⟨_, _, _, hcommit⟩ := sync_ok h
  obtain ⟨base, hbase, rfl⟩ := hcommit.result
  exact (valid_of_reduction hcommit.commit.reduced hcommit.commit.valid hbase).same
    ⟨rfl, rfl, rfl, rfl, rfl, rfl⟩

theorem valid_materialize (h : materializeProjection core s now = .ok (t, result)) :
    Valid result := by
  obtain ⟨_, hcommit⟩ := materializeProjection_ok h
  obtain ⟨base, hbase, rfl⟩ := hcommit.result
  exact (valid_of_reduction hcommit.commit.reduced hcommit.commit.valid hbase).same
    ⟨rfl, rfl, rfl, rfl, rfl, rfl⟩

theorem valid_resolve {request : BootstrapResolutionRequest}
    {application : BootstrapStrategyApplication}
    (h : ResolveCommit core sha256 s request now u application v t result) : Valid result := by
  obtain ⟨base, hbase, rfl⟩ := h.result
  refine (valid_of_reduction h.commit.reduced h.commit.valid hbase).same ?_
  dsimp only
  split
  · exact ⟨rfl, rfl, rfl, rfl, rfl, rfl⟩
  · exact ⟨rfl, rfl, rfl, rfl, rfl, rfl⟩

/-- A stored response is read back with its snapshot. -/
theorem valid_replayed (hstored : Valid stored)
    (h : normalizeStoredSyncResult (decodeStoredResponse stored) = .ok result) : Valid result := by
  unfold normalizeStoredSyncResult at h
  split at h
  · cases h
    exact hstored.same ⟨rfl, rfl, rfl, rfl, rfl, rfl⟩
  · obtain ⟨_, -, h⟩ := bind_ok_iff.mp h
    cases h
    exact hstored.same ⟨rfl, rfl, rfl, rfl, rfl, rfl⟩

/-- Keeping the account's data submits nothing, and nothing is acknowledged. -/
theorem exact_resolve {request : BootstrapResolutionRequest}
    {application : BootstrapStrategyApplication} (hs : ValidLogs s)
    (h : ResolveCommit core sha256 s request now u application v t result) :
    Exact request.syncRequest result := by
  by_cases hstrategy : request.strategy = bootstrapKeepRemote
  · obtain ⟨base, hbase, hresult⟩ := h.result
    rw [if_pos hstrategy] at hresult
    obtain ⟨_, -, hbase⟩ := bind_ok_iff.mp hbase
    cases hbase
    have hnone : ∀ d : Domain, acknowledgements d result = [] := by
      intro d
      rw [hresult]
      cases d <;> rfl
    have hempty := h.valid.keep hstrategy
    refine ⟨fun d => ?_, fun d a ha => ?_, fun d field => ?_⟩
    · rw [hnone d, hempty d]
      rfl
    · rw [hnone d] at ha
      cases ha
    · rw [hnone d, hempty d]
      rfl
  · exact (resolve_answers hs h hstrategy).exact

end Results

/-! ## Runs -/

/-- The browser takes the acknowledgements as those of the ids. -/
def Acknowledges (ids : Domain → List String) (result : SyncResult) : Prop :=
  ∀ (d : Domain) (field : String),
    Web.SyncCore.exactAcknowledgements (.array (acknowledgements d result)) field (some (ids d)) =
      .ok (acknowledgements d result, ids d)

section Runs
variable {core : Core} {sha256 : Sha256} {s t v : UserTables} {event : Event}
  {events : List Event} {result : SyncResult}

/-- The ids that a call is sent with. The history is not served as a snapshot. -/
def submittedBy : Call → Option (Domain → List String)
  | .sync request => some fun d => (d.submitted request).map d.id
  | .bootstrap => some fun _ => []
  | .history => none
  | .resolveBootstrap request => some fun d => (d.submitted request.syncRequest).map d.id

/-- What is stored has been checked, and answers a request of the run. -/
def StoredChecked (sha256 : Sha256) (events : List Event) (s : UserTables) : Prop :=
  ∀ id stored, s.bootstrapResolutions.lookup id = some stored → Valid stored.response ∧
    ∃ request ∈ resolutions events, stored.payloadHash = bootstrapPayloadHash sha256 request ∧
      Exact request.syncRequest stored.response

theorem storedChecked_run (h : Run core sha256 .initial events v) :
    StoredChecked sha256 events v := by
  induction events using List.reverseRecOn generalizing v with
  | nil =>
    cases h
    intro id stored hstored
    rw [show UserTables.initial.bootstrapResolutions = ∅ from rfl, Finmap.lookup_empty] at hstored
    cases hstored
  | append_singleton events event ih =>
    obtain ⟨s, hbefore, hstep⟩ := h.last
    have hs : ValidLogs s := validLogs_run validLogs_initial hbefore
    intro id stored hstored
    obtain hearlier | ⟨request, result, u, application, w, hcall, -, -, rfl, hcommit⟩ :=
      exists_commit_of_stored hs hstep hstored
    · obtain ⟨hvalid, request, hmem, horigin⟩ := ih hbefore id stored hearlier
      exact ⟨hvalid, request, resolutions_append ▸ List.mem_append_left _ hmem, horigin⟩
    · exact ⟨valid_resolve hcommit, request, mem_resolutions (by simp) hcall, rfl,
        exact_resolve hs hcommit⟩

/-- Every answer has been checked and acknowledges what its call was sent with, a retry
what the request was sent with that it repeats. -/
theorem answered (hs : ValidLogs s) (hstored : StoredChecked sha256 events s)
    (h : Step core sha256 s event t)
    (hfree : CollisionFree sha256 (resolutions (events ++ [event])))
    (hanswer : event.answer = .ok result) {ids : Domain → List String}
    (hids : submittedBy event.call = some ids) : Valid result ∧ Acknowledges ids result := by
  obtain ⟨call, now, answer⟩ := event
  obtain ⟨_, hok, hexec⟩ | ⟨⟨e, herror⟩, -⟩ := h.cases_answer
  · cases hanswer.symm.trans hok
    cases call with
    | sync request =>
      cases hids
      exact ⟨valid_sync hexec, (sync_answers hs hexec).exact.accepted⟩
    | bootstrap =>
      cases hids
      refine ⟨valid_materialize hexec, fun d field => ?_⟩
      obtain ⟨_, hcommit⟩ := materializeProjection_ok hexec
      obtain ⟨base, hbase, rfl⟩ := hcommit.result
      obtain ⟨_, -, hbase⟩ := bind_ok_iff.mp hbase
      cases hbase
      cases d <;> rfl
    | history => cases hids
    | resolveBootstrap retry =>
      cases hids
      obtain ⟨stored, hreplay, rfl⟩ | ⟨u, application, v, hcommit⟩ :=
        resolveBootstrap_ok (validLogs_strategyBase hs).utc hexec
      · obtain ⟨hvalid, first, hmem, hhash, hexact⟩ := hstored retry.requestID stored hreplay.found
        have hpair : CollisionFree sha256 [first, retry] := by
          refine collisionFree_of_subset hfree fun request hrequest => ?_
          rw [resolutions_append, List.mem_append]
          obtain rfl | hrequest := List.mem_cons.mp hrequest
          · exact .inl hmem
          · rw [List.mem_singleton] at hrequest
            exact .inr (by simp [resolutions, hrequest])
        have hnormalized : normalizedBootstrap retry = normalizedBootstrap first := by
          refine normalizedBootstrap_of_matches hpair ?_
          rw [← hhash]
          exact hreplay.hash
        exact ⟨valid_replayed hvalid hreplay.result, (hexact.congr (ids_of_normalized hnormalized)
          (acknowledgements_replayed hreplay.result)).accepted⟩
      · exact ⟨valid_resolve hcommit, (exact_resolve hs hcommit).accepted⟩
  · cases hanswer.symm.trans herror

end Runs

end Pomodorough.Server.CheckedResponses
