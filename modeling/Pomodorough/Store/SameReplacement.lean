import Pomodorough.Store.PersistedProjection

/-! # Replacing an account by itself

A replacement empties the tables before it decides whether anything has changed.
The logs are compared with what they were, but the projection with what the
emptying has left, and the outcomes are not compared at all. -/
namespace Pomodorough.Store.SameReplacement
open Pomodorough.Library.Fallible Pomodorough.Library.KeyedLog
open Pomodorough.Store.Records Pomodorough.Store.SharedCoreValidation
open Pomodorough.Store.SharedCore Pomodorough.Store.OperationLogs
open Pomodorough.Store.OperationDomains Pomodorough.Store.Sync Pomodorough.Store.Bootstrap
open Pomodorough.Store.Transactions Pomodorough.Store.AccountRuns Pomodorough.Store.Revisions
open Pomodorough.Store.TimerSoundness Pomodorough.Store.PersistedProjection

variable {core : Core} {sha256 : Sha256} {s t u v : UserTables} {now : Time} {call : Call}
  {request : BootstrapResolutionRequest} {events : List Event} {result : SyncResult}

/-! ## What runs keep of the tables -/

/-- The constraints of the tables that the code relies on: ids and the sequence
numbers of a device are unique, and a current timer has an id. -/
structure Constrained (s : UserTables) : Prop where
  logs : ValidLogs s
  slots : ∀ d : Domain, d.keys.SlotsDistinct (d.log s)
  current : s.currentTimerID ≠ some ""

theorem constrained_initial : Constrained UserTables.initial where
  logs := validLogs_initial
  slots d := by
    intro x hx
    cases d <;> cases hx
  current := by simp [UserTables.initial]

/-- An accepted canonical timer has an id, and a session has it as well. -/
theorem canonical_of_accepted {output : CoreTimerResult} {commands : List Command}
    {timer : TimerResult} (h : timerResultFromCore output commands = .ok timer) :
    timer.canonical.map CanonicalTimer.id ≠ some "" ∧
      (timer.sessions = [] → timer.canonical = none) := by
  obtain ⟨_, hvalid, h⟩ := bind_ok_iff.mp h
  obtain ⟨decoded, hdecoded, h⟩ := bind_ok_iff.mp h
  cases h
  rw [wrap_ok_iff] at hvalid
  obtain ⟨history, sessions, outcomes, -, hsessions, -, hchecked⟩ :=
    validateCoreTimerResult_ok hvalid
  rw [hsessions] at hdecoded
  have hcanonical := hchecked.canonicalTimer
  cases hvalue : output.canonical.value with
  | none => simp
  | some canonical =>
    rw [hvalue] at hcanonical
    obtain ⟨hid, session, hsession, -⟩ := validateCoreCanonical_ok hcanonical
    refine ⟨by simpa using hid, fun hnone => ?_⟩
    -- without sessions there is none for the canonical timer
    have hdecoded : mapAll timerSessionFromCore sessions = .ok [] := by
      rw [← hnone]
      exact hdecoded
    have hmem := List.mem_of_find?_eq_some hsession
    cases sessions with
    | nil => cases hmem
    | cons first sessions =>
      obtain ⟨_, -, hdecoded⟩ := bind_ok_iff.mp hdecoded
      obtain ⟨_, -, hdecoded⟩ := bind_ok_iff.mp hdecoded
      cases hdecoded

theorem canonical_of_reduced {commands : List Command} {timer : TimerResult}
    (h : reduceTimerWithSharedCore core commands now = .ok timer) :
    timer.canonical.map CanonicalTimer.id ≠ some "" ∧
      (timer.sessions = [] → timer.canonical = none) := by
  unfold reduceTimerWithSharedCore replayTimerPages at h
  split at h
  · obtain ⟨_, -, h⟩ := bind_ok_iff.mp h
    exact canonical_of_accepted h
  · obtain ⟨_, -, h⟩ := bind_ok_iff.mp h
    exact canonical_of_accepted h

theorem current_commit {reduction : AccountReduction} {changed : Bool}
    (h : Commit core now u reduction changed v) (hu : u.currentTimerID ≠ some "") :
    v.currentTimerID ≠ some "" := by
  rcases h.written with hwritten | ⟨-, rfl⟩
  · rw [hwritten]
    exact (canonical_of_reduced (reduceAccount_timer h.reduced)).1
  · exact hu

theorem constrained_exec (hs : Constrained s)
    (h : call.exec core sha256 now s = .ok (t, result)) : Constrained t := by
  have hvalid := validLogs_exec hs.logs h
  have hmaterialize : ∀ {t : UserTables} {result : SyncResult},
      materializeProjection core s now = .ok (t, result) →
        (∀ d : Domain, d.keys.SlotsDistinct (d.log t)) ∧ t.currentTimerID ≠ some "" := by
    intro t result h
    obtain ⟨reduction, hcommit⟩ := materializeProjection_ok h
    refine ⟨fun d => ?_, current_commit hcommit.commit hs.current⟩
    rw [hcommit.commit.log d]
    exact hs.slots d
  cases call with
  | sync request =>
    obtain ⟨u, applied, reduction, hcommit⟩ := sync_ok h
    refine ⟨hvalid, fun d => ?_, current_commit hcommit.commit ?_⟩
    · rw [syncCommit_log hs.logs hcommit d]
      exact slotsDistinct_offers (hs.slots d)
    · have hbase : ValidLogs (recordSyncDevice s request.deviceID now) :=
        hs.logs.ofLogs fun d => by simp
      rw [(applyOperations_ok hbase.utc hcommit.operations).beside.currentTimerID]
      exact hs.current
  | bootstrap => exact ⟨hvalid, (hmaterialize h).1, (hmaterialize h).2⟩
  | history => exact ⟨hvalid, (hmaterialize h).1, (hmaterialize h).2⟩
  | resolveBootstrap request =>
    rcases resolveBootstrap_ok (validLogs_strategyBase hs.logs).utc h with
      ⟨stored, -, rfl⟩ | ⟨u, application, v, hcommit⟩
    · exact hs
    · refine ⟨hvalid, fun d => ?_, ?_⟩
      · rw [resolveCommit_log hs.logs hcommit d, log_strategyBase d]
        split
        · exact slotsDistinct_offers fun x hx => by cases hx
        · exact slotsDistinct_offers (hs.slots d)
      · rw [hcommit.recorded]
        show v.currentTimerID ≠ some ""
        refine current_commit hcommit.commit ?_
        rw [(applyOperations_ok (validLogs_strategyBase hs.logs).utc
          hcommit.applied.operations).beside.currentTimerID]
        unfold strategyBase
        split
        · simp [clearForBootstrapReplacement]
        · exact hs.current

theorem constrained_run (h : Run core sha256 .initial events s) : Constrained s :=
  h.preserves (fun _ _ _ _ _ hp hexec => constrained_exec hp hexec) constrained_initial

/-! ## The first application, step by step -/

/-- What a first application has computed, in the order it did. -/
structure FirstApplication (core : Core) (sha256 : Sha256) (s : UserTables)
    (request : BootstrapResolutionRequest) (now : Time) (u : UserTables)
    (application : BootstrapStrategyApplication) (v : UserTables) (changed : Bool)
    (t : UserTables) (result : SyncResult) : Prop where
  valid : ValidResolution request
  strategy : applyBootstrapStrategy core s request request.syncRequest now = .ok (u, application)
  persist : ∃ revision, persistBootstrapApplication u request.strategy application s.revision =
    .ok (v, revision, changed)
  reported : result.changed = changed
  recorded : t = recordResolution v request.requestID (bootstrapPayloadHash sha256 request) result

theorem resolveBootstrap_first (hfresh : s.bootstrapResolutions.lookup request.requestID = none)
    (h : resolveBootstrap core sha256 s request now = .ok (t, result)) :
    ∃ u application v changed,
      FirstApplication core sha256 s request now u application v changed t result := by
  obtain ⟨⟨submitted, payloadHash⟩, hvalidate, h⟩ := bind_ok_iff.mp h
  obtain ⟨hvalid, rfl, rfl⟩ := validateBootstrapResolutionRequest_ok hvalidate
  obtain ⟨found, hlookup, h⟩ := bind_ok_iff.mp h
  rcases lookupStoredBootstrapResponse_ok hlookup with ⟨-, rfl⟩ | ⟨stored, -, hsome, -⟩
  · obtain ⟨revision, hrevision, h⟩ := bind_ok_iff.mp h
    obtain ⟨_, -, hrevision⟩ := bind_ok_iff.mp hrevision
    obtain ⟨_, -, hrevision⟩ := bind_ok_iff.mp hrevision
    cases hrevision
    obtain ⟨⟨u, application⟩, hstrategy, h⟩ := bind_ok_iff.mp h
    obtain ⟨⟨v, next, changed⟩, hpersist, h⟩ := bind_ok_iff.mp h
    obtain ⟨base, hbase, h⟩ := bind_ok_iff.mp h
    cases h
    exact ⟨u, application, v, changed, hvalid, hstrategy, ⟨next, hpersist⟩, rfl, rfl⟩
  · rw [hfresh] at hsome
    cases hsome

/-- Nothing is written where nothing is counted as changed. -/
theorem persistBootstrapApplication_changed {application : BootstrapStrategyApplication}
    {strategy : String} {revision next : Int} {changed : Bool}
    (h : persistBootstrapApplication u strategy application revision = .ok (v, next, changed)) :
    changed = (operationsChanged strategy application ||
        timerProjectionChanged u application.reduction.timer) ∧
      (changed = false → v = u) ∧
      (changed = true → v = persisted u application.reduction next) := by
  obtain ⟨after, hnext, h⟩ := bind_ok_iff.mp h
  obtain ⟨w, hpersist, h⟩ := bind_ok_iff.mp h
  cases h
  refine ⟨rfl, fun hunchanged => ?_, fun hchanged => ?_⟩
  · rw [persistIfChanged, if_neg (by rw [hunchanged]; exact Bool.false_ne_true)] at hpersist
    cases hpersist
    rfl
  · rw [persistIfChanged, if_pos hchanged] at hpersist
    exact (persistReduction_ok hpersist).2

/-! ## The same operations -/

/-- A replacement by the operations the account has, from one device: a log it
replaces has the request's operations in some order, and one it leaves is not
submitted to. -/
structure SameOperations (s : UserTables) (request : BootstrapResolutionRequest) : Prop where
  strategy : request.strategy = bootstrapReplaceRemote
  replaced : ∀ d : Domain, cleared request d = true →
    (d.rows request.syncRequest).Perm (d.log s)
  left : ∀ d : Domain, cleared request d = false → d.submitted request.syncRequest = []

/-- The stored projection is that of the logs at the given time. -/
def Current (core : Core) (s : UserTables) (now : Time) : Prop :=
  ∃ timer, reduceTimerWithSharedCore core (loadCommands s) now = .ok timer ∧
    timerProjectionChanged s timer = false

/-- The tables are as they were and no change is reported. -/
structure NoOp (s t : UserTables) (result : SyncResult) : Prop where
  revision : t.revision = s.revision
  logs : ∀ d : Domain, (d.log t).Perm (d.log s)
  commandOutcomes : t.commandOutcomes = s.commandOutcomes
  timerSessions : t.timerSessions = s.timerSessions
  currentTimerID : t.currentTimerID = s.currentTimerID
  unchanged : result.changed = false

/-- What is stored of the projection where it is current. -/
theorem Current.projection {timer : TimerResult} (hs : Constrained s)
    (htimer : reduceTimerWithSharedCore core (loadCommands s) now = .ok timer)
    (hstored : timerProjectionChanged s timer = false) :
    (s.timerSessions = [] ↔ timer.sessions = []) ∧
      (s.timerSessions = [] → s.currentTimerID = none) := by
  rw [← Bool.not_eq_true, timerProjectionChanged_iff, not_not] at hstored
  have hmap : (loadTimerSessionProjection s).map atMilli = timer.sessions.map atMilli :=
    congrArg MilliProjection.sessions hstored
  have hid : loadCurrentTimerProjectionID s = (timer.canonical.map CanonicalTimer.id).getD "" :=
    congrArg MilliProjection.currentID hstored
  have hsessions : s.timerSessions = [] ↔ timer.sessions = [] := by
    have hlength := congrArg List.length hmap
    simp only [loadTimerSessionProjection, List.length_map, sortBy_perm.length_eq] at hlength
    rw [← List.length_eq_zero_iff, ← List.length_eq_zero_iff, hlength]
  refine ⟨hsessions, fun hnone => ?_⟩
  rw [(canonical_of_reduced htimer).2 (hsessions.mp hnone)] at hid
  cases hvalue : s.currentTimerID with
  | none => rfl
  | some id =>
    rw [loadCurrentTimerProjectionID, hvalue] at hid
    have hcontra := hs.current
    rw [hvalue] at hcontra
    exact absurd (congrArg some hid) hcontra

/-- The logs are refilled with what they held. -/
theorem SameOperations.refilled (h : SameOperations s request) (hs : Constrained s)
    {applied : OperationApplication}
    (happlied : Applied (strategyBase s request) request.syncRequest u applied) (d : Domain) :
    (d.log u).Perm (d.log s) := by
  rw [happlied.log d, log_strategyBase d]
  by_cases hcleared : cleared request d = true
  · rw [if_pos ⟨h.strategy, hcleared⟩]
    exact offers_nil_perm (hs.logs.distinct d) (hs.slots d) (h.replaced d hcleared)
  · rw [if_neg (fun hboth => hcleared hboth.2)]
    have hnone : d.rows request.syncRequest = [] := by
      unfold Domain.rows
      rw [h.left d (Bool.eq_false_iff.mpr hcleared)]
      rfl
    rw [hnone]
    exact List.Perm.refl _

/-- A replacement by the same counts as a change where there are sessions. -/
theorem SameOperations.changed_iff (h : SameOperations s request) (hs : Constrained s)
    (hcurrent : Current core s now) {application : BootstrapStrategyApplication}
    (happlied : StrategyApplied core s request now u application) :
    (operationsChanged request.strategy application ||
      timerProjectionChanged u application.reduction.timer) = true ↔ s.timerSessions ≠ [] := by
  have hbase : ValidLogs (strategyBase s request) := validLogs_strategyBase hs.logs
  have hops := applyOperations_ok hbase.utc happlied.operations
  have hu : ValidLogs u := hops.valid hbase
  have hperm := h.refilled hs hops
  have hload : loadCommands u = loadCommands s :=
    Domain.loaded_eq_of_perm .timer (hu.distinct .timer) (hperm .timer)
  obtain ⟨before, hbefore, hreduced⟩ := happlied.before h.strategy
  have hlogs : operationsChanged request.strategy application = false := by
    unfold operationsChanged
    rw [if_pos h.strategy, hbefore, Option.any_some, ← Bool.not_eq_true,
      replacementChanged_iff hs.logs hu (reduceAccount_ok hreduced)
        (reduceAccount_ok happlied.reduced)]
    intro hdiffer
    obtain ⟨d, x, hx⟩ := hdiffer
    exact hx (hperm d).mem_iff.symm
  obtain ⟨timer, htimer, hstored⟩ := hcurrent
  have hsame : application.reduction.timer = timer := by
    have hagain := reduceAccount_timer happlied.reduced
    rw [hload, htimer] at hagain
    cases hagain
    rfl
  have hprojection : storedProjection u = ⟨"", []⟩ := by
    rw [storedProjection_congr hops.beside, strategyBase_replace h.strategy]
    rfl
  have hsessions := (Current.projection hs htimer hstored).1
  rw [hlogs, Bool.false_or, hsame, timerProjectionChanged_iff, hprojection]
  constructor
  · intro hchanged hnone
    refine hchanged ?_
    have hnil := hsessions.mp hnone
    have hcanonical := (canonical_of_reduced htimer).2 hnil
    simp [reducedProjection, hnil, hcanonical]
  · intro hsome heq
    refine hsome (hsessions.mpr ?_)
    have hmap : ([] : List MilliSession) = timer.sessions.map atMilli :=
      congrArg MilliProjection.sessions heq
    exact List.map_eq_nil_iff.mp hmap.symm

/-- A replay changes nothing and reports nothing. -/
theorem noOp_of_replay {stored : BootstrapResolution}
    (h : Replay sha256 s request stored result) : NoOp s s result := by
  refine ⟨rfl, fun d => List.Perm.refl _, rfl, rfl, rfl, ?_⟩
  have hresult := h.result
  unfold normalizeStoredSyncResult at hresult
  split at hresult
  · cases hresult
    rfl
  · obtain ⟨_, -, hresult⟩ := bind_ok_iff.mp hresult
    cases hresult
    rfl

/-- A request that replaces what is stored with the given commands. -/
def replaceCommands (requestID deviceID : String) (expectedRevision : Int)
    (commands : List Command) : BootstrapResolutionRequest :=
  ⟨requestID, deviceID, expectedRevision, bootstrapReplaceRemote, commands, [], [], [], false, [],
    false⟩

/-- The run of an account that is sent one command without effect. -/
def pausedOnce : List Event × UserTables :=
  performAll absentTimerCore (fun _ => 0) .initial
    [(.sync (pauseRequest "command-1" "device-a" 1000), Time.ofUnixMilli 2000)]

/-- The replacement of that account by its command. -/
def pauseAgain : BootstrapResolutionRequest :=
  replaceCommands "request-1" "device-a" 1 [pauseAbsent "command-1" "device-a" 1000]

theorem sameOperations_pauseAgain : SameOperations pausedOnce.2 pauseAgain := by
  have hcommands : pausedOnce.2.timerCommands = [pauseAbsent "command-1" "device-a" 1000] := by
    decide +kernel
  have htasks : pausedOnce.2.taskOperations = [] := by decide +kernel
  have hdurations : pausedOnce.2.durationOperations = [] := by decide +kernel
  refine ⟨rfl, fun d hcleared => ?_, fun d hleft => ?_⟩
  · cases d with
    | timer => exact List.Perm.of_eq hcommands.symm
    | task => exact List.Perm.of_eq htasks.symm
    | duration => exact List.Perm.of_eq hdurations.symm
    | autoStart => cases hcleared
    | selectedTask => cases hcleared
  · cases d with
    | timer => cases hleft
    | task => cases hleft
    | duration => cases hleft
    | autoStart => rfl
    | selectedTask => rfl

theorem current_pausedOnce : Current absentTimerCore pausedOnce.2 (Time.ofUnixMilli 2000) := by
  obtain ⟨timer, htimer, hstored⟩ := exists_ok (x := reduceTimerWithSharedCore absentTimerCore
    (loadCommands pausedOnce.2) (Time.ofUnixMilli 2000))
    (p := fun timer => !timerProjectionChanged pausedOnce.2 timer) (by decide +kernel)
  exact ⟨timer, htimer, by simpa using hstored⟩

end Pomodorough.Store.SameReplacement
