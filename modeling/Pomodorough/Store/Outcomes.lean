import Pomodorough.Store.Revisions

/-! # Outcome completeness

The outcomes of the commands are written back with the rest of a reduction. A
replacement deletes them first, and where it then counts nothing as changed they
stay deleted, though the commands are stored again. -/
namespace Pomodorough.Store.Outcomes
open Pomodorough.Library.Fallible Pomodorough.Library.KeyedLog
open Pomodorough.Store.Records Pomodorough.Store.SharedCoreValidation
open Pomodorough.Store.SharedCore Pomodorough.Store.OperationLogs
open Pomodorough.Store.OperationDomains Pomodorough.Store.Sync Pomodorough.Store.Bootstrap
open Pomodorough.Store.Transactions Pomodorough.Store.AccountRuns Pomodorough.Store.Revisions

variable {core : Core} {sha256 : Sha256} {s t u v : UserTables} {now : Time} {call : Call}
  {reduction : AccountReduction} {timer : TimerResult} {event : Event}
  {before events : List Event} {result : SyncResult}

/-! ## Complete outcomes -/

/-- Every stored command has an outcome and nothing else has. -/
def OneEach (t : UserTables) : Prop :=
  ∀ id, id ∈ t.commandOutcomes ↔ ∃ command ∈ t.timerCommands, command.id = id

/-- The outcomes are those the reduction at this time gives the stored log. -/
structure Complete (core : Core) (t : UserTables) (now : Time) : Prop where
  rows : OneEach t
  reduced : ∃ timer, reduceTimerWithSharedCore core (loadCommands t) now = .ok timer ∧
    ∀ command ∈ t.timerCommands,
      t.commandOutcomes.lookup command.id = timer.outcomes.lookup command.id

/-- The stored outcomes are the reduction's, id by id. -/
def Matches (t : UserTables) (timer : TimerResult) : Prop :=
  ∀ id, t.commandOutcomes.lookup id = timer.outcomes.lookup id

theorem mem_outcomes_iff (h : Accepted (loadCommands t) timer) {id : String} :
    id ∈ timer.outcomes ↔ ∃ command ∈ t.timerCommands, command.id = id := by
  rw [h.outcomes, List.mem_map]
  refine exists_congr fun command => ?_
  rw [show command ∈ loadCommands t ↔ command ∈ t.timerCommands from mem_sortBy]

theorem Matches.oneEach (h : Matches t timer) (haccepted : Accepted (loadCommands t) timer) :
    OneEach t := by
  intro id
  rw [← mem_outcomes_iff haccepted, ← Finmap.lookup_isSome, ← AList.lookup_isSome, h id]

theorem Matches.complete (h : Matches t timer)
    (hreduced : reduceTimerWithSharedCore core (loadCommands t) now = .ok timer) :
    Complete core t now :=
  ⟨h.oneEach (reduceTimerWithSharedCore_ok hreduced), timer, hreduced, fun command _ => h command.id⟩

/-- Without commands there are no outcomes. -/
theorem matches_of_empty (hcommands : t.timerCommands = []) (houtcomes : OneEach t)
    (haccepted : Accepted (loadCommands t) timer) : Matches t timer := by
  intro id
  have hstored : id ∉ t.commandOutcomes := by
    rw [houtcomes id, hcommands]
    simp
  have hreduced : id ∉ timer.outcomes := by
    rw [mem_outcomes_iff haccepted, hcommands]
    simp
  rw [Finmap.lookup_eq_none.mpr hstored, AList.lookup_eq_none.mpr hreduced]

/-- A reduction that is written back leaves its own outcomes, where no outcome
outlived its command. -/
theorem matches_persisted {revision : Int} (h : Reduces u reduction)
    (hstored : ∀ id ∈ u.commandOutcomes, ∃ command ∈ u.timerCommands, command.id = id) :
    Matches (persisted u reduction revision) reduction.timer := by
  intro id
  by_cases hid : ∃ command ∈ u.timerCommands, command.id = id
  · obtain ⟨command, hcommand, rfl⟩ := hid
    exact lookup_persisted h hcommand
  · have hreduced : id ∉ reduction.timer.outcomes := fun hmem =>
      hid ((mem_outcomes_iff h.accepted).mp hmem)
    have hnone : id ∉ reduction.timer.outcomes.toFinmap ∪ u.commandOutcomes := by
      rw [Finmap.mem_union, Finmap.mem_toFinmap, not_or]
      exact ⟨hreduced, fun hmem => hid (hstored id hmem)⟩
    show (reduction.timer.outcomes.toFinmap ∪ u.commandOutcomes).lookup id = _
    rw [Finmap.lookup_eq_none.mpr hnone, AList.lookup_eq_none.mpr hreduced]

/-! ## What the calls need -/

/-- The rows a reduction's projection is stored as. -/
def projected (timer : TimerResult) : UserTables :=
  { UserTables.initial with
    timerSessions := timer.sessions.map sessionRow
    currentTimerID := timer.canonical.map CanonicalTimer.id }

/-- Between the two times the core moves the outcomes of a log only together
with its projection. -/
def Steady (core : Core) (commands : List Command) (earlier now : Time) : Prop :=
  ∀ first second, reduceTimerWithSharedCore core commands earlier = .ok first →
    reduceTimerWithSharedCore core commands now = .ok second →
    timerProjectionChanged (projected first) second = false →
    ∀ id, first.outcomes.lookup id = second.outcomes.lookup id

/-- The log a replacement leaves. -/
def replaced (s : UserTables) (request : BootstrapResolutionRequest) (d : Domain) :
    List d.Operation :=
  offers d.keys (d.log (Transactions.strategyBase s request)) (d.rows request.syncRequest)

/-- A replacement that leaves some log different, or no command, or a timer. -/
def ReplacesVisibly (core : Core) (s : UserTables) (request : BootstrapResolutionRequest)
    (now : Time) : Prop :=
  (∃ (d : Domain) (x : d.Operation), ¬ (x ∈ d.log s ↔ x ∈ replaced s request d)) ∨
    s.timerCommands = [] ∨
    ∀ timer, reduceTimerWithSharedCore core (loadCommands s) now = .ok timer →
      reducedProjection timer ≠ ⟨"", []⟩

/-- When a call after the given ones keeps the outcomes complete: a retry and a
synchronization always do. -/
def KeepsOutcomes (core : Core) (before : List Event) (s : UserTables) (event : Event) : Prop :=
  found s event.call = none →
    match event.call with
    | .sync _ => True
    | .resolveBootstrap request =>
      if request.strategy = bootstrapReplaceRemote then ReplacesVisibly core s request event.now
      else ∀ earlier ∈ before, Steady core (loadCommands s) earlier.now event.now
    | _ => ∀ earlier ∈ before, Steady core (loadCommands s) earlier.now event.now

/-! ## One call -/

/-- Either there is nothing to have outcomes, or what is stored was written by
an earlier call. -/
def Recorded (core : Core) (before : List Event) (s : UserTables) : Prop :=
  (s.timerCommands = [] ∧ OneEach s) ∨
    ∃ earlier ∈ before, ∃ timer,
      reduceTimerWithSharedCore core (loadCommands s) earlier.now = .ok timer ∧
        Matches s timer ∧ s.timerSessions = (projected timer).timerSessions ∧
        s.currentTimerID = (projected timer).currentTimerID

theorem Recorded.oneEach (h : Recorded core before s) : OneEach s := by
  obtain ⟨-, h⟩ | ⟨_, -, timer, hreduced, h, -⟩ := h
  · exact h
  · exact h.oneEach (reduceTimerWithSharedCore_ok hreduced)

theorem Recorded.mono (h : Recorded core before s) (hsub : before ⊆ events) :
    Recorded core events s := by
  obtain h | ⟨earlier, hmem, h⟩ := h
  · exact .inl h
  · exact .inr ⟨earlier, hsub hmem, h⟩

/-- The tables that the outcomes depend on. -/
theorem Recorded.congr (h : Recorded core before s) (hcommands : t.timerCommands = s.timerCommands)
    (houtcomes : t.commandOutcomes = s.commandOutcomes)
    (hsessions : t.timerSessions = s.timerSessions) (hcurrent : t.currentTimerID = s.currentTimerID) :
    Recorded core before t := by
  have hload : loadCommands t = loadCommands s := by
    unfold loadCommands
    rw [hcommands]
  unfold Recorded OneEach Matches at *
  rw [hcommands, houtcomes, hsessions, hcurrent, hload]
  exact h

/-- Nothing is written because nothing changed: the earlier outcomes still are
the reduction's. -/
theorem Recorded.matches_unchanged (h : Recorded core before s)
    (hsteady : ∀ earlier ∈ before, Steady core (loadCommands s) earlier.now now)
    (hreduced : reduceTimerWithSharedCore core (loadCommands s) now = .ok timer)
    (hunchanged : timerProjectionChanged s timer = false) : Matches s timer := by
  obtain ⟨hcommands, houtcomes⟩ | ⟨earlier, hmem, first, hfirst, hmatches, hsessions, hcurrent⟩ := h
  · exact matches_of_empty hcommands houtcomes (reduceTimerWithSharedCore_ok hreduced)
  · have hsame : timerProjectionChanged (projected first) timer = false := by
      rw [← hunchanged]
      unfold timerProjectionChanged loadCurrentTimerProjectionID loadTimerSessionProjection
      rw [hsessions, hcurrent]
    intro id
    rw [hmatches id]
    exact hsteady earlier hmem first timer hfirst hreduced hsame id

/-- What a reduction that is written back leaves. -/
theorem recorded_persisted {revision : Int} (hreduced : reduceAccount core u now = .ok reduction)
    (hstored : ∀ id ∈ u.commandOutcomes, ∃ command ∈ u.timerCommands, command.id = id)
    (hevent : event.now = now) :
    Recorded core [event] (persisted u reduction revision) ∧
      Complete core (persisted u reduction revision) now := by
  have hreduces := reduceAccount_ok hreduced
  have htimer : reduceTimerWithSharedCore core (loadCommands u) now = .ok reduction.timer :=
    reduceAccount_timer hreduced
  have hmatches : Matches (persisted u reduction revision) reduction.timer :=
    matches_persisted hreduces hstored
  refine ⟨.inr ⟨event, by simp, reduction.timer, ?_, hmatches, rfl, rfl⟩, hmatches.complete htimer⟩
  rw [hevent]
  exact htimer

theorem recorded_commit {changed : Bool} (h : Commit core now u reduction changed v)
    (hstored : ∀ id ∈ u.commandOutcomes, ∃ command ∈ u.timerCommands, command.id = id)
    (hunchanged : changed = false → Recorded core before u ∧ Matches u reduction.timer)
    (hevent : event.now = now) :
    Recorded core (before ++ [event]) v ∧ Complete core v now := by
  obtain hwritten | ⟨hchanged, rfl⟩ := h.written
  · rw [hwritten]
    obtain ⟨hrecorded, hcomplete⟩ := recorded_persisted h.reduced hstored hevent
    exact ⟨hrecorded.mono (by simp), hcomplete⟩
  · obtain ⟨hrecorded, hmatches⟩ := hunchanged hchanged
    exact ⟨hrecorded.mono (by simp), hmatches.complete (reduceAccount_timer h.reduced)⟩

/-- What a call does to the outcomes: a call that commits leaves them complete,
every other leaves the tables alone. -/
def StepOutcomes (core : Core) (s : UserTables) (event : Event) (t : UserTables) : Prop :=
  match event.answer, found s event.call with
  | .ok _, none => Complete core t event.now
  | _, _ => t = s

/-- Commands are only ever added to, so no outcome outlives its command. -/
theorem stored_of_applied {request : SyncRequest} {applied : OperationApplication}
    (h : Applied s request u applied) (hs : OneEach s) :
    ∀ id ∈ u.commandOutcomes, ∃ command ∈ u.timerCommands, command.id = id := by
  intro id hid
  rw [h.beside.commandOutcomes, hs id] at hid
  obtain ⟨command, hcommand, heq⟩ := hid
  have hprefix : s.timerCommands <+: u.timerCommands := by
    show Domain.timer.log s <+: Domain.timer.log u
    rw [h.log .timer]
    exact prefix_offers
  exact ⟨command, hprefix.subset hcommand, heq⟩

theorem sync_outcomes {request : SyncRequest} (hs : ValidLogs s) (hrecorded : Recorded core before s)
    (h : sync core s request now = .ok (t, result)) (hevent : event.now = now) :
    Recorded core (before ++ [event]) t ∧ Complete core t now := by
  obtain ⟨u, applied, reduction, hcommit⟩ := sync_ok h
  have hbase : ValidLogs (recordSyncDevice s request.deviceID now) := hs.ofLogs fun d => by simp
  have hone : OneEach (recordSyncDevice s request.deviceID now) := hrecorded.oneEach
  have hstored := stored_of_applied (applyOperations_ok hbase.utc hcommit.operations) hone
  rw [hcommit.written]
  obtain ⟨hrecorded, hcomplete⟩ := recorded_persisted hcommit.commit.reduced hstored hevent
  exact ⟨hrecorded.mono (by simp), hcomplete⟩

theorem materialize_outcomes (hrecorded : Recorded core before s)
    (hsteady : ∀ earlier ∈ before, Steady core (loadCommands s) earlier.now now)
    (h : materializeProjection core s now = .ok (t, result)) (hevent : event.now = now) :
    Recorded core (before ++ [event]) t ∧ Complete core t now := by
  obtain ⟨reduction, hcommit⟩ := materializeProjection_ok h
  refine recorded_commit hcommit.commit (fun id => (hrecorded.oneEach id).mp) (fun hc => ?_) hevent
  exact ⟨hrecorded,
    hrecorded.matches_unchanged hsteady (reduceAccount_timer hcommit.commit.reduced) hc⟩

/-- Keeping and merging change the logs and the outcomes together. -/
theorem merge_outcomes {request : BootstrapResolutionRequest}
    {application : BootstrapStrategyApplication} (hs : ValidLogs s)
    (hrecorded : Recorded core before s) (hstrategy : request.strategy ≠ bootstrapReplaceRemote)
    (hsteady : ∀ earlier ∈ before, Steady core (loadCommands s) earlier.now now)
    (h : ResolveCommit core sha256 s request now u application v t result)
    (hevent : event.now = now) :
    Recorded core (before ++ [event]) v ∧ Complete core v now := by
  have happlied := applyOperations_ok (validLogs_strategyBase hs).utc h.applied.operations
  rw [strategyBase_other hstrategy] at happlied
  refine recorded_commit h.commit (stored_of_applied happlied hrecorded.oneEach) (fun hc => ?_)
    hevent
  unfold operationsChanged at hc
  rw [if_neg hstrategy, Bool.or_eq_false_iff] at hc
  obtain ⟨hlogs, hprojection⟩ := hc
  have hcommands : u.timerCommands = s.timerCommands := by
    by_contra hne
    rw [happlied.changed.mpr ⟨.timer, hne⟩] at hlogs
    cases hlogs
  have hu : Recorded core before u := hrecorded.congr hcommands happlied.beside.commandOutcomes
    happlied.beside.timerSessions happlied.beside.currentTimerID
  have hload : loadCommands s = loadCommands u := by
    unfold loadCommands
    rw [hcommands]
  rw [hload] at hsteady
  exact ⟨hu, hu.matches_unchanged hsteady (reduceAccount_timer h.commit.reduced) hprojection⟩

/-- A replacement that shows writes the outcomes back. One that does not show
leaves no command. -/
theorem replace_outcomes {request : BootstrapResolutionRequest}
    {application : BootstrapStrategyApplication} (hs : ValidLogs s)
    (hstrategy : request.strategy = bootstrapReplaceRemote)
    (hvisibly : ReplacesVisibly core s request now)
    (h : ResolveCommit core sha256 s request now u application v t result)
    (hevent : event.now = now) :
    Recorded core (before ++ [event]) v ∧ Complete core v now := by
  have hbase : ValidLogs (strategyBase s request) := validLogs_strategyBase hs
  have happlied := applyOperations_ok hbase.utc h.applied.operations
  have hu : ValidLogs u := happlied.valid hbase
  have hnone : u.commandOutcomes = ∅ := by
    rw [happlied.beside.commandOutcomes, strategyBase_replace hstrategy]
    rfl
  refine recorded_commit h.commit (fun id hid => ?_) (fun hc => ?_) hevent
  · rw [hnone] at hid
    exact absurd hid Finmap.notMem_empty
  · obtain ⟨earlier, hearlier, hreduced⟩ := h.applied.before hstrategy
    unfold operationsChanged at hc
    rw [if_pos hstrategy, hearlier, Option.any_some, Bool.or_eq_false_iff] at hc
    obtain ⟨hlogs, hprojection⟩ := hc
    have hsame : ¬ LogsDiffer s u := by
      rw [← replacementChanged_iff hs hu (reduceAccount_ok hreduced) h.commit.reduces, hlogs]
      exact Bool.false_ne_true
    have hload : loadCommands s = loadCommands u := by
      refine (loaded_eq_iff hs hu .timer).mpr fun x => ?_
      by_contra hx
      exact hsame ⟨.timer, x, hx⟩
    have hempty : u.timerCommands = [] := by
      obtain ⟨d, x, hx⟩ | hcommands | hshows := hvisibly
      · unfold replaced at hx
        rw [← happlied.log d] at hx
        exact absurd ⟨d, x, hx⟩ hsame
      · have hperm : (loadCommands u).Perm u.timerCommands := Domain.loaded_perm .timer
        rw [← hload] at hperm
        have hs' : (loadCommands s).Perm s.timerCommands := Domain.loaded_perm .timer
        rw [hcommands, List.perm_nil] at hs'
        rw [hs', List.nil_perm] at hperm
        exact hperm
      · have hprojected : storedProjection u = ⟨"", []⟩ := by
          rw [storedProjection_congr happlied.beside, strategyBase_replace hstrategy]
          rfl
        have hnot := timerProjectionChanged_iff.not.mp (Bool.eq_false_iff.mp hprojection)
        rw [not_not, hprojected] at hnot
        have htimer := reduceAccount_timer h.commit.reduced
        rw [← hload] at htimer
        exact absurd hnot.symm (hshows _ htimer)
    have hone : OneEach u := by
      intro id
      rw [hnone, hempty]
      simp [Finmap.notMem_empty]
    exact ⟨.inl ⟨hempty, hone⟩, matches_of_empty hempty hone h.commit.reduces.accepted⟩

theorem outcomes_step (hs : ValidLogs s) (hrecorded : Recorded core before s)
    (hkeeps : KeepsOutcomes core before s event) (h : Step core sha256 s event t) :
    Recorded core (before ++ [event]) t ∧ StepOutcomes core s event t := by
  obtain ⟨call, now, answer⟩ := event
  obtain ⟨result, hanswer, hexec⟩ | ⟨⟨e, hanswer⟩, rfl⟩ := h.cases_answer
  · cases hanswer
    cases call with
    | sync request => exact sync_outcomes hs hrecorded hexec rfl
    | bootstrap => exact materialize_outcomes hrecorded (hkeeps rfl) hexec rfl
    | history => exact materialize_outcomes hrecorded (hkeeps rfl) hexec rfl
    | resolveBootstrap request =>
      obtain ⟨stored, hreplay, rfl⟩ | ⟨u, application, v, hcommit⟩ :=
        resolveBootstrap_ok (validLogs_strategyBase hs).utc hexec
      · refine ⟨hrecorded.mono (by simp), ?_⟩
        unfold StepOutcomes found
        dsimp only
        rw [hreplay.found]
      · have hfound : found s (.resolveBootstrap request) = none := hcommit.fresh
        have hcondition := hkeeps hfound
        have hv : Recorded core (before ++ [⟨.resolveBootstrap request, now, .ok result⟩]) v ∧
            Complete core v now := by
          dsimp only at hcondition
          split at hcondition
          next hstrategy => exact replace_outcomes hs hstrategy hcondition hcommit rfl
          next hstrategy => exact merge_outcomes hs hrecorded hstrategy hcondition hcommit rfl
        unfold StepOutcomes
        dsimp only
        rw [hfound, hcommit.recorded]
        exact ⟨hv.1.congr rfl rfl rfl rfl, hv.2.rows, hv.2.reduced⟩
  · cases hanswer
    refine ⟨hrecorded.mono (by simp), ?_⟩
    unfold StepOutcomes
    rfl

/-! ## Runs -/

theorem recorded_run (h : Run core sha256 .initial events v)
    (hkeeps : ∀ before event after s, events = before ++ event :: after →
      Run core sha256 .initial before s → KeepsOutcomes core before s event) :
    Recorded core events v := by
  induction events using List.reverseRecOn generalizing v with
  | nil =>
    cases h
    refine .inl ⟨rfl, fun id => ?_⟩
    show id ∈ (∅ : Finmap fun _ : String => Outcome) ↔ ∃ command ∈ ([] : List Command), _
    simp [Finmap.notMem_empty]
  | append_singleton events event ih =>
    obtain ⟨s, hbefore, hstep⟩ := h.last
    have hrecorded : Recorded core events s := by
      refine ih hbefore fun before earlier after m hevents hrun => ?_
      exact hkeeps before earlier (after ++ [event]) m (by simp [hevents]) hrun
    have hlast : KeepsOutcomes core events s event := hkeeps events event [] s rfl hbefore
    exact (outcomes_step (validLogs_run validLogs_initial hbefore) hrecorded hlast hstep).1

/-- In a run whose calls keep them, the outcomes of a new account stay complete:
one for each stored command and no other, and after every call that commits they
are those of its reduction. -/
theorem outcomes_complete (h : Run core sha256 .initial events v)
    (hkeeps : ∀ before event after s, events = before ++ event :: after →
      Run core sha256 .initial before s → KeepsOutcomes core before s event) :
    OneEach v ∧ ∀ before event after, events = before ++ event :: after → ∃ s t,
      Run core sha256 .initial before s ∧ Step core sha256 s event t ∧ Run core sha256 t after v ∧
        StepOutcomes core s event t := by
  refine ⟨(recorded_run h hkeeps).oneEach, ?_⟩
  rintro before event after rfl
  obtain ⟨s, hbefore, hrest⟩ := h.split
  cases hrest with
  | @cons _ t _ _ _ hstep hafter =>
    have hrecorded : Recorded core before s := by
      refine recorded_run hbefore fun earlier e later m hevents hrun => ?_
      exact hkeeps earlier e (later ++ event :: after) m (by simp [hevents]) hrun
    have hlast := hkeeps before event after s rfl hbefore
    exact ⟨s, t, hbefore, hstep, hafter,
      (outcomes_step (validLogs_run validLogs_initial hbefore) hrecorded hlast hstep).2⟩

/-! ## A replacement that does not show -/

/-- A request that replaces what is stored with one such command. -/
def replacePause (requestID id deviceID : String) (expectedRevision wallMs : Int) :
    BootstrapResolutionRequest :=
  ⟨requestID, deviceID, expectedRevision, bootstrapReplaceRemote, [pauseAbsent id deviceID wallMs],
    [], [], [], false, [], false⟩

/-- The command whose outcome was stored is submitted again by a replacement:
its outcome is deleted and not written back. -/
theorem outcomes_not_always_complete :
    ¬ ∀ (core : Core) (sha256 : Sha256) (events : List Event) (v : UserTables),
      Run core sha256 .initial events v → OneEach v := by
  intro h
  let now := Time.ofUnixMilli 2000
  let calls : List (Call × Time) := [(.sync (pauseRequest "command-1" "device-a" 1000), now),
    (.resolveBootstrap (replacePause "request-1" "command-1" "device-a" 1 1000), now)]
  have hrun : Run absentTimerCore (fun _ => 0) .initial
      (performAll absentTimerCore (fun _ => 0) .initial calls).1
      (performAll absentTimerCore (fun _ => 0) .initial calls).2 := run_performAll
  have hone := h absentTimerCore (fun _ => 0) _ _ hrun "command-1"
  have hcommands : (performAll absentTimerCore (fun _ => 0) .initial calls).2.timerCommands =
      [pauseAbsent "command-1" "device-a" 1000] := by rfl
  have houtcomes : (performAll absentTimerCore (fun _ => 0) .initial calls).2.commandOutcomes =
      ∅ := by rfl
  rw [hcommands, houtcomes] at hone
  exact Finmap.notMem_empty (hone.mpr ⟨pauseAbsent "command-1" "device-a" 1000, by simp, rfl⟩)

theorem absentTimerCore_steady {commands : List Command} {earlier now : Time} :
    Steady absentTimerCore commands earlier now := by
  intro first second hfirst hsecond _ id
  have hsame : reduceTimerWithSharedCore absentTimerCore commands earlier =
      reduceTimerWithSharedCore absentTimerCore commands now := by
    unfold reduceTimerWithSharedCore replayTimerPages
    split
    next hlong =>
      -- the core has no pages
      cases hsorted : sortBy commandKey commands with
      | nil =>
        have hperm : (sortBy commandKey commands).Perm commands := sortBy_perm
        have hlength := hperm.length_eq
        rw [hsorted] at hlength
        rw [← hlength] at hlong
        cases hlong
      | cons command rest =>
        unfold replayPagesFrom
        rfl
    next => rfl
  rw [hsame, hsecond] at hfirst
  cases hfirst
  rfl

/-- A command, a reading, and a replacement by another command. -/
theorem outcomes_complete_pauses :
    let now := Time.ofUnixMilli 2000
    let run := performAll absentTimerCore (fun _ => 0) .initial
      [(.sync (pauseRequest "command-1" "device-a" 1000), now), (.history, now),
        (.resolveBootstrap (replacePause "request-1" "command-2" "device-a" 1 1000), now)]
    OneEach run.2 ∧ run.2.timerCommands = [pauseAbsent "command-2" "device-a" 1000] := by
  intro now run
  let first : Event := ⟨.sync (pauseRequest "command-1" "device-a" 1000), now,
    .ok (pauseAnswer "command-1" 1 2000 true)⟩
  let earlier := performAll absentTimerCore (fun _ => 0) .initial
    [(.sync (pauseRequest "command-1" "device-a" 1000), now), (.history, now)]
  obtain ⟨answer, second, hevents, hearlier⟩ : ∃ answer second,
      run.1 = [first, ⟨.history, now, .ok answer⟩, ⟨.resolveBootstrap
        (replacePause "request-1" "command-2" "device-a" 1 1000), now, second⟩] ∧
      earlier.1 = [first, ⟨.history, now, .ok answer⟩] := ⟨_, _, rfl, rfl⟩
  have hrun : Run absentTimerCore (fun _ => 0) .initial run.1 run.2 := run_performAll
  refine ⟨(outcomes_complete hrun fun before event after s hsplit hbefore => ?_).1, rfl⟩
  rw [hevents] at hsplit
  obtain _ | ⟨x, _ | ⟨y, _ | ⟨z, before⟩⟩⟩ := before <;>
    simp only [List.nil_append, List.cons_append, List.cons.injEq] at hsplit
  · obtain ⟨rfl, -⟩ := hsplit
    exact fun _ => trivial
  · obtain ⟨rfl, rfl, -⟩ := hsplit
    exact fun _ _ _ => absentTimerCore_steady
  · -- the log held another command
    obtain ⟨rfl, rfl, rfl, -⟩ := hsplit
    intro _
    refine .inl ⟨.timer, pauseAbsent "command-1" "device-a" 1000, ?_⟩
    have hreached : Run absentTimerCore (fun _ => 0) .initial earlier.1 earlier.2 := run_performAll
    rw [hearlier] at hreached
    rw [hbefore.unique hreached]
    decide
  · simp at hsplit

end Pomodorough.Store.Outcomes
