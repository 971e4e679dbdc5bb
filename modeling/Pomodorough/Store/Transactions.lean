import Pomodorough.Store.Bootstrap

/-! # What a transaction commits

Every successful call ends alike: some tables are reduced, the revision is
incremented where something changed, and the reduction is written back, always
by a synchronization and otherwise only where something changed. -/
namespace Pomodorough.Store.Transactions
open Pomodorough.Library.Fallible Pomodorough.Library.KeyedLog
open Pomodorough.Store.Records Pomodorough.Store.SharedCoreValidation
open Pomodorough.Store.SharedCore Pomodorough.Store.OperationLogs
open Pomodorough.Store.OperationDomains Pomodorough.Store.Sync Pomodorough.Store.Bootstrap

variable {core : Core} {sha256 : Sha256} {s t u v : UserTables} {now : Time}
  {reduction : AccountReduction} {request : SyncRequest} {result : SyncResult}

/-! ## Reductions -/

/-- A revision the store accepts. -/
def ValidRevision (revision : Int) : Prop := 0 ≤ revision ∧ revision ≤ maxSafeRevision

instance (revision : Int) : Decidable (ValidRevision revision) := inferInstanceAs (Decidable (_ ∧ _))

theorem validateCanonicalRevision_ok {revision : Int} {x : Unit} :
    validateCanonicalRevision revision = .ok x ↔ ValidRevision revision := check_ok_iff

theorem nextRevision_ok {revision next : Int} {changed : Bool} (hv : ValidRevision revision)
    (h : nextRevision revision changed = .ok next) :
    ValidRevision next ∧ next = revision + (if changed then 1 else 0) ∧
      (changed = true → revision < maxSafeRevision) := by
  unfold nextRevision safeRevisionIncrement at h
  split at h
  next hc =>
    obtain ⟨_, hcheck, h⟩ := bind_ok_iff.mp h
    rw [check_ok_iff] at hcheck
    cases h
    have hlt : revision < maxSafeRevision := by omega
    refine ⟨⟨by omega, by omega⟩, by simp [hc], fun _ => hlt⟩
  next hc =>
    cases h
    exact ⟨hv, by simp [hc], fun h => absurd h hc⟩

theorem nextRevision_of_valid {revision next : Int} {changed : Bool}
    (hv : ValidRevision revision) (hnext : ValidRevision next)
    (h : next = revision + (if changed then 1 else 0)) :
    nextRevision revision changed = .ok next := by
  unfold ValidRevision at hv hnext
  unfold nextRevision safeRevisionIncrement
  split
  next hc =>
    have hsucc : next = revision + 1 := by simpa [hc] using h
    rw [hsucc]
    exact bind_ok_iff.mpr ⟨(), check_ok_iff.mpr ⟨by omega, by omega, by omega⟩, rfl⟩
  next hc => simp [h, hc]

/-- What a reduction says of the tables it is computed from. -/
structure Reduces (t : UserTables) (reduction : AccountReduction) : Prop where
  valid : ValidRevision t.revision
  revision : reduction.revision = t.revision
  commands : reduction.commands = loadCommands t
  taskOperations : reduction.taskOperations = loadTaskOperations t
  durationOperations : reduction.durationOperations = loadDurationOperations t
  autoStartOperations : reduction.autoStartOperations = loadAutoStartOperations t
  selectedTaskOperations : reduction.selectedTaskOperations = loadSelectedTaskOperations t
  accepted : Accepted (loadCommands t) reduction.timer

theorem reduceAccount_ok (h : reduceAccount core t now = .ok reduction) : Reduces t reduction := by
  obtain ⟨_, hrevision, h⟩ := bind_ok_iff.mp h
  obtain ⟨timer, htimer, h⟩ := bind_ok_iff.mp h
  obtain ⟨tasks, -, h⟩ := bind_ok_iff.mp h
  obtain ⟨durations, -, h⟩ := bind_ok_iff.mp h
  obtain ⟨autoStart, -, h⟩ := bind_ok_iff.mp h
  obtain ⟨selectedTask, -, h⟩ := bind_ok_iff.mp h
  cases h
  rw [validateCanonicalRevision_ok] at hrevision
  rw [wrap_ok_iff] at htimer
  exact ⟨hrevision, rfl, rfl, rfl, rfl, rfl, rfl, reduceTimerWithSharedCore_ok htimer⟩

theorem reduceAccount_timer (h : reduceAccount core t now = .ok reduction) :
    reduceTimerWithSharedCore core (loadCommands t) now = .ok reduction.timer := by
  obtain ⟨_, -, h⟩ := bind_ok_iff.mp h
  obtain ⟨timer, htimer, h⟩ := bind_ok_iff.mp h
  obtain ⟨_, -, h⟩ := bind_ok_iff.mp h
  obtain ⟨_, -, h⟩ := bind_ok_iff.mp h
  obtain ⟨_, -, h⟩ := bind_ok_iff.mp h
  obtain ⟨_, -, h⟩ := bind_ok_iff.mp h
  cases h
  rw [wrap_ok_iff] at htimer
  exact htimer

/-- The reduction but for the revision is a function of the loaded logs and the
time. -/
theorem reduceAccount_congr (hrev : ValidRevision t.revision) (hrev' : ValidRevision u.revision)
    (h : ∀ d : Domain, d.loaded t = d.loaded u) :
    reduceAccount core t now =
      (reduceAccount core u now).map fun r => { r with revision := t.revision } := by
  have htimer : loadCommands t = loadCommands u := h .timer
  have htask : loadTaskOperations t = loadTaskOperations u := h .task
  have hduration : loadDurationOperations t = loadDurationOperations u := h .duration
  have hautoStart : loadAutoStartOperations t = loadAutoStartOperations u := h .autoStart
  have hselectedTask : loadSelectedTaskOperations t = loadSelectedTaskOperations u :=
    h .selectedTask
  unfold reduceAccount
  rw [validateCanonicalRevision_ok (x := ()) |>.mpr hrev,
    validateCanonicalRevision_ok (x := ()) |>.mpr hrev', htimer, htask, hduration, hautoStart,
    hselectedTask]
  cases wrap "reduce timer with shared core" (reduceTimerWithSharedCore core (loadCommands u) now) with
  | error e => rfl
  | ok timer =>
    cases wrap "reduce tasks with shared core"
        (reduceTasksWithSharedCore core (loadTaskOperations u)) with
    | error e => rfl
    | ok tasks =>
      cases wrap "reduce durations with shared core"
          (reduceDurationsWithSharedCore core (loadDurationOperations u)) with
      | error e => rfl
      | ok durations =>
        cases wrap "reduce auto-start with shared core"
            (reduceAutoStartWithSharedCore core (loadAutoStartOperations u)) with
        | error e => rfl
        | ok autoStart =>
          dsimp only [bind, Except.bind]
          cases wrap "reduce selected task with shared core"
              (reduceSelectedTaskWithSharedCore core (loadSelectedTaskOperations u) tasks.1) <;> rfl

/-! ## Writing a reduction back -/

theorem persistReduction_ok {revision : Int} (h : persistReduction u reduction revision = .ok v) :
    ValidRevision revision ∧ v = persisted u reduction revision := by
  obtain ⟨_, hrevision, h⟩ := bind_ok_iff.mp h
  obtain ⟨_, -, h⟩ := bind_ok_iff.mp h
  obtain ⟨_, -, h⟩ := bind_ok_iff.mp h
  cases h
  exact ⟨validateCanonicalRevision_ok.mp hrevision, rfl⟩

/-- An accepted reduction of the tables it is written to satisfies their keys
and checks. -/
theorem persistReduction_succeeds {revision : Int} (h : Reduces u reduction)
    (hrevision : ValidRevision revision) :
    persistReduction u reduction revision = .ok (persisted u reduction revision) := by
  have hentry : ∀ entry ∈ reduction.timer.outcomes.entries,
      (∃ command ∈ u.timerCommands, command.id = entry.1) ∧
        entry.2.outcome ∈ ["applied", "ignored", "rejected"] := by
    intro entry hmem
    refine ⟨?_, h.accepted.kinds entry hmem⟩
    have hkey : entry.1 ∈ reduction.timer.outcomes := by
      rw [AList.mem_keys]
      exact List.mem_map_of_mem hmem
    rw [h.accepted.outcomes, List.mem_map] at hkey
    obtain ⟨command, hcommand, heq⟩ := hkey
    exact ⟨command, mem_sortBy.mp hcommand, heq⟩
  refine bind_ok_iff.mpr ⟨(), validateCanonicalRevision_ok.mpr hrevision, ?_⟩
  refine bind_ok_iff.mpr ⟨(), checkAll_ok_iff.mpr fun entry hmem =>
    check_ok_iff.mpr (hentry entry hmem), ?_⟩
  exact bind_ok_iff.mpr ⟨(), check_ok_iff.mpr h.accepted.sessions, rfl⟩

/-- The outcome stored for a command is the one the reduction gives it. -/
theorem lookup_persisted {revision : Int} (h : Reduces u reduction) {command : Command}
    (hmem : command ∈ u.timerCommands) :
    (persisted u reduction revision).commandOutcomes.lookup command.id =
      reduction.timer.outcomes.lookup command.id := by
  have hkey : command.id ∈ reduction.timer.outcomes.toFinmap := by
    rw [Finmap.mem_toFinmap, h.accepted.outcomes]
    exact List.mem_map_of_mem (mem_sortBy.mpr hmem)
  show (reduction.timer.outcomes.toFinmap ∪ u.commandOutcomes).lookup command.id = _
  rw [Finmap.lookup_union_left hkey, Finmap.lookup_toFinmap]

/-- How a transaction ends: the reduction of `u` is written back, or nothing
changed and nothing is. -/
structure Commit (core : Core) (now : Time) (u : UserTables) (reduction : AccountReduction)
    (changed : Bool) (v : UserTables) : Prop where
  reduced : reduceAccount core u now = .ok reduction
  valid : ValidRevision v.revision
  revision : v.revision = u.revision + (if changed then 1 else 0)
  written : v = persisted u reduction v.revision ∨ changed = false ∧ v = u

theorem Commit.reduces {changed : Bool} (h : Commit core now u reduction changed v) :
    Reduces u reduction := reduceAccount_ok h.reduced

/-- The logs and the stored resolutions are not touched any more. -/
theorem Commit.log {changed : Bool} (h : Commit core now u reduction changed v) (d : Domain) :
    d.log v = d.log u := by
  obtain hv | ⟨-, rfl⟩ := h.written
  · rw [hv]
    cases d <;> rfl
  · rfl

theorem Commit.bootstrapResolutions {changed : Bool} (h : Commit core now u reduction changed v) :
    v.bootstrapResolutions = u.bootstrapResolutions := by
  obtain hv | ⟨-, rfl⟩ := h.written
  · rw [hv]
    rfl
  · rfl

/-- Where something changed, the reduction is written back. -/
theorem Commit.written_of_changed (h : Commit core now u reduction true v) :
    v = persisted u reduction v.revision := by
  obtain hv | ⟨hc, -⟩ := h.written
  · exact hv
  · cases hc

theorem persistIfChanged_ok {changed : Bool} {revision : Int}
    (hreduced : reduceAccount core u now = .ok reduction)
    (hnext : nextRevision u.revision changed = .ok revision)
    (h : persistIfChanged u reduction revision changed = .ok v) :
    revision = v.revision ∧ Commit core now u reduction changed v := by
  obtain ⟨hvalid, hrevision, -⟩ := nextRevision_ok (reduceAccount_ok hreduced).valid hnext
  unfold persistIfChanged at h
  split at h
  next hchanged =>
    obtain ⟨-, rfl⟩ := persistReduction_ok h
    exact ⟨rfl, hreduced, hvalid, hrevision, .inl rfl⟩
  next hchanged =>
    cases h
    have hsame : revision = u.revision := by simpa [hchanged] using hrevision
    subst hsame
    exact ⟨rfl, hreduced, hvalid, hrevision, .inr ⟨by simpa using hchanged, rfl⟩⟩

theorem resultFromReduction_revision {revision : Int} {asked : Option SyncRequest}
    (h : resultFromReduction core reduction revision now asked = .ok result) :
    result.revision = revision := by
  obtain ⟨_, -, h⟩ := bind_ok_iff.mp h
  cases h
  rfl

/-! ## Synchronization -/

@[simp] theorem log_recordSyncDevice (d : Domain) {deviceID : String} :
    d.log (recordSyncDevice s deviceID now) = d.log s := by
  cases d <;> rfl

/-- What a synchronization that succeeds has done. -/
structure SyncCommit (core : Core) (s : UserTables) (request : SyncRequest) (now : Time)
    (u : UserTables) (applied : OperationApplication) (reduction : AccountReduction)
    (t : UserTables) (result : SyncResult) : Prop where
  unique : validateUniqueOperationIDs request = .ok ()
  operations : applyOperations (recordSyncDevice s request.deviceID now) request = .ok (u, applied)
  commit : Commit core now u reduction
    (applied.changed || timerProjectionChanged u reduction.timer) t
  written : t = persisted u reduction t.revision
  result : ∃ base, resultFromReduction core reduction t.revision now (some request) = .ok base ∧
    result = { addAcknowledgements base request applied reduction with
      changed := applied.changed || timerProjectionChanged u reduction.timer }

theorem sync_ok (h : sync core s request now = .ok (t, result)) :
    ∃ u applied reduction, SyncCommit core s request now u applied reduction t result := by
  obtain ⟨_, hunique, h⟩ := bind_ok_iff.mp h
  obtain ⟨⟨u, applied⟩, happlied, h⟩ := bind_ok_iff.mp h
  obtain ⟨reduction, hreduced, h⟩ := bind_ok_iff.mp h
  obtain ⟨revision, hnext, h⟩ := bind_ok_iff.mp h
  obtain ⟨v, hpersist, h⟩ := bind_ok_iff.mp h
  obtain ⟨base, hbase, h⟩ := bind_ok_iff.mp h
  cases h
  have hred := reduceAccount_ok hreduced
  rw [hred.revision] at hnext
  obtain ⟨hvalid, hrevision, -⟩ := nextRevision_ok hred.valid hnext
  obtain ⟨-, rfl⟩ := persistReduction_ok hpersist
  exact ⟨u, applied, reduction, hunique, happlied, ⟨hreduced, hvalid, hrevision, .inl rfl⟩, rfl,
    base, hbase, rfl⟩

/-- A response reports the revision that was committed. -/
theorem SyncCommit.reported {applied : OperationApplication}
    (h : SyncCommit core s request now u applied reduction t result) :
    result.revision = t.revision := by
  obtain ⟨base, hbase, rfl⟩ := h.result
  show base.revision = t.revision
  exact resultFromReduction_revision hbase

/-- A synchronization does what it may. -/
theorem SyncCommit.sync {applied : OperationApplication}
    (h : SyncCommit core s request now u applied reduction t result) :
    Sync.sync core s request now = .ok (t, result) := by
  obtain ⟨base, hbase, hresult⟩ := h.result
  have hreduces := h.commit.reduces
  have hnext := nextRevision_of_valid hreduces.valid h.commit.valid h.commit.revision
  rw [← hreduces.revision] at hnext
  have hpersist := persistReduction_succeeds hreduces h.commit.valid
  rw [← h.written] at hpersist
  refine bind_ok_iff.mpr ⟨(), h.unique, bind_ok_iff.mpr ⟨(u, applied), h.operations, ?_⟩⟩
  refine bind_ok_iff.mpr ⟨reduction, h.commit.reduced, bind_ok_iff.mpr ⟨t.revision, hnext, ?_⟩⟩
  exact bind_ok_iff.mpr ⟨t, hpersist, bind_ok_iff.mpr ⟨base, hbase, by rw [hresult]⟩⟩

/-! ## Materialization -/

/-- What a bootstrap or a history that succeeds has done. -/
structure MaterializeCommit (core : Core) (s : UserTables) (now : Time)
    (reduction : AccountReduction) (t : UserTables) (result : SyncResult) : Prop where
  commit : Commit core now s reduction (timerProjectionChanged s reduction.timer) t
  result : ∃ base, resultFromReduction core reduction t.revision now none = .ok base ∧
    result = { base with changed := timerProjectionChanged s reduction.timer }

theorem MaterializeCommit.reported (h : MaterializeCommit core s now reduction t result) :
    result.revision = t.revision := by
  obtain ⟨base, hbase, rfl⟩ := h.result
  show base.revision = t.revision
  exact resultFromReduction_revision hbase

theorem materializeProjection_ok (h : materializeProjection core s now = .ok (t, result)) :
    ∃ reduction, MaterializeCommit core s now reduction t result := by
  obtain ⟨reduction, hreduced, h⟩ := bind_ok_iff.mp h
  obtain ⟨revision, hnext, h⟩ := bind_ok_iff.mp h
  obtain ⟨v, hpersist, h⟩ := bind_ok_iff.mp h
  obtain ⟨base, hbase, h⟩ := bind_ok_iff.mp h
  cases h
  rw [(reduceAccount_ok hreduced).revision] at hnext
  obtain ⟨rfl, hcommit⟩ := persistIfChanged_ok hreduced hnext hpersist
  exact ⟨reduction, hcommit, base, hbase, rfl⟩

/-! ## Resolution -/

/-- The tables a strategy applies its operations to. -/
def strategyBase (s : UserTables) (request : BootstrapResolutionRequest) : UserTables :=
  if request.strategy = bootstrapReplaceRemote then
    clearForBootstrapReplacement s request.autoStartOperationsPresent
      request.selectedTaskOperationsPresent
  else s

theorem strategyBase_replace {request : BootstrapResolutionRequest}
    (h : request.strategy = bootstrapReplaceRemote) :
    strategyBase s request = clearForBootstrapReplacement s request.autoStartOperationsPresent
      request.selectedTaskOperationsPresent := if_pos h

theorem strategyBase_other {request : BootstrapResolutionRequest}
    (h : request.strategy ≠ bootstrapReplaceRemote) : strategyBase s request = s := if_neg h

/-- What the strategy of a first application does. Keeping submits nothing. -/
structure StrategyApplied (core : Core) (s : UserTables) (request : BootstrapResolutionRequest)
    (now : Time) (u : UserTables) (application : BootstrapStrategyApplication) : Prop where
  operations : applyOperations (strategyBase s request) request.syncRequest =
    .ok (u, application.operations)
  reduced : reduceAccount core u now = .ok application.reduction
  before : request.strategy = bootstrapReplaceRemote →
    ∃ before, application.before = some before ∧ reduceAccount core s now = .ok before

theorem applyOperations_nil (h : ∀ d : Domain, d.submitted request = []) :
    applyOperations s request = .ok (s, {}) := by
  have hcommands : request.commands = [] := h .timer
  have htasks : request.taskOperations = [] := h .task
  have hdurations : request.durationOperations = [] := h .duration
  have hautoStarts : request.autoStartOperations = [] := h .autoStart
  have hselectedTasks : request.selectedTaskOperations = [] := h .selectedTask
  unfold applyOperations
  rw [hcommands, htasks, hdurations, hautoStarts, hselectedTasks]
  rfl

theorem applyBootstrapStrategy_ok {request : BootstrapResolutionRequest}
    {application : BootstrapStrategyApplication}
    (hkeep : request.strategy = bootstrapKeepRemote →
      ∀ d : Domain, d.submitted request.syncRequest = [])
    (h : applyBootstrapStrategy core s request request.syncRequest now = .ok (u, application)) :
    StrategyApplied core s request now u application := by
  have hne : bootstrapKeepRemote ≠ bootstrapReplaceRemote := by decide
  unfold applyBootstrapStrategy at h
  split at h
  next hstrategy =>
    obtain ⟨before, hbefore, h⟩ := bind_ok_iff.mp h
    cases h
    have hother : request.strategy ≠ bootstrapReplaceRemote := by rw [hstrategy]; exact hne
    refine ⟨?_, hbefore, fun hreplace => absurd hreplace hother⟩
    rw [strategyBase_other hother]
    exact applyOperations_nil (hkeep hstrategy)
  next =>
    split at h
    next hstrategy =>
      obtain ⟨before, hbefore, h⟩ := bind_ok_iff.mp h
      obtain ⟨⟨w, operations⟩, happlied, h⟩ := bind_ok_iff.mp h
      obtain ⟨reduction, hreduced, h⟩ := bind_ok_iff.mp h
      cases h
      exact ⟨by rwa [strategyBase_replace hstrategy], hreduced, fun _ => ⟨before, rfl, hbefore⟩⟩
    next hstrategy =>
      obtain ⟨⟨w, operations⟩, happlied, h⟩ := bind_ok_iff.mp h
      obtain ⟨reduction, hreduced, h⟩ := bind_ok_iff.mp h
      cases h
      exact ⟨by rwa [strategyBase_other hstrategy], hreduced,
        fun hreplace => absurd hreplace hstrategy⟩

/-- Whether a strategy counts as a change of the operations. -/
def operationsChanged (strategy : String) (application : BootstrapStrategyApplication) : Bool :=
  if strategy = bootstrapReplaceRemote then
    application.before.any fun before => replacementChanged before application.reduction
  else application.operations.changed

/-- A validated resolution. -/
structure ValidResolution (request : BootstrapResolutionRequest) : Prop where
  unique : validateUniqueOperationIDs request.syncRequest = .ok ()
  strategy : request.strategy = bootstrapKeepRemote ∨ request.strategy = bootstrapReplaceRemote ∨
    request.strategy = bootstrapMerge
  keep : request.strategy = bootstrapKeepRemote →
    ∀ d : Domain, d.submitted request.syncRequest = []

theorem validateBootstrapResolutionRequest_ok {request : BootstrapResolutionRequest}
    {submitted : SyncRequest} {payloadHash : Hash}
    (h : validateBootstrapResolutionRequest sha256 request = .ok (submitted, payloadHash)) :
    ValidResolution request ∧ submitted = request.syncRequest ∧
      payloadHash = bootstrapPayloadHash sha256 request := by
  obtain ⟨_, hunique, h⟩ := bind_ok_iff.mp h
  obtain ⟨_, hstrategy, h⟩ := bind_ok_iff.mp h
  obtain ⟨_, hkeep, h⟩ := bind_ok_iff.mp h
  rw [check_ok_iff] at hstrategy hkeep
  cases h
  refine ⟨⟨hunique, hstrategy, fun hs d => ?_⟩, rfl, rfl⟩
  obtain ⟨hcommands, htasks, hdurations, hautoStarts, hselectedTasks⟩ := hkeep hs
  cases d
  · exact hcommands
  · exact htasks
  · exact hdurations
  · exact hautoStarts
  · exact hselectedTasks

/-- What the first application of a resolution has done. -/
structure ResolveCommit (core : Core) (sha256 : Sha256) (s : UserTables)
    (request : BootstrapResolutionRequest) (now : Time) (u : UserTables)
    (application : BootstrapStrategyApplication) (v t : UserTables) (result : SyncResult) :
    Prop where
  valid : ValidResolution request
  fresh : s.bootstrapResolutions.lookup request.requestID = none
  expected : s.revision = request.expectedRevision
  applied : StrategyApplied core s request now u application
  commit : Commit core now u application.reduction
    (operationsChanged request.strategy application ||
      timerProjectionChanged u application.reduction.timer) v
  recorded : t = recordResolution v request.requestID (bootstrapPayloadHash sha256 request) result
  result : ∃ base, resultFromReduction core application.reduction v.revision now
      (some request.syncRequest) = .ok base ∧
    result = { (if request.strategy = bootstrapKeepRemote then base
      else addAcknowledgements base request.syncRequest application.operations
        application.reduction) with
      changed := operationsChanged request.strategy application ||
        timerProjectionChanged u application.reduction.timer }

theorem ResolveCommit.reported {request : BootstrapResolutionRequest}
    {application : BootstrapStrategyApplication}
    (h : ResolveCommit core sha256 s request now u application v t result) :
    result.revision = v.revision := by
  obtain ⟨base, hbase, rfl⟩ := h.result
  have hreported := resultFromReduction_revision hbase
  dsimp only
  split
  · exact hreported
  · exact hreported

/-- What a retry has done: nothing but answer with what is stored. -/
structure Replay (sha256 : Sha256) (s : UserTables) (request : BootstrapResolutionRequest)
    (stored : BootstrapResolution) (result : SyncResult) : Prop where
  valid : ValidResolution request
  found : s.bootstrapResolutions.lookup request.requestID = some stored
  hash : storedBootstrapPayloadMatches sha256 stored.payloadHash
    (bootstrapPayloadHash sha256 request) request = true
  revision : ValidRevision stored.response.revision
  result : normalizeStoredSyncResult (decodeStoredResponse stored.response) = .ok result

theorem persistBootstrapApplication_ok {strategy : String}
    {application : BootstrapStrategyApplication} {revision : Int} {changed : Bool}
    (hreduced : reduceAccount core u now = .ok application.reduction)
    (h : persistBootstrapApplication u strategy application u.revision =
      .ok (v, revision, changed)) :
    changed = (operationsChanged strategy application ||
        timerProjectionChanged u application.reduction.timer) ∧ revision = v.revision ∧
      Commit core now u application.reduction changed v := by
  obtain ⟨next, hnext, h⟩ := bind_ok_iff.mp h
  obtain ⟨w, hpersist, h⟩ := bind_ok_iff.mp h
  cases h
  exact ⟨rfl, persistIfChanged_ok hreduced hnext hpersist⟩

theorem lookupStoredBootstrapResponse_ok {request : BootstrapResolutionRequest}
    {payloadHash : Hash} {found : Option SyncResult}
    (h : lookupStoredBootstrapResponse sha256 s request payloadHash = .ok found) :
    (s.bootstrapResolutions.lookup request.requestID = none ∧ found = none) ∨
      ∃ stored result, s.bootstrapResolutions.lookup request.requestID = some stored ∧
        storedBootstrapPayloadMatches sha256 stored.payloadHash payloadHash request = true ∧
        ValidRevision stored.response.revision ∧
        normalizeStoredSyncResult (decodeStoredResponse stored.response) = .ok result ∧
        found = some result := by
  unfold lookupStoredBootstrapResponse at h
  split at h
  next hnone =>
    cases h
    exact .inl ⟨hnone, rfl⟩
  next stored hsome =>
    obtain ⟨_, hhash, h⟩ := bind_ok_iff.mp h
    obtain ⟨_, hrevision, h⟩ := bind_ok_iff.mp h
    obtain ⟨result, hresult, h⟩ := bind_ok_iff.mp h
    cases h
    exact .inr ⟨stored, result, hsome, check_ok_iff.mp hhash,
      validateCanonicalRevision_ok.mp hrevision, hresult, rfl⟩

theorem strategyBase_revision {request : BootstrapResolutionRequest} :
    (strategyBase s request).revision = s.revision := by
  unfold strategyBase
  split <;> rfl

theorem resolveBootstrap_ok {request : BootstrapResolutionRequest}
    (hutc : ∀ d : Domain, ∀ x ∈ d.log (strategyBase s request), (d.occurredAt x).zone = 0)
    (h : resolveBootstrap core sha256 s request now = .ok (t, result)) :
    (∃ stored, Replay sha256 s request stored result ∧ t = s) ∨
      ∃ u application v, ResolveCommit core sha256 s request now u application v t result := by
  obtain ⟨⟨submitted, payloadHash⟩, hvalidate, h⟩ := bind_ok_iff.mp h
  obtain ⟨hvalid, rfl, rfl⟩ := validateBootstrapResolutionRequest_ok hvalidate
  obtain ⟨found, hlookup, h⟩ := bind_ok_iff.mp h
  obtain ⟨hnone, rfl⟩ | ⟨stored, replayed, hsome, hhash, hrevision, hresult, rfl⟩ :=
    lookupStoredBootstrapResponse_ok hlookup
  · obtain ⟨revision, hrev, h⟩ := bind_ok_iff.mp h
    obtain ⟨_, -, hrev⟩ := bind_ok_iff.mp hrev
    obtain ⟨_, hexpected, hrev⟩ := bind_ok_iff.mp hrev
    rw [check_ok_iff] at hexpected
    cases hrev
    obtain ⟨⟨u, application⟩, hstrategy, h⟩ := bind_ok_iff.mp h
    have happlied := applyBootstrapStrategy_ok hvalid.keep hstrategy
    obtain ⟨⟨v, next, changed⟩, hpersist, h⟩ := bind_ok_iff.mp h
    obtain ⟨base, hbase, h⟩ := bind_ok_iff.mp h
    cases h
    have hrevision : u.revision = s.revision :=
      (applyOperations_ok hutc happlied.operations).beside.revision.trans strategyBase_revision
    rw [← hrevision] at hpersist
    obtain ⟨rfl, rfl, hcommit⟩ := persistBootstrapApplication_ok happlied.reduced hpersist
    exact .inr ⟨u, application, v, hvalid, hnone, hexpected, happlied, hcommit, rfl, base, hbase, rfl⟩
  · cases h
    exact .inl ⟨stored, ⟨hvalid, hsome, hhash, hrevision, hresult⟩, rfl⟩

end Pomodorough.Store.Transactions
