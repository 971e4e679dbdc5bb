import Pomodorough.Store.Replacement

/-! # What a replacement leaves

A replacement that commits leaves the request's operations and their reduction
in the place of what was stored; one that fails leaves what was stored, the flag
that lifts the triggers included. Nothing is asked of what was stored. -/
namespace Pomodorough.Store.ReplacementPostcondition
open Pomodorough.Library.Fallible Pomodorough.Library.KeyedLog
open Pomodorough.Library.SqlTransactions
open Pomodorough.Store.Records Pomodorough.Store.SharedCoreValidation
open Pomodorough.Store.SharedCore Pomodorough.Store.OperationLogs
open Pomodorough.Store.OperationDomains Pomodorough.Store.Sync Pomodorough.Store.Bootstrap
open Pomodorough.Store.Transactions Pomodorough.Store.AccountRuns Pomodorough.Store.Revisions
open Pomodorough.Store.SameReplacement Pomodorough.Store.Replacement

variable {core : Core} {sha256 : Sha256} {s t u v : UserTables} {now : Time}
  {request : BootstrapResolutionRequest} {result : SyncResult} {before after : Database}

/-- A replacement whose optional logs are submitted to only where it says that
they are present. -/
structure ReplaceRequest (request : BootstrapResolutionRequest) : Prop where
  strategy : request.strategy = bootstrapReplaceRemote
  autoStarts : request.autoStartOperationsPresent = false → request.autoStartOperations = []
  selectedTasks : request.selectedTaskOperationsPresent = false →
    request.selectedTaskOperations = []

/-- The row is that of a command whose device sequence no earlier command of the
request has. -/
def FirstInSequence (request : BootstrapResolutionRequest) (row : Command) : Prop :=
  ∃ earlier command later, request.commands = earlier ++ command :: later ∧
    (∀ other ∈ earlier, other.deviceSequence ≠ command.deviceSequence) ∧
    row = commandRow request.deviceID command

/-- The account is what the request makes of it. -/
structure Replaced (core : Core) (request : BootstrapResolutionRequest) (now : Time)
    (before after : Database) : Prop where
  timerCommands : ∀ row, row ∈ after.tables.timerCommands ↔ FirstInSequence request row
  timerCommandIDs : (after.tables.timerCommands.map Command.id).Nodup
  taskOperations : after.tables.taskOperations =
    request.taskOperations.map (taskOperationRow request.deviceID)
  durationOperations : after.tables.durationOperations =
    request.durationOperations.map (durationOperationRow request.deviceID)
  autoStartOperations : after.tables.autoStartOperations =
    if request.autoStartOperationsPresent then
      request.autoStartOperations.map (autoStartOperationRow request.deviceID)
    else before.tables.autoStartOperations
  selectedTaskOperations : after.tables.selectedTaskOperations =
    if request.selectedTaskOperationsPresent then
      request.selectedTaskOperations.map (selectedTaskOperationRow request.deviceID)
    else before.tables.selectedTaskOperations
  projection : ∃ timer, reduceTimerWithSharedCore core (loadCommands after.tables) now = .ok timer ∧
    after.tables.timerSessions = timer.sessions.map sessionRow ∧
    after.tables.currentTimerID = timer.canonical.map CanonicalTimer.id
  flag : bootstrapReplaceFlag ∉ after.maintenanceFlags

/-! ## The logs -/

theorem ReplaceRequest.submitted (h : ReplaceRequest request) (d : Domain)
    (hleft : cleared request d = false) : d.submitted request.syncRequest = [] := by
  cases d with
  | timer => cases hleft
  | task => cases hleft
  | duration => cases hleft
  | autoStart => exact h.autoStarts hleft
  | selectedTask => exact h.selectedTasks hleft

/-- A log that was emptied holds what the loop has inserted, any other what it
held. -/
theorem ReplaceRequest.log (h : ReplaceRequest request) {applied : OperationApplication}
    (happlied : OperationLogs.applyOperations (strategyBase s request) request.syncRequest =
      .ok (u, applied)) (d : Domain) :
    d.log u = if cleared request d then offers d.keys [] (d.rows request.syncRequest)
      else d.log s := by
  have hbase : d.log (strategyBase s request) = if cleared request d then [] else d.log s := by
    rw [log_strategyBase d]
    simp [h.strategy]
  cases hcleared : cleared request d with
  | true =>
    rw [if_pos hcleared] at hbase
    rw [applyOperations_log happlied d (.inr ?_), hbase]
    · rfl
    · rw [hbase]
      intro x hx
      cases hx
  | false =>
    have hnone := h.submitted d hcleared
    rw [applyOperations_log happlied d (.inl hnone), hbase, hcleared, Domain.rows, hnone]
    rfl

theorem rows_key (d : Domain) {request : SyncRequest} :
    (d.rows request).map d.keys.key = (d.submitted request).map d.id := by
  rw [Domain.rows, List.map_map]
  refine List.map_congr_left fun operation _ => ?_
  exact Lawful.mem_key.trans (d.lawful.id_row request.deviceID operation)

/-- The rows of a valid request are inserted in order where only ids count. -/
theorem offers_rows (hvalid : ValidResolution request) (d : Domain) (hd : d ≠ .timer) :
    offers d.keys [] (d.rows request.syncRequest) = d.rows request.syncRequest := by
  refine offers_nil_of_nodup ?_ fun row _ => ?_
  · rw [rows_key d]
    exact validateUniqueOperationIDs_ok hvalid.unique d
  · cases d with
    | timer => exact absurd rfl hd
    | task => rfl
    | duration => rfl
    | autoStart => rfl
    | selectedTask => rfl

theorem sameSlot_commandRow {deviceID : String} {first second : Command} :
    commandKeys.SameSlot (commandRow deviceID first) (commandRow deviceID second) ↔
      first.deviceSequence = second.deviceSequence := by
  simp [Keys.SameSlot, commandKeys, commandRow]

/-- The rows of the commands are inserted but for those whose slot is taken. -/
theorem mem_offers_commands (hvalid : ValidResolution request) (row : Command) :
    row ∈ offers commandKeys [] (Domain.timer.rows request.syncRequest) ↔
      FirstInSequence request row := by
  have hkeys : ((Domain.timer.rows request.syncRequest).map commandKeys.key).Nodup := by
    have hrows : (Domain.timer.rows request.syncRequest).map commandKeys.key =
        request.commands.map Command.id := rows_key .timer
    rw [hrows]
    exact validateUniqueOperationIDs_ok hvalid.unique .timer
  rw [mem_offers_nil_iff hkeys]
  constructor
  · intro h
    obtain ⟨rowsBefore, rowsAfter, hsplit, hfirst⟩ := h
    obtain ⟨earlier, rest, hcommands, hearlier, hrest⟩ := List.map_eq_append_iff.mp hsplit
    obtain ⟨command, later, rfl, rfl, -⟩ := List.map_eq_cons_iff.mp hrest
    subst hearlier
    refine ⟨earlier, command, later, hcommands, fun other hother hsame => ?_, rfl⟩
    exact hfirst _ (List.mem_map_of_mem hother) (sameSlot_commandRow.mpr hsame)
  · intro h
    obtain ⟨earlier, command, later, hcommands, hfirst, rfl⟩ := h
    refine ⟨earlier.map (commandRow request.deviceID), later.map (commandRow request.deviceID),
      ?_, ?_⟩
    · show request.commands.map (commandRow request.deviceID) = _
      rw [hcommands, List.map_append, List.map_cons]
    · intro y hy hsame
      obtain ⟨other, hother, rfl⟩ := List.mem_map.mp hy
      exact hfirst other hother (sameSlot_commandRow.mp hsame)

/-! ## The projection -/

/-- The stored projection is the reduction, also where it was not written: then
there is nothing to store. -/
theorem projection_persisted {application : BootstrapStrategyApplication} {strategy : String}
    {revision next : Int} {changed : Bool}
    (hreduced : reduceAccount core u now = .ok application.reduction)
    (hcleared : u.timerSessions = [] ∧ u.currentTimerID = none)
    (hpersist : Bootstrap.persistBootstrapApplication u strategy application revision =
      .ok (v, next, changed)) :
    v.timerSessions = application.reduction.timer.sessions.map sessionRow ∧
      v.currentTimerID = application.reduction.timer.canonical.map CanonicalTimer.id := by
  obtain ⟨hchanged, hunwritten, hwritten⟩ := persistBootstrapApplication_changed hpersist
  cases changed with
  | true =>
    rw [hwritten rfl]
    exact ⟨rfl, rfl⟩
  | false =>
    have hsame : timerProjectionChanged u application.reduction.timer = false :=
      (Bool.or_eq_false_iff.mp hchanged.symm).2
    rw [← Bool.not_eq_true, timerProjectionChanged_iff, not_not] at hsame
    have hsessions : (loadTimerSessionProjection u).map atMilli =
        application.reduction.timer.sessions.map atMilli :=
      congrArg MilliProjection.sessions hsame
    have hnone : application.reduction.timer.sessions = [] := by
      rw [loadTimerSessionProjection, hcleared.1] at hsessions
      exact List.map_eq_nil_iff.mp hsessions.symm
    rw [hunwritten rfl, hcleared.1, hcleared.2, hnone,
      (canonical_of_reduced (reduceAccount_timer hreduced)).2 hnone]
    exact ⟨rfl, rfl⟩

/-! ## The request that commits -/

/-- What a first application of a replacement does to the tables. -/
theorem resolveBootstrap_replaced (hrequest : ReplaceRequest request)
    (hfresh : before.tables.bootstrapResolutions.lookup request.requestID = none)
    (hflag : bootstrapReplaceFlag ∉ after.maintenanceFlags)
    (h : resolveBootstrap core sha256 before.tables request now = .ok (after.tables, result)) :
    Replaced core request now before after := by
  obtain ⟨u, application, v, changed, hfirst⟩ := resolveBootstrap_first hfresh h
  have hvalid := hfirst.valid
  have happlied := Transactions.applyBootstrapStrategy_ok hvalid.keep hfirst.strategy
  have hbeside := applyOperations_beside happlied.operations
  rw [strategyBase_replace hrequest.strategy] at hbeside
  obtain ⟨next, hpersist⟩ := hfirst.persist
  obtain ⟨-, hunwritten, hwritten⟩ := persistBootstrapApplication_changed hpersist
  have hlogs : ∀ d : Domain, d.log after.tables = d.log u := by
    intro d
    have hrecorded : d.log after.tables = d.log v := by
      rw [hfirst.recorded]
      cases d <;> rfl
    rw [hrecorded]
    cases changed with
    | true =>
      rw [hwritten rfl]
      cases d <;> rfl
    | false => rw [hunwritten rfl]
  have hlog : ∀ d : Domain, d.log after.tables = _ := fun d =>
    (hlogs d).trans (hrequest.log happlied.operations d)
  have htimer : after.tables.timerCommands =
      offers commandKeys [] (Domain.timer.rows request.syncRequest) := hlog .timer
  obtain ⟨hsessions, hcurrent⟩ := projection_persisted happlied.reduced
    ⟨hbeside.timerSessions, hbeside.currentTimerID⟩ hpersist
  refine ⟨fun row => ?_, ?_, ?_, ?_, ?_, ?_, ⟨application.reduction.timer, ?_, ?_, ?_⟩, hflag⟩
  · rw [htimer]
    exact mem_offers_commands hvalid row
  · rw [htimer]
    exact distinct_offers (K := commandKeys) List.nodup_nil
  · exact (hlog .task).trans (offers_rows hvalid .task (by decide))
  · exact (hlog .duration).trans (offers_rows hvalid .duration (by decide))
  · refine (hlog .autoStart).trans ?_
    rw [offers_rows hvalid .autoStart (by decide)]
    rfl
  · refine (hlog .selectedTask).trans ?_
    rw [offers_rows hvalid .selectedTask (by decide)]
    rfl
  · have hload : loadCommands after.tables = loadCommands u := Domain.loaded_congr .timer (hlogs .timer)
    rw [hload]
    exact reduceAccount_timer happlied.reduced
  · rw [hfirst.recorded]
    exact hsessions
  · rw [hfirst.recorded]
    exact hcurrent

/-- Whatever is stored and whichever statements fail: a replacement that is
answered for the first time has replaced the account, and one that fails has
changed nothing. -/
theorem replace_remote_commits_or_rolls_back (core : Core) (sha256 : Sha256)
    (faults : Faults StoreError) (db : Database) (request : BootstrapResolutionRequest) (now : Time)
    (hrequest : ReplaceRequest request) :
    (∀ result, (resolveBootstrapLocked core sha256 faults ⟨db, none⟩ request now).1 = .ok result →
      db.tables.bootstrapResolutions.lookup request.requestID = none →
      ∃ after, (resolveBootstrapLocked core sha256 faults ⟨db, none⟩ request now).2 =
        ⟨after, none⟩ ∧ Replaced core request now db after) ∧
    (∀ e, (resolveBootstrapLocked core sha256 faults ⟨db, none⟩ request now).1 = .error e →
      (resolveBootstrapLocked core sha256 faults ⟨db, none⟩ request now).2 = ⟨db, none⟩) := by
  unfold resolveBootstrapLocked
  split
  next e hvalidate =>
    refine ⟨fun result h _ => ?_, fun _ _ => rfl⟩
    cases h
  next syncRequest payloadHash hvalidate =>
    refine ⟨fun result h hfresh => ?_, fun e h => transact_error h⟩
    obtain ⟨w, ⟨hbody, hafter⟩ | ⟨hbody, -⟩⟩ := transact_ok h
    · obtain ⟨hresolve, hflags, hflag⟩ := resolution_ok hvalidate hfresh hbody
      refine ⟨w.state, hafter, resolveBootstrap_replaced hrequest hfresh ?_ hresolve⟩
      rw [hflags]
      exact hflag hrequest.strategy
    · exact absurd hfresh (resolution_abandon hbody)

/-- The account of a device that has paused, replaced by two commands of which
the second has the device sequence of the first. -/
def replaceByTwo : BootstrapResolutionRequest :=
  replaceCommands "request-1" "device-a" 1
    [pauseAbsent "command-2" "device-a" 1000, pauseAbsent "command-3" "device-a" 1500]

theorem replaceRequest_replaceByTwo : ReplaceRequest replaceByTwo where
  strategy := rfl
  autoStarts _ := rfl
  selectedTasks _ := rfl

theorem replace_remote_commits_pausedOnce :
    ∃ after, (resolveBootstrapLocked absentTimerCore (fun _ => 0) (fun _ => none)
        ⟨⟨pausedOnce.2, []⟩, none⟩ replaceByTwo (Time.ofUnixMilli 2000)).2 = ⟨after, none⟩ ∧
      Replaced absentTimerCore replaceByTwo (Time.ofUnixMilli 2000) ⟨pausedOnce.2, []⟩ after := by
  obtain ⟨result, hresolve, -⟩ := exists_ok (x := (resolveBootstrapLocked absentTimerCore
    (fun _ => 0) (fun _ => none) ⟨⟨pausedOnce.2, []⟩, none⟩ replaceByTwo (Time.ofUnixMilli 2000)).1)
    (p := fun _ => true) (by decide +kernel)
  exact (replace_remote_commits_or_rolls_back _ _ _ _ _ _ replaceRequest_replaceByTwo).1 result
    hresolve (by decide +kernel)

end Pomodorough.Store.ReplacementPostcondition
