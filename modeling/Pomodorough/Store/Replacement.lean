import Pomodorough.Library.SqlTransactions
import Pomodorough.Store.SameReplacement

/-! # A resolution, statement by statement

The logs may not be deleted from but under a flag, which is set and taken back
within the transaction of a replacement. Any statement may fail, by a constraint
or by the storage; reads change nothing, so those of one step are one statement
here. -/
namespace Pomodorough.Store.Replacement
open Pomodorough.Library.Fallible Pomodorough.Library.KeyedLog
open Pomodorough.Library.SqlTransactions
open Pomodorough.Store.Records Pomodorough.Store.SharedCoreValidation
open Pomodorough.Store.SharedCore Pomodorough.Store.OperationLogs
open Pomodorough.Store.OperationDomains Pomodorough.Store.Sync Pomodorough.Store.Bootstrap
open Pomodorough.Store.Transactions Pomodorough.Store.AccountRuns
open Pomodorough.Store.SameReplacement

/-! ## Statements -/

/-- The tables of an account with that of its maintenance flags. -/
structure Database where
  tables : UserTables
  maintenanceFlags : List String
  deriving DecidableEq

abbrev Statement (α : Type) := Tx Database StoreError α

/-- The one name `maintenance_flags` allows. -/
def bootstrapReplaceFlag : String := "bootstrap_replace"

def readTables {α : Type} (f : UserTables → Fallible α) : Statement α :=
  Tx.query fun db => f db.tables

/-- A statement that no constraint is in the way of. -/
def update (f : UserTables → UserTables) : Statement Unit :=
  Tx.statement fun db => .ok ((), { db with tables := f db.tables })

/-- The table has its name for a primary key. -/
def enableReplacement : Statement Unit := Tx.statement fun db => do
  check (bootstrapReplaceFlag ∉ db.maintenanceFlags) (fail "enable bootstrap replacement")
  .ok ((), { db with maintenanceFlags := db.maintenanceFlags ++ [bootstrapReplaceFlag] })

def disableReplacement : Statement Unit := Tx.statement fun db =>
  .ok ((), { db with
    maintenanceFlags := db.maintenanceFlags.filter fun name => name ≠ bootstrapReplaceFlag })

/-- The tables with one log replaced. -/
def setLog : (d : Domain) → List d.Operation → UserTables → UserTables
  | .timer => fun log t => { t with timerCommands := log }
  | .task => fun log t => { t with taskOperations := log }
  | .duration => fun log t => { t with durationOperations := log }
  | .autoStart => fun log t => { t with autoStartOperations := log }
  | .selectedTask => fun log t => { t with selectedTaskOperations := log }

/-- The rows of a log deleted. The outcome of a command is deleted with it. -/
def emptyLog : Domain → UserTables → UserTables
  | .timer => fun t => { t with
      timerCommands := []
      commandOutcomes := t.timerCommands.foldl
        (fun outcomes command => outcomes.erase command.id) t.commandOutcomes }
  | d => setLog d []

/-- `DELETE FROM` an immutable table: its trigger aborts it for every row unless
the flag is set. -/
def deleteLog (d : Domain) (name : String) : Statement Unit := Tx.statement fun db => do
  check (d.log db.tables = [] ∨ bootstrapReplaceFlag ∈ db.maintenanceFlags)
    (fail ("clear " ++ name ++ " for bootstrap replacement"))
  .ok ((), { db with tables := emptyLog d db.tables })

def clearForBootstrapReplacement (clearAutoStart clearSelectedTask : Bool) : Statement Unit := do
  enableReplacement
  update fun t => { t with commandOutcomes := ∅ }
  update fun t => { t with timerSessions := [] }
  deleteLog .timer "timer commands"
  deleteLog .task "task operations"
  deleteLog .duration "duration operations"
  Tx.when clearAutoStart (deleteLog .autoStart "auto-start operations")
  Tx.when clearSelectedTask (deleteLog .selectedTask "selected-task operations")
  update fun t => { t with currentTimerID := none }
  disableReplacement

/-! ## Applying operations -/

def insertError : Domain → String
  | .timer => "insert timer command"
  | .task => "insert task operation"
  | .duration => "insert duration operation"
  | .autoStart => "insert auto-start operation"
  | .selectedTask => "insert selected-task operation"

/-- One round of an `apply…Operations`: the reads that decide, and the insertion. -/
def applyOperation (d : Domain) (deviceID : String) (operation : d.Operation)
    (progress : Rejections × Bool) : Statement (Rejections × Bool) := Tx.statement fun db =>
  match d.decision deviceID (d.log db.tables) operation with
  | .known => .ok (progress, db)
  | .rejected reason =>
    .ok ((progress.1.insert (d.id operation) ⟨"rejected", reason⟩, progress.2), db)
  | .insert row => do
    check (d.allowed row) (fail (insertError d))
    .ok ((progress.1, true), { db with tables := setLog d (d.log db.tables ++ [row]) db.tables })

def applyDomain (d : Domain) (deviceID : String) :
    List d.Operation → Rejections × Bool → Statement (Rejections × Bool) :=
  Tx.forEach (applyOperation d deviceID)

def applyOperations (request : SyncRequest) : Statement OperationApplication := do
  let commands ← applyDomain .timer request.deviceID request.commands (∅, false)
  let tasks ← applyDomain .task request.deviceID request.taskOperations (∅, commands.2)
  let durations ← applyDomain .duration request.deviceID request.durationOperations (∅, tasks.2)
  let autoStarts ←
    applyDomain .autoStart request.deviceID request.autoStartOperations (∅, durations.2)
  let selectedTasks ←
    applyDomain .selectedTask request.deviceID request.selectedTaskOperations (∅, autoStarts.2)
  pure { commandRejections := commands.1
         taskRejections := tasks.1
         durationRejections := durations.1
         autoStartRejections := autoStarts.1
         selectedTaskRejections := selectedTasks.1
         changed := selectedTasks.2 }

/-! ## Writing a reduction back -/

/-- An outcome refers to a stored command, and its kind is checked. -/
def saveOutcome (entry : Sigma fun _ : String => Outcome) (_ : Unit) : Statement Unit :=
  Tx.statement fun db => do
    check ((∃ command ∈ db.tables.timerCommands, command.id = entry.1) ∧
        entry.2.outcome ∈ ["applied", "ignored", "rejected"])
      (fail "save command outcome")
    .ok ((), { db with tables := { db.tables with
      commandOutcomes := db.tables.commandOutcomes.insert entry.1 entry.2 } })

/-- A session's timer is its primary key. -/
def saveSession (session : TimerSession) (_ : Unit) : Statement Unit :=
  Tx.statement fun db => do
    check (∀ row ∈ db.tables.timerSessions, row.timerID ≠ session.timerID)
      (fail "save timer projection")
    .ok ((), { db with tables := { db.tables with
      timerSessions := db.tables.timerSessions ++ [sessionRow session] } })

def persistReduction (reduction : AccountReduction) (revision : Int) : Statement Unit := do
  Tx.lift (validateCanonicalRevision revision)
  Tx.forEach saveOutcome reduction.timer.outcomes.entries ()
  update fun t => { t with timerSessions := [] }
  Tx.forEach saveSession reduction.timer.sessions ()
  update fun t => { t with
    revision := revision
    currentTimerID := reduction.timer.canonical.map CanonicalTimer.id }

/-! ## The transaction -/

def applyBootstrapStrategy (core : Core) (request : BootstrapResolutionRequest)
    (syncRequest : SyncRequest) (now : Time) : Statement BootstrapStrategyApplication :=
  if request.strategy = bootstrapKeepRemote then do
    let before ← readTables fun t => reduceAccount core t now
    pure { before := some before, reduction := before }
  else if request.strategy = bootstrapReplaceRemote then do
    let before ← readTables fun t => reduceAccount core t now
    clearForBootstrapReplacement request.autoStartOperationsPresent
      request.selectedTaskOperationsPresent
    let operations ← applyOperations syncRequest
    let reduction ← readTables fun t => reduceAccount core t now
    pure { operations := operations, before := some before, reduction := reduction }
  else do
    let operations ← applyOperations syncRequest
    let reduction ← readTables fun t => reduceAccount core t now
    pure { operations := operations, before := none, reduction := reduction }

def persistBootstrapApplication (strategy : String) (application : BootstrapStrategyApplication)
    (revision : Int) : Statement (Int × Bool) := do
  let projectionChanged ← readTables fun t =>
    .ok (timerProjectionChanged t application.reduction.timer)
  let operationsChanged :=
    if strategy = bootstrapReplaceRemote then
      application.before.any fun before => replacementChanged before application.reduction
    else application.operations.changed
  let changed := operationsChanged || projectionChanged
  let revision ← Tx.lift (nextRevision revision changed)
  Tx.when changed (persistReduction application.reduction revision)
  pure (revision, changed)

def recordBootstrapResponse (core : Core) (request : BootstrapResolutionRequest)
    (syncRequest : SyncRequest) (application : BootstrapStrategyApplication) (revision : Int)
    (changed : Bool) (payloadHash : Hash) (now : Time) : Statement SyncResult := do
  let result ← Tx.lift
    (resultFromReduction core application.reduction revision now (some syncRequest))
  let result :=
    if request.strategy = bootstrapKeepRemote then result
    else addAcknowledgements result syncRequest application.operations application.reduction
  let result := { result with changed := changed }
  Tx.statement fun db => do
    check (db.tables.bootstrapResolutions.lookup request.requestID = none)
      (fail "record bootstrap resolution")
    let tables := recordResolution db.tables request.requestID payloadHash result
    .ok (result, { db with tables := tables })

def resolution (core : Core) (sha256 : Sha256) (request : BootstrapResolutionRequest)
    (syncRequest : SyncRequest) (payloadHash : Hash) (now : Time) :
    Statement (Ending SyncResult) := do
  let stored ← readTables fun t => lookupStoredBootstrapResponse sha256 t request payloadHash
  match stored with
  | some result => pure (.abandon result)
  | none =>
    let revision ← readTables fun t => bootstrapRevisionForRequest t request.expectedRevision
    let application ← applyBootstrapStrategy core request syncRequest now
    let (revision, changed) ← persistBootstrapApplication request.strategy application revision
    let result ← recordBootstrapResponse core request syncRequest application revision changed
      payloadHash now
    pure (.commit result)

def resolveBootstrapLocked (core : Core) (sha256 : Sha256) (faults : Faults StoreError)
    (connection : Connection Database) (request : BootstrapResolutionRequest) (now : Time) :
    Fallible SyncResult × Connection Database :=
  match validateBootstrapResolutionRequest sha256 request with
  | .error e => (.error e, connection)
  | .ok (syncRequest, payloadHash) =>
    transact (resolution core sha256 request syncRequest payloadHash now) faults connection

section
variable {faults : Faults StoreError} {w w' : Working Database} {core : Core} {sha256 : Sha256}
  {now : Time}

/-! ## What each statement does -/

theorem readTables_ok {α : Type} {f : UserTables → Fallible α} {a : α}
    (h : readTables f faults w = (.ok a, w')) : f w.state.tables = .ok a ∧ w'.state = w.state :=
  Tx.query_ok h

theorem update_ok {f : UserTables → UserTables} {u : Unit}
    (h : update f faults w = (.ok u, w')) :
    w'.state = { w.state with tables := f w.state.tables } := by
  have hf := Tx.statement_ok h
  exact (Prod.mk.inj (Except.ok.inj hf)).2.symm

theorem enableReplacement_ok {u : Unit} (h : enableReplacement faults w = (.ok u, w')) :
    bootstrapReplaceFlag ∉ w.state.maintenanceFlags ∧ w'.state = { w.state with
      maintenanceFlags := w.state.maintenanceFlags ++ [bootstrapReplaceFlag] } := by
  obtain ⟨_, hnew, hf⟩ := bind_ok_iff.mp (Tx.statement_ok h)
  rw [check_ok_iff] at hnew
  exact ⟨hnew, (Prod.mk.inj (Except.ok.inj hf)).2.symm⟩

theorem disableReplacement_ok {u : Unit} (h : disableReplacement faults w = (.ok u, w')) :
    w'.state = { w.state with maintenanceFlags :=
      w.state.maintenanceFlags.filter fun name => name ≠ bootstrapReplaceFlag } := by
  have hf := Tx.statement_ok h
  exact (Prod.mk.inj (Except.ok.inj hf)).2.symm

theorem deleteLog_ok {d : Domain} {name : String} {u : Unit}
    (h : deleteLog d name faults w = (.ok u, w')) :
    w'.state = { w.state with tables := emptyLog d w.state.tables } := by
  obtain ⟨_, -, hf⟩ := bind_ok_iff.mp (Tx.statement_ok h)
  exact (Prod.mk.inj (Except.ok.inj hf)).2.symm

theorem foldl_erase_empty {commands : List Command} :
    commands.foldl (fun outcomes command => outcomes.erase command.id)
      (∅ : Finmap fun _ : String => Outcome) = ∅ := by
  induction commands with
  | nil => rfl
  | cons command commands ih => exact ih

theorem emptyLog_timer {t : UserTables} (h : t.commandOutcomes = ∅) :
    emptyLog .timer t = { t with timerCommands := [] } := by
  have herased : t.timerCommands.foldl
      (fun outcomes command => outcomes.erase command.id) t.commandOutcomes =
        t.commandOutcomes := by
    rw [h]
    exact foldl_erase_empty
  exact congrArg (fun outcomes : Finmap fun _ : String => Outcome =>
    { t with timerCommands := [], commandOutcomes := outcomes }) herased

theorem when_deleteLog_ok {clear : Bool} {d : Domain} {name : String} {u : Unit}
    (h : Tx.when clear (deleteLog d name) faults w = (.ok u, w')) :
    w'.state = { w.state with
      tables := if clear then emptyLog d w.state.tables else w.state.tables } := by
  cases clear with
  | true => exact deleteLog_ok ((Tx.when_ok h).1 rfl)
  | false => exact congrArg Working.state ((Tx.when_ok h).2 rfl)

/-- What a statement on the tables alone does to each part of the database. -/
theorem tables_changed {tables : UserTables}
    (h : w'.state = { w.state with tables := tables }) :
    w'.state.tables = tables ∧ w'.state.maintenanceFlags = w.state.maintenanceFlags := by
  rw [h]
  exact ⟨rfl, rfl⟩

/-- The clearing that succeeds found the flag down, and takes it down again. -/
theorem clearForBootstrapReplacement_ok {clearAutoStart clearSelectedTask : Bool} {u : Unit}
    (h : clearForBootstrapReplacement clearAutoStart clearSelectedTask faults w = (.ok u, w')) :
    bootstrapReplaceFlag ∉ w.state.maintenanceFlags ∧
      w'.state.tables = Bootstrap.clearForBootstrapReplacement w.state.tables clearAutoStart
        clearSelectedTask ∧
      w'.state.maintenanceFlags = w.state.maintenanceFlags := by
  obtain ⟨_, v1, h1, h⟩ := Tx.bind_ok.mp h
  obtain ⟨_, v2, h2, h⟩ := Tx.bind_ok.mp h
  obtain ⟨_, v3, h3, h⟩ := Tx.bind_ok.mp h
  obtain ⟨_, v4, h4, h⟩ := Tx.bind_ok.mp h
  obtain ⟨_, v5, h5, h⟩ := Tx.bind_ok.mp h
  obtain ⟨_, v6, h6, h⟩ := Tx.bind_ok.mp h
  obtain ⟨_, v7, h7, h⟩ := Tx.bind_ok.mp h
  obtain ⟨_, v8, h8, h⟩ := Tx.bind_ok.mp h
  obtain ⟨_, v9, h9, h10⟩ := Tx.bind_ok.mp h
  obtain ⟨hnew, e1⟩ := enableReplacement_ok h1
  obtain ⟨t2, m2⟩ := tables_changed (update_ok h2)
  obtain ⟨t3, m3⟩ := tables_changed (update_ok h3)
  obtain ⟨t4, m4⟩ := tables_changed (deleteLog_ok h4)
  obtain ⟨t5, m5⟩ := tables_changed (deleteLog_ok h5)
  obtain ⟨t6, m6⟩ := tables_changed (deleteLog_ok h6)
  obtain ⟨t7, m7⟩ := tables_changed (when_deleteLog_ok h7)
  obtain ⟨t8, m8⟩ := tables_changed (when_deleteLog_ok h8)
  obtain ⟨t9, m9⟩ := tables_changed (update_ok h9)
  rw [disableReplacement_ok h10]
  refine ⟨hnew, ?_, ?_⟩
  · rw [t9, t8, t7, t6, t5, t4, t3, t2, e1, emptyLog_timer rfl]
    cases clearAutoStart <;> cases clearSelectedTask <;> rfl
  · rw [m9, m8, m7, m6, m5, m4, m3, m2, e1, List.filter_append, List.filter_eq_self.mpr]
    · simp
    · intro name hname
      exact decide_eq_true fun heq => hnew (heq ▸ hname)

/-! ## The loops -/

@[simp] theorem log_setLog (d : Domain) (log : List d.Operation) (t : UserTables) :
    d.log (setLog d log t) = log := by
  cases d <;> rfl

@[simp] theorem setLog_log (d : Domain) (t : UserTables) : setLog d (d.log t) t = t := by
  cases d <;> rfl

@[simp] theorem setLog_setLog (d : Domain) (log log' : List d.Operation) (t : UserTables) :
    setLog d log (setLog d log' t) = setLog d log t := by
  cases d <;> rfl

/-- The loop over a domain does to its log what it does to a list. -/
theorem applyDomain_ok {d : Domain} {deviceID : String} {operations : List d.Operation}
    {progress done : Rejections × Bool}
    (h : applyDomain d deviceID operations progress faults w = (.ok done, w')) :
    applyEach d.id (d.decision deviceID) d.allowed (insertError d) operations
        ⟨d.log w.state.tables, progress.1, progress.2⟩ =
      .ok ⟨d.log w'.state.tables, done.1, done.2⟩ ∧
      w'.state = { w.state with tables := setLog d (d.log w'.state.tables) w.state.tables } := by
  induction operations generalizing progress w with
  | nil =>
    obtain ⟨rfl, rfl⟩ := Tx.pure_ok.mp h
    exact ⟨rfl, by simp⟩
  | cons operation operations ih =>
    obtain ⟨next, v, hone, hrest⟩ := Tx.forEach_cons_ok.mp h
    obtain ⟨hlog, hstate⟩ := ih hrest
    have hstep := Tx.statement_ok hone
    unfold applyEach
    split at hstep
    next hdecision =>
      obtain ⟨rfl, hv⟩ := Prod.mk.inj (Except.ok.inj hstep)
      rw [← hv] at hlog hstate
      simp only [hdecision]
      exact ⟨hlog, hstate⟩
    next reason hdecision =>
      obtain ⟨rfl, hv⟩ := Prod.mk.inj (Except.ok.inj hstep)
      rw [← hv] at hlog hstate
      simp only [hdecision]
      exact ⟨hlog, hstate⟩
    next row hdecision =>
      obtain ⟨u, hallowed, hstep⟩ := bind_ok_iff.mp hstep
      obtain ⟨rfl, hv⟩ := Prod.mk.inj (Except.ok.inj hstep)
      rw [← hv] at hlog hstate
      simp only [hdecision, log_setLog, setLog_setLog] at hlog hstate ⊢
      exact ⟨bind_ok_iff.mpr ⟨u, hallowed, hlog⟩, hstate⟩

theorem applyOperations_ok {request : SyncRequest} {application : OperationApplication}
    (h : applyOperations request faults w = (.ok application, w')) :
    OperationLogs.applyOperations w.state.tables request =
      .ok (w'.state.tables, application) ∧
      w'.state.maintenanceFlags = w.state.maintenanceFlags := by
  obtain ⟨commands, v1, h1, h⟩ := Tx.bind_ok.mp h
  obtain ⟨tasks, v2, h2, h⟩ := Tx.bind_ok.mp h
  obtain ⟨durations, v3, h3, h⟩ := Tx.bind_ok.mp h
  obtain ⟨autoStarts, v4, h4, h⟩ := Tx.bind_ok.mp h
  obtain ⟨selectedTasks, v5, h5, h⟩ := Tx.bind_ok.mp h
  obtain ⟨rfl, rfl⟩ := Tx.pure_ok.mp h
  obtain ⟨l1, e1⟩ := applyDomain_ok h1
  obtain ⟨l2, e2⟩ := applyDomain_ok h2
  obtain ⟨l3, e3⟩ := applyDomain_ok h3
  obtain ⟨l4, e4⟩ := applyDomain_ok h4
  obtain ⟨l5, e5⟩ := applyDomain_ok h5
  -- each loop leaves the other logs as it found them
  rw [e1] at l2 e2
  rw [e2] at l3 e3
  rw [e3] at l4 e4
  rw [e4] at l5 e5
  refine ⟨?_, by rw [e5]⟩
  refine bind_ok_iff.mpr ⟨_, l1, bind_ok_iff.mpr ⟨_, l2, bind_ok_iff.mpr ⟨_, l3,
    bind_ok_iff.mpr ⟨_, l4, bind_ok_iff.mpr ⟨_, l5, ?_⟩⟩⟩⟩⟩
  rw [e5]
  rfl

/-- Saving entries one by one is saving their map over the others. -/
theorem lookup_foldl_insert {entries : List (Sigma fun _ : String => Outcome)}
    {stored : Finmap fun _ : String => Outcome} (hkeys : (entries.map Sigma.fst).Nodup)
    (id : String) :
    (entries.foldl (fun outcomes entry => outcomes.insert entry.1 entry.2) stored).lookup id =
      (entries.dlookup id <|> stored.lookup id) := by
  induction entries generalizing stored with
  | nil => rfl
  | cons entry entries ih =>
    obtain ⟨key, outcome⟩ := entry
    rw [List.map_cons, List.nodup_cons] at hkeys
    rw [List.foldl_cons, ih hkeys.2]
    by_cases hid : id = key
    · subst hid
      have hnone : entries.dlookup id = none := by
        rw [List.dlookup_eq_none]
        exact hkeys.1
      rw [hnone, Finmap.lookup_insert, List.dlookup_cons_eq]
      rfl
    · rw [Finmap.lookup_insert_of_ne _ hid, List.dlookup_cons_ne _ _ hid]

theorem foldl_insert_entries {outcomes : AList fun _ : String => Outcome}
    {stored : Finmap fun _ : String => Outcome} :
    outcomes.entries.foldl (fun saved entry => saved.insert entry.1 entry.2) stored =
      outcomes.toFinmap ∪ stored := by
  refine Finmap.ext_lookup fun id => ?_
  rw [lookup_foldl_insert outcomes.nodupKeys]
  have hlookup : outcomes.toFinmap.lookup id = outcomes.entries.dlookup id :=
    Finmap.lookup_toFinmap id outcomes
  by_cases hmem : id ∈ outcomes.toFinmap
  · rw [Finmap.lookup_union_left hmem, hlookup]
    obtain ⟨outcome, hsome⟩ := Finmap.mem_iff.mp hmem
    rw [← hlookup, hsome]
    rfl
  · rw [Finmap.lookup_union_right hmem, ← hlookup, Finmap.lookup_eq_none.mpr hmem]
    rfl

theorem saveOutcomes_ok {entries : List (Sigma fun _ : String => Outcome)} {u : Unit}
    (h : Tx.forEach saveOutcome entries () faults w = (.ok u, w')) :
    (∀ entry ∈ entries, (∃ command ∈ w.state.tables.timerCommands, command.id = entry.1) ∧
        entry.2.outcome ∈ ["applied", "ignored", "rejected"]) ∧
      w'.state = { w.state with tables := { w.state.tables with
        commandOutcomes := entries.foldl (fun outcomes entry => outcomes.insert entry.1 entry.2)
          w.state.tables.commandOutcomes } } := by
  induction entries generalizing w with
  | nil =>
    obtain ⟨-, rfl⟩ := Tx.pure_ok.mp h
    exact ⟨fun _ hmem => (nomatch hmem), rfl⟩
  | cons entry entries ih =>
    obtain ⟨_, v, hone, hrest⟩ := Tx.forEach_cons_ok.mp h
    obtain ⟨_, hcheck, hstep⟩ := bind_ok_iff.mp (Tx.statement_ok hone)
    have hv := (Prod.mk.inj (Except.ok.inj hstep)).2
    obtain ⟨hentries, hstate⟩ := ih hrest
    rw [check_ok_iff] at hcheck
    rw [← hv] at hentries hstate
    exact ⟨List.forall_mem_cons.mpr ⟨hcheck, hentries⟩, hstate⟩

theorem saveSessions_ok {sessions : List TimerSession} {u : Unit}
    (h : Tx.forEach saveSession sessions () faults w = (.ok u, w')) :
    (sessions.map TimerSession.timerID).Nodup ∧
      (∀ session ∈ sessions, ∀ row ∈ w.state.tables.timerSessions,
        row.timerID ≠ session.timerID) ∧
      w'.state = { w.state with tables := { w.state.tables with
        timerSessions := w.state.tables.timerSessions ++ sessions.map sessionRow } } := by
  induction sessions generalizing w with
  | nil =>
    obtain ⟨-, rfl⟩ := Tx.pure_ok.mp h
    refine ⟨List.nodup_nil, fun _ hmem => (nomatch hmem), ?_⟩
    rw [List.map_nil, List.append_nil]
  | cons session sessions ih =>
    obtain ⟨_, v, hone, hrest⟩ := Tx.forEach_cons_ok.mp h
    obtain ⟨_, hcheck, hstep⟩ := bind_ok_iff.mp (Tx.statement_ok hone)
    have hv := (Prod.mk.inj (Except.ok.inj hstep)).2
    obtain ⟨hnodup, hnew, hstate⟩ := ih hrest
    rw [check_ok_iff] at hcheck
    rw [← hv] at hnew hstate
    refine ⟨?_, List.forall_mem_cons.mpr ⟨hcheck, fun later hlater row hrow => ?_⟩, ?_⟩
    · rw [List.map_cons, List.nodup_cons]
      refine ⟨fun hmem => ?_, hnodup⟩
      obtain ⟨later, hlater, heq⟩ := List.mem_map.mp hmem
      exact hnew later hlater (sessionRow session) (by simp) heq.symm
    · exact hnew later hlater row (List.mem_append_left _ hrow)
    · rw [hstate, List.append_assoc]
      rfl

theorem persistReduction_ok {reduction : AccountReduction} {revision : Int} {u : Unit}
    (h : persistReduction reduction revision faults w = (.ok u, w')) :
    Sync.persistReduction w.state.tables reduction revision = .ok w'.state.tables ∧
      w'.state.maintenanceFlags = w.state.maintenanceFlags := by
  obtain ⟨_, v1, h1, h⟩ := Tx.bind_ok.mp h
  obtain ⟨_, v2, h2, h⟩ := Tx.bind_ok.mp h
  obtain ⟨_, v3, h3, h⟩ := Tx.bind_ok.mp h
  obtain ⟨_, v4, h4, h5⟩ := Tx.bind_ok.mp h
  obtain ⟨hrevision, rfl⟩ := Tx.lift_ok.mp h1
  obtain ⟨hentries, e2⟩ := saveOutcomes_ok h2
  obtain ⟨hnodup, -, e4⟩ := saveSessions_ok h4
  rw [update_ok h5, e4, update_ok h3, e2]
  refine ⟨?_, rfl⟩
  refine bind_ok_iff.mpr ⟨_, hrevision, bind_ok_iff.mpr ⟨(), ?_, bind_ok_iff.mpr ⟨(), ?_, ?_⟩⟩⟩
  · exact checkAll_ok_iff.mpr fun entry hmem => check_ok_iff.mpr (hentries entry hmem)
  · exact check_ok_iff.mpr hnodup
  · rw [foldl_insert_entries]
    rfl

/-! ## The transaction that commits -/

theorem applyBootstrapStrategy_ok {request : BootstrapResolutionRequest} {syncRequest : SyncRequest}
    {application : BootstrapStrategyApplication}
    (h : applyBootstrapStrategy core request syncRequest now faults w = (.ok application, w')) :
    Bootstrap.applyBootstrapStrategy core w.state.tables request syncRequest now =
      .ok (w'.state.tables, application) ∧
      w'.state.maintenanceFlags = w.state.maintenanceFlags ∧
      (request.strategy = bootstrapReplaceRemote →
        bootstrapReplaceFlag ∉ w.state.maintenanceFlags) := by
  unfold applyBootstrapStrategy at h
  unfold Bootstrap.applyBootstrapStrategy
  split at h
  next hkeep =>
    obtain ⟨before, v1, h1, h⟩ := Tx.bind_ok.mp h
    obtain ⟨rfl, rfl⟩ := Tx.pure_ok.mp h
    obtain ⟨hbefore, e1⟩ := readTables_ok h1
    rw [if_pos hkeep, e1]
    refine ⟨bind_ok_iff.mpr ⟨before, hbefore, rfl⟩, rfl, fun hreplace => ?_⟩
    rw [hkeep] at hreplace
    exact absurd hreplace (by decide)
  next hkeep =>
    rw [if_neg hkeep]
    split at h
    next hreplace =>
      obtain ⟨before, v1, h1, h⟩ := Tx.bind_ok.mp h
      obtain ⟨_, v2, h2, h⟩ := Tx.bind_ok.mp h
      obtain ⟨operations, v3, h3, h⟩ := Tx.bind_ok.mp h
      obtain ⟨reduction, v4, h4, h⟩ := Tx.bind_ok.mp h
      obtain ⟨rfl, rfl⟩ := Tx.pure_ok.mp h
      obtain ⟨hbefore, e1⟩ := readTables_ok h1
      obtain ⟨hflag, e2, f2⟩ := clearForBootstrapReplacement_ok h2
      obtain ⟨happlied, f3⟩ := applyOperations_ok h3
      obtain ⟨hreduced, e4⟩ := readTables_ok h4
      rw [e1] at hflag e2 f2
      rw [e2] at happlied
      rw [if_pos hreplace, e4]
      exact ⟨bind_ok_iff.mpr ⟨before, hbefore, bind_ok_iff.mpr ⟨_, happlied,
        bind_ok_iff.mpr ⟨reduction, hreduced, rfl⟩⟩⟩, f3.trans f2, fun _ => hflag⟩
    next hmerge =>
      obtain ⟨operations, v1, h1, h⟩ := Tx.bind_ok.mp h
      obtain ⟨reduction, v2, h2, h⟩ := Tx.bind_ok.mp h
      obtain ⟨rfl, rfl⟩ := Tx.pure_ok.mp h
      obtain ⟨happlied, f1⟩ := applyOperations_ok h1
      obtain ⟨hreduced, e2⟩ := readTables_ok h2
      rw [if_neg hmerge, e2]
      exact ⟨bind_ok_iff.mpr ⟨_, happlied, bind_ok_iff.mpr ⟨reduction, hreduced, rfl⟩⟩, f1,
        fun hreplace => absurd hreplace hmerge⟩

theorem persistBootstrapApplication_ok {strategy : String} {revision : Int}
    {application : BootstrapStrategyApplication} {answer : Int × Bool}
    (h : persistBootstrapApplication strategy application revision faults w = (.ok answer, w')) :
    Bootstrap.persistBootstrapApplication w.state.tables strategy application revision =
      .ok (w'.state.tables, answer) ∧
      w'.state.maintenanceFlags = w.state.maintenanceFlags := by
  obtain ⟨projectionChanged, v1, h1, h⟩ := Tx.bind_ok.mp h
  obtain ⟨next, v2, h2, h⟩ := Tx.bind_ok.mp h
  obtain ⟨_, v3, h3, h⟩ := Tx.bind_ok.mp h
  obtain ⟨rfl, rfl⟩ := Tx.pure_ok.mp h
  obtain ⟨hprojection, e1⟩ := readTables_ok h1
  obtain ⟨hnext, rfl⟩ := Tx.lift_ok.mp h2
  cases hprojection
  have hpersist : ∀ {changed : Bool},
      Tx.when changed (persistReduction application.reduction next) faults v1 = (.ok (), v3) →
      persistIfChanged w.state.tables application.reduction next changed = .ok v3.state.tables ∧
        v3.state.maintenanceFlags = w.state.maintenanceFlags := by
    intro changed hwhen
    rw [← e1]
    cases changed with
    | true => exact persistReduction_ok ((Tx.when_ok hwhen).1 rfl)
    | false =>
      rw [(Tx.when_ok hwhen).2 rfl]
      exact ⟨rfl, rfl⟩
  obtain ⟨htables, hflags⟩ := hpersist h3
  exact ⟨bind_ok_iff.mpr ⟨next, hnext, bind_ok_iff.mpr ⟨_, htables, rfl⟩⟩, hflags⟩

theorem recordBootstrapResponse_ok {request : BootstrapResolutionRequest}
    {syncRequest : SyncRequest} {application : BootstrapStrategyApplication} {revision : Int}
    {changed : Bool} {payloadHash : Hash} {result : SyncResult}
    (h : recordBootstrapResponse core request syncRequest application revision changed payloadHash
      now faults w = (.ok result, w')) :
    Bootstrap.recordBootstrapResponse core w.state.tables request syncRequest application revision
        changed payloadHash now = .ok (w'.state.tables, result) ∧
      w'.state.maintenanceFlags = w.state.maintenanceFlags := by
  obtain ⟨base, v, h1, h⟩ := Tx.bind_ok.mp h
  obtain ⟨hbase, rfl⟩ := Tx.lift_ok.mp h1
  obtain ⟨_, -, hrecorded⟩ := bind_ok_iff.mp (Tx.statement_ok h)
  obtain ⟨rfl, hstate⟩ := Prod.mk.inj (Except.ok.inj hrecorded)
  rw [← hstate]
  exact ⟨bind_ok_iff.mpr ⟨base, hbase, rfl⟩, rfl⟩

/-- The transaction of a request that is not answered from storage does to the
tables what the resolution does. -/
theorem resolution_ok {request : BootstrapResolutionRequest} {payloadHash : Hash}
    {result : SyncResult} {syncRequest : SyncRequest}
    (hvalidate : validateBootstrapResolutionRequest sha256 request =
      .ok (syncRequest, payloadHash))
    (hfresh : w.state.tables.bootstrapResolutions.lookup request.requestID = none)
    (h : resolution core sha256 request syncRequest payloadHash now faults w =
      (.ok (.commit result), w')) :
    resolveBootstrap core sha256 w.state.tables request now = .ok (w'.state.tables, result) ∧
      w'.state.maintenanceFlags = w.state.maintenanceFlags ∧
      (request.strategy = bootstrapReplaceRemote →
        bootstrapReplaceFlag ∉ w.state.maintenanceFlags) := by
  obtain ⟨stored, v1, h1, h⟩ := Tx.bind_ok.mp h
  obtain ⟨hlookup, e1⟩ := readTables_ok h1
  have hstored : stored = none := by
    unfold lookupStoredBootstrapResponse at hlookup
    rw [hfresh] at hlookup
    cases hlookup
    rfl
  subst hstored
  obtain ⟨revision, v2, h2, h⟩ := Tx.bind_ok.mp h
  obtain ⟨application, v3, h3, h⟩ := Tx.bind_ok.mp h
  obtain ⟨⟨next, changed⟩, v4, h4, h⟩ := Tx.bind_ok.mp h
  obtain ⟨answer, v5, h5, h⟩ := Tx.bind_ok.mp h
  obtain ⟨hanswer, rfl⟩ := Tx.pure_ok.mp h
  cases hanswer
  obtain ⟨hrevision, e2⟩ := readTables_ok h2
  obtain ⟨hstrategy, f3, hflag⟩ := applyBootstrapStrategy_ok h3
  obtain ⟨hpersist, f4⟩ := persistBootstrapApplication_ok h4
  obtain ⟨hrecord, f5⟩ := recordBootstrapResponse_ok h5
  rw [e1] at hrevision e2
  rw [e2] at hstrategy f3 hflag
  refine ⟨?_, f5.trans (f4.trans f3), hflag⟩
  refine bind_ok_iff.mpr ⟨_, hvalidate, bind_ok_iff.mpr ⟨_, hlookup, ?_⟩⟩
  exact bind_ok_iff.mpr ⟨_, hrevision, bind_ok_iff.mpr ⟨_, hstrategy,
    bind_ok_iff.mpr ⟨_, hpersist, hrecord⟩⟩⟩

/-- Nor does a stored response commit anything. -/
theorem resolution_abandon {request : BootstrapResolutionRequest} {payloadHash : Hash}
    {result : SyncResult} {syncRequest : SyncRequest}
    (h : resolution core sha256 request syncRequest payloadHash now faults w =
      (.ok (.abandon result), w')) :
    w.state.tables.bootstrapResolutions.lookup request.requestID ≠ none := by
  obtain ⟨stored, v1, h1, h⟩ := Tx.bind_ok.mp h
  obtain ⟨hlookup, -⟩ := readTables_ok h1
  cases stored with
  | some stored =>
    intro hfresh
    unfold lookupStoredBootstrapResponse at hlookup
    rw [hfresh] at hlookup
    cases hlookup
  | none =>
    obtain ⟨_, _, -, h⟩ := Tx.bind_ok.mp h
    obtain ⟨_, _, -, h⟩ := Tx.bind_ok.mp h
    obtain ⟨⟨_, _⟩, _, -, h⟩ := Tx.bind_ok.mp h
    obtain ⟨_, _, -, h⟩ := Tx.bind_ok.mp h
    obtain ⟨hanswer, -⟩ := Tx.pure_ok.mp h
    cases hanswer

end

end Pomodorough.Store.Replacement
