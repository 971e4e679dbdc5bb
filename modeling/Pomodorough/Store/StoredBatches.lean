import Pomodorough.Server.AcceptedBatches
import Pomodorough.Store.OperationTables

/-! # Storing what the parser accepts

The loops on rows do what the loops on the logs do, as long as the rows they
look up can be read. What the parser accepts violates no constraint of the
tables, and can be read back if its instant has a year of four digits. -/
namespace Pomodorough.Store.StoredBatches
open Pomodorough.Library Pomodorough.Library.Fallible Pomodorough.Library.KeyedLog
open Pomodorough.Store.Records Pomodorough.Store.SharedCoreValidation
open Pomodorough.Store.OperationLogs Pomodorough.Store.OperationDomains
open Pomodorough.Store.OperationTables
open Pomodorough.Server.OperationParser Pomodorough.Server.AcceptedBatches

/-! ## The loop on rows simulates the loop on the log -/

/-- A table's application and the log's. -/
structure Simulates (d : Domain) (deviceID : String) (submitted : List d.Operation)
    (pending : List String) (a : RowApplication) (b : LogApplication d.Operation) : Prop where
  rows : List.Forall₂ (Stored d deviceID submitted pending) a.rows b.log
  rejections : a.rejections = b.rejections
  changed : a.changed = b.changed

section
variable {d : Domain} {deviceID : String} {submitted operations : List d.Operation}
  {operation : d.Operation} {a : RowApplication} {b : LogApplication d.Operation}

theorem Simulates.weaken {pending pending' : List String} (hsubset : pending' ⊆ pending)
    (h : Simulates d deviceID submitted pending a b) :
    Simulates d deviceID submitted pending' a b :=
  ⟨h.rows.imp fun _ _ hrow => hrow.weaken hsubset, h.rejections, h.changed⟩

/-- One round of the loop on rows where the id is known. -/
theorem applyRows_known {existing : d.Operation}
    (hload : load d a.rows (d.id operation) = .ok (some existing)) :
    applyRows d deviceID (operation :: operations) a =
      if same d existing operation deviceID then applyRows d deviceID operations a
      else applyRows d deviceID operations
        { a with rejections := a.rejections.insert (d.id operation) ⟨"rejected", d.idReason⟩ } := by
  rw [OperationTables.applyRows, hload]
  rfl

/-- One round where it is not. -/
theorem applyRows_new (hload : load d a.rows (d.id operation) = .ok none) :
    applyRows d deviceID (operation :: operations) a =
      if sequenceUsed d a.rows deviceID operation then
        applyRows d deviceID operations
          { a with
            rejections := a.rejections.insert (d.id operation)
              ⟨"rejected", "device sequence already used"⟩ }
      else (do
        let rows ← (tableOf d).insert a.rows (bind d deviceID operation) (fail (insertError d))
        applyRows d deviceID operations { a with rows := rows, changed := true }) := by
  rw [OperationTables.applyRows, hload]
  rfl

theorem Simulates.reject {id : String} {outcome : Outcome} {pending : List String}
    (h : Simulates d deviceID submitted pending a b) :
    Simulates d deviceID submitted pending { a with rejections := a.rejections.insert id outcome }
      { b with rejections := b.rejections.insert id outcome } :=
  ⟨h.rows, by rw [h.rejections], h.changed⟩

/-- The loops go through a request with distinct ids together, and no row is
refused: its table accepts it, and the queries have looked for its keys. -/
theorem Simulates.applyRows (hsubmitted : operations ⊆ submitted)
    (hfits : ∀ operation ∈ operations, (tableOf d).fits (bind d deviceID operation) = true)
    (hallowed : ∀ operation ∈ operations, d.allowed (d.row deviceID operation) = true)
    (hids : (operations.map d.id).Nodup)
    (h : Simulates d deviceID submitted (operations.map d.id) a b) :
    ∃ a' b', OperationTables.applyRows d deviceID operations a = .ok a' ∧
      applyEach d.id (d.decision deviceID) d.allowed (insertError d) operations b = .ok b' ∧
      Simulates d deviceID submitted [] a' b' := by
  induction operations generalizing a b with
  | nil => exact ⟨a, b, rfl, rfl, h⟩
  | cons operation operations ih =>
    rw [List.map_cons, List.nodup_cons] at hids
    have hlater : Simulates d deviceID submitted (operations.map d.id) a b :=
      h.weaken (List.subset_cons_self _ _)
    have hrest := fun {a b} => ih (a := a) (b := b)
      (fun later hmem => hsubmitted (List.mem_cons_of_mem _ hmem))
      (fun later hmem => hfits later (List.mem_cons_of_mem _ hmem))
      (fun later hmem => hallowed later (List.mem_cons_of_mem _ hmem)) hids.2
    rw [applyEach]
    obtain ⟨hnorow, hnoentry⟩ | ⟨row, entry, hrow, hentry, hstored⟩ :=
      @find_stored d a.rows deviceID _ submitted b.log (d.id operation) h.rows
    · have hload : load d a.rows (d.id operation) = .ok none := by rw [load, hnorow]
      rw [applyRows_new hload, sequenceUsed_stored h.rows, decision_new hnoentry]
      by_cases htaken : sequenceTaken d b.log deviceID operation = true
      · rw [if_pos htaken, if_pos htaken]
        exact hrest hlater.reject
      · rw [if_neg htaken, if_neg htaken]
        have hunused : sequenceUsed d a.rows deviceID operation = false := by
          rw [sequenceUsed_stored h.rows]
          exact Bool.eq_false_iff.mpr htaken
        have hunique := unique_bind
          (fun row hmem heq => List.find?_eq_none.mp hnorow row hmem (decide_eq_true heq)) hunused
        have hinsert : (tableOf d).insert a.rows (bind d deviceID operation)
            (fail (insertError d)) = .ok (a.rows ++ [bind d deviceID operation]) :=
          bind_ok_iff.mpr ⟨(), check_ok_iff.mpr ⟨hfits operation (by simp), hunique⟩, rfl⟩
        have hcheck : check (d.allowed (d.row deviceID operation)) (fail (insertError d)) = .ok () :=
          check_ok_iff.mpr (hallowed operation (by simp))
        rw [hinsert]
        simp only [hcheck]
        -- the new row need not be readable: its id does not come again
        have hnew : Stored d deviceID submitted (operations.map d.id)
            (bind d deviceID operation) (d.row deviceID operation) :=
          .inr ⟨operation, hsubmitted (by simp), rfl, rfl, hids.1⟩
        exact hrest ⟨List.rel_append hlater.rows (.cons hnew .nil), h.rejections, rfl⟩
    · have hid : d.id entry = d.id operation := by simpa using List.find?_some hentry
      have hscan : scan d row = .ok entry := by
        obtain hscan | ⟨first, -, -, rfl, hnotpending⟩ := hstored
        · exact hscan
        · rw [d.lawful.id_row] at hid
          exact absurd (by simp [hid]) hnotpending
      have hload : load d a.rows (d.id operation) = .ok (some entry) := by
        rw [load, hrow]
        exact bind_ok_iff.mpr ⟨entry, hscan, rfl⟩
      rw [applyRows_known hload, decision_known hentry]
      by_cases hsame : same d entry operation deviceID = true
      · rw [if_pos hsame, if_pos hsame]
        exact hrest hlater
      · rw [if_neg hsame, if_neg hsame]
        exact hrest hlater.reject

end

/-! ## What the parser accepts fits the tables -/

/-- 10000-01-01T00:00:00Z -/
def yearTenThousand : Int := 253402300800000000000

/-- The instant is in a year of four digits, once it is in UTC. -/
def FourDigitYear (t : Time) : Prop := t.unixNano < yearTenThousand

instance (t : Time) : Decidable (FourDigitYear t) := inferInstanceAs (Decidable (_ < _))

section
variable {t : Time} {label value : String} {wallMs counter : Option Int} {wall count : Int}

theorem parseStoredTime_formatTime (hclock : ParsedClock value wallMs counter t wall count)
    (h : FourDigitYear t) : parseStoredTime label (formatTime t) = .ok t.utc := by
  have hnear := hclock.near
  have hwall := hclock.wall_range
  unfold maxClockSkew at hnear
  have hparse : Rfc3339.parse (Rfc3339.format t.unixNano) = some (t.unixNano, 0) := by
    refine Rfc3339.parse_format ?_ ?_
    · refine le_trans (b := -300000000000) (by decide) ?_
      omega
    · exact lt_of_lt_of_eq h (by decide)
  unfold parseStoredTime formatTime
  rw [String.toList_ofList, hparse]
  rfl

theorem parseStoredTime_late (h : ¬ FourDigitYear t) :
    parseStoredTime label (formatTime t) =
      .error (fail ("parse stored " ++ label ++ " timestamp")) := by
  have hparse : Rfc3339.parse (Rfc3339.format t.unixNano) = none :=
    Rfc3339.parse_format_late (le_of_eq_of_le (by decide) (Int.not_lt.mp h))
  unfold parseStoredTime formatTime
  rw [String.toList_ofList, hparse]

/-- The integer columns of an accepted clock are in range. -/
theorem clock_fits (hclock : ParsedClock value wallMs counter t wall count) :
    (-2 ^ 63 ≤ t.unixMilli ∧ t.unixMilli < 2 ^ 63) ∧ (0 ≤ wall ∧ wall < 2 ^ 63) ∧
      0 ≤ count ∧ count < 2 ^ 63 := by
  have hnear := hclock.near
  have hwall := hclock.wall_range
  have hcount := hclock.count_range
  unfold maxClockSkew at hnear
  unfold maxSafeInteger at hwall hcount
  unfold Time.unixMilli
  omega

end

/-- An accepted identifier has a length the tables allow, and no NUL. -/
theorem validID_length {value : String} (h : validID value = true) :
    sqlLength value = value.length ∧ 8 ≤ value.length ∧ value.length ≤ 128 := by
  have hchar : ∀ c : Char, idCharacter c = true → c ≠ '\x00' := by
    rintro c hc rfl
    cases hc
  unfold validID at h
  split at h
  next => cases h
  next first rest hlist =>
    simp only [Bool.and_eq_true, List.all_eq_true, decide_eq_true_eq] at h
    obtain ⟨⟨⟨hfirst, hrest⟩, hlow⟩, hhigh⟩ := h
    have hall : ∀ c ∈ value.toList, (decide (c ≠ '\x00')) = true := by
      intro c hc
      rw [hlist] at hc
      obtain rfl | hc := List.mem_cons.mp hc
      · exact decide_eq_true (hchar c (by simp [idCharacter, hfirst]))
      · exact decide_eq_true (hchar c (hrest c hc))
    have hlength : value.length = rest.length + 1 := by
      rw [← String.length_toList, hlist, List.length_cons]
    unfold sqlLength
    rw [List.takeWhile_eq_self_iff.mpr hall, String.length_toList]
    omega

/-- What the tables make of an operation: its row is accepted, and read back as
it was if the year has four digits. -/
structure Storable (d : Domain) (deviceID : String) (operation : d.Operation) : Prop where
  fits : (tableOf d).fits (bind d deviceID operation) = true
  allowed : d.allowed (d.row deviceID operation) = true
  readable : FourDigitYear (d.occurredAt operation) →
    scan d (bind d deviceID operation) = .ok (d.row deviceID operation)
  unreadable : ¬ FourDigitYear (d.occurredAt operation) →
    ∃ error, scan d (bind d deviceID operation) = .error error

theorem commandTypeOf_text (type : CommandType) : commandTypeOf type.text = some type := by
  cases type <;> decide

theorem taskOperationTypeOf_text (type : TaskOperationType) :
    taskOperationTypeOf type.text = some type := by
  cases type <;> decide

theorem phaseOf_text (phase : Phase) : phaseOf phase.text = some phase := by
  cases phase <;> decide

theorem textOrEmpty_nullString (value : String) : textOrEmpty (nullString value) = some value := by
  unfold nullString
  split
  next h =>
    rw [h]
    rfl
  next => rfl

theorem textOrNone_nullableString (value : Option String) :
    textOrNone (nullableString value) = some value := by
  cases value <;> rfl

section
variable {deviceID title : String}

theorem storable_command {input : SyncCommandJSON} {command : Command}
    (hidentity : validCommandIdentity input = .ok ())
    (h : ParsedCommand deviceID input command) : Storable .timer deviceID command := by
  have hclock := clock_fits h.clock
  have hplanned := h.planned_range
  have hobserved := h.observed_range
  have hsequence : 0 < command.deviceSequence ∧ command.deviceSequence ≤ maxSafeInteger := by
    have hany := (check_ok_iff.mp hidentity).2.2
    rw [h.sequence]
    cases hvalue : input.deviceSequence with
    | none => simp [hvalue] at hany
    | some sequence => simpa [hvalue] using hany
  unfold maxSafeInteger at hobserved hsequence
  refine ⟨?_, decide_eq_true hsequence.1, fun hyear => ?_, fun hyear => ?_⟩
  · simp [Table.fits, tableOf, timerCommandsTable, OperationTables.bind, bindCommand,
      Column.accepts, positiveCheck]
    omega
  · show scanCommand (bindCommand deviceID command) = .ok (commandRow deviceID command)
    unfold scanCommand bindCommand
    simp only [textOrEmpty_nullString, commandTypeOf_text, phaseOf_text]
    exact bind_ok_iff.mpr ⟨_, parseStoredTime_formatTime h.clock hyear, rfl⟩
  · show ∃ error, scanCommand (bindCommand deviceID command) = .error error
    unfold scanCommand bindCommand
    simp only [textOrEmpty_nullString, commandTypeOf_text, phaseOf_text]
    exact ⟨_, bind_error (parseStoredTime_late hyear)⟩

theorem storable_taskOperation {input : SyncTaskOperationJSON} {operation : TaskOperation}
    (h : ParsedTaskOperation deviceID title input operation) :
    Storable .task deviceID operation := by
  have hclock := clock_fits h.clock
  refine ⟨?_, rfl, fun hyear => ?_, fun hyear => ?_⟩
  · have htype : textIn ["upsert", "delete"] (.text operation.type.text) = true := by
      cases operation.type <;> decide
    simp [Table.fits, tableOf, taskOperationsTable, OperationTables.bind, bindTaskOperation,
      Column.accepts, htype]
    omega
  · show scanTaskOperation (bindTaskOperation deviceID operation) =
      .ok (taskOperationRow deviceID operation)
    unfold scanTaskOperation bindTaskOperation
    simp only [taskOperationTypeOf_text]
    exact bind_ok_iff.mpr ⟨_, parseStoredTime_formatTime h.clock hyear, rfl⟩
  · show ∃ error, scanTaskOperation (bindTaskOperation deviceID operation) = .error error
    unfold scanTaskOperation bindTaskOperation
    simp only [taskOperationTypeOf_text]
    exact ⟨_, bind_error (parseStoredTime_late hyear)⟩

theorem storable_durationOperation {input : SyncDurationOperationJSON}
    {operation : DurationOperation} (h : ParsedDurationOperation deviceID input operation) :
    Storable .duration deviceID operation := by
  have hclock := clock_fits h.clock
  have hgrid := h.duration_grid
  refine ⟨?_, ?_, fun hyear => ?_, fun hyear => ?_⟩
  · have hphase : textIn ["focus", "short_break", "long_break"] (.text operation.phase.text) =
        true := by
      cases operation.phase <;> decide
    have hremainder : operation.durationMs.tmod 60000 = 0 := by
      rw [Int.tmod_eq_emod_of_nonneg (by omega)]
      exact hgrid.2.2
    simp [Table.fits, tableOf, durationOperationsTable, OperationTables.bind,
      bindDurationOperation, Column.accepts, hphase, durationCheck, nonNegativeCheck, hremainder]
    omega
  · show durationOperationAllowed (durationOperationRow deviceID operation) = true
    unfold durationOperationAllowed durationOperationRow
    simp
    omega
  · show scanDurationOperation (bindDurationOperation deviceID operation) =
      .ok (durationOperationRow deviceID operation)
    unfold scanDurationOperation bindDurationOperation
    simp only [phaseOf_text]
    exact bind_ok_iff.mpr ⟨_, parseStoredTime_formatTime h.clock hyear, rfl⟩
  · show ∃ error, scanDurationOperation (bindDurationOperation deviceID operation) = .error error
    unfold scanDurationOperation bindDurationOperation
    simp only [phaseOf_text]
    exact ⟨_, bind_error (parseStoredTime_late hyear)⟩

theorem storable_autoStartOperation {input : SyncAutoStartOperationJSON}
    {operation : AutoStartOperation} (hdevice : validID deviceID = true)
    (hinput : validID input.id = true) (h : ParsedAutoStartOperation deviceID input operation) :
    Storable .autoStart deviceID operation := by
  have hclock := clock_fits h.clock
  obtain ⟨hdeviceChars, hdeviceLength⟩ := validID_length hdevice
  obtain ⟨hidChars, hidLength⟩ := validID_length (h.id ▸ hinput)
  refine ⟨?_, ?_, fun hyear => ?_, fun hyear => ?_⟩
  · cases henabled : operation.enabled <;>
      simp [Table.fits, tableOf, autoStartOperationsTable, OperationTables.bind,
        bindAutoStartOperation, Column.accepts, lengthCheck, booleanCheck, nonNegativeCheck,
        henabled, hdeviceChars, hidChars]
    all_goals omega
  · show autoStartOperationAllowed (autoStartOperationRow deviceID operation) = true
    unfold autoStartOperationAllowed autoStartOperationRow idLength
    simp
    omega
  · show scanAutoStartOperation (bindAutoStartOperation deviceID operation) =
      .ok (autoStartOperationRow deviceID operation)
    refine bind_ok_iff.mpr ⟨_, parseStoredTime_formatTime h.clock hyear, ?_⟩
    cases henabled : operation.enabled <;> simp [autoStartOperationRow, henabled]
  · exact ⟨_, bind_error (parseStoredTime_late hyear)⟩

theorem storable_selectedTaskOperation {input : SyncSelectedTaskOperationJSON}
    {operation : SelectedTaskOperation} (hdevice : validID deviceID = true)
    (hinput : validID input.id = true) (h : ParsedSelectedTaskOperation deviceID input operation) :
    Storable .selectedTask deviceID operation := by
  have hclock := clock_fits h.clock
  obtain ⟨hdeviceChars, hdeviceLength⟩ := validID_length hdevice
  obtain ⟨hidChars, hidLength⟩ := validID_length (h.id ▸ hinput)
  have htask : ∀ taskID, operation.taskID = some taskID → validID taskID = true := by
    intro taskID hsome
    have hparsed := h.task
    rw [hsome] at hparsed
    unfold parseNullableTaskID at hparsed
    split at hparsed
    · cases hparsed
    · cases hparsed
    · obtain ⟨_, hvalid, hparsed⟩ := bind_ok_iff.mp hparsed
      cases hparsed
      exact check_ok_iff.mp hvalid
    · cases hparsed
  refine ⟨?_, ?_, fun hyear => ?_, fun hyear => ?_⟩
  · have hcheck : lengthCheck (nullableString operation.taskID) = true := by
      cases hsome : operation.taskID with
      | none => rfl
      | some taskID =>
        obtain ⟨hchars, hlength⟩ := validID_length (htask taskID hsome)
        simp [nullableString, lengthCheck, hchars, hlength]
    simp [Table.fits, tableOf, selectedTaskOperationsTable, OperationTables.bind,
      bindSelectedTaskOperation, Column.accepts, hcheck, nonNegativeCheck]
    simp [lengthCheck, hdeviceChars, hidChars]
    omega
  · show selectedTaskOperationAllowed (selectedTaskOperationRow deviceID operation) = true
    have hlength : operation.taskID.all idLength = true := by
      cases hsome : operation.taskID with
      | none => rfl
      | some taskID =>
        obtain ⟨-, hlength⟩ := validID_length (htask taskID hsome)
        simp [idLength, hlength]
    unfold selectedTaskOperationAllowed selectedTaskOperationRow
    simp only [hlength]
    unfold idLength
    simp
    omega
  · show scanSelectedTaskOperation (bindSelectedTaskOperation deviceID operation) =
      .ok (selectedTaskOperationRow deviceID operation)
    unfold scanSelectedTaskOperation bindSelectedTaskOperation
    simp only [textOrNone_nullableString]
    exact bind_ok_iff.mpr ⟨_, parseStoredTime_formatTime h.clock hyear, rfl⟩
  · show ∃ error, scanSelectedTaskOperation (bindSelectedTaskOperation deviceID operation) = .error error
    unfold scanSelectedTaskOperation bindSelectedTaskOperation
    simp only [textOrNone_nullableString]
    exact ⟨_, bind_error (parseStoredTime_late hyear)⟩

end

/-! ## A request in the five tables -/

section
variable {d : Domain} {deviceID : String} {operations : List d.Operation}
  {a b : RowApplication} {request : SyncRequest} {t u : UserTables} {tables tables' : Tables}
  {applied : OperationApplication}

/-- A loop that has raised no flag has added no row. -/
theorem applyRows_unchanged (h : applyRows d deviceID operations a = .ok b)
    (hchanged : b.changed = false) : b.rows = a.rows ∧ a.changed = false := by
  induction operations generalizing a with
  | nil =>
    cases h
    exact ⟨rfl, hchanged⟩
  | cons operation operations ih =>
    obtain ⟨existing, -, h⟩ := bind_ok_iff.mp h
    cases existing with
    | some existing =>
      simp only at h
      split at h
      · exact ih h
      · have hrest := ih h
        exact hrest
    | none =>
      simp only at h
      split at h
      · have hrest := ih h
        exact hrest
      · obtain ⟨rows, -, h⟩ := bind_ok_iff.mp h
        cases (ih h).2

theorem applyOperations_unchanged (h : OperationTables.applyOperations tables request =
    .ok (tables', applied)) (hchanged : applied.changed = false) : tables' = tables := by
  obtain ⟨commands, hcommands, h⟩ := bind_ok_iff.mp h
  obtain ⟨tasks, htasks, h⟩ := bind_ok_iff.mp h
  obtain ⟨durations, hdurations, h⟩ := bind_ok_iff.mp h
  obtain ⟨autoStarts, hautoStarts, h⟩ := bind_ok_iff.mp h
  obtain ⟨selectedTasks, hselectedTasks, h⟩ := bind_ok_iff.mp h
  cases h
  obtain ⟨hselectedTaskRows, hchanged⟩ := applyRows_unchanged hselectedTasks hchanged
  obtain ⟨hautoStartRows, hchanged⟩ := applyRows_unchanged hautoStarts hchanged
  obtain ⟨hdurationRows, hchanged⟩ := applyRows_unchanged hdurations hchanged
  obtain ⟨htaskRows, hchanged⟩ := applyRows_unchanged htasks hchanged
  obtain ⟨htimerRows, -⟩ := applyRows_unchanged hcommands hchanged
  funext d
  cases d
  · exact htimerRows
  · exact htaskRows
  · exact hdurationRows
  · exact hautoStartRows
  · exact hselectedTaskRows

/-- The tables go through a request as the logs do. -/
theorem applyOperations_stored
    (hstorable : ∀ d : Domain, ∀ operation ∈ d.submitted request,
      Storable d request.deviceID operation)
    (hids : ∀ d : Domain, ((d.submitted request).map d.id).Nodup)
    (hrows : ∀ d : Domain, List.Forall₂ (Stored d request.deviceID (d.submitted request)
      ((d.submitted request).map d.id)) (tables d) (d.log t)) :
    ∃ tables' u applied, OperationTables.applyOperations tables request = .ok (tables', applied) ∧
      OperationLogs.applyOperations t request = .ok (u, applied) ∧
      ∀ d : Domain, List.Forall₂ (Stored d request.deviceID (d.submitted request) [])
        (tables' d) (d.log u) := by
  have hloop := fun (d : Domain) (changed : Bool) =>
    Simulates.applyRows (a := { rows := tables d, changed := changed })
      (b := { log := d.log t, changed := changed }) (List.Subset.refl (d.submitted request))
      (fun operation hmem => (hstorable d operation hmem).fits)
      (fun operation hmem => (hstorable d operation hmem).allowed) (hids d)
      ⟨hrows d, rfl, rfl⟩
  obtain ⟨commands, commandLog, hcommands, hcommandLog, htimer⟩ := hloop .timer false
  obtain ⟨tasks, taskLog, htasks, htaskLog, htask⟩ := hloop .task commands.changed
  obtain ⟨durations, durationLog, hdurations, hdurationLog, hduration⟩ :=
    hloop .duration tasks.changed
  obtain ⟨autoStarts, autoStartLog, hautoStarts, hautoStartLog, hautoStart⟩ :=
    hloop .autoStart durations.changed
  obtain ⟨selectedTasks, selectedTaskLog, hselectedTasks, hselectedTaskLog, hselectedTask⟩ :=
    hloop .selectedTask autoStarts.changed
  rw [htimer.changed] at htaskLog
  rw [htask.changed] at hdurationLog
  rw [hduration.changed] at hautoStartLog
  rw [hautoStart.changed] at hselectedTaskLog
  let u : UserTables :=
    { t with
      timerCommands := commandLog.log
      taskOperations := taskLog.log
      durationOperations := durationLog.log
      autoStartOperations := autoStartLog.log
      selectedTaskOperations := selectedTaskLog.log }
  refine ⟨_, u, _, bind_ok_iff.mpr ⟨commands, hcommands, bind_ok_iff.mpr ⟨tasks, htasks,
    bind_ok_iff.mpr ⟨durations, hdurations, bind_ok_iff.mpr ⟨autoStarts, hautoStarts,
      bind_ok_iff.mpr ⟨selectedTasks, hselectedTasks, rfl⟩⟩⟩⟩⟩, ?_, ?_⟩
  · rw [htimer.rejections, htask.rejections, hduration.rejections, hautoStart.rejections,
      hselectedTask.rejections, hselectedTask.changed]
    exact bind_ok_iff.mpr ⟨commandLog, hcommandLog, bind_ok_iff.mpr ⟨taskLog, htaskLog,
      bind_ok_iff.mpr ⟨durationLog, hdurationLog, bind_ok_iff.mpr ⟨autoStartLog, hautoStartLog,
        bind_ok_iff.mpr ⟨selectedTaskLog, hselectedTaskLog, rfl⟩⟩⟩⟩⟩
  · intro d
    cases d
    · exact htimer.rows
    · exact htask.rows
    · exact hduration.rows
    · exact hautoStart.rows
    · exact hselectedTask.rows

/-- The logs recognize a request they have taken. -/
theorem applyOperations_again (hvalid : ValidLogs t)
    (hids : ∀ d : Domain, ((d.submitted request).map d.id).Nodup)
    (h : OperationLogs.applyOperations t request = .ok (u, applied)) :
    OperationLogs.applyOperations u request = .ok (u, { applied with changed := false }) := by
  obtain ⟨commands, hcommands, h⟩ := bind_ok_iff.mp h
  obtain ⟨tasks, htasks, h⟩ := bind_ok_iff.mp h
  obtain ⟨durations, hdurations, h⟩ := bind_ok_iff.mp h
  obtain ⟨autoStarts, hautoStarts, h⟩ := bind_ok_iff.mp h
  obtain ⟨selectedTasks, hselectedTasks, h⟩ := bind_ok_iff.mp h
  cases h
  have hdistinct := hvalid.distinct
  have hutc := hvalid.utc
  exact bind_ok_iff.mpr ⟨_, Domain.timer.lawful.applyEach_again (hdistinct .timer) (hutc .timer)
      hcommands (hids .timer) false,
    bind_ok_iff.mpr ⟨_, Domain.task.lawful.applyEach_again (hdistinct .task) (hutc .task) htasks
      (hids .task) false,
    bind_ok_iff.mpr ⟨_, Domain.duration.lawful.applyEach_again (hdistinct .duration)
      (hutc .duration) hdurations (hids .duration) false,
    bind_ok_iff.mpr ⟨_, Domain.autoStart.lawful.applyEach_again (hdistinct .autoStart)
      (hutc .autoStart) hautoStarts (hids .autoStart) false,
    bind_ok_iff.mpr ⟨_, Domain.selectedTask.lawful.applyEach_again (hdistinct .selectedTask)
      (hutc .selectedTask) hselectedTasks (hids .selectedTask) false, rfl⟩⟩⟩⟩⟩

end

/-! ## Resubmission -/

/-- The rows of the tables can be read, and stand for the logs. -/
def Represents (tables : Tables) (t : UserTables) : Prop :=
  ∀ d : Domain, List.Forall₂ (fun row entry => scan d row = .ok entry) (tables d) (d.log t)

/-- No stored operation conflicts with one of the request: one with its id or its
slot is the operation itself. -/
def Unopposed (t : UserTables) (request : SyncRequest) : Prop :=
  ∀ d : Domain, ∀ operation ∈ d.submitted request, ∀ entry ∈ d.log t,
    ¬ d.keys.Clash entry (d.row request.deviceID operation)

/-- What the tables make of a request that is sent again. -/
structure Recognized (sharedIdentities : SharedIdentities) (batch : OperationBatch)
    (request : SyncRequest) (tables : Tables) (applied : OperationApplication) : Prop where
  /-- an instant is the same once it is stored and loaded -/
  instants : ∀ d : Domain, ∀ operation ∈ d.submitted request,
    ∃ entry, scan d (bind d request.deviceID operation) = .ok entry ∧
      (d.occurredAt entry).equal (d.occurredAt operation) = true
  /-- an operation that was not rejected is found identical, whatever is added later -/
  identical : ∀ d : Domain, ∀ operation ∈ d.submitted request,
    (d.rejections applied).lookup (d.id operation) = none → ∀ rows, tables d <+: rows →
      ∃ entry, load d rows (d.id operation) = .ok (some entry) ∧
        same d entry operation request.deviceID = true
  /-- the same bytes, parsed again at any time, change nothing and are answered as before -/
  again : ∀ now request', parseOperationBatch sharedIdentities batch now = .ok request' →
    OperationTables.applyOperations tables request' =
      .ok (tables, { applied with changed := false })

section
variable {sharedIdentities : SharedIdentities} {batch : OperationBatch} {now : Time}
  {request : SyncRequest} {t u : UserTables} {tables : Tables} {applied : OperationApplication}

/-- What the parser makes of a batch can be stored. -/
theorem accepted_storable (h : AcceptedBatch batch request)
    (hdevice : validID batch.deviceID = true) (d : Domain) :
    ∀ operation ∈ d.submitted request, Storable d request.deviceID operation := by
  rw [h.device]
  intro operation hmem
  cases d with
  | timer =>
    obtain ⟨input, -, hidentity, hparsed⟩ := h.commands.parsed operation hmem
    exact storable_command hidentity hparsed
  | task =>
    obtain ⟨input, -, title, hparsed⟩ := h.taskOperations.parsed operation hmem
    exact storable_taskOperation hparsed
  | duration =>
    obtain ⟨input, -, -, hparsed⟩ := h.durationOperations.parsed operation hmem
    exact storable_durationOperation hparsed
  | autoStart =>
    obtain ⟨input, -, hid, hparsed⟩ := h.autoStartOperations.parsed operation hmem
    exact storable_autoStartOperation hdevice hid hparsed
  | selectedTask =>
    obtain ⟨input, -, hid, hparsed⟩ := h.selectedTaskOperations.parsed operation hmem
    exact storable_selectedTaskOperation hdevice hid hparsed

theorem accepted_distinct (h : AcceptedBatch batch request) (d : Domain) :
    ((d.submitted request).map d.id).Nodup := by
  cases d
  · exact h.commands.distinct
  · exact h.taskOperations.distinct
  · exact h.durationOperations.distinct
  · exact h.autoStartOperations.distinct
  · exact h.selectedTaskOperations.distinct

/-- Nothing but an earlier command of the same request is in the way of an
operation. -/
theorem rejected_for_earlier {d : Domain} (happlied : Applied t request u applied)
    (hids : ((d.submitted request).map d.id).Nodup) (hunopposed : Unopposed t request)
    {earlier later : List d.Operation} {operation : d.Operation}
    (hsplit : d.submitted request = earlier ++ operation :: later)
    (hrejected : (d.rejections applied).lookup (d.id operation) ≠ none) :
    ∃ other ∈ earlier, d.keys.SameSlot (d.row request.deviceID other)
      (d.row request.deviceID operation) := by
  rw [happlied.rejections d earlier later operation hsplit hids] at hrejected
  have hconflict : (verdict d.keys (offers d.keys (d.log t)
      (earlier.map (d.row request.deviceID))) (d.row request.deviceID operation)).IsConflict := by
    cases hverdict : verdict d.keys (offers d.keys (d.log t)
        (earlier.map (d.row request.deviceID))) (d.row request.deviceID operation) with
    | inserted => exact absurd (by rw [hverdict]; rfl) hrejected
    | duplicate => exact absurd (by rw [hverdict]; rfl) hrejected
    | keyTaken => exact .inl rfl
    | slotTaken => exact .inr rfl
  obtain ⟨x, hx, hclash⟩ := exists_clash_of_conflict hconflict
  obtain hx | hx := mem_of_mem_offers hx
  · exact absurd hclash (hunopposed d operation (hsplit ▸ by simp) x hx)
  · obtain ⟨other, hother, rfl⟩ := List.mem_map.mp hx
    obtain hkey | hslot := hclash.1
    · rw [Lawful.mem_key, Lawful.mem_key, d.lawful.id_row, d.lawful.id_row] at hkey
      rw [hsplit, List.map_append, List.map_cons, List.nodup_append] at hids
      exact absurd hkey (hids.2.2 _ (List.mem_map_of_mem hother) _ (by simp))
    · exact ⟨other, hother, hslot⟩

/-- An operation that was not rejected is in the log. -/
theorem mem_log_of_not_rejected {d : Domain} (happlied : Applied t request u applied)
    (hids : ((d.submitted request).map d.id).Nodup) {operation : d.Operation}
    (hmem : operation ∈ d.submitted request)
    (hnone : (d.rejections applied).lookup (d.id operation) = none) :
    d.row request.deviceID operation ∈ d.log u := by
  obtain ⟨earlier, later, hsplit⟩ := List.append_of_mem hmem
  rw [happlied.rejections d earlier later operation hsplit hids] at hnone
  have hkept : offer d.keys (offers d.keys (d.log t) (earlier.map (d.row request.deviceID)))
      (d.row request.deviceID operation) <+: d.log u := by
    rw [happlied.log d, Domain.rows, hsplit, List.map_append, List.map_cons, offers_append,
      offers_cons]
    exact prefix_offers
  refine hkept.subset (mem_offer_of_not_conflict ?_)
  rintro (hverdict | hverdict) <;> rw [hverdict] at hnone <;> cases hnone

theorem same_row {d : Domain} {deviceID : String} {operation : d.Operation} :
    same d (d.row deviceID operation) operation deviceID = true := by
  cases d <;> simp [same, Domain.row, sameCommand, commandRow, sameTaskOperation,
    taskOperationRow, sameDurationOperation, durationOperationRow, sameAutoStartOperation,
    autoStartOperationRow, sameSelectedTaskOperation, selectedTaskOperationRow, Time.equal]

/-- Where every instant can be read, the tables a request has left represent
their logs. -/
theorem represents_of_stored
    (hstorable : ∀ d : Domain, ∀ operation ∈ d.submitted request,
      Storable d request.deviceID operation)
    (hyears : ∀ d : Domain, ∀ operation ∈ d.submitted request,
      FourDigitYear (d.occurredAt operation))
    (hrows : ∀ d : Domain, List.Forall₂ (Stored d request.deviceID (d.submitted request) [])
      (tables d) (d.log u)) : Represents tables u := by
  intro d
  refine (hrows d).imp fun row entry hstored => ?_
  obtain hscan | ⟨operation, hmem, rfl, rfl, -⟩ := hstored
  · exact hscan
  · exact (hstorable d operation hmem).readable (hyears d operation hmem)

/-- What is in a log is found in the table that represents it, and in any
extension of it. -/
theorem load_of_mem {d : Domain} (hrepresents : Represents tables u) (hvalid : ValidLogs u)
    {entry : d.Operation} (hmem : entry ∈ d.log u) {rows : List Row} (hextends : tables d <+: rows) :
    load d rows (d.id entry) = .ok (some entry) := by
  have hstored : List.Forall₂ (Stored d "" [] []) (tables d) (d.log u) :=
    (hrepresents d).imp fun _ _ hscan => .inl hscan
  obtain ⟨-, hnone⟩ | ⟨row, found, hrow, hfound, hrowfound⟩ :=
    @find_stored d (tables d) "" [] [] (d.log u) (d.id entry) hstored
  · exact absurd (decide_eq_true rfl) (List.find?_eq_none.mp hnone entry hmem)
  · have hid : d.id found = d.id entry := by simpa using List.find?_some hfound
    obtain rfl : found = entry :=
      (hvalid.distinct d).eq_of_key (List.mem_of_find?_eq_some hfound) hmem
        (by rw [Lawful.mem_key, Lawful.mem_key, hid])
    have hscan : scan d row = .ok found := by
      obtain hscan | ⟨_, hnil, -⟩ := hrowfound
      · exact hscan
      · cases hnil
    obtain ⟨added, rfl⟩ := hextends
    unfold load
    rw [List.find?_append, hrow]
    exact bind_ok_iff.mpr ⟨found, hscan, rfl⟩

/-- A batch that the parser accepts violates no constraint of the tables, and it
is recognized when it is sent again if and only if its instants are in years of
four digits. -/
theorem accepted_batch_recognized_iff (hdevice : validID batch.deviceID = true)
    (haccepted : parseOperationBatch sharedIdentities batch now = .ok request)
    (hrepresents : Represents tables t) (hvalid : ValidLogs t)
    (hunopposed : Unopposed t request) :
    ∃ tables' applied, OperationTables.applyOperations tables request = .ok (tables', applied) ∧
      (∀ (d : Domain) (earlier later : List d.Operation) (operation : d.Operation),
        d.submitted request = earlier ++ operation :: later →
        (d.rejections applied).lookup (d.id operation) ≠ none →
          ∃ other ∈ earlier, d.keys.SameSlot (d.row request.deviceID other)
            (d.row request.deviceID operation)) ∧
      (Recognized sharedIdentities batch request tables' applied ↔
        ∀ d : Domain, ∀ operation ∈ d.submitted request,
          FourDigitYear (d.occurredAt operation)) := by
  have hbatch := parseOperationBatch_ok haccepted
  have hstorable := accepted_storable hbatch hdevice
  have hids := accepted_distinct hbatch
  obtain ⟨tables', u, applied, happly, hlogs, hrows⟩ := applyOperations_stored hstorable hids
    fun d => (hrepresents d).imp fun _ _ hscan => .inl hscan
  have happlied := applyOperations_ok hvalid.utc hlogs
  refine ⟨tables', applied, happly, ?_, ?_, ?_⟩
  · intro d earlier later operation hsplit hrejected
    exact rejected_for_earlier happlied (hids d) hunopposed hsplit hrejected
  · intro hrecognized d operation hmem
    by_contra hlate
    obtain ⟨entry, hscan, -⟩ := hrecognized.instants d operation hmem
    obtain ⟨error, herror⟩ := (hstorable d operation hmem).unreadable hlate
    rw [herror] at hscan
    cases hscan
  · intro hyears
    have hrepresents' := represents_of_stored hstorable hyears hrows
    refine ⟨fun d operation hmem => ?_, fun d operation hmem hnone rows hextends => ?_, ?_⟩
    · refine ⟨_, (hstorable d operation hmem).readable (hyears d operation hmem), ?_⟩
      cases d <;> exact decide_eq_true rfl
    · have hlog := mem_log_of_not_rejected happlied (hids d) hmem hnone
      have hload := load_of_mem hrepresents' (happlied.valid hvalid) hlog hextends
      rw [d.lawful.id_row] at hload
      exact ⟨_, hload, same_row⟩
    · intro now' request' haccepted'
      obtain rfl := parseOperationBatch_unique haccepted haccepted'
      obtain ⟨tables'', u', applied', happly', hlogs', -⟩ := applyOperations_stored hstorable hids
        fun d => (hrepresents' d).imp fun _ _ hscan => .inl hscan
      rw [applyOperations_again hvalid hids hlogs] at hlogs'
      cases hlogs'
      rw [applyOperations_unchanged happly' rfl] at happly'
      exact happly'

end

/-! ### The last minute of the year 9999 -/

/-- 9999-12-31T23:59:00Z -/
def lastMinute : Time := ⟨253402300740000000000, 0⟩

def noTitles : SharedIdentities := fun _ => .ok []

def noRows : Tables := fun _ => []

/-- A batch of one auto-start operation. -/
def autoStartBatch (occurredAt : String) (wallMs : Int) : OperationBatch where
  deviceID := "device-1"
  commands := []
  taskOperations := []
  durationOperations := []
  autoStartOperations := [⟨"operation-1", some true, occurredAt, some wallMs, some 0⟩]
  selectedTaskOperations := []
  maximum := 256

/-- Half a minute later by a clock that is a minute behind UTC: the year 10000. -/
def lateBatch : OperationBatch := autoStartBatch "9999-12-31T23:59:30-00:01" 253402300770000

/-- Half a minute later in UTC. -/
def timelyBatch : OperationBatch := autoStartBatch "9999-12-31T23:59:30Z" 253402300770000

def timelyRequest : SyncRequest where
  deviceID := "device-1"
  lastRevision := 0
  commands := []
  taskOperations := []
  durationOperations := []
  autoStartOperations :=
    [⟨"operation-1", "device-1", true, ⟨253402300770000000000, 0⟩, 253402300770000, 0⟩]
  selectedTaskOperations := []

/-- An accepted batch is stored, and the same bytes then fail for good. -/
theorem late_batch_not_recognized : ∃ request tables applied error,
    validID lateBatch.deviceID = true ∧
      parseOperationBatch noTitles lateBatch lastMinute = .ok request ∧
      OperationTables.applyOperations noRows request = .ok (tables, applied) ∧
      OperationTables.applyOperations tables request = .error error := by
  have hrun : (parseOperationBatch noTitles lateBatch lastMinute).toOption.any (fun request =>
      (OperationTables.applyOperations noRows request).toOption.any fun stored =>
        (OperationTables.applyOperations stored.1 request).toOption.isNone) = true := by
    decide +kernel
  obtain ⟨request, hrequest, hrun⟩ := exists_ok hrun
  obtain ⟨stored, hstored, hrun⟩ := exists_ok hrun
  cases hagain : OperationTables.applyOperations stored.1 request with
  | ok _ =>
    rw [hagain] at hrun
    cases hrun
  | error error =>
    exact ⟨request, stored.1, stored.2, error, by decide +kernel, hrequest, hstored, hagain⟩

theorem timely_batch_recognized : ∃ tables applied,
    OperationTables.applyOperations noRows timelyRequest = .ok (tables, applied) ∧
      Recognized noTitles timelyBatch timelyRequest tables applied := by
  have haccepted : parseOperationBatch noTitles timelyBatch lastMinute = .ok timelyRequest := by
    decide +kernel
  have hrepresents : Represents noRows UserTables.initial := by
    intro d
    cases d <;> exact .nil
  have hvalid : ValidLogs UserTables.initial := by
    refine ⟨fun d => ?_, fun d => ?_⟩
    · cases d <;> exact List.nodup_nil
    · cases d <;> exact fun x hx => absurd hx List.not_mem_nil
  have hunopposed : Unopposed UserTables.initial timelyRequest := by
    intro d operation _ entry hentry
    cases d <;> cases hentry
  obtain ⟨tables, applied, happly, -, hiff⟩ := accepted_batch_recognized_iff (by decide +kernel)
    haccepted hrepresents hvalid hunopposed
  refine ⟨tables, applied, happly, hiff.mpr fun d operation hmem => ?_⟩
  cases d with
  | autoStart =>
    obtain rfl := List.mem_singleton.mp hmem
    decide
  | _ => cases hmem

end Pomodorough.Store.StoredBatches
