import Pomodorough.Server.CheckedResponses
import Pomodorough.Server.ClockAgreement

/-! # Responses and their reader

The browser checks what it is served before it takes it. The server's checks are the
browser's but for the texts of times and device ids, which the server does not look into,
the timers of the history, and the clock. -/
namespace Pomodorough.Server.ServedResponses
open Pomodorough.Library Pomodorough.Library.Fallible
open Pomodorough.Server.CheckedResponses
open Pomodorough.Server.ClockAgreement (AcceptedClock)
open Pomodorough.Server.OperationParser (validID)
open Pomodorough.Store.Records Pomodorough.Store.OperationLogs
open Pomodorough.Store.OperationDomains
open Pomodorough.Store.SharedCore (Core)
open Pomodorough.Store.Bootstrap (Sha256)
open Pomodorough.Store.AccountRuns Pomodorough.Store.Resolutions
open Pomodorough.Store.Acknowledgements
open Pomodorough.Web.SyncCore (validDateTime)
open Pomodorough.Web.CanonicalResponses

/-! ## The wire -/

def string (text : String) : Option Value := some (.string text)

def integer (n : Int) : Option Value := some (.number (some n))

/-- `omitempty` -/
def nonempty (text : String) : Option Value := if text = "" then none else string text

def writeIntent (intent : Intent) : Value :=
  writeObject [("type", string intent.type), ("commandId", string intent.commandID),
    ("occurredAt", string intent.occurredAt.text)]

def timerFields (timer : CanonicalTimer) : List (String × Option Value) :=
  [("id", string timer.id), ("taskId", nonempty timer.taskID), ("phase", string timer.phase),
    ("status", string timer.status), ("plannedDurationMs", integer timer.plannedDurationMs),
    ("elapsedAtAnchorMs", integer timer.elapsedAtAnchorMs),
    ("anchorAt", string timer.anchorAt.text),
    ("startedByDeviceId", nonempty timer.startedByDeviceID),
    ("lastIntent", timer.lastIntent.map writeIntent)]

def writeCanonicalTimer (timer : CanonicalTimer) : Value := writeObject (timerFields timer)

def itemFields (item : HistoryItem) : List (String × Option Value) :=
  [("id", string item.id), ("timerId", string item.timerID), ("taskId", nonempty item.taskID),
    ("commandId", nonempty item.commandID), ("phase", string item.phase),
    ("status", string item.status), ("plannedDurationMs", integer item.plannedDurationMs),
    ("completedAt", nonempty item.completedAt.text), ("endedAt", nonempty item.endedAt.text)]

def writeHistoryItem (item : HistoryItem) : Value := writeObject (itemFields item)

def writeTask (task : Task) : Value :=
  writeObject [("id", string task.id), ("title", string task.title)]

def writeDurations (durations : DurationsMs) : Value :=
  writeObject [("focus", integer durations.focus), ("short_break", integer durations.shortBreak),
    ("long_break", integer durations.longBreak)]

def writeAcknowledgement (acknowledgement : Acknowledgement) : Value :=
  writeObject [("commandId", string acknowledgement.commandID),
    ("outcome", string acknowledgement.outcome), ("reason", string acknowledgement.reason)]

def writeOperationAcknowledgement (acknowledgement : OperationAcknowledgement) : Value :=
  writeObject [("operationId", string acknowledgement.operationID),
    ("outcome", string acknowledgement.outcome), ("reason", string acknowledgement.reason)]

def writeAcknowledgements : Domain → SyncResult → List Value
  | .timer, result => result.acknowledgements.map writeAcknowledgement
  | .task, result => result.taskAcknowledgements.map writeOperationAcknowledgement
  | .duration, result => result.durationAcknowledgements.map writeOperationAcknowledgement
  | .autoStart, result => result.autoStartAcknowledgements.map writeOperationAcknowledgement
  | .selectedTask, result => result.selectedTaskAcknowledgements.map writeOperationAcknowledgement

/-- The server's time, as it is written. -/
def serverTime (result : SyncResult) : String :=
  String.ofList (Rfc3339.format result.serverTime.unixNano)

/-- The fields of `writeAccountSnapshot`: a response, and the incarnation of its account. -/
def snapshotFields (incarnation : String) (result : SyncResult) : List (String × Option Value) :=
  [("acknowledgements", some (.array (writeAcknowledgements .timer result))),
    ("taskAcknowledgements", some (.array (writeAcknowledgements .task result))),
    ("durationAcknowledgements", some (.array (writeAcknowledgements .duration result))),
    ("autoStartAcknowledgements", some (.array (writeAcknowledgements .autoStart result))),
    ("selectedTaskAcknowledgements", some (.array (writeAcknowledgements .selectedTask result))),
    ("revision", integer result.revision),
    ("canonicalTimer", some ((result.canonicalTimer.map writeCanonicalTimer).getD .null)),
    ("history", some (.array (result.history.map writeHistoryItem))),
    ("tasks", some (.array (result.tasks.map writeTask))),
    ("durationsMs", some (writeDurations result.durationsMs)),
    ("autoStartBreaks", some (.boolean result.autoStartBreaks)),
    ("selectedTaskId", some ((result.selectedTaskID.map Value.string).getD .null)),
    ("serverTime", string (serverTime result)),
    ("serverHlcWallMs", integer result.serverHLCWallMs),
    ("serverHlcCounter", integer result.serverHLCCounter),
    ("accountIncarnation", string incarnation)]

def writeAccountSnapshot (incarnation : String) (result : SyncResult) : Value :=
  writeObject (snapshotFields incarnation result)

/-! ## What the browser reads -/

section Reading
variable {text : String} {n minimum maximum : Int}

@[simp] theorem stringOf_string : stringOf (string text) = some text := rfl
@[simp] theorem integerOf_integer : integerOf (integer n) = some n := rfl

@[simp] theorem isText_string : isText (string text) = decide (text ≠ "") := rfl
@[simp] theorem isString_string : isString (string text) = true := rfl
@[simp] theorem isDateTime_string : isDateTime (string text) = validDateTime text := rfl

@[simp] theorem has_string {values : List String} :
    has values (string text) = decide (text ∈ values) := rfl

@[simp] theorem ifDefined_string {valid : Option Value → Bool} :
    ifDefined valid (string text) = valid (string text) := rfl

@[simp] theorem ifDefined_nonempty {valid : Option Value → Bool} :
    ifDefined valid (nonempty text) = true ↔ (text ≠ "" → valid (string text) = true) := by
  unfold nonempty
  split
  next htext => simp [htext, ifDefined]
  next htext => simp [htext]

/-- Within the bounds of a safe integer the bounds alone are checked. -/
theorem validInteger_integer (hmin : -maxSafeInteger ≤ minimum) (hmax : maximum ≤ maxSafeInteger) :
    validInteger (integer n) minimum maximum = true ↔ minimum ≤ n ∧ n ≤ maximum := by
  unfold maxSafeInteger at hmin hmax
  simp only [validInteger, integerOf_integer, Option.any_some, Web.SyncCore.isSafeInteger,
    Bool.and_eq_true, decide_eq_true_eq]
  omega

end Reading

structure ReadableTimer (timer : CanonicalTimer) : Prop where
  anchor : validDateTime timer.anchorAt.text = true
  device : timer.startedByDeviceID ≠ "" → validID timer.startedByDeviceID = true
  intent : ∀ intent ∈ timer.lastIntent, validDateTime intent.occurredAt.text = true

structure ReadableItem (item : HistoryItem) : Prop where
  ended : validDateTime item.endedAt.text = true
  completed : item.status = "completed" → validDateTime item.completedAt.text = true

/-- A time of a year with four digits. -/
def FourDigitYear (time : Time) : Prop :=
  (Rfc3339.daysBeforeYear 0 - Rfc3339.epochDay) * Rfc3339.secondsPerDay * Rfc3339.nanosPerSecond ≤
      time.unixNano ∧
    time.unixNano < (Rfc3339.daysBeforeYear 10000 - Rfc3339.epochDay) * Rfc3339.secondsPerDay *
      Rfc3339.nanosPerSecond

/-- What the server has not checked of a response and the browser does. -/
structure Readable (result : SyncResult) : Prop where
  canonicalTimer : ∀ timer ∈ result.canonicalTimer, ReadableTimer timer
  history : ∀ item ∈ result.history, ReadableItem item
  timers : (result.history.map HistoryItem.timerID).Nodup
  serverTime : FourDigitYear result.serverTime
  clock : AcceptedClock result

section Parts
variable {timer : CanonicalTimer} {item : HistoryItem} {history : List HistoryItem}
  {tasks : List Task} {durations : DurationsMs}

theorem validIntent_written {intent : Intent} :
    validIntent (writeIntent intent) = validDateTime intent.occurredAt.text := by
  have hget := get_writeObject [("type", string intent.type),
    ("commandId", string intent.commandID), ("occurredAt", string intent.occurredAt.text)]
    (by simp)
  simp [validIntent, writeIntent, hget, List.lookup_cons]

theorem get_timer (field : String) :
    (writeCanonicalTimer timer).get field = ((timerFields timer).lookup field).join :=
  get_writeObject (timerFields timer) (by simp [timerFields]) field

theorem validTimer_written (h : CheckedTimer timer) :
    validTimer (writeCanonicalTimer timer) = true ↔
      validDateTime timer.anchorAt.text = true ∧
        (timer.startedByDeviceID ≠ "" → validID timer.startedByDeviceID = true) := by
  have hplanned : validInteger (integer timer.plannedDurationMs) 60000 14400000 = true :=
    (validInteger_integer (by decide) (by decide)).mpr h.planned
  have helapsed :
      validInteger (integer timer.elapsedAtAnchorMs) 0 timer.plannedDurationMs = true :=
    (validInteger_integer (by decide) (h.planned.2.trans (by decide))).mpr h.elapsed
  have htask : ifDefined isString (nonempty timer.taskID) = true :=
    ifDefined_nonempty.mpr fun _ => rfl
  have hobject : isObject (writeCanonicalTimer timer) = true := rfl
  simp [validTimer, hobject, get_timer, timerFields, List.lookup_cons, h.id, h.phase, h.status, hplanned,
    helapsed, htask]

theorem validateCanonicalTimer_written (h : CheckedTimer timer) :
    validateCanonicalTimer (writeCanonicalTimer timer) = .ok () ↔ ReadableTimer timer := by
  have hintent : ((writeCanonicalTimer timer).get "lastIntent").all validIntent = true ↔
      ∀ intent ∈ timer.lastIntent, validDateTime intent.occurredAt.text = true := by
    rw [get_timer]
    cases hlast : timer.lastIntent with
    | none => simp [timerFields, List.lookup_cons, hlast]
    | some intent => simp [timerFields, List.lookup_cons, hlast, validIntent_written]
  show (do
    check (validTimer (writeCanonicalTimer timer))
      "Bootstrap response returned an invalid canonicalTimer."
    check (((writeCanonicalTimer timer).get "lastIntent").all validIntent)
      "Bootstrap response returned an invalid canonicalTimer.") = Except.ok () ↔ _
  rw [bind_ok_iff]
  simp only [check_ok_iff, exists_const]
  rw [validTimer_written h, hintent]
  constructor
  · intro hvalid
    obtain ⟨⟨hanchor, hdevice⟩, hlast⟩ := hvalid
    exact ⟨hanchor, hdevice, hlast⟩
  · intro hreadable
    exact ⟨⟨hreadable.anchor, hreadable.device⟩, hreadable.intent⟩

theorem get_item (field : String) :
    (writeHistoryItem item).get field = ((itemFields item).lookup field).join :=
  get_writeObject (itemFields item) (by simp [itemFields]) field

theorem validItem_written (h : CheckedItem item) :
    validItem (writeHistoryItem item) = true ↔ ReadableItem item := by
  have hplanned : validInteger (integer item.plannedDurationMs) 60000 14400000 = true :=
    (validInteger_integer (by decide) (by decide)).mpr h.planned
  have htask : ifDefined isString (nonempty item.taskID) = true :=
    ifDefined_nonempty.mpr fun _ => rfl
  have hcommand : ifDefined isString (nonempty item.commandID) = true :=
    ifDefined_nonempty.mpr fun _ => rfl
  have hended : nonempty item.endedAt.text = string item.endedAt.text := if_neg h.ended
  have hobject : isObject (writeHistoryItem item) = true := rfl
  by_cases hstatus : item.status = "completed"
  · have hcompleted : item.completedAt.text ≠ "" := fun heq => h.completed.mp heq hstatus
    have hwritten : nonempty item.completedAt.text = string item.completedAt.text :=
      if_neg hcompleted
    have hvalid : validItem (writeHistoryItem item) = true ↔
        validDateTime item.completedAt.text = true ∧ validDateTime item.endedAt.text = true := by
      simp [validItem, hobject, get_item, itemFields, List.lookup_cons, h.id, h.timerID, h.phase,
        hstatus, historyStatuses, hplanned, htask, hcommand, hended, hwritten]
    rw [hvalid]
    constructor
    · intro htimes
      exact ⟨htimes.2, fun _ => htimes.1⟩
    · intro hreadable
      exact ⟨hreadable.completed hstatus, hreadable.ended⟩
  · have hcompleted : nonempty item.completedAt.text = none := if_pos (h.completed.mpr hstatus)
    have hundefined : ifDefined isDateTime none = true := rfl
    have hvalid : validItem (writeHistoryItem item) = true ↔
        validDateTime item.endedAt.text = true := by
      simp [validItem, hobject, get_item, itemFields, List.lookup_cons, h.id, h.timerID, h.phase,
        h.status, hstatus, hplanned, htask, hcommand, hended, hcompleted, hundefined]
    rw [hvalid]
    constructor
    · intro htime
      exact ⟨htime, fun hstatus' => absurd hstatus' hstatus⟩
    · intro hreadable
      exact hreadable.ended

/-- The loop passes items that are read, with ids that are new to it. -/
theorem validateHistoryFrom_written {ids timerIds : List String}
    (hchecked : ∀ item ∈ history, CheckedItem item) (hids : (history.map HistoryItem.id).Nodup)
    (hnew : ∀ item ∈ history, item.id ∉ ids) :
    validateHistoryFrom ids timerIds (history.map writeHistoryItem) = .ok () ↔
      (∀ item ∈ history, ReadableItem item) ∧ (history.map HistoryItem.timerID).Nodup ∧
        ∀ item ∈ history, item.timerID ∉ timerIds := by
  induction history generalizing ids timerIds with
  | nil => simp [validateHistoryFrom]
  | cons item history ih =>
    obtain ⟨hitem, hchecked⟩ := List.forall_mem_cons.mp hchecked
    obtain ⟨hitemNew, hnew⟩ := List.forall_mem_cons.mp hnew
    rw [List.map_cons, List.nodup_cons] at hids
    have hnew' : ∀ other ∈ history, other.id ∉ item.id :: ids := by
      intro other hother hmem
      obtain heq | hmem := List.mem_cons.mp hmem
      · exact hids.1 (heq ▸ List.mem_map_of_mem hother)
      · exact hnew other hother hmem
    have hid : (stringOf ((writeHistoryItem item).get "id")).getD "" = item.id := by
      simp [get_item, itemFields]
    have htimer : (stringOf ((writeHistoryItem item).get "timerId")).getD "" = item.timerID := by
      simp [get_item, itemFields, List.lookup_cons]
    rw [List.map_cons, validateHistoryFrom, hid, htimer, bind_ok_iff]
    simp only [check_ok_iff, exists_const, validItem_written hitem, ih hchecked hids.2 hnew',
      List.forall_mem_cons, List.map_cons, List.nodup_cons]
    simp only [List.mem_cons, not_or]
    constructor
    · intro h
      obtain ⟨⟨hreadable, -, htimerNew⟩, hrest, hnodup, hlater⟩ := h
      refine ⟨⟨hreadable, hrest⟩, ⟨fun hmem => ?_, hnodup⟩, htimerNew,
        fun other hother => (hlater other hother).2⟩
      obtain ⟨other, hother, heq⟩ := List.mem_map.mp hmem
      exact (hlater other hother).1 heq
    · intro h
      obtain ⟨⟨hreadable, hrest⟩, ⟨hfirst, hnodup⟩, htimerNew, hlater⟩ := h
      refine ⟨⟨hreadable, hitemNew, htimerNew⟩, hrest, hnodup, fun other hother =>
        ⟨fun heq => hfirst (heq ▸ List.mem_map_of_mem hother), hlater other hother⟩⟩

theorem validateTasks_written (h : ∀ task ∈ tasks, task.id ≠ "") :
    validateTasks (some (.array (tasks.map writeTask))) = .ok () := by
  unfold validateTasks
  rw [checkAll_ok_iff, List.forall_mem_map]
  intro task htask
  have hget := get_writeObject [("id", string task.id), ("title", string task.title)]
    (by simp)
  rw [check_ok_iff]
  simp [writeTask, hget, List.lookup_cons, h task htask]

theorem validateDurations_written (h : CheckedDuration durations.focus ∧
    CheckedDuration durations.shortBreak ∧ CheckedDuration durations.longBreak) :
    validateDurations (some (writeDurations durations)) = .ok () := by
  have hget := get_writeObject [("focus", integer durations.focus),
    ("short_break", integer durations.shortBreak), ("long_break", integer durations.longBreak)]
    (by simp)
  have hvalid : ∀ n, CheckedDuration n → validInteger (integer n) 60000 10800000 = true ∧
      n % 60000 = 0 := by
    intro n hn
    exact ⟨(validInteger_integer (by decide) (by decide)).mpr ⟨hn.1, hn.2.1⟩, hn.2.2⟩
  unfold validateDurations
  rw [bind_ok_iff]
  refine ⟨(), check_ok_iff.mpr rfl, checkAll_ok_iff.mpr ?_⟩
  simp only [phases, List.forall_mem_cons, List.not_mem_nil, false_implies, implies_true, and_true,
    Option.bind_some, check_ok_iff]
  simp only [writeDurations, hget, List.lookup_cons]
  exact ⟨hvalid _ h.1, hvalid _ h.2.1, hvalid _ h.2.2⟩

end Parts

/-! ## Times -/

/-- Only a year of four digits is written as a date-time has it. -/
theorem year_of_written {d : DateTimes.DateTime} {unixNano : Int}
    (h : DateTimes.Written d (Rfc3339.format unixNano)) {day : Int}
    (hday : day = unixNano / Rfc3339.nanosPerSecond / Rfc3339.secondsPerDay + Rfc3339.epochDay) :
    0 ≤ (Rfc3339.dateOfDay day).1 ∧ (Rfc3339.dateOfDay day).1 < 10000 := by
  have hdash : Char.isDigit '-' = false := rfl
  obtain ⟨rest, hformat⟩ : ∃ rest, Rfc3339.format unixNano =
      Rfc3339.writeYear (Rfc3339.dateOfDay day).1 ++ '-' :: rest := by
    subst hday
    exact ⟨_, rfl⟩
  obtain ⟨year, text, hyear, htext⟩ : ∃ year text, DateTimes.Field 4 d.year year ∧
      Rfc3339.format unixNano = year ++ '-' :: text := by
    generalize Rfc3339.format unixNano = written at h
    cases h with
    | intro hyear _ _ _ _ _ _ _ _ => exact ⟨_, _, hyear, rfl⟩
  -- the digits that both texts begin with
  have hdigits : (Rfc3339.writeYear (Rfc3339.dateOfDay day).1 ++ '-' :: rest).takeWhile
      Char.isDigit = year := by
    rw [← hformat, htext, List.takeWhile_append_of_pos hyear.isDigit,
      List.takeWhile_cons_of_neg (by simp [hdash]), List.append_nil]
  by_cases hneg : (Rfc3339.dateOfDay day).1 < 0
  · rw [Rfc3339.writeYear, if_pos hneg, List.cons_append,
      List.takeWhile_cons_of_neg (by simp [hdash])] at hdigits
    have hlength := hyear.length
    rw [← hdigits] at hlength
    cases hlength
  · rw [Rfc3339.writeYear, if_neg hneg,
      List.takeWhile_append_of_pos (fun c hc => Rfc3339.padded_isDigit hc),
      List.takeWhile_cons_of_neg (by simp [hdash]), List.append_nil] at hdigits
    have hlength := hyear.length
    rw [← hdigits, Rfc3339.padded_eq, List.length_append] at hlength
    have hlt := (Nat.length_toDigits_le_iff (by decide : 1 < 10) (by decide : 0 < 4)).mp
      (show (Nat.toDigits 10 (Rfc3339.dateOfDay day).1.toNat).length ≤ 4 by omega)
    omega

theorem validDateTime_written {result : SyncResult} :
    validDateTime (serverTime result) = true ↔ FourDigitYear result.serverTime := by
  rw [Web.SyncCore.validDateTime_eq, Option.isSome_iff_exists]
  constructor
  · intro h
    obtain ⟨parsed, hparsed⟩ := h
    obtain ⟨d, hwritten, -, -⟩ := Web.SyncCore.parseDateTime_iff.mp hparsed
    rw [serverTime, String.toList_ofList] at hwritten
    obtain ⟨hlow, hhigh⟩ := year_of_written hwritten rfl
    have hlow' := mt (Rfc3339.lt_yearOfDay_iff 0 _).mpr (Int.not_lt.mpr hlow)
    have hhigh' := (Rfc3339.lt_yearOfDay_iff 10000 _).mp hhigh
    unfold FourDigitYear
    unfold Rfc3339.epochDay Rfc3339.secondsPerDay Rfc3339.nanosPerSecond at *
    constructor <;> omega
  · intro h
    obtain ⟨d, hvalid, hwritten, -⟩ := DateTimes.format_written h.1 h.2
    refine ⟨_, Web.SyncCore.parseDateTime_iff.mpr ⟨d, ?_, hvalid, rfl⟩⟩
    rw [serverTime, String.toList_ofList]
    exact hwritten

/-- The browser reads the millisecond that the server computes. -/
theorem dateTimeMs_serverTime {result : SyncResult} (h : FourDigitYear result.serverTime) :
    Web.SyncCore.dateTimeMs (serverTime result) = some result.serverTime.unixMilli := by
  obtain ⟨d, hvalid, hwritten, hinstant⟩ := DateTimes.format_written h.1 h.2
  have hmillis : 1000 * d.instant =
      ((result.serverTime.unixNano : ℤ) : ℚ) / ((1000000 : ℕ) : ℚ) := by
    rw [hinstant]
    push_cast
    ring
  rw [Web.SyncCore.dateTimeMs_written (by rwa [serverTime, String.toList_ofList]) hvalid, hmillis,
    Rat.floor_intCast_div_natCast]
  rfl

/-! ## Whole responses -/

/-- What was sent, by the ids of each kind. -/
def sentOf (ids : Domain → List String) : Sent where
  commands := some (ids .timer)
  taskOperations := some (ids .task)
  durationOperations := some (ids .duration)
  autoStartOperations := some (ids .autoStart)
  selectedTaskOperations := some (ids .selectedTask)

def acknowledgedOf (ids : Domain → List String) (result : SyncResult) : Acknowledged where
  commands := (acknowledgements .timer result, ids .timer)
  tasks := (acknowledgements .task result, ids .task)
  durations := (acknowledgements .duration result, ids .duration)
  autoStart := (acknowledgements .autoStart result, ids .autoStart)
  selectedTask := (acknowledgements .selectedTask result, ids .selectedTask)

section Whole
variable {result : SyncResult} {incarnation : String} {ids : Domain → List String}

theorem get_snapshot (field : String) : (writeAccountSnapshot incarnation result).get field =
    ((snapshotFields incarnation result).lookup field).join :=
  get_writeObject (snapshotFields incarnation result) (by simp [snapshotFields]) field

theorem acknowledgements_written (result : SyncResult) (d : Domain) :
    (writeAcknowledgements d result).map
        (acknowledgementOf (if d = .timer then "commandId" else "operationId")) =
      acknowledgements d result := by
  have hcommand : ∀ a : Acknowledgement,
      acknowledgementOf "commandId" (writeAcknowledgement a) =
        acknowledgement a.commandID ⟨a.outcome, a.reason⟩ := by
    intro a
    have hget := get_writeObject [("commandId", string a.commandID),
      ("outcome", string a.outcome), ("reason", string a.reason)] (by simp)
    simp [acknowledgementOf, writeAcknowledgement, hget, List.lookup_cons, acknowledgement]
  have hoperation : ∀ a : OperationAcknowledgement,
      acknowledgementOf "operationId" (writeOperationAcknowledgement a) =
        acknowledgement a.operationID ⟨a.outcome, a.reason⟩ := by
    intro a
    have hget := get_writeObject [("operationId", string a.operationID),
      ("outcome", string a.outcome), ("reason", string a.reason)] (by simp)
    simp [acknowledgementOf, writeOperationAcknowledgement, hget, List.lookup_cons, acknowledgement]
  cases d <;> simp [writeAcknowledgements, acknowledgements, hcommand, hoperation,
    Function.comp_def]

theorem validateAcknowledgements_written (h : Acknowledges ids result) :
    validateAcknowledgements (writeAccountSnapshot incarnation result) (sentOf ids) =
      .ok (acknowledgedOf ids result) := by
  have htimer := acknowledgements_written result .timer
  have htask := acknowledgements_written result .task
  have hduration := acknowledgements_written result .duration
  have hautoStart := acknowledgements_written result .autoStart
  have hselected := acknowledgements_written result .selectedTask
  simp only [reduceCtorEq, if_true, if_false] at htimer htask hduration hautoStart hselected
  simp [validateAcknowledgements, acknowledgementField, get_snapshot, snapshotFields, List.lookup_cons,
    sentOf, htimer, htask, hduration, hautoStart, hselected, h .timer, h .task, h .duration,
    h .autoStart, h .selectedTask, acknowledgedOf, bind, Except.bind]

theorem validateServerClock_written :
    validateServerClock (writeAccountSnapshot incarnation result) = .ok () ↔
      FourDigitYear result.serverTime ∧ AcceptedClock result := by
  have htime : (writeAccountSnapshot incarnation result).get "serverTime" =
      string (serverTime result) := by simp [get_snapshot, snapshotFields, List.lookup_cons]
  have hwall : (writeAccountSnapshot incarnation result).get "serverHlcWallMs" =
      integer result.serverHLCWallMs := by simp [get_snapshot, snapshotFields, List.lookup_cons]
  have hcounter : (writeAccountSnapshot incarnation result).get "serverHlcCounter" =
      integer result.serverHLCCounter := by simp [get_snapshot, snapshotFields, List.lookup_cons]
  unfold validateServerClock
  rw [htime, hwall, hcounter, bind_ok_iff]
  simp only [check_ok_iff, exists_const, bind_ok_iff]
  simp only [isDateTime_string, validDateTime_written, stringOf_string, integerOf_integer,
    Option.bind_some, Option.getD_some,
    validInteger_integer (show -maxSafeInteger ≤ 1 by decide) (le_refl maxSafeInteger),
    validInteger_integer (show -maxSafeInteger ≤ 0 by decide) (le_refl maxSafeInteger)]
  refine and_congr_right fun hyear => ?_
  rw [dateTimeMs_serverTime hyear, Option.getD_some]
  constructor
  · intro h
    obtain ⟨⟨hwall, hcounter⟩, hbefore, hahead⟩ := h
    exact ⟨hwall, hcounter, hbefore, hahead⟩
  · intro h
    exact ⟨⟨h.wall, h.counter⟩, h.notBefore, h.notAhead⟩

/-- Of a response that the server has checked and that acknowledges what was sent, the
browser finds out what is left. -/
theorem validateCanonicalResponse_written (hvalid : Valid result)
    (hacknowledges : Acknowledges ids result) {accepted : Acknowledged} :
    validateCanonicalResponse (writeAccountSnapshot incarnation result) (sentOf ids) =
      .ok accepted ↔ Readable result ∧ accepted = acknowledgedOf ids result := by
  have hrevision : (writeAccountSnapshot incarnation result).get "revision" =
      integer result.revision := by simp [get_snapshot, snapshotFields, List.lookup_cons]
  have htimer : (writeAccountSnapshot incarnation result).get "canonicalTimer" =
      some ((result.canonicalTimer.map writeCanonicalTimer).getD .null) := by
    simp [get_snapshot, snapshotFields, List.lookup_cons]
  have hhistory : (writeAccountSnapshot incarnation result).get "history" =
      some (.array (result.history.map writeHistoryItem)) := by
    simp [get_snapshot, snapshotFields, List.lookup_cons]
  have htasks : (writeAccountSnapshot incarnation result).get "tasks" =
      some (.array (result.tasks.map writeTask)) := by
    simp [get_snapshot, snapshotFields, List.lookup_cons]
  have hdurations : (writeAccountSnapshot incarnation result).get "durationsMs" =
      some (writeDurations result.durationsMs) := by
    simp [get_snapshot, snapshotFields, List.lookup_cons]
  have hbreaks : (writeAccountSnapshot incarnation result).get "autoStartBreaks" =
      some (.boolean result.autoStartBreaks) := by
    simp [get_snapshot, snapshotFields, List.lookup_cons]
  have hselected : (writeAccountSnapshot incarnation result).get "selectedTaskId" =
      some ((result.selectedTaskID.map Value.string).getD .null) := by
    simp [get_snapshot, snapshotFields, List.lookup_cons]
  have hnumber : validInteger (integer result.revision) 0 maxSafeInteger = true :=
    (validInteger_integer (by decide) (le_refl _)).mpr hvalid.revision
  have hcanonical : validateCanonicalTimer
      ((result.canonicalTimer.map writeCanonicalTimer).getD .null) = .ok () ↔
        ∀ timer ∈ result.canonicalTimer, ReadableTimer timer := by
    cases htimer : result.canonicalTimer with
    | none => simp [validateCanonicalTimer]
    | some timer =>
      simpa using validateCanonicalTimer_written (hvalid.canonicalTimer timer htimer)
  have hselectedValid : (isNull (some ((result.selectedTaskID.map Value.string).getD .null)) ||
      isText (some ((result.selectedTaskID.map Value.string).getD .null))) = true := by
    cases hid : result.selectedTaskID with
    | none => rfl
    | some id =>
      show (false || isText (string id)) = true
      simpa using hvalid.selectedTask id hid
  have hobject : isObject (writeAccountSnapshot incarnation result) = true := rfl
  unfold validateCanonicalResponse
  rw [hrevision, htimer, hhistory, htasks, hdurations, hbreaks, hselected,
    validateAcknowledgements_written hacknowledges, validateTasks_written hvalid.tasks,
    validateDurations_written hvalid.durations]
  have hclock : ∀ u : Unit, validateServerClock (writeAccountSnapshot incarnation result) = .ok u ↔
      FourDigitYear result.serverTime ∧ AcceptedClock result := fun _ => validateServerClock_written
  have hboolean : isBoolean (some (.boolean result.autoStartBreaks)) = true := rfl
  simp only [bind_ok_iff, check_ok_iff, exists_const, hobject, hnumber, hselectedValid, hboolean,
    hcanonical, validateHistory, hclock, true_and, Except.ok.injEq, exists_eq_left',
    validateHistoryFrom_written hvalid.history hvalid.historyIDs (fun _ _ => List.not_mem_nil)]
  constructor
  · intro h
    obtain ⟨htimer, ⟨hitems, htimers, -⟩, ⟨hyear, hclock⟩, rfl⟩ := h
    exact ⟨⟨htimer, hitems, htimers, hyear, hclock⟩, rfl⟩
  · intro h
    obtain ⟨hreadable, rfl⟩ := h
    exact ⟨hreadable.canonicalTimer,
      ⟨hreadable.history, hreadable.timers, fun _ _ => List.not_mem_nil⟩,
      ⟨hreadable.serverTime, hreadable.clock⟩, rfl⟩

end Whole

/-! ## Runs -/

/-- In every run of a new account the browser takes an answer exactly where its texts of
times and device ids are in form, its history names no timer twice and its clock is at its
time: whatever else the browser checks, the server has made sure of. What it then takes as
acknowledged is what was sent. -/
theorem response_accepted_iff {core : Core} {sha256 : Sha256} {v : UserTables}
    {events : List Event} (h : Run core sha256 .initial events v)
    (hfree : CollisionFree sha256 (resolutions events)) :
    ∀ event ∈ events, ∀ result ids, event.answer = .ok result →
      submittedBy event.call = some ids → ∀ incarnation accepted,
        validateCanonicalResponse (writeAccountSnapshot incarnation result) (sentOf ids) =
          .ok accepted ↔ Readable result ∧ accepted = acknowledgedOf ids result := by
  intro event hmem result ids hanswer hids incarnation accepted
  obtain ⟨before, after, rfl⟩ := List.append_of_mem hmem
  obtain ⟨s, hbefore, hrest⟩ := h.split
  cases hrest with
  | cons hstep _ =>
    have hs : ValidLogs s := validLogs_run validLogs_initial hbefore
    have hearlier : CollisionFree sha256 (resolutions (before ++ [event])) := by
      refine collisionFree_of_subset hfree fun request hrequest => ?_
      rw [← List.singleton_append, ← List.append_assoc, resolutions_append]
      exact List.mem_append_left _ hrequest
    obtain ⟨hvalid, hacknowledges⟩ :=
      answered hs (storedChecked_run hbefore) hstep hearlier hanswer hids
    exact validateCanonicalResponse_written hvalid hacknowledges

/-- The answer to a first synchronization is taken. -/
theorem response_accepted_sync :
    let request := pauseRequest "command-1" "device-a" 1000
    let result := pauseAnswer "command-1" 1 2000 true
    let ids := fun d : Domain => (d.submitted request).map d.id
    validateCanonicalResponse (writeAccountSnapshot "1" result) (sentOf ids) =
      .ok (acknowledgedOf ids result) := by
  intro request result ids
  have hrun : Run absentTimerCore deviceSha256 .initial
      (performAll absentTimerCore deviceSha256 .initial
        [(.sync request, Time.ofUnixMilli 2000)]).1 _ := run_performAll
  have hevents : (performAll absentTimerCore deviceSha256 .initial
      [(.sync request, Time.ofUnixMilli 2000)]).1 =
        [⟨.sync request, Time.ofUnixMilli 2000, .ok result⟩] := by
    decide +kernel
  rw [hevents] at hrun
  have hfree : CollisionFree deviceSha256
      (resolutions [⟨.sync request, Time.ofUnixMilli 2000, .ok result⟩]) := by
    intro payload hpayload
    obtain ⟨_, hmem, -⟩ := hpayload
    cases hmem
  have hreadable : Readable result := by
    refine ⟨fun _ htimer => ?_, fun _ hitem => ?_, List.nodup_nil, ⟨by decide, by decide⟩, ?_⟩
    · cases htimer
    · cases hitem
    · exact ⟨by decide, by decide, by decide, by decide⟩
  exact (response_accepted_iff hrun hfree _ List.mem_cons_self result ids rfl rfl "1" _).mpr
    ⟨hreadable, rfl⟩

end Pomodorough.Server.ServedResponses
