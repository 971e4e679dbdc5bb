import Pomodorough.Server.OperationParser
import Pomodorough.Web.DateTimes

/-! # The check of a response

`validateCanonicalResponse` of `sync-core.js`, over what a response's JSON parses to. A
property that an object lacks is undefined, and so is any property of another value. -/
namespace Pomodorough.Web.CanonicalResponses
open Pomodorough.Library.Fallible
open Pomodorough.Server.OperationParser (validID)
open Pomodorough.Web.SyncCore

/-! ## Values -/

/-- Of a number the integer is kept that it is, if it is one. -/
inductive Value where
  | null
  | boolean (value : Bool)
  | number (integer : Option Int)
  | string (text : String)
  | array (items : List Value)
  | object (fields : List (String × Value))

/-- `value?.[field]`; `none` is undefined. -/
def Value.get (value : Value) (field : String) : Option Value :=
  match value with
  | .object fields => fields.lookup field
  | _ => none

def isObject : Value → Bool
  | .object _ => true
  | _ => false

def isNull : Option Value → Bool
  | some .null => true
  | _ => false

def isBoolean : Option Value → Bool
  | some (.boolean _) => true
  | _ => false

/-- The text of a string. -/
def stringOf : Option Value → Option String
  | some (.string text) => some text
  | _ => none

def integerOf : Option Value → Option Int
  | some (.number integer) => integer
  | _ => none

def isString (value : Option Value) : Bool := (stringOf value).isSome

/-- A string that counts as true. -/
def isText (value : Option Value) : Bool := (stringOf value).any (· ≠ "")

def isDateTime (value : Option Value) : Bool := (stringOf value).any validDateTime

/-- `values.has(value)` -/
def has (values : List String) (value : Option Value) : Bool := (stringOf value).any (· ∈ values)

/-- A check that undefined passes. -/
def ifDefined (valid : Option Value → Bool) (value : Option Value) : Bool :=
  value.isNone || valid value

def maxSafeInteger : Int := 9007199254740991

def validInteger (value : Option Value) (minimum maximum : Int) : Bool :=
  (integerOf value).any fun n => isSafeInteger n && minimum ≤ n && n ≤ maximum

/-! ## The parts -/

def phases : List String := ["focus", "short_break", "long_break"]

def timerStatuses : List String := ["running", "paused", "completed", "cancelled", "superseded"]

def historyStatuses : List String := ["completed", "cancelled", "superseded"]

def maxClockSkewMs : Int := 5 * 60000

/-- The ids of what was sent; a queue may be undefined. -/
structure Sent where
  commands : Option (List String)
  taskOperations : Option (List String)
  durationOperations : Option (List String)
  autoStartOperations : Option (List String)
  selectedTaskOperations : Option (List String)

/-- The acknowledgements of each queue, and the ids they acknowledge. -/
structure Acknowledged where
  commands : List Acknowledgement × List String
  tasks : List Acknowledgement × List String
  durations : List Acknowledgement × List String
  autoStart : List Acknowledgement × List String
  selectedTask : List Acknowledgement × List String
  deriving DecidableEq

def acknowledgementOf (idField : String) (acknowledgement : Value) : Acknowledgement :=
  ⟨stringOf (acknowledgement.get idField), stringOf (acknowledgement.get "outcome"),
    stringOf (acknowledgement.get "reason")⟩

/-- `payload[field]`, as `exactAcknowledgements` reads it. -/
def acknowledgementField (payload : Value) (field idField : String) : AcknowledgementField :=
  match payload.get field with
  | none => .nullish
  | some .null => .nullish
  | some (.array acknowledgements) => .array (acknowledgements.map (acknowledgementOf idField))
  | some _ => .other

def validateAcknowledgements (payload : Value) (sent : Sent) : Except String Acknowledged := do
  let exact (field idField : String) (sentItems : Option (List String)) :=
    exactAcknowledgements (acknowledgementField payload field idField) field sentItems
  let commands ← exact "acknowledgements" "commandId" sent.commands
  let tasks ← exact "taskAcknowledgements" "operationId" sent.taskOperations
  let durations ← exact "durationAcknowledgements" "operationId" sent.durationOperations
  let autoStart ← exact "autoStartAcknowledgements" "operationId" sent.autoStartOperations
  let selectedTask ← exact "selectedTaskAcknowledgements" "operationId" sent.selectedTaskOperations
  .ok ⟨commands, tasks, durations, autoStart, selectedTask⟩

def validTimer (timer : Value) : Bool :=
  isObject timer && isText (timer.get "id") && has phases (timer.get "phase") &&
    has timerStatuses (timer.get "status") &&
    validInteger (timer.get "plannedDurationMs") 60000 14400000 &&
    validInteger (timer.get "elapsedAtAnchorMs") 0
      ((integerOf (timer.get "plannedDurationMs")).getD 0) &&
    isDateTime (timer.get "anchorAt") &&
    ifDefined (fun id => (stringOf id).any validID) (timer.get "startedByDeviceId") &&
    ifDefined isString (timer.get "taskId")

def validIntent (intent : Value) : Bool :=
  isObject intent && isString (intent.get "type") && isString (intent.get "commandId") &&
    isDateTime (intent.get "occurredAt")

def validateCanonicalTimer (timer : Value) : Except String Unit :=
  match timer with
  | .null => .ok ()
  | timer => do
    check (validTimer timer) "Bootstrap response returned an invalid canonicalTimer."
    check ((timer.get "lastIntent").all validIntent)
      "Bootstrap response returned an invalid canonicalTimer."

/-- The checks of an item that do not look at the items before it. -/
def validItem (item : Value) : Bool :=
  isObject item && isText (item.get "id") && isText (item.get "timerId") &&
    has phases (item.get "phase") && has historyStatuses (item.get "status") &&
    validInteger (item.get "plannedDurationMs") 60000 14400000 &&
    (if stringOf (item.get "status") = some "completed" then isDateTime (item.get "completedAt")
      else isDateTime (item.get "endedAt")) &&
    ifDefined isString (item.get "taskId") && ifDefined isString (item.get "commandId") &&
    ifDefined isDateTime (item.get "completedAt") && ifDefined isDateTime (item.get "endedAt")

/-- The loop of `validateHistory`, with the ids of the items and of their timers so far. -/
def validateHistoryFrom : List String → List String → List Value → Except String Unit
  | _, _, [] => .ok ()
  | ids, timerIds, item :: history => do
    let id := (stringOf (item.get "id")).getD ""
    let timerId := (stringOf (item.get "timerId")).getD ""
    check (validItem item ∧ id ∉ ids ∧ timerId ∉ timerIds)
      "Bootstrap response returned invalid history."
    validateHistoryFrom (id :: ids) (timerId :: timerIds) history

def validateHistory : Option Value → Except String Unit
  | some (.array history) => validateHistoryFrom [] [] history
  | _ => .error "Bootstrap response omitted history."

def validateTasks : Option Value → Except String Unit
  | some (.array tasks) =>
    checkAll (fun task =>
      check (isObject task && isText (task.get "id") && isString (task.get "title"))
        "Bootstrap response returned invalid tasks.") tasks
  | _ => .error "Bootstrap response omitted tasks."

def validateDurations (durationsMs : Option Value) : Except String Unit := do
  check (durationsMs.any isObject) "Bootstrap response omitted durationsMs."
  checkAll (fun phase =>
    let durationMs := durationsMs.bind fun durations => durations.get phase
    check (validInteger durationMs 60000 10800000 ∧ (integerOf durationMs).getD 0 % 60000 = 0)
      "Bootstrap response returned invalid durationsMs.") phases

/-- A time that is no safe integer would count as 0. -/
def validateServerClock (payload : Value) : Except String Unit := do
  check (isDateTime (payload.get "serverTime")) "Bootstrap response omitted serverTime."
  check (validInteger (payload.get "serverHlcWallMs") 1 maxSafeInteger ∧
      validInteger (payload.get "serverHlcCounter") 0 maxSafeInteger)
    "Bootstrap response returned an invalid server HLC."
  let serverTimeMs := ((stringOf (payload.get "serverTime")).bind dateTimeMs).getD 0
  let serverHlcWallMs := (integerOf (payload.get "serverHlcWallMs")).getD 0
  check (serverTimeMs ≤ serverHlcWallMs ∧ serverHlcWallMs ≤ serverTimeMs + maxClockSkewMs)
    "Bootstrap response returned a server HLC inconsistent with serverTime."

def validateCanonicalResponse (payload : Value) (sent : Sent) : Except String Acknowledged := do
  check (isObject payload) "Bootstrap response was not an object."
  let acknowledgements ← validateAcknowledgements payload sent
  check (validInteger (payload.get "revision") 0 maxSafeInteger)
    "Bootstrap response omitted revision."
  match payload.get "canonicalTimer" with
  | none => .error "Bootstrap response omitted canonicalTimer."
  | some timer => do
    validateCanonicalTimer timer
    validateHistory (payload.get "history")
    validateTasks (payload.get "tasks")
    validateDurations (payload.get "durationsMs")
    check (isBoolean (payload.get "autoStartBreaks"))
      "Bootstrap response omitted autoStartBreaks."
    check (isNull (payload.get "selectedTaskId") || isText (payload.get "selectedTaskId"))
      "Bootstrap response returned an invalid selectedTaskId."
    validateServerClock payload
    .ok acknowledgements

/-! ## Objects as they are written -/

/-- An object of the fields that are not left out. -/
def writeObject (fields : List (String × Option Value)) : Value :=
  .object (fields.filterMap fun field => field.2.map (field.1, ·))

@[simp] theorem isObject_writeObject (fields : List (String × Option Value)) :
    isObject (writeObject fields) = true := rfl

/-- A field of distinct ones is read as it was written. -/
theorem get_writeObject (fields : List (String × Option Value))
    (h : (fields.map Prod.fst).Nodup) (field : String) :
    (writeObject fields).get field = (fields.lookup field).join := by
  show (fields.filterMap fun f => f.2.map (f.1, ·)).lookup field = _
  induction fields with
  | nil => rfl
  | cons first fields ih =>
    obtain ⟨name, value⟩ := first
    rw [List.map_cons, List.nodup_cons] at h
    have hrest := ih h.2
    rw [List.lookup_cons]
    by_cases hname : field = name
    · subst hname
      cases value with
      | some value => simp
      | none =>
        have hnone : fields.lookup field = none := by
          rw [List.lookup_eq_none_iff]
          intro other hother
          have hmem : other.1 ∈ fields.map Prod.fst := List.mem_map_of_mem hother
          have hne : field ≠ other.1 := fun heq => h.1 (heq ▸ hmem)
          simpa using hne
        simpa [hnone] using hrest
    · have hbeq : (field == name) = false := by simpa using hname
      cases value with
      | some value => simpa [List.lookup_cons, hbeq] using hrest
      | none => simpa [hbeq] using hrest

end Pomodorough.Web.CanonicalResponses
