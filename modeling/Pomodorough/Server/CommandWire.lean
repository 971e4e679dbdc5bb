import Pomodorough.Library.JsonObjects
import Pomodorough.Server.AcceptedBatches

/-! # The task of a timer command on the wire

A command's JSON object is decoded twice: into the struct, whose task id is the
last text under any spelling of the name, and into a map, which tells whether
the name stands there as it is written and whether its last value is null. -/
namespace Pomodorough.Server.CommandWire
open Pomodorough.Library.Fallible Pomodorough.Library.JsonObjects
open Pomodorough.Store.Records Pomodorough.Server.OperationParser
open Pomodorough.Server.AcceptedBatches

/-! ## Decoding -/

/-- The fields that have a name in JSON. -/
inductive CommandField where
  | id | deviceSequence | timerID | taskID | type | phase | plannedDurationMs | occurredAt
  | hlcWallMs | hlcCounter | observedElapsedMs
  deriving DecidableEq, Repr

def CommandField.name : CommandField → String
  | .id => "id"
  | .deviceSequence => "deviceSequence"
  | .timerID => "timerId"
  | .taskID => "taskId"
  | .type => "type"
  | .phase => "phase"
  | .plannedDurationMs => "plannedDurationMs"
  | .occurredAt => "occurredAt"
  | .hlcWallMs => "hlcWallMs"
  | .hlcCounter => "hlcCounter"
  | .observedElapsedMs => "observedElapsedMs"

def commandFields : List CommandField :=
  [.id, .deviceSequence, .timerID, .taskID, .type, .phase, .plannedDurationMs, .occurredAt,
    .hlcWallMs, .hlcCounter, .observedElapsedMs]

def SyncCommandJSON.zero : SyncCommandJSON where
  id := ""
  deviceSequence := none
  timerID := ""
  taskID := ""
  taskIDExplicitNull := false
  taskIDPresent := false
  type := ""
  phase := ""
  plannedDurationMs := none
  occurredAt := ""
  hlcWallMs := none
  hlcCounter := none
  observedElapsedMs := none

/-- The struct with a member's value in its field. -/
def storeField (field : CommandField) (value : JsonValue) (decoded : SyncCommandJSON) :
    Decoded SyncCommandJSON :=
  match field with
  | .id => do
    let text ← decodeString field.name decoded.id value
    .ok { decoded with id := text }
  | .deviceSequence => do
    let number ← decodeInt64 field.name value
    .ok { decoded with deviceSequence := number }
  | .timerID => do
    let text ← decodeString field.name decoded.timerID value
    .ok { decoded with timerID := text }
  | .taskID => do
    let text ← decodeString field.name decoded.taskID value
    .ok { decoded with taskID := text }
  | .type => do
    let text ← decodeString field.name decoded.type value
    .ok { decoded with type := text }
  | .phase => do
    let text ← decodeString field.name decoded.phase value
    .ok { decoded with phase := text }
  | .plannedDurationMs => do
    let number ← decodeInt64 field.name value
    .ok { decoded with plannedDurationMs := number }
  | .occurredAt => do
    let text ← decodeString field.name decoded.occurredAt value
    .ok { decoded with occurredAt := text }
  | .hlcWallMs => do
    let number ← decodeInt64 field.name value
    .ok { decoded with hlcWallMs := number }
  | .hlcCounter => do
    let number ← decodeInt64 field.name value
    .ok { decoded with hlcCounter := number }
  | .observedElapsedMs => do
    let number ← decodeInt64 field.name value
    .ok { decoded with observedElapsedMs := number }

/-- Decoding into the struct, where a name that is no field's is refused. -/
def decodeStruct : JsonObject → SyncCommandJSON → Decoded SyncCommandJSON
  | [], decoded => .ok decoded
  | (key, value) :: members, decoded =>
    match fieldNamed CommandField.name commandFields key with
    | none => .error (.unknownField key)
    | some field => do
      let decoded ← storeField field value decoded
      decodeStruct members decoded

def unmarshalJSON (payload : JsonObject) : Decoded SyncCommandJSON := do
  let decoded ← decodeStruct payload SyncCommandJSON.zero
  let raw := lastNamed "taskId" payload
  .ok { decoded with
        taskIDPresent := raw.isSome
        taskIDExplicitNull := raw.any JsonValue.isNull }

/-! ## The contract -/

/-- The name is a spelling of `taskId`. -/
def namesTask (key : String) : Bool :=
  fieldNamed CommandField.name commandFields key = some .taskID

/-- The texts an object has for its task. -/
def taskTexts (payload : JsonObject) : List String := textsOf namesTask payload

def Omitted (input : SyncCommandJSON) : Prop :=
  input.taskID = "" ∧ input.taskIDExplicitNull = false

def ExplicitNull (input : SyncCommandJSON) : Prop := input.taskIDExplicitNull = true

def Identified (input : SyncCommandJSON) : Prop := input.taskID ≠ ""

/-- The task of an accepted command is one of three, each where it may be. -/
structure TaskContract (payload : JsonObject) (input : SyncCommandJSON) (command : Command) :
    Prop where
  stored : command.taskID = input.taskID
  one : Omitted input ∧ ¬ ExplicitNull input ∧ ¬ Identified input ∨
    ¬ Omitted input ∧ ExplicitNull input ∧ ¬ Identified input ∨
    ¬ Omitted input ∧ ¬ ExplicitNull input ∧ Identified input
  unassigns : ExplicitNull input → input.type = "retarget"
  identifies : Identified input → validID input.taskID = true ∧
    (input.type = "start" ∧ input.phase = "focus" ∨ input.type = "retarget")
  emptyRefused : Omitted input → "" ∉ taskTexts payload

/-- What the two decodings have to agree on: the last text for the task is not
empty without the name as it is written, and is no identifier beside a null. -/
structure Agreeing (payload : JsonObject) : Prop where
  empty : (taskTexts payload).getLast? = some "" → lastNamed "taskId" payload ≠ none
  null : lastNamed "taskId" payload = some .null → ∀ text ∈ (taskTexts payload).getLast?, text = ""

/-! ## What decoding gives -/

section
variable {payload : JsonObject} {input decoded result : SyncCommandJSON} {command : Command}
  {deviceID : String} {now : Time} {field : CommandField} {value : JsonValue}

theorem storeField_taskID (h : storeField field value decoded = .ok result) :
    result.taskID = if field = .taskID then value.text.getD decoded.taskID else decoded.taskID := by
  cases field with
  | taskID =>
    obtain ⟨text, htext, h⟩ := bind_ok_iff.mp h
    cases h
    exact decodeString_ok htext
  | id | timerID | type | phase | occurredAt | deviceSequence | plannedDurationMs | hlcWallMs
  | hlcCounter | observedElapsedMs =>
    obtain ⟨_, -, h⟩ := bind_ok_iff.mp h
    cases h
    rfl

/-- The struct has the last text under a spelling of the name. -/
theorem decodeStruct_taskID (h : decodeStruct payload decoded = .ok result) :
    result.taskID = (taskTexts payload).getLast?.getD decoded.taskID := by
  induction payload generalizing decoded with
  | nil =>
    cases h
    rfl
  | cons member members ih =>
    obtain ⟨key, value⟩ := member
    unfold decodeStruct at h
    split at h
    next => cases h
    next field hfield =>
      obtain ⟨next, hstore, h⟩ := bind_ok_iff.mp h
      rw [ih h, storeField_taskID hstore]
      by_cases htask : field = .taskID
      · have hnames : namesTask key = true := by
          rw [namesTask, hfield, htask]
          rfl
        have htexts : taskTexts ((key, value) :: members) =
            value.text.toList ++ taskTexts members := if_pos hnames
        rw [htexts, if_pos htask]
        cases hlast : (taskTexts members).getLast? with
        | some text => simp [List.getLast?_append, hlast]
        | none =>
          rw [List.getLast?_eq_none_iff.mp hlast]
          cases value.text <;> rfl
      · have hnames : ¬ namesTask key = true := by
          intro hcontra
          have hsame := of_decide_eq_true hcontra
          rw [hfield] at hsame
          exact htask (Option.some.inj hsame)
        have htexts : taskTexts ((key, value) :: members) = taskTexts members := if_neg hnames
        rw [htexts, if_neg htask]

theorem unmarshalJSON_ok (h : unmarshalJSON payload = .ok input) :
    input.taskID = (taskTexts payload).getLast?.getD "" ∧
      (input.taskIDPresent = true ↔ lastNamed "taskId" payload ≠ none) ∧
      (ExplicitNull input ↔ lastNamed "taskId" payload = some .null) := by
  obtain ⟨decoded, hdecoded, h⟩ := bind_ok_iff.mp h
  cases h
  refine ⟨decodeStruct_taskID hdecoded, ?_, ?_⟩
  · exact Option.isSome_iff_ne_none
  · unfold ExplicitNull
    cases lastNamed "taskId" payload with
    | none => simp
    | some value => cases value <;> simp [JsonValue.isNull]

/-- What the check of the association leaves. -/
theorem validateCommandTaskAssociation_ok
    (h : validateCommandTaskAssociation input = .ok ()) :
    (input.taskIDPresent = true → Omitted input → False) ∧
      (Identified input → validID input.taskID = true ∧
        (input.type = "start" ∧ input.phase = "focus" ∨ input.type = "retarget")) ∧
      (ExplicitNull input → input.type = "retarget") := by
  obtain ⟨_, hempty, h⟩ := bind_ok_iff.mp h
  obtain ⟨_, hplace, h⟩ := bind_ok_iff.mp h
  obtain ⟨_, hnull, -⟩ := bind_ok_iff.mp h
  rw [check_ok_iff] at hempty hplace hnull
  refine ⟨fun hpresent homitted => ?_, fun hidentified => ?_, fun hexplicit => ?_⟩
  · refine hempty ⟨hpresent, homitted.1, ?_⟩
    rw [homitted.2]
    exact Bool.false_ne_true
  · by_contra hcontra
    refine hplace ⟨hidentified, ?_⟩
    by_contra hfine
    simp only [not_or, not_and, not_not] at hfine
    refine hcontra ⟨hfine.1, ?_⟩
    by_cases hstart : input.type = "start"
    · exact .inl ⟨hstart, hfine.2.2⟩
    · exact .inr (hfine.2.1 hstart)
  · by_contra hother
    exact hnull ⟨hexplicit, hother⟩

theorem parseCommand_task (h : parseCommand deviceID input now = .ok command) :
    validateCommandTaskAssociation input = .ok () := by
  unfold parseCommand at h
  split at h
  next => cases h
  next =>
    obtain ⟨_, hvalid, -⟩ := bind_ok_iff.mp h
    exact hvalid

/-- A contract that holds leaves the decodings no way to disagree. -/
theorem TaskContract.agreeing (hdecode : unmarshalJSON payload = .ok input)
    (h : TaskContract payload input command) : Agreeing payload := by
  obtain ⟨htask, -, hnull⟩ := unmarshalJSON_ok hdecode
  constructor
  · intro hlast hnone
    rw [hlast] at htask
    refine h.emptyRefused ⟨htask, ?_⟩ (List.mem_of_getLast? hlast)
    rw [← Bool.not_eq_true]
    intro hexplicit
    rw [hnull.mp hexplicit] at hnone
    cases hnone
  · intro hraw text hlast
    have hexplicit : ExplicitNull input := hnull.mpr hraw
    have hunidentified : ¬ Identified input := by
      rcases h.one with ⟨-, hother, -⟩ | ⟨-, -, hnot⟩ | ⟨-, hother, -⟩
      · exact absurd hexplicit hother
      · exact hnot
      · exact absurd hexplicit hother
    rw [Option.mem_def.mp hlast] at htask
    exact htask.symm.trans (not_not.mp hunidentified)

/-- Where the decodings agree, the check of the association is enough. -/
theorem Agreeing.taskContract (hdecode : unmarshalJSON payload = .ok input)
    (hparse : parseCommand deviceID input now = .ok command) (h : Agreeing payload) :
    TaskContract payload input command := by
  obtain ⟨htask, hpresent, hnull⟩ := unmarshalJSON_ok hdecode
  obtain ⟨hempty, hplace, hretarget⟩ :=
    validateCommandTaskAssociation_ok (parseCommand_task hparse)
  refine ⟨(parseCommand_ok hparse).task, ?_, hretarget, hplace, fun homitted hmem => ?_⟩
  · by_cases hexplicit : ExplicitNull input
    · have hunidentified : ¬ Identified input := by
        intro hidentified
        refine hidentified ?_
        rw [htask]
        cases hlast : (taskTexts payload).getLast? with
        | none => rfl
        | some text => exact h.null (hnull.mp hexplicit) text hlast
      refine .inr (.inl ⟨fun homitted => ?_, hexplicit, hunidentified⟩)
      rw [ExplicitNull, homitted.2] at hexplicit
      cases hexplicit
    · have hfalse : input.taskIDExplicitNull = false := Bool.not_eq_true _ ▸ hexplicit
      by_cases hidentified : Identified input
      · exact .inr (.inr ⟨fun homitted => hidentified homitted.1, hexplicit, hidentified⟩)
      · exact .inl ⟨⟨not_not.mp hidentified, hfalse⟩, hexplicit, hidentified⟩
  · cases hlast : (taskTexts payload).getLast? with
    | none =>
      rw [List.getLast?_eq_none_iff.mp hlast] at hmem
      cases hmem
    | some text =>
      rw [hlast, homitted.1] at htask
      rw [← show "" = text from htask] at hlast
      exact hempty (hpresent.mpr (h.empty hlast)) homitted

end

/-- A command that the server accepts in a batch keeps to the contract exactly if
its two decodings agree. -/
theorem task_contract_iff {deviceID : String} {now : Time} {payload : JsonObject}
    {inputs : List SyncCommandJSON} {commands : List Command} {input : SyncCommandJSON}
    {command : Command} (hdecode : unmarshalJSON payload = .ok input)
    (hparse : parseCommands deviceID inputs now = .ok commands)
    (haccepted : (input, command) ∈ inputs.zip commands) :
    TaskContract payload input command ↔ Agreeing payload := by
  have hall := (parseEach_ok hparse).1
  have hcommand : parseCommand deviceID input now = .ok command :=
    ((List.forall₂_iff_zip.mp hall).2 haccepted).2
  exact ⟨TaskContract.agreeing hdecode, Agreeing.taskContract hdecode hcommand⟩

/-! ## Two objects -/

/-- A command at the first second with the given members beside. -/
def commandObject (type : String) (task : JsonObject) : JsonObject :=
  [("id", .string "command-1"), ("deviceSequence", .number ['1']), ("timerId", .string "timer-01"),
    ("type", .string type), ("phase", .string "focus"),
    ("plannedDurationMs", .number "1500000".toList),
    ("occurredAt", .string "1970-01-01T00:00:01Z"), ("hlcWallMs", .number "1000".toList),
    ("hlcCounter", .number ['0']), ("observedElapsedMs", .number ['0'])] ++ task

/-- What is decoded of such a command. -/
def commandInput (type taskID : String) (explicitNull present : Bool) : SyncCommandJSON where
  id := "command-1"
  deviceSequence := some 1
  timerID := "timer-01"
  taskID := taskID
  taskIDExplicitNull := explicitNull
  taskIDPresent := present
  type := type
  phase := "focus"
  plannedDurationMs := some 1500000
  occurredAt := "1970-01-01T00:00:01Z"
  hlcWallMs := some 1000
  hlcCounter := some 0
  observedElapsedMs := some 0

def acceptedCommand (type : CommandType) (taskID : String) : Command where
  id := "command-1"
  deviceID := "device-1"
  deviceSequence := 1
  timerID := "timer-01"
  taskID := taskID
  type := type
  phase := .focus
  plannedDurationMs := 1500000
  occurredAt := Time.ofUnixMilli 1000
  hlcWallMs := 1000
  hlcCounter := 0
  observedElapsedMs := 0

/-- A start that names its task. -/
theorem task_contract_start : TaskContract
    (commandObject "start" [("taskId", .string "task-0001")])
    (commandInput "start" "task-0001" false true) (acceptedCommand .start "task-0001") := by
  have hdecode : unmarshalJSON (commandObject "start" [("taskId", .string "task-0001")]) =
      .ok (commandInput "start" "task-0001" false true) := by
    decide +kernel
  have hparse : parseCommands "device-1" [commandInput "start" "task-0001" false true]
      (Time.ofUnixMilli 2000) = .ok [acceptedCommand .start "task-0001"] := by
    decide +kernel
  refine (task_contract_iff hdecode hparse (by simp)).mpr ⟨by decide +kernel, ?_⟩
  intro hnull
  cases hnull

/-- A pause with an empty task under another spelling is accepted as one without
a task. -/
theorem task_contract_fails :
    ¬ ∀ (deviceID : String) (now : Time) (payload : JsonObject) (inputs : List SyncCommandJSON)
      (commands : List Command) (input : SyncCommandJSON) (command : Command),
      unmarshalJSON payload = .ok input → parseCommands deviceID inputs now = .ok commands →
        (input, command) ∈ inputs.zip commands → TaskContract payload input command := by
  intro hclaim
  have hcontract := hclaim "device-1" (Time.ofUnixMilli 2000)
    (commandObject "pause" [("TaskID", .string "")]) [commandInput "pause" "" false false]
    [acceptedCommand .pause ""] (commandInput "pause" "" false false) (acceptedCommand .pause "")
    (by decide +kernel) (by decide +kernel) (by decide +kernel)
  exact hcontract.emptyRefused ⟨rfl, rfl⟩ (by decide +kernel)

end Pomodorough.Server.CommandWire
