import Mathlib.Data.Finmap

/-! # Records of an account

The values the store package passes around and the tables of one account's
SQLite file. Operation timestamps keep their zone, because the code compares
instants and stores the UTC form. -/
namespace Pomodorough.Store.Records

/-- `MaxSafeRevision`: the largest integer JavaScript represents exactly. -/
def maxSafeRevision : Nat := 9007199254740991

/-- A SHA-256 digest. -/
abbrev Hash := BitVec 256

/-- The package's sentinel errors; every other error carries its text. -/
inductive StoreError where
  | notFound
  | unauthorized
  | refreshReuse
  | revisionConflict
  | revisionExhausted
  | requestIDConflict
  | accountDeleted
  | accountGenerationChanged
  | failure (message : String)
  deriving DecidableEq, Repr

/-! ## Time -/

/-- `time.Time`: an instant and the offset of its location. -/
structure Time where
  unixNano : Int
  zone : Int := 0
  deriving DecidableEq, Repr

namespace Time

def utc (t : Time) : Time := { t with zone := 0 }

/-- `Time.Equal` compares instants. -/
def equal (a b : Time) : Bool := a.unixNano == b.unixNano

def unixMilli (t : Time) : Int := t.unixNano / 1000000

/-- 0001-01-01T00:00:00Z, the zero value. -/
def zeroUnixNano : Int := -62135596800000000000

def zero : Time := { unixNano := zeroUnixNano }

def isZero (t : Time) : Bool := t.unixNano == zeroUnixNano

/-- `time.UnixMilli(ms).UTC()`. -/
def ofUnixMilli (ms : Int) : Time := { unixNano := ms * 1000000 }

@[simp] theorem utc_zone (t : Time) : t.utc.zone = 0 := rfl
@[simp] theorem utc_unixNano (t : Time) : t.utc.unixNano = t.unixNano := rfl
@[simp] theorem utc_utc (t : Time) : t.utc.utc = t.utc := rfl

/-- Against a stored (UTC) time, comparing instants is comparing with the form
that would be stored. -/
theorem equal_iff_eq_utc {a b : Time} (ha : a.zone = 0) : a.equal b = true ↔ a = b.utc := by
  cases a; cases b
  simp_all [equal, utc]

@[simp] theorem ofUnixMilli_unixMilli (ms : Int) : (ofUnixMilli ms).unixMilli = ms := by
  simp [ofUnixMilli, unixMilli]

end Time

/-- A timestamp on the shared core's wire: its text and what
`time.Parse(time.RFC3339Nano, ·)` makes of it. -/
structure Timestamp where
  text : String
  parsed : Option Time
  deriving DecidableEq, Repr

/-- The hybrid logical clock of an operation. -/
structure HLC where
  wallMs : Int
  counter : Int
  deriving DecidableEq, Repr

/-! ## Operations -/

inductive Phase where
  | focus | shortBreak | longBreak
  deriving DecidableEq, Repr

def Phase.text : Phase → String
  | focus => "focus"
  | shortBreak => "short_break"
  | longBreak => "long_break"

inductive CommandType where
  | start | pause | resume | finish | cancel | clear | retarget
  deriving DecidableEq, Repr

def CommandType.text : CommandType → String
  | start => "start"
  | pause => "pause"
  | resume => "resume"
  | finish => "finish"
  | cancel => "cancel"
  | clear => "clear"
  | retarget => "retarget"

inductive TaskOperationType where
  | upsert | delete
  deriving DecidableEq, Repr

def TaskOperationType.text : TaskOperationType → String
  | upsert => "upsert"
  | delete => "delete"

/-- `timer.Command`; a row of `timer_commands` is one with its device's id and
its UTC time. The empty `taskID` is the column's NULL. -/
structure Command where
  id : String
  deviceID : String
  deviceSequence : Int
  timerID : String
  taskID : String
  type : CommandType
  phase : Phase
  plannedDurationMs : Int
  occurredAt : Time
  hlcWallMs : Int
  hlcCounter : Int
  observedElapsedMs : Int
  deriving DecidableEq, Repr

/-- `task.Operation`. -/
structure TaskOperation where
  id : String
  deviceID : String
  taskID : String
  type : TaskOperationType
  title : String
  occurredAt : Time
  hlcWallMs : Int
  hlcCounter : Int
  deriving DecidableEq, Repr

structure DurationOperation where
  id : String
  deviceID : String
  phase : Phase
  durationMs : Int
  occurredAt : Time
  hlcWallMs : Int
  hlcCounter : Int
  deriving DecidableEq, Repr

structure AutoStartOperation where
  id : String
  deviceID : String
  enabled : Bool
  occurredAt : Time
  hlcWallMs : Int
  hlcCounter : Int
  deriving DecidableEq, Repr

structure SelectedTaskOperation where
  id : String
  deviceID : String
  taskID : Option String
  occurredAt : Time
  hlcWallMs : Int
  hlcCounter : Int
  deriving DecidableEq, Repr

structure SyncRequest where
  deviceID : String
  lastRevision : Int
  commands : List Command
  taskOperations : List TaskOperation
  durationOperations : List DurationOperation
  autoStartOperations : List AutoStartOperation
  selectedTaskOperations : List SelectedTaskOperation
  deriving DecidableEq, Repr

/-! ## Projections and responses -/

/-- `timer.Outcome`. -/
structure Outcome where
  outcome : String
  reason : String
  deriving DecidableEq, Repr

/-- `timer.Intent`. -/
structure Intent where
  type : String
  commandID : String
  occurredAt : Timestamp
  deriving DecidableEq, Repr

/-- `timer.CanonicalTimer`. -/
structure CanonicalTimer where
  id : String
  taskID : String
  phase : String
  status : String
  plannedDurationMs : Int
  elapsedAtAnchorMs : Int
  anchorAt : Timestamp
  startedByDeviceID : String
  lastIntent : Option Intent
  deriving DecidableEq, Repr

/-- `timer.HistoryItem`. -/
structure HistoryItem where
  id : String
  timerID : String
  taskID : String
  commandID : String
  phase : String
  status : String
  plannedDurationMs : Int
  completedAt : Timestamp
  endedAt : Timestamp
  deriving DecidableEq, Repr

/-- `task.Task`. -/
structure Task where
  id : String
  title : String
  deriving DecidableEq, Repr

structure DurationsMs where
  focus : Int
  shortBreak : Int
  longBreak : Int
  deriving DecidableEq, Repr

/-- `Acknowledgement`: the answer to one timer command. -/
structure Acknowledgement where
  commandID : String
  outcome : String
  reason : String
  deriving DecidableEq, Repr

/-- The answer to one operation of another domain. -/
structure OperationAcknowledgement where
  operationID : String
  outcome : String
  reason : String
  deriving DecidableEq, Repr

abbrev TaskAcknowledgement := OperationAcknowledgement
abbrev DurationAcknowledgement := OperationAcknowledgement
abbrev AutoStartAcknowledgement := OperationAcknowledgement
abbrev SelectedTaskAcknowledgement := OperationAcknowledgement

/-- `SyncResult`. `changed` is not part of the JSON form. -/
structure SyncResult where
  acknowledgements : List Acknowledgement
  taskAcknowledgements : List TaskAcknowledgement
  durationAcknowledgements : List DurationAcknowledgement
  autoStartAcknowledgements : List AutoStartAcknowledgement
  selectedTaskAcknowledgements : List SelectedTaskAcknowledgement
  revision : Int
  canonicalTimer : Option CanonicalTimer
  history : List HistoryItem
  tasks : List Task
  durationsMs : DurationsMs
  autoStartBreaks : Bool
  selectedTaskID : Option String
  serverTime : Time
  serverHLCWallMs : Int
  serverHLCCounter : Int
  changed : Bool
  deriving DecidableEq, Repr

/-! ## Tables -/

/-- A row of `timer_sessions`. -/
structure TimerSessionRow where
  timerID : String
  taskID : Option String
  phase : String
  status : String
  plannedDurationMs : Int
  elapsedAtAnchorMs : Int
  anchorAtMs : Int
  startedAtMs : Int
  endedAtMs : Option Int
  lastCommandID : String
  terminalCommandID : Option String
  supersededByTimerID : Option String
  deriving DecidableEq, Repr

/-- A row of `bootstrap_resolutions`: the payload hash and the response. -/
structure BootstrapResolution where
  payloadHash : Hash
  response : SyncResult
  deriving DecidableEq, Repr

/-- A row of `devices`. -/
structure Device where
  id : String
  platform : String
  createdAtMs : Int
  lastSeenAtMs : Int
  revokedAtMs : Option Int
  deriving DecidableEq, Repr

inductive TokenKind where
  | web | access | refresh
  deriving DecidableEq, Repr

inductive SessionKind where
  | web | native
  deriving DecidableEq, Repr

/-- A row of `auth_sessions`. -/
structure AuthSession where
  id : String
  kind : SessionKind
  deviceID : Option String
  platform : String
  csrfHash : Option Hash
  createdAtMs : Int
  expiresAtMs : Int
  revokedAtMs : Option Int
  reuseDetectedAtMs : Option Int
  deriving DecidableEq, Repr

/-- A row of `auth_tokens`. -/
structure AuthToken where
  tokenHash : Hash
  sessionID : String
  kind : TokenKind
  createdAtMs : Int
  expiresAtMs : Int
  usedAtMs : Option Int
  revokedAtMs : Option Int
  deriving DecidableEq, Repr

structure Profile where
  id : String
  issuer : String
  subject : String
  email : String
  name : String
  avatarURL : String
  deriving DecidableEq, Repr

/-- The tables of one account. Operation logs are in arrival order (row ids);
a table read only by its primary key is a finite map. -/
structure UserTables where
  profile : Option Profile
  devices : List Device
  authSessions : List AuthSession
  authTokens : List AuthToken
  timerCommands : List Command
  commandOutcomes : Finmap fun _ : String => Outcome
  revision : Int
  currentTimerID : Option String
  timerSessions : List TimerSessionRow
  taskOperations : List TaskOperation
  durationOperations : List DurationOperation
  autoStartOperations : List AutoStartOperation
  selectedTaskOperations : List SelectedTaskOperation
  bootstrapResolutions : Finmap fun _ : String => BootstrapResolution
  deriving DecidableEq

/-- What the migrations leave in a new file. -/
def UserTables.initial : UserTables where
  profile := none
  devices := []
  authSessions := []
  authTokens := []
  timerCommands := []
  commandOutcomes := ∅
  revision := 0
  currentTimerID := none
  timerSessions := []
  taskOperations := []
  durationOperations := []
  autoStartOperations := []
  selectedTaskOperations := []
  bootstrapResolutions := ∅

end Pomodorough.Store.Records
