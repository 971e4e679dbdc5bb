import Pomodorough.Library.Members
import Pomodorough.Server.AcceptedBatches
import Pomodorough.Server.Requests
import Pomodorough.Store.ClockHead

/-! # Server clocks and the browser

A browser takes a response only where the clock it carries is at most five
minutes ahead of the response's own time. The server checks each operation
against the time it is parsed at, and reports the time a request read before it
waited for the lock of its account. -/
namespace Pomodorough.Server.ClockAgreement
open Pomodorough.Library.Fallible Pomodorough.Library.KeyedLog Pomodorough.Library.Members
open Pomodorough.Store.Records Pomodorough.Store.SharedCoreValidation
open Pomodorough.Store.SharedCore Pomodorough.Store.OperationDomains
open Pomodorough.Store.Bootstrap Pomodorough.Store.Transactions Pomodorough.Store.AccountRuns
open Pomodorough.Store.Resolutions Pomodorough.Store.ClockHead
open Pomodorough.Server.OperationParser Pomodorough.Server.AcceptedBatches
open Pomodorough.Server.Requests

/-! ## Accepted clocks -/

/-- Five minutes, in milliseconds. -/
def maxClockSkewMs : Int := 300000

/-- A clock that is at most five minutes ahead, or the sentinel of an operation
from before there were clocks. -/
def Timely (now : Time) (wallMs : Int) : Prop :=
  wallMs = 0 ∨ wallMs ≤ now.unixMilli + maxClockSkewMs

section
variable {now occurredAt : Time} {deviceID title value : String} {wallMs counter : Option Int}
  {allowLegacy : Bool}

theorem parseOperationClock_timely
    (h : parseOperationClock value wallMs counter allowLegacy now = .ok occurredAt) :
    Timely now (wallMs.getD 0) := by
  unfold parseOperationClock at h
  split at h
  next wall count =>
    obtain ⟨_, -, h⟩ := bind_ok_iff.mp h
    split at h
    next => cases h
    next parsed _ =>
      split at h
      next hzero => exact .inl hzero
      next =>
        obtain ⟨_, hlatest, -⟩ := bind_ok_iff.mp h
        rw [check_ok_iff] at hlatest
        refine .inr ?_
        simp only [Time.unixMilli, maxClockSkew] at hlatest
        simp only [Option.getD_some, Time.unixMilli, maxClockSkewMs]
        omega
  next => cases h

theorem parseCommand_timely {input : SyncCommandJSON} {command : Command}
    (h : parseCommand deviceID input now = .ok command) : Timely now command.hlcWallMs := by
  unfold parseCommand at h
  split at h
  next => cases h
  next =>
    obtain ⟨_, -, h⟩ := bind_ok_iff.mp h
    split at h
    next => cases h
    next =>
      split at h
      next => cases h
      next =>
        obtain ⟨_, -, h⟩ := bind_ok_iff.mp h
        obtain ⟨_, hclock, h⟩ := bind_ok_iff.mp h
        rw [within_ok_iff] at hclock
        split at h
        next => cases h
        next =>
          obtain ⟨_, -, h⟩ := bind_ok_iff.mp h
          cases h
          exact parseOperationClock_timely hclock

theorem parseTaskOperation_timely {input : SyncTaskOperationJSON} {operation : TaskOperation}
    (h : parseTaskOperation deviceID input title now = .ok operation) :
    Timely now operation.hlcWallMs := by
  obtain ⟨_, hclock, h⟩ := bind_ok_iff.mp h
  rw [within_ok_iff] at hclock
  split at h
  next => cases h
  next =>
    cases h
    exact parseOperationClock_timely hclock

theorem parseDurationOperation_timely {input : SyncDurationOperationJSON}
    {operation : DurationOperation} (h : parseDurationOperation deviceID input now = .ok operation) :
    Timely now operation.hlcWallMs := by
  unfold parseDurationOperation at h
  split at h
  next => cases h
  next =>
    split at h
    next => cases h
    next =>
      obtain ⟨_, -, h⟩ := bind_ok_iff.mp h
      obtain ⟨_, hclock, h⟩ := bind_ok_iff.mp h
      rw [within_ok_iff] at hclock
      cases h
      exact parseOperationClock_timely hclock

theorem parseAutoStartOperation_timely {input : SyncAutoStartOperationJSON}
    {operation : AutoStartOperation}
    (h : parseAutoStartOperation deviceID input now = .ok operation) :
    Timely now operation.hlcWallMs := by
  unfold parseAutoStartOperation at h
  split at h
  next => cases h
  next =>
    obtain ⟨_, hclock, h⟩ := bind_ok_iff.mp h
    rw [within_ok_iff] at hclock
    cases h
    exact parseOperationClock_timely hclock

theorem parseSelectedTaskOperation_timely {input : SyncSelectedTaskOperationJSON}
    {operation : SelectedTaskOperation}
    (h : parseSelectedTaskOperation deviceID input now = .ok operation) :
    Timely now operation.hlcWallMs := by
  obtain ⟨_, -, h⟩ := bind_ok_iff.mp h
  obtain ⟨_, hclock, h⟩ := bind_ok_iff.mp h
  rw [within_ok_iff] at hclock
  cases h
  exact parseOperationClock_timely hclock

/-- What holds of everything an input is parsed to holds of a batch of them. -/
theorem forall_of_forall₂ {ι α : Type} {R : ι → α → Prop} {P : α → Prop} {inputs : List ι}
    {operations : List α} (h : List.Forall₂ R inputs operations)
    (hP : ∀ input operation, R input operation → P operation) : ∀ o ∈ operations, P o := by
  induction h with
  | nil => simp
  | cons hfirst _ ih =>
    intro o hmem
    rcases List.mem_cons.mp hmem with rfl | hmem
    · exact hP _ _ hfirst
    · exact ih o hmem

variable {sharedIdentities : SharedIdentities} {request : SyncRequest}

theorem parseOperationBatch_timely {batch : OperationBatch}
    (h : parseOperationBatch sharedIdentities batch now = .ok request) (d : Domain) :
    ∀ operation ∈ d.submitted request, Timely now (clockOf d operation).wallMs := by
  obtain ⟨_, -, h⟩ := bind_ok_iff.mp h
  obtain ⟨commands, hcommands, h⟩ := bind_ok_iff.mp h
  obtain ⟨tasks, htasks, h⟩ := bind_ok_iff.mp h
  obtain ⟨durations, hdurations, h⟩ := bind_ok_iff.mp h
  obtain ⟨autoStarts, hautoStarts, h⟩ := bind_ok_iff.mp h
  obtain ⟨selectedTasks, hselectedTasks, h⟩ := bind_ok_iff.mp h
  cases h
  obtain ⟨_, _, -, -, htasks⟩ := parseTaskOperations_ok htasks
  cases d with
  | timer => exact forall_of_forall₂ (parseEach_ok hcommands).1 fun _ _ h => parseCommand_timely h.2
  | task =>
    exact forall_of_forall₂ (parseTitledOperations_parsed htasks) fun _ _ ⟨_, h⟩ =>
      parseTaskOperation_timely h
  | duration =>
    exact forall_of_forall₂ (parseEach_ok hdurations).1 fun _ _ h =>
      parseDurationOperation_timely h.2
  | autoStart =>
    exact forall_of_forall₂ (parseEach_ok hautoStarts).1 fun _ _ h =>
      parseAutoStartOperation_timely h.2
  | selectedTask =>
    exact forall_of_forall₂ (parseEach_ok hselectedTasks).1 fun _ _ h =>
      parseSelectedTaskOperation_timely h.2

theorem parseSyncRequest_timely {payload : SyncRequestJSON} {clock : HLC}
    (h : parseSyncRequest sharedIdentities payload now = .ok request)
    (hclock : Submitted (some request) clock) : Timely now clock.wallMs := by
  obtain ⟨operations, -, hbatch, rfl⟩ := parseSyncRequest_ok h
  obtain ⟨_, hasked, d, operation, hmem, rfl⟩ := hclock
  cases hasked
  refine parseOperationBatch_timely hbatch d operation ?_
  cases d <;> exact hmem

theorem parseBootstrapResolutionRequest_timely {payload : BootstrapResolutionRequestJSON}
    {resolution : BootstrapResolutionRequest} {clock : HLC}
    (h : parseBootstrapResolutionRequest sharedIdentities payload now = .ok resolution)
    (hclock : Submitted (some resolution.syncRequest) clock) : Timely now clock.wallMs := by
  obtain ⟨batch, operations, -, hbatch, heq⟩ := parseBootstrapResolutionRequest_ok h
  obtain ⟨_, hasked, d, operation, hmem, rfl⟩ := hclock
  cases hasked
  rw [heq] at hmem
  refine parseOperationBatch_timely hbatch d operation ?_
  cases d <;> exact hmem

end

/-! ## The browser's check -/

def maxSafeNumber : Int := 9007199254740991

def validInteger (value minimum : Int) : Bool :=
  -maxSafeNumber ≤ value && value ≤ maxSafeNumber && minimum ≤ value

/-- The end of `validateCanonicalResponse`. -/
def acceptsServerClock (result : SyncResult) : Bool :=
  let serverTimeMs := result.serverTime.unixMilli
  validInteger result.serverHLCWallMs 1 && validInteger result.serverHLCCounter 0 &&
    !(result.serverHLCWallMs < serverTimeMs ||
      result.serverHLCWallMs > serverTimeMs + maxClockSkewMs)

structure AcceptedClock (result : SyncResult) : Prop where
  wall : 1 ≤ result.serverHLCWallMs ∧ result.serverHLCWallMs ≤ maxSafeNumber
  counter : 0 ≤ result.serverHLCCounter ∧ result.serverHLCCounter ≤ maxSafeNumber
  notBefore : result.serverTime.unixMilli ≤ result.serverHLCWallMs
  notAhead : result.serverHLCWallMs ≤ result.serverTime.unixMilli + maxClockSkewMs

theorem acceptsServerClock_iff {result : SyncResult} :
    acceptsServerClock result = true ↔ AcceptedClock result := by
  unfold acceptsServerClock validInteger maxSafeNumber
  simp only [Bool.and_eq_true, decide_eq_true_eq, Bool.not_eq_true', Bool.or_eq_false_iff,
    decide_eq_false_iff_not, not_lt, gt_iff_lt]
  constructor
  · rintro ⟨⟨⟨⟨-, hwall⟩, hpositive⟩, ⟨-, hcounter⟩, hnonneg⟩, hbefore, hahead⟩
    exact ⟨⟨hpositive, hwall⟩, ⟨hnonneg, hcounter⟩, hbefore, hahead⟩
  · rintro ⟨⟨hpositive, hwall⟩, ⟨hnonneg, hcounter⟩, hbefore, hahead⟩
    unfold maxSafeNumber at hwall hcounter
    exact ⟨⟨⟨⟨by omega, hwall⟩, hpositive⟩, ⟨by omega, hcounter⟩, hnonneg⟩, hbefore, hahead⟩

/-- A stored response that the browser takes, or one from before responses had a
clock. -/
def Replayable (response : SyncResult) : Prop :=
  response.serverHLCWallMs = 0 ∨ acceptsServerClock response = true

/-- A clock that is filled in is that of the server's time. -/
theorem replay_accepted {response result : SyncResult} (hresponse : Replayable response)
    (h : normalizeStoredSyncResult (decodeStoredResponse response) = .ok result) :
    acceptsServerClock result = true := by
  unfold normalizeStoredSyncResult at h
  split at h
  next hclock =>
    cases h
    rcases hresponse with hnone | haccepted
    · exact absurd hnone hclock
    · exact haccepted
  next =>
    obtain ⟨_, hrange, h⟩ := bind_ok_iff.mp h
    rw [check_ok_iff] at hrange
    cases h
    refine acceptsServerClock_iff.mpr ⟨hrange, ⟨le_refl 0, ?_⟩, le_refl _, ?_⟩
    · simp [maxSafeNumber]
    · simp [maxClockSkewMs]

/-! ## The server -/

/-- A request on its way: parsed, before a synchronization reads the clock again,
and ready with the time it will report. -/
inductive Pending where
  | parsed (request : SyncRequest) (parsedAt : Time)
  | ready (call : Call) (parsedAt now : Time)

/-- One account and the requests that wait for its lock. `served` is history:
when the requests that were answered had been parsed. -/
structure System where
  clock : Int
  tables : UserTables
  pending : List Pending
  served : List Time

inductive Label where
  | quiet
  | answer (call : Call) (now : Time) (result : SyncResult)

inductive Step (core : Core) (sha256 : Sha256) (sharedIdentities : SharedIdentities) :
    System → Label → System → Prop where
  | tick {s : System} (clock : Int) (h : s.clock ≤ clock) :
      Step core sha256 sharedIdentities s .quiet { s with clock }
  | parseSync {s : System} {payload : SyncRequestJSON} {request : SyncRequest} {now : Time}
      (hnow : now.unixNano = s.clock)
      (h : parseSyncRequest sharedIdentities payload now = .ok request) :
      Step core sha256 sharedIdentities s .quiet
        { s with pending := .parsed request now :: s.pending }
  | readClock {s : System} {request : SyncRequest} {parsedAt now : Time} {before after}
      (hnow : now.unixNano = s.clock)
      (h : s.pending = before ++ .parsed request parsedAt :: after) :
      Step core sha256 sharedIdentities s .quiet
        { s with pending := before ++ .ready (.sync request) parsedAt now :: after }
  /-- A bootstrap or a history. -/
  | read {s : System} {call : Call} {now : Time} (hnow : now.unixNano = s.clock)
      (hcall : asked call = none) :
      Step core sha256 sharedIdentities s .quiet
        { s with pending := .ready call now now :: s.pending }
  | parseResolution {s : System} {payload : BootstrapResolutionRequestJSON}
      {request : BootstrapResolutionRequest} {now : Time} (hnow : now.unixNano = s.clock)
      (h : parseBootstrapResolutionRequest sharedIdentities payload now = .ok request) :
      Step core sha256 sharedIdentities s .quiet
        { s with pending := .ready (.resolveBootstrap request) now now :: s.pending }
  /-- A request is refused, or its transaction fails. -/
  | drop {s : System} {request : Pending} {before after}
      (h : s.pending = before ++ request :: after) :
      Step core sha256 sharedIdentities s .quiet { s with pending := before ++ after }
  | serve {s : System} {call : Call} {parsedAt now : Time} {t : UserTables} {result : SyncResult}
      {before after} (h : s.pending = before ++ .ready call parsedAt now :: after)
      (hexec : call.exec core sha256 now s.tables = .ok (t, result)) :
      Step core sha256 sharedIdentities s (.answer call now result)
        { s with tables := t, pending := before ++ after, served := parsedAt :: s.served }
  /-- Other calls, which touch neither a log nor a stored response. -/
  | beside {s : System} {t : UserTables} (hlogs : ∀ d : Domain, d.log t = d.log s.tables)
      (hstored : t.bootstrapResolutions = s.tables.bootstrapResolutions) :
      Step core sha256 sharedIdentities s .quiet { s with tables := t }
  /-- The account is deleted and created again. -/
  | recreate {s : System} :
      Step core sha256 sharedIdentities s .quiet { s with tables := .initial }

/-- Runs whose steps all satisfy `ok`. -/
def Runs (core : Core) (sha256 : Sha256) (sharedIdentities : SharedIdentities)
    (ok : System → Label → Prop) : System → System → Prop :=
  Relation.ReflTransGen fun s t =>
    ∃ label, Step core sha256 sharedIdentities s label t ∧ ok s label

/-- No request is on its way, and the stored responses are from before responses
had a clock. -/
structure Founded (s : System) : Prop where
  pending : s.pending = []
  served : s.served = []
  valid : ValidLogs s.tables
  unclocked : ∀ id stored, s.tables.bootstrapResolutions.lookup id = some stored →
    stored.response.serverHLCWallMs = 0

/-- No operation that a request finds is more than five minutes ahead of the time
the request read, which is after the epoch. -/
def InTime (s : System) : Label → Prop
  | .quiet => True
  | .answer call now _ => ¬ Replayed s.tables call → 0 < now.unixMilli ∧
    ∀ clock, Stored (kept s.tables call) clock → clock.wallMs ≤ now.unixMilli + maxClockSkewMs

/-- What holds of a request on its way. -/
def Pending.Checked : Pending → Prop
  | .parsed request parsedAt => ∀ clock, Submitted (some request) clock →
    Timely parsedAt clock.wallMs
  | .ready call parsedAt now => parsedAt.unixNano ≤ now.unixNano ∧
    ∀ clock, Submitted (asked call) clock → Timely parsedAt clock.wallMs

def Pending.parsedAt : Pending → Time
  | .parsed _ parsedAt => parsedAt
  | .ready _ parsedAt _ => parsedAt

/-- Requests are checked when they are parsed, at a time that has passed. -/
structure Invariant (s : System) : Prop where
  valid : ValidLogs s.tables
  checked : ∀ request ∈ s.pending, request.Checked ∧ request.parsedAt.unixNano ≤ s.clock

section
variable {core : Core} {sha256 : Sha256} {sharedIdentities : SharedIdentities} {s t : System}
  {label : Label} {call : Call} {now parsedAt : Time} {result : SyncResult}

theorem Founded.invariant (h : Founded s) : Invariant s := by
  refine ⟨h.valid, ?_⟩
  rw [h.pending]
  simp

theorem Invariant.step (h : Invariant s) (hstep : Step core sha256 sharedIdentities s label t) :
    Invariant t := by
  have hold : ∀ {clock : Int}, s.clock ≤ clock → ∀ request ∈ s.pending,
      request.Checked ∧ request.parsedAt.unixNano ≤ clock := fun hle request hmem =>
    ⟨(h.checked request hmem).1, (h.checked request hmem).2.trans hle⟩
  have hnew : ∀ {new : Pending}, new.Checked → new.parsedAt.unixNano ≤ s.clock →
      ∀ request ∈ new :: s.pending, request.Checked ∧ request.parsedAt.unixNano ≤ s.clock := by
    intro new hchecked hle request hmem
    rcases List.mem_cons.mp hmem with rfl | hmem
    · exact ⟨hchecked, hle⟩
    · exact h.checked request hmem
  cases hstep with
  | tick clock hle => exact ⟨h.valid, hold hle⟩
  | parseSync hnow hparse =>
    exact ⟨h.valid, hnew (fun clock => parseSyncRequest_timely hparse) hnow.le⟩
  | readClock hnow hpending =>
    refine ⟨h.valid, fun other hmem => ?_⟩
    have hparsed := h.checked _ (mem_picked hpending)
    rcases mem_replaced hpending hmem with rfl | hmem
    · exact ⟨⟨hparsed.2.trans hnow.ge, hparsed.1⟩, hparsed.2⟩
    · exact h.checked other hmem
  | read hnow hcall =>
    refine ⟨h.valid, hnew ⟨le_refl _, fun clock hclock => ?_⟩ hnow.le⟩
    rw [hcall] at hclock
    obtain ⟨_, hnone, -⟩ := hclock
    cases hnone
  | parseResolution hnow hparse =>
    exact ⟨h.valid, hnew ⟨le_refl _, fun clock =>
      parseBootstrapResolutionRequest_timely hparse⟩ hnow.le⟩
  | drop hpending => exact ⟨h.valid, fun other hmem => h.checked other (mem_removed hpending hmem)⟩
  | serve hpending hexec =>
    exact ⟨validLogs_exec h.valid hexec,
      fun other hmem => h.checked other (mem_removed hpending hmem)⟩
  | beside hlogs _ => exact ⟨h.valid.ofLogs hlogs, h.checked⟩
  | recreate => exact ⟨validLogs_initial, h.checked⟩

/-- What a call keeps was stored. -/
theorem stored_of_kept {tables : UserTables} {clock : HLC} (h : Stored (kept tables call) clock) :
    Stored tables clock := by
  cases call with
  | resolveBootstrap request =>
    obtain ⟨d, operation, hmem, hclock⟩ := h
    refine ⟨d, operation, ?_, hclock⟩
    change operation ∈ d.log (strategyBase tables request) at hmem
    rw [log_strategyBase d] at hmem
    split at hmem
    · cases hmem
    · exact hmem
  | sync _ => exact h
  | bootstrap => exact h
  | history => exact h

/-- Every answer but a replay carries the latest clock there is. -/
theorem answer_headed (hcore : HeadMaximal core) (h : Invariant s)
    (hstep : Step core sha256 sharedIdentities s (.answer call now result) t)
    (hfresh : ¬ Replayed s.tables call) :
    Headed now (kept s.tables call) t.tables (asked call) result := by
  cases hstep with
  | serve _ hexec => exact headed_exec hcore h.valid hfresh hexec

/-- The browser takes an answer, but for a replay, exactly where no operation it
had to keep is too far ahead. -/
theorem accepts_iff (hcore : HeadMaximal core) (h : Invariant s)
    (hstep : Step core sha256 sharedIdentities s (.answer call now result) t)
    (hfresh : ¬ Replayed s.tables call) (hepoch : 0 < now.unixMilli) :
    acceptsServerClock result = true ↔ ∀ clock, Stored (kept s.tables call) clock →
      clock.wallMs ≤ now.unixMilli + maxClockSkewMs := by
  obtain ⟨htime, ⟨observed, hhead, hobserved⟩, -⟩ := answer_headed hcore h hstep hfresh
  have hms : result.serverTime.unixMilli = now.unixMilli := by
    rw [htime]
    rfl
  rw [acceptsServerClock_iff]
  constructor
  · intro haccepted clock hclock
    have hle := hhead.maximal clock (List.mem_cons_of_mem _ ((hobserved clock).mpr (.inl hclock)))
    have hahead := haccepted.notAhead
    rw [hms] at hahead
    exact (wall_le_of_key_le hle).trans hahead
  · intro hkept
    have hnow : now.unixMilli ≤ result.serverHLCWallMs :=
      wall_le_of_key_le (hhead.maximal ⟨now.unixMilli, 0⟩ List.mem_cons_self)
    have hahead : result.serverHLCWallMs ≤ now.unixMilli + maxClockSkewMs := by
      have hskew : (0 : Int) ≤ maxClockSkewMs := by decide
      rcases List.mem_cons.mp hhead.mem with heq | hmem
      · have hwall : result.serverHLCWallMs = now.unixMilli := congrArg HLC.wallMs heq
        omega
      · rcases (hobserved _).mp hmem with hstored | hsubmitted
        · exact hkept _ hstored
        · cases hstep with
          | serve hpending _ =>
            obtain ⟨⟨hparsed, htimely⟩, -⟩ := h.checked _ (mem_picked hpending)
            have hwall : Timely _ result.serverHLCWallMs := htimely _ hsubmitted
            have hms : _ ≤ now.unixMilli :=
              Int.ediv_le_ediv (by decide : (0 : Int) < 1000000) hparsed
            rcases hwall with hzero | hwall
            · omega
            · exact hwall.trans (Int.add_le_add_right hms _)
    refine ⟨⟨?_, hhead.wall.2⟩, hhead.counter, hms.symm ▸ hnow, hms.symm ▸ hahead⟩
    exact (Int.add_one_le_iff.mpr hepoch).trans hnow

/-- A replay is answered with what was stored for its request. -/
theorem replay_answer {request : BootstrapResolutionRequest} {stored : BootstrapResolution}
    (hstored : s.tables.bootstrapResolutions.lookup request.requestID = some stored)
    (hstep : Step core sha256 sharedIdentities s (.answer (.resolveBootstrap request) now result) t) :
    normalizeStoredSyncResult (decodeStoredResponse stored.response) = .ok result := by
  cases hstep with
  | serve _ hexec => exact (resolveBootstrap_of_stored hstored hexec).2.result

/-- The stored responses can be replayed. -/
def StoredReplayable (tables : UserTables) : Prop :=
  ∀ id stored, tables.bootstrapResolutions.lookup id = some stored → Replayable stored.response

theorem Invariant.accepts (hcore : HeadMaximal core) (h : Invariant s)
    (hstored : StoredReplayable s.tables)
    (hstep : Step core sha256 sharedIdentities s (.answer call now result) t)
    (hok : InTime s (.answer call now result)) : acceptsServerClock result = true := by
  by_cases hreplayed : Replayed s.tables call
  · obtain ⟨request, stored, rfl, hlookup⟩ := hreplayed
    exact replay_accepted (hstored _ _ hlookup) (replay_answer hlookup hstep)
  · obtain ⟨hepoch, hkept⟩ := hok hreplayed
    exact (accepts_iff hcore h hstep hreplayed hepoch).mpr hkept

theorem StoredReplayable.step (hcore : HeadMaximal core) (h : Invariant s)
    (hstored : StoredReplayable s.tables) (hstep : Step core sha256 sharedIdentities s label t)
    (hok : InTime s label) : StoredReplayable t.tables := by
  have hanswer := hstep
  cases hstep with
  | serve _ hexec =>
    intro id stored hlookup
    rcases exists_commit_of_stored h.valid (.answered hexec) hlookup with
      hold | ⟨_, result, _, _, _, -, hresult, -, rfl, -⟩
    · exact hstored id stored hold
    · cases hresult
      exact .inr (h.accepts hcore hstored hanswer hok)
  | beside _ hsame =>
    intro id stored hlookup
    exact hstored id stored (hsame ▸ hlookup)
  | recreate =>
    intro id stored hlookup
    cases hlookup
  | _ => exact hstored

theorem Founded.replayable (h : Founded s) : StoredReplayable s.tables :=
  fun id stored hlookup => .inl (h.unclocked id stored hlookup)

theorem Invariant.runs {ok : System → Label → Prop} (h : Invariant s)
    (hrun : Runs core sha256 sharedIdentities ok s t) : Invariant t := by
  induction hrun with
  | refl => exact h
  | tail _ hstep ih =>
    obtain ⟨label, hstep, -⟩ := hstep
    exact ih.step hstep

theorem StoredReplayable.runs (hcore : HeadMaximal core) (h : Invariant s)
    (hstored : StoredReplayable s.tables) (hrun : Runs core sha256 sharedIdentities InTime s t) :
    StoredReplayable t.tables := by
  induction hrun with
  | refl => exact hstored
  | tail hpre hstep ih =>
    obtain ⟨label, hstep, hok⟩ := hstep
    exact ih.step hcore (h.runs hpre) hstep hok

end

/-- Server clock agreement: in every run in which no request finds an operation
more than five minutes ahead of the time it reports, the browser takes the clock
of every response, and every response but a replay carries a clock that neither
a stored operation nor the server's time is after. -/
theorem clock_agreement {core : Core} {sha256 : Sha256} {sharedIdentities : SharedIdentities}
    (hcore : HeadMaximal core) {s₀ s t : System} (hfounded : Founded s₀)
    (hrun : Runs core sha256 sharedIdentities InTime s₀ s) {call : Call} {now : Time}
    {result : SyncResult}
    (hstep : Step core sha256 sharedIdentities s (.answer call now result) t)
    (hok : InTime s (.answer call now result)) :
    acceptsServerClock result = true ∧
    (¬ Replayed s.tables call →
      (∀ clock, Stored t.tables clock → clockKey clock ≤ clockKey (headOf result)) ∧
      clockKey ⟨result.serverTime.unixMilli, 0⟩ ≤ clockKey (headOf result)) := by
  have h : Invariant s := hfounded.invariant.runs hrun
  have hstored := hfounded.replayable.runs hcore hfounded.invariant hrun
  refine ⟨h.accepts hcore hstored hstep hok, fun hfresh => ?_⟩
  obtain ⟨htime, ⟨observed, hhead, hobserved⟩, hlater⟩ := answer_headed hcore h hstep hfresh
  constructor
  · intro clock hclock
    exact hhead.maximal clock (List.mem_cons_of_mem _ ((hobserved clock).mpr (hlater clock hclock)))
  · rw [htime]
    exact hhead.maximal _ List.mem_cons_self

/-! ## Requests in turn -/

/-- A request read its time after every request before it had been parsed. -/
def InTurn (s : System) : Label → Prop
  | .quiet => True
  | .answer _ now _ => 0 < now.unixMilli ∧ ∀ parsedAt ∈ s.served, parsedAt.unixNano ≤ now.unixNano

/-- Every stored clock was checked when a request that was served was parsed. -/
def Served (s : System) : Prop :=
  ∀ clock, Stored s.tables clock → ∃ parsedAt ∈ s.served, Timely parsedAt clock.wallMs

section
variable {core : Core} {sha256 : Sha256} {sharedIdentities : SharedIdentities} {s t : System}
  {label : Label}

theorem not_stored_initial (clock : HLC) : ¬ Stored .initial clock := by
  rintro ⟨d, operation, hmem, -⟩
  cases d <;> cases hmem

theorem Timely.mono {earlier later : Time} {wallMs : Int} (h : Timely earlier wallMs)
    (hle : earlier.unixNano ≤ later.unixNano) : Timely later wallMs := by
  rcases h with hzero | hwall
  · exact .inl hzero
  · have hms : earlier.unixMilli ≤ later.unixMilli :=
      Int.ediv_le_ediv (by decide : (0 : Int) < 1000000) hle
    exact .inr (hwall.trans (Int.add_le_add_right hms _))

theorem Served.step (hcore : HeadMaximal core) (h : Invariant s) (hserved : Served s)
    (hstep : Step core sha256 sharedIdentities s label t) : Served t := by
  have hanswer := hstep
  cases hstep with
  | @serve call parsedAt _ _ _ _ _ hpending hexec =>
    intro clock hclock
    have hold : Stored s.tables clock →
        ∃ p ∈ parsedAt :: s.served, Timely p clock.wallMs := fun hstored => by
      obtain ⟨p, hmem, htimely⟩ := hserved clock hstored
      exact ⟨p, List.mem_cons_of_mem _ hmem, htimely⟩
    by_cases hreplayed : Replayed s.tables call
    · obtain ⟨request, stored, rfl, hlookup⟩ := hreplayed
      obtain rfl := (resolveBootstrap_of_stored hlookup hexec).1
      exact hold hclock
    · rcases (answer_headed hcore h hanswer hreplayed).stored clock hclock with hkept | hsubmitted
      · exact hold (stored_of_kept hkept)
      · obtain ⟨⟨-, htimely⟩, -⟩ := h.checked _ (mem_picked hpending)
        exact ⟨parsedAt, List.mem_cons_self, htimely clock hsubmitted⟩
  | beside hlogs _ => exact fun clock hclock => hserved clock ((Stored.congr hlogs).mp hclock)
  | recreate => exact fun clock hclock => absurd hclock (not_stored_initial clock)
  | _ => exact hserved

/-- A request in its turn finds no operation too far ahead. -/
theorem InTurn.in_time (hserved : Served s) (h : InTurn s label) : InTime s label := by
  cases label with
  | quiet => trivial
  | answer call now result =>
    intro _
    refine ⟨h.1, fun clock hclock => ?_⟩
    obtain ⟨parsedAt, hmem, htimely⟩ := hserved clock (stored_of_kept hclock)
    rcases htimely.mono (h.2 parsedAt hmem) with hzero | hwall
    · have hskew : (0 : Int) ≤ maxClockSkewMs := by decide
      have hepoch := h.1
      omega
    · exact hwall

/-- Where the requests of an account are served in turn, every run is in time. -/
theorem runs_in_time (hcore : HeadMaximal core) (hfounded : Founded s)
    (hblank : ∀ clock, ¬ Stored s.tables clock)
    (hrun : Runs core sha256 sharedIdentities InTurn s t) :
    Runs core sha256 sharedIdentities InTime s t ∧ Served t := by
  induction hrun with
  | refl => exact ⟨.refl, fun clock hclock => absurd hclock (hblank clock)⟩
  | tail _ hstep ih =>
    obtain ⟨label, hstep, hturn⟩ := hstep
    obtain ⟨hpre, hserved⟩ := ih
    have h : Invariant _ := hfounded.invariant.runs hpre
    exact ⟨hpre.tail ⟨label, hstep, hturn.in_time hserved⟩, hserved.step hcore h hstep⟩

end

/-! ## Two requests in turn, and out of it -/

section

/-- The time of the `second`th second. -/
def atSecond (second : Int) : Time := ⟨second * 1000000000, 0⟩

def noIdentities : SharedIdentities := fun _ => .ok []

def noDigest : Sha256 := fun _ => 0

/-- A pause by a device whose clock is five minutes ahead of the second 1001. -/
def aheadPayload : SyncRequestJSON where
  deviceID := "device-1"
  lastRevision := some 0
  commands := some [{
    id := "command-1"
    deviceSequence := some 1
    timerID := "timer-01"
    taskID := ""
    taskIDPresent := false
    taskIDExplicitNull := false
    type := "pause"
    phase := "focus"
    plannedDurationMs := some 1500000
    occurredAt := "1970-01-01T00:21:41Z"
    hlcWallMs := some 1301000
    hlcCounter := some 0
    observedElapsedMs := some 0 }]
  taskOperations := []
  durationOperations := []
  autoStartOperations := []
  selectedTaskOperations := []

def aheadRequest : SyncRequest := pauseRequest "command-1" "device-1" 1301000

theorem parse_ahead :
    parseSyncRequest noIdentities aheadPayload (atSecond 1001) = .ok aheadRequest := by
  decide +kernel

theorem headMaximal_absentTimerCore : HeadMaximal absentTimerCore := by
  intro physicalNowMs observed wallMs counter h
  cases h
  exact foldl_maximal observed ⟨physicalNowMs, 0⟩

/-- An account nobody has used, in the second 1000. -/
def fresh : System where
  clock := 1000000000000
  tables := .initial
  pending := []
  served := []

theorem founded_fresh : Founded fresh :=
  ⟨rfl, rfl, validLogs_initial, fun _ _ hlookup => by cases hlookup⟩

/-- The system while the request from ahead is served. -/
def aheadArrived (rest : List Pending) : System where
  clock := 1001000000000
  tables := .initial
  pending := .ready (.sync aheadRequest) (atSecond 1001) (atSecond 1001) :: rest
  served := []

abbrev ExampleStep := Step absentTimerCore noDigest noIdentities

abbrev ExampleRuns := Runs absentTimerCore noDigest noIdentities

variable {ok : System → Label → Prop}

theorem Runs.quiet {s t : System} (h : ExampleStep s .quiet t) (hok : ∀ s, ok s .quiet) :
    ExampleRuns ok s t := .single ⟨.quiet, h, hok s⟩

theorem runs_aheadArrived (hok : ∀ s, ok s .quiet) (rest : List Pending) :
    ExampleRuns ok { fresh with pending := rest } (aheadArrived rest) := by
  have htick : fresh.clock ≤ 1001000000000 := by decide
  refine (Runs.quiet (@Step.tick _ _ _ { fresh with pending := rest } 1001000000000 htick) hok).trans ?_
  refine (Runs.quiet (.parseSync rfl parse_ahead) hok).trans ?_
  exact Runs.quiet (@Step.readClock _ _ _ ⟨1001000000000, .initial,
    .parsed aheadRequest (atSecond 1001) :: rest, []⟩ _ _ (atSecond 1001) [] rest rfl rfl) hok

/-- The request from ahead is served. -/
theorem step_ahead (rest : List Pending) {tables : UserTables} {result : SyncResult}
    (h : (Call.sync aheadRequest).exec absentTimerCore noDigest (atSecond 1001) .initial =
      .ok (tables, result)) :
    ExampleStep (aheadArrived rest) (.answer (.sync aheadRequest) (atSecond 1001) result)
      ⟨1001000000000, tables, rest, [atSecond 1001]⟩ :=
  @Step.serve _ _ _ (aheadArrived rest) _ _ _ _ _ [] rest rfl h

/-- A later bootstrap in turn. -/
theorem clock_agreement_in_turn : ∃ tables after result,
    Call.bootstrap.exec absentTimerCore noDigest (atSecond 1001) tables = .ok (after, result) ∧
    acceptsServerClock result = true ∧ clockKey ⟨1001000, 0⟩ ≤ clockKey (headOf result) := by
  have hrun : ((Call.sync aheadRequest).exec absentTimerCore noDigest (atSecond 1001)
      .initial).toOption.any (fun synced => (Call.bootstrap.exec absentTimerCore noDigest
        (atSecond 1001) synced.1).toOption.any fun _ => true) = true := by decide +kernel
  obtain ⟨⟨tables, synced⟩, hsync, hrun⟩ := exists_ok hrun
  obtain ⟨⟨after, result⟩, hbootstrap, -⟩ := exists_ok hrun
  refine ⟨tables, after, result, hbootstrap, ?_⟩
  let waiting : System :=
    ⟨1001000000000, tables, [.ready .bootstrap (atSecond 1001) (atSecond 1001)], [atSecond 1001]⟩
  have hturn : InTurn (aheadArrived []) (.answer (.sync aheadRequest) (atSecond 1001) synced) :=
    ⟨by decide, fun _ hmem => by cases hmem⟩
  have hserved : ExampleRuns InTurn fresh ⟨1001000000000, tables, [], [atSecond 1001]⟩ :=
    (runs_aheadArrived (fun _ => trivial) []).tail ⟨_, step_ahead [] hsync, hturn⟩
  have hwaiting : ExampleRuns InTurn fresh waiting :=
    hserved.trans (Runs.quiet (.read rfl rfl) fun _ => trivial)
  obtain ⟨hrun, hchecked⟩ := runs_in_time headMaximal_absentTimerCore founded_fresh
    not_stored_initial hwaiting
  have hstep : ExampleStep waiting (.answer .bootstrap (atSecond 1001) result)
      ⟨1001000000000, after, [], [atSecond 1001, atSecond 1001]⟩ :=
    @Step.serve _ _ _ waiting _ _ _ _ _ [] [] rfl hbootstrap
  have hlast : InTurn waiting (.answer .bootstrap (atSecond 1001) result) :=
    ⟨by decide, by simp [waiting]⟩
  obtain ⟨haccepts, hheaded⟩ := clock_agreement headMaximal_absentTimerCore founded_fresh hrun hstep
    (hlast.in_time hchecked)
  have hfresh : ¬ Replayed tables .bootstrap := by
    rintro ⟨_, _, hcall, -⟩
    cases hcall
  have htime : result.serverTime.unixMilli = 1001000 := by
    have hheaded := headed_exec headMaximal_absentTimerCore
      (founded_fresh.invariant.runs hwaiting).valid hfresh hbootstrap
    rw [hheaded.serverTime]
    decide
  exact ⟨haccepts, htime ▸ (hheaded hfresh).2⟩

/-- A bootstrap that waits for the lock while the request from ahead is parsed and
served reports its earlier time, and the browser drops the response. -/
theorem bootstrap_out_of_turn : HeadMaximal absentTimerCore ∧ Founded fresh ∧
    ¬ ∀ s t call now result, ExampleRuns (fun _ _ => True) fresh s →
      ExampleStep s (.answer call now result) t → acceptsServerClock result = true := by
  refine ⟨headMaximal_absentTimerCore, founded_fresh, fun h => ?_⟩
  have hrun : ((Call.sync aheadRequest).exec absentTimerCore noDigest (atSecond 1001)
      .initial).toOption.any (fun synced => (Call.bootstrap.exec absentTimerCore noDigest
        (atSecond 1000) synced.1).toOption.any fun late => !acceptsServerClock late.2) = true := by
    decide +kernel
  obtain ⟨⟨tables, synced⟩, hsync, hrun⟩ := exists_ok hrun
  obtain ⟨⟨after, result⟩, hbootstrap, hdropped⟩ := exists_ok hrun
  let early : Pending := .ready .bootstrap (atSecond 1000) (atSecond 1000)
  have hearly : ExampleRuns (fun _ _ => True) fresh { fresh with pending := [early] } :=
    Runs.quiet (.read rfl rfl) fun _ => trivial
  have hserved := (hearly.trans (runs_aheadArrived (fun _ => trivial) [early])).tail
    ⟨_, step_ahead [early] hsync, trivial⟩
  have haccepts := h _ _ _ _ _ hserved
    (@Step.serve _ _ _ ⟨1001000000000, tables, [early], [atSecond 1001]⟩ _ _ _ _ _ [] [] rfl
      hbootstrap)
  rw [haccepts] at hdropped
  cases hdropped

end

end Pomodorough.Server.ClockAgreement
