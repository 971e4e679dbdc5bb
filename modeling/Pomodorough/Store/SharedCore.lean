import Mathlib.Data.Prod.Lex
import Mathlib.Data.String.Basic
import Pomodorough.Library.KeyedLog
import Pomodorough.Store.SharedCoreValidation

/-! # The bridge to the shared core

The reducers are the shared core's; the store calls them with a log in its
order, checks the answer and decodes it. A long timer log is replayed in pages,
each seeded with the sessions it needs. -/
namespace Pomodorough.Store.SharedCore
open Pomodorough.Library.Fallible Pomodorough.Library.KeyedLog
open Pomodorough.Store.Records Pomodorough.Store.SharedCoreValidation

/-! ## The core's operations -/

/-- The input of `timer.replay.page.v1`. The continuation is the core's own. -/
structure TimerReplayInput where
  commands : List Command
  sessions : List CoreTimerSession
  currentTimerID : Option String
  after : Option String
  now : Option Time
  deriving DecidableEq, Repr

structure TimerReplayPage where
  result : CoreTimerResult
  currentTimerID : Option String
  after : Option String

/-- `callAccountSharedCore` by operation: the answer, decoded and not yet
checked, or the error of the call. -/
structure Core where
  /-- `timer.reduce.v1` -/
  timerReduce : List Command → Time → Fallible CoreTimerResult
  /-- `timer.replay.page.v1` -/
  timerReplayPage : TimerReplayInput → Fallible TimerReplayPage
  /-- `task.reduce.v1` -/
  taskReduce : List TaskOperation → Fallible CoreTaskResult
  /-- `duration.reduce.v1` -/
  durationReduce : List DurationOperation → Fallible CoreDurationResult
  /-- `autoStart.reduce.v1` -/
  autoStartReduce : List AutoStartOperation → Fallible CoreAutoStartResult
  /-- `selectedTask.reduce.v1` -/
  selectedTaskReduce : List SelectedTaskOperation → List String → Fallible CoreSelectedTaskResult
  /-- `hlc.head.v1` -/
  hlcHead : Int → List HLC → Fallible (Option Int × Option Int)

/-! ## The clock head -/

def hlcHeadBatch : Nat := 10000

def validateCoreHLCHead (head : HLC) (physicalNowMs : Int) (observed : List HLC) :
    Fallible Unit := do
  check (0 ≤ head.wallMs ∧ head.wallMs ≤ maxSafeRevision ∧ 0 ≤ head.counter ∧
      head.counter ≤ maxSafeRevision)
    (fail "shared HLC head is outside JavaScript-safe bounds")
  check (head = ⟨physicalNowMs, 0⟩ ∨ head ∈ observed)
    (fail "shared HLC head does not reference an input clock")

def hlcHeadPageWithCore (core : Core) (physicalNowMs : Int) (observed : List HLC) :
    Fallible HLC := do
  let output ← core.hlcHead physicalNowMs observed
  match output with
  | (some wallMs, some counter) =>
    validateCoreHLCHead ⟨wallMs, counter⟩ physicalNowMs observed
    .ok ⟨wallMs, counter⟩
  | _ => .error (fail "shared HLC head is missing required fields")

/-- The loop of `hlcHeadSequenceWithCore`, with the batch filled so far. -/
def hlcHeadSequenceFrom (core : Core) (physicalNowMs : Int) :
    List HLC → List HLC → Fallible HLC
  | batch, [] => hlcHeadPageWithCore core physicalNowMs batch
  | batch, clock :: observed =>
    if batch.length = hlcHeadBatch then do
      let head ← hlcHeadPageWithCore core physicalNowMs batch
      hlcHeadSequenceFrom core physicalNowMs [head, clock] observed
    else hlcHeadSequenceFrom core physicalNowMs (batch ++ [clock]) observed

def hlcHeadSequenceWithCore (core : Core) (physicalNowMs : Int) (observed : List HLC) :
    Fallible HLC :=
  hlcHeadSequenceFrom core physicalNowMs [] observed

/-! ## Timer reduction -/

/-- `timer.Session`; a zero time is an absent one. -/
structure TimerSession where
  timerID : String
  taskID : String
  phase : String
  status : String
  plannedDurationMs : Int
  elapsedAtAnchorMs : Int
  anchorAt : Time
  startedAt : Time
  startedByDeviceID : String
  endedAt : Time
  lastCommandID : String
  terminalCommandID : String
  supersededByTimerID : String
  lastIntent : Option Intent
  deriving DecidableEq, Repr

/-- `timer.Result`. -/
structure TimerResult where
  canonical : Option CanonicalTimer
  history : List HistoryItem
  sessions : List TimerSession
  outcomes : AList fun _ : String => Outcome
  deriving DecidableEq

def timerOutcomeFromCore (outcome : CoreTimerOutcome) : Outcome :=
  ⟨outcome.outcome.getD "", outcome.reason.getD ""⟩

def timerOutcomesFromCore (input : AList fun _ : String => CoreTimerOutcome) :
    AList fun _ : String => Outcome where
  entries := input.entries.map fun entry => ⟨entry.1, timerOutcomeFromCore entry.2⟩
  nodupKeys := by
    have h : (input.entries.map Sigma.fst).Nodup := input.nodupKeys
    show (List.map Sigma.fst (input.entries.map _)).Nodup
    rwa [List.map_map]

def parseCoreTime (context : String) (value : Timestamp) : Fallible Time :=
  match value.parsed with
  | some parsed => .ok parsed
  | none => .error (fail ("parse shared timer " ++ context))

/-- The end of a session that has one, and the zero time otherwise. -/
def parseCoreEnd (value : Timestamp) : Fallible Time :=
  if value.text = "" then .ok Time.zero else parseCoreTime "end" value

def timerSessionFromCore (session : CoreTimerSession) : Fallible TimerSession := do
  let anchorAt ← parseCoreTime "anchor" session.anchorAt
  let startedAt ← parseCoreTime "start" session.startedAt
  let endedAt ← parseCoreEnd session.endedAt
  .ok { timerID := session.timerID
        taskID := session.taskID
        phase := session.phase
        status := session.status
        plannedDurationMs := session.plannedDurationMs
        elapsedAtAnchorMs := session.elapsedAtAnchorMs
        anchorAt := anchorAt
        startedAt := startedAt
        startedByDeviceID := session.startedByDeviceID
        endedAt := endedAt
        lastCommandID := session.lastCommandID
        terminalCommandID := session.terminalCommandID
        supersededByTimerID := session.supersededByTimerID
        lastIntent := session.lastIntent }

def timerResultFromCore (output : CoreTimerResult) (commands : List Command) :
    Fallible TimerResult := do
  wrap "validate shared timer output" (validateCoreTimerResult output commands)
  let sessions ← mapAll timerSessionFromCore (output.sessions.getD [])
  .ok { canonical := output.canonical.value
        history := output.history.getD []
        sessions := sessions
        outcomes := timerOutcomesFromCore (output.outcomes.getD ∅) }

/-- `coreTimerCommands`: the wire form carries the UTC time. -/
def coreTimerCommands (commands : List Command) : List Command :=
  commands.map fun command => { command with occurredAt := command.occurredAt.utc }

/-- The order of every operation log: hybrid clock, device, id. -/
abbrev LogKey := Int ×ₗ Int ×ₗ String ×ₗ String

def logKey (hlcWallMs hlcCounter : Int) (deviceID id : String) : LogKey :=
  toLex (hlcWallMs, toLex (hlcCounter, toLex (deviceID, id)))

/-- `compareReplayCommands`, also the `ORDER BY` of the command log. -/
def commandKey (command : Command) : LogKey :=
  logKey command.hlcWallMs command.hlcCounter command.deviceID command.id

def timerReplayPageSize : Nat := 256

/-- What `replayTimerPages` carries from one page to the next. -/
structure ReplayState where
  sessions : AList fun _ : String => CoreTimerSession := ∅
  history : AList fun _ : String => HistoryItem := ∅
  outcomes : AList fun _ : String => CoreTimerOutcome := ∅
  canonical : CoreNullable CanonicalTimer := ⟨false, none⟩
  current : Option String := none
  after : Option String := none

/-- `replaySeeds`: the known sessions of the current timer and of the batch. -/
def replaySeeds (sessions : AList fun _ : String => CoreTimerSession) (current : Option String)
    (commands : List Command) : List CoreTimerSession :=
  sortBy CoreTimerSession.timerID
    ((sessions.entries.map fun entry => entry.2).filter fun session =>
      current = some session.timerID ∨ ∃ command ∈ commands, command.timerID = session.timerID)

/-- One page's answer folded into the state. -/
def ReplayState.absorb (state : ReplayState) (page : TimerReplayPage) : ReplayState :=
  let seen := page.result.sessions.getD []
  { sessions := seen.foldl (fun sessions session => sessions.insert session.timerID session)
      state.sessions
    history := (page.result.history.getD []).foldl
      (fun history item => history.insert item.timerID item)
      (seen.foldl (fun history session => history.erase session.timerID) state.history)
    outcomes := (page.result.outcomes.getD ∅).entries.foldl
      (fun outcomes entry => outcomes.insert entry.1 entry.2) state.outcomes
    canonical := page.result.canonical
    current := page.currentTimerID
    after := page.after }

/-- The loop of `replayTimerPages`. Only the last page is told the time. -/
def replayPagesFrom (core : Core) (now : Time) (ordered : List Command) (state : ReplayState) :
    Fallible ReplayState :=
  match ordered with
  | [] => .ok state
  | command :: commands => do
    let batch := (command :: commands).take timerReplayPageSize
    let rest := (command :: commands).drop timerReplayPageSize
    let page ← core.timerReplayPage
      { commands := coreTimerCommands batch
        sessions := replaySeeds state.sessions state.current batch
        currentTimerID := state.current
        after := state.after
        now := if rest = [] then some now.utc else none }
    replayPagesFrom core now rest (state.absorb page)
termination_by ordered.length
decreasing_by
  rw [List.length_drop, List.length_cons]
  exact Nat.sub_lt (Nat.succ_pos _) (by decide)

/-- The order of the replayed history: the latest end first, then the timer. A
malformed time falls back to its text. -/
def compareHistory (a b : HistoryItem) : Ordering :=
  match a.endedAt.parsed, b.endedAt.parsed with
  | some left, some right =>
    (compare right.unixNano left.unixNano).then (compare a.timerID b.timerID)
  | _, _ => (compare b.endedAt.text a.endedAt.text).then (compare a.timerID b.timerID)

def orderedReplayProjection (state : ReplayState) : List CoreTimerSession × List HistoryItem :=
  (sortBy CoreTimerSession.timerID (state.sessions.entries.map fun entry => entry.2),
    (state.history.entries.map fun entry => entry.2).insertionSort
      fun a b => compareHistory a b ≠ .gt)

def replayTimerPages (core : Core) (commands : List Command) (now : Time) :
    Fallible TimerResult := do
  let state ← replayPagesFrom core now (sortBy commandKey commands) {}
  let projection := orderedReplayProjection state
  timerResultFromCore
    { canonical := state.canonical
      history := some projection.2
      sessions := some projection.1
      outcomes := some state.outcomes } commands

def reduceTimerWithSharedCore (core : Core) (commands : List Command) (now : Time) :
    Fallible TimerResult :=
  if timerReplayPageSize < commands.length then replayTimerPages core commands now
  else do
    let output ← core.timerReduce (coreTimerCommands commands) now.utc
    timerResultFromCore output commands

/-! ## The other reducers -/

def reduceTasksWithSharedCore (core : Core) (operations : List TaskOperation) :
    Fallible (List Task × AList fun _ : String => String) := do
  let output ← core.taskReduce operations
  taskResultFromCore output operations

def reduceDurationsWithSharedCore (core : Core) (operations : List DurationOperation) :
    Fallible (DurationsMs × List String) := do
  let output ← core.durationReduce operations
  durationResultFromCore output operations

def reduceAutoStartWithSharedCore (core : Core) (operations : List AutoStartOperation) :
    Fallible (Bool × String) := do
  let output ← core.autoStartReduce operations
  autoStartResultFromCore output operations

def reduceSelectedTaskWithSharedCore (core : Core) (operations : List SelectedTaskOperation)
    (tasks : List Task) : Fallible (Option String × String) := do
  let output ← core.selectedTaskReduce operations (tasks.map Task.id)
  selectedTaskResultFromCore output operations tasks

/-! ## What an accepted timer result is -/

section
variable {output : CoreTimerResult} {commands : List Command}

theorem timerCommandIndex_ok {seen commands : List Command}
    (h : timerCommandIndex seen commands = .ok ()) (hseen : (seen.map Command.id).Nodup) :
    ((seen ++ commands).map Command.id).Nodup := by
  induction commands generalizing seen with
  | nil => simpa using hseen
  | cons command commands ih =>
    obtain ⟨_, hid, h⟩ := bind_ok_iff.mp h
    obtain ⟨_, hnew, h⟩ := bind_ok_iff.mp h
    rw [check_ok_iff] at hnew
    have hseen' : ((seen ++ [command]).map Command.id).Nodup := by
      rw [List.map_append, List.nodup_append]
      refine ⟨hseen, by simp, ?_⟩
      simp only [List.mem_map, List.map_cons, List.map_nil, List.mem_singleton]
      rintro _ ⟨earlier, hmem, rfl⟩ _ rfl
      exact hnew earlier hmem
    have := ih h hseen'
    rwa [List.append_assoc, List.singleton_append] at this

theorem validateTimerOutcome_ok {commandID : String} {outcome : CoreTimerOutcome}
    (h : validateTimerOutcome commands commandID outcome = .ok ()) :
    (∃ command ∈ commands, command.id = commandID) ∧
      (timerOutcomeFromCore outcome).outcome ∈ ["applied", "ignored", "rejected"] := by
  obtain ⟨_, hknown, h⟩ := bind_ok_iff.mp h
  rw [check_ok_iff] at hknown
  refine ⟨hknown, ?_⟩
  unfold timerOutcomeFromCore
  split at h
  next outcome' reason ho hr =>
    rw [ho]
    split at h
    next ha => simp [ha]
    next =>
      split at h
      next hir =>
        obtain hi | hr := hir
        · simp [hi]
        · simp [hr]
      next => cases h
  next => cases h

/-- The decoded outcomes are those of exactly the commands of the log. -/
theorem validateTimerOutcomes_ok {outcomes : AList fun _ : String => CoreTimerOutcome}
    (h : validateTimerOutcomes outcomes commands = .ok ()) :
    (∀ id, id ∈ timerOutcomesFromCore outcomes ↔ id ∈ commands.map Command.id) ∧
      ∀ entry ∈ (timerOutcomesFromCore outcomes).entries,
        entry.2.outcome ∈ ["applied", "ignored", "rejected"] := by
  obtain ⟨_, hlength, h⟩ := bind_ok_iff.mp h
  rw [check_ok_iff] at hlength
  rw [checkAll_ok_iff] at h
  have hkeys : (timerOutcomesFromCore outcomes).keys = outcomes.entries.map Sigma.fst := by
    simp [timerOutcomesFromCore, AList.keys, List.keys]
  have hsubset : outcomes.entries.map Sigma.fst ⊆ commands.map Command.id := by
    intro id hid
    obtain ⟨entry, hentry, rfl⟩ := List.mem_map.mp hid
    obtain ⟨⟨command, hmem, heq⟩, -⟩ := validateTimerOutcome_ok (h entry hentry)
    exact heq ▸ List.mem_map_of_mem hmem
  have hperm : (outcomes.entries.map Sigma.fst).Perm (commands.map Command.id) := by
    have hsub := (show (outcomes.entries.map Sigma.fst).Nodup from outcomes.nodupKeys).subperm hsubset
    exact hsub.perm_of_length_le (by simp [hlength])
  constructor
  · intro id
    rw [AList.mem_keys, hkeys, hperm.mem_iff]
  · intro entry hentry
    obtain ⟨raw, hraw, rfl⟩ := List.mem_map.mp hentry
    exact (validateTimerOutcome_ok (h raw hraw)).2

theorem validateOrderedSessions_ok {seen sessions : List CoreTimerSession} {previousID : String}
    (h : validateOrderedSessions commands seen previousID sessions = .ok ())
    (hseen : (seen.map CoreTimerSession.timerID).Nodup) :
    ((seen ++ sessions).map CoreTimerSession.timerID).Nodup := by
  induction sessions generalizing seen previousID with
  | nil => simpa using hseen
  | cons session sessions ih =>
    obtain ⟨_, -, h⟩ := bind_ok_iff.mp h
    obtain ⟨_, hnew, h⟩ := bind_ok_iff.mp h
    obtain ⟨_, -, h⟩ := bind_ok_iff.mp h
    rw [check_ok_iff] at hnew
    have hseen' : ((seen ++ [session]).map CoreTimerSession.timerID).Nodup := by
      rw [List.map_append, List.nodup_append]
      refine ⟨hseen, by simp, ?_⟩
      simp only [List.mem_map, List.map_cons, List.map_nil, List.mem_singleton]
      rintro _ ⟨earlier, hmem, rfl⟩ _ rfl
      exact hnew earlier hmem
    have := ih h hseen'
    rwa [List.append_assoc, List.singleton_append] at this

theorem timerSessionFromCore_timerID {session : CoreTimerSession} {decoded : TimerSession}
    (h : timerSessionFromCore session = .ok decoded) : decoded.timerID = session.timerID := by
  obtain ⟨_, -, h⟩ := bind_ok_iff.mp h
  obtain ⟨_, -, h⟩ := bind_ok_iff.mp h
  obtain ⟨_, -, h⟩ := bind_ok_iff.mp h
  cases h
  rfl

end

/-- What the store relies on of a timer result: one outcome for each command of
the log and no other, of the three kinds, and one session a timer. -/
structure Accepted (commands : List Command) (result : TimerResult) : Prop where
  ids : (commands.map Command.id).Nodup
  outcomes : ∀ id, id ∈ result.outcomes ↔ id ∈ commands.map Command.id
  kinds : ∀ entry ∈ result.outcomes.entries,
    entry.2.outcome ∈ ["applied", "ignored", "rejected"]
  sessions : (result.sessions.map TimerSession.timerID).Nodup

theorem timerResultFromCore_ok {output : CoreTimerResult} {commands : List Command}
    {result : TimerResult} (h : timerResultFromCore output commands = .ok result) :
    Accepted commands result := by
  obtain ⟨_, hvalid, h⟩ := bind_ok_iff.mp h
  obtain ⟨sessions, hsessions, h⟩ := bind_ok_iff.mp h
  cases h
  rw [wrap_ok_iff] at hvalid
  unfold validateCoreTimerResult at hvalid
  split at hvalid
  next history coreSessions outcomes hhistory hcore houtcomes =>
    obtain ⟨_, -, hvalid⟩ := bind_ok_iff.mp hvalid
    obtain ⟨_, hindex, hvalid⟩ := bind_ok_iff.mp hvalid
    obtain ⟨_, hvalidOutcomes, hvalid⟩ := bind_ok_iff.mp hvalid
    obtain ⟨_, hvalidSessions, -⟩ := bind_ok_iff.mp hvalid
    obtain ⟨_, hordered, -⟩ := bind_ok_iff.mp hvalidSessions
    have hids : (commands.map Command.id).Nodup := timerCommandIndex_ok hindex (by simp)
    obtain ⟨hkeys, hkinds⟩ := validateTimerOutcomes_ok hvalidOutcomes
    have hunique : (coreSessions.map CoreTimerSession.timerID).Nodup :=
      validateOrderedSessions_ok hordered (by simp)
    rw [hcore] at hsessions
    have hmap := mapAll_map (g := CoreTimerSession.timerID) (k := TimerSession.timerID) hsessions
      fun session decoded hdecoded => timerSessionFromCore_timerID hdecoded
    exact ⟨hids, by simpa [houtcomes] using hkeys, by simpa [houtcomes] using hkinds,
      by rw [hmap]; exact hunique⟩
  next => cases hvalid

theorem reduceTimerWithSharedCore_ok {core : Core} {commands : List Command} {now : Time}
    {result : TimerResult} (h : reduceTimerWithSharedCore core commands now = .ok result) :
    Accepted commands result := by
  unfold reduceTimerWithSharedCore replayTimerPages at h
  split at h
  · obtain ⟨_, -, h⟩ := bind_ok_iff.mp h
    exact timerResultFromCore_ok h
  · obtain ⟨_, -, h⟩ := bind_ok_iff.mp h
    exact timerResultFromCore_ok h

end Pomodorough.Store.SharedCore
