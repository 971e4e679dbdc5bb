import Pomodorough.Store.Transactions

/-! # Runs of an account

Calls on one account hold its lock, so they happen one after the other, and each
is a transaction: it commits what it computes, or it leaves the tables as they
were, whether it refuses the request or the storage fails it. -/
namespace Pomodorough.Store.AccountRuns
open Pomodorough.Library.Fallible Pomodorough.Library.KeyedLog
open Pomodorough.Store.Records Pomodorough.Store.SharedCoreValidation
open Pomodorough.Store.SharedCore Pomodorough.Store.OperationLogs
open Pomodorough.Store.OperationDomains Pomodorough.Store.Sync Pomodorough.Store.Bootstrap
open Pomodorough.Store.Transactions

/-- The calls that reduce an account. -/
inductive Call where
  | sync (request : SyncRequest)
  | bootstrap
  | history
  | resolveBootstrap (request : BootstrapResolutionRequest)
  deriving DecidableEq, Repr

def Call.exec (core : Core) (sha256 : Sha256) (call : Call) (now : Time) (s : UserTables) :
    Fallible (UserTables × SyncResult) :=
  match call with
  | .sync request => Sync.sync core s request now
  | .bootstrap => materializeProjection core s now
  | .history => materializeProjection core s now
  | .resolveBootstrap request => Bootstrap.resolveBootstrap core sha256 s request now

/-- One call and its answer. -/
structure Event where
  call : Call
  now : Time
  answer : Fallible SyncResult
  deriving DecidableEq

inductive Step (core : Core) (sha256 : Sha256) (s : UserTables) : Event → UserTables → Prop where
  | answered {call now t result} (h : call.exec core sha256 now s = .ok (t, result)) :
      Step core sha256 s ⟨call, now, .ok result⟩ t
  | refused {call now e} (h : call.exec core sha256 now s = .error e) :
      Step core sha256 s ⟨call, now, .error e⟩ s
  | aborted {call now e} : Step core sha256 s ⟨call, now, .error e⟩ s

inductive Run (core : Core) (sha256 : Sha256) : UserTables → List Event → UserTables → Prop where
  | nil {s} : Run core sha256 s [] s
  | cons {s t u event events} (h : Step core sha256 s event t) (rest : Run core sha256 t events u) :
      Run core sha256 s (event :: events) u

variable {core : Core} {sha256 : Sha256} {s t u : UserTables} {event : Event}
  {events events' : List Event} {call : Call} {now : Time} {result : SyncResult}

/-- A step either answers with what the call computes or changes nothing. -/
theorem Step.cases_answer (h : Step core sha256 s event t) :
    (∃ result, event.answer = .ok result ∧
        event.call.exec core sha256 event.now s = .ok (t, result)) ∨
      (∃ e, event.answer = .error e) ∧ t = s := by
  cases h with
  | answered h => exact .inl ⟨_, rfl, h⟩
  | refused h => exact .inr ⟨⟨_, rfl⟩, rfl⟩
  | aborted => exact .inr ⟨⟨_, rfl⟩, rfl⟩

/-- What every call that succeeds preserves, every run preserves. -/
theorem Run.preserves {P : UserTables → Prop}
    (hexec : ∀ s call now t result, P s → Call.exec core sha256 call now s = .ok (t, result) → P t)
    (h : Run core sha256 s events t) (hs : P s) : P t := by
  induction h with
  | nil => exact hs
  | cons hstep _ ih =>
    obtain ⟨result, -, hcall⟩ | ⟨-, rfl⟩ := hstep.cases_answer
    · exact ih (hexec _ _ _ _ _ hs hcall)
    · exact ih hs

theorem Run.append (h : Run core sha256 s events t) (h' : Run core sha256 t events' u) :
    Run core sha256 s (events ++ events') u := by
  induction h with
  | nil => exact h'
  | cons hstep _ ih => exact .cons hstep (ih h')

/-- A run is made of its parts. -/
theorem Run.split (h : Run core sha256 s (events ++ events') u) :
    ∃ t, Run core sha256 s events t ∧ Run core sha256 t events' u := by
  induction events generalizing s with
  | nil => exact ⟨s, .nil, h⟩
  | cons event events ih =>
    cases h with
    | cons hstep rest =>
      obtain ⟨t, hbefore, hafter⟩ := ih rest
      exact ⟨t, .cons hstep hbefore, hafter⟩

theorem Run.last (h : Run core sha256 s (events ++ [event]) u) :
    ∃ t, Run core sha256 s events t ∧ Step core sha256 t event u := by
  obtain ⟨t, hbefore, hlast⟩ := h.split
  cases hlast with
  | cons hstep rest =>
    cases rest
    exact ⟨t, hbefore, hstep⟩

/-- The answers of a run determine the tables it ends with. -/
theorem Run.unique (h : Run core sha256 s events t) (h' : Run core sha256 s events u) : t = u := by
  induction h with
  | nil =>
    cases h'
    rfl
  | @cons s m t event events hstep _ ih =>
    cases h' with
    | @cons _ m' _ _ _ hstep' rest' =>
      have hm : m' = m := by
        obtain ⟨result, hanswer, hexec⟩ | ⟨⟨e, hanswer⟩, rfl⟩ := hstep.cases_answer
        · obtain ⟨result', -, hexec'⟩ | ⟨⟨e, herror⟩, -⟩ := hstep'.cases_answer
          · rw [hexec] at hexec'
            cases hexec'
            rfl
          · rw [hanswer] at herror
            cases herror
        · obtain ⟨result', hok, -⟩ | ⟨-, rfl⟩ := hstep'.cases_answer
          · rw [hanswer] at hok
            cases hok
          · rfl
      rw [hm] at rest'
      exact ih rest'

/-- The run of some calls that the storage does not fail. -/
def performAll (core : Core) (sha256 : Sha256) :
    UserTables → List (Call × Time) → List Event × UserTables
  | s, [] => ([], s)
  | s, (call, now) :: calls =>
    match call.exec core sha256 now s with
    | .ok (t, result) =>
      (⟨call, now, .ok result⟩ :: (performAll core sha256 t calls).1,
        (performAll core sha256 t calls).2)
    | .error e =>
      (⟨call, now, .error e⟩ :: (performAll core sha256 s calls).1,
        (performAll core sha256 s calls).2)

theorem run_performAll {calls : List (Call × Time)} :
    Run core sha256 s (performAll core sha256 s calls).1 (performAll core sha256 s calls).2 := by
  induction calls generalizing s with
  | nil => exact .nil
  | cons c calls ih =>
    obtain ⟨call, now⟩ := c
    unfold performAll
    cases h : call.exec core sha256 now s with
    | ok answer => exact .cons (.answered h) ih
    | error e => exact .cons (.refused h) ih

/-! ## The logs stay well formed -/

theorem validLogs_initial : ValidLogs UserTables.initial where
  distinct d := by
    show (List.map _ (d.log _)).Nodup
    cases d <;> exact List.nodup_nil
  utc d := by
    intro x hx
    cases d <;> cases hx

/-- The logs a replacement empties. -/
def cleared (request : BootstrapResolutionRequest) : Domain → Bool
  | .autoStart => request.autoStartOperationsPresent
  | .selectedTask => request.selectedTaskOperationsPresent
  | _ => true

theorem log_strategyBase (d : Domain) {request : BootstrapResolutionRequest} :
    d.log (strategyBase s request) =
      if request.strategy = bootstrapReplaceRemote ∧ cleared request d = true then []
      else d.log s := by
  unfold strategyBase
  split
  next hstrategy =>
    simp only [hstrategy, true_and]
    cases d <;> rfl
  next hstrategy => simp [hstrategy]

theorem validLogs_strategyBase (hs : ValidLogs s) {request : BootstrapResolutionRequest} :
    ValidLogs (strategyBase s request) where
  distinct d := by
    rw [log_strategyBase d]
    split
    · exact List.nodup_nil
    · exact hs.distinct d
  utc d := by
    rw [log_strategyBase d]
    split
    · intro x hx
      cases hx
    · exact hs.utc d

theorem syncCommit_log {request : SyncRequest} {applied : OperationApplication}
    {reduction : AccountReduction} (hs : ValidLogs s)
    (h : SyncCommit core s request now u applied reduction t result) (d : Domain) :
    d.log t = offers d.keys (d.log s) (d.rows request) := by
  have hbase : ValidLogs (recordSyncDevice s request.deviceID now) := hs.ofLogs fun d => by simp
  rw [h.commit.log d, (applyOperations_ok hbase.utc h.operations).log d, log_recordSyncDevice]

theorem resolveCommit_log {request : BootstrapResolutionRequest}
    {application : BootstrapStrategyApplication} {v : UserTables} (hs : ValidLogs s)
    (h : ResolveCommit core sha256 s request now u application v t result) (d : Domain) :
    d.log t = offers d.keys (d.log (Transactions.strategyBase s request))
      (d.rows request.syncRequest) := by
  have ht : d.log t = d.log v := by
    rw [h.recorded]
    cases d <;> rfl
  rw [ht, h.commit.log d, (applyOperations_ok (validLogs_strategyBase hs).utc h.applied.operations).log d]

theorem validLogs_exec (hs : ValidLogs s) (h : call.exec core sha256 now s = .ok (t, result)) :
    ValidLogs t := by
  have hmaterialize : ∀ {t : UserTables} {result : SyncResult},
      materializeProjection core s now = .ok (t, result) → ValidLogs t := by
    intro t result h
    obtain ⟨reduction, hcommit⟩ := materializeProjection_ok h
    exact hs.ofLogs hcommit.commit.log
  cases call with
  | sync request =>
    obtain ⟨u, applied, reduction, hcommit⟩ := sync_ok h
    have hbase : ValidLogs (recordSyncDevice s request.deviceID now) := hs.ofLogs fun d => by simp
    exact ((applyOperations_ok hbase.utc hcommit.operations).valid hbase).ofLogs hcommit.commit.log
  | bootstrap => exact hmaterialize h
  | history => exact hmaterialize h
  | resolveBootstrap request =>
    obtain ⟨stored, hreplay, rfl⟩ | ⟨u, application, v, hcommit⟩ :=
      resolveBootstrap_ok (validLogs_strategyBase hs).utc h
    · exact hs
    · have hu := (applyOperations_ok (validLogs_strategyBase hs).utc hcommit.applied.operations).valid
        (validLogs_strategyBase hs)
      refine hu.ofLogs fun d => ?_
      rw [← hcommit.commit.log d, hcommit.recorded]
      cases d <;> rfl

theorem validLogs_run (hs : ValidLogs s) (h : Run core sha256 s events t) : ValidLogs t :=
  h.preserves (fun _ _ _ _ _ hp hexec => validLogs_exec hp hexec) hs

/-! ## A small core

What the core answers for an account that only ever pauses timers nobody
started. -/

def absentTimerOutcomes (commands : List Command) : AList fun _ : String => CoreTimerOutcome :=
  commands.foldl (fun outcomes command => outcomes.insert command.id
    ⟨some "ignored", some "timer is not the active running timer"⟩) ∅

def absentTimerCore : Core where
  timerReduce commands _ :=
    .ok ⟨⟨true, none⟩, some [], some [], some (absentTimerOutcomes commands)⟩
  timerReplayPage _ := .error (fail "no page")
  taskReduce operations :=
    if operations = [] then .ok ⟨some [], some ∅⟩ else .error (fail "no task")
  durationReduce operations :=
    if operations = [] then
      .ok ⟨some (((∅ : AList fun _ : String => Int).insert "focus" 1500000).insert "short_break"
        300000 |>.insert "long_break" 900000), some ∅⟩
    else .error (fail "no duration")
  autoStartReduce operations :=
    if operations = [] then .ok ⟨some false, ⟨true, none⟩⟩ else .error (fail "no auto-start")
  selectedTaskReduce operations _ :=
    if operations = [] then .ok ⟨⟨true, none⟩, ⟨true, none⟩⟩ else .error (fail "no selected task")
  hlcHead physicalNowMs observed :=
    let head := observed.foldl (fun head clock =>
      if head.wallMs < clock.wallMs ∨ head.wallMs = clock.wallMs ∧ head.counter < clock.counter
      then clock else head) (⟨physicalNowMs, 0⟩ : HLC)
    .ok (some head.wallMs, some head.counter)

/-- A command that pauses a timer nobody started. -/
def pauseAbsent (id deviceID : String) (wallMs : Int) : Command where
  id := id
  deviceID := deviceID
  deviceSequence := 1
  timerID := "timer-01"
  taskID := ""
  type := .pause
  phase := .focus
  plannedDurationMs := 1500000
  occurredAt := Time.ofUnixMilli wallMs
  hlcWallMs := wallMs
  hlcCounter := 0
  observedElapsedMs := 0

def pauseRequest (id deviceID : String) (wallMs : Int) : SyncRequest :=
  ⟨deviceID, 0, [pauseAbsent id deviceID wallMs], [], [], [], []⟩

/-- The answer to a request that submits one such command. -/
def pauseAnswer (id : String) (revision nowMs : Int) (changed : Bool) : SyncResult where
  acknowledgements := [⟨id, "ignored", "timer is not the active running timer"⟩]
  taskAcknowledgements := []
  durationAcknowledgements := []
  autoStartAcknowledgements := []
  selectedTaskAcknowledgements := []
  revision := revision
  canonicalTimer := none
  history := []
  tasks := []
  durationsMs := ⟨1500000, 300000, 900000⟩
  autoStartBreaks := false
  selectedTaskID := none
  serverTime := Time.ofUnixMilli nowMs
  serverHLCWallMs := nowMs
  serverHLCCounter := 0
  changed := changed

end Pomodorough.Store.AccountRuns
