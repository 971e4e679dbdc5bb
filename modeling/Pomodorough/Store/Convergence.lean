import Pomodorough.Store.AccountRuns

/-! # Operation logs converge

Synchronizations that submit the same operations leave the same logs, whatever
the order, the batches and the repetitions, and the reducers are functions of
the loaded logs. -/
namespace Pomodorough.Store.Convergence
open Pomodorough.Library.Fallible Pomodorough.Library.KeyedLog
open Pomodorough.Store.Records Pomodorough.Store.SharedCoreValidation
open Pomodorough.Store.SharedCore Pomodorough.Store.OperationLogs
open Pomodorough.Store.OperationDomains Pomodorough.Store.Sync Pomodorough.Store.Bootstrap
open Pomodorough.Store.Transactions Pomodorough.Store.AccountRuns

variable {core : Core} {sha256 : Sha256} {s s₁ s₂ t t₁ t₂ : UserTables}
  {events events₁ events₂ : List Event} {now : Time}

/-! ## The logs after synchronizations -/

/-- Every call is a synchronization. -/
def OnlySyncs (events : List Event) : Prop := ∀ event ∈ events, ∃ request, event.call = .sync request

/-- The requests that succeeded, in order. A failed one may be tried again. -/
def synced : List Event → List SyncRequest
  | [] => []
  | ⟨.sync request, _, .ok _⟩ :: events => request :: synced events
  | _ :: events => synced events

/-- The rows a run's successful synchronizations submit to a log. -/
def submittedRows (d : Domain) (events : List Event) : List d.Operation :=
  (synced events).flatMap d.rows

theorem run_log (hs : ValidLogs s) (honly : OnlySyncs events) (h : Run core sha256 s events t)
    (d : Domain) : d.log t = offers d.keys (d.log s) (submittedRows d events) := by
  induction h with
  | nil => rfl
  | @cons s m t event events hstep hrest ih =>
    obtain ⟨request, hcall⟩ := honly event (by simp)
    have honly' : OnlySyncs events := fun e he => honly e (List.mem_cons_of_mem event he)
    obtain ⟨call, time, answer⟩ := event
    cases hcall
    obtain ⟨result, hanswer, hexec⟩ | ⟨⟨e, hanswer⟩, rfl⟩ := hstep.cases_answer
    · cases hanswer
      obtain ⟨u, applied, reduction, hcommit⟩ := sync_ok hexec
      have hm : ValidLogs m := validLogs_exec hs hexec
      rw [ih hm honly', syncCommit_log hs hcommit d]
      exact offers_append.symm
    · cases hanswer
      exact ih hs honly'

/-! ## Projections -/

/-- A reduction but for the revision it was made at. -/
def AccountReduction.projection (r : AccountReduction) : AccountReduction := { r with revision := 0 }

/-- The part of a response that shows the account. -/
structure Shown where
  canonicalTimer : Option CanonicalTimer
  history : List HistoryItem
  tasks : List Task
  durationsMs : DurationsMs
  autoStartBreaks : Bool
  selectedTaskID : Option String
  serverTime : Time
  deriving DecidableEq

def shown (result : SyncResult) : Shown where
  canonicalTimer := result.canonicalTimer
  history := result.history
  tasks := result.tasks
  durationsMs := result.durationsMs
  autoStartBreaks := result.autoStartBreaks
  selectedTaskID := result.selectedTaskID
  serverTime := result.serverTime

theorem reduceAccount_projection (hrev₁ : ValidRevision t₁.revision)
    (hrev₂ : ValidRevision t₂.revision) (h : ∀ d : Domain, d.loaded t₁ = d.loaded t₂) :
    (reduceAccount core t₁ now).map AccountReduction.projection =
      (reduceAccount core t₂ now).map AccountReduction.projection := by
  rw [reduceAccount_congr hrev₁ hrev₂ h]
  cases reduceAccount core t₂ now <;> rfl

theorem shown_of_sync {u : UserTables} {applied : OperationApplication}
    {reduction : AccountReduction} {request : SyncRequest} {result : SyncResult}
    (h : SyncCommit core s request now u applied reduction t result) :
    shown result = ⟨reduction.timer.canonical, reduction.timer.history, reduction.tasks,
      reduction.durations, reduction.autoStartBreaks, reduction.selectedTaskID, now.utc⟩ := by
  obtain ⟨base, hbase, rfl⟩ := h.result
  obtain ⟨_, -, hbase⟩ := bind_ok_iff.mp hbase
  cases hbase
  rfl

/-- What a synchronization stores of its reduction. -/
structure SameStored (t₁ t₂ : UserTables) : Prop where
  sessions : t₁.timerSessions = t₂.timerSessions
  current : t₁.currentTimerID = t₂.currentTimerID
  outcomes : ∀ command ∈ t₁.timerCommands,
    t₁.commandOutcomes.lookup command.id = t₂.commandOutcomes.lookup command.id

/-- Two synchronizations at one time that leave the same logs store the same
projection and show it. -/
theorem sync_sameStored {request₁ request₂ : SyncRequest} {result₁ result₂ : SyncResult}
    (h₁ : sync core s₁ request₁ now = .ok (t₁, result₁))
    (h₂ : sync core s₂ request₂ now = .ok (t₂, result₂))
    (hlogs : ∀ d : Domain, d.loaded t₁ = d.loaded t₂) :
    SameStored t₁ t₂ ∧ shown result₁ = shown result₂ := by
  obtain ⟨u₁, applied₁, reduction₁, c₁⟩ := sync_ok h₁
  obtain ⟨u₂, applied₂, reduction₂, c₂⟩ := sync_ok h₂
  have hu : ∀ d : Domain, d.loaded u₁ = d.loaded u₂ := fun d => by
    rw [← d.loaded_congr (c₁.commit.log d), ← d.loaded_congr (c₂.commit.log d), hlogs d]
  have hreduce : reduceAccount core u₁ now =
      (reduceAccount core u₂ now).map fun r => { r with revision := u₁.revision } :=
    reduceAccount_congr c₁.commit.reduces.valid c₂.commit.reduces.valid hu
  rw [c₁.commit.reduced, c₂.commit.reduced] at hreduce
  have hred : reduction₁ = { reduction₂ with revision := u₁.revision } := Except.ok.inj hreduce
  refine ⟨⟨?_, ?_, fun command hcommand => ?_⟩, ?_⟩
  · rw [c₁.written, c₂.written, hred]
    rfl
  · rw [c₁.written, c₂.written, hred]
    rfl
  · have hmem₁ : command ∈ u₁.timerCommands := by
      rw [c₁.written] at hcommand
      exact hcommand
    have hmem₂ : command ∈ u₂.timerCommands := by
      have hload : command ∈ loadCommands u₁ := mem_sortBy.mpr hmem₁
      rw [show loadCommands u₁ = loadCommands u₂ from hu .timer] at hload
      exact mem_sortBy.mp hload
    rw [c₁.written, c₂.written, lookup_persisted c₁.commit.reduces hmem₁,
      lookup_persisted c₂.commit.reduces hmem₂, hred]
  · rw [shown_of_sync c₁, shown_of_sync c₂, hred]

/-! ## Acceptable requests succeed -/

/-- A request the store has no reason to refuse. -/
structure Acceptable (request : SyncRequest) : Prop where
  unique : validateUniqueOperationIDs request = .ok ()
  allowed : ∀ d : Domain, ∀ row ∈ d.rows request, d.allowed row = true

/-- The core answers for every account made of the given operations, and finds a
clock head among the clocks of such an account and of the given requests. -/
structure Answers (core : Core) (operations : (d : Domain) → d.Operation → Prop)
    (requests : List SyncRequest) : Prop where
  reduces : ∀ u now, ValidLogs u → ValidRevision u.revision →
    (∀ d : Domain, ∀ x ∈ d.log u, operations d x) → ∃ r, reduceAccount core u now = .ok r
  head : ∀ u now reduction, ∀ request ∈ requests, reduceAccount core u now = .ok reduction →
    (∀ d : Domain, ∀ x ∈ d.log u, operations d x) → ∃ clock,
      hlcHeadSequenceWithCore core now.unixMilli (hlcObservations reduction (some request)) =
        .ok clock

theorem sync_succeeds {operations : (d : Domain) → d.Operation → Prop}
    {requests : List SyncRequest} (hcore : Answers core operations requests) (hs : ValidLogs s)
    (hstored : ∀ d : Domain, ∀ x ∈ d.log s, operations d x) {request : SyncRequest}
    (hrequest : request ∈ requests) (hacceptable : Acceptable request)
    (hsubmitted : ∀ d : Domain, ∀ x ∈ d.rows request, operations d x)
    (hrevision : 0 ≤ s.revision) (hroom : s.revision < maxSafeRevision) :
    ∃ t result, sync core s request now = .ok (t, result) ∧ t.revision ≤ s.revision + 1 ∧
      0 ≤ t.revision := by
  have hbase : ValidLogs (recordSyncDevice s request.deviceID now) := hs.ofLogs fun d => by simp
  obtain ⟨u, applied, happlied⟩ := applyOperations_succeeds hbase.utc hacceptable.allowed
  have hu := applyOperations_ok hbase.utc happlied
  have hmem : ∀ d : Domain, ∀ x ∈ d.log u, operations d x := by
    intro d x hx
    rw [hu.log d, log_recordSyncDevice] at hx
    obtain hx | hx := mem_of_mem_offers hx
    · exact hstored d x hx
    · exact hsubmitted d x hx
  have hrev : u.revision = s.revision := hu.beside.revision
  have hvalid : ValidRevision u.revision := ⟨by omega, by omega⟩
  obtain ⟨reduction, hreduced⟩ := hcore.reduces u now (hu.valid hbase) hvalid hmem
  have hreduces := reduceAccount_ok hreduced
  obtain ⟨next, hnext, hnextValid, hle⟩ : ∃ next, next = u.revision +
      (if applied.changed || timerProjectionChanged u reduction.timer then 1 else 0) ∧
      ValidRevision next ∧ next ≤ s.revision + 1 := by
    refine ⟨_, rfl, ?_⟩
    unfold ValidRevision
    split <;> omega
  obtain ⟨clock, hclock⟩ := hcore.head u now reduction request hrequest hreduced hmem
  obtain ⟨base, hresult⟩ : ∃ base,
      resultFromReduction core reduction next now (some request) = .ok base :=
    ⟨_, bind_ok_iff.mpr ⟨clock, hclock, rfl⟩⟩
  have hcommit : SyncCommit core s request now u applied reduction (persisted u reduction next)
      { addAcknowledgements base request applied reduction with
        changed := applied.changed || timerProjectionChanged u reduction.timer } :=
    ⟨hacceptable.unique, happlied, ⟨hreduced, hnextValid, hnext, .inl rfl⟩, rfl, base, hresult, rfl⟩
  exact ⟨_, _, hcommit.sync, hle, hnextValid.1⟩

/-- Acceptable requests are applied one after the other. -/
theorem syncs_succeed {operations : (d : Domain) → d.Operation → Prop}
    {requests : List SyncRequest} (hcore : Answers core operations requests)
    {calls : List (SyncRequest × Time)} (hs : ValidLogs s)
    (hstored : ∀ d : Domain, ∀ x ∈ d.log s, operations d x)
    (hcalls : ∀ call ∈ calls, call.1 ∈ requests ∧ Acceptable call.1 ∧
      ∀ d : Domain, ∀ x ∈ d.rows call.1, operations d x)
    (hrevision : 0 ≤ s.revision) (hroom : s.revision + calls.length ≤ maxSafeRevision) :
    ∃ events t, Run core sha256 s events t ∧ OnlySyncs events ∧
      synced events = calls.map Prod.fst := by
  induction calls generalizing s with
  | nil => exact ⟨[], s, .nil, by simp [OnlySyncs], rfl⟩
  | cons call calls ih =>
    obtain ⟨hrequest, hacceptable, hsubmitted⟩ := hcalls call (by simp)
    rw [List.length_cons] at hroom
    obtain ⟨t, result, hsync, hle, hge⟩ : ∃ t result,
        sync core s call.1 call.2 = .ok (t, result) ∧ t.revision ≤ s.revision + 1 ∧
          0 ≤ t.revision :=
      sync_succeeds hcore hs hstored hrequest hacceptable hsubmitted hrevision (by omega)
    have hexec : Call.exec core sha256 (.sync call.1) call.2 s = .ok (t, result) := hsync
    have hlog : ∀ d : Domain, ∀ x ∈ d.log t, operations d x := by
      intro d x hx
      obtain ⟨u, applied, reduction, hcommit⟩ := sync_ok hsync
      rw [syncCommit_log hs hcommit d] at hx
      obtain hx | hx := mem_of_mem_offers hx
      · exact hstored d x hx
      · exact hsubmitted d x hx
    obtain ⟨events, u, hrun, honly, hsynced⟩ := ih (validLogs_exec hs hexec) hlog
      (fun c hc => hcalls c (List.mem_cons_of_mem call hc)) hge (by omega)
    refine ⟨⟨.sync call.1, call.2, .ok result⟩ :: events, u, .cons (.answered hexec) hrun, ?_, ?_⟩
    · intro event hevent
      obtain rfl | hevent := List.mem_cons.mp hevent
      · exact ⟨call.1, rfl⟩
      · exact honly event hevent
    · rw [List.map_cons, ← hsynced]
      rfl

/-! ## Convergence -/

/-- Two accounts that no synchronization tells apart. -/
structure Converged (core : Core) (t₁ t₂ : UserTables) : Prop where
  logs : ∀ d : Domain, (d.log t₁).Perm (d.log t₂)
  loaded : ∀ d : Domain, d.loaded t₁ = d.loaded t₂
  projection : ∀ now, (reduceAccount core t₁ now).map AccountReduction.projection =
    (reduceAccount core t₂ now).map AccountReduction.projection

/-- The revision stays one the store accepts. -/
theorem validRevision_syncs (honly : OnlySyncs events) (h : Run core sha256 s events t)
    (hs : ValidRevision s.revision) : ValidRevision t.revision := by
  induction h with
  | nil => exact hs
  | @cons s m t event events hstep hrest ih =>
    have honly' : OnlySyncs events := fun e he => honly e (List.mem_cons_of_mem event he)
    obtain ⟨request, hcall⟩ := honly event (by simp)
    obtain ⟨result, -, hexec⟩ | ⟨-, rfl⟩ := hstep.cases_answer
    · rw [hcall] at hexec
      obtain ⟨u, applied, reduction, hcommit⟩ := sync_ok hexec
      exact ih honly' hcommit.commit.valid
    · exact ih honly' hs

theorem converged_of_runs (hs : ValidLogs s) (hrev : ValidRevision s.revision)
    (honly₁ : OnlySyncs events₁) (honly₂ : OnlySyncs events₂)
    (h₁ : Run core sha256 s events₁ t₁) (h₂ : Run core sha256 s events₂ t₂)
    (hfree : ∀ d : Domain, ∀ a ∈ submittedRows d events₁, ∀ b ∈ submittedRows d events₁,
      ¬ d.keys.Clash a b)
    (hsame : ∀ (d : Domain) (row : d.Operation),
      row ∈ submittedRows d events₁ ↔ row ∈ submittedRows d events₂) :
    Converged core t₁ t₂ := by
  have hlogs : ∀ d : Domain, (d.log t₁).Perm (d.log t₂) := fun d => by
    rw [run_log hs honly₁ h₁ d, run_log hs honly₂ h₂ d]
    exact offers_perm (hs.distinct d) (hfree d) (hsame d)
  have hloaded : ∀ d : Domain, d.loaded t₁ = d.loaded t₂ := fun d =>
    d.loaded_eq_of_perm ((validLogs_run hs h₁).distinct d) (hlogs d)
  exact ⟨hlogs, hloaded, fun now => reduceAccount_projection (validRevision_syncs honly₁ h₁ hrev)
    (validRevision_syncs honly₂ h₂ hrev) hloaded⟩

/-- Operations that do not conflict converge: runs of synchronizations that
submit the same operations, in any order, batches and repetitions, end with the
same logs, loaded and reduced alike; if they end at the same time, they have
stored and shown the same projection. Acceptable requests, which the core
answers, are all applied. -/
theorem operationLogs_converge (hs : ValidLogs s) (hrev : ValidRevision s.revision) :
    (∀ events₁ events₂ t₁ t₂, OnlySyncs events₁ → OnlySyncs events₂ →
      Run core sha256 s events₁ t₁ → Run core sha256 s events₂ t₂ →
      (∀ d : Domain, ∀ a ∈ submittedRows d events₁, ∀ b ∈ submittedRows d events₁,
        ¬ d.keys.Clash a b) →
      (∀ (d : Domain) (row : d.Operation),
        row ∈ submittedRows d events₁ ↔ row ∈ submittedRows d events₂) →
      Converged core t₁ t₂ ∧
        ∀ before₁ before₂ request₁ request₂ now result₁ result₂,
          events₁ = before₁ ++ [⟨.sync request₁, now, .ok result₁⟩] →
          events₂ = before₂ ++ [⟨.sync request₂, now, .ok result₂⟩] →
          SameStored t₁ t₂ ∧ shown result₁ = shown result₂) ∧
      ∀ (operations : (d : Domain) → d.Operation → Prop) (requests : List SyncRequest)
        (calls : List (SyncRequest × Time)), Answers core operations requests →
        (∀ d : Domain, ∀ x ∈ d.log s, operations d x) →
        (∀ call ∈ calls, call.1 ∈ requests ∧ Acceptable call.1 ∧
          ∀ d : Domain, ∀ x ∈ d.rows call.1, operations d x) →
        s.revision + calls.length ≤ maxSafeRevision →
        ∃ events t, Run core sha256 s events t ∧ OnlySyncs events ∧
          synced events = calls.map Prod.fst := by
  constructor
  · intro events₁ events₂ t₁ t₂ honly₁ honly₂ h₁ h₂ hfree hsame
    have hconverged := converged_of_runs hs hrev honly₁ honly₂ h₁ h₂ hfree hsame
    refine ⟨hconverged, ?_⟩
    rintro before₁ before₂ request₁ request₂ now result₁ result₂ rfl rfl
    obtain ⟨s₁, -, hstep₁⟩ := h₁.last
    obtain ⟨s₂, -, hstep₂⟩ := h₂.last
    have hsync₁ : sync core s₁ request₁ now = .ok (t₁, result₁) := by
      cases hstep₁ with
      | answered h => exact h
    have hsync₂ : sync core s₂ request₂ now = .ok (t₂, result₂) := by
      cases hstep₂ with
      | answered h => exact h
    exact sync_sameStored hsync₁ hsync₂ hconverged.loaded
  · intro operations requests calls hcore hstored hcalls hroom
    exact syncs_succeed hcore hs hstored hcalls hrev.1 hroom

/-- Two devices' commands, in one order, and in the other with a repetition. -/
theorem operationLogs_converge_pauses :
    let a := pauseRequest "command-1" "device-a" 1000
    let b := pauseRequest "command-2" "device-b" 1001
    let now := Time.ofUnixMilli 2000
    let first := performAll absentTimerCore (fun _ => 0) .initial [(.sync a, now), (.sync b, now)]
    let second := performAll absentTimerCore (fun _ => 0) .initial
      [(.sync b, now), (.sync a, now), (.sync b, now)]
    Converged absentTimerCore first.2 second.2 ∧ SameStored first.2 second.2 := by
  intro a b now first second
  have hfirst : first.1 = [⟨.sync a, now, .ok (pauseAnswer "command-1" 1 2000 true)⟩] ++
      [⟨.sync b, now, .ok (pauseAnswer "command-2" 2 2000 true)⟩] := by rfl
  have hsecond : second.1 = [⟨.sync b, now, .ok (pauseAnswer "command-2" 1 2000 true)⟩,
      ⟨.sync a, now, .ok (pauseAnswer "command-1" 2 2000 true)⟩] ++
      [⟨.sync b, now, .ok (pauseAnswer "command-2" 2 2000 false)⟩] := by rfl
  have honly : OnlySyncs first.1 ∧ OnlySyncs second.1 := by
    rw [hfirst, hsecond]
    simp [OnlySyncs]
  obtain ⟨hconverged, hlast⟩ := (@operationLogs_converge absentTimerCore (fun _ => 0) .initial
    validLogs_initial (by decide)).1 first.1 second.1 first.2 second.2
    honly.1 honly.2 run_performAll run_performAll
    (by intro d; rw [hfirst]; cases d <;> decide)
    (by
      intro d row
      rw [hfirst, hsecond]
      simp [submittedRows, synced]
      tauto)
  exact ⟨hconverged, (hlast _ _ b b now _ _ hfirst hsecond).1⟩

end Pomodorough.Store.Convergence
