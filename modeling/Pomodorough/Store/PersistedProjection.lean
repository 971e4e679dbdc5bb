import Pomodorough.Store.Revisions
import Pomodorough.Store.TimerSoundness

/-! # A persisted reduction is not a changed one

What is accepted of the core fits the tables. What is read back of it is the
reduction at millisecond precision, but for instants of the first millisecond
after the zero time: their millisecond is read as the zero time, which stands
for no time at all. -/
namespace Pomodorough.Store.PersistedProjection
open Pomodorough.Library.Fallible Pomodorough.Library.KeyedLog
open Pomodorough.Store.Records Pomodorough.Store.SharedCoreValidation
open Pomodorough.Store.SharedCore Pomodorough.Store.OperationLogs
open Pomodorough.Store.Sync Pomodorough.Store.Transactions Pomodorough.Store.AccountRuns
open Pomodorough.Store.Revisions Pomodorough.Store.TimerSoundness

/-! ## Instants at millisecond precision -/

/-- Later than 0001-01-01T00:00:00Z, in its millisecond. -/
def JustAfterZero (time : Time) : Prop :=
  Time.zeroUnixNano < time.unixNano ∧ time.unixNano < Time.zeroUnixNano + 1000000

instance : DecidablePred JustAfterZero := fun time => by unfold JustAfterZero; infer_instance

theorem zero_ofUnixMilli_iff {time : Time} :
    (Time.ofUnixMilli time.unixMilli).isZero = true ↔ time.isZero = true ∨ JustAfterZero time := by
  simp only [Time.isZero, Time.ofUnixMilli, Time.unixMilli, Time.zeroUnixNano, beq_iff_eq,
    JustAfterZero]
  omega

/-- An instant is read back as its millisecond. -/
theorem unixMilli_ofUnixMilli_iff {time : Time} :
    unixMilli (Time.ofUnixMilli time.unixMilli) = unixMilli time ↔ ¬ JustAfterZero time := by
  have hzero : (Time.ofUnixMilli time.unixMilli).isZero = true ↔
      time.isZero = true ∨ JustAfterZero time := zero_ofUnixMilli_iff
  have hdisjoint : time.isZero = true → ¬ JustAfterZero time := by
    intro h hafter
    have hsame := beq_iff_eq.mp h
    exact absurd hsame hafter.1.ne'
  unfold unixMilli
  by_cases htime : time.isZero = true
  · simp [htime, hzero.mpr (.inl htime), hdisjoint htime]
  · by_cases hafter : JustAfterZero time
    · simp [htime, hzero.mpr (.inr hafter), hafter]
    · have hnot : (Time.ofUnixMilli time.unixMilli).isZero = false := by
        rw [Bool.eq_false_iff]
        intro h
        exact (hzero.mp h).elim htime hafter
      simp [htime, hnot, hafter]

/-- A nullable instant is read back as well, the zero time from NULL. -/
theorem unixMilli_elim_iff {time : Time} :
    unixMilli ((unixMilli time).elim Time.zero Time.ofUnixMilli) = unixMilli time ↔
      ¬ JustAfterZero time := by
  by_cases htime : time.isZero = true
  · have hnone : unixMilli time = none := if_pos htime
    rw [hnone]
    constructor
    · intro _ hafter
      exact absurd (beq_iff_eq.mp htime) hafter.1.ne'
    · intro _
      rfl
  · have hsome : unixMilli time = some time.unixMilli := if_neg htime
    rw [← unixMilli_ofUnixMilli_iff, hsome]
    exact Iff.rfl

theorem getD_nullString (value : String) : (nullString value).getD "" = value := by
  unfold nullString
  split
  next h => exact h.symm
  next => rfl

/-! ## Sessions -/

/-- None of the session's instants is in the first millisecond after the zero time. -/
structure Kept (session : TimerSession) : Prop where
  anchorAt : ¬ JustAfterZero session.anchorAt
  startedAt : ¬ JustAfterZero session.startedAt
  endedAt : ¬ JustAfterZero session.endedAt

theorem atMilli_loadSession_iff {session : TimerSession} :
    atMilli (loadSession (sessionRow session)) = atMilli session ↔ Kept session := by
  simp only [atMilli, loadSession, sessionRow, getD_nullString, MilliSession.mk.injEq,
    unixMilli_ofUnixMilli_iff, unixMilli_elim_iff, true_and, and_true]
  constructor
  · intro h
    exact ⟨h.1, h.2.1, h.2.2⟩
  · intro h
    exact ⟨h.anchorAt, h.startedAt, h.endedAt⟩

theorem map_atMilli_iff {sessions : List TimerSession} :
    (sessions.map fun session => atMilli (loadSession (sessionRow session))) =
      sessions.map atMilli ↔ ∀ session ∈ sessions, Kept session := by
  simp only [List.map_inj_left, atMilli_loadSession_iff]

/-! ## What is accepted is decoded and in order -/

section
variable {commands : List Command} {sessions : List CoreTimerSession} {output : CoreTimerResult}
  {result : TimerResult}

theorem validateSessionTerminalFields_ok {session : CoreTimerSession}
    (h : validateSessionTerminalFields session = .ok ()) :
    session.endedAt.text ≠ "" → ∃ endedAt, session.endedAt.parsed = some endedAt := by
  intro htext
  obtain ⟨_, -, h⟩ := bind_ok_iff.mp h
  rw [if_pos htext] at h
  obtain ⟨endedAt, hended, -⟩ := bind_ok_iff.mp h
  exact ⟨endedAt, (parseRequiredCoreTime_ok hended).2⟩

/-- The times a session has are read. -/
theorem validateCoreTimerSession_times {session : CoreTimerSession}
    (h : validateCoreTimerSession session commands = .ok ()) :
    (∃ anchorAt, session.anchorAt.parsed = some anchorAt) ∧
      (∃ startedAt, session.startedAt.parsed = some startedAt) ∧
      (session.endedAt.text ≠ "" → ∃ endedAt, session.endedAt.parsed = some endedAt) ∧
      session.timerID ≠ "" := by
  obtain ⟨_, htimer, h⟩ := bind_ok_iff.mp h
  obtain ⟨_, -, h⟩ := bind_ok_iff.mp h
  obtain ⟨_, -, h⟩ := bind_ok_iff.mp h
  obtain ⟨anchorAt, hanchor, h⟩ := bind_ok_iff.mp h
  obtain ⟨startedAt, hstarted, h⟩ := bind_ok_iff.mp h
  obtain ⟨_, hterminal, -⟩ := bind_ok_iff.mp h
  rw [check_ok_iff] at htimer
  exact ⟨⟨anchorAt, (parseRequiredCoreTime_ok hanchor).2⟩,
    ⟨startedAt, (parseRequiredCoreTime_ok hstarted).2⟩,
    validateSessionTerminalFields_ok hterminal, htimer.1⟩

theorem timerSessionFromCore_succeeds {session : CoreTimerSession}
    (h : validateCoreTimerSession session commands = .ok ()) :
    ∃ decoded, timerSessionFromCore session = .ok decoded := by
  obtain ⟨⟨anchorAt, hanchor⟩, ⟨startedAt, hstarted⟩, hended, -⟩ :=
    validateCoreTimerSession_times h
  have hend : ∃ endedAt, parseCoreEnd session.endedAt = .ok endedAt := by
    unfold parseCoreEnd
    split
    next => exact ⟨Time.zero, rfl⟩
    next htext =>
      obtain ⟨endedAt, hparsed⟩ := hended htext
      exact ⟨endedAt, by simp [parseCoreTime, hparsed]⟩
  obtain ⟨endedAt, hparsed⟩ := hend
  have hanchorAt : parseCoreTime "anchor" session.anchorAt = .ok anchorAt := by
    simp [parseCoreTime, hanchor]
  have hstartedAt : parseCoreTime "start" session.startedAt = .ok startedAt := by
    simp [parseCoreTime, hstarted]
  exact ⟨_, bind_ok_iff.mpr ⟨anchorAt, hanchorAt, bind_ok_iff.mpr ⟨startedAt, hstartedAt,
    bind_ok_iff.mpr ⟨endedAt, hparsed, rfl⟩⟩⟩⟩

/-- The sessions are checked one by one and follow each other by their ids. -/
theorem validateOrderedSessions_sorted {seen : List CoreTimerSession} {previousID : String}
    (h : validateOrderedSessions commands seen previousID sessions = .ok ()) :
    (∀ session ∈ sessions, validateCoreTimerSession session commands = .ok ()) ∧
      (sessions.map CoreTimerSession.timerID).Pairwise (· < ·) ∧
      (previousID ≠ "" → ∀ session ∈ sessions, previousID < session.timerID) := by
  induction sessions generalizing seen previousID with
  | nil => simp
  | cons session sessions ih =>
    obtain ⟨_, hsession, h⟩ := bind_ok_iff.mp h
    obtain ⟨_, -, h⟩ := bind_ok_iff.mp h
    obtain ⟨_, horder, h⟩ := bind_ok_iff.mp h
    rw [check_ok_iff] at horder
    obtain ⟨hvalid, hsorted, hlater⟩ := ih h
    have hafter := hlater (validateCoreTimerSession_times hsession).2.2.2
    refine ⟨List.forall_mem_cons.mpr ⟨hsession, hvalid⟩, ?_, fun hprevious => ?_⟩
    · rw [List.map_cons, List.pairwise_cons]
      refine ⟨fun id hid => ?_, hsorted⟩
      obtain ⟨later, hmem, rfl⟩ := List.mem_map.mp hid
      exact hafter later hmem
    · have hfirst : previousID < session.timerID := horder.resolve_left hprevious
      refine List.forall_mem_cons.mpr ⟨hfirst, fun later hmem => hfirst.trans (hafter later hmem)⟩

theorem timerResultFromCore_succeeds (h : validateCoreTimerResult output commands = .ok ()) :
    ∃ result, timerResultFromCore output commands = .ok result := by
  obtain ⟨history, sessions, outcomes, -, hsessions, -, hchecked⟩ := validateCoreTimerResult_ok h
  obtain ⟨_, hordered, -⟩ := bind_ok_iff.mp hchecked.timerSessions
  have hvalid := (validateOrderedSessions_sorted hordered).1
  obtain ⟨decoded, hdecoded⟩ := mapAll_succeeds fun session hmem =>
    timerSessionFromCore_succeeds (hvalid session hmem)
  have hall : mapAll timerSessionFromCore (output.sessions.getD []) = .ok decoded := by
    rw [hsessions]
    exact hdecoded
  exact ⟨_, bind_ok_iff.mpr ⟨(), wrap_ok_iff.mpr h, bind_ok_iff.mpr ⟨decoded, hall, rfl⟩⟩⟩

/-- The decoded sessions are in the order their table is read in. -/
theorem timerResultFromCore_sorted (h : timerResultFromCore output commands = .ok result) :
    (result.sessions.map TimerSession.timerID).Pairwise (· < ·) := by
  obtain ⟨_, hvalid, h⟩ := bind_ok_iff.mp h
  obtain ⟨decoded, hdecoded, h⟩ := bind_ok_iff.mp h
  cases h
  rw [wrap_ok_iff] at hvalid
  obtain ⟨history, sessions, outcomes, -, hsessions, -, hchecked⟩ :=
    validateCoreTimerResult_ok hvalid
  obtain ⟨_, hordered, -⟩ := bind_ok_iff.mp hchecked.timerSessions
  rw [hsessions] at hdecoded
  have hmap := mapAll_map (g := CoreTimerSession.timerID) (k := TimerSession.timerID) hdecoded
    fun session decoded hdecoded => timerSessionFromCore_timerID hdecoded
  show (decoded.map TimerSession.timerID).Pairwise (· < ·)
  rw [hmap]
  exact (validateOrderedSessions_sorted hordered).2.1

end

/-! ## Writing and reading back -/

section
variable {t : UserTables} {reduction : AccountReduction} {revision : Int}
  {output : CoreTimerResult} {commands : List Command} {result : TimerResult}

/-- The sessions are read in the order they were written. -/
theorem storedProjection_persisted
    (h : (reduction.timer.sessions.map TimerSession.timerID).Pairwise (· < ·)) :
    storedProjection (persisted t reduction revision) =
      ⟨(reduction.timer.canonical.map CanonicalTimer.id).getD "",
        reduction.timer.sessions.map fun session => atMilli (loadSession (sessionRow session))⟩ := by
  have hsorted : sortBy TimerSessionRow.timerID (reduction.timer.sessions.map sessionRow) =
      reduction.timer.sessions.map sessionRow := by
    refine List.Pairwise.insertionSort_eq (List.pairwise_map.mpr ?_)
    exact (List.pairwise_map.mp h).imp le_of_lt
  simp only [storedProjection, loadCurrentTimerProjectionID, loadTimerSessionProjection, persisted,
    hsorted, List.map_map]
  rfl

theorem timerProjectionChanged_persisted
    (h : (reduction.timer.sessions.map TimerSession.timerID).Pairwise (· < ·)) :
    timerProjectionChanged (persisted t reduction revision) reduction.timer = false ↔
      ∀ session ∈ reduction.timer.sessions, Kept session := by
  rw [← Bool.not_eq_true, timerProjectionChanged_iff, not_not, storedProjection_persisted h,
    ← map_atMilli_iff]
  simp [reducedProjection]

/-- Outcomes of the log's commands and sessions with ids of their own fit the tables. -/
theorem persistReduction_accepted (haccepted : Accepted commands reduction.timer)
    (hlog : loadCommands t = commands) (hrevision : ValidRevision revision) :
    persistReduction t reduction revision = .ok (persisted t reduction revision) := by
  refine bind_ok_iff.mpr ⟨(), validateCanonicalRevision_ok.mpr hrevision, ?_⟩
  refine bind_ok_iff.mpr ⟨(), checkAll_ok_iff.mpr fun entry hmem => check_ok_iff.mpr ?_, ?_⟩
  · refine ⟨?_, haccepted.kinds entry hmem⟩
    have hkey : entry.1 ∈ reduction.timer.outcomes := by
      rw [AList.mem_keys]
      exact List.mem_map_of_mem hmem
    rw [haccepted.outcomes, ← hlog, List.mem_map] at hkey
    obtain ⟨command, hcommand, heq⟩ := hkey
    exact ⟨command, mem_sortBy.mp hcommand, heq⟩
  · exact bind_ok_iff.mpr ⟨(), check_ok_iff.mpr haccepted.sessions, rfl⟩

/-- An accepted output is decoded and can be written to the tables it was
reduced from, and then it is not a change unless one of its instants is in the
first millisecond after the zero time. -/
theorem accepted_reduction_persists (h : validateCoreTimerResult output commands = .ok ()) :
    ∃ result, timerResultFromCore output commands = .ok result ∧
      ∀ (t : UserTables) (reduction : AccountReduction) (revision : Int),
        loadCommands t = commands → reduction.timer = result → ValidRevision revision →
        ∃ u, persistReduction t reduction revision = .ok u ∧
          (timerProjectionChanged u result = false ↔ ∀ session ∈ result.sessions, Kept session) := by
  obtain ⟨result, hresult⟩ := timerResultFromCore_succeeds h
  refine ⟨result, hresult, fun t reduction revision hlog htimer hrevision => ?_⟩
  subst htimer
  exact ⟨_, persistReduction_accepted (timerResultFromCore_ok hresult) hlog hrevision,
    timerProjectionChanged_persisted (timerResultFromCore_sorted hresult)⟩

end

/-! ## A timer of the first millisecond -/

/-- The tables of an account with one command. -/
def oneCommand : UserTables :=
  { UserTables.initial with timerCommands := [pauseAbsent "command-1" "device-1" 1000] }

/-- A reduction that is of timers alone. -/
def timerReduction (timer : TimerResult) : AccountReduction where
  revision := 0
  commands := [pauseAbsent "command-1" "device-1" 1000]
  timer := timer
  taskOperations := []
  tasks := []
  winningTaskOperations := ∅
  durationOperations := []
  durations := ⟨1500000, 300000, 900000⟩
  winningDurationOperations := []
  autoStartOperations := []
  autoStartBreaks := false
  winningAutoStartOperation := ""
  selectedTaskOperations := []
  selectedTaskID := none
  winningSelectedTaskOperation := ""

/-- 0001-01-01T00:00:00.0005Z. -/
def halfMillisecond : Timestamp :=
  ⟨"0001-01-01T00:00:00.0005Z", some ⟨Time.zeroUnixNano + 500000, 0⟩⟩

/-- An accepted output that stays a change however often it is persisted. -/
theorem accepted_reduction_changes_again : ¬ ∀ output commands,
    validateCoreTimerResult output commands = .ok () →
      ∃ result, timerResultFromCore output commands = .ok result ∧
        ∀ (t : UserTables) (reduction : AccountReduction) (revision : Int),
          loadCommands t = commands → reduction.timer = result → ValidRevision revision →
          ∃ u, persistReduction t reduction revision = .ok u ∧
            timerProjectionChanged u result = false := by
  intro hclaim
  have haccepted : validateCoreTimerResult (completedResult halfMillisecond ["item-1"])
      [pauseAbsent "command-1" "device-1" 1000] = .ok () := by
    decide +kernel
  obtain ⟨result, hresult, hpersists⟩ := hclaim _ _ haccepted
  obtain ⟨u, hu, hunchanged⟩ :=
    hpersists oneCommand (timerReduction result) 1 rfl rfl (by decide)
  obtain ⟨-, rfl⟩ := persistReduction_ok hu
  have hkept := (timerProjectionChanged_persisted (timerResultFromCore_sorted hresult)).mp hunchanged
  obtain ⟨_, -, hresult⟩ := bind_ok_iff.mp hresult
  cases hresult
  exact (hkept _ List.mem_cons_self).anchorAt (by decide)

theorem accepted_reduction_persists_once : ∃ result u,
    timerResultFromCore (completedResult ⟨"1970-01-01T00:00:01Z", some (Time.ofUnixMilli 1000)⟩
      ["item-1"]) [pauseAbsent "command-1" "device-1" 1000] = .ok result ∧
      persistReduction oneCommand (timerReduction result) 1 = .ok u ∧
      timerProjectionChanged u result = false := by
  have haccepted : validateCoreTimerResult
      (completedResult ⟨"1970-01-01T00:00:01Z", some (Time.ofUnixMilli 1000)⟩ ["item-1"])
      [pauseAbsent "command-1" "device-1" 1000] = .ok () := by
    decide +kernel
  obtain ⟨result, hresult, hpersists⟩ := accepted_reduction_persists haccepted
  obtain ⟨u, hu, hiff⟩ := hpersists oneCommand (timerReduction result) 1 rfl rfl (by decide)
  refine ⟨result, u, hresult, hu, hiff.mpr fun session hsession => ?_⟩
  obtain ⟨_, -, hresult⟩ := bind_ok_iff.mp hresult
  cases hresult
  cases List.mem_singleton.mp hsession
  exact ⟨by decide, by decide, by decide⟩

end Pomodorough.Store.PersistedProjection
