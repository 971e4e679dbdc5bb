import Pomodorough.Library.Rfc3339
import Pomodorough.Store.AccountRuns
import Pomodorough.Store.PagedReplay

/-! # Replaying a log whole or in pages

Every fold has a core that computes it. With any core that runs a fold, the
pages of `replayTimerPages` give what one reduction of the whole log gives. -/
namespace Pomodorough.Store.WholeReplay
open Pomodorough.Library Pomodorough.Library.Fallible Pomodorough.Library.KeyedLog
open Pomodorough.Library.PagedFold
open Pomodorough.Store.Records Pomodorough.Store.SharedCoreValidation
open Pomodorough.Store.SharedCore Pomodorough.Store.PagedReplay

/-! ## The core that computes a fold -/

def outcomeTable (outcomes : List (TimerEvent × CoreTimerOutcome))
    (table : AList fun _ : String => CoreTimerOutcome) : AList fun _ : String => CoreTimerOutcome :=
  outcomes.foldl (fun table entry =>
    match entry.1 with
    | .command command => table.insert command.id entry.2
    | .now _ => table) table

theorem lookup_outcomeTable (outcomes : List (TimerEvent × CoreTimerOutcome))
    (table : AList fun _ : String => CoreTimerOutcome) (id : String) :
    (outcomeTable outcomes table).lookup id = (outcomeOf outcomes id).or (table.lookup id) := by
  induction outcomes generalizing table with
  | nil => rfl
  | cons entry outcomes ih =>
    have hsplit := outcomeOf_append [entry] outcomes id
    rw [List.singleton_append] at hsplit
    rw [hsplit, Option.or_assoc]
    obtain ⟨event, outcome⟩ := entry
    show (outcomeTable outcomes _).lookup id = _
    rw [ih]
    cases event with
    | now time => rfl
    | command command =>
      show Option.or _ ((table.insert command.id outcome).lookup id) = _
      by_cases hid : command.id = id
      · subst hid
        rw [AList.lookup_insert]
        simp [outcomeOf]
      · rw [AList.lookup_insert_ne (Ne.symm hid)]
        simp [outcomeOf, hid]

/-- The order of the history, for items with an end. -/
def historyKey (item : HistoryItem) : Int ×ₗ String :=
  toLex (-(item.endedAt.parsed.getD Time.zero).unixNano, item.timerID)

theorem compareHistory_lt {a b : HistoryItem} (ha : a.endedAt.parsed ≠ none)
    (hb : b.endedAt.parsed ≠ none) (h : historyKey a < historyKey b) :
    compareHistory a b = .lt := by
  obtain ⟨left, hleft⟩ := Option.ne_none_iff_exists'.mp ha
  obtain ⟨right, hright⟩ := Option.ne_none_iff_exists'.mp hb
  unfold historyKey at h
  rw [Prod.Lex.toLex_lt_toLex, hleft, hright] at h
  unfold compareHistory
  rw [hleft, hright]
  show (compare right.unixNano left.unixNano).then _ = .lt
  rw [Ordering.then_eq_lt]
  obtain hend | ⟨hend, htimer⟩ := h
  · exact .inl (compare_lt_iff_lt.mpr (by simpa using hend))
  · exact .inr ⟨compare_eq_iff_eq.mpr (by simpa using hend.symm), compare_lt_iff_lt.mpr htimer⟩

/-- The timers there can be a session of. -/
def knownTimers (events : List TimerEvent) (seeds : List CoreTimerSession)
    (current : Option String) : List String :=
  (current.toList ++ events.filterMap TimerEvent.timerID ++
    seeds.map CoreTimerSession.timerID).dedup

/-- The sessions of a final state, in the order of their timers. -/
def listedSessions (final : TimerState) (timers : List String) : List CoreTimerSession :=
  sortBy CoreTimerSession.timerID (timers.filterMap final.cells)

def answer (fold : TimerFold) (events : List TimerEvent) (seeds : List CoreTimerSession)
    (current : Option String) : CoreTimerResult :=
  let final := fold.run events (seedState seeds current)
  let sessions := listedSessions final (knownTimers events seeds current)
  { canonical := ⟨true, fold.shown final⟩
    history := some (sortBy historyKey (sessions.filterMap fold.historyItem))
    sessions := some sessions
    outcomes := some (outcomeTable (fold.outcomes events (seedState seeds current)) ∅) }

/-- A core whose timer operations compute the fold. -/
def coreOf (fold : TimerFold) (base : Core) : Core :=
  { base with
    timerReduce := fun commands now =>
      .ok (answer fold (timerEvents commands (some now)) [] none)
    timerReplayPage := fun input =>
      .ok { result := answer fold (timerEvents input.commands input.now) input.sessions
              input.currentTimerID
            currentTimerID := (fold.run (timerEvents input.commands input.now)
              (seedState input.sessions input.currentTimerID)).focus
            after := (input.commands.getLast?.map fold.continuation).or input.after } }

section
variable {fold : TimerFold} {events : List TimerEvent} {seeds : List CoreTimerSession}
  {current : Option String}

theorem keyedSessions_seedState (seeds : List CoreTimerSession) (current : Option String) :
    KeyedSessions (seedState seeds current) := by
  intro k session hk
  simpa using List.find?_some hk

/-- A session the fold leaves is of a timer known from the start. -/
theorem mem_knownTimers {k : String}
    (h : (fold.run events (seedState seeds current)).cells k ≠ none) :
    k ∈ knownTimers events seeds current := by
  by_contra hk
  have hcovers : LocalFold.Covers TimerEvent.timerID
      {k | k ∈ knownTimers events seeds current} events (seedState seeds current) := by
    constructor
    · intro event hevent k hk
      show k ∈ List.dedup _
      rw [List.mem_dedup]
      simp only [List.mem_append, List.mem_filterMap]
      exact .inl (.inr ⟨event, hevent, hk⟩)
    · intro k hk
      show k ∈ List.dedup _
      rw [List.mem_dedup]
      simp only [List.mem_append, Option.mem_toList]
      exact .inl (.inl hk)
  rw [LocalFold.run_outside hcovers hk] at h
  obtain ⟨session, hfind⟩ := Option.ne_none_iff_exists'.mp h
  refine hk ?_
  obtain rfl := keyedSessions_seedState seeds current k session hfind
  show _ ∈ List.dedup _
  rw [List.mem_dedup, List.mem_append]
  exact .inr (List.mem_map_of_mem (List.mem_of_find?_eq_some hfind))

theorem mem_listedSessions {session : CoreTimerSession} :
    session ∈ listedSessions (fold.run events (seedState seeds current))
        (knownTimers events seeds current) ↔
      (fold.run events (seedState seeds current)).cells session.timerID = some session := by
  have hkeyed : KeyedSessions (fold.run events (seedState seeds current)) :=
    fold.run_keyed (keyedSessions_seedState seeds current)
  unfold listedSessions
  rw [mem_sortBy, List.mem_filterMap]
  constructor
  · rintro ⟨k, -, hcell⟩
    obtain rfl := hkeyed k session hcell
    exact hcell
  · intro hcell
    have hne : (fold.run events (seedState seeds current)).cells session.timerID ≠ none := by
      rw [hcell]
      exact Option.some_ne_none session
    exact ⟨session.timerID, mem_knownTimers hne, hcell⟩

theorem listedSessions_nodup :
    ((listedSessions (fold.run events (seedState seeds current))
      (knownTimers events seeds current)).map CoreTimerSession.timerID).Nodup := by
  have hkeyed : KeyedSessions (fold.run events (seedState seeds current)) :=
    fold.run_keyed (keyedSessions_seedState seeds current)
  unfold listedSessions
  rw [(sortBy_perm.map _).nodup_iff, List.map_filterMap]
  refine (List.nodup_dedup _).filterMap fun a b k ha hb => ?_
  simp only [Option.mem_def, Option.map_eq_some_iff] at ha hb
  obtain ⟨session, hsession, rfl⟩ := ha
  obtain ⟨session', hsession', heq⟩ := hb
  rw [← hkeyed a session hsession, ← hkeyed b session' hsession', heq]

theorem mem_answer_history (hseeded : KeyedSessions (fold.run events (seedState seeds current)))
    (item : HistoryItem) :
    item ∈ (listedSessions (fold.run events (seedState seeds current))
        (knownTimers events seeds current)).filterMap fold.historyItem ↔
      ((fold.run events (seedState seeds current)).cells item.timerID).bind fold.historyItem =
        some item := by
  rw [List.mem_filterMap, Option.bind_eq_some_iff]
  constructor
  · rintro ⟨session, hsession, hitem⟩
    rw [mem_listedSessions] at hsession
    rw [fold.historyItem_timerID session item hitem]
    exact ⟨session, hsession, hitem⟩
  · rintro ⟨session, hcell, hitem⟩
    refine ⟨session, mem_listedSessions.mpr ?_, hitem⟩
    rwa [hseeded _ session hcell]

theorem history_nodup :
    (((listedSessions (fold.run events (seedState seeds current))
      (knownTimers events seeds current)).filterMap fold.historyItem).map
        HistoryItem.timerID).Nodup := by
  have hsub : (((listedSessions (fold.run events (seedState seeds current))
      (knownTimers events seeds current)).filterMap fold.historyItem).map
        HistoryItem.timerID).Sublist ((listedSessions (fold.run events (seedState seeds current))
      (knownTimers events seeds current)).map CoreTimerSession.timerID) := by
    generalize listedSessions _ _ = sessions
    induction sessions with
    | nil => exact List.Sublist.slnil
    | cons session sessions ih =>
      cases hitem : fold.historyItem session with
      | none =>
        rw [List.filterMap_cons_none hitem]
        exact ih.cons _
      | some item =>
        rw [List.filterMap_cons_some hitem, List.map_cons, List.map_cons,
          fold.historyItem_timerID session item hitem]
        exact ih.cons_cons _
  exact hsub.nodup listedSessions_nodup

theorem answers_answer : fold.Answers events (seedState seeds current)
    (answer fold events seeds current) where
  sessions := ⟨_, rfl, listedSessions_nodup, fun _ => mem_listedSessions⟩
  history := by
    refine ⟨_, rfl, ?_, fun item => ?_⟩
    · rw [(sortBy_perm.map _).nodup_iff]
      exact history_nodup
    · rw [mem_sortBy]
      exact mem_answer_history (fold.run_keyed (keyedSessions_seedState seeds current)) item
  outcomes := ⟨_, rfl, fun id => by
    rw [lookup_outcomeTable]
    exact (congrArg _ (AList.lookup_empty id)).trans Option.or_none⟩
  canonical := rfl

theorem listedSessions_ordered :
    (listedSessions (fold.run events (seedState seeds current))
      (knownTimers events seeds current)).Pairwise fun a b => a.timerID < b.timerID :=
  pairwise_lt_sortBy ((sortBy_perm.map _).nodup_iff.mp listedSessions_nodup)

theorem history_ordered (hends : ∀ session item,
    fold.historyItem session = some item → item.endedAt.parsed ≠ none) :
    (sortBy historyKey ((listedSessions (fold.run events (seedState seeds current))
      (knownTimers events seeds current)).filterMap fold.historyItem)).Pairwise
        fun a b => compareHistory a b = .lt := by
  have hparsed : ∀ item ∈ sortBy historyKey ((listedSessions
      (fold.run events (seedState seeds current))
      (knownTimers events seeds current)).filterMap fold.historyItem),
      item.endedAt.parsed ≠ none := by
    intro item hitem
    rw [mem_sortBy, List.mem_filterMap] at hitem
    obtain ⟨session, -, hitem⟩ := hitem
    exact hends session item hitem
  have hkeys : (((listedSessions (fold.run events (seedState seeds current))
      (knownTimers events seeds current)).filterMap fold.historyItem).map historyKey).Nodup := by
    refine List.Nodup.of_map (fun key => (ofLex key).2) ?_
    rw [List.map_map]
    exact history_nodup
  refine (pairwise_lt_sortBy hkeys).imp_of_mem fun {a b} ha hb hlt => ?_
  exact compareHistory_lt (hparsed a ha) (hparsed b hb) hlt

/-- A fold whose history items have an end that can be read is run by its core. -/
theorem runBy_coreOf (base : Core) (hends : ∀ session item,
    fold.historyItem session = some item → item.endedAt.parsed ≠ none) :
    fold.RunBy (coreOf fold base) where
  reduce commands now _ := by
    refine ⟨_, rfl, show fold.Answers _ (seedState [] none) _ from answers_answer, ?_, ?_⟩
    · rintro sessions ⟨⟩
      exact listedSessions_ordered
    · rintro history ⟨⟩
      exact history_ordered hends
  replayPage input _ _ _ := ⟨_, rfl, answers_answer, rfl, rfl⟩

end

/-! ## Timers that are only started

A fold for logs of starts: a start takes over from the current timer, and the
time ends the current timer when its duration has passed. -/

def wireTime (t : Time) : Timestamp := ⟨String.ofList (Rfc3339.format t.unixNano), some t.utc⟩

def startedSession (command : Command) : CoreTimerSession where
  timerID := command.timerID
  taskID := command.taskID
  phase := command.phase.text
  status := "running"
  plannedDurationMs := command.plannedDurationMs
  elapsedAtAnchorMs := 0
  anchorAt := wireTime command.occurredAt
  startedAt := wireTime command.occurredAt
  startedByDeviceID := command.deviceID
  endedAt := ⟨"", none⟩
  lastCommandID := command.id
  terminalCommandID := ""
  supersededByTimerID := ""
  lastIntent := some ⟨"start", command.id, wireTime command.occurredAt⟩

def supersededSession (command : Command) (session : CoreTimerSession) : CoreTimerSession :=
  if session.status = "running" then
    { session with
      status := "superseded"
      endedAt := wireTime command.occurredAt
      terminalCommandID := command.id
      supersededByTimerID := command.timerID }
  else session

def finishedSession (now : Time) (session : CoreTimerSession) : CoreTimerSession :=
  let ended := (session.anchorAt.parsed.getD Time.zero).unixNano +
    session.plannedDurationMs * 1000000
  if session.status = "running" ∧ ended ≤ now.unixNano then
    { session with status := "completed", endedAt := wireTime ⟨ended, 0⟩ }
  else session

def startTimer (command : Command) (s : TimerState) : TimerState :=
  if s.cells command.timerID ≠ none then s
  else
    { cells := fun k =>
        if k = command.timerID then some (startedSession command)
        else if s.focus = some k then (s.cells k).map (supersededSession command)
        else s.cells k
      focus := some command.timerID }

def finishTimer (now : Time) (s : TimerState) : TimerState :=
  { s with cells := fun k =>
      if s.focus = some k then (s.cells k).map (finishedSession now) else s.cells k }

def startStep : TimerEvent → TimerState → TimerState
  | .command command => startTimer command
  | .now time => finishTimer time

def startOutcome : TimerEvent → TimerState → CoreTimerOutcome
  | .command command, s =>
    if s.cells command.timerID ≠ none then ⟨some "ignored", some "timer was started before"⟩
    else ⟨some "applied", some ""⟩
  | .now _, _ => ⟨none, none⟩

theorem supersededSession_timerID (command : Command) (session : CoreTimerSession) :
    (supersededSession command session).timerID = session.timerID := by
  unfold supersededSession
  split <;> rfl

theorem finishedSession_timerID (now : Time) (session : CoreTimerSession) :
    (finishedSession now session).timerID = session.timerID := by
  unfold finishedSession
  simp only
  split <;> rfl

theorem startStep_keyed (event : TimerEvent) (s : TimerState) (h : KeyedSessions s) :
    KeyedSessions (startStep event s) := by
  intro k session hk
  cases event with
  | command command =>
    unfold startStep startTimer at hk
    simp only at hk
    split at hk
    · exact h k session hk
    · simp only at hk
      split at hk
      next heq =>
        cases hk
        exact heq.symm
      next =>
        split at hk
        · obtain ⟨earlier, hcell, rfl⟩ := Option.map_eq_some_iff.mp hk
          rw [supersededSession_timerID]
          exact h k earlier hcell
        · exact h k session hk
  | now time =>
    unfold startStep finishTimer at hk
    simp only at hk
    split at hk
    · obtain ⟨earlier, hcell, rfl⟩ := Option.map_eq_some_iff.mp hk
      rw [finishedSession_timerID]
      exact h k earlier hcell
    · exact h k session hk

def startFold : TimerFold where
  step := startStep
  outcome := startOutcome
  writes event s k hk := by
    cases event with
    | command command =>
      have hkey : k ≠ command.timerID := fun heq => hk (.inl (congrArg some heq.symm))
      have hfocus : s.focus ≠ some k := fun heq => hk (.inr heq)
      show (startTimer command s).cells k = s.cells k
      unfold startTimer
      split <;> simp [hkey, hfocus]
    | now time =>
      have hfocus : s.focus ≠ some k := fun heq => hk (.inr heq)
      simp [startStep, finishTimer, hfocus]
  keeps event s k hk := by
    cases event with
    | command command =>
      show (startTimer command s).cells k ≠ none
      unfold startTimer
      split
      · exact hk
      · simp only
        split
        · exact Option.some_ne_none _
        · split <;> simp [hk]
    | now time =>
      show (finishTimer time s).cells k ≠ none
      unfold finishTimer
      simp only
      split <;> simp [hk]
  moves event s k hk := by
    cases event with
    | command command =>
      change (startTimer command s).focus = some k at hk
      unfold startTimer at hk
      split at hk
      · exact .inr hk
      · exact .inl hk
    | now time => exact .inr hk
  reads event s t hfocus hcells := by
    cases event with
    | command command =>
      have hown : s.cells command.timerID = t.cells command.timerID := hcells _ (.inl rfl)
      have houtcome : startOutcome (.command command) s = startOutcome (.command command) t := by
        simp only [startOutcome, hown]
      show (startTimer command s).focus = (startTimer command t).focus ∧ _ ∧ ∀ k, _ →
        (startTimer command s).cells k = (startTimer command t).cells k
      unfold startTimer
      rw [hown]
      split
      · exact ⟨hfocus, houtcome, hcells⟩
      · refine ⟨rfl, houtcome, fun k hk => ?_⟩
        simp only [hfocus, hcells k hk]
    | now time =>
      refine ⟨hfocus, rfl, fun k hk => ?_⟩
      simp only [startStep, finishTimer, hfocus, hcells k hk]
  keyed := startStep_keyed
  historyItem session :=
    if session.endedAt.parsed = none then none
    else some {
      id := session.timerID
      timerID := session.timerID
      taskID := session.taskID
      commandID := session.terminalCommandID
      phase := session.phase
      status := session.status
      plannedDurationMs := session.plannedDurationMs
      completedAt := if session.status = "completed" then session.endedAt else ⟨"", none⟩
      endedAt := session.endedAt }
  historyItem_timerID session item h := by
    split at h
    · cases h
    · cases h
      rfl
  canonical session :=
    if session.status = "running" then some {
      id := session.timerID
      taskID := session.taskID
      phase := session.phase
      status := session.status
      plannedDurationMs := session.plannedDurationMs
      elapsedAtAnchorMs := session.elapsedAtAnchorMs
      anchorAt := session.anchorAt
      startedByDeviceID := session.startedByDeviceID
      lastIntent := session.lastIntent }
    else none
  continuation command := command.id

theorem runBy_startFold (base : Core) : startFold.RunBy (coreOf startFold base) := by
  refine runBy_coreOf base fun session item h => ?_
  unfold startFold at h
  simp only at h
  split at h
  · cases h
  next hend =>
    cases h
    exact hend

/-! ## Paged and whole -/

/-- Two reductions that both fail, or agree on the timer shown, the history, the
sessions and every command's outcome. -/
def SameResult : Fallible TimerResult → Fallible TimerResult → Prop
  | .ok a, .ok b => a.canonical = b.canonical ∧ a.history = b.history ∧
      a.sessions = b.sessions ∧ ∀ id, a.outcomes.lookup id = b.outcomes.lookup id
  | .error _, .error _ => True
  | _, _ => False

theorem validateTimerOutcomes_ok_iff {a b : AList fun _ : String => CoreTimerOutcome}
    (h : a.entries.Perm b.entries) {commands : List Command} :
    validateTimerOutcomes a commands = .ok () ↔ validateTimerOutcomes b commands = .ok () := by
  unfold validateTimerOutcomes
  simp only [bind_ok_iff, check_ok_iff, checkAll_ok_iff, h.length_eq, h.mem_iff]

/-- Only the order in which the outcomes are listed may differ: the checks do not
see it. -/
theorem validateCoreTimerResult_ok_iff {canonical : CoreNullable CanonicalTimer}
    {history : Option (List HistoryItem)} {sessions : Option (List CoreTimerSession)}
    {a b : AList fun _ : String => CoreTimerOutcome} (h : a.entries.Perm b.entries)
    {commands : List Command} :
    validateCoreTimerResult ⟨canonical, history, sessions, some a⟩ commands = .ok () ↔
      validateCoreTimerResult ⟨canonical, history, sessions, some b⟩ commands = .ok () := by
  unfold validateCoreTimerResult
  cases history with
  | none => rfl
  | some history =>
    cases sessions with
    | none => rfl
    | some sessions =>
      simp only [bind_ok_iff, validateTimerOutcomes_ok_iff h]

theorem lookup_timerOutcomesFromCore (outcomes : AList fun _ : String => CoreTimerOutcome)
    (id : String) :
    (timerOutcomesFromCore outcomes).lookup id = (outcomes.lookup id).map timerOutcomeFromCore := by
  refine Option.ext fun outcome => ?_
  rw [← Option.mem_def, AList.mem_lookup_iff, ← Option.mem_def, Option.mem_map]
  show _ ∈ outcomes.entries.map _ ↔ _
  simp only [List.mem_map, AList.mem_lookup_iff]
  constructor
  · rintro ⟨entry, hentry, heq⟩
    cases heq
    exact ⟨entry.2, hentry, rfl⟩
  · rintro ⟨core, hcore, rfl⟩
    exact ⟨⟨id, core⟩, hcore, rfl⟩

/-- Results decoded from answers that list the same outcomes, in whatever order. -/
theorem timerResultFromCore_lookup {canonical : CoreNullable CanonicalTimer}
    {history : Option (List HistoryItem)} {sessions : Option (List CoreTimerSession)}
    {a b : AList fun _ : String => CoreTimerOutcome} (h : ∀ id, a.lookup id = b.lookup id)
    {commands : List Command} {result : TimerResult}
    (hresult : timerResultFromCore ⟨canonical, history, sessions, some a⟩ commands = .ok result) :
    ∃ result', timerResultFromCore ⟨canonical, history, sessions, some b⟩ commands = .ok result' ∧
      SameResult (.ok result) (.ok result') := by
  have hperm : a.entries.Perm b.entries := by
    refine List.lookup_ext a.nodupKeys b.nodupKeys fun id outcome => ?_
    show outcome ∈ a.lookup id ↔ outcome ∈ b.lookup id
    rw [h]
  obtain ⟨_, hvalid, hresult⟩ := bind_ok_iff.mp hresult
  obtain ⟨decoded, hdecoded, hresult⟩ := bind_ok_iff.mp hresult
  cases hresult
  rw [wrap_ok_iff, validateCoreTimerResult_ok_iff hperm] at hvalid
  refine ⟨_, bind_ok_iff.mpr ⟨(), wrap_ok_iff.mpr hvalid, bind_ok_iff.mpr ⟨decoded, hdecoded, rfl⟩⟩,
    rfl, rfl, rfl, fun id => ?_⟩
  show (timerOutcomesFromCore a).lookup id = (timerOutcomesFromCore b).lookup id
  rw [lookup_timerOutcomesFromCore, lookup_timerOutcomesFromCore, h]

theorem sameResult_timerResultFromCore {canonical : CoreNullable CanonicalTimer}
    {history : Option (List HistoryItem)} {sessions : Option (List CoreTimerSession)}
    {a b : AList fun _ : String => CoreTimerOutcome} (h : ∀ id, a.lookup id = b.lookup id)
    (commands : List Command) :
    SameResult (timerResultFromCore ⟨canonical, history, sessions, some a⟩ commands)
      (timerResultFromCore ⟨canonical, history, sessions, some b⟩ commands) := by
  cases ha : timerResultFromCore ⟨canonical, history, sessions, some a⟩ commands with
  | ok result =>
    obtain ⟨result', hb, hsame⟩ := timerResultFromCore_lookup h ha
    rw [hb]
    exact hsame
  | error e =>
    cases hb : timerResultFromCore ⟨canonical, history, sessions, some b⟩ commands with
    | ok result =>
      obtain ⟨result', hok, -⟩ := timerResultFromCore_lookup (fun id => (h id).symm) hb
      rw [ha] at hok
      cases hok
    | error e' => trivial

/-- What the pages leave is what one reduction of the whole log answers: sessions
and history in the core's order, every command's outcome, the current timer and
what is shown of it. A log of no command has no page, and then nothing is shown. -/
structure PagedIsWhole (fold : TimerFold) (core : Core) (commands : List Command) (now : Time)
    (state : ReplayState) (whole : CoreTimerResult) : Prop where
  pages : replayPagesFrom core now commands {} = .ok state
  reduced : core.timerReduce (coreTimerCommands commands) now.utc = .ok whole
  sessions : whole.sessions = some (orderedReplayProjection state).1
  history : whole.history = some (orderedReplayProjection state).2
  outcomes : ∃ outcomes, whole.outcomes = some outcomes ∧
    ∀ id, state.outcomes.lookup id = outcomes.lookup id
  current : state.current =
    (fold.run (timerEvents (coreTimerCommands commands) (some now.utc)) .empty).focus
  canonical : state.canonical.value = whole.canonical.value
  replayed : commands ≠ [] → SameResult (replayTimerPages core commands now)
    (timerResultFromCore whole commands)
  result : SameResult (reduceTimerWithSharedCore core commands now)
    (timerResultFromCore whole commands)

theorem paged_replay_is_whole_replay (fold : TimerFold) {core : Core} (hcore : fold.RunBy core)
    {commands : List Command} (horder : InLogOrder commands) (now : Time) :
    ∃ state whole, PagedIsWhole fold core commands now state whole := by
  obtain ⟨state, hstate, hcarries, hpresent⟩ := fold.replayPages_carries hcore now horder
  obtain ⟨whole, hwhole, hanswers, hsessions, hhistory⟩ := hcore.reduce
    (coreTimerCommands commands) now.utc (inLogOrder_coreTimerCommands horder)
  obtain ⟨hprojected, hitems⟩ :=
    orderedReplayProjection_eq hcarries hanswers hsessions hhistory
  obtain ⟨outcomes, hgiven, houtcomes⟩ := hanswers.outcomes
  have hsame : ∀ id, state.outcomes.lookup id = outcomes.lookup id :=
    fun id => (hcarries.outcomes id).trans (houtcomes id).symm
  have hshown : state.canonical.value = whole.canonical.value := by
    rw [hcarries.canonical, hanswers.canonical]
  have hpaged : commands ≠ [] → SameResult (replayTimerPages core commands now)
      (timerResultFromCore whole commands) := by
    intro hne
    have hcanonical : state.canonical = whole.canonical := by
      rw [hanswers.canonical, ← hcarries.canonical, ← hpresent hne]
    have hrun : replayTimerPages core commands now = timerResultFromCore
        ⟨whole.canonical, whole.history, whole.sessions, some state.outcomes⟩ commands := by
      unfold replayTimerPages
      rw [show sortBy commandKey commands = commands from horder.insertionSort_eq, hstate,
        hprojected, hitems, ← hcanonical]
      rfl
    rw [hrun, show whole = ⟨whole.canonical, whole.history, whole.sessions, some outcomes⟩ by
      rw [← hgiven]]
    exact sameResult_timerResultFromCore hsame commands
  refine ⟨state, whole, hstate, hwhole, hprojected, hitems, ⟨outcomes, hgiven, hsame⟩,
    hcarries.current, hshown, hpaged, ?_⟩
  unfold reduceTimerWithSharedCore
  split
  next hlong =>
    refine hpaged fun hnil => ?_
    rw [hnil] at hlong
    cases hlong
  next =>
    rw [hwhole]
    show SameResult (timerResultFromCore whole commands) (timerResultFromCore whole commands)
    cases timerResultFromCore whole commands with
    | ok result => exact ⟨rfl, rfl, rfl, fun id => rfl⟩
    | error e => trivial

/-- A start a millisecond after the one before. -/
def scaleCommand (sequence : Nat) : Command where
  id := "s68-scale-" ++ toString sequence
  deviceID := "device-s68"
  deviceSequence := sequence + 1
  timerID := "timer-s68-" ++ toString sequence
  taskID := ""
  type := .start
  phase := .focus
  plannedDurationMs := 1500000
  occurredAt := Time.ofUnixMilli (1753000000000 + sequence)
  hlcWallMs := 1753000000000 + sequence
  hlcCounter := 0
  observedElapsedMs := 0

theorem inLogOrder_scaleCommands (count : Nat) :
    InLogOrder ((List.range count).map scaleCommand) := by
  unfold InLogOrder
  rw [List.pairwise_map]
  refine List.pairwise_lt_range.imp fun {i j} hlt => ?_
  have hkey : commandKey (scaleCommand i) < commandKey (scaleCommand j) := by
    refine Prod.Lex.toLex_lt_toLex.mpr (.inl ?_)
    show (1753000000000 + (i : Int)) < 1753000000000 + j
    omega
  exact hkey.le

/-- Three pages of starts, each of which takes over from the one before. -/
theorem scale_commands_replayed : ∃ state whole,
    PagedIsWhole startFold (coreOf startFold AccountRuns.absentTimerCore)
      ((List.range 600).map scaleCommand) (Time.ofUnixMilli 1753000060000) state whole :=
  paged_replay_is_whole_replay startFold (runBy_startFold AccountRuns.absentTimerCore)
    (inLogOrder_scaleCommands 600) (Time.ofUnixMilli 1753000060000)

end Pomodorough.Store.WholeReplay
