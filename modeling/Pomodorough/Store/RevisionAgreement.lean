import Pomodorough.Library.Rfc3339
import Pomodorough.Library.Versions
import Pomodorough.Store.Acknowledgements
import Pomodorough.Store.PersistedProjection

/-! # Equal revisions, equal accounts

Clients take the revision for the generation of what they are shown, and need no clock to
compare two answers. So two answers of one revision have to tell the same: whichever call
they answer, whenever it was made, and also where a stored response is answered again. They
do, as far as the timer is stored: its canonical timer and the items of its history agree at
millisecond precision, and the settings agree altogether. -/
namespace Pomodorough.Store.RevisionAgreement
open Pomodorough.Library Pomodorough.Library.Fallible
open Pomodorough.Store.Records Pomodorough.Store.SharedCoreValidation
open Pomodorough.Store.SharedCore Pomodorough.Store.OperationLogs
open Pomodorough.Store.OperationDomains
open Pomodorough.Store.Sync Pomodorough.Store.Bootstrap Pomodorough.Store.Transactions
open Pomodorough.Store.AccountRuns Pomodorough.Store.Resolutions Pomodorough.Store.Revisions
open Pomodorough.Store.TimerSoundness Pomodorough.Store.PersistedProjection

/-! ## Answers that agree -/

/-- Both timestamps are read, as instants of one millisecond. -/
def SameMilli (left right : Timestamp) : Prop :=
  ∃ l ∈ left.parsed, ∃ r ∈ right.parsed, l.unixMilli = r.unixMilli

/-- One timer, in what is stored of it. -/
structure SameTimer (a b : CanonicalTimer) : Prop where
  id : a.id = b.id
  taskID : a.taskID = b.taskID
  phase : a.phase = b.phase
  status : a.status = b.status
  plannedDurationMs : a.plannedDurationMs = b.plannedDurationMs
  elapsedAtAnchorMs : a.elapsedAtAnchorMs = b.elapsedAtAnchorMs
  anchorAt : SameMilli a.anchorAt b.anchorAt

structure SameItem (a b : HistoryItem) : Prop where
  taskID : a.taskID = b.taskID
  commandID : a.commandID = b.commandID
  phase : a.phase = b.phase
  status : a.status = b.status
  plannedDurationMs : a.plannedDurationMs = b.plannedDurationMs
  endedAt : SameMilli a.endedAt b.endedAt

structure SameSettings (a b : SyncResult) : Prop where
  tasks : a.tasks = b.tasks
  durationsMs : a.durationsMs = b.durationsMs
  autoStartBreaks : a.autoStartBreaks = b.autoStartBreaks
  selectedTaskID : a.selectedTaskID = b.selectedTaskID

/-- The same timer or none, and nothing else of any timer in either history. -/
structure SameTimers (a b : SyncResult) : Prop where
  canonicalTimer : Option.Rel SameTimer a.canonicalTimer b.canonicalTimer
  history : ∀ x ∈ a.history, ∀ y ∈ b.history, x.timerID = y.timerID → SameItem x y

/-- Time ends the sessions of a log, but whether a log has sessions at all does not depend
on it. -/
def SessionsStay (core : Core) : Prop :=
  ∀ commands now now' a b, reduceTimerWithSharedCore core commands now = .ok a →
    reduceTimerWithSharedCore core commands now' = .ok b → a.sessions = [] → b.sessions = []

/-! ## What is read back -/

section
variable {s t : UserTables} {result other : TimerResult} {time time' : Time} {m m' : Int}

theorem zero_ofUnixMilli (h : (Time.ofUnixMilli m).isZero = true) : m = -62135596800000 := by
  simp only [Time.isZero, Time.ofUnixMilli, Time.zeroUnixNano, beq_iff_eq] at h
  omega

theorem unixMilli_ofUnixMilli_injective
    (h : unixMilli (Time.ofUnixMilli m) = unixMilli (Time.ofUnixMilli m')) : m = m' := by
  unfold unixMilli at h
  split at h
  next hzero =>
    split at h
    next hzero' => exact (zero_ofUnixMilli hzero).trans (zero_ofUnixMilli hzero').symm
    next => cases h
  next =>
    split at h
    next => cases h
    next => simpa using h

/-- An instant that was read back is not just after the zero time. -/
theorem not_justAfterZero (h : unixMilli time = unixMilli (Time.ofUnixMilli m)) :
    ¬ JustAfterZero time := by
  intro hafter
  have hzero : time.isZero = false := by
    simp only [Time.isZero, beq_eq_false_iff_ne]
    exact hafter.1.ne'
  have hmilli : time.unixMilli = -62135596800000 := by
    unfold JustAfterZero Time.zeroUnixNano at hafter
    unfold Time.unixMilli
    omega
  have hsame : some time.unixMilli = unixMilli (Time.ofUnixMilli m) := by
    rw [← h]
    simp [unixMilli, hzero]
  unfold unixMilli at hsame
  split at hsame
  next => cases hsame
  next hnot =>
    rw [Option.some.injEq, Time.ofUnixMilli_unixMilli, hmilli] at hsame
    rw [← hsame] at hnot
    exact hnot rfl

/-- NULL is read as the zero time, which is the instant of its own millisecond. -/
theorem elim_unixMilli : (unixMilli time).elim Time.zero Time.ofUnixMilli =
    Time.ofUnixMilli time.unixMilli := by
  unfold unixMilli
  split
  next hzero =>
    have hnano : time.unixNano = Time.zeroUnixNano := beq_iff_eq.mp hzero
    simp only [Option.elim_none, Time.zero, Time.ofUnixMilli, Time.unixMilli, hnano,
      Time.zeroUnixNano]
    rfl
  next => rfl

theorem elim_ofUnixMilli (ended : Option Int) :
    ∃ m, ended.elim Time.zero Time.ofUnixMilli = Time.ofUnixMilli m := by
  cases ended with
  | none => exact ⟨-62135596800000, rfl⟩
  | some m => exact ⟨m, rfl⟩

/-- The projection of a reduction that has been written, as it is read back. -/
def writtenProjection (result : TimerResult) : MilliProjection :=
  ⟨(result.canonical.map CanonicalTimer.id).getD "",
    result.sessions.map fun session => atMilli (loadSession (sessionRow session))⟩

/-- A reduction that is as what is stored, would be read back as that as well. -/
theorem writtenProjection_of_stored (h : storedProjection s = reducedProjection result) :
    writtenProjection result = storedProjection s := by
  have hsessions : (loadTimerSessionProjection s).map atMilli = result.sessions.map atMilli :=
    congrArg MilliProjection.sessions h
  have hkept : ∀ session ∈ result.sessions, PersistedProjection.Kept session := by
    intro session hmem
    have hread : atMilli session ∈ (loadTimerSessionProjection s).map atMilli := by
      rw [hsessions]
      exact List.mem_map_of_mem hmem
    obtain ⟨_, hloaded, hread⟩ := List.mem_map.mp hread
    obtain ⟨row, -, rfl⟩ := List.mem_map.mp hloaded
    have hanchor : unixMilli session.anchorAt = unixMilli (Time.ofUnixMilli row.anchorAtMs) :=
      (congrArg MilliSession.anchorAt hread).symm
    have hstarted : unixMilli session.startedAt = unixMilli (Time.ofUnixMilli row.startedAtMs) :=
      (congrArg MilliSession.startedAt hread).symm
    have hended : unixMilli session.endedAt =
        unixMilli (row.endedAtMs.elim Time.zero Time.ofUnixMilli) :=
      (congrArg MilliSession.endedAt hread).symm
    obtain ⟨m, hm⟩ := elim_ofUnixMilli row.endedAtMs
    rw [hm] at hended
    exact ⟨not_justAfterZero hanchor, not_justAfterZero hstarted, not_justAfterZero hended⟩
  rw [h]
  unfold writtenProjection reducedProjection
  rw [map_atMilli_iff.mpr hkept]

end

/-! ## What a reduction shows -/

section
variable {core : Core} {commands commands' : List Command} {now now' : Time}
  {output : CoreTimerResult} {result other : TimerResult}

/-- A history item is what is kept of the session of its timer. -/
structure ItemOf (item : HistoryItem) (session : TimerSession) : Prop where
  timerID : item.timerID = session.timerID
  taskID : item.taskID = session.taskID
  commandID : item.commandID = session.terminalCommandID
  phase : item.phase = session.phase
  status : item.status = session.status
  plannedDurationMs : item.plannedDurationMs = session.plannedDurationMs
  endedAt : ∃ ended ∈ item.endedAt.parsed, ended.unixMilli = session.endedAt.unixMilli

structure TimerOf (timer : CanonicalTimer) (session : TimerSession) : Prop where
  id : timer.id = session.timerID
  taskID : timer.taskID = session.taskID
  phase : timer.phase = session.phase
  status : timer.status = session.status
  plannedDurationMs : timer.plannedDurationMs = session.plannedDurationMs
  elapsedAtAnchorMs : timer.elapsedAtAnchorMs = session.elapsedAtAnchorMs
  anchorAt : ∃ anchor ∈ timer.anchorAt.parsed, anchor.unixMilli = session.anchorAt.unixMilli

/-- The canonical timer and the history are drawn from the sessions. -/
structure Drawn (result : TimerResult) : Prop where
  sorted : (result.sessions.map TimerSession.timerID).Pairwise (· < ·)
  canonical : ∀ timer ∈ result.canonical, timer.id ≠ "" ∧
    ∃ session ∈ result.sessions, TimerOf timer session
  history : ∀ item ∈ result.history, ∃ session ∈ result.sessions, ItemOf item session

theorem unixMilli_of_sameInstant {left right : Timestamp} {time : Time}
    (h : SameInstant left right) (hright : right.parsed = some time) :
    ∃ instant ∈ left.parsed, instant.unixMilli = time.unixMilli := by
  obtain ⟨l, hl, r, hr, hsame⟩ := h
  rw [hright] at hr
  cases hr
  exact ⟨l, hl, by unfold Time.unixMilli; rw [hsame]⟩

theorem parseCoreTime_ok {context : String} {value : Timestamp} {time : Time}
    (h : parseCoreTime context value = .ok time) : value.parsed = some time := by
  unfold parseCoreTime at h
  split at h
  next hparsed =>
    cases h
    exact hparsed
  next => cases h

/-- An ended session has an end. -/
theorem text_of_terminal {session : CoreTimerSession}
    (h : validateCoreTimerSession session commands = .ok ()) (hstatus : Terminal session.status) :
    session.endedAt.text ≠ "" := by
  obtain ⟨_, -, h⟩ := bind_ok_iff.mp h
  obtain ⟨_, -, h⟩ := bind_ok_iff.mp h
  obtain ⟨_, -, h⟩ := bind_ok_iff.mp h
  obtain ⟨_, -, h⟩ := bind_ok_iff.mp h
  obtain ⟨_, -, h⟩ := bind_ok_iff.mp h
  obtain ⟨_, hterminal, -⟩ := bind_ok_iff.mp h
  obtain ⟨_, hended, -⟩ := bind_ok_iff.mp hterminal
  rw [check_ok_iff] at hended
  intro htext
  unfold Terminal at hstatus
  simp [htext] at hended
  grind

/-- The session that is decoded from one that agrees with an item. -/
theorem itemOf_decoded {item : HistoryItem} {session : CoreTimerSession} {decoded : TimerSession}
    (hagrees : ItemAgrees item session) (htext : session.endedAt.text ≠ "")
    (h : timerSessionFromCore session = .ok decoded) : ItemOf item decoded := by
  obtain ⟨_, -, h⟩ := bind_ok_iff.mp h
  obtain ⟨_, -, h⟩ := bind_ok_iff.mp h
  obtain ⟨ended, hended, h⟩ := bind_ok_iff.mp h
  cases h
  unfold parseCoreEnd at hended
  rw [if_neg htext] at hended
  exact ⟨hagrees.timerID, hagrees.taskID, hagrees.commandID, hagrees.phase, hagrees.status,
    hagrees.plannedDurationMs, unixMilli_of_sameInstant hagrees.endedAt (parseCoreTime_ok hended)⟩

theorem timerOf_decoded {timer : CanonicalTimer} {session : CoreTimerSession}
    {decoded : TimerSession} (hagrees : CanonicalAgrees timer session)
    (h : timerSessionFromCore session = .ok decoded) : TimerOf timer decoded := by
  obtain ⟨anchor, hanchor, h⟩ := bind_ok_iff.mp h
  obtain ⟨_, -, h⟩ := bind_ok_iff.mp h
  obtain ⟨_, -, h⟩ := bind_ok_iff.mp h
  cases h
  exact ⟨hagrees.id, hagrees.taskID, hagrees.phase, hagrees.status, hagrees.plannedDurationMs,
    hagrees.elapsedAtAnchorMs, unixMilli_of_sameInstant hagrees.anchorAt (parseCoreTime_ok hanchor)⟩

theorem timerResultFromCore_drawn (h : timerResultFromCore output commands = .ok result) :
    Drawn result := by
  refine ⟨timerResultFromCore_sorted h, ?_, ?_⟩
  all_goals
    obtain ⟨_, hvalid, h⟩ := bind_ok_iff.mp h
    obtain ⟨decoded, hdecoded, h⟩ := bind_ok_iff.mp h
    cases h
    rw [wrap_ok_iff] at hvalid
    obtain ⟨history, sessions, outcomes, hhistory, hsessions, -, hchecked⟩ :=
      validateCoreTimerResult_ok hvalid
    rw [hsessions] at hdecoded
  · intro timer htimer
    have htimer : output.canonical.value = some timer := htimer
    have hcanonical := hchecked.canonicalTimer
    rw [htimer] at hcanonical
    obtain ⟨hid, session, hfound, hagrees⟩ := validateCoreCanonical_ok hcanonical
    have hmem := List.mem_of_find?_eq_some hfound
    obtain ⟨kept, hkept⟩ := mapAll_each hdecoded session hmem
    exact ⟨hid, kept, (mem_mapAll hdecoded).mpr ⟨session, hmem, hkept⟩,
      timerOf_decoded hagrees hkept⟩
  · intro item hitem
    have hitem : item ∈ history := by
      rw [hhistory] at hitem
      exact hitem
    obtain ⟨hstatus, session, hfound, hagrees⟩ := hchecked.item hitem
    have hmem := List.mem_of_find?_eq_some hfound
    obtain ⟨_, hordered, -⟩ := bind_ok_iff.mp hchecked.timerSessions
    have hsession := (validateOrderedSessions_sorted hordered).1 session hmem
    have htext := text_of_terminal hsession (hagrees.status ▸ hstatus)
    obtain ⟨kept, hkept⟩ := mapAll_each hdecoded session hmem
    exact ⟨kept, (mem_mapAll hdecoded).mpr ⟨session, hmem, hkept⟩,
      itemOf_decoded hagrees htext hkept⟩

theorem reduceTimerWithSharedCore_drawn
    (h : reduceTimerWithSharedCore core commands now = .ok result) : Drawn result := by
  unfold reduceTimerWithSharedCore replayTimerPages at h
  split at h
  · obtain ⟨_, -, h⟩ := bind_ok_iff.mp h
    exact timerResultFromCore_drawn h
  · obtain ⟨_, -, h⟩ := bind_ok_iff.mp h
    exact timerResultFromCore_drawn h

/-! ## Two reductions with one projection -/

theorem sameMilli_of {left right : Timestamp} {time time' : Time}
    (hleft : ∃ instant ∈ left.parsed, instant.unixMilli = time.unixMilli)
    (hright : ∃ instant ∈ right.parsed, instant.unixMilli = time'.unixMilli)
    (h : time.unixMilli = time'.unixMilli) : SameMilli left right := by
  obtain ⟨l, hl, hltime⟩ := hleft
  obtain ⟨r, hr, hrtime⟩ := hright
  exact ⟨l, hl, r, hr, by rw [hltime, hrtime, h]⟩

/-- The sessions of one timer are read back as the same. -/
theorem Drawn.sessions_agree (hb : Drawn other)
    (h : writtenProjection result = writtenProjection other) {session session' : TimerSession}
    (hmem : session ∈ result.sessions) (hmem' : session' ∈ other.sessions)
    (hid : session.timerID = session'.timerID) :
    atMilli (loadSession (sessionRow session)) = atMilli (loadSession (sessionRow session')) := by
  have hsessions := congrArg MilliProjection.sessions h
  have hread := List.mem_map_of_mem
    (f := fun session => atMilli (loadSession (sessionRow session))) hmem
  rw [show result.sessions.map (fun session => atMilli (loadSession (sessionRow session))) = _ from
    hsessions] at hread
  obtain ⟨found, hfound, hsame⟩ := List.mem_map.mp hread
  have hnodup : (other.sessions.map TimerSession.timerID).Nodup := hb.sorted.imp ne_of_lt
  have hfoundID : found.timerID = session.timerID := congrArg MilliSession.timerID hsame
  obtain rfl : found = session' :=
    List.inj_on_of_nodup_map hnodup hfound hmem' (hfoundID.trans hid)
  exact hsame.symm

theorem sameItem_of {item item' : HistoryItem} {session session' : TimerSession}
    (hitem : ItemOf item session) (hitem' : ItemOf item' session')
    (h : atMilli (loadSession (sessionRow session)) =
      atMilli (loadSession (sessionRow session'))) : SameItem item item' := by
  simp only [atMilli, loadSession, sessionRow, getD_nullString, MilliSession.mk.injEq] at h
  obtain ⟨-, htask, hphase, hstatus, hplanned, -, -, -, hended, -, hterminal, -⟩ := h
  rw [elim_unixMilli, elim_unixMilli] at hended
  refine ⟨?_, ?_, ?_, ?_, ?_,
    sameMilli_of hitem.endedAt hitem'.endedAt (unixMilli_ofUnixMilli_injective hended)⟩
  · rw [hitem.taskID, hitem'.taskID, htask]
  · rw [hitem.commandID, hitem'.commandID, hterminal]
  · rw [hitem.phase, hitem'.phase, hphase]
  · rw [hitem.status, hitem'.status, hstatus]
  · rw [hitem.plannedDurationMs, hitem'.plannedDurationMs, hplanned]

theorem sameTimer_of {timer timer' : CanonicalTimer} {session session' : TimerSession}
    (htimer : TimerOf timer session) (htimer' : TimerOf timer' session')
    (h : atMilli (loadSession (sessionRow session)) =
      atMilli (loadSession (sessionRow session'))) : SameTimer timer timer' := by
  simp only [atMilli, loadSession, sessionRow, getD_nullString, MilliSession.mk.injEq] at h
  obtain ⟨hid, htask, hphase, hstatus, hplanned, helapsed, hanchor, -⟩ := h
  refine ⟨?_, ?_, ?_, ?_, ?_, ?_,
    sameMilli_of htimer.anchorAt htimer'.anchorAt (unixMilli_ofUnixMilli_injective hanchor)⟩
  · rw [htimer.id, htimer'.id, hid]
  · rw [htimer.taskID, htimer'.taskID, htask]
  · rw [htimer.phase, htimer'.phase, hphase]
  · rw [htimer.status, htimer'.status, hstatus]
  · rw [htimer.plannedDurationMs, htimer'.plannedDurationMs, hplanned]
  · rw [htimer.elapsedAtAnchorMs, htimer'.elapsedAtAnchorMs, helapsed]

theorem Drawn.canonical_agree (ha : Drawn result) (hb : Drawn other)
    (h : writtenProjection result = writtenProjection other) :
    Option.Rel SameTimer result.canonical other.canonical := by
  have hid : (result.canonical.map CanonicalTimer.id).getD "" =
      (other.canonical.map CanonicalTimer.id).getD "" := congrArg MilliProjection.currentID h
  cases hresult : result.canonical with
  | none =>
    cases hother : other.canonical with
    | none => exact .none
    | some timer' =>
      rw [hresult, hother] at hid
      exact absurd hid.symm (hb.canonical timer' hother).1
  | some timer =>
    cases hother : other.canonical with
    | none =>
      rw [hresult, hother] at hid
      exact absurd hid (ha.canonical timer hresult).1
    | some timer' =>
      rw [hresult, hother] at hid
      obtain ⟨-, session, hmem, htimer⟩ := ha.canonical timer hresult
      obtain ⟨-, session', hmem', htimer'⟩ := hb.canonical timer' hother
      have hsame : session.timerID = session'.timerID := by
        rw [← htimer.id, ← htimer'.id]
        exact hid
      exact .some (sameTimer_of htimer htimer' (hb.sessions_agree h hmem hmem' hsame))

theorem Drawn.history_agree (ha : Drawn result) (hb : Drawn other)
    (h : writtenProjection result = writtenProjection other) :
    ∀ x ∈ result.history, ∀ y ∈ other.history, x.timerID = y.timerID → SameItem x y := by
  intro x hx y hy hid
  obtain ⟨session, hmem, hitem⟩ := ha.history x hx
  obtain ⟨session', hmem', hitem'⟩ := hb.history y hy
  have hsame : session.timerID = session'.timerID := by rw [← hitem.timerID, ← hitem'.timerID, hid]
  exact sameItem_of hitem hitem' (hb.sessions_agree h hmem hmem' hsame)

end

/-! ## What an answer tells -/

/-- The answer shows what the reduction found. -/
structure Shows (reduction : AccountReduction) (result : SyncResult) : Prop where
  canonicalTimer : result.canonicalTimer = reduction.timer.canonical
  history : result.history = reduction.timer.history
  tasks : result.tasks = reduction.tasks
  durationsMs : result.durationsMs = reduction.durations
  autoStartBreaks : result.autoStartBreaks = reduction.autoStartBreaks
  selectedTaskID : result.selectedTaskID = reduction.selectedTaskID

/-- The reduction is of the logs of the state, and its projection is what is stored. -/
structure Reduction (core : Core) (now : Time) (s : UserTables) (reduction : AccountReduction) :
    Prop where
  reduced : ∃ u, reduceAccount core u now = .ok reduction ∧ ∀ d : Domain, d.loaded u = d.loaded s
  written : writtenProjection reduction.timer = storedProjection s

/-- The two states have one account. -/
structure SameAccount (core : Core) (s t : UserTables) : Prop where
  loaded : ∀ d : Domain, d.loaded s = d.loaded t
  projection : SessionsStay core → storedProjection s = storedProjection t

structure Tells (core : Core) (s : UserTables) (result : SyncResult) : Prop where
  reduced : ∃ u now reduction, reduceAccount core u now = .ok reduction ∧
    (∀ d : Domain, d.loaded u = d.loaded s) ∧ Shows reduction result ∧
    (SessionsStay core → writtenProjection reduction.timer = storedProjection s)

section
variable {core : Core} {sha256 : Sha256} {s t u u' v : UserTables} {now now' : Time} {call : Call}
  {reduction other : AccountReduction} {event : Event} {events : List Event}
  {result a b : SyncResult}

/-- An answer that differs in other fields only, shows the same. -/
theorem Shows.congr (h : Shows reduction a) (canonicalTimer : b.canonicalTimer = a.canonicalTimer)
    (history : b.history = a.history) (tasks : b.tasks = a.tasks)
    (durationsMs : b.durationsMs = a.durationsMs)
    (autoStartBreaks : b.autoStartBreaks = a.autoStartBreaks)
    (selectedTaskID : b.selectedTaskID = a.selectedTaskID) : Shows reduction b :=
  ⟨canonicalTimer.trans h.canonicalTimer, history.trans h.history, tasks.trans h.tasks,
    durationsMs.trans h.durationsMs, autoStartBreaks.trans h.autoStartBreaks,
    selectedTaskID.trans h.selectedTaskID⟩

theorem SameAccount.trans (h : SameAccount core s t) (h' : SameAccount core t u) :
    SameAccount core s u :=
  ⟨fun d => (h.loaded d).trans (h'.loaded d),
    fun hstay => (h.projection hstay).trans (h'.projection hstay)⟩

theorem Tells.of_same (h : Tells core t result) (hsame : SameAccount core s t) :
    Tells core s result := by
  obtain ⟨u, now, reduction, hreduced, hloaded, hshows, hwritten⟩ := h.reduced
  exact ⟨u, now, reduction, hreduced, fun d => (hloaded d).trans (hsame.loaded d).symm, hshows,
    fun hstay => (hwritten hstay).trans (hsame.projection hstay).symm⟩

/-- The settings of one log are one, whenever it is reduced. -/
theorem settings_of_loaded (h : reduceAccount core u now = .ok reduction)
    (h' : reduceAccount core u' now' = .ok other)
    (hloaded : ∀ d : Domain, d.loaded u = d.loaded u') :
    reduction.tasks = other.tasks ∧ reduction.durations = other.durations ∧
      reduction.autoStartBreaks = other.autoStartBreaks ∧
      reduction.selectedTaskID = other.selectedTaskID := by
  have htask : loadTaskOperations u = loadTaskOperations u' := hloaded .task
  have hduration : loadDurationOperations u = loadDurationOperations u' := hloaded .duration
  have hautoStart : loadAutoStartOperations u = loadAutoStartOperations u' := hloaded .autoStart
  have hselectedTask : loadSelectedTaskOperations u = loadSelectedTaskOperations u' :=
    hloaded .selectedTask
  obtain ⟨_, -, h⟩ := bind_ok_iff.mp h
  obtain ⟨_, -, h⟩ := bind_ok_iff.mp h
  obtain ⟨tasks, htasks, h⟩ := bind_ok_iff.mp h
  obtain ⟨durations, hdurations, h⟩ := bind_ok_iff.mp h
  obtain ⟨autoStart, hstart, h⟩ := bind_ok_iff.mp h
  obtain ⟨selectedTask, hselected, h⟩ := bind_ok_iff.mp h
  cases h
  obtain ⟨_, -, h'⟩ := bind_ok_iff.mp h'
  obtain ⟨_, -, h'⟩ := bind_ok_iff.mp h'
  obtain ⟨tasks', htasks', h'⟩ := bind_ok_iff.mp h'
  obtain ⟨durations', hdurations', h'⟩ := bind_ok_iff.mp h'
  obtain ⟨autoStart', hstart', h'⟩ := bind_ok_iff.mp h'
  obtain ⟨selectedTask', hselected', h'⟩ := bind_ok_iff.mp h'
  cases h'
  rw [htask, htasks'] at htasks
  cases htasks
  rw [hduration, hdurations'] at hdurations
  cases hdurations
  rw [hautoStart, hstart'] at hstart
  cases hstart
  rw [hselectedTask, hselected'] at hselected
  cases hselected
  exact ⟨rfl, rfl, rfl, rfl⟩

/-- What two answers tell of one state, agrees. -/
theorem agree_of_tells (ha : Tells core s a) (hb : Tells core s b) :
    SameSettings a b ∧ (SessionsStay core → SameTimers a b) := by
  obtain ⟨u, now, reduction, hreduced, hloaded, hshows, hwritten⟩ := ha.reduced
  obtain ⟨u', now', other, hreduced', hloaded', hshows', hwritten'⟩ := hb.reduced
  obtain ⟨htasks, hdurations, hautoStart, hselectedTask⟩ :=
    settings_of_loaded hreduced hreduced' fun d => (hloaded d).trans (hloaded' d).symm
  constructor
  · refine ⟨?_, ?_, ?_, ?_⟩
    · rw [hshows.tasks, hshows'.tasks, htasks]
    · rw [hshows.durationsMs, hshows'.durationsMs, hdurations]
    · rw [hshows.autoStartBreaks, hshows'.autoStartBreaks, hautoStart]
    · rw [hshows.selectedTaskID, hshows'.selectedTaskID, hselectedTask]
  · intro hstay
    have hprojection := (hwritten hstay).trans (hwritten' hstay).symm
    have hdrawn := reduceTimerWithSharedCore_drawn (reduceAccount_timer hreduced)
    have hdrawn' := reduceTimerWithSharedCore_drawn (reduceAccount_timer hreduced')
    constructor
    · rw [hshows.canonicalTimer, hshows'.canonicalTimer]
      exact hdrawn.canonical_agree hdrawn' hprojection
    · rw [hshows.history, hshows'.history]
      exact hdrawn.history_agree hdrawn' hprojection

/-! ## What a call tells -/

theorem resultFromReduction_shows {revision : Int} {asked : Option SyncRequest}
    (h : resultFromReduction core reduction revision now asked = .ok result) :
    Shows reduction result := by
  obtain ⟨_, -, h⟩ := bind_ok_iff.mp h
  cases h
  exact ⟨rfl, rfl, rfl, rfl, rfl, rfl⟩

theorem stored_of_not_changed {timer : TimerResult} (h : timerProjectionChanged s timer = false) :
    storedProjection s = reducedProjection timer := by
  rw [← Bool.not_eq_true, timerProjectionChanged_iff, not_not] at h
  exact h

/-- A commit leaves the projection of its reduction stored. -/
theorem written_of_commit {changed : Bool} (h : Commit core now u reduction changed v)
    (hunchanged : changed = false → storedProjection u = reducedProjection reduction.timer) :
    writtenProjection reduction.timer = storedProjection v := by
  obtain hv | ⟨hc, rfl⟩ := h.written
  · have hdrawn := reduceTimerWithSharedCore_drawn (reduceAccount_timer h.reduced)
    rw [hv, storedProjection_persisted hdrawn.sorted]
    rfl
  · exact writtenProjection_of_stored (hunchanged hc)

theorem told_sync {request : SyncRequest} (h : sync core s request now = .ok (t, result)) :
    ∃ reduction, Reduction core now t reduction ∧ Shows reduction result := by
  obtain ⟨u, applied, reduction, hcommit⟩ := sync_ok h
  obtain ⟨base, hbase, rfl⟩ := hcommit.result
  have hshows := resultFromReduction_shows hbase
  refine ⟨reduction, ⟨⟨u, hcommit.commit.reduced, fun d => ?_⟩, ?_⟩,
    hshows.congr rfl rfl rfl rfl rfl rfl⟩
  · exact d.loaded_congr (hcommit.commit.log d).symm
  · refine written_of_commit hcommit.commit fun hc => ?_
    rw [Bool.or_eq_false_iff] at hc
    exact stored_of_not_changed hc.2

theorem told_materialize (h : materializeProjection core s now = .ok (t, result)) :
    ∃ reduction, Reduction core now t reduction ∧ Shows reduction result := by
  obtain ⟨reduction, hcommit⟩ := materializeProjection_ok h
  obtain ⟨base, hbase, rfl⟩ := hcommit.result
  have hshows := resultFromReduction_shows hbase
  refine ⟨reduction, ⟨⟨s, hcommit.commit.reduced, fun d => ?_⟩, ?_⟩,
    hshows.congr rfl rfl rfl rfl rfl rfl⟩
  · exact d.loaded_congr (hcommit.commit.log d).symm
  · exact written_of_commit hcommit.commit stored_of_not_changed

theorem told_resolve {request : BootstrapResolutionRequest}
    {application : BootstrapStrategyApplication}
    (h : ResolveCommit core sha256 s request now u application v t result) :
    ∃ reduction, Reduction core now t reduction ∧ Shows reduction result := by
  obtain ⟨base, hbase, rfl⟩ := h.result
  have hshows := resultFromReduction_shows hbase
  have hlog : ∀ d : Domain, d.log t = d.log v := by
    intro d
    rw [h.recorded]
    cases d <;> rfl
  refine ⟨application.reduction, ⟨⟨u, h.commit.reduced, fun d => ?_⟩, ?_⟩, ?_⟩
  · exact d.loaded_congr ((hlog d).trans (h.commit.log d)).symm
  · have hprojection : storedProjection t = storedProjection v := by
      rw [h.recorded]
      rfl
    rw [hprojection]
    refine written_of_commit h.commit fun hc => ?_
    rw [Bool.or_eq_false_iff] at hc
    exact stored_of_not_changed hc.2
  · split
    · exact hshows.congr rfl rfl rfl rfl rfl rfl
    · exact hshows.congr rfl rfl rfl rfl rfl rfl

/-- A call that is not answered from a stored response tells of the state it leaves. -/
theorem told_exec (hs : ValidLogs s) (hfound : found s call = none)
    (h : call.exec core sha256 now s = .ok (t, result)) :
    ∃ reduction, Reduction core now t reduction ∧ Shows reduction result := by
  cases call with
  | sync request => exact told_sync h
  | bootstrap => exact told_materialize h
  | history => exact told_materialize h
  | resolveBootstrap request =>
    obtain ⟨stored, hreplay, -⟩ | ⟨u, application, v, hcommit⟩ :=
      resolveBootstrap_ok (validLogs_strategyBase hs).utc h
    · have hnone : s.bootstrapResolutions.lookup request.requestID = none := hfound
      rw [hreplay.found] at hnone
      cases hnone
    · exact told_resolve hcommit

/-! ## Runs -/

/-- The law of a call that is not answered from a stored response, or of one that is. -/
theorem law_of_found_none (h : StepLaw core s ⟨call, now, .ok result⟩ t)
    (hfound : found s call = none) : CommitLaw core call now s t result := by
  unfold StepLaw at h
  dsimp only at h
  rw [hfound] at h
  exact h

theorem law_of_found_some {stored : BootstrapResolution}
    (h : StepLaw core s ⟨call, now, .ok result⟩ t) (hfound : found s call = some stored) :
    t = s ∧ result.revision = stored.response.revision := by
  unfold StepLaw at h
  dsimp only at h
  rw [hfound] at h
  exact h

/-- The projection of a new account is empty, and what is stored later a reduction wrote. -/
structure Founded (core : Core) (s : UserTables) : Prop where
  logs : ValidLogs s
  revision : ValidRevision s.revision
  projection : storedProjection s = ⟨"", []⟩ ∨ ∃ now reduction, Reduction core now s reduction

theorem founded_initial : Founded core .initial :=
  ⟨validLogs_initial, ⟨le_refl _, by decide⟩, .inl rfl⟩

theorem Founded.step (hs : Founded core s) (h : Step core sha256 s event t) : Founded core t := by
  have hlaw := stepLaw hs.logs h
  refine ⟨validLogs_run hs.logs (.cons h .nil), (hlaw.revision hs.revision).1, ?_⟩
  obtain ⟨call, now, answer⟩ := event
  obtain ⟨result, hanswer, hexec⟩ | ⟨-, rfl⟩ := h.cases_answer
  · cases hfound : found s call with
    | none =>
      obtain ⟨reduction, hreduction, -⟩ := told_exec hs.logs hfound hexec
      exact .inr ⟨now, reduction, hreduction⟩
    | some stored =>
      cases hanswer
      obtain ⟨rfl, -⟩ := law_of_found_some hlaw hfound
      exact hs.projection
  · exact hs.projection

/-- A reduction of the same logs at the same time has the same timers. -/
theorem Reduction.timer_eq (h : Reduction core now t other)
    (hreduced : reduceAccount core t now = .ok reduction) : reduction.timer = other.timer := by
  obtain ⟨u, hother, hloaded⟩ := h.reduced
  have hcommands : loadCommands u = loadCommands t := hloaded .timer
  have htimer := reduceAccount_timer hother
  rw [hcommands, reduceAccount_timer hreduced] at htimer
  exact Except.ok.inj htimer

theorem loaded_of_unchanged (hs : ValidLogs s) (h : Step core sha256 s event t)
    (hlogs : ¬ LogsChanged event.call s t) (d : Domain) : d.loaded s = d.loaded t := by
  rw [loaded_eq_iff hs (validLogs_run hs (.cons h .nil))]
  unfold LogsChanged at hlogs
  cases hreplaces : replaces event.call with
  | true =>
    rw [hreplaces, if_pos rfl] at hlogs
    unfold LogsDiffer at hlogs
    push Not at hlogs
    exact hlogs d
  | false =>
    rw [hreplaces, if_neg Bool.false_ne_true] at hlogs
    unfold Inserted at hlogs
    push Not at hlogs
    have hkept := ((Acknowledgements.kept_step hs h hreplaces).logs d).subset
    exact fun x => ⟨fun hx => hkept hx, fun hx => hlogs d x hx⟩

/-- A log without sessions has an empty projection, whenever it is written. -/
theorem Founded.empty (hs : Founded core s) (hstay : SessionsStay core)
    (hreduced : reduceAccount core u now = .ok reduction)
    (hloaded : ∀ d : Domain, d.loaded u = d.loaded s) (hnone : reduction.timer.sessions = []) :
    storedProjection s = ⟨"", []⟩ := by
  obtain hempty | ⟨now', other, hother⟩ := hs.projection
  · exact hempty
  · obtain ⟨u', hreduced', hloaded'⟩ := hother.reduced
    have hcommands : loadCommands u = loadCommands u' :=
      (hloaded .timer).trans (hloaded' .timer).symm
    have htimer := reduceAccount_timer hreduced
    have htimer' := reduceAccount_timer hreduced'
    rw [hcommands] at htimer
    have hsessions := hstay _ _ _ _ _ htimer htimer' hnone
    rw [← hother.written]
    unfold writtenProjection
    rw [hsessions]
    cases hcanonical : other.timer.canonical with
    | none => rfl
    | some timer =>
      obtain ⟨-, session, hmem, -⟩ :=
        (reduceTimerWithSharedCore_drawn htimer').canonical timer hcanonical
      rw [hsessions] at hmem
      cases hmem

/-- A transaction that leaves the revision leaves the account. -/
theorem Founded.unchanged (hs : Founded core s) (h : Step core sha256 s event t)
    (hrevision : t.revision = s.revision) : SameAccount core s t := by
  have ht := hs.step h
  have hlaw := stepLaw hs.logs h
  obtain ⟨call, now, answer⟩ := event
  obtain ⟨result, hanswer, hexec⟩ | ⟨-, rfl⟩ := h.cases_answer
  · cases hanswer
    cases hfound : found s call with
    | some stored =>
      obtain ⟨rfl, -⟩ := law_of_found_some hlaw hfound
      exact ⟨fun _ => rfl, fun _ => rfl⟩
    | none =>
      obtain ⟨other, hother, -⟩ := told_exec hs.logs hfound hexec
      obtain ⟨reduction, hreduced, hchanged, -⟩ := (law_of_found_none hlaw hfound).revision
      have hsame : ¬ (LogsChanged call s t ∨
          comparedProjection call s ≠ reducedProjection reduction.timer) := by
        intro hc
        have hnext := hchanged hc
        omega
      rw [not_or, not_not] at hsame
      obtain ⟨hlogs, hprojection⟩ := hsame
      have hloaded := loaded_of_unchanged hs.logs h hlogs
      refine ⟨hloaded, fun hstay => ?_⟩
      rw [← hother.written, ← hother.timer_eq hreduced]
      unfold comparedProjection at hprojection
      split at hprojection
      next =>
        -- a replacement is compared with no timers at all
        have hnone : reduction.timer.sessions = [] := by
          have hsessions := congrArg MilliProjection.sessions hprojection
          exact List.map_eq_nil_iff.mp hsessions.symm
        have hempty := ht.empty hstay hreduced (fun _ => rfl) hnone
        rw [hs.empty hstay hreduced (fun d => (hloaded d).symm) hnone, hother.timer_eq hreduced,
          hother.written, hempty]
      next => exact (writtenProjection_of_stored hprojection).symm
  · exact ⟨fun _ => rfl, fun _ => rfl⟩

/-! ## The account by its revision -/

/-- The answers of an account as reports of it; the stored resolutions are what it can
answer again. -/
def answers (core : Core) (sha256 : Sha256) : Versions.System UserTables Event SyncResult Int where
  step := Step core sha256
  version := UserTables.revision
  same := SameAccount core
  report event := event.answer.toOption
  reported := SyncResult.revision
  tells := Tells core
  remembers s result :=
    ∃ id stored, s.bootstrapResolutions.lookup id = some stored ∧ stored.response = result

theorem toOption_some {answer : Fallible SyncResult} (h : answer.toOption = some result) :
    answer = .ok result := by
  cases answer with
  | ok answer => exact congrArg Except.ok (Option.some.inj h)
  | error e => cases h

theorem normalizeStoredSyncResult_tells {stored : SyncResult}
    (h : normalizeStoredSyncResult (decodeStoredResponse stored) = .ok result)
    (htells : Tells core s stored) : Tells core s result := by
  obtain ⟨u, now, reduction, hreduced, hloaded, hshows, hwritten⟩ := htells.reduced
  refine ⟨u, now, reduction, hreduced, hloaded, ?_, hwritten⟩
  have hshows' : Shows reduction (decodeStoredResponse stored) :=
    hshows.congr rfl rfl rfl rfl rfl rfl
  unfold normalizeStoredSyncResult at h
  split at h
  · cases h
    exact hshows'
  · obtain ⟨_, -, h⟩ := bind_ok_iff.mp h
    cases h
    exact hshows'.congr rfl rfl rfl rfl rfl rfl

theorem tells_of_reduction (h : Reduction core now t reduction) (hshows : Shows reduction result) :
    Tells core t result := by
  obtain ⟨u, hreduced, hloaded⟩ := h.reduced
  exact ⟨u, now, reduction, hreduced, hloaded, hshows, fun _ => h.written⟩

/-- An answer tells of the state it leaves, at its revision, unless it is a stored one. -/
theorem answer_tells (hs : Founded core s) (h : Step core sha256 s event t)
    (hanswer : event.answer = .ok result) :
    (Tells core t result ∧ result.revision = t.revision) ∨
      ∃ stored, found s event.call = some stored ∧ result.revision = stored.response.revision ∧
        ∀ u, Tells core u stored.response → Tells core u result := by
  have hlaw := stepLaw hs.logs h
  obtain ⟨call, now, answer⟩ := event
  cases hanswer
  obtain ⟨result, hanswer, hexec⟩ | ⟨⟨_, herror⟩, -⟩ := h.cases_answer
  · cases hanswer
    cases hfound : found s call with
    | none =>
      obtain ⟨reduction, hreduction, hshows⟩ := told_exec hs.logs hfound hexec
      exact .inl ⟨tells_of_reduction hreduction hshows, (law_of_found_none hlaw hfound).reported⟩
    | some stored =>
      refine .inr ⟨stored, rfl, (law_of_found_some hlaw hfound).2, fun u => ?_⟩
      cases call with
      | resolveBootstrap request =>
        obtain ⟨-, hreplay⟩ := resolveBootstrap_of_stored hfound hexec
        exact normalizeStoredSyncResult_tells hreplay.result
      | _ => cases hfound
  · cases herror

theorem answers_lawful (core : Core) (sha256 : Sha256) :
    Versions.Lawful (answers core sha256) (Founded core) where
  kept hs h := hs.step h
  grows hs h := ((stepLaw hs.logs h).revision hs.revision).2
  unchanged hs h hrevision := hs.unchanged h hrevision
  refl _ := ⟨fun _ => rfl, fun _ => rfl⟩
  trans h h' := h.trans h'
  tells_same hsame htells := htells.of_same hsame
  reports := by
    intro s event t result hs h hreport
    obtain htold | ⟨stored, hfound, hrevision, htells⟩ := answer_tells hs h (toOption_some hreport)
    · exact .inl htold
    · cases hcall : event.call with
      | resolveBootstrap request =>
        rw [hcall] at hfound
        exact .inr ⟨stored.response, ⟨request.requestID, stored, hfound, rfl⟩, hrevision, htells⟩
      | _ =>
        rw [hcall] at hfound
        cases hfound
  remembers := by
    intro s event t result hs h hremembers
    obtain ⟨id, stored, hstored, rfl⟩ := hremembers
    obtain hearlier | ⟨request, result, u, application, v, hcall, hanswer, hid, rfl, hcommit⟩ :=
      exists_commit_of_stored hs.logs h hstored
    · exact .inl ⟨id, stored, hearlier, rfl⟩
    · refine .inr ⟨?_, ?_⟩
      · show event.answer.toOption = _
        rw [hanswer]
        rfl
      · obtain ⟨reduction, hreduction, hshows⟩ := told_resolve hcommit
        exact ⟨tells_of_reduction hreduction hshows, (resolve_law hs.logs hcommit).reported⟩

theorem runs_of_run (h : Run core sha256 s events t) :
    Versions.Runs (answers core sha256) s events t := by
  induction h with
  | nil => exact .nil
  | cons hstep _ ih => exact .cons hstep ih

end

/-- Equal revisions mean equal accounts: in every run of a new account, two answers that
report one revision agree, whichever calls they answer and whenever, on all settings; and
on the timer and each history item in what is stored of them, where a log's having
sessions does not depend on the time. -/
theorem answers_agree {core : Core} {sha256 : Sha256} {events : List Event} {v : UserTables}
    (h : Run core sha256 .initial events v) :
    ∀ first ∈ events, ∀ second ∈ events, ∀ a b, first.answer = .ok a → second.answer = .ok b →
      a.revision = b.revision → SameSettings a b ∧ (SessionsStay core → SameTimers a b) := by
  intro first hfirst second hsecond a b ha hb hrevision
  have hreport : ∀ {event : Event} {result : SyncResult}, event.answer = .ok result →
      (answers core sha256).report event = some result := by
    intro event result hanswer
    show event.answer.toOption = _
    rw [hanswer]
    rfl
  have hnew : ∀ result, ¬ (answers core sha256).remembers .initial result := by
    intro result hremembers
    obtain ⟨id, stored, hstored, -⟩ := hremembers
    cases hstored
  obtain ⟨u, htold, htold'⟩ := (answers_lawful core sha256).told_of_same_version founded_initial
    (runs_of_run h) hnew hfirst hsecond (hreport ha) (hreport hb) hrevision
  exact agree_of_tells htold htold'

/-! ## A timer that time ends -/

def timestamp (time : Time) : Timestamp :=
  ⟨String.ofList (Rfc3339.format time.unixNano), some time⟩

def deadline (command : Command) : Time :=
  Time.ofUnixMilli (command.occurredAt.unixMilli + command.plannedDurationMs)

/-- The session of a start, which completes when its time is over. -/
def startedSession (command : Command) (now : Time) : CoreTimerSession :=
  let ended := (deadline command).unixNano ≤ now.unixNano
  { timerID := command.timerID
    taskID := command.taskID
    phase := command.phase.text
    status := if ended then "completed" else "running"
    plannedDurationMs := command.plannedDurationMs
    elapsedAtAnchorMs := if ended then command.plannedDurationMs else 0
    anchorAt := timestamp (if ended then deadline command else command.occurredAt)
    startedAt := timestamp command.occurredAt
    startedByDeviceID := command.deviceID
    endedAt := if ended then timestamp (deadline command) else ⟨"", none⟩
    lastCommandID := command.id
    terminalCommandID := ""
    supersededByTimerID := ""
    lastIntent := none }

def startedTimer (session : CoreTimerSession) : CanonicalTimer where
  id := session.timerID
  taskID := session.taskID
  phase := session.phase
  status := session.status
  plannedDurationMs := session.plannedDurationMs
  elapsedAtAnchorMs := session.elapsedAtAnchorMs
  anchorAt := session.anchorAt
  startedByDeviceID := session.startedByDeviceID
  lastIntent := session.lastIntent

def completedTimer (session : CoreTimerSession) : HistoryItem where
  id := session.timerID
  timerID := session.timerID
  taskID := session.taskID
  commandID := session.terminalCommandID
  phase := session.phase
  status := session.status
  plannedDurationMs := session.plannedDurationMs
  completedAt := session.endedAt
  endedAt := session.endedAt

/-- A core for a log of at most one start. -/
def deadlineCore : Core :=
  { absentTimerCore with
    timerReduce := fun commands now => match commands with
      | [] => .ok ⟨⟨true, none⟩, some [], some [], some ∅⟩
      | [command] =>
        let session := startedSession command now
        let outcomes := (∅ : AList fun _ : String => CoreTimerOutcome).insert command.id
          ⟨some "applied", some ""⟩
        if session.status = "running" then
          .ok ⟨⟨true, some (startedTimer session)⟩, some [], some [session], some outcomes⟩
        else .ok ⟨⟨true, none⟩, some [completedTimer session], some [session], some outcomes⟩
      | _ => .error (fail "more than one command") }

def startRequest : SyncRequest :=
  ⟨"device-a", 0, [{ pauseAbsent "command-1" "device-a" 1000 with type := .start }], [], [], [], []⟩

def startCalls : List (Call × Time) :=
  [(.sync startRequest, Time.ofUnixMilli 2000), (.bootstrap, Time.ofUnixMilli 3000),
    (.history, Time.ofUnixMilli 1600000), (.sync startRequest, Time.ofUnixMilli 1700000)]

theorem sessions_of_core {output : CoreTimerResult} {commands : List Command}
    {result : TimerResult} (h : timerResultFromCore output commands = .ok result) :
    result.sessions.map TimerSession.timerID =
      (output.sessions.getD []).map CoreTimerSession.timerID := by
  obtain ⟨_, -, h⟩ := bind_ok_iff.mp h
  obtain ⟨decoded, hdecoded, h⟩ := bind_ok_iff.mp h
  cases h
  exact mapAll_map hdecoded fun session decoded hsession => timerSessionFromCore_timerID hsession

/-- A log of one start has its session at any time. -/
theorem sessionsStay_deadlineCore : SessionsStay deadlineCore := by
  intro commands now now' a b ha hb hnone
  unfold reduceTimerWithSharedCore at ha hb
  by_cases hpaged : timerReplayPageSize < commands.length
  · rw [if_pos hpaged] at ha
    obtain ⟨state, hstate, -⟩ := bind_ok_iff.mp ha
    cases hsorted : KeyedLog.sortBy commandKey commands with
    | nil =>
      have hperm : (KeyedLog.sortBy commandKey commands).Perm commands := KeyedLog.sortBy_perm
      have hlength := hperm.length_eq
      rw [hsorted] at hlength
      rw [← hlength] at hpaged
      cases hpaged
    | cons command rest =>
      rw [hsorted] at hstate
      unfold replayPagesFrom at hstate
      obtain ⟨page, hpage, -⟩ := bind_ok_iff.mp hstate
      cases hpage
  · rw [if_neg hpaged] at ha hb
    obtain ⟨output, houtput, ha⟩ := bind_ok_iff.mp ha
    obtain ⟨other, hother, hb⟩ := bind_ok_iff.mp hb
    have hnoneA := sessions_of_core ha
    have hsessions := sessions_of_core hb
    rw [hnone] at hnoneA
    match commands with
    | [] =>
      cases hother
      exact List.map_eq_nil_iff.mp hsessions
    | [command] =>
      have hone : output.sessions.getD [] ≠ [] := by
        intro hempty
        change (if _ then _ else _) = _ at houtput
        split at houtput
        · cases houtput
          cases hempty
        · cases houtput
          cases hempty
      exact absurd (List.map_eq_nil_iff.mp hnoneA.symm) hone
    | _ :: _ :: _ => cases houtput

/-- What the calls of the start are answered with. -/
def startAnswers : List (Option SyncResult) :=
  (performAll deadlineCore (fun _ => 0) .initial startCalls).1.map fun event =>
    event.answer.toOption

/-- The start is running at its two answers of the first revision, and completed at the two
of the second. -/
theorem answers_agree_completed :
    ∃ running running' completed completed',
      startAnswers = [some running, some running', some completed, some completed'] ∧
        running.canonicalTimer ≠ none ∧ SameTimers running running' ∧
        completed.history ≠ [] ∧ SameTimers completed completed' := by
  have hshown : startAnswers.map (fun answer => answer.map fun result =>
      (result.revision, result.canonicalTimer.isSome, result.history.length)) =
        [some (1, true, 0), some (1, true, 0), some (2, false, 1), some (2, false, 1)] := by
    decide +kernel
  obtain ⟨_, _, hanswers, hfirst, hshown⟩ := List.map_eq_cons_iff.mp hshown
  obtain ⟨_, _, rfl, hsecond, hshown⟩ := List.map_eq_cons_iff.mp hshown
  obtain ⟨_, _, rfl, hthird, hshown⟩ := List.map_eq_cons_iff.mp hshown
  obtain ⟨_, _, rfl, hfourth, hshown⟩ := List.map_eq_cons_iff.mp hshown
  obtain rfl := List.map_eq_nil_iff.mp hshown
  obtain ⟨running, rfl, hrunning⟩ := Option.map_eq_some_iff.mp hfirst
  obtain ⟨running', rfl, hrunning'⟩ := Option.map_eq_some_iff.mp hsecond
  obtain ⟨completed, rfl, hcompleted⟩ := Option.map_eq_some_iff.mp hthird
  obtain ⟨completed', rfl, hcompleted'⟩ := Option.map_eq_some_iff.mp hfourth
  simp only [Prod.mk.injEq] at hrunning hrunning' hcompleted hcompleted'
  have hevent : ∀ {result : SyncResult}, some result ∈ startAnswers → ∃ event ∈
      (performAll deadlineCore (fun _ => 0) .initial startCalls).1, event.answer = .ok result := by
    intro result hmem
    obtain ⟨event, hmem, hanswer⟩ := List.mem_map.mp hmem
    exact ⟨event, hmem, toOption_some hanswer⟩
  have hrun : Run deadlineCore (fun _ => 0) .initial
      (performAll deadlineCore (fun _ => 0) .initial startCalls).1 _ := run_performAll
  have hagree : ∀ a b, some a ∈ startAnswers → some b ∈ startAnswers → a.revision = b.revision →
      SameTimers a b := by
    intro a b ha hb hrevision
    obtain ⟨first, hfirst, ha⟩ := hevent ha
    obtain ⟨second, hsecond, hb⟩ := hevent hb
    exact (answers_agree hrun first hfirst second hsecond a b ha hb hrevision).2
      sessionsStay_deadlineCore
  refine ⟨running, running', completed, completed', hanswers, ?_, ?_, ?_, ?_⟩
  · exact Option.isSome_iff_ne_none.mp hrunning.2.1
  · exact hagree _ _ (by simp [hanswers]) (by simp [hanswers])
      (hrunning.1.trans hrunning'.1.symm)
  · intro hempty
    rw [hempty] at hcompleted
    exact absurd hcompleted.2.2 (by decide)
  · exact hagree _ _ (by simp [hanswers]) (by simp [hanswers])
      (hcompleted.1.trans hcompleted'.1.symm)

end Pomodorough.Store.RevisionAgreement
