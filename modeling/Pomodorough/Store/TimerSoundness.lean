import Mathlib.Data.List.Chain
import Pomodorough.Store.AccountRuns

/-! # What an accepted timer result says

The checks of a timer result are made in several loops over its sessions, its
outcomes, its canonical timer and its history. Read together they give a history
in strict order that agrees with the sessions, but where an item ends at the zero
time: there the loop takes it for no item at all. -/
namespace Pomodorough.Store.TimerSoundness
open Pomodorough.Library.Fallible
open Pomodorough.Store.Records Pomodorough.Store.SharedCoreValidation
open Pomodorough.Store.SharedCore Pomodorough.Store.AccountRuns

/-! ## Agreement -/

/-- Both timestamps are read, as the same instant. -/
def SameInstant (left right : Timestamp) : Prop :=
  ∃ l ∈ left.parsed, ∃ r ∈ right.parsed, l.unixNano = r.unixNano

structure SameIntent (left right : Intent) : Prop where
  type : left.type = right.type
  commandID : left.commandID = right.commandID
  occurredAt : SameInstant left.occurredAt right.occurredAt

/-- A history item is what its timer's session became. -/
structure ItemAgrees (item : HistoryItem) (session : CoreTimerSession) : Prop where
  timerID : item.timerID = session.timerID
  taskID : item.taskID = session.taskID
  commandID : item.commandID = session.terminalCommandID
  phase : item.phase = session.phase
  status : item.status = session.status
  plannedDurationMs : item.plannedDurationMs = session.plannedDurationMs
  endedAt : SameInstant item.endedAt session.endedAt

/-- The canonical timer is a session as it stands. -/
structure CanonicalAgrees (canonical : CanonicalTimer) (session : CoreTimerSession) : Prop where
  id : canonical.id = session.timerID
  taskID : canonical.taskID = session.taskID
  phase : canonical.phase = session.phase
  status : canonical.status = session.status
  plannedDurationMs : canonical.plannedDurationMs = session.plannedDurationMs
  elapsedAtAnchorMs : canonical.elapsedAtAnchorMs = session.elapsedAtAnchorMs
  anchorAt : SameInstant canonical.anchorAt session.anchorAt
  startedByDeviceID : canonical.startedByDeviceID = session.startedByDeviceID
  lastIntent : Option.Rel SameIntent canonical.lastIntent session.lastIntent

theorem coreTimesEqual_iff {left right : Timestamp} :
    coreTimesEqual left right = true ↔ SameInstant left right := by
  unfold coreTimesEqual SameInstant
  split
  next l r hl hr => simp [hl, hr, Time.equal]
  next h =>
    constructor
    · intro hfalse
      cases hfalse
    · intro hsame
      obtain ⟨l, hl, r, hr, -⟩ := hsame
      exact absurd hr (h l r hl)

theorem intentsEqual_iff {left right : Option Intent} :
    intentsEqual left right = true ↔ Option.Rel SameIntent left right := by
  cases left with
  | none =>
    cases right with
    | none => simp [intentsEqual]
    | some right =>
      constructor
      · intro h
        cases h
      · intro h
        cases h
  | some left =>
    cases right with
    | none =>
      constructor
      · intro h
        cases h
      · intro h
        cases h
    | some right =>
      simp only [intentsEqual, Bool.and_eq_true, decide_eq_true_eq, coreTimesEqual_iff]
      constructor
      · intro h
        obtain ⟨⟨htype, hcommand⟩, htime⟩ := h
        exact .some ⟨htype, hcommand, htime⟩
      · intro h
        cases h with
        | some h => exact ⟨⟨h.type, h.commandID⟩, h.occurredAt⟩

theorem historyMatchesSession_iff {item : HistoryItem} {session : CoreTimerSession} :
    historyMatchesSession item session = true ↔ ItemAgrees item session := by
  simp only [historyMatchesSession, Bool.and_eq_true, decide_eq_true_eq, coreTimesEqual_iff]
  constructor
  · intro h
    obtain ⟨⟨⟨⟨⟨⟨htimer, htask⟩, hcommand⟩, hphase⟩, hstatus⟩, hplanned⟩, hended⟩ := h
    exact ⟨htimer, htask, hcommand, hphase, hstatus, hplanned, hended⟩
  · intro h
    exact ⟨⟨⟨⟨⟨⟨h.timerID, h.taskID⟩, h.commandID⟩, h.phase⟩, h.status⟩, h.plannedDurationMs⟩,
      h.endedAt⟩

theorem canonicalMatchesSession_iff {canonical : CanonicalTimer} {session : CoreTimerSession} :
    canonicalMatchesSession canonical session = true ↔ CanonicalAgrees canonical session := by
  simp only [canonicalMatchesSession, Bool.and_eq_true, decide_eq_true_eq, coreTimesEqual_iff,
    intentsEqual_iff]
  constructor
  · intro h
    obtain ⟨⟨⟨⟨⟨⟨⟨⟨hid, htask⟩, hphase⟩, hstatus⟩, hplanned⟩, helapsed⟩, hanchor⟩, hdevice⟩,
      hintent⟩ := h
    exact ⟨hid, htask, hphase, hstatus, hplanned, helapsed, hanchor, hdevice, hintent⟩
  · intro h
    exact ⟨⟨⟨⟨⟨⟨⟨⟨h.id, h.taskID⟩, h.phase⟩, h.status⟩, h.plannedDurationMs⟩,
      h.elapsedAtAnchorMs⟩, h.anchorAt⟩, h.startedByDeviceID⟩, h.lastIntent⟩

/-! ## The order of the history -/

/-- The later end comes first, and of two timers with one end the smaller id. -/
def Before (first second : HistoryItem) : Prop :=
  ∃ f ∈ first.endedAt.parsed, ∃ s ∈ second.endedAt.parsed,
    s.unixNano < f.unixNano ∨ s.unixNano = f.unixNano ∧ first.timerID < second.timerID

/-- The item ends at 0001-01-01T00:00:00Z. -/
def EndsAtZero (item : HistoryItem) : Prop := ∃ ended ∈ item.endedAt.parsed, ended.isZero

/-- An item that ends at the zero time is in order with the item after it. -/
def ZeroEndsOrdered (history : List HistoryItem) : Prop :=
  history.IsChain fun first second => EndsAtZero first → Before first second

theorem Before.trans {first second third : HistoryItem} (h : Before first second)
    (h' : Before second third) : Before first third := by
  obtain ⟨f, hf, s, hs, hfirst⟩ := h
  obtain ⟨s', hs', t, ht, hsecond⟩ := h'
  cases Option.mem_unique hs hs'
  refine ⟨f, hf, t, ht, ?_⟩
  rcases hfirst with hfirst | ⟨hfirst, hids⟩
  · rcases hsecond with hsecond | ⟨hsecond, -⟩
    · exact .inl (hsecond.trans hfirst)
    · exact .inl (hsecond ▸ hfirst)
  · rcases hsecond with hsecond | ⟨hsecond, hids'⟩
    · exact .inl (hfirst ▸ hsecond)
    · exact .inr ⟨hsecond.trans hfirst, hids.trans hids'⟩

instance : IsTrans HistoryItem Before := ⟨fun _ _ _ h h' => h.trans h'⟩

/-- One timer's items with one end are not in order. -/
theorem Before.timerID_ne {first second : HistoryItem} (h : Before first second)
    (hended : SameInstant first.endedAt second.endedAt) : first.timerID ≠ second.timerID := by
  intro htimer
  obtain ⟨f, hf, s, hs, horder⟩ := h
  obtain ⟨f', hf', s', hs', heq⟩ := hended
  cases Option.mem_unique hf hf'
  cases Option.mem_unique hs hs'
  rcases horder with hlt | ⟨-, hids⟩
  · exact absurd heq hlt.ne'
  · exact absurd htimer hids.ne

/-! ## What the loops have checked -/

section
variable {commands : List Command} {sessions : List CoreTimerSession} {history : List HistoryItem}
  {outcomes : AList fun _ : String => CoreTimerOutcome}

theorem parseRequiredCoreTime_ok {label : String} {value : Timestamp} {time : Time}
    (h : parseRequiredCoreTime label value = .ok time) :
    value.text ≠ "" ∧ value.parsed = some time := by
  unfold parseRequiredCoreTime at h
  split at h
  next => cases h
  next htext =>
    split at h
    next parsed hparsed =>
      cases h
      exact ⟨htext, hparsed⟩
    next => cases h

def Terminal (status : String) : Prop :=
  status = "completed" ∨ status = "cancelled" ∨ status = "superseded"

theorem validateCoreHistoryItem_ok {item : HistoryItem} {endedAt : Time}
    (h : validateCoreHistoryItem item sessions commands = .ok endedAt) :
    Terminal item.status ∧ item.endedAt.parsed = some endedAt ∧
      ∃ session, sessions.find? (fun session => session.timerID = item.timerID) = some session ∧
        ItemAgrees item session := by
  obtain ⟨_, -, h⟩ := bind_ok_iff.mp h
  split at h
  next => cases h
  next session hsession =>
    obtain ⟨_, hstatus, h⟩ := bind_ok_iff.mp h
    obtain ⟨ended, hended, h⟩ := bind_ok_iff.mp h
    have hrest : (do
        check (historyMatchesSession item session)
          (fail "timer history is inconsistent with its session")
        validateHistoryCompletion item
        .ok ended : Fallible Time) = .ok endedAt := by
      split at h
      next =>
        obtain ⟨_, -, h⟩ := bind_ok_iff.mp h
        exact h
      next => exact h
    obtain ⟨_, hmatches, h⟩ := bind_ok_iff.mp hrest
    obtain ⟨_, -, h⟩ := bind_ok_iff.mp h
    cases h
    rw [check_ok_iff] at hstatus hmatches
    exact ⟨hstatus, (parseRequiredCoreTime_ok hended).2, session, hsession,
      historyMatchesSession_iff.mp hmatches⟩

theorem validateOrderedHistory_items {ids : List String} {previous : Time}
    {previousTimerID : String}
    (h : validateOrderedHistory sessions commands ids previous previousTimerID history = .ok ()) :
    ∀ item ∈ history, ∃ endedAt, validateCoreHistoryItem item sessions commands = .ok endedAt := by
  induction history generalizing ids previous previousTimerID with
  | nil => simp
  | cons item history ih =>
    obtain ⟨endedAt, hitem, h⟩ := bind_ok_iff.mp h
    obtain ⟨_, -, h⟩ := bind_ok_iff.mp h
    obtain ⟨_, -, h⟩ := bind_ok_iff.mp h
    exact List.forall_mem_cons.mpr ⟨⟨endedAt, hitem⟩, ih h⟩

/-- Two neighbours are in order, or the first one was taken for none. -/
theorem validateOrderedHistory_chain {ids : List String} {item : HistoryItem} {endedAt : Time}
    (hended : item.endedAt.parsed = some endedAt)
    (h : validateOrderedHistory sessions commands ids endedAt item.timerID history = .ok ()) :
    (item :: history).IsChain fun first second => EndsAtZero first ∨ Before first second := by
  induction history generalizing ids item endedAt with
  | nil => exact .singleton item
  | cons next history ih =>
    obtain ⟨nextEnd, hnext, h⟩ := bind_ok_iff.mp h
    obtain ⟨_, -, h⟩ := bind_ok_iff.mp h
    obtain ⟨_, horder, h⟩ := bind_ok_iff.mp h
    rw [check_ok_iff] at horder
    have hnextEnd := (validateCoreHistoryItem_ok hnext).2.1
    refine .cons_cons ?_ (ih hnextEnd h)
    rcases horder with hzero | horder
    · exact .inl ⟨endedAt, hended, hzero⟩
    · exact .inr ⟨endedAt, hended, nextEnd, hnextEnd, horder⟩

theorem validateCoreHistory_chain
    (h : validateCoreHistory history sessions commands = .ok ()) :
    history.IsChain fun first second => EndsAtZero first ∨ Before first second := by
  cases history with
  | nil => exact .nil
  | cons item history =>
    obtain ⟨endedAt, hitem, h⟩ := bind_ok_iff.mp h
    obtain ⟨_, -, h⟩ := bind_ok_iff.mp h
    obtain ⟨_, -, h⟩ := bind_ok_iff.mp h
    exact validateOrderedHistory_chain (validateCoreHistoryItem_ok hitem).2.1 h

/-- A canonical timer agrees with the session the map holds for its id. -/
theorem validateCoreCanonical_ok {canonical : CanonicalTimer}
    (h : validateCoreCanonical (some canonical) sessions commands = .ok ()) :
    canonical.id ≠ "" ∧ ∃ session,
      sessions.find? (fun session => session.timerID = canonical.id) = some session ∧
        CanonicalAgrees canonical session := by
  obtain ⟨_, hid, h⟩ := bind_ok_iff.mp h
  rw [check_ok_iff] at hid
  refine ⟨hid, ?_⟩
  split at h
  next => cases h
  next session hsession =>
    obtain ⟨_, -, h⟩ := bind_ok_iff.mp h
    obtain ⟨_, -, h⟩ := bind_ok_iff.mp h
    obtain ⟨_, -, h⟩ := bind_ok_iff.mp h
    obtain ⟨_, -, h⟩ := bind_ok_iff.mp h
    rw [check_ok_iff] at h
    exact ⟨session, hsession, canonicalMatchesSession_iff.mp h⟩

/-- As many outcomes as commands, each of one of them, are one for each. -/
theorem validateTimerOutcomes_perm (h : validateTimerOutcomes outcomes commands = .ok ()) :
    outcomes.keys.Perm (commands.map Command.id) := by
  obtain ⟨_, hlength, h⟩ := bind_ok_iff.mp h
  rw [check_ok_iff] at hlength
  rw [checkAll_ok_iff] at h
  have hsubset : outcomes.keys ⊆ commands.map Command.id := by
    intro id hid
    obtain ⟨entry, hentry, rfl⟩ := List.mem_map.mp hid
    obtain ⟨⟨command, hmem, heq⟩, -⟩ := validateTimerOutcome_ok (h entry hentry)
    exact heq ▸ List.mem_map_of_mem hmem
  have hsub := outcomes.keys_nodup.subperm hsubset
  exact hsub.perm_of_length_le (by simp [AList.keys, List.keys, hlength])

/-- The parts of an accepted result, each with the check it has passed. -/
structure Checked (canonical : Option CanonicalTimer) (history : List HistoryItem)
    (sessions : List CoreTimerSession) (outcomes : AList fun _ : String => CoreTimerOutcome)
    (commands : List Command) : Prop where
  commandIndex : timerCommandIndex [] commands = .ok ()
  timerOutcomes : validateTimerOutcomes outcomes commands = .ok ()
  timerSessions : validateCoreTimerSessions sessions commands = .ok ()
  canonicalTimer : validateCoreCanonical canonical sessions commands = .ok ()
  timerHistory : validateCoreHistory history sessions commands = .ok ()

theorem validateCoreTimerResult_ok {output : CoreTimerResult}
    (h : validateCoreTimerResult output commands = .ok ()) : ∃ history sessions outcomes,
      output.history = some history ∧ output.sessions = some sessions ∧
        output.outcomes = some outcomes ∧
        Checked output.canonical.value history sessions outcomes commands := by
  unfold validateCoreTimerResult at h
  split at h
  next history sessions outcomes hhistory hsessions houtcomes =>
    obtain ⟨_, -, h⟩ := bind_ok_iff.mp h
    obtain ⟨_, hindex, h⟩ := bind_ok_iff.mp h
    obtain ⟨_, hvalidOutcomes, h⟩ := bind_ok_iff.mp h
    obtain ⟨_, hvalidSessions, h⟩ := bind_ok_iff.mp h
    obtain ⟨_, hcanonical, h⟩ := bind_ok_iff.mp h
    exact ⟨history, sessions, outcomes, hhistory, hsessions, houtcomes, hindex, hvalidOutcomes,
      hvalidSessions, hcanonical, h⟩
  next => cases h

end

/-! ## Soundness -/

/-- What an accepted result is taken for. -/
structure Sound (canonical : Option CanonicalTimer) (history : List HistoryItem)
    (sessions : List CoreTimerSession) (outcomes : AList fun _ : String => CoreTimerOutcome)
    (commands : List Command) : Prop where
  terminal : ∀ item ∈ history, Terminal item.status
  ordered : history.Pairwise Before
  timers : (history.map HistoryItem.timerID).Nodup
  items : ∀ item ∈ history, ∃ session ∈ sessions, ItemAgrees item session
  outcomeIDs : outcomes.keys.Perm (commands.map Command.id) ∧ (commands.map Command.id).Nodup
  sessionIDs : (sessions.map CoreTimerSession.timerID).Nodup
  canonicalTimer : ∀ timer ∈ canonical, ∃ session ∈ sessions, CanonicalAgrees timer session

section
variable {canonical : Option CanonicalTimer} {history : List HistoryItem}
  {sessions : List CoreTimerSession} {outcomes : AList fun _ : String => CoreTimerOutcome}
  {commands : List Command}

/-- Each item agrees with the one session the map holds for its timer. -/
theorem Checked.item (h : Checked canonical history sessions outcomes commands)
    {item : HistoryItem} (hitem : item ∈ history) : Terminal item.status ∧
      ∃ session, sessions.find? (fun session => session.timerID = item.timerID) = some session ∧
        ItemAgrees item session := by
  obtain ⟨endedAt, hvalid⟩ := validateOrderedHistory_items h.timerHistory item hitem
  obtain ⟨hstatus, -, hsession⟩ := validateCoreHistoryItem_ok hvalid
  exact ⟨hstatus, hsession⟩

/-- In order, no timer has two items: both would end when its session did. -/
theorem Checked.timers (h : Checked canonical history sessions outcomes commands)
    (hordered : history.Pairwise Before) : (history.map HistoryItem.timerID).Nodup := by
  rw [List.Nodup, List.pairwise_map]
  refine hordered.imp_of_mem fun {first second} hfirst hsecond hbefore htimer => ?_
  obtain ⟨-, session, hsession, hagrees⟩ := h.item hfirst
  obtain ⟨-, other, hother, hagrees'⟩ := h.item hsecond
  rw [htimer, hother] at hsession
  cases hsession
  obtain ⟨f, hf, e, he, hfe⟩ := hagrees.endedAt
  obtain ⟨s, hs, e', he', hse⟩ := hagrees'.endedAt
  cases Option.mem_unique he he'
  exact hbefore.timerID_ne ⟨f, hf, s, hs, hfe.trans hse.symm⟩ htimer

theorem Checked.sessions_nodup (h : Checked canonical history sessions outcomes commands) :
    (sessions.map CoreTimerSession.timerID).Nodup := by
  obtain ⟨_, hordered, -⟩ := bind_ok_iff.mp h.timerSessions
  exact validateOrderedSessions_ok hordered List.nodup_nil

theorem Checked.sound_iff (h : Checked canonical history sessions outcomes commands) :
    Sound canonical history sessions outcomes commands ↔ ZeroEndsOrdered history := by
  constructor
  · intro hsound
    exact (List.isChain_iff_pairwise.mpr hsound.ordered).imp fun _ _ hbefore _ => hbefore
  · intro hzero
    have hchain : history.IsChain Before := by
      rw [List.isChain_iff_forall_rel_of_append_cons_cons]
      intro first second before after hsplit
      have hpair := List.isChain_iff_forall_rel_of_append_cons_cons.mp
        (validateCoreHistory_chain h.timerHistory) hsplit
      exact hpair.elim (List.isChain_iff_forall_rel_of_append_cons_cons.mp hzero hsplit) id
    have hordered := List.isChain_iff_pairwise.mp hchain
    refine ⟨fun item hitem => (h.item hitem).1, hordered, h.timers hordered, ?_,
      ⟨validateTimerOutcomes_perm h.timerOutcomes, timerCommandIndex_ok h.commandIndex List.nodup_nil⟩,
      h.sessions_nodup, ?_⟩
    · intro item hitem
      obtain ⟨-, session, hsession, hagrees⟩ := h.item hitem
      exact ⟨session, List.mem_of_find?_eq_some hsession, hagrees⟩
    · intro timer htimer
      cases htimer
      obtain ⟨-, session, hsession, hagrees⟩ := validateCoreCanonical_ok h.canonicalTimer
      exact ⟨session, List.mem_of_find?_eq_some hsession, hagrees⟩

/-- An accepted timer result is sound when, and only when, its items that end at
the zero time are in order with those after them. -/
theorem accepted_timer_result_sound_iff {output : CoreTimerResult}
    (h : validateCoreTimerResult output commands = .ok ()) : ∃ history sessions outcomes,
      output.history = some history ∧ output.sessions = some sessions ∧
        output.outcomes = some outcomes ∧
        (Sound output.canonical.value history sessions outcomes commands ↔
          ZeroEndsOrdered history) := by
  obtain ⟨history, sessions, outcomes, hhistory, hsessions, houtcomes, hchecked⟩ :=
    validateCoreTimerResult_ok h
  exact ⟨history, sessions, outcomes, hhistory, hsessions, houtcomes, hchecked.sound_iff⟩

end

/-! ## A timer that ended at the zero time -/

/-- 0001-01-01T00:00:00Z. -/
def zeroTimestamp : Timestamp := ⟨"0001-01-01T00:00:00Z", some Time.zero⟩

/-- A session that one command completed. -/
def completedSession (endedAt : Timestamp) : CoreTimerSession where
  timerID := "timer-01"
  taskID := ""
  phase := "focus"
  status := "completed"
  plannedDurationMs := 1500000
  elapsedAtAnchorMs := 1500000
  anchorAt := endedAt
  startedAt := endedAt
  startedByDeviceID := "device-1"
  endedAt := endedAt
  lastCommandID := "command-1"
  terminalCommandID := "command-1"
  supersededByTimerID := ""
  lastIntent := none

/-- Its place in the history. -/
def completedItem (id : String) (endedAt : Timestamp) : HistoryItem where
  id := id
  timerID := "timer-01"
  taskID := ""
  commandID := "command-1"
  phase := "focus"
  status := "completed"
  plannedDurationMs := 1500000
  completedAt := endedAt
  endedAt := endedAt

def completedResult (endedAt : Timestamp) (items : List String) : CoreTimerResult where
  canonical := ⟨true, none⟩
  history := some (items.map fun id => completedItem id endedAt)
  sessions := some [completedSession endedAt]
  outcomes := some ((∅ : AList fun _ : String => CoreTimerOutcome).insert "command-1"
    ⟨some "applied", some ""⟩)

/-- Two items of one timer that ended at the zero time are accepted. -/
theorem accepted_timer_result_not_sound : ¬ ∀ output commands,
    validateCoreTimerResult output commands = .ok () → ∃ history sessions outcomes,
      output.history = some history ∧ output.sessions = some sessions ∧
        output.outcomes = some outcomes ∧
        Sound output.canonical.value history sessions outcomes commands := by
  intro hclaim
  have haccepted : validateCoreTimerResult (completedResult zeroTimestamp ["item-1", "item-2"])
      [pauseAbsent "command-1" "device-1" 1000] = .ok () := by
    decide +kernel
  obtain ⟨history, sessions, outcomes, hhistory, -, -, hsound⟩ := hclaim _ _ haccepted
  cases hhistory
  exact absurd hsound.timers (by decide)

/-- One item at the zero time does no harm. -/
theorem accepted_timer_result_sound_iff_single : ∃ history sessions outcomes,
    (completedResult zeroTimestamp ["item-1"]).history = some history ∧
      (completedResult zeroTimestamp ["item-1"]).sessions = some sessions ∧
      (completedResult zeroTimestamp ["item-1"]).outcomes = some outcomes ∧
      Sound none history sessions outcomes [pauseAbsent "command-1" "device-1" 1000] := by
  have haccepted : validateCoreTimerResult (completedResult zeroTimestamp ["item-1"])
      [pauseAbsent "command-1" "device-1" 1000] = .ok () := by
    decide +kernel
  obtain ⟨history, sessions, outcomes, hhistory, hsessions, houtcomes, hiff⟩ :=
    accepted_timer_result_sound_iff haccepted
  refine ⟨history, sessions, outcomes, hhistory, hsessions, houtcomes, hiff.mpr ?_⟩
  cases hhistory
  exact .singleton _

end Pomodorough.Store.TimerSoundness
