import Pomodorough.Library.PagedFold
import Pomodorough.Store.SharedCore

/-! # Paged replay

A log too long for one call of the shared core is replayed in pages. The core is
taken to be a fold that looks only at the command's timer and the current one.
Then the sessions a page is seeded with are all it can look at, and the merged
pages are the one reduction of the whole log. -/
namespace Pomodorough.Store.PagedReplay
open Pomodorough.Library.Fallible Pomodorough.Library.KeyedLog Pomodorough.Library.PagedFold
open Pomodorough.Store.Records Pomodorough.Store.SharedCoreValidation
open Pomodorough.Store.SharedCore

/-! ## The core as a fold -/

/-- What the core steps on: the commands of a log and, at its end, the time. -/
inductive TimerEvent where
  | command (command : Command)
  | now (time : Time)

def TimerEvent.timerID : TimerEvent → Option String
  | .command entry => some entry.timerID
  | .now _ => none

def timerEvents (commands : List Command) (now : Option Time) : List TimerEvent :=
  commands.map .command ++ now.toList.map .now

/-- The sessions by timer, and the current timer. -/
abbrev TimerState := FoldState String CoreTimerSession

def KeyedSessions (s : TimerState) : Prop :=
  ∀ k session, s.cells k = some session → session.timerID = k

/-- A session is filed under its timer. It has at most one history item, and
what is shown of the current timer is read off its session. -/
structure TimerFold extends LocalFold TimerEvent.timerID CoreTimerSession CoreTimerOutcome where
  keyed : ∀ event s, KeyedSessions s → KeyedSessions (step event s)
  historyItem : CoreTimerSession → Option HistoryItem
  historyItem_timerID : ∀ session item,
    historyItem session = some item → item.timerID = session.timerID
  canonical : CoreTimerSession → Option CanonicalTimer
  /-- the continuation key after a command -/
  continuation : Command → String

/-- The last outcome given to a command with the id. -/
def outcomeOf (outcomes : List (TimerEvent × CoreTimerOutcome)) (id : String) :
    Option CoreTimerOutcome :=
  outcomes.reverse.findSome? fun entry =>
    match entry.1 with
    | .command command => if command.id = id then some entry.2 else none
    | .now _ => none

theorem outcomeOf_append (earlier later : List (TimerEvent × CoreTimerOutcome)) (id : String) :
    outcomeOf (earlier ++ later) id = (outcomeOf later id).or (outcomeOf earlier id) := by
  unfold outcomeOf
  rw [List.reverse_append, List.findSome?_append]

/-- The order of the command log, which a reduction and its pages keep to. -/
def InLogOrder (commands : List Command) : Prop :=
  commands.Pairwise fun a b => commandKey a ≤ commandKey b

theorem inLogOrder_coreTimerCommands {commands : List Command} (h : InLogOrder commands) :
    InLogOrder (coreTimerCommands commands) := by
  unfold InLogOrder coreTimerCommands
  rw [List.pairwise_map]
  exact h

theorem timerEvents_append (batch rest : List Command) (now : Option Time) :
    timerEvents (coreTimerCommands (batch ++ rest)) now =
      timerEvents (coreTimerCommands batch) none ++ timerEvents (coreTimerCommands rest) now := by
  simp [timerEvents, coreTimerCommands]

def seedState (sessions : List CoreTimerSession) (current : Option String) : TimerState where
  cells k := sessions.find? fun session => session.timerID = k
  focus := current

namespace TimerFold
variable (fold : TimerFold)

/-- The timer shown: what the current timer's session is read as. -/
def shown (s : TimerState) : Option CanonicalTimer :=
  (s.focus.bind s.cells).bind fold.canonical

/-- The result lists every session there is after the events, the history items
of these, the outcome of every command, and the current timer. -/
structure Answers (events : List TimerEvent) (s : TimerState) (result : CoreTimerResult) :
    Prop where
  sessions : ∃ sessions, result.sessions = some sessions ∧
    (sessions.map CoreTimerSession.timerID).Nodup ∧
    ∀ session, session ∈ sessions ↔ (fold.run events s).cells session.timerID = some session
  history : ∃ history, result.history = some history ∧
    (history.map HistoryItem.timerID).Nodup ∧
    ∀ item, item ∈ history ↔
      ((fold.run events s).cells item.timerID).bind fold.historyItem = some item
  outcomes : ∃ outcomes, result.outcomes = some outcomes ∧
    ∀ id, outcomes.lookup id = outcomeOf (fold.outcomes events s) id
  canonical : result.canonical = ⟨true, fold.shown (fold.run events s)⟩

/-- The continuation a page starts from is that of a command before its own. -/
def Continues (after : Option String) (commands : List Command) : Prop :=
  after = none ∨ ∃ earlier, after = some (fold.continuation earlier) ∧
    ∀ command ∈ commands, commandKey earlier ≤ commandKey command

/-- The core reduces a log, and replays a page from its seeds, by this fold. The
result of a whole log is in the order in which the core lists sessions and
history. -/
structure RunBy (core : Core) : Prop where
  reduce : ∀ commands now, InLogOrder commands →
    ∃ result, core.timerReduce commands now = .ok result ∧
      fold.Answers (timerEvents commands (some now)) .empty result ∧
      (∀ sessions ∈ result.sessions, sessions.Pairwise fun a b => a.timerID < b.timerID) ∧
      ∀ history ∈ result.history, history.Pairwise fun a b => compareHistory a b = .lt
  replayPage : ∀ input : TimerReplayInput, InLogOrder input.commands →
    (input.sessions.map CoreTimerSession.timerID).Nodup →
    fold.Continues input.after input.commands →
    ∃ page, core.timerReplayPage input = .ok page ∧
      fold.Answers (timerEvents input.commands input.now)
        (seedState input.sessions input.currentTimerID) page.result ∧
      page.currentTimerID = (fold.run (timerEvents input.commands input.now)
        (seedState input.sessions input.currentTimerID)).focus ∧
      page.after = (input.commands.getLast?.map fold.continuation).or input.after

/-- What `replayTimerPages` carries is the state of the fold so far. -/
structure Carries (state : ReplayState) (s : TimerState)
    (outcomes : List (TimerEvent × CoreTimerOutcome)) : Prop where
  sessions : ∀ k, state.sessions.lookup k = s.cells k
  history : ∀ k, state.history.lookup k = (s.cells k).bind fold.historyItem
  outcomes : ∀ id, state.outcomes.lookup id = outcomeOf outcomes id
  canonical : state.canonical.value = fold.shown s
  current : state.current = s.focus
  keyed : KeyedSessions s

theorem carries_start : fold.Carries {} .empty [] where
  sessions k := AList.lookup_empty k
  history k := AList.lookup_empty k
  outcomes id := AList.lookup_empty id
  canonical := rfl
  current := rfl
  keyed := fun _ _ h => by cases h

theorem run_keyed {events : List TimerEvent} {s : TimerState} (h : KeyedSessions s) :
    KeyedSessions (fold.run events s) := by
  induction events generalizing s with
  | nil => exact h
  | cons event events ih => exact ih (fold.keyed event s h)

/-! ## One page -/

section
variable {fold} {state : ReplayState} {s : TimerState}
  {outcomes : List (TimerEvent × CoreTimerOutcome)}

/-- The timers a page can look at: its own and the current one. -/
def pageTimers (current : Option String) (commands : List Command) : Set String :=
  {k | current = some k ∨ ∃ command ∈ commands, command.timerID = k}

theorem covers_pageTimers (commands : List Command) (now : Option Time) :
    LocalFold.Covers TimerEvent.timerID (pageTimers s.focus commands)
      (timerEvents commands now) s where
  focus k hk := .inl hk
  keys event hevent k hk := by
    obtain hcommand | hnow := List.mem_append.mp hevent
    · obtain ⟨command, hmem, rfl⟩ := List.mem_map.mp hcommand
      exact .inr ⟨command, hmem, Option.some.inj hk⟩
    · obtain ⟨time, -, rfl⟩ := List.mem_map.mp hnow
      cases hk

theorem replaySeeds_nodup (sessions : AList fun _ : String => CoreTimerSession)
    (hkeyed : ∀ k session, sessions.lookup k = some session → session.timerID = k)
    (current : Option String) (commands : List Command) :
    ((replaySeeds sessions current commands).map CoreTimerSession.timerID).Nodup := by
  have hmap : (sessions.entries.map fun entry => entry.2).map CoreTimerSession.timerID =
      sessions.keys := by
    rw [List.map_map]
    refine List.map_congr_left fun entry hentry => ?_
    exact hkeyed entry.1 entry.2 (AList.mem_lookup_iff.mpr hentry)
  have hnodup : ((sessions.entries.map fun entry => entry.2).map
      CoreTimerSession.timerID).Nodup := by
    rw [hmap]
    exact sessions.keys_nodup
  unfold replaySeeds
  rw [(sortBy_perm.map _).nodup_iff]
  exact hnodup.sublist (List.filter_sublist.map _)

/-- The seeds are the sessions there are of the timers the page can look at. -/
theorem seedState_replaySeeds (h : fold.Carries state s outcomes) (batch : List Command) :
    seedState (replaySeeds state.sessions state.current batch) state.current =
      s.restrict (pageTimers s.focus batch) := by
  have hkeyed : ∀ k session, state.sessions.lookup k = some session → session.timerID = k := by
    intro k session hk
    exact h.keyed k session (h.sessions k ▸ hk)
  refine FoldState.ext (funext fun k => Option.ext fun session => ?_) h.current
  show List.find? _ _ = some session ↔ _
  rw [find_key_iff (replaySeeds_nodup state.sessions hkeyed state.current batch)]
  unfold replaySeeds
  rw [mem_sortBy, List.mem_filter, List.mem_map]
  have hmem : (∃ entry ∈ state.sessions.entries, entry.2 = session) ↔
      s.cells session.timerID = some session := by
    rw [← h.sessions]
    constructor
    · rintro ⟨⟨k', session'⟩, hentry, rfl⟩
      have hlookup := AList.mem_lookup_iff.mpr hentry
      rwa [← hkeyed k' session' hlookup] at hlookup
    · intro hlookup
      exact ⟨⟨session.timerID, session⟩, AList.mem_lookup_iff.mp hlookup, rfl⟩
  rw [hmem, decide_eq_true_iff, h.current]
  by_cases hk : k ∈ pageTimers s.focus batch
  · rw [LocalFold.restrict_cells k hk]
    constructor
    · rintro ⟨⟨hcell, -⟩, rfl⟩
      exact hcell
    · intro hcell
      obtain rfl := h.keyed k session hcell
      exact ⟨⟨hcell, hk⟩, rfl⟩
  · rw [LocalFold.restrict_cells_none k hk]
    constructor
    · rintro ⟨⟨-, hpage⟩, rfl⟩
      exact absurd hpage hk
    · intro hcell
      cases hcell

/-- The sessions of a page laid over those carried. -/
theorem lookup_absorb_sessions {sessions : AList fun _ : String => CoreTimerSession}
    {part : TimerState} (hpart : KeyedSessions part) {seen : List CoreTimerSession}
    (hnodup : (seen.map CoreTimerSession.timerID).Nodup)
    (hseen : ∀ session, session ∈ seen ↔ part.cells session.timerID = some session) (k : String) :
    (seen.foldl (fun sessions session => sessions.insert session.timerID session)
        sessions).lookup k = (part.cells k).or (sessions.lookup k) := by
  cases hk : part.cells k with
  | some session =>
    obtain rfl := hpart k session hk
    exact lookup_insertAll_of_mem hnodup ((hseen session).mpr hk)
  | none =>
    rw [Option.none_or]
    refine lookup_insertAll_of_ne fun session hsession heq => ?_
    have hcell := (hseen session).mp hsession
    rw [heq, hk] at hcell
    cases hcell

/-- The items of a page replace those of its sessions, also where a session has
none any more. -/
theorem lookup_absorb_history {carried : AList fun _ : String => HistoryItem}
    {part : TimerState} (hpart : KeyedSessions part) {seen : List CoreTimerSession}
    (hseen : ∀ session, session ∈ seen ↔ part.cells session.timerID = some session)
    {items : List HistoryItem} (hnodup : (items.map HistoryItem.timerID).Nodup)
    (hitems : ∀ item, item ∈ items ↔
      (part.cells item.timerID).bind fold.historyItem = some item) (k : String) :
    (items.foldl (fun history item => history.insert item.timerID item)
        (seen.foldl (fun history session => history.erase session.timerID) carried)).lookup k =
      match part.cells k with
      | some session => fold.historyItem session
      | none => carried.lookup k := by
  cases hk : part.cells k with
  | some session =>
    obtain rfl := hpart k session hk
    cases hitem : fold.historyItem session with
    | some item =>
      have htimer := fold.historyItem_timerID session item hitem
      have hmem : item ∈ items := by
        rw [hitems, htimer, hk]
        exact hitem
      rw [← htimer]
      exact (lookup_insertAll_of_mem hnodup hmem).trans hitem.symm
    | none =>
      refine (lookup_insertAll_of_ne fun item hmem heq => ?_).trans
        ((lookup_eraseAll_of_mem ((hseen session).mpr hk)).trans hitem.symm)
      have hcell := (hitems item).mp hmem
      rw [heq, hk] at hcell
      rw [show fold.historyItem session = some item from hcell] at hitem
      cases hitem
  | none =>
    refine (lookup_insertAll_of_ne ?_).trans (lookup_eraseAll_of_ne ?_)
    · intro item hmem heq
      have hcell := (hitems item).mp hmem
      rw [heq, hk] at hcell
      cases hcell
    · intro session hmem heq
      have hcell := (hseen session).mp hmem
      rw [heq, hk] at hcell
      cases hcell

theorem lookup_absorb_outcomes (carried page : AList fun _ : String => CoreTimerOutcome)
    (id : String) :
    (page.entries.foldl (fun outcomes entry => outcomes.insert entry.1 entry.2)
        carried).lookup id = (page.lookup id).or (carried.lookup id) := by
  have hnodup : (page.entries.map Sigma.fst).Nodup := page.nodupKeys
  cases hlookup : page.lookup id with
  | some outcome =>
    exact lookup_insertAll_of_mem hnodup (AList.mem_lookup_iff.mp hlookup)
  | none =>
    rw [Option.none_or]
    refine lookup_insertAll_of_ne fun entry hentry heq => ?_
    obtain rfl := heq
    rw [AList.mem_lookup_iff.mpr hentry] at hlookup
    cases hlookup

/-- A page that the core answers from its seeds is absorbed as the fold over the
page's events. -/
theorem Carries.absorb (h : fold.Carries state s outcomes) {cut : Set String}
    {events : List TimerEvent} (hcovers : LocalFold.Covers TimerEvent.timerID cut events s)
    {page : TimerReplayPage} (hanswers : fold.Answers events (s.restrict cut) page.result)
    (hcurrent : page.currentTimerID = (fold.run events (s.restrict cut)).focus) :
    fold.Carries (state.absorb page) (fold.run events s)
      (outcomes ++ fold.outcomes events s) := by
  obtain ⟨seen, hsessions, hseenNodup, hseen⟩ := hanswers.sessions
  obtain ⟨items, hhistory, hitemsNodup, hitems⟩ := hanswers.history
  obtain ⟨given, houtcomes, hgiven⟩ := hanswers.outcomes
  have hmerge : s.merge (fold.run events (s.restrict cut)) = fold.run events s :=
    LocalFold.merge_run_restrict hcovers
  obtain ⟨hrun, hsame⟩ := LocalFold.run_restrict (f := fold.toLocalFold) hcovers
  have hkeyed : KeyedSessions (fold.run events s) := run_keyed fold h.keyed
  have hpart : KeyedSessions (fold.run events (s.restrict cut)) := by
    intro k session hk
    refine hkeyed k session ?_
    rw [← hmerge]
    show Option.or _ _ = some session
    rw [hk, Option.some_or]
  have hcells : ∀ k, (fold.run events s).cells k =
      ((fold.run events (s.restrict cut)).cells k).or (s.cells k) := by
    intro k
    conv_lhs => rw [← hmerge]
    rfl
  unfold ReplayState.absorb
  rw [hsessions, hhistory, houtcomes, hanswers.canonical]
  refine ⟨fun k => ?_, fun k => ?_, fun id => ?_, ?_, ?_, hkeyed⟩
  · rw [hcells, ← h.sessions]
    exact lookup_absorb_sessions hpart hseenNodup hseen k
  · rw [hcells]
    refine (lookup_absorb_history hpart hseen hitemsNodup hitems k).trans ?_
    cases (fold.run events (s.restrict cut)).cells k with
    | some session => rfl
    | none => exact h.history k
  · rw [outcomeOf_append, ← hsame, ← hgiven, ← h.outcomes]
    exact lookup_absorb_outcomes state.outcomes given id
  · -- the current timer is one the page looked at
    show fold.shown _ = fold.shown _
    rw [hrun]
    unfold TimerFold.shown
    show ((fold.run events s).focus.bind _).bind _ = _
    cases hfocus : (fold.run events s).focus with
    | none => rfl
    | some k =>
      show Option.bind (((fold.run events s).restrict cut).cells k) _ = _
      rw [LocalFold.restrict_cells k (hcovers.run.focus k hfocus)]
      rfl
  · show page.currentTimerID = _
    rw [hcurrent, hrun]
    rfl

end

/-! ## All pages -/

section
variable {fold} {core : Core} {state : ReplayState} {s : TimerState}
  {outcomes : List (TimerEvent × CoreTimerOutcome)}

/-- One round of the loop: the core answers the page, and what is carried on is
the fold over the page's events. -/
theorem Carries.page (h : fold.Carries state s outcomes) (hcore : fold.RunBy core)
    {batch : List Command} (horder : InLogOrder batch) (hafter : fold.Continues state.after batch)
    (now : Option Time) :
    ∃ page, core.timerReplayPage
        { commands := coreTimerCommands batch
          sessions := replaySeeds state.sessions state.current batch
          currentTimerID := state.current
          after := state.after
          now := now } = .ok page ∧
      fold.Carries (state.absorb page) (fold.run (timerEvents (coreTimerCommands batch) now) s)
        (outcomes ++ fold.outcomes (timerEvents (coreTimerCommands batch) now) s) ∧
      (state.absorb page).canonical.present = true ∧
      page.after = (((coreTimerCommands batch).getLast?).map fold.continuation).or state.after := by
  have hkeyed : ∀ k session, state.sessions.lookup k = some session → session.timerID = k := by
    intro k session hk
    exact h.keyed k session (h.sessions k ▸ hk)
  have hwire : fold.Continues state.after (coreTimerCommands batch) := by
    obtain hnone | ⟨earlier, hearlier, hle⟩ := hafter
    · exact .inl hnone
    · refine .inr ⟨earlier, hearlier, fun command hcommand => ?_⟩
      obtain ⟨command, hmem, rfl⟩ := List.mem_map.mp hcommand
      exact hle command hmem
  obtain ⟨page, hpage, hanswers, hcurrent, hcontinue⟩ := hcore.replayPage
    { commands := coreTimerCommands batch
      sessions := replaySeeds state.sessions state.current batch
      currentTimerID := state.current
      after := state.after
      now := now }
    (inLogOrder_coreTimerCommands horder) (replaySeeds_nodup state.sessions hkeyed _ batch) hwire
  have hpresent : (state.absorb page).canonical.present = true := by
    show page.result.canonical.present = true
    rw [hanswers.canonical]
  refine ⟨page, hpage, ?_, hpresent, hcontinue⟩
  rw [seedState_replaySeeds h batch] at hanswers hcurrent
  have hcovers : LocalFold.Covers TimerEvent.timerID (pageTimers s.focus batch)
      (timerEvents (coreTimerCommands batch) now) s := by
    have hsame : pageTimers s.focus (coreTimerCommands batch) = pageTimers s.focus batch := by
      simp [pageTimers, coreTimerCommands]
    exact hsame ▸ covers_pageTimers (coreTimerCommands batch) now
  exact h.absorb hcovers hanswers hcurrent

/-- The pages together are the fold over the whole log, told the time once. -/
theorem replayPagesFrom_carries (hcore : fold.RunBy core) (now : Time) {ordered : List Command}
    (hne : ordered ≠ []) (horder : InLogOrder ordered)
    (hafter : fold.Continues state.after ordered) (h : fold.Carries state s outcomes) :
    ∃ final, replayPagesFrom core now ordered state = .ok final ∧
      fold.Carries final (fold.run (timerEvents (coreTimerCommands ordered) (some now.utc)) s)
        (outcomes ++ fold.outcomes (timerEvents (coreTimerCommands ordered) (some now.utc)) s) ∧
      final.canonical.present = true := by
  induction ordered, state using replayPagesFrom.induct generalizing s outcomes with
  | case1 => exact absurd rfl hne
  | case2 state command commands rest =>
    rename_i ih
    have hsplit := List.take_append_drop timerReplayPageSize (command :: commands)
    set batch := (command :: commands).take timerReplayPageSize with hbatch
    rw [show (command :: commands).drop timerReplayPageSize = rest from rfl] at hsplit
    have horders := List.pairwise_append.mp (hsplit ▸ horder : InLogOrder (batch ++ rest))
    have hbatchAfter : fold.Continues state.after batch :=
      hafter.imp_right fun ⟨earlier, hearlier, hle⟩ =>
        ⟨earlier, hearlier, fun command hmem => hle command (List.mem_of_mem_take hmem)⟩
    obtain ⟨page, hpage, hcarries, hpresent, hcontinue⟩ := h.page hcore horders.1 hbatchAfter
      (if rest = [] then some now.utc else none)
    have hround : replayPagesFrom core now (command :: commands) state =
        replayPagesFrom core now rest (state.absorb page) := by
      conv_lhs => unfold replayPagesFrom
      show (core.timerReplayPage _ >>= fun page => _) = _
      rw [hpage]
      rfl
    rw [hround]
    by_cases hrest : rest = []
    · -- the last page, which is told the time
      rw [if_pos hrest] at hcarries
      rw [hrest, List.append_nil] at hsplit
      rw [hrest, ← hsplit]
      unfold replayPagesFrom
      exact ⟨_, rfl, hcarries, hpresent⟩
    · rw [if_neg hrest] at hcarries
      obtain ⟨last, hlast⟩ : ∃ last, batch.getLast? = some last := by
        refine Option.ne_none_iff_exists'.mp fun hnone => ?_
        rw [List.getLast?_eq_none_iff, hbatch] at hnone
        simp [timerReplayPageSize] at hnone
      have hnext : fold.Continues (state.absorb page).after rest := by
        refine .inr ⟨{ last with occurredAt := last.occurredAt.utc }, ?_, fun later hlater => ?_⟩
        · show page.after = _
          rw [hcontinue]
          unfold coreTimerCommands
          rw [List.getLast?_map, hlast]
          rfl
        · exact horders.2.2 last (List.mem_of_getLast? hlast) later hlater
      obtain ⟨final, hfinal, hwhole, hshown⟩ := ih page hrest horders.2.1 hnext hcarries
      refine ⟨final, hfinal, ?_, hshown⟩
      rw [← hsplit, timerEvents_append, LocalFold.run_append, LocalFold.outcomes_append,
        ← List.append_assoc]
      exact hwhole

/-- A log in order is replayed from nothing to the fold over it; nothing happens
to an empty one, not even when it is told the time. -/
theorem replayPages_carries (hcore : fold.RunBy core) (now : Time) {commands : List Command}
    (horder : InLogOrder commands) :
    ∃ final, replayPagesFrom core now commands {} = .ok final ∧
      fold.Carries final (fold.run (timerEvents (coreTimerCommands commands) (some now.utc)) .empty)
        (fold.outcomes (timerEvents (coreTimerCommands commands) (some now.utc)) .empty) ∧
      (commands ≠ [] → final.canonical.present = true) := by
  by_cases hne : commands = []
  · subst hne
    have hblind : fold.step (.now now.utc) .empty = .empty :=
      fold.step_blind fun k hk => by obtain hk | hk := hk <;> cases hk
    unfold replayPagesFrom
    refine ⟨_, rfl, ?_, fun hne => absurd rfl hne⟩
    show fold.Carries {} (fold.step (.now now.utc) .empty) [(.now now.utc, _)]
    rw [hblind]
    exact { fold.carries_start with outcomes := fun id => AList.lookup_empty id }
  · obtain ⟨final, hfinal, hcarries, hpresent⟩ :=
      replayPagesFrom_carries hcore now hne horder (.inl rfl) fold.carries_start
    exact ⟨final, hfinal, hcarries, fun _ => hpresent⟩

end

end TimerFold

/-! ## The order of the projection -/

theorem compareHistory_swap (a b : HistoryItem) :
    compareHistory b a = (compareHistory a b).swap := by
  unfold compareHistory
  cases a.endedAt.parsed <;> cases b.endedAt.parsed <;>
    simp only [Ordering.swap_then, ← Std.OrientedOrd.eq_swap]

theorem compareHistory_self (item : HistoryItem) : compareHistory item item ≠ .gt := by
  unfold compareHistory
  cases item.endedAt.parsed <;> simp

section
variable {fold : TimerFold} {state : ReplayState} {s : TimerState} {events : List TimerEvent}
  {outcomes : List (TimerEvent × CoreTimerOutcome)} {whole : CoreTimerResult}

/-- What is carried at the end, put in order, is the answer to the whole log. -/
theorem orderedReplayProjection_eq (h : fold.Carries state (fold.run events .empty) outcomes)
    (hanswers : fold.Answers events .empty whole)
    (hsessions : ∀ sessions ∈ whole.sessions, sessions.Pairwise fun a b => a.timerID < b.timerID)
    (hhistory : ∀ history ∈ whole.history,
      history.Pairwise fun a b => compareHistory a b = .lt) :
    whole.sessions = some (orderedReplayProjection state).1 ∧
      whole.history = some (orderedReplayProjection state).2 := by
  obtain ⟨sessions, hwholeSessions, hsessionsNodup, hsessionsMem⟩ := hanswers.sessions
  obtain ⟨history, hwholeHistory, hhistoryNodup, hhistoryMem⟩ := hanswers.history
  have hsessionsPerm : (state.sessions.entries.map fun entry => entry.2).Perm sessions := by
    refine entries_perm hsessionsNodup fun k session => ?_
    rw [h.sessions, hsessionsMem]
    constructor
    · intro hcell
      obtain rfl := h.keyed k session hcell
      exact ⟨hcell, rfl⟩
    · rintro ⟨hcell, rfl⟩
      exact hcell
  have hhistoryPerm : (state.history.entries.map fun entry => entry.2).Perm history := by
    refine entries_perm hhistoryNodup fun k item => ?_
    rw [h.history, hhistoryMem]
    constructor
    · intro hitem
      obtain ⟨session, hcell, hitem'⟩ := Option.bind_eq_some_iff.mp hitem
      have htimer := fold.historyItem_timerID session item hitem'
      rw [h.keyed k session hcell] at htimer
      exact ⟨htimer ▸ hitem, htimer⟩
    · rintro ⟨hitem, rfl⟩
      exact hitem
  have hsorted : sortBy CoreTimerSession.timerID (state.sessions.entries.map fun entry => entry.2) =
      sessions :=
    insertionSort_eq_of_perm
      ((hsessions sessions hwholeSessions).imp fun hlt => ⟨hlt.le, not_le_of_gt hlt⟩)
      (fun session => le_rfl) hsessionsPerm
  have hitems : (state.history.entries.map fun entry => entry.2).insertionSort
      (fun a b => compareHistory a b ≠ .gt) = history := by
    refine insertionSort_eq_of_perm ((hhistory history hwholeHistory).imp fun {a b} hlt => ?_)
      compareHistory_self hhistoryPerm
    rw [compareHistory_swap a b, hlt]
    simp
  unfold orderedReplayProjection
  rw [hsorted, hitems]
  exact ⟨hwholeSessions, hwholeHistory⟩

end

end Pomodorough.Store.PagedReplay
