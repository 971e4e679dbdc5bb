import Pomodorough.Library.FixedWindows
import Pomodorough.Library.OrderedMaps
import Pomodorough.Library.Traces
import Mathlib.Data.String.Basic
import Mathlib.Algebra.Order.Group.Unbundled.Int

/-! # The rate limiter of the HTTP server

`windowRateLimiter` counts the calls of a key in a window that its first call opens.
Its table is pruned every 256th call and holds 4096 entries at most. A limiter that
keeps every entry it ever wrote is compared with it: both decide as the windows of
the calls they permitted say. -/
namespace Pomodorough.Server.RateLimit
open Pomodorough.Library
open Pomodorough.Library.OrderedMaps (OrderedMap)
open Pomodorough.Library.FixedWindows

/-! ## Moments and durations -/

/-- `time.Duration`: nanoseconds of 64 bits. -/
structure Duration where
  nanoseconds : Int
  lower : -9223372036854775808 ≤ nanoseconds
  upper : nanoseconds ≤ 9223372036854775807
deriving DecidableEq

/-- The duration nearest to a number of nanoseconds. -/
def Duration.nearest (n : Int) : Duration :=
  ⟨max (-9223372036854775808) (min 9223372036854775807 n), by omega, by omega⟩

def Duration.zero : Duration := ⟨0, by decide, by decide⟩

/-- `Time.Add`, on moments in nanoseconds. -/
def add (moment : Int) (duration : Duration) : Int := moment + duration.nanoseconds

/-- `Time.Sub`, which answers the nearest duration. -/
def sub (moment since : Int) : Duration := .nearest (moment - since)

theorem sub_nanoseconds (moment since : Int) (duration : Duration) (hlower : 0 ≤ moment - since)
    (hupper : moment - since ≤ duration.nanoseconds) :
    (sub moment since).nanoseconds = moment - since := by
  have hbound := duration.upper
  simp only [sub, Duration.nearest]
  omega

/-! ## The limiter -/

structure WindowRateEntry where
  startedAt : Int
  count : Nat
deriving DecidableEq

structure WindowRateLimiter where
  limit : Nat
  window : Duration
  entries : OrderedMap String WindowRateEntry
  requests : UInt64
deriving DecidableEq

def newWindowRateLimiter (limit : Nat) (window : Duration) : WindowRateLimiter :=
  ⟨limit, window, .empty, 0⟩

namespace WindowRateLimiter

/-- The most entries that the table holds. -/
def capacity : Nat := 4096

/-- Whether an entry's window does not contain the moment. -/
def expired (l : WindowRateLimiter) (entry : WindowRateEntry) (now : Int) : Bool :=
  now < entry.startedAt || !(now < add entry.startedAt l.window)

def prune (l : WindowRateLimiter) (now : Int) : WindowRateLimiter :=
  if l.requests % 256 ≠ 0 then l
  else { l with entries := l.entries.filter fun _ entry =>
    !((sub now entry.startedAt).nanoseconds ≥ l.window.nanoseconds || now < entry.startedAt) }

/-- What `allow` does about a full table before it adds a key. -/
def makeRoom (l : WindowRateLimiter) (now : Int) : WindowRateLimiter :=
  { l with entries := l.entries.filter fun _ entry => !l.expired entry now }

def store (l : WindowRateLimiter) (key : String) (entry : WindowRateEntry) : WindowRateLimiter :=
  { l with entries := l.entries.write key entry }

/-- Whether the call is permitted, after which delay to repeat it, and the limiter
after the call. -/
def allow (l : WindowRateLimiter) (key : String) (now : Int) :
    (Bool × Duration) × WindowRateLimiter :=
  let l := { l with requests := l.requests + 1 }
  match l.entries.find? key with
  | none =>
    if capacity ≤ l.entries.entries.length then
      let l := l.makeRoom now
      if capacity ≤ l.entries.entries.length then ((false, l.window), l)
      else ((true, .zero), (l.store key ⟨now, 1⟩).prune now)
    else ((true, .zero), (l.store key ⟨now, 1⟩).prune now)
  | some entry =>
    if l.expired entry now then ((true, .zero), (l.store key ⟨now, 1⟩).prune now)
    else if l.limit ≤ entry.count then ((false, sub (add entry.startedAt l.window) now), l)
    else ((true, .zero), (l.store key { entry with count := entry.count + 1 }).prune now)

/-- The limiter that never prunes: it has no capacity and deletes no entry. -/
def allowUnbounded (l : WindowRateLimiter) (key : String) (now : Int) :
    (Bool × Duration) × WindowRateLimiter :=
  let l := { l with requests := l.requests + 1 }
  match l.entries.find? key with
  | none => ((true, .zero), l.store key ⟨now, 1⟩)
  | some entry =>
    if l.expired entry now then ((true, .zero), l.store key ⟨now, 1⟩)
    else if l.limit ≤ entry.count then ((false, sub (add entry.startedAt l.window) now), l)
    else ((true, .zero), l.store key { entry with count := entry.count + 1 })

/-- The table is full of unexpired entries of other keys. -/
def Full (l : WindowRateLimiter) (key : String) (now : Int) : Prop :=
  l.entries.find? key = none ∧
    capacity ≤ (l.entries.filter fun _ entry => !l.expired entry now).entries.length

instance (l : WindowRateLimiter) (key : String) (now : Int) : Decidable (l.Full key now) :=
  inferInstanceAs (Decidable (_ ∧ _))

end WindowRateLimiter

/-! ## Runs -/

structure Call where
  key : String
  now : Int
deriving DecidableEq

/-- A limiter, the calls it did not deny for want of room, and the calls it permitted. -/
structure History where
  limiter : WindowRateLimiter
  admitted : List Call
  permitted : List Call

def History.start (limit : Nat) (window : Duration) : History :=
  ⟨newWindowRateLimiter limit window, [], []⟩

/-- The moments of the calls of a key. -/
def timesOf (calls : List Call) (key : String) : List Int :=
  (calls.filter fun call => call.key = key).map Call.now

def record (h : History) (call : Call) : History :=
  let answer := h.limiter.allow call.key call.now
  { limiter := answer.2
    admitted := if h.limiter.Full call.key call.now then h.admitted else h.admitted ++ [call]
    permitted := if answer.1.1 then h.permitted ++ [call] else h.permitted }

def recordUnbounded (h : History) (call : Call) : History :=
  let answer := h.limiter.allowUnbounded call.key call.now
  { limiter := answer.2
    admitted := h.admitted ++ [call]
    permitted := if answer.1.1 then h.permitted ++ [call] else h.permitted }

/-- The history of a limiter with the limit and the window through the calls. -/
def served (limit : Nat) (window : Duration) (calls : List Call) : History :=
  Traces.run record (.start limit window) calls

def servedUnbounded (limit : Nat) (window : Duration) (calls : List Call) : History :=
  Traces.run recordUnbounded (.start limit window) calls

/-! ## What the windows of the permitted calls say -/

/-- The windows of a key's permitted calls, the last window first. -/
def windowsOf (window : Duration) (permitted : List Call) (key : String) : List (Window Int) :=
  windows (add · window) (timesOf permitted key)

/-- The answer to a call that no table is asked about. -/
def decision (limit : Nat) (window : Duration) (ws : List (Window Int)) (now : Int) :
    Bool × Duration :=
  match openAt (add · window) ws now with
  | none => (true, .zero)
  | some w => if limit ≤ w.count then (false, sub (add w.start window) now) else (true, .zero)

/-- The key's last window contains the moment and has as many calls as the limit. -/
def UsedUp (limit : Nat) (window : Duration) (permitted : List Call) (key : String) (now : Int) :
    Prop :=
  ∃ start, (windowsOf window permitted key).head? = some ⟨start, limit⟩ ∧ start ≤ now ∧
    now < add start window

section Windows
variable {limit : Nat} {window : Duration} {past : List Call} {key key' : String} {now now' : Int}
  {w : Window Int} {ws : List (Window Int)} {table : OrderedMap String WindowRateEntry}
  {entry : WindowRateEntry} {call : Call}

theorem timesOf_snoc : timesOf (past ++ [call]) key =
    if call.key = key then timesOf past key ++ [call.now] else timesOf past key := by
  by_cases h : call.key = key <;> simp [timesOf, h]

theorem windowsOf_self : windowsOf window (past ++ [call]) call.key =
    advance (add · window) (windowsOf window past call.key) call.now := by
  simp [windowsOf, timesOf_snoc]

theorem windowsOf_of_ne (h : call.key ≠ key) :
    windowsOf window (past ++ [call]) key = windowsOf window past key := by
  simp [windowsOf, timesOf_snoc, h]

theorem started_mem (h : w ∈ windowsOf window past key) : ∃ call ∈ past, call.now = w.start := by
  have hmem : w.start ∈ timesOf past key := started_windows w h
  obtain ⟨call, hcall, hnow⟩ := List.mem_map.mp hmem
  exact ⟨call, List.mem_of_mem_filter hcall, hnow⟩

theorem decision_of_closed (h : openAt (add · window) ws now = none) :
    decision limit window ws now = (true, .zero) := by
  simp [decision, h]

theorem decision_of_used (h : openAt (add · window) ws now = some w) (hcount : limit ≤ w.count) :
    decision limit window ws now = (false, sub (add w.start window) now) := by
  simp [decision, h, hcount]

theorem decision_of_counted (h : openAt (add · window) ws now = some w) (hcount : ¬ limit ≤ w.count) :
    decision limit window ws now = (true, .zero) := by
  simp [decision, h, hcount]

/-- A table that says of every window that is still open what the permitted calls say. -/
structure Follows (limit : Nat) (window : Duration) (table : OrderedMap String WindowRateEntry)
    (past : List Call) (now : Int) : Prop where
  recorded : ∀ key entry, table.find? key = some entry →
    (windowsOf window past key).head? = some ⟨entry.startedAt, entry.count⟩
  current : ∀ key w, openAt (add · window) (windowsOf window past key) now = some w →
    table.find? key = some ⟨w.start, w.count⟩
  elapsed : ∀ call ∈ past, call.now ≤ now
  bounded : ∀ key, ∀ w ∈ windowsOf window past key, w.count ≤ limit

namespace Follows

theorem start : Follows limit window .empty [] now := by
  constructor <;> simp [OrderedMap.empty, OrderedMap.find?, windowsOf, timesOf, openAt]

theorem later (h : Follows limit window table past now) (hnow : now ≤ now') :
    Follows limit window table past now' := by
  refine ⟨h.recorded, ?_, fun call hcall => (h.elapsed call hcall).trans hnow, h.bounded⟩
  intro key w hopen
  obtain ⟨hhead, hlt⟩ := openAt_iff.mp hopen
  exact h.current key w (openAt_iff.mpr ⟨hhead, hnow.trans_lt hlt⟩)

theorem started (h : Follows limit window table past now) (hw : w ∈ windowsOf window past key) :
    w.start ≤ now := by
  obtain ⟨call, hcall, hstart⟩ := started_mem hw
  exact hstart ▸ h.elapsed call hcall

theorem entry_started (h : Follows limit window table past now)
    (hfind : table.find? key = some entry) : entry.startedAt ≤ now :=
  h.started (w := ⟨entry.startedAt, entry.count⟩) (List.mem_of_mem_head? (h.recorded key entry hfind))

theorem closed_of_none (h : Follows limit window table past now) (hfind : table.find? key = none) :
    openAt (add · window) (windowsOf window past key) now = none := by
  rw [Option.eq_none_iff_forall_not_mem]
  intro w hw
  simp [h.current key w hw] at hfind

theorem open_of_entry (h : Follows limit window table past now)
    (hfind : table.find? key = some entry) (hlt : now < add entry.startedAt window) :
    openAt (add · window) (windowsOf window past key) now =
      some ⟨entry.startedAt, entry.count⟩ :=
  openAt_iff.mpr ⟨h.recorded key entry hfind, hlt⟩

theorem closed_of_ended (h : Follows limit window table past now)
    (hfind : table.find? key = some entry) (hend : ¬ now < add entry.startedAt window) :
    openAt (add · window) (windowsOf window past key) now = none := by
  rw [Option.eq_none_iff_forall_not_mem]
  intro w hw
  obtain ⟨hhead, hlt⟩ := openAt_iff.mp hw
  rw [h.recorded key entry hfind, Option.some.injEq] at hhead
  subst hhead
  exact hend hlt

/-- Entries whose windows have ended may be deleted. -/
theorem filtered (h : Follows limit window table past now) {p : String → WindowRateEntry → Bool}
    (hkept : ∀ key entry, table.find? key = some entry → now < add entry.startedAt window →
      p key entry = true) :
    Follows limit window (table.filter p) past now := by
  refine ⟨?_, ?_, h.elapsed, h.bounded⟩
  · intro key entry hfind
    rw [OrderedMap.find?_filter, Option.filter_eq_some_iff] at hfind
    exact h.recorded key entry hfind.1
  · intro key w hopen
    have hfind := h.current key w hopen
    rw [OrderedMap.find?_filter, Option.filter_eq_some_iff]
    exact ⟨hfind, hkept key _ hfind (openAt_iff.mp hopen).2⟩

/-- A permitted call is written down as the window that now counts it. -/
theorem permitted (h : Follows limit window table past call.now) (hlimit : 1 ≤ limit)
    (hpermits : permits limit (add · window) (windowsOf window past call.key) call.now = true)
    (hentry : (advance (add · window) (windowsOf window past call.key) call.now).head? =
      some ⟨entry.startedAt, entry.count⟩) :
    Follows limit window (table.write call.key entry) (past ++ [call]) call.now := by
  refine ⟨?_, ?_, ?_, ?_⟩
  · intro key found hfind
    by_cases hkey : key = call.key
    · subst hkey
      obtain rfl : entry = found := by simpa using hfind
      rw [windowsOf_self, hentry]
    · rw [OrderedMap.find?_write_of_ne hkey] at hfind
      rw [windowsOf_of_ne (Ne.symm hkey)]
      exact h.recorded key found hfind
  · intro key w hopen
    by_cases hkey : key = call.key
    · subst hkey
      have hhead := (openAt_iff.mp hopen).1
      rw [windowsOf_self, hentry, Option.some.injEq] at hhead
      subst hhead
      exact OrderedMap.find?_write_self
    · rw [windowsOf_of_ne (Ne.symm hkey)] at hopen
      rw [OrderedMap.find?_write_of_ne hkey]
      exact h.current key w hopen
  · intro other hother
    obtain hmem | rfl := by simpa using hother
    · exact h.elapsed other hmem
    · exact le_rfl
  · intro key
    by_cases hkey : key = call.key
    · subst hkey
      rw [windowsOf_self]
      exact advance_within hlimit (h.bounded call.key) hpermits
    · rw [windowsOf_of_ne (Ne.symm hkey)]
      exact h.bounded key

theorem opened (h : Follows limit window table past call.now) (hlimit : 1 ≤ limit)
    (hclosed : openAt (add · window) (windowsOf window past call.key) call.now = none) :
    Follows limit window (table.write call.key ⟨call.now, 1⟩) (past ++ [call]) call.now :=
  h.permitted hlimit (by simp [permits, hclosed]) (head?_advance_of_closed hclosed)

theorem counted (h : Follows limit window table past call.now) (hlimit : 1 ≤ limit)
    (hopen : openAt (add · window) (windowsOf window past call.key) call.now =
      some ⟨entry.startedAt, entry.count⟩) (hcount : ¬ limit ≤ entry.count) :
    Follows limit window (table.write call.key { entry with count := entry.count + 1 })
      (past ++ [call]) call.now :=
  h.permitted hlimit (by simpa [permits, hopen] using hcount) (head?_advance_of_open hopen)

end Follows

end Windows

/-! ## One call -/

section Calls
variable {l : WindowRateLimiter} {past : List Call} {call : Call} {key : String} {now : Int}
  {entry : WindowRateEntry}

namespace WindowRateLimiter

/-- The limiter's table follows the permitted calls. -/
def Tracks (l : WindowRateLimiter) (past : List Call) (now : Int) : Prop :=
  Follows l.limit l.window l.entries past now

@[simp] theorem prune_limit : (l.prune now).limit = l.limit := by
  unfold prune
  split <;> rfl

@[simp] theorem prune_window : (l.prune now).window = l.window := by
  unfold prune
  split <;> rfl

theorem expired_eq (hstart : entry.startedAt ≤ now) :
    l.expired entry now = !decide (now < add entry.startedAt l.window) := by
  simp [expired, not_lt.mpr hstart]

/-- `Sub` answers the nearest duration, which is the window's length or more exactly
for the entries whose windows have ended. -/
theorem window_le_sub (hstart : entry.startedAt ≤ now) :
    l.window.nanoseconds ≤ (sub now entry.startedAt).nanoseconds ↔
      ¬ now < add entry.startedAt l.window := by
  have hupper := l.window.upper
  simp only [sub, Duration.nearest, add]
  omega

theorem Tracks.prune (h : l.Tracks past now) : (l.prune now).Tracks past now := by
  unfold Tracks
  rw [prune_limit, prune_window]
  unfold WindowRateLimiter.prune
  split
  · exact h
  · dsimp only
    refine Follows.filtered h ?_
    intro key entry hfind hlt
    have hstart := Follows.entry_started h hfind
    have hsub : ¬ l.window.nanoseconds ≤ (sub now entry.startedAt).nanoseconds :=
      fun hle => (window_le_sub hstart).mp hle hlt
    simpa using ⟨not_le.mp hsub, hstart⟩

theorem Tracks.makeRoom (h : l.Tracks past now) : (l.makeRoom now).Tracks past now := by
  unfold Tracks WindowRateLimiter.makeRoom
  dsimp only
  refine Follows.filtered h ?_
  intro key entry hfind hlt
  rw [expired_eq (Follows.entry_started h hfind)]
  simpa using hlt

/-- What holds of the answer to a call and of the limiter after it. -/
structure Decides (l : WindowRateLimiter) (past : List Call) (call : Call)
    (answer : (Bool × Duration) × WindowRateLimiter) : Prop where
  outcome : answer.1 = decision l.limit l.window (windowsOf l.window past call.key) call.now
  tracks : answer.2.Tracks (if answer.1.1 then past ++ [call] else past) call.now
  limit : answer.2.limit = l.limit
  window : answer.2.window = l.window

theorem Decides.prune {outcome : Bool × Duration} {l' : WindowRateLimiter}
    (h : l.Decides past call (outcome, l')) : l.Decides past call (outcome, l'.prune call.now) :=
  ⟨h.outcome, h.tracks.prune, by simpa using h.limit, by simpa using h.window⟩

/-- Neither the count of requests nor room made in the table changes a decision. -/
theorem decides_of_same {l' : WindowRateLimiter} (hlimit : l'.limit = l.limit)
    (hwindow : l'.window = l.window) {answer : (Bool × Duration) × WindowRateLimiter}
    (h : l'.Decides past call answer) : l.Decides past call answer :=
  ⟨by rw [h.outcome, hlimit, hwindow], h.tracks, h.limit.trans hlimit, h.window.trans hwindow⟩

section
variable (h : l.Tracks past call.now) (hlimit : 1 ≤ l.limit)
include h hlimit

theorem decides_new (hfind : l.entries.find? call.key = none) :
    l.Decides past call ((true, .zero), l.store call.key ⟨call.now, 1⟩) :=
  have hclosed := Follows.closed_of_none h hfind
  ⟨(decision_of_closed hclosed).symm, Follows.opened h hlimit hclosed, rfl, rfl⟩

theorem decides_expired (hfind : l.entries.find? call.key = some entry)
    (hexpired : l.expired entry call.now = true) :
    l.Decides past call ((true, .zero), l.store call.key ⟨call.now, 1⟩) := by
  rw [expired_eq (Follows.entry_started h hfind)] at hexpired
  have hclosed := Follows.closed_of_ended h hfind (by simpa using hexpired)
  exact ⟨(decision_of_closed hclosed).symm, Follows.opened h hlimit hclosed, rfl, rfl⟩

theorem decides_counted (hfind : l.entries.find? call.key = some entry)
    (hexpired : ¬ l.expired entry call.now = true) (hcount : ¬ l.limit ≤ entry.count) :
    l.Decides past call
      ((true, .zero), l.store call.key { entry with count := entry.count + 1 }) := by
  rw [expired_eq (Follows.entry_started h hfind)] at hexpired
  have hopen := Follows.open_of_entry h hfind (by simpa using hexpired)
  exact ⟨(decision_of_counted hopen hcount).symm, Follows.counted h hlimit hopen hcount, rfl, rfl⟩

omit hlimit in
theorem decides_used (hfind : l.entries.find? call.key = some entry)
    (hexpired : ¬ l.expired entry call.now = true) (hcount : l.limit ≤ entry.count) :
    l.Decides past call ((false, sub (add entry.startedAt l.window) call.now), l) := by
  rw [expired_eq (Follows.entry_started h hfind)] at hexpired
  have hopen := Follows.open_of_entry h hfind (by simpa using hexpired)
  exact ⟨(decision_of_used hopen hcount).symm, h, rfl, rfl⟩

/-- The limiter that never prunes decides as the windows of its permitted calls say. -/
theorem allowUnbounded_decides :
    l.Decides past call (l.allowUnbounded call.key call.now) := by
  suffices hcounted : { l with requests := l.requests + 1 }.Decides past call
      (l.allowUnbounded call.key call.now) from @decides_of_same l _ _ { l with requests := l.requests + 1 } rfl rfl _ hcounted
  have h' : { l with requests := l.requests + 1 }.Tracks past call.now := h
  simp only [allowUnbounded]
  split
  · next hfind => exact decides_new h' hlimit hfind
  · next entry hfind =>
    split
    · next hexpired => exact decides_expired h' hlimit hfind hexpired
    · next hexpired =>
      split
      · next hcount => exact decides_used h' hfind hexpired hcount
      · next hcount => exact decides_counted h' hlimit hfind hexpired hcount

/-- So does the limiter of the server, where its table has room for the call's key. -/
theorem allow_decides (hroom : ¬ l.Full call.key call.now) :
    l.Decides past call (l.allow call.key call.now) := by
  suffices hcounted : { l with requests := l.requests + 1 }.Decides past call
      (l.allow call.key call.now) from @decides_of_same l _ _ { l with requests := l.requests + 1 } rfl rfl _ hcounted
  have h' : { l with requests := l.requests + 1 }.Tracks past call.now := h
  simp only [allow]
  split
  · next hfind =>
    split
    · split
      · next hfull => exact absurd ⟨hfind, hfull⟩ hroom
      · have hfind' : ({ l with requests := l.requests + 1 }.makeRoom call.now).entries.find?
            call.key = none := by
          rw [makeRoom, OrderedMap.find?_filter, hfind]
          rfl
        have hmade := (decides_new h'.makeRoom hlimit hfind').prune
        exact ⟨hmade.outcome, hmade.tracks, hmade.limit, hmade.window⟩
    · exact (decides_new h' hlimit hfind).prune
  · next entry hfind =>
    split
    · next hexpired => exact (decides_expired h' hlimit hfind hexpired).prune
    · next hexpired =>
      split
      · next hcount => exact decides_used h' hfind hexpired hcount
      · next hcount => exact (decides_counted h' hlimit hfind hexpired hcount).prune

end

/-- A table without room makes the limiter deny the call, and nothing else. -/
theorem allow_full (h : l.Tracks past now) (hfull : l.Full key now) :
    (l.allow key now).1 = (false, l.window) ∧ (l.allow key now).2.Tracks past now ∧
      (l.allow key now).2.limit = l.limit ∧ (l.allow key now).2.window = l.window := by
  obtain ⟨hfind, hfull⟩ := hfull
  have hlength := hfull.trans (OrderedMap.length_filter_le _)
  have hroom : capacity ≤
      ({ l with requests := l.requests + 1 }.makeRoom now).entries.entries.length := hfull
  have hmake : { l with requests := l.requests + 1 }.Tracks past now := h
  simp only [allow, hfind, if_pos hlength, if_pos hroom]
  exact ⟨rfl, hmake.makeRoom, rfl, rfl⟩

/-! ### The capacity -/

theorem length_prune_le : (l.prune now).entries.entries.length ≤ l.entries.entries.length := by
  unfold prune
  split
  · exact le_rfl
  · exact OrderedMap.length_filter_le _

theorem length_store_le (h : l.entries.entries.length < capacity) :
    ((l.store key entry).prune now).entries.entries.length ≤ capacity :=
  length_prune_le.trans (OrderedMap.length_write_le.trans h)

theorem length_replace_le {found : WindowRateEntry} (h : l.entries.entries.length ≤ capacity)
    (hfind : l.entries.find? key = some found) :
    ((l.store key entry).prune now).entries.entries.length ≤ capacity :=
  length_prune_le.trans ((OrderedMap.length_write_of_found hfind).trans h)

theorem length_allow_le (h : l.entries.entries.length ≤ capacity) :
    (l.allow key now).2.entries.entries.length ≤ capacity := by
  simp only [allow]
  split
  · split
    · split
      · exact (OrderedMap.length_filter_le _).trans h
      · next hroom => exact length_store_le (not_le.mp hroom)
    · next hroom => exact length_store_le (not_le.mp hroom)
  · next found hfind =>
    split
    · exact length_replace_le h hfind
    · split
      · exact h
      · exact length_replace_le h hfind

theorem Tracks.later {now' : Int} (h : l.Tracks past now) (hnow : now ≤ now') :
    l.Tracks past now' :=
  Follows.later h hnow

/-- A denied call, repeated once its key's window has ended. -/
theorem allow_after_used (h : l.Tracks past now) (hfind : l.entries.find? key = some entry)
    (hexpired : ¬ l.expired entry now = true) (hcount : l.limit ≤ entry.count) {later : Int}
    (hlater : now + (l.allow key now).1.2.nanoseconds ≤ later) :
    ((l.allow key now).2.allow key later).1.1 = true := by
  have hstart := Follows.entry_started h hfind
  have hlt : now < add entry.startedAt l.window := by
    simpa [expired_eq hstart] using hexpired
  have hallow : l.allow key now = ((false, sub (add entry.startedAt l.window) now),
      { l with requests := l.requests + 1 }) := by
    simp only [allow, hfind, expired_eq hstart, hlt, hcount]
    simp
  have hdelay := sub_nanoseconds (add entry.startedAt l.window) now l.window (by omega)
    (by simp only [add]; omega)
  rw [hallow] at hlater ⊢
  simp only [hdelay] at hlater
  have hended : { l with requests := l.requests + 1 + 1 }.expired entry later = true := by
    rw [expired_eq (by omega)]
    simp only [Bool.not_eq_true', decide_eq_false_iff_not, not_lt]
    omega
  simp only [allow, hfind]
  rw [if_pos hended]

end WindowRateLimiter

/-! ## Runs of calls -/

/-- A limiter's history, and that of the limiter that never prunes through the calls
that found room. -/
structure Agrees (limit : Nat) (window : Duration) (h u : History) (now : Int) : Prop where
  sameLimit : h.limiter.limit = limit
  sameWindow : h.limiter.window = window
  tracks : h.limiter.Tracks h.permitted now
  capacity : h.limiter.entries.entries.length ≤ WindowRateLimiter.capacity
  unboundedLimit : u.limiter.limit = limit
  unboundedWindow : u.limiter.window = window
  unboundedTracks : u.limiter.Tracks u.permitted now
  permitted : u.permitted = h.permitted

namespace Agrees
variable {limit : Nat} {window : Duration} {h u : History} {now' : Int}

theorem start : Agrees limit window (.start limit window) (.start limit window) now :=
  ⟨rfl, rfl, Follows.start, Nat.zero_le _, rfl, rfl, Follows.start, rfl⟩

theorem later (a : Agrees limit window h u now) (hnow : now ≤ now') :
    Agrees limit window h u now' :=
  { a with tracks := a.tracks.later hnow, unboundedTracks := a.unboundedTracks.later hnow }

theorem decides (a : Agrees limit window h u call.now) (hlimit : 1 ≤ limit)
    (hroom : ¬ h.limiter.Full call.key call.now) :
    h.limiter.Decides h.permitted call (h.limiter.allow call.key call.now) :=
  WindowRateLimiter.allow_decides a.tracks (a.sameLimit ▸ hlimit) hroom

theorem unbounded_decides (a : Agrees limit window h u call.now) (hlimit : 1 ≤ limit) :
    u.limiter.Decides u.permitted call (u.limiter.allowUnbounded call.key call.now) :=
  WindowRateLimiter.allowUnbounded_decides a.unboundedTracks (a.unboundedLimit ▸ hlimit)

/-- Both limiters give the same answer where the table has room. -/
theorem answers (a : Agrees limit window h u call.now) (hlimit : 1 ≤ limit)
    (hroom : ¬ h.limiter.Full call.key call.now) :
    (u.limiter.allowUnbounded call.key call.now).1 = (h.limiter.allow call.key call.now).1 := by
  rw [(a.unbounded_decides hlimit).outcome, (a.decides hlimit hroom).outcome, a.unboundedLimit,
    a.unboundedWindow, a.sameLimit, a.sameWindow, a.permitted]

theorem record (a : Agrees limit window h u call.now) (hlimit : 1 ≤ limit)
    (hroom : ¬ h.limiter.Full call.key call.now) :
    Agrees limit window (record h call) (recordUnbounded u call) call.now :=
  have hdecides := a.decides hlimit hroom
  have hunbounded := a.unbounded_decides hlimit
  { sameLimit := hdecides.limit.trans a.sameLimit
    sameWindow := hdecides.window.trans a.sameWindow
    tracks := hdecides.tracks
    capacity := WindowRateLimiter.length_allow_le a.capacity
    unboundedLimit := hunbounded.limit.trans a.unboundedLimit
    unboundedWindow := hunbounded.window.trans a.unboundedWindow
    unboundedTracks := hunbounded.tracks
    permitted := by simp only [RateLimit.record, recordUnbounded, a.answers hlimit hroom, a.permitted] }

theorem record_full (a : Agrees limit window h u call.now)
    (hfull : h.limiter.Full call.key call.now) :
    Agrees limit window (RateLimit.record h call) u call.now := by
  obtain ⟨hanswer, htracks, hlimit, hwindow⟩ := WindowRateLimiter.allow_full a.tracks hfull
  have hpermitted : (RateLimit.record h call).permitted = h.permitted := by
    simp [RateLimit.record, hanswer]
  exact
    { sameLimit := hlimit.trans a.sameLimit
      sameWindow := hwindow.trans a.sameWindow
      tracks := hpermitted ▸ htracks
      capacity := WindowRateLimiter.length_allow_le a.capacity
      unboundedLimit := a.unboundedLimit
      unboundedWindow := a.unboundedWindow
      unboundedTracks := a.unboundedTracks
      permitted := hpermitted ▸ a.permitted }

end Agrees

end Calls

section Served
variable {limit : Nat} {window : Duration} {calls : List Call} {call : Call} {key : String}
  {now : Int}

theorem served_snoc : served limit window (calls ++ [call]) =
    record (served limit window calls) call := by
  simp [served]

theorem servedUnbounded_snoc : servedUnbounded limit window (calls ++ [call]) =
    recordUnbounded (servedUnbounded limit window calls) call := by
  simp [servedUnbounded]

theorem permitted_sublist : (served limit window calls).permitted.Sublist calls := by
  induction calls using List.reverseRecOn with
  | nil => exact List.Sublist.refl _
  | append_singleton calls call ih =>
    rw [served_snoc]
    simp only [record]
    by_cases hanswer : ((served limit window calls).limiter.allow call.key call.now).1.1
    · rw [if_pos hanswer]
      exact ih.append (List.Sublist.refl _)
    · rw [if_neg hanswer]
      exact ih.trans (List.sublist_append_left _ _)

/-- Where no call found the table full, the limiter that never prunes is asked
about every call. -/
theorem admitted_of_room (hroom : Traces.Meets record
    (fun h call => ¬ h.limiter.Full call.key call.now) (.start limit window) calls) :
    (served limit window calls).admitted = calls := by
  induction calls using List.reverseRecOn with
  | nil => rfl
  | append_singleton calls call ih =>
    obtain ⟨hbefore, hcall, -⟩ := Traces.meets_append.mp hroom
    have hroom' : ¬ (served limit window calls).limiter.Full call.key call.now := hcall
    rw [served_snoc]
    simp only [record, if_neg hroom', ih hbefore]

theorem agrees (hlimit : 1 ≤ limit) (htimes : calls.Pairwise fun a b => a.now ≤ b.now)
    (hlast : ∀ call ∈ calls, call.now ≤ now) :
    Agrees limit window (served limit window calls)
      (servedUnbounded limit window (served limit window calls).admitted) now := by
  induction calls using List.reverseRecOn generalizing now with
  | nil => exact .start
  | append_singleton calls call ih =>
    obtain ⟨hordered, -, hbefore⟩ := List.pairwise_append.mp htimes
    have hcall : call.now ≤ now := hlast call (by simp)
    have a := ih hordered fun earlier hmem => hbefore earlier hmem call (by simp)
    refine Agrees.later ?_ hcall
    rw [served_snoc]
    by_cases hfull : (served limit window calls).limiter.Full call.key call.now
    · have hadmitted : (record (served limit window calls) call).admitted =
          (served limit window calls).admitted := if_pos hfull
      rw [hadmitted]
      exact a.record_full hfull
    · have hadmitted : (record (served limit window calls) call).admitted =
          (served limit window calls).admitted ++ [call] := if_neg hfull
      rw [hadmitted, servedUnbounded_snoc]
      exact a.record hlimit hfull

/-- A call that finds room is denied where its key's window is used up. -/
theorem denied_iff {l : WindowRateLimiter} {past : List Call} (h : l.Tracks past now)
    (hlimit : 1 ≤ l.limit) (hroom : ¬ l.Full key now) :
    (l.allow key now).1.1 = false ↔ UsedUp l.limit l.window past key now := by
  have hdecides : l.Decides past ⟨key, now⟩ (l.allow key now) :=
    WindowRateLimiter.allow_decides h hlimit hroom
  have houtcome := hdecides.outcome
  simp only at houtcome
  rw [houtcome]
  cases hopen : openAt (add · l.window) (windowsOf l.window past key) now with
  | none =>
    rw [decision_of_closed hopen]
    constructor
    · intro hfalse
      cases hfalse
    · intro hused
      obtain ⟨start, hhead, -, hlt⟩ := hused
      rw [openAt_iff.mpr ⟨hhead, hlt⟩] at hopen
      cases hopen
  | some w =>
    obtain ⟨hhead, hlt⟩ := openAt_iff.mp hopen
    have hmem := List.mem_of_mem_head? hhead
    by_cases hcount : l.limit ≤ w.count
    · have hw : w = ⟨w.start, l.limit⟩ := by rw [← le_antisymm (Follows.bounded h key w hmem) hcount]
      rw [decision_of_used hopen hcount]
      exact iff_of_true rfl ⟨w.start, hw ▸ hhead, Follows.started h hmem, hlt⟩
    · rw [decision_of_counted hopen hcount]
      constructor
      · intro hfalse
        cases hfalse
      · intro hused
        obtain ⟨start, hused, -, -⟩ := hused
        rw [hhead, Option.some.injEq] at hused
        subst hused
        exact absurd le_rfl hcount

/-- A used-up window is in the table, which therefore is not full of other keys. -/
theorem found_of_used {l : WindowRateLimiter} {past : List Call} (h : l.Tracks past now)
    (hused : UsedUp l.limit l.window past key now) : ∃ start, start ≤ now ∧
      now < add start l.window ∧ l.entries.find? key = some ⟨start, l.limit⟩ := by
  obtain ⟨start, hhead, hstart, hlt⟩ := hused
  exact ⟨start, hstart, hlt, Follows.current h key _ (openAt_iff.mpr ⟨hhead, hlt⟩)⟩

theorem repeated_after_used {l : WindowRateLimiter} {past : List Call} (h : l.Tracks past now)
    (hused : UsedUp l.limit l.window past key now) {later : Int}
    (hlater : now + (l.allow key now).1.2.nanoseconds ≤ later) :
    ((l.allow key now).2.allow key later).1.1 = true := by
  obtain ⟨start, hstart, hlt, hfind⟩ := found_of_used h hused
  refine WindowRateLimiter.allow_after_used h hfind ?_ le_rfl hlater
  rw [WindowRateLimiter.expired_eq hstart]
  simpa using hlt

/-- No window of a key has more calls from its start to its end than it counts. -/
theorem within_le (htimes : calls.Pairwise fun a b => a.now ≤ b.now) {w : Window Int}
    (hw : w ∈ windowsOf window (served limit window calls).permitted key) :
    within (add · window) (timesOf (served limit window calls).permitted key) w.start ≤ w.count := by
  have hsublist : ((served limit window calls).permitted.filter
      fun call => call.key = key).Sublist calls := List.filter_sublist.trans permitted_sublist
  have hordered : (timesOf (served limit window calls).permitted key).Pairwise (· ≤ ·) :=
    List.pairwise_map.mpr (htimes.sublist hsublist)
  by_cases hwindow : 0 < window.nanoseconds
  · have hends : ∀ t, t < add t window := fun t => by simp only [add]; omega
    exact ((counted_windows hends hordered).counts w hw).le
  · have hnone : within (add · window) (timesOf (served limit window calls).permitted key)
        w.start = 0 := by
      rw [within, List.countP_eq_zero]
      intro t _ hin
      have hbounds := of_decide_eq_true hin
      simp only [add] at hbounds
      omega
    rw [hnone]
    exact Nat.zero_le _

end Served

end Pomodorough.Server.RateLimit
