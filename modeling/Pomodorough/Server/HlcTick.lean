import Pomodorough.Server.OperationParser
import Pomodorough.Store.ClockHead

/-! # The corrective tick of the hybrid clock

`correctHLCTick` answers a local clock, perhaps a remote one and the physical time with
the next clock. Its parts are pointers on the wire, so each of them may be missing.
A counter is below the largest safe integer when it is incremented, and so no sum
leaves 64 bits. -/
namespace Pomodorough.Server.HlcTick
open Pomodorough.Library.Fallible
open Pomodorough.Store.Records
open Pomodorough.Store.ClockHead
open Pomodorough.Server.OperationParser (maxSafeInteger)

/-! ## The source -/

def tickComponent (name : String) (value : Option Int) : Except String Int :=
  match value with
  | none => .error ("invalid HLC tick: missing " ++ name)
  | some value =>
    if value < 0 ∨ value > maxSafeInteger then
      .error ("invalid HLC tick: " ++ name ++ " outside safe range")
    else .ok value

def tickRemote (wall counter : Option Int) : Except String (Option HLC) :=
  if wall = none ∧ counter = none then .ok none
  else if wall = none ∨ counter = none then .error "invalid HLC tick: partial remote clock"
  else do
    let wallMs ← tickComponent "remote wallMs" wall
    let count ← tickComponent "remote counter" counter
    .ok (some ⟨wallMs, count⟩)

def maxTickWall (localWall physicalNow : Int) (remote : Option HLC) : Int :=
  let wallMs := if physicalNow > localWall then physicalNow else localWall
  match remote with
  | some remote => if remote.wallMs > wallMs then remote.wallMs else wallMs
  | none => wallMs

def incrementTickCounter (value : Int) : Except String Int :=
  if value < 0 ∨ value ≥ maxSafeInteger then .error "invalid HLC tick: counter overflow"
  else .ok (value + 1)

def maxInt64 (left right : Int) : Int := if right > left then right else left

def tickCounter (localWall localCounter wallMs : Int) (remote : Option HLC) :
    Except String Int :=
  match remote with
  | some remote =>
    if wallMs = localWall ∧ wallMs = remote.wallMs then
      incrementTickCounter (maxInt64 localCounter remote.counter)
    else if wallMs = localWall then incrementTickCounter localCounter
    else if wallMs = remote.wallMs then incrementTickCounter remote.counter
    else .ok 0
  | none => if wallMs = localWall then incrementTickCounter localCounter else .ok 0

def correctHLCTick (localWall localCounter physicalNow remoteWall remoteCounter : Option Int) :
    Except String HLC := do
  let localWallMs ← tickComponent "local wallMs" localWall
  let localCount ← tickComponent "local counter" localCounter
  let physicalMs ← tickComponent "physicalNowMs" physicalNow
  let remote ← tickRemote remoteWall remoteCounter
  let wallMs := maxTickWall localWallMs physicalMs remote
  let counter ← tickCounter localWallMs localCount wallMs remote
  .ok ⟨wallMs, counter⟩

/-! ## The next clock -/

def SafeComponent (value : Int) : Prop := 0 ≤ value ∧ value ≤ maxSafeInteger

def SafeClock (clock : HLC) : Prop := SafeComponent clock.wallMs ∧ SafeComponent clock.counter

/-- The clocks that come after all of `seen` and are not behind the physical time. -/
structure Follows (seen : List HLC) (physicalNow : Int) (clock : HLC) : Prop where
  safe : SafeClock clock
  after : ∀ earlier ∈ seen, clockKey earlier < clockKey clock
  wall : physicalNow ≤ clock.wallMs

/-- The first of the clocks that follow. -/
structure Next (seen : List HLC) (physicalNow : Int) (clock : HLC) : Prop extends
    Follows seen physicalNow clock where
  least : ∀ other, Follows seen physicalNow other → clockKey clock ≤ clockKey other

/-- The latest of the physical time and the wall times seen. -/
structure Winning (seen : List HLC) (physicalNow wallMs : Int) : Prop where
  physical : physicalNow ≤ wallMs
  latest : ∀ earlier ∈ seen, earlier.wallMs ≤ wallMs
  reached : wallMs = physicalNow ∨ ∃ earlier ∈ seen, earlier.wallMs = wallMs

section
variable {seen : List HLC} {physicalNow wallMs counter : Int}

theorem clockKey_lt_iff {a b : HLC} :
    clockKey a < clockKey b ↔ a.wallMs < b.wallMs ∨ a.wallMs = b.wallMs ∧ a.counter < b.counter :=
  Prod.Lex.toLex_lt_toLex

theorem clock_eq {a b : HLC} (hwall : a.wallMs = b.wallMs) (hcounter : a.counter = b.counter) :
    a = b := by
  cases a
  cases b
  exact congrArg₂ HLC.mk hwall hcounter

theorem clockKey_le_iff {a b : HLC} :
    clockKey a ≤ clockKey b ↔ a.wallMs < b.wallMs ∨ a.wallMs = b.wallMs ∧ a.counter ≤ b.counter :=
  Prod.Lex.toLex_le_toLex

/-- A clock at the winning wall time is next if its counter is zero or one more than
the counter of a clock seen there, and no clock seen there has reached it. -/
theorem Winning.next (hwinning : Winning seen physicalNow wallMs)
    (hsafe : SafeClock ⟨wallMs, counter⟩)
    (hbelow : ∀ earlier ∈ seen, earlier.wallMs = wallMs → earlier.counter < counter)
    (hcounter : counter = 0 ∨
      ∃ earlier ∈ seen, earlier.wallMs = wallMs ∧ counter = earlier.counter + 1) :
    Next seen physicalNow ⟨wallMs, counter⟩ := by
  refine ⟨⟨hsafe, fun earlier hmem => ?_, hwinning.physical⟩, fun other hother => ?_⟩
  · rw [clockKey_lt_iff]
    rcases lt_or_eq_of_le (hwinning.latest earlier hmem) with hlt | heq
    · exact .inl hlt
    · exact .inr ⟨heq, hbelow earlier hmem heq⟩
  · have hwall : wallMs ≤ other.wallMs := by
      rcases hwinning.reached with heq | ⟨earlier, hmem, heq⟩
      · exact heq ▸ hother.wall
      · exact heq ▸ wall_le_of_key_le (hother.after earlier hmem).le
    rw [clockKey_le_iff]
    rcases lt_or_eq_of_le hwall with hlt | heq
    · exact .inl hlt
    · refine .inr ⟨heq, ?_⟩
      rcases hcounter with hzero | ⟨earlier, hmem, hat, hsucc⟩
      · exact hzero ▸ hother.safe.2.1
      · have hafter := clockKey_lt_iff.mp (hother.after earlier hmem)
        change counter ≤ other.counter
        change wallMs = other.wallMs at heq
        omega

end

/-! ## What the parts of a tick name -/

/-- A local clock, the physical time and perhaps a remote clock, all in range. -/
structure Named (localWall localCounter physicalNow remoteWall remoteCounter : Option Int)
    (own : HLC) (physicalMs : Int) (remote : Option HLC) : Prop where
  ownWall : localWall = some own.wallMs
  ownCounter : localCounter = some own.counter
  physical : physicalNow = some physicalMs
  remoteWall : remoteWall = remote.map HLC.wallMs
  remoteCounter : remoteCounter = remote.map HLC.counter
  ownSafe : SafeClock own
  physicalSafe : SafeComponent physicalMs
  remoteSafe : ∀ clock ∈ remote, SafeClock clock

/-- A part is missing, the remote clock is partial, or a part is out of range. -/
def Malformed (localWall localCounter physicalNow remoteWall remoteCounter : Option Int) : Prop :=
  (localWall = none ∨ localCounter = none ∨ physicalNow = none) ∨
  remoteWall.isSome ≠ remoteCounter.isSome ∨
  ∃ value, some value ∈ [localWall, localCounter, physicalNow, remoteWall, remoteCounter] ∧
    ¬SafeComponent value

/-- The counter to increment at the winning wall time is the largest there is. -/
def Exhausted (own : HLC) (physicalMs : Int) (remote : Option HLC) : Prop :=
  ∃ wallMs, Winning (own :: remote.toList) physicalMs wallMs ∧
    ∃ clock ∈ own :: remote.toList, clock.wallMs = wallMs ∧ clock.counter = maxSafeInteger

section
variable {localWall localCounter physicalNow remoteWall remoteCounter : Option Int}
variable {own clock : HLC} {physicalMs : Int} {remote : Option HLC}

theorem Named.eq {own' : HLC} {physicalMs' : Int} {remote' : Option HLC}
    (h : Named localWall localCounter physicalNow remoteWall remoteCounter own physicalMs remote)
    (h' : Named localWall localCounter physicalNow remoteWall remoteCounter own' physicalMs'
      remote') : own = own' ∧ physicalMs = physicalMs' ∧ remote = remote' := by
  have hwall := Option.some.inj (h.ownWall.symm.trans h'.ownWall)
  have hcounter := Option.some.inj (h.ownCounter.symm.trans h'.ownCounter)
  have hphysical := Option.some.inj (h.physical.symm.trans h'.physical)
  have hremoteWall := h.remoteWall.symm.trans h'.remoteWall
  have hremoteCounter := h.remoteCounter.symm.trans h'.remoteCounter
  refine ⟨clock_eq hwall hcounter, hphysical, ?_⟩
  cases remote with
  | none =>
    cases remote' with
    | none => rfl
    | some clock' => cases hremoteWall
  | some clock =>
    cases remote' with
    | none => cases hremoteWall
    | some clock' =>
      rw [clock_eq (Option.some.inj hremoteWall) (Option.some.inj hremoteCounter)]

/-- The parts name clocks and a time exactly when they are not malformed. -/
theorem not_malformed_iff :
    ¬Malformed localWall localCounter physicalNow remoteWall remoteCounter ↔
      ∃ own physicalMs remote, Named localWall localCounter physicalNow remoteWall remoteCounter
        own physicalMs remote := by
  constructor
  · intro h
    simp only [Malformed, not_or, not_exists, not_and, not_not] at h
    obtain ⟨⟨hwall, hcounter, hphysical⟩, hremote, hsafe⟩ := h
    obtain ⟨wallMs, rfl⟩ := Option.ne_none_iff_exists'.mp hwall
    obtain ⟨counter, rfl⟩ := Option.ne_none_iff_exists'.mp hcounter
    obtain ⟨physicalMs, rfl⟩ := Option.ne_none_iff_exists'.mp hphysical
    have hown : SafeClock ⟨wallMs, counter⟩ := ⟨hsafe wallMs (by simp), hsafe counter (by simp)⟩
    cases remoteWall with
    | none =>
      cases remoteCounter with
      | none => exact ⟨⟨wallMs, counter⟩, physicalMs, none, rfl, rfl, rfl, rfl, rfl, hown,
          hsafe physicalMs (by simp), by simp⟩
      | some => simp at hremote
    | some remoteMs =>
      cases remoteCounter with
      | none => simp at hremote
      | some remoteCount =>
        refine ⟨⟨wallMs, counter⟩, physicalMs, some ⟨remoteMs, remoteCount⟩, rfl, rfl, rfl, rfl,
          rfl, hown, hsafe physicalMs (by simp), ?_⟩
        intro clock hclock
        cases hclock
        exact ⟨hsafe remoteMs (by simp), hsafe remoteCount (by simp)⟩
  · intro h
    obtain ⟨own, physicalMs, remote, h⟩ := h
    obtain ⟨rfl, rfl, rfl, rfl, rfl, hown, hphysical, hremote⟩ := h
    cases remote with
    | none => simp [Malformed, hown.1, hown.2, hphysical]
    | some clock =>
      obtain ⟨hremoteWall, hremoteCounter⟩ := hremote clock rfl
      simp [Malformed, hown.1, hown.2, hphysical, hremoteWall, hremoteCounter]

/-! ## The checks of the source -/

theorem tickComponent_ok_iff {name : String} {part : Option Int} {value : Int} :
    tickComponent name part = .ok value ↔ part = some value ∧ SafeComponent value := by
  cases part with
  | none => simp [tickComponent]
  | some stored =>
    simp only [tickComponent, SafeComponent, Option.some.injEq]
    split
    · simp only [reduceCtorEq, false_iff]
      omega
    · simp only [Except.ok.injEq]
      omega

theorem tickRemote_ok_iff : tickRemote remoteWall remoteCounter = .ok remote ↔
    remoteWall = remote.map HLC.wallMs ∧ remoteCounter = remote.map HLC.counter ∧
      ∀ clock ∈ remote, SafeClock clock := by
  cases remoteWall with
  | none =>
    cases remoteCounter <;> cases remote <;> simp [tickRemote]
  | some wallMs =>
    cases remoteCounter with
    | none => cases remote <;> simp [tickRemote]
    | some counter =>
      simp only [tickRemote, reduceCtorEq, and_self, or_self, if_false, bind_ok_iff,
        tickComponent_ok_iff, Except.ok.injEq]
      constructor
      · rintro ⟨_, ⟨hwall, hwallSafe⟩, _, ⟨hcounter, hcounterSafe⟩, rfl⟩
        cases hwall
        cases hcounter
        simp [SafeClock, hwallSafe, hcounterSafe]
      · intro h
        obtain ⟨hwall, hcounter, hsafe⟩ := h
        cases remote with
        | none => cases hwall
        | some clock =>
          cases hwall
          cases hcounter
          exact ⟨_, ⟨rfl, (hsafe clock rfl).1⟩, _, ⟨rfl, (hsafe clock rfl).2⟩, rfl⟩

theorem Winning.later {seen : List HLC} {wallMs : Int} (h : Winning seen physicalMs wallMs)
    (clock : HLC) : Winning (seen ++ [clock]) physicalMs
      (if clock.wallMs > wallMs then clock.wallMs else wallMs) := by
  have hphysical := h.physical
  split
  · refine ⟨by omega, fun earlier hmem => ?_, .inr ⟨clock, by simp⟩⟩
    rcases List.mem_append.mp hmem with hmem | hmem
    · have hle := h.latest earlier hmem
      omega
    · rw [List.mem_singleton.mp hmem]
  · refine ⟨h.physical, fun earlier hmem => ?_, ?_⟩
    · rcases List.mem_append.mp hmem with hmem | hmem
      · exact h.latest earlier hmem
      · rw [List.mem_singleton.mp hmem]
        omega
    · rcases h.reached with heq | ⟨earlier, hmem, heq⟩
      · exact .inl heq
      · exact .inr ⟨earlier, List.mem_append_left _ hmem, heq⟩

theorem maxTickWall_winning (own : HLC) (physicalMs : Int) (remote : Option HLC) :
    Winning (own :: remote.toList) physicalMs (maxTickWall own.wallMs physicalMs remote) := by
  have hown : Winning [own] physicalMs
      (if physicalMs > own.wallMs then physicalMs else own.wallMs) := by
    split
    · exact ⟨le_refl _, by simp; omega, .inl rfl⟩
    · exact ⟨by omega, by simp, .inr ⟨own, by simp⟩⟩
  cases remote with
  | none => exact hown
  | some clock => exact hown.later clock

theorem Winning.eq {seen : List HLC} {wallMs wallMs' : Int} (h : Winning seen physicalMs wallMs)
    (h' : Winning seen physicalMs wallMs') : wallMs = wallMs' := by
  have hle : ∀ {a b}, Winning seen physicalMs a → Winning seen physicalMs b → a ≤ b := by
    intro a b ha hb
    rcases ha.reached with heq | ⟨earlier, hmem, heq⟩
    · exact heq ▸ hb.physical
    · exact heq ▸ hb.latest earlier hmem
  exact le_antisymm (hle h h') (hle h' h)

theorem incrementTickCounter_ok_iff {value counter : Int} (hsafe : SafeComponent value) :
    incrementTickCounter value = .ok counter ↔ value < maxSafeInteger ∧ counter = value + 1 := by
  have hlow := hsafe.1
  unfold incrementTickCounter
  split
  · simp only [reduceCtorEq, false_iff]
    omega
  · simp only [Except.ok.injEq]
    omega

theorem maxInt64_eq (left right : Int) : maxInt64 left right = max left right := by
  unfold maxInt64
  split <;> omega

/-- The counter is one more than the greatest at the wall time, or zero if there is none. -/
structure Counted (seen : List HLC) (wallMs counter : Int) : Prop where
  safe : SafeComponent counter
  above : ∀ earlier ∈ seen, earlier.wallMs = wallMs → earlier.counter < counter
  source : counter = 0 ∨ ∃ earlier ∈ seen, earlier.wallMs = wallMs ∧ counter = earlier.counter + 1

theorem tickCounter_ok {wallMs counter : Int} (hown : SafeClock own)
    (hremote : ∀ clock ∈ remote, SafeClock clock)
    (h : tickCounter own.wallMs own.counter wallMs remote = .ok counter) :
    Counted (own :: remote.toList) wallMs counter := by
  have hlow := hown.2.1
  have hzero : SafeComponent 0 := ⟨le_refl 0, by decide⟩
  cases remote with
  | none =>
    simp only [tickCounter] at h
    split at h
    · obtain ⟨hlt, rfl⟩ := (incrementTickCounter_ok_iff hown.2).mp h
      exact ⟨⟨by omega, by omega⟩, by simp, .inr ⟨own, by simp_all⟩⟩
    · cases h
      exact ⟨hzero, by simp_all [eq_comm], .inl rfl⟩
  | some clock =>
    have hclock := (hremote clock rfl).2
    have hclockLow := hclock.1
    simp only [tickCounter, maxInt64_eq] at h
    split at h
    · rename_i htie
      have hmax : SafeComponent (max own.counter clock.counter) :=
        ⟨le_max_of_le_left hlow, max_le hown.2.2 hclock.2⟩
      obtain ⟨hlt, rfl⟩ := (incrementTickCounter_ok_iff hmax).mp h
      refine ⟨⟨by omega, by omega⟩, by simp <;> omega, .inr ?_⟩
      rcases le_total own.counter clock.counter with hle | hle
      · exact ⟨clock, by simp, htie.2.symm, by rw [max_eq_right hle]⟩
      · exact ⟨own, by simp, htie.1.symm, by rw [max_eq_left hle]⟩
    · split at h
      · obtain ⟨hlt, rfl⟩ := (incrementTickCounter_ok_iff hown.2).mp h
        exact ⟨⟨by omega, by omega⟩, by simp; omega, .inr ⟨own, by simp_all⟩⟩
      · split at h
        · obtain ⟨hlt, rfl⟩ := (incrementTickCounter_ok_iff hclock).mp h
          exact ⟨⟨by omega, by omega⟩, by simp; omega, .inr ⟨clock, by simp_all⟩⟩
        · cases h
          exact ⟨hzero, by simp; omega, .inl rfl⟩

/-- No counter is found only if a clock at the wall time has the largest. -/
theorem tickCounter_succeeds {wallMs : Int} (hown : SafeClock own)
    (hremote : ∀ clock ∈ remote, SafeClock clock)
    (hroom : ∀ clock ∈ own :: remote.toList, clock.wallMs = wallMs → clock.counter ≠ maxSafeInteger) :
    ∃ counter, tickCounter own.wallMs own.counter wallMs remote = .ok counter := by
  have hincrement : ∀ {value : Int}, SafeComponent value → value ≠ maxSafeInteger →
      ∃ counter, incrementTickCounter value = .ok counter := by
    intro value hsafe hne
    have hhigh := hsafe.2
    exact ⟨value + 1, (incrementTickCounter_ok_iff hsafe).mpr ⟨by omega, rfl⟩⟩
  cases remote with
  | none =>
    simp only [tickCounter]
    split
    · exact hincrement hown.2 (hroom own (by simp) (by simp_all))
    · exact ⟨0, rfl⟩
  | some clock =>
    have hclock := (hremote clock rfl).2
    simp only [tickCounter, maxInt64_eq]
    split
    · rename_i htie
      have hownRoom := hroom own (by simp) htie.1.symm
      have hclockRoom := hroom clock (by simp) htie.2.symm
      rcases max_choice own.counter clock.counter with heq | heq
      · rw [heq]
        exact hincrement hown.2 hownRoom
      · rw [heq]
        exact hincrement hclock hclockRoom
    · split
      · exact hincrement hown.2 (hroom own (by simp) (by simp_all))
      · split
        · exact hincrement hclock (hroom clock (by simp) (by simp_all))
        · exact ⟨0, rfl⟩

/-! ## The tick -/

theorem correctHLCTick_ok_iff :
    correctHLCTick localWall localCounter physicalNow remoteWall remoteCounter = .ok clock ↔
      ∃ own physicalMs remote, Named localWall localCounter physicalNow remoteWall remoteCounter
        own physicalMs remote ∧ clock.wallMs = maxTickWall own.wallMs physicalMs remote ∧
        tickCounter own.wallMs own.counter clock.wallMs remote = .ok clock.counter := by
  simp only [correctHLCTick, bind_ok_iff, tickComponent_ok_iff, tickRemote_ok_iff]
  constructor
  · intro h
    obtain ⟨wallMs, hwall, counter, hcounter, physicalMs, hphysical, remote, hremote, count,
      hcount, heq⟩ := h
    cases heq
    exact ⟨⟨wallMs, counter⟩, physicalMs, remote, ⟨hwall.1, hcounter.1, hphysical.1, hremote.1,
      hremote.2.1, ⟨hwall.2, hcounter.2⟩, hphysical.2, hremote.2.2⟩, rfl, hcount⟩
  · intro h
    obtain ⟨own, physicalMs, remote, hnamed, hwallMs, hcount⟩ := h
    rw [hwallMs] at hcount
    refine ⟨own.wallMs, ⟨hnamed.ownWall, hnamed.ownSafe.1⟩, own.counter,
      ⟨hnamed.ownCounter, hnamed.ownSafe.2⟩, physicalMs, ⟨hnamed.physical, hnamed.physicalSafe⟩,
      remote, ⟨hnamed.remoteWall, hnamed.remoteCounter, hnamed.remoteSafe⟩, clock.counter, hcount,
      ?_⟩
    rw [← hwallMs]

theorem Named.winning_safe {wallMs : Int}
    (h : Named localWall localCounter physicalNow remoteWall remoteCounter own physicalMs remote)
    (hwinning : Winning (own :: remote.toList) physicalMs wallMs) : SafeComponent wallMs := by
  rcases hwinning.reached with rfl | ⟨earlier, hmem, rfl⟩
  · exact h.physicalSafe
  · rcases List.mem_cons.mp hmem with rfl | hmem
    · exact h.ownSafe.1
    · exact (h.remoteSafe earlier (by simpa using hmem)).1

/-- A tick answers with the next clock. It fails when a part is missing, partial or out
of range, or when the counter to increment is the largest, and in no other case. -/
theorem correctHLCTick_correct
    (localWall localCounter physicalNow remoteWall remoteCounter : Option Int) :
    (∀ clock, correctHLCTick localWall localCounter physicalNow remoteWall remoteCounter =
        .ok clock →
      ∃ own physicalMs remote, Named localWall localCounter physicalNow remoteWall remoteCounter
        own physicalMs remote ∧ Next (own :: remote.toList) physicalMs clock) ∧
    ((∃ e, correctHLCTick localWall localCounter physicalNow remoteWall remoteCounter =
        .error e) ↔
      Malformed localWall localCounter physicalNow remoteWall remoteCounter ∨
      ∃ own physicalMs remote, Named localWall localCounter physicalNow remoteWall remoteCounter
        own physicalMs remote ∧ Exhausted own physicalMs remote) := by
  constructor
  · intro clock h
    obtain ⟨own, physicalMs, remote, hnamed, hwallMs, hcount⟩ := correctHLCTick_ok_iff.mp h
    have hwinning := maxTickWall_winning own physicalMs remote
    rw [← hwallMs] at hwinning
    have hcounted := tickCounter_ok hnamed.ownSafe hnamed.remoteSafe hcount
    exact ⟨own, physicalMs, remote, hnamed, hwinning.next
      ⟨hnamed.winning_safe hwinning, hcounted.safe⟩ hcounted.above hcounted.source⟩
  · constructor
    · intro h
      obtain ⟨e, he⟩ := h
      by_contra hnot
      obtain ⟨hmalformed, hroom⟩ := not_or.mp hnot
      obtain ⟨own, physicalMs, remote, hnamed⟩ := not_malformed_iff.mp hmalformed
      -- the parts are named, so only the counter can have failed
      have hcounter : ∃ counter, tickCounter own.wallMs own.counter
          (maxTickWall own.wallMs physicalMs remote) remote = .ok counter :=
        tickCounter_succeeds hnamed.ownSafe hnamed.remoteSafe fun clock hmem hat hmax =>
          hroom ⟨own, physicalMs, remote, hnamed, _, maxTickWall_winning own physicalMs remote,
            clock, hmem, hat, hmax⟩
      obtain ⟨counter, hcounter⟩ := hcounter
      have hok := correctHLCTick_ok_iff.mpr ⟨own, physicalMs, remote, hnamed,
        (rfl : (⟨_, counter⟩ : HLC).wallMs = _), hcounter⟩
      rw [he] at hok
      cases hok
    · intro h
      cases hresult : correctHLCTick localWall localCounter physicalNow remoteWall remoteCounter with
      | error e => exact ⟨e, rfl⟩
      | ok clock =>
        exfalso
        obtain ⟨own, physicalMs, remote, hnamed, hwallMs, hcount⟩ :=
          correctHLCTick_ok_iff.mp hresult
        rcases h with hmalformed | ⟨own', physicalMs', remote', hnamed', hexhausted⟩
        · exact not_malformed_iff.mpr ⟨own, physicalMs, remote, hnamed⟩ hmalformed
        · obtain ⟨rfl, rfl, rfl⟩ := hnamed.eq hnamed'
          obtain ⟨wallMs, hwinning, earlier, hmem, hat, hmax⟩ := hexhausted
          obtain rfl : clock.wallMs = wallMs :=
            hwallMs.trans ((maxTickWall_winning own physicalMs remote).eq hwinning)
          have hcounted := tickCounter_ok hnamed.ownSafe hnamed.remoteSafe hcount
          have habove := hcounted.above earlier hmem hat
          have hhigh := hcounted.safe.2
          omega

/-- A remote clock at the same wall time and ahead. -/
example : correctHLCTick (some 100) (some 2) (some 99) (some 100) (some 7) = .ok ⟨100, 8⟩ := rfl

end

end Pomodorough.Server.HlcTick
