import Pomodorough.Library.Rfc3339
import Mathlib.Data.Rat.Floor

/-! # The grammar of RFC 3339

The date-times as the grammar writes them, with the instants that they name. The
UTC form of an instant of the years 0 to 9999 is one of these texts. -/
namespace Pomodorough.Library.DateTimes
open Pomodorough.Library.Rfc3339

/-! ## Date-times -/

inductive Offset where
  | utc
  | ahead (hour minute : Nat)
  | behind (hour minute : Nat)
deriving DecidableEq, Repr

/-- The seconds that the local time is ahead of UTC. -/
def Offset.seconds : Offset → Int
  | utc => 0
  | ahead hour minute => (hour * 60 + minute) * 60
  | behind hour minute => -((hour * 60 + minute) * 60)

def Offset.Valid : Offset → Prop
  | utc => True
  | ahead hour minute | behind hour minute => hour ≤ 23 ∧ minute ≤ 59

structure DateTime where
  year : Nat
  month : Nat
  day : Nat
  hour : Nat
  minute : Nat
  second : Nat
  /-- The digits after the point, none where there is no point. -/
  fraction : List Char
  offset : Offset
deriving DecidableEq, Repr

/-- A date of the calendar, a time of the day and an offset within a day. -/
structure DateTime.Valid (d : DateTime) : Prop where
  month : 1 ≤ d.month ∧ d.month ≤ 12
  day : 1 ≤ d.day ∧ d.day ≤ daysIn d.year d.month
  hour : d.hour ≤ 23
  minute : d.minute ≤ 59
  second : d.second ≤ 59
  offset : d.offset.Valid

/-- The whole seconds since 1970-01-01T00:00:00Z. -/
def DateTime.seconds (d : DateTime) : Int :=
  (dayOfDate d.year d.month d.day - epochDay) * secondsPerDay +
    (3600 * d.hour + 60 * d.minute + d.second) - d.offset.seconds

/-- The fraction of a second that digits after the point name. -/
def fractionValue (digits : List Char) : ℚ :=
  (Nat.ofDigitChars 10 digits 0 : ℚ) / (10 ^ digits.length : ℕ)

/-- The seconds since 1970-01-01T00:00:00Z. -/
def DateTime.instant (d : DateTime) : ℚ := (d.seconds : ℚ) + fractionValue d.fraction

/-! ## The grammar -/

/-- So many digits. -/
structure Field (width value : Nat) (digits : List Char) : Prop where
  length : digits.length = width
  isDigit : ∀ c ∈ digits, c.isDigit = true
  value : Nat.ofDigitChars 10 digits 0 = value

inductive FractionWritten : List Char → List Char → Prop
  | none : FractionWritten [] []
  | point {digits : List Char} (hdigits : digits ≠ []) (h : ∀ c ∈ digits, c.isDigit = true) :
    FractionWritten digits ('.' :: digits)

inductive OffsetWritten : Offset → List Char → Prop
  | zulu {z : Char} (hz : z = 'Z' ∨ z = 'z') : OffsetWritten .utc [z]
  | ahead {hour minute : Nat} {hours minutes : List Char} (hhour : Field 2 hour hours)
    (hminute : Field 2 minute minutes) :
    OffsetWritten (.ahead hour minute) ('+' :: (hours ++ ':' :: minutes))
  | behind {hour minute : Nat} {hours minutes : List Char} (hhour : Field 2 hour hours)
    (hminute : Field 2 minute minutes) :
    OffsetWritten (.behind hour minute) ('-' :: (hours ++ ':' :: minutes))

/-- `date-time` of the grammar. -/
inductive Written (d : DateTime) : List Char → Prop
  | intro {year month day hour minute second fraction offset : List Char} {t : Char}
    (hyear : Field 4 d.year year) (hmonth : Field 2 d.month month) (hday : Field 2 d.day day)
    (ht : t = 'T' ∨ t = 't') (hhour : Field 2 d.hour hour) (hminute : Field 2 d.minute minute)
    (hsecond : Field 2 d.second second) (hfraction : FractionWritten d.fraction fraction)
    (hoffset : OffsetWritten d.offset offset) :
    Written d (year ++ '-' :: (month ++ '-' :: (day ++ t :: (hour ++ ':' :: (minute ++ ':' ::
      (second ++ (fraction ++ offset)))))))

theorem field_padded {width n : Nat} (hwidth : 0 < width) (h : n < 10 ^ width) :
    Field width n (padded width n) :=
  ⟨length_padded hwidth h, fun _ => padded_isDigit, ofDigitChars_padded width n⟩

/-! ## Milliseconds -/

section Milliseconds
variable {as bs digits : List Char}

theorem ofDigitChars_lt (h : ∀ c ∈ digits, c.isDigit = true) :
    Nat.ofDigitChars 10 digits 0 < 10 ^ digits.length := by
  induction digits using List.reverseRecOn with
  | nil => simp
  | append_singleton digits c ih =>
    have hc := h c (by simp)
    have hlt := ih fun d hd => h d (List.mem_append_left _ hd)
    simp only [Char.isDigit, Bool.and_eq_true, decide_eq_true_eq, ge_iff_le, UInt32.le_iff_toNat_le] at hc
    have hhigh : c.toNat ≤ 57 := hc.2
    have hzero : '0'.toNat = 48 := rfl
    have hdigit : c.toNat - '0'.toNat < 10 := by omega
    rw [Nat.ofDigitChars_append, Nat.ofDigitChars_cons, Nat.ofDigitChars_nil, List.length_append,
      List.length_singleton, Nat.pow_succ]
    omega

/-- The digits in front are those of the quotient. -/
theorem ofDigitChars_div (h : ∀ c ∈ bs, c.isDigit = true) :
    Nat.ofDigitChars 10 (as ++ bs) 0 / 10 ^ bs.length = Nat.ofDigitChars 10 as 0 := by
  rw [Nat.ofDigitChars_append, Nat.ofDigitChars_eq_ofDigitChars_zero,
    Nat.add_comm, Nat.add_mul_div_left _ _ (Nat.pow_pos (by decide)),
    Nat.div_eq_of_lt (ofDigitChars_lt h), Nat.zero_add]

/-- The value of a fraction does not change with zeros at the end. -/
theorem scaled_zeros (zeros : Nat) :
    1000 * Nat.ofDigitChars 10 (as ++ List.replicate zeros '0') 0 /
      10 ^ (as ++ List.replicate zeros '0').length =
    1000 * Nat.ofDigitChars 10 as 0 / 10 ^ as.length := by
  rw [Nat.ofDigitChars_append, Nat.ofDigitChars_replicate_zero, List.length_append,
    List.length_replicate, Nat.pow_add, Nat.mul_comm (10 ^ as.length), Nat.mul_left_comm 1000,
    Nat.mul_div_mul_left _ _ (Nat.pow_pos (by decide))]

/-- The first three digits are the milliseconds. -/
theorem ofDigitChars_take (h : ∀ c ∈ digits, c.isDigit = true) (hlength : 3 ≤ digits.length) :
    Nat.ofDigitChars 10 (digits.take 3) 0 =
      1000 * Nat.ofDigitChars 10 digits 0 / 10 ^ digits.length := by
  have hsplit := List.take_append_drop 3 digits
  have hdrop : (digits.drop 3).length + 3 = digits.length := by
    rw [List.length_drop]
    omega
  have hrest : ∀ c ∈ digits.drop 3, c.isDigit = true := fun c hc => h c (List.mem_of_mem_drop hc)
  have hdiv := @ofDigitChars_div (digits.take 3) (digits.drop 3) hrest
  rw [hsplit] at hdiv
  rw [← hdiv, ← hdrop, Nat.pow_add, Nat.mul_comm (10 ^ (digits.drop 3).length),
    show (10 : Nat) ^ 3 = 1000 from rfl, Nat.mul_div_mul_left _ _ (by decide)]

/-- The milliseconds since 1970-01-01T00:00:00Z, rounded down. -/
theorem floor_instant (d : DateTime) : ⌊1000 * d.instant⌋ =
    1000 * d.seconds + (1000 * Nat.ofDigitChars 10 d.fraction 0 / 10 ^ d.fraction.length : ℕ) := by
  have hsplit : 1000 * d.instant = ((1000 * d.seconds : ℤ) : ℚ) +
      (((1000 * Nat.ofDigitChars 10 d.fraction 0 : ℕ) : ℤ) : ℚ) / (10 ^ d.fraction.length : ℕ) := by
    unfold DateTime.instant fractionValue
    push_cast
    ring
  rw [hsplit, Int.floor_intCast_add, Rat.floor_intCast_div_natCast]
  rfl

end Milliseconds

/-! ## The UTC form of an instant -/

/-- The digits after the point of the UTC form. -/
def trimmed (nanos : Nat) : List Char :=
  if nanos = 0 then [] else (padded 9 nanos).rdropWhile (· = '0')

section Format
variable {nanos : Nat} {unixNano : Int}

theorem trimmed_ne_nil (h : nanos ≠ 0) : trimmed nanos ≠ [] := by
  rw [trimmed, if_neg h]
  intro hnil
  have hvalue := ofDigitChars_rdropWhile (padded 9 nanos)
  rw [hnil, ofDigitChars_padded, Nat.ofDigitChars_nil, Nat.zero_mul] at hvalue
  exact h hvalue.symm

theorem fraction_written : FractionWritten (trimmed nanos) (fraction nanos) := by
  unfold fraction
  split
  · next hzero =>
    rw [trimmed, if_pos hzero]
    exact .none
  · next hne =>
    have htrimmed : (padded 9 nanos).rdropWhile (· = '0') = trimmed nanos := (if_neg hne).symm
    rw [htrimmed]
    refine .point (trimmed_ne_nil hne) ?_
    intro c hc
    rw [← htrimmed] at hc
    exact padded_isDigit ((List.rdropWhile_prefix (· = '0') (padded 9 nanos)).subset hc)

theorem fractionValue_trimmed (h : nanos < 10 ^ 9) :
    fractionValue (trimmed nanos) = (nanos : ℚ) / 1000000000 := by
  by_cases hzero : nanos = 0
  · subst hzero
    simp [trimmed, fractionValue]
  have htrimmed : (padded 9 nanos).rdropWhile (· = '0') = trimmed nanos := (if_neg hzero).symm
  have hvalue := ofDigitChars_rdropWhile (padded 9 nanos)
  have hlength := (List.rdropWhile_prefix (· = '0') (padded 9 nanos)).length_le
  rw [htrimmed, length_padded (by decide) h] at hlength
  rw [htrimmed, length_padded (by decide) h, ofDigitChars_padded] at hvalue
  have hpower : (10 : ℚ) ^ (trimmed nanos).length * 10 ^ (9 - (trimmed nanos).length) = 1000000000 := by
    rw [← pow_add, Nat.add_sub_cancel' hlength]
    norm_num
  have hcast : (Nat.ofDigitChars 10 (trimmed nanos) 0 : ℚ) * 10 ^ (9 - (trimmed nanos).length) =
      nanos := by
    exact_mod_cast hvalue
  unfold fractionValue
  rw [← hcast, ← hpower]
  push_cast
  field_simp

/-- The UTC form of an instant of a year with four digits names that instant. -/
theorem format_written
    (hlo : (daysBeforeYear 0 - epochDay) * secondsPerDay * nanosPerSecond ≤ unixNano)
    (hhi : unixNano < (daysBeforeYear 10000 - epochDay) * secondsPerDay * nanosPerSecond) :
    ∃ d : DateTime, d.Valid ∧ Written d (format unixNano) ∧
      d.instant = (unixNano : ℚ) / 1000000000 := by
  set second := unixNano / nanosPerSecond with hsecond
  set day := second / secondsPerDay + epochDay with hday
  have hlow : daysBeforeYear 0 ≤ day := by
    unfold nanosPerSecond secondsPerDay epochDay at *
    omega
  have hhigh : day < daysBeforeYear 10000 := by
    unfold nanosPerSecond secondsPerDay epochDay at *
    omega
  have hyear : 0 ≤ (dateOfDay day).1 ∧ (dateOfDay day).1 < 10000 :=
    ⟨Int.not_lt.mp fun h => absurd ((lt_yearOfDay_iff 0 day).mp h) (Int.not_lt.mpr hlow),
      (lt_yearOfDay_iff 10000 day).mpr hhigh⟩
  obtain ⟨hmonth, hdays⟩ := dateOfDay_valid day
  have hmonthDays := daysIn_le (dateOfDay day).1 (dateOfDay day).2.1
  have hcast : (((dateOfDay day).1.toNat : Nat) : Int) = (dateOfDay day).1 :=
    Int.toNat_of_nonneg hyear.1
  have hclock : (second % secondsPerDay).toNat < 86400 := by
    unfold secondsPerDay
    omega
  have hnanos : (unixNano % nanosPerSecond).toNat < 10 ^ 9 := by
    unfold nanosPerSecond
    omega
  set clock := (second % secondsPerDay).toNat with hclockEq
  set nanos := (unixNano % nanosPerSecond).toNat with hnanosEq
  have hwriteYear : writeYear (dateOfDay day).1 = padded 4 (dateOfDay day).1.toNat :=
    if_neg (by omega)
  have hformat : format unixNano = padded 4 (dateOfDay day).1.toNat ++ '-' ::
      (padded 2 (dateOfDay day).2.1 ++ '-' :: (padded 2 (dateOfDay day).2.2 ++
        writeClock clock nanos)) := by
    rw [← hwriteYear]
    rfl
  refine ⟨⟨(dateOfDay day).1.toNat, (dateOfDay day).2.1, (dateOfDay day).2.2, clock / 3600,
    clock / 60 % 60, clock % 60, trimmed nanos, .utc⟩, ?_, ?_, ?_⟩
  · refine ⟨⟨Nat.le_add_left 1 _, hmonth⟩, ⟨Nat.le_add_left 1 _, ?_⟩, ?_, ?_, ?_, trivial⟩
    · rw [hcast]
      exact hdays
    · show clock / 3600 ≤ 23
      omega
    · show clock / 60 % 60 ≤ 59
      omega
    · show clock % 60 ≤ 59
      omega
  · rw [hformat]
    refine .intro (field_padded (by decide) ?_) (field_padded (by decide) ?_)
      (field_padded (by decide) ?_) (.inl rfl) (field_padded (by decide) ?_)
      (field_padded (by decide) ?_) (field_padded (by decide) ?_) fraction_written
      (.zulu (.inl rfl))
    all_goals
      dsimp only
      omega
  · have hseconds : DateTime.seconds ⟨(dateOfDay day).1.toNat, (dateOfDay day).2.1,
        (dateOfDay day).2.2, clock / 3600, clock / 60 % 60, clock % 60, trimmed nanos, .utc⟩ =
        second := by
      simp only [DateTime.seconds, hcast, dayOfDate_dateOfDay, Offset.seconds]
      unfold secondsPerDay at *
      omega
    have hunix : unixNano = second * 1000000000 + nanos := by
      unfold nanosPerSecond at *
      omega
    simp only [DateTime.instant, hseconds, fractionValue_trimmed hnanos]
    rw [hunix]
    push_cast
    ring

end Format

end Pomodorough.Library.DateTimes
