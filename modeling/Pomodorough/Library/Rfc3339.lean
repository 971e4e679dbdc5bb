import Mathlib.Algebra.Ring.Nat
import Mathlib.Algebra.Ring.Int.Defs
import Mathlib.Data.List.DropRight
import Mathlib.Data.List.TakeDrop
import Mathlib.Data.Option.Basic
import Mathlib.Order.Monotone.Basic

/-! # RFC 3339 times

Instants are counted in nanoseconds from 1970-01-01T00:00:00Z. Writing one in
UTC and reading it back gives it again, as long as its year has four digits;
later instants are written with more and cannot be read. -/
namespace Pomodorough.Library.Rfc3339

/-! ## Decimal fields -/

/-- `n` in decimal, with zeros in front up to the width. -/
def padded (width n : Nat) : List Char :=
  (Nat.toDigits 10 n).leftpad width '0'

/-- Reads exactly so many digits. -/
def readFixed (width : Nat) (s : List Char) : Option (Nat × List Char) :=
  if (s.take width).length = width ∧ (s.take width).all Char.isDigit then
    some (Nat.ofDigitChars 10 (s.take width) 0, s.drop width)
  else none

/-- Reads one digit or two. -/
def readOneOrTwo (s : List Char) : Option (Nat × List Char) :=
  (readFixed 2 s).or (readFixed 1 s)

def readLiteral (c : Char) : List Char → Option (List Char)
  | [] => none
  | d :: s => if d = c then some s else none

theorem padded_eq (width n : Nat) :
    padded width n =
      List.replicate (width - (Nat.toDigits 10 n).length) '0' ++ Nat.toDigits 10 n := rfl

theorem padded_isDigit {width n : Nat} {c : Char} (h : c ∈ padded width n) : c.isDigit := by
  rw [padded_eq, List.mem_append] at h
  obtain h | h := h
  · rw [List.eq_of_mem_replicate h]
    rfl
  · exact Nat.isDigit_of_mem_toDigits (by decide) (by decide) h

theorem ofDigitChars_padded (width n : Nat) : Nat.ofDigitChars 10 (padded width n) 0 = n := by
  rw [padded_eq, Nat.ofDigitChars_append, Nat.ofDigitChars_replicate_zero, Nat.mul_zero,
    Nat.ofDigitChars_ten_toDigits]

theorem length_padded {width n : Nat} (hwidth : 0 < width) (h : n < 10 ^ width) :
    (padded width n).length = width := by
  have hle := (Nat.length_toDigits_le_iff (by decide : 1 < 10) hwidth).mpr h
  rw [padded_eq, List.length_append, List.length_replicate]
  omega

theorem readFixed_padded {width n : Nat} (hwidth : 0 < width) (h : n < 10 ^ width)
    (s : List Char) : readFixed width (padded width n ++ s) = some (n, s) := by
  have hlength := length_padded hwidth h
  have htake : (padded width n ++ s).take width = padded width n := by
    rw [List.take_append_of_le_length hlength.ge, List.take_of_length_le hlength.le]
  have hdrop : (padded width n ++ s).drop width = s := by
    rw [List.drop_append_of_le_length hlength.ge, List.drop_eq_nil_of_le hlength.le,
      List.nil_append]
  have hdigits : (padded width n).all Char.isDigit := by
    rw [List.all_eq_true]
    exact fun c hc => padded_isDigit hc
  unfold readFixed
  rw [htake, hdrop, if_pos ⟨hlength, hdigits⟩, ofDigitChars_padded]

theorem readOneOrTwo_padded {n : Nat} (h : n < 100) (s : List Char) :
    readOneOrTwo (padded 2 n ++ s) = some (n, s) := by
  unfold readOneOrTwo
  rw [readFixed_padded (by decide) h, Option.some_or]

@[simp] theorem readLiteral_cons (c : Char) (s : List Char) : readLiteral c (c :: s) = some s :=
  if_pos rfl

/-! ## The fraction of a second -/

/-- Nine digits without the zeros at the end; nothing for a whole second. -/
def fraction (nanos : Nat) : List Char :=
  if nanos = 0 then [] else '.' :: (padded 9 nanos).rdropWhile (· = '0')

/-- Any number of digits after a point or a comma, of which nine count. -/
def readFraction (s : List Char) : Nat × List Char :=
  match s with
  | [] => (0, [])
  | mark :: rest =>
    let digits := rest.takeWhile Char.isDigit
    if (mark = '.' ∨ mark = ',') ∧ digits ≠ [] then
      (Nat.ofDigitChars 10 (digits.take 9) 0 * 10 ^ (9 - (digits.take 9).length),
        rest.drop digits.length)
    else (0, s)

/-- Zeros at the end only scale a number. -/
theorem ofDigitChars_rdropWhile (l : List Char) :
    Nat.ofDigitChars 10 (l.rdropWhile (· = '0')) 0 *
        10 ^ (l.length - (l.rdropWhile (· = '0')).length) = Nat.ofDigitChars 10 l 0 := by
  have hsplit := List.rdropWhile_append_rtakeWhile (l := l) (p := (· = '0'))
  have hzeros : l.rtakeWhile (· = '0') =
      List.replicate (l.rtakeWhile (· = '0')).length '0' := by
    refine List.eq_replicate_iff.mpr ⟨rfl, fun c hc => ?_⟩
    simpa using List.mem_rtakeWhile_imp hc
  have hlength : l.length - (l.rdropWhile (· = '0')).length =
      (l.rtakeWhile (· = '0')).length := by
    have := congrArg List.length hsplit
    rw [List.length_append] at this
    omega
  conv_rhs => rw [← hsplit, Nat.ofDigitChars_append, hzeros, Nat.ofDigitChars_replicate_zero]
  rw [hlength, Nat.mul_comm]

theorem readFraction_fraction {nanos : Nat} (h : nanos < 10 ^ 9) {c : Char} (hc : c.isDigit = false)
    (hpoint : c ≠ '.') (hcomma : c ≠ ',') (s : List Char) :
    readFraction (fraction nanos ++ c :: s) = (nanos, c :: s) := by
  unfold fraction
  split
  next hzero =>
    subst hzero
    simp [readFraction, hpoint, hcomma]
  next hne =>
    set digits := (padded 9 nanos).rdropWhile (· = '0') with hdigits
    have hall : ∀ d ∈ digits, d.isDigit = true := fun d hd =>
      padded_isDigit ((List.rdropWhile_prefix (· = '0') (padded 9 nanos)).subset hd)
    have htake : (digits ++ c :: s).takeWhile Char.isDigit = digits := by
      rw [List.takeWhile_append_of_pos hall, List.takeWhile_cons_of_neg (by simp [hc]),
        List.append_nil]
    have hnonempty : digits ≠ [] := by
      intro hnil
      have hvalue := ofDigitChars_rdropWhile (padded 9 nanos)
      rw [← hdigits, hnil, ofDigitChars_padded, Nat.ofDigitChars_nil, Nat.zero_mul] at hvalue
      exact hne hvalue.symm
    have hlength : digits.length ≤ 9 :=
      (List.rdropWhile_prefix (· = '0') (padded 9 nanos)).length_le.trans (length_padded (by decide) h).le
    show readFraction ('.' :: (digits ++ c :: s)) = _
    unfold readFraction
    simp only [htake, hnonempty, true_or, ne_eq, not_false_eq_true, and_true, if_true]
    rw [List.take_of_length_le hlength, List.drop_left]
    have hvalue := ofDigitChars_rdropWhile (padded 9 nanos)
    rw [← hdigits, length_padded (by decide) h, ofDigitChars_padded] at hvalue
    rw [hvalue]

/-! ## The calendar -/

def isLeap (year : Int) : Bool :=
  year % 4 = 0 ∧ (year % 100 ≠ 0 ∨ year % 400 = 0)

/-- Days from the first of January of the year 1. -/
def daysBeforeYear (year : Int) : Int :=
  365 * (year - 1) + (year - 1) / 4 - (year - 1) / 100 + (year - 1) / 400

/-- The year of a day, and the day within it: first the cycles of 400 years, then
of 100, of 4 and of one, the last of which is a day longer. -/
def yearOfDay (day : Int) : Int × Int :=
  let in400 := day % 146097
  let n100 := min (in400 / 36524) 3
  let in100 := in400 - 36524 * n100
  let in4 := in100 % 1461
  let n1 := min (in4 / 365) 3
  (400 * (day / 146097) + 100 * n100 + 4 * (in100 / 1461) + n1 + 1, in4 - 365 * n1)

def yearLength (year : Int) : Int := if isLeap year then 366 else 365

/-- A year as cycles passed since the year 1. -/
theorem daysBeforeYear_cycles {a b c e : Int} (hb : 0 ≤ b ∧ b ≤ 3) (hc : 0 ≤ c ∧ c ≤ 24)
    (he : 0 ≤ e ∧ e ≤ 3) :
    daysBeforeYear (400 * a + 100 * b + 4 * c + e + 1) =
      146097 * a + 36524 * b + 1461 * c + 365 * e := by
  have h4 : (400 * a + 100 * b + 4 * c + e) / 4 = 100 * a + 25 * b + c := by omega
  have h100 : (400 * a + 100 * b + 4 * c + e) / 100 = 4 * a + b := by omega
  have h400 : (400 * a + 100 * b + 4 * c + e) / 400 = a := by omega
  unfold daysBeforeYear
  rw [Int.add_sub_cancel, h4, h100, h400]
  omega

theorem isLeap_cycles {a b c e : Int} (hb : 0 ≤ b ∧ b ≤ 3) (hc : 0 ≤ c ∧ c ≤ 24)
    (he : 0 ≤ e ∧ e ≤ 3) :
    isLeap (400 * a + 100 * b + 4 * c + e + 1) = true ↔ e = 3 ∧ (c < 24 ∨ b = 3) := by
  unfold isLeap
  rw [decide_eq_true_iff]
  omega

theorem yearOfDay_cycles (day : Int) : ∃ a b c e : Int, (0 ≤ b ∧ b ≤ 3) ∧ (0 ≤ c ∧ c ≤ 24) ∧
    (0 ≤ e ∧ e ≤ 3) ∧ (yearOfDay day).1 = 400 * a + 100 * b + 4 * c + e + 1 ∧
    day = 146097 * a + 36524 * b + 1461 * c + 365 * e + (yearOfDay day).2 ∧
    0 ≤ (yearOfDay day).2 ∧
    ((yearOfDay day).2 < 365 ∨ (yearOfDay day).2 = 365 ∧ e = 3 ∧ (c < 24 ∨ b = 3)) := by
  refine ⟨day / 146097, min (day % 146097 / 36524) 3,
    (day % 146097 - 36524 * min (day % 146097 / 36524) 3) / 1461,
    min ((day % 146097 - 36524 * min (day % 146097 / 36524) 3) % 1461 / 365) 3,
    by omega, by omega, by omega, rfl, ?_, ?_, ?_⟩
  · unfold yearOfDay
    simp only
    omega
  · unfold yearOfDay
    simp only
    omega
  · unfold yearOfDay
    simp only
    omega

theorem daysBeforeYear_yearOfDay (day : Int) :
    daysBeforeYear (yearOfDay day).1 + (yearOfDay day).2 = day := by
  obtain ⟨a, b, c, e, hb, hc, he, hyear, hday, -⟩ := yearOfDay_cycles day
  rw [hyear, daysBeforeYear_cycles hb hc he]
  exact hday.symm

theorem yearOfDay_nonneg (day : Int) : 0 ≤ (yearOfDay day).2 := by
  obtain ⟨_, _, _, _, _, _, _, _, _, h, _⟩ := yearOfDay_cycles day
  exact h

theorem yearOfDay_lt (day : Int) : (yearOfDay day).2 < yearLength (yearOfDay day).1 := by
  obtain ⟨a, b, c, e, hb, hc, he, hyear, -, -, hlast⟩ := yearOfDay_cycles day
  have hleap := isLeap_cycles (a := a) hb hc he
  unfold yearLength
  rw [hyear]
  split
  · omega
  · next hnot =>
    have := mt hleap.mpr hnot
    omega

def monthLengths (year : Int) : List Nat :=
  [31, if isLeap year then 29 else 28, 31, 30, 31, 30, 31, 31, 30, 31, 30, 31]

/-- How many of the months have passed on a day, and the day within the next. -/
def splitMonths : List Nat → Nat → Nat × Nat
  | [], day => (0, day)
  | length :: months, day =>
    if day < length then (0, day)
    else ((splitMonths months (day - length)).1 + 1, (splitMonths months (day - length)).2)

theorem splitMonths_sum (months : List Nat) (day : Nat) :
    (months.take (splitMonths months day).1).sum + (splitMonths months day).2 = day := by
  induction months generalizing day with
  | nil => simp [splitMonths]
  | cons length months ih =>
    unfold splitMonths
    split
    · simp
    · have := ih (day - length)
      simp only [List.take_succ_cons, List.sum_cons]
      omega

theorem splitMonths_lt {months : List Nat} {day : Nat} (h : day < months.sum) :
    ∃ length, months[(splitMonths months day).1]? = some length ∧
      (splitMonths months day).2 < length := by
  induction months generalizing day with
  | nil => cases h
  | cons length months ih =>
    unfold splitMonths
    split
    next hlt => exact ⟨length, rfl, hlt⟩
    next hge =>
      rw [List.sum_cons] at h
      obtain ⟨length', hget, hlt⟩ := ih (show day - length < months.sum by omega)
      exact ⟨length', by simpa using hget, hlt⟩

theorem sum_monthLengths (year : Int) : ((monthLengths year).sum : Int) = yearLength year := by
  unfold monthLengths yearLength
  split <;> rfl

/-- The month and the day of the month, both from 1. -/
def dateOfDay (day : Int) : Int × Nat × Nat :=
  let month := splitMonths (monthLengths (yearOfDay day).1) (yearOfDay day).2.toNat
  ((yearOfDay day).1, month.1 + 1, month.2 + 1)

/-- How many days a month has, if there is such a month. -/
def daysIn (year : Int) (month : Nat) : Nat :=
  (monthLengths year)[month - 1]?.getD 0

def dayOfDate (year : Int) (month day : Nat) : Int :=
  daysBeforeYear year + ((monthLengths year).take (month - 1)).sum + (day - 1)

theorem dayOfDate_dateOfDay (day : Int) :
    dayOfDate (dateOfDay day).1 (dateOfDay day).2.1 (dateOfDay day).2.2 = day := by
  have hsum := splitMonths_sum (monthLengths (yearOfDay day).1) (yearOfDay day).2.toNat
  have hyear := daysBeforeYear_yearOfDay day
  have hnonneg := yearOfDay_nonneg day
  unfold dayOfDate dateOfDay
  simp only [Nat.add_sub_cancel]
  omega

theorem dateOfDay_valid (day : Int) : (dateOfDay day).2.1 ≤ 12 ∧
    (dateOfDay day).2.2 ≤ daysIn (dateOfDay day).1 (dateOfDay day).2.1 := by
  have hlt : (yearOfDay day).2.toNat < (monthLengths (yearOfDay day).1).sum := by
    have hsum := sum_monthLengths (yearOfDay day).1
    have := yearOfDay_lt day
    have := yearOfDay_nonneg day
    omega
  obtain ⟨length, hget, hday⟩ := splitMonths_lt hlt
  have hmonth := (List.getElem?_eq_some_iff.mp hget).1
  constructor
  · exact hmonth
  · show _ + 1 ≤ daysIn (yearOfDay day).1 (_ + 1)
    unfold daysIn
    rw [Nat.add_sub_cancel, hget]
    exact hday

theorem daysBeforeYear_succ (year : Int) :
    daysBeforeYear (year + 1) = daysBeforeYear year + yearLength year := by
  unfold daysBeforeYear yearLength isLeap
  simp only [decide_eq_true_eq]
  split <;> omega

theorem daysBeforeYear_mono {a b : Int} (h : a ≤ b) : daysBeforeYear a ≤ daysBeforeYear b := by
  have hsucc : ∀ year, daysBeforeYear year ≤ daysBeforeYear (year + 1) := by
    intro year
    rw [daysBeforeYear_succ]
    unfold yearLength
    split <;> omega
  exact monotone_int_of_le_succ hsucc h

/-- Days fall into years as the first days of the years divide them. -/
theorem lt_yearOfDay_iff (year day : Int) :
    (yearOfDay day).1 < year ↔ day < daysBeforeYear year := by
  have hday := daysBeforeYear_yearOfDay day
  constructor
  · intro h
    have hmono := daysBeforeYear_mono (Int.add_one_le_of_lt h)
    rw [daysBeforeYear_succ] at hmono
    have := yearOfDay_lt day
    omega
  · intro h
    by_contra hge
    have hmono := daysBeforeYear_mono (Int.not_lt.mp hge)
    have := yearOfDay_nonneg day
    omega

/-! ## Instants as text -/

/-- The first of January 1970, counted from the year 1. -/
def epochDay : Int := 719162

def nanosPerSecond : Int := 1000000000

def secondsPerDay : Int := 86400

def writeYear (year : Int) : List Char :=
  if year < 0 then '-' :: padded 4 year.natAbs else padded 4 year.toNat

/-- A date with what follows it: the time of the day, the fraction and `Z`. -/
def writeDate (year : Int) (month day : Nat) (s : List Char) : List Char :=
  writeYear year ++ '-' :: (padded 2 month ++ '-' :: (padded 2 day ++ s))

def writeClock (second nanos : Nat) : List Char :=
  'T' :: (padded 2 (second / 3600) ++ ':' :: (padded 2 (second / 60 % 60) ++ ':' ::
    (padded 2 (second % 60) ++ (fraction nanos ++ ['Z']))))

/-- The UTC form of an instant. -/
def format (unixNano : Int) : List Char :=
  let second := unixNano / nanosPerSecond
  let date := dateOfDay (second / secondsPerDay + epochDay)
  writeDate date.1 date.2.1 date.2.2
    (writeClock (second % secondsPerDay).toNat (unixNano % nanosPerSecond).toNat)

/-- `Z`, or a sign with hours and minutes: the offset in seconds. -/
def readOffset : List Char → Option (Int × List Char)
  | [] => none
  | sign :: s =>
    if sign = 'Z' then some (0, s)
    else do
      let (hours, s) ← readFixed 2 s
      let s ← readLiteral ':' s
      let (minutes, s) ← readFixed 2 s
      guard (hours ≤ 24 ∧ minutes ≤ 60)
      if sign = '+' then some (60 * (60 * hours + minutes), s)
      else if sign = '-' then some (-(60 * (60 * hours + minutes)), s)
      else none

def readDate (s : List Char) : Option ((Nat × Nat × Nat) × List Char) := do
  let (year, s) ← readFixed 4 s
  let s ← readLiteral '-' s
  let (month, s) ← readFixed 2 s
  let s ← readLiteral '-' s
  let (day, s) ← readFixed 2 s
  guard (1 ≤ month ∧ month ≤ 12 ∧ 1 ≤ day ∧ day ≤ daysIn year month)
  some ((year, month, day), s)

/-- The second of the day, the nanoseconds and the offset. -/
def readClock (s : List Char) : Option ((Nat × Nat × Int) × List Char) := do
  let s ← readLiteral 'T' s
  let (hour, s) ← readOneOrTwo s
  let s ← readLiteral ':' s
  let (minute, s) ← readFixed 2 s
  let s ← readLiteral ':' s
  let (second, s) ← readFixed 2 s
  guard (hour < 24 ∧ minute < 60 ∧ second < 60)
  let (offset, rest) ← readOffset (readFraction s).2
  some ((3600 * hour + 60 * minute + second, (readFraction s).1, offset), rest)

/-- The instant a text stands for, and the offset it is given in. -/
def parse (s : List Char) : Option (Int × Int) := do
  let ((year, month, day), s) ← readDate s
  let ((second, nanos, offset), s) ← readClock s
  guard (s = [])
  some (((dayOfDate year month day - epochDay) * secondsPerDay + second - offset) *
    nanosPerSecond + nanos, offset)

theorem daysIn_le (year : Int) (month : Nat) : daysIn year month ≤ 31 := by
  unfold daysIn
  cases hget : (monthLengths year)[month - 1]? with
  | none => exact Nat.zero_le 31
  | some length =>
    have hmem := List.mem_of_getElem? hget
    unfold monthLengths at hmem
    show length ≤ 31
    split at hmem <;>
    · simp only [List.mem_cons, List.not_mem_nil, or_false] at hmem
      omega

theorem guard_bind {p : Prop} [Decidable p] {α : Type} (h : p) (x : Option α) :
    (guard p >>= fun _ => x) = x := by
  unfold guard
  rw [if_pos h]
  rfl

theorem readDate_writeDate {year : Int} {month day : Nat} (hyear : 0 ≤ year ∧ year < 10000)
    (hmonth : 1 ≤ month ∧ month ≤ 12) (hday : 1 ≤ day ∧ day ≤ daysIn year month)
    (s : List Char) :
    readDate (writeDate year month day s) = some ((year.toNat, month, day), s) := by
  have hbound := daysIn_le year month
  have hwrite : writeYear year = padded 4 year.toNat := if_neg (by omega)
  have hcast : ((year.toNat : Nat) : Int) = year := Int.toNat_of_nonneg hyear.1
  unfold readDate writeDate
  rw [hwrite, readFixed_padded (by decide) (by omega)]
  simp only [Option.bind_eq_bind, Option.bind_some, readLiteral_cons]
  rw [readFixed_padded (by decide) (by omega)]
  simp only [Option.bind_some, readLiteral_cons]
  rw [readFixed_padded (by decide) (by omega)]
  simp only [Option.bind_some, hcast]
  exact guard_bind ⟨hmonth.1, hmonth.2, hday⟩ _

theorem readClock_writeClock {second nanos : Nat} (hsecond : second < 86400)
    (hnanos : nanos < 10 ^ 9) :
    readClock (writeClock second nanos) = some ((second, nanos, 0), []) := by
  have hclock : 3600 * (second / 3600) + 60 * (second / 60 % 60) + second % 60 = second := by omega
  unfold readClock writeClock
  rw [readLiteral_cons]
  simp only [Option.bind_eq_bind, Option.bind_some]
  rw [readOneOrTwo_padded (by omega)]
  simp only [Option.bind_some, readLiteral_cons]
  rw [readFixed_padded (by decide) (by omega)]
  simp only [Option.bind_some, readLiteral_cons]
  rw [readFixed_padded (by decide) (by omega)]
  simp only [Option.bind_some, hclock]
  rw [readFraction_fraction hnanos (by decide) (by decide) (by decide)]
  exact guard_bind ⟨by omega, by omega, by omega⟩ _

/-- An instant of a year with four digits is read as it was written. -/
theorem parse_format {unixNano : Int}
    (hlo : (daysBeforeYear 0 - epochDay) * secondsPerDay * nanosPerSecond ≤ unixNano)
    (hhi : unixNano < (daysBeforeYear 10000 - epochDay) * secondsPerDay * nanosPerSecond) :
    parse (format unixNano) = some (unixNano, 0) := by
  set second := unixNano / nanosPerSecond with hsecond
  set day := second / secondsPerDay + epochDay with hday
  have hlow : daysBeforeYear 0 ≤ day := by
    unfold nanosPerSecond secondsPerDay epochDay at *
    omega
  have hhigh : day < daysBeforeYear 10000 := by
    unfold nanosPerSecond secondsPerDay epochDay at *
    omega
  have hyear : 0 ≤ (dateOfDay day).1 ∧ (dateOfDay day).1 < 10000 :=
    ⟨Int.not_lt.mp fun h => absurd ((lt_yearOfDay_iff 0 day).mp h) (Int.not_lt.mpr hlow),
      (lt_yearOfDay_iff 10000 day).mpr hhigh⟩
  have hvalid := dateOfDay_valid day
  have hnanos : (unixNano % nanosPerSecond).toNat < 10 ^ 9 := by
    unfold nanosPerSecond
    omega
  have hclock : (second % secondsPerDay).toNat < 86400 := by
    unfold secondsPerDay
    omega
  have hcast : (((dateOfDay day).1.toNat : Nat) : Int) = (dateOfDay day).1 :=
    Int.toNat_of_nonneg hyear.1
  have hmonth : 1 ≤ (dateOfDay day).2.1 := Nat.le_add_left 1 _
  have hdayOne : 1 ≤ (dateOfDay day).2.2 := Nat.le_add_left 1 _
  have hformat : format unixNano = writeDate (dateOfDay day).1 (dateOfDay day).2.1
      (dateOfDay day).2.2 (writeClock (second % secondsPerDay).toNat
        (unixNano % nanosPerSecond).toNat) := rfl
  unfold parse
  rw [hformat, readDate_writeDate hyear ⟨hmonth, hvalid.1⟩ ⟨hdayOne, hvalid.2⟩]
  simp only [Option.bind_eq_bind, Option.bind_some]
  rw [readClock_writeClock hclock hnanos]
  simp only [Option.bind_some, hcast, dayOfDate_dateOfDay]
  refine (guard_bind (p := ([] : List Char) = []) rfl _).trans ?_
  refine congrArg some (Prod.ext ?_ rfl)
  show (_ * secondsPerDay + _ - 0) * nanosPerSecond + _ = unixNano
  unfold nanosPerSecond secondsPerDay epochDay at *
  omega

/-- A year of five digits is not followed by a hyphen after four. -/
theorem readDate_late {year : Int} (h : 10000 ≤ year) (month day : Nat) (s : List Char) :
    readDate (writeDate year month day s) = none := by
  have hwrite : writeYear year = padded 4 year.toNat := if_neg (by omega)
  have hlong : 4 < (Nat.toDigits 10 year.toNat).length := by
    by_contra hle
    have := (Nat.length_toDigits_le_iff (by decide : 1 < 10) (by decide : 0 < 4)).mp
      (Nat.not_lt.mp hle)
    omega
  have hlength : 4 < (padded 4 year.toNat).length := by
    rw [padded_eq, List.length_append]
    omega
  set digits := padded 4 year.toNat with hdigits
  obtain ⟨c, rest, hdrop⟩ := List.exists_cons_of_ne_nil
    (show digits.drop 4 ≠ [] from fun hnil => by
      have := congrArg List.length hnil
      rw [List.length_drop] at this
      simp only [List.length_nil] at this
      omega)
  have hdigit : c.isDigit = true :=
    padded_isDigit (List.mem_of_mem_drop (show c ∈ digits.drop 4 by rw [hdrop]; simp))
  have hc : c ≠ '-' := by
    rintro rfl
    cases hdigit
  unfold readDate writeDate
  rw [hwrite]
  cases hread : readFixed 4 (digits ++ '-' :: (padded 2 month ++ '-' :: (padded 2 day ++ s))) with
  | none => rfl
  | some field =>
    unfold readFixed at hread
    rw [List.drop_append_of_le_length (by omega), hdrop] at hread
    split at hread
    · cases hread
      simp [readLiteral, hc]
    · cases hread

/-- A later instant is written, but the text cannot be read. -/
theorem parse_format_late {unixNano : Int}
    (h : (daysBeforeYear 10000 - epochDay) * secondsPerDay * nanosPerSecond ≤ unixNano) :
    parse (format unixNano) = none := by
  have hday : daysBeforeYear 10000 ≤ unixNano / nanosPerSecond / secondsPerDay + epochDay := by
    unfold nanosPerSecond secondsPerDay epochDay at *
    omega
  have hyear : 10000 ≤ (dateOfDay (unixNano / nanosPerSecond / secondsPerDay + epochDay)).1 :=
    Int.not_lt.mp (mt (lt_yearOfDay_iff 10000 _).mp (Int.not_lt.mpr hday))
  unfold parse format
  simp only
  rw [readDate_late hyear]
  rfl

end Pomodorough.Library.Rfc3339
