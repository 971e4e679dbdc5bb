import Pomodorough.Library.DateTimes
import Pomodorough.Web.SyncCore

/-! # Date-times in the browser

`parseDateTime` matches a text against one pattern and checks the fields; the time
value is ECMAScript's. It accepts the date-times of RFC 3339, and `dateTimeMs` gives
the milliseconds of the instant that a text names. -/
namespace Pomodorough.Web.SyncCore
open Pomodorough.Library
open Pomodorough.Library.DateTimes

/-! ## ECMAScript's time values -/

/-- `DayFromYear`. -/
def dayFromYear (year : Int) : Int :=
  365 * (year - 1970) + (year - 1969) / 4 - (year - 1901) / 100 + (year - 1601) / 400

/-- The days of a year before a month, from 0. -/
def daysBeforeMonth (leap : Bool) (month : Nat) : Int :=
  [0, 31, 59, 90, 120, 151, 181, 212, 243, 273, 304, 334].getD month 0 +
    if leap && 2 ≤ month then 1 else 0

/-- `date.getTime()` after `setUTCFullYear` and `setUTCHours`, with the month from 0. -/
def getTime (year month day hour minute second : Nat) : Int :=
  (dayFromYear year + daysBeforeMonth (leapYear year) month + day - 1) * 86400000 +
    hour * 3600000 + minute * 60000 + second * 1000

/-! ## The parser -/

/-- The groups of the pattern, with 1, -1 or 0 for the sign of the offset. -/
structure DateTimeMatch where
  year : Nat
  month : Nat
  day : Nat
  hour : Nat
  minute : Nat
  second : Nat
  fraction : List Char
  offsetDirection : Int
  offsetHour : Nat
  offsetMinute : Nat
deriving DecidableEq, Repr

/-- The match of the pattern. -/
def matchDateTime (text : List Char) : Option DateTimeMatch := do
  let (year, text) ← digits 4 text
  let (_, text) ← oneOf ['-'] text
  let (month, text) ← digits 2 text
  let (_, text) ← oneOf ['-'] text
  let (day, text) ← digits 2 text
  let (_, text) ← oneOf ['T', 't'] text
  let (hour, text) ← digits 2 text
  let (_, text) ← oneOf [':'] text
  let (minute, text) ← digits 2 text
  let (_, text) ← oneOf [':'] text
  let (second, text) ← digits 2 text
  let (fraction, text) ← fractionOf text
  let (offsetDirection, offsetHour, offsetMinute) ← offsetOf text
  some ⟨year, month, day, hour, minute, second, fraction, offsetDirection, offsetHour, offsetMinute⟩

/-- `valid`. -/
def DateTimeMatch.Valid (m : DateTimeMatch) : Prop :=
  1 ≤ m.month ∧ m.month ≤ 12 ∧ 1 ≤ m.day ∧ m.day ≤ daysInMonth m.year m.month ∧ m.hour ≤ 23 ∧
    m.minute ≤ 59 ∧ m.second ≤ 59 ∧ m.offsetHour ≤ 23 ∧ m.offsetMinute ≤ 59

instance (m : DateTimeMatch) : Decidable m.Valid := inferInstanceAs (Decidable (_ ∧ _))

structure ParsedDateTime where
  seconds : Int
  fraction : List Char
deriving DecidableEq, Repr

/-- `parseDateTime`. -/
def parseDateTime (value : String) : Option ParsedDateTime :=
  match matchDateTime value.toList with
  | none => none
  | some m =>
    if m.Valid then
      some
        { seconds := getTime m.year (m.month - 1) m.day m.hour m.minute m.second / 1000 -
            m.offsetDirection * (m.offsetHour * 60 + m.offsetMinute) * 60
          fraction := m.fraction.rdropWhile (· = '0') }
    else none

/-- `dateTimeMs`. -/
def dateTimeMs (value : String) : Option Int :=
  match parseDateTime value with
  | none => none
  | some parsed =>
    let milliseconds := Nat.ofDigitChars 10 ((parsed.fraction.rightpad 3 '0').take 3) 0
    let result := parsed.seconds * 1000 + milliseconds
    if isSafeInteger result then some result else none

theorem isSome_bind_congr {α β γ : Type} {x : Option α} {f : α → Option γ} {g : α → Option β}
    {k : β → Option γ} (h : ∀ a, (f a).isSome = ((g a).bind k).isSome) :
    (x.bind f).isSome = ((x.bind g).bind k).isSome := by
  cases x with
  | none => rfl
  | some a => exact h a

/-- `validDateTime` accepts what `parseDateTime` does. -/
theorem validDateTime_eq (value : String) : validDateTime value = (parseDateTime value).isSome := by
  have hparse : (parseDateTime value).isSome =
      ((matchDateTime value.toList).bind fun m => (guard m.Valid : Option Unit)).isSome := by
    unfold parseDateTime
    cases matchDateTime value.toList with
    | none => rfl
    | some m => by_cases h : m.Valid <;> simp [h, guard]
  rw [hparse]
  unfold validDateTime matchDateTime
  -- One step for each group of the pattern.
  iterate 12
    refine isSome_bind_congr ?_
    intro group
    obtain ⟨_, _⟩ := group
  refine isSome_bind_congr ?_
  intro offset
  obtain ⟨_, _, _⟩ := offset
  rfl
/-! ## The calendar -/

theorem isLeap_eq (year : Nat) : Rfc3339.isLeap year = leapYear year := by
  unfold Rfc3339.isLeap leapYear
  rw [decide_eq_decide]
  omega

theorem dayFromYear_eq (year : Int) :
    dayFromYear year = Rfc3339.daysBeforeYear year - Rfc3339.epochDay := by
  unfold dayFromYear Rfc3339.daysBeforeYear Rfc3339.epochDay
  omega

theorem monthOf_le {month : Nat} (h : 1 ≤ month ∧ month ≤ 12) : ∃ index < 12, month = index + 1 :=
  ⟨month - 1, by omega, by omega⟩

theorem daysInMonth_eq {year month : Nat} (h : 1 ≤ month ∧ month ≤ 12) :
    daysInMonth year month = Rfc3339.daysIn year month := by
  obtain ⟨index, hindex, rfl⟩ := monthOf_le h
  unfold daysInMonth Rfc3339.daysIn Rfc3339.monthLengths
  rw [isLeap_eq, Nat.add_sub_cancel]
  cases leapYear year with
  | true => revert index; decide
  | false => revert index; decide

theorem daysBeforeMonth_eq {year month : Nat} (h : 1 ≤ month ∧ month ≤ 12) :
    daysBeforeMonth (leapYear year) (month - 1) =
      ((Rfc3339.monthLengths year).take (month - 1)).sum := by
  obtain ⟨index, hindex, rfl⟩ := monthOf_le h
  unfold Rfc3339.monthLengths
  rw [isLeap_eq, Nat.add_sub_cancel]
  cases leapYear year with
  | true => revert index; decide
  | false => revert index; decide

/-- The time value is that of the calendar's day and of the clock. -/
theorem getTime_eq {year month day hour minute second : Nat} (h : 1 ≤ month ∧ month ≤ 12) :
    getTime year (month - 1) day hour minute second =
      ((Rfc3339.dayOfDate year month day - Rfc3339.epochDay) * Rfc3339.secondsPerDay +
        (3600 * hour + 60 * minute + second)) * 1000 := by
  unfold getTime Rfc3339.dayOfDate Rfc3339.secondsPerDay
  rw [dayFromYear_eq, daysBeforeMonth_eq h]
  ring

/-! ## What the pattern matches -/

section Reader
variable {n v : Nat} {text rest allowed fraction w : List Char} {c : Char} {d : DateTime}

theorem digits_iff : digits n text = some (v, rest) ↔ ∃ ds, text = ds ++ rest ∧ Field n v ds := by
  induction n generalizing text v with
  | zero =>
    simp only [digits, Option.some.injEq, Prod.mk.injEq]
    constructor
    · rintro ⟨rfl, rfl⟩
      exact ⟨[], rfl, rfl, by simp, rfl⟩
    · rintro ⟨ds, rfl, hlength, -, hvalue⟩
      obtain rfl := List.length_eq_zero_iff.mp hlength
      exact ⟨hvalue, rfl⟩
  | succ n ih =>
    cases text with
    | nil =>
      simp only [digits, reduceCtorEq, false_iff]
      rintro ⟨ds, hds, hfield⟩
      obtain ⟨rfl, rfl⟩ := List.append_eq_nil_iff.mp hds.symm
      exact absurd hfield.length (by simp)
    | cons c text =>
      have hvalue : ∀ ds : List Char, ds.length = n → Nat.ofDigitChars 10 (c :: ds) 0 =
          (c.toNat - '0'.toNat) * 10 ^ n + Nat.ofDigitChars 10 ds 0 := by
        intro ds hlength
        rw [Nat.ofDigitChars_cons, Nat.ofDigitChars_eq_ofDigitChars_zero, hlength, Nat.mul_zero,
          Nat.zero_add, Nat.mul_comm]
      constructor
      · intro h
        simp only [digits, Option.bind_eq_bind, Option.bind_eq_some_iff] at h
        obtain ⟨_, hdigit, ⟨r, text'⟩, hr, h⟩ := h
        cases h
        obtain ⟨ds, rfl, hfield⟩ := ih.mp hr
        have hdigit : c.isDigit = true := by simpa using hdigit
        refine ⟨c :: ds, rfl, by simp [hfield.length], ?_, ?_⟩
        · exact List.forall_mem_cons.mpr ⟨hdigit, hfield.isDigit⟩
        · rw [hvalue ds hfield.length, hfield.value]
      · rintro ⟨ds, heq, hlength, hall, hfield⟩
        cases ds with
        | nil => exact absurd hlength (by simp)
        | cons c' ds =>
          obtain ⟨rfl, rfl⟩ := List.cons.inj heq
          obtain ⟨hdigit, hall⟩ := List.forall_mem_cons.mp hall
          have hlength : ds.length = n := by simpa using hlength
          have hrest := ih.mpr ⟨ds, rfl, hlength, hall, rfl⟩
          rw [← hfield, hvalue ds hlength]
          simp [digits, hdigit, hrest]

theorem oneOf_iff : oneOf allowed text = some (c, rest) ↔ c ∈ allowed ∧ text = c :: rest := by
  cases text with
  | nil => simp [oneOf]
  | cons d text =>
    by_cases h : d ∈ allowed
    · simp only [oneOf, if_pos h, Option.some.injEq, Prod.mk.injEq, List.cons.injEq]
      constructor
      · rintro ⟨rfl, rfl⟩
        exact ⟨h, rfl, rfl⟩
      · rintro ⟨-, rfl, rfl⟩
        exact ⟨rfl, rfl⟩
    · simp only [oneOf, if_neg h, reduceCtorEq, List.cons.injEq, false_iff]
      rintro ⟨hc, rfl, -⟩
      exact h hc

theorem fractionOf_some (h : fractionOf text = some (fraction, rest)) :
    ∃ w, FractionWritten fraction w ∧ text = w ++ rest := by
  unfold fractionOf at h
  split at h
  · next text =>
    split at h
    · cases h
    · next digits hne =>
      cases h
      refine ⟨'.' :: text.takeWhile Char.isDigit, .point ?_ ?_, ?_⟩
      · exact hne
      · intro c hc
        exact List.mem_takeWhile_imp hc
      · rw [List.cons_append, List.takeWhile_append_dropWhile]
  · cases h
    exact ⟨[], .none, rfl⟩

theorem fractionOf_written (h : FractionWritten fraction w)
    (hrest : ∀ c, rest.head? = some c → c.isDigit = false ∧ c ≠ '.') :
    fractionOf (w ++ rest) = some (fraction, rest) := by
  have hstop : rest.takeWhile Char.isDigit = [] ∧ rest.dropWhile Char.isDigit = rest := by
    cases rest with
    | nil => exact ⟨rfl, rfl⟩
    | cons c rest =>
      have hc := (hrest c rfl).1
      simp [hc]
  cases h with
  | none =>
    cases rest with
    | nil => rfl
    | cons c rest =>
      have hc := (hrest c rfl).2
      unfold fractionOf
      split
      · next heq =>
        exact absurd (List.cons.inj heq).1 hc
      · rfl
  | point hne hall =>
    have htake : (fraction ++ rest).takeWhile Char.isDigit = fraction := by
      rw [List.takeWhile_append_of_pos hall, hstop.1, List.append_nil]
    have hdrop : (fraction ++ rest).dropWhile Char.isDigit = rest := by
      rw [List.dropWhile_append_of_pos hall, hstop.2]
    show fractionOf ('.' :: (fraction ++ rest)) = _
    simp only [fractionOf]
    rw [htake, hdrop]
    cases fraction with
    | nil => exact absurd rfl hne
    | cons c fraction => rfl

/-- The groups of an offset. -/
def offsetFields : Offset → Int × Nat × Nat
  | .utc => (0, 0, 0)
  | .ahead hour minute => (1, hour, minute)
  | .behind hour minute => (-1, hour, minute)

theorem offsetOf_iff {fields : Int × Nat × Nat} : offsetOf text = some fields ↔
    ∃ o, OffsetWritten o text ∧ offsetFields o = fields := by
  constructor
  · intro h
    unfold offsetOf at h
    split at h
    · cases h
      exact ⟨.utc, .zulu (.inl rfl), rfl⟩
    · cases h
      exact ⟨.utc, .zulu (.inr rfl), rfl⟩
    · simp only [Option.bind_eq_bind, Option.bind_eq_some_iff] at h
      obtain ⟨⟨sign, text⟩, hsign, ⟨hour, text⟩, hhour, ⟨colon, text⟩, hcolon, ⟨minute, text⟩,
        hminute, _, hend, h⟩ := h
      cases h
      obtain ⟨hmem, rfl⟩ := oneOf_iff.mp hsign
      obtain ⟨hours, rfl, hhours⟩ := digits_iff.mp hhour
      obtain ⟨hc, rfl⟩ := oneOf_iff.mp hcolon
      obtain ⟨minutes, rfl, hminutes⟩ := digits_iff.mp hminute
      obtain rfl : text = [] := by simpa using hend
      obtain rfl : colon = ':' := by simpa using hc
      rw [List.append_nil]
      obtain rfl | rfl : sign = '+' ∨ sign = '-' := by simpa using hmem
      · exact ⟨.ahead hour minute, .ahead hhours hminutes, rfl⟩
      · exact ⟨.behind hour minute, .behind hhours hminutes, rfl⟩
  · rintro ⟨o, hwritten, rfl⟩
    have hsigned : ∀ (sign : Char) (hour minute : Nat) (hours minutes : List Char),
        sign = '+' ∨ sign = '-' → Field 2 hour hours → Field 2 minute minutes →
        offsetOf (sign :: (hours ++ ':' :: minutes)) =
          some (if sign = '+' then 1 else -1, hour, minute) := by
      intro sign hour minute hours minutes hsign hhours hminutes
      have hhour : digits 2 (hours ++ ':' :: minutes) = some (hour, ':' :: minutes) :=
        digits_iff.mpr ⟨hours, rfl, hhours⟩
      have hminute : digits 2 minutes = some (minute, []) :=
        digits_iff.mpr ⟨minutes, by simp, hminutes⟩
      have hone : oneOf ['+', '-'] (sign :: (hours ++ ':' :: minutes)) =
          some (sign, hours ++ ':' :: minutes) := oneOf_iff.mpr ⟨by simpa using hsign, rfl⟩
      have hcolon : oneOf [':'] (':' :: minutes) = some (':', minutes) :=
        oneOf_iff.mpr ⟨by simp, rfl⟩
      unfold offsetOf
      split
      · next heq =>
        have hz := (List.cons.inj heq).1
        obtain rfl | rfl := hsign <;> cases hz
      · next heq =>
        have hz := (List.cons.inj heq).1
        obtain rfl | rfl := hsign <;> cases hz
      · simp [hone, hhour, hcolon, hminute]
    cases hwritten with
    | zulu hz =>
      obtain rfl | rfl := hz
      · rfl
      · rfl
    | ahead hhours hminutes => exact hsigned '+' _ _ _ _ (.inl rfl) hhours hminutes
    | behind hhours hminutes => exact hsigned '-' _ _ _ _ (.inr rfl) hhours hminutes

theorem offset_head {o : Offset} (h : OffsetWritten o text) :
    ∀ c, text.head? = some c → c.isDigit = false ∧ c ≠ '.' := by
  intro c hc
  cases h with
  | zulu hz =>
    obtain rfl := Option.some.inj hc
    obtain rfl | rfl := hz
    · exact ⟨rfl, by decide⟩
    · exact ⟨rfl, by decide⟩
  | ahead =>
    obtain rfl := Option.some.inj hc
    exact ⟨rfl, by decide⟩
  | behind =>
    obtain rfl := Option.some.inj hc
    exact ⟨rfl, by decide⟩

/-- The groups that a date-time gives. -/
def fieldsOf (d : DateTime) : DateTimeMatch :=
  { year := d.year, month := d.month, day := d.day, hour := d.hour, minute := d.minute
    second := d.second, fraction := d.fraction, offsetDirection := (offsetFields d.offset).1
    offsetHour := (offsetFields d.offset).2.1, offsetMinute := (offsetFields d.offset).2.2 }

/-- The pattern matches the texts of the grammar. -/
theorem matchDateTime_iff {m : DateTimeMatch} :
    matchDateTime text = some m ↔ ∃ d, Written d text ∧ fieldsOf d = m := by
  constructor
  · intro h
    obtain ⟨⟨year, t1⟩, hyear, h⟩ := Option.bind_eq_some_iff.mp h
    obtain ⟨⟨c1, t2⟩, hc1, h⟩ := Option.bind_eq_some_iff.mp h
    obtain ⟨⟨month, t3⟩, hmonth, h⟩ := Option.bind_eq_some_iff.mp h
    obtain ⟨⟨c2, t4⟩, hc2, h⟩ := Option.bind_eq_some_iff.mp h
    obtain ⟨⟨day, t5⟩, hday, h⟩ := Option.bind_eq_some_iff.mp h
    obtain ⟨⟨t, t6⟩, ht, h⟩ := Option.bind_eq_some_iff.mp h
    obtain ⟨⟨hour, t7⟩, hhour, h⟩ := Option.bind_eq_some_iff.mp h
    obtain ⟨⟨c3, t8⟩, hc3, h⟩ := Option.bind_eq_some_iff.mp h
    obtain ⟨⟨minute, t9⟩, hminute, h⟩ := Option.bind_eq_some_iff.mp h
    obtain ⟨⟨c4, t10⟩, hc4, h⟩ := Option.bind_eq_some_iff.mp h
    obtain ⟨⟨second, t11⟩, hsecond, h⟩ := Option.bind_eq_some_iff.mp h
    obtain ⟨⟨fraction, t12⟩, hfraction, h⟩ := Option.bind_eq_some_iff.mp h
    obtain ⟨⟨direction, offsetHour, offsetMinute⟩, hoffset, h⟩ := Option.bind_eq_some_iff.mp h
    cases h
    obtain ⟨years, rfl, hyears⟩ := digits_iff.mp hyear
    obtain ⟨hdash, rfl⟩ := oneOf_iff.mp hc1
    obtain ⟨months, rfl, hmonths⟩ := digits_iff.mp hmonth
    obtain ⟨hdashB, rfl⟩ := oneOf_iff.mp hc2
    obtain ⟨days, rfl, hdays⟩ := digits_iff.mp hday
    obtain ⟨htime, rfl⟩ := oneOf_iff.mp ht
    obtain ⟨hours, rfl, hhours⟩ := digits_iff.mp hhour
    obtain ⟨hcolon, rfl⟩ := oneOf_iff.mp hc3
    obtain ⟨minutes, rfl, hminutes⟩ := digits_iff.mp hminute
    obtain ⟨hcolonB, rfl⟩ := oneOf_iff.mp hc4
    obtain ⟨seconds, rfl, hseconds⟩ := digits_iff.mp hsecond
    obtain ⟨w, hwritten, rfl⟩ := fractionOf_some hfraction
    obtain ⟨o, ho, hfields⟩ := offsetOf_iff.mp hoffset
    obtain rfl : c1 = '-' := by simpa using hdash
    obtain rfl : c2 = '-' := by simpa using hdashB
    obtain rfl : c3 = ':' := by simpa using hcolon
    obtain rfl : c4 = ':' := by simpa using hcolonB
    refine ⟨⟨year, month, day, hour, minute, second, fraction, o⟩, ?_, ?_⟩
    · exact .intro hyears hmonths hdays (by simpa using htime) hhours hminutes hseconds hwritten ho
    · simp only [fieldsOf, hfields]
  · rintro ⟨d, hwritten, rfl⟩
    cases hwritten with
    | intro hyear hmonth hday ht hhour hminute hsecond hfraction hoffset =>
      have hread : ∀ {n v : Nat} {ds rest : List Char}, Field n v ds →
          digits n (ds ++ rest) = some (v, rest) := fun h => digits_iff.mpr ⟨_, rfl, h⟩
      have hone : ∀ {allowed : List Char} {c : Char} {rest : List Char}, c ∈ allowed →
          oneOf allowed (c :: rest) = some (c, rest) := fun h => oneOf_iff.mpr ⟨h, rfl⟩
      have htime := fun rest => @hone ['T', 't'] _ rest (by simpa using ht)
      have hpoint := fractionOf_written hfraction (offset_head hoffset)
      have hfields := offsetOf_iff.mpr ⟨_, hoffset, rfl⟩
      have hdash := fun rest => @hone ['-'] '-' rest List.mem_cons_self
      have hcolon := fun rest => @hone [':'] ':' rest List.mem_cons_self
      refine Option.bind_eq_some_iff.mpr ⟨_, hread hyear, ?_⟩
      refine Option.bind_eq_some_iff.mpr ⟨_, hdash _, ?_⟩
      refine Option.bind_eq_some_iff.mpr ⟨_, hread hmonth, ?_⟩
      refine Option.bind_eq_some_iff.mpr ⟨_, hdash _, ?_⟩
      refine Option.bind_eq_some_iff.mpr ⟨_, hread hday, ?_⟩
      refine Option.bind_eq_some_iff.mpr ⟨_, htime _, ?_⟩
      refine Option.bind_eq_some_iff.mpr ⟨_, hread hhour, ?_⟩
      refine Option.bind_eq_some_iff.mpr ⟨_, hcolon _, ?_⟩
      refine Option.bind_eq_some_iff.mpr ⟨_, hread hminute, ?_⟩
      refine Option.bind_eq_some_iff.mpr ⟨_, hcolon _, ?_⟩
      refine Option.bind_eq_some_iff.mpr ⟨_, hread hsecond, ?_⟩
      refine Option.bind_eq_some_iff.mpr ⟨_, hpoint, ?_⟩
      refine Option.bind_eq_some_iff.mpr ⟨_, hfields, ?_⟩
      rfl

end Reader

/-! ## The instants -/

section Instants
variable {value : String} {text : List Char} {d : DateTime}

theorem field_lt {width v : Nat} {ds : List Char} (h : Field width v ds) : v < 10 ^ width := by
  rw [← h.value, ← h.length]
  exact ofDigitChars_lt h.isDigit

theorem valid_fieldsOf : (fieldsOf d).Valid ↔ d.Valid := by
  have hoffset : (offsetFields d.offset).2.1 ≤ 23 ∧ (offsetFields d.offset).2.2 ≤ 59 ↔
      d.offset.Valid := by
    cases d.offset <;> simp [offsetFields, Offset.Valid]
  simp only [DateTimeMatch.Valid, fieldsOf]
  constructor
  · rintro ⟨hmonth, hmonth', hday, hday', hhour, hminute, hsecond, hoff⟩
    rw [daysInMonth_eq ⟨hmonth, hmonth'⟩] at hday'
    exact ⟨⟨hmonth, hmonth'⟩, ⟨hday, hday'⟩, hhour, hminute, hsecond, hoffset.mp hoff⟩
  · rintro ⟨⟨hmonth, hmonth'⟩, ⟨hday, hday'⟩, hhour, hminute, hsecond, hoff⟩
    rw [← daysInMonth_eq ⟨hmonth, hmonth'⟩] at hday'
    exact ⟨hmonth, hmonth', hday, hday', hhour, hminute, hsecond, hoffset.mpr hoff⟩

/-- What the parser gives for a date-time. -/
def parsedOf (d : DateTime) : ParsedDateTime :=
  ⟨d.seconds, d.fraction.rdropWhile (· = '0')⟩

theorem parseDateTime_iff {parsed : ParsedDateTime} : parseDateTime value = some parsed ↔
    ∃ d, Written d value.toList ∧ d.Valid ∧ parsedOf d = parsed := by
  have hparsed : ∀ d : DateTime, d.Valid →
      (⟨getTime d.year (d.month - 1) d.day d.hour d.minute d.second / 1000 -
        (offsetFields d.offset).1 *
          ((offsetFields d.offset).2.1 * 60 + (offsetFields d.offset).2.2) * 60,
        d.fraction.rdropWhile (· = '0')⟩ : ParsedDateTime) = parsedOf d := by
    intro d hvalid
    rw [getTime_eq hvalid.month, Int.mul_ediv_cancel _ (by decide)]
    simp only [parsedOf, DateTime.seconds]
    congr 2
    cases d.offset with
    | utc => simp [offsetFields, Offset.seconds]
    | ahead hour minute => simp [offsetFields, Offset.seconds]
    | behind hour minute =>
      simp only [offsetFields, Offset.seconds]
      ring
  unfold parseDateTime
  constructor
  · intro h
    split at h
    · cases h
    · next m hm =>
      obtain ⟨d, hwritten, rfl⟩ := matchDateTime_iff.mp hm
      split at h
      · next hvalid =>
        have hvalid := valid_fieldsOf.mp hvalid
        rw [← Option.some.inj h]
        exact ⟨d, hwritten, hvalid, (hparsed d hvalid).symm⟩
      · cases h
  · rintro ⟨d, hwritten, hvalid, rfl⟩
    rw [matchDateTime_iff.mpr ⟨d, hwritten, rfl⟩]
    dsimp only
    rw [if_pos (valid_fieldsOf.mpr hvalid)]
    exact congrArg some (hparsed d hvalid)

/-- The first three digits, with zeros where there are none, are the milliseconds of
the fraction. -/
theorem milliseconds_eq {fraction : List Char} (h : ∀ c ∈ fraction, c.isDigit = true) :
    Nat.ofDigitChars 10 (((fraction.rdropWhile (· = '0')).rightpad 3 '0').take 3) 0 =
      1000 * Nat.ofDigitChars 10 fraction 0 / 10 ^ fraction.length := by
  set kept := fraction.rdropWhile (· = '0') with hkept
  have hfront := List.rdropWhile_prefix (· = '0') fraction
  have hdigits : ∀ c ∈ kept.rightpad 3 '0', c.isDigit = true := by
    intro c hc
    obtain hc | hc := List.mem_append.mp hc
    · exact h c (hfront.subset hc)
    · rw [List.eq_of_mem_replicate hc]
      rfl
  have hlength : 3 ≤ (kept.rightpad 3 '0').length := by
    simp only [List.rightpad, List.length_append, List.length_replicate]
    omega
  rw [ofDigitChars_take hdigits hlength, List.rightpad, scaled_zeros]
  -- The zeros that were dropped do not count either.
  have hzeros : fraction = kept ++ List.replicate (fraction.length - kept.length) '0' := by
    have hsplit := List.rdropWhile_append_rtakeWhile (l := fraction) (p := (· = '0'))
    have hall : fraction.rtakeWhile (· = '0') =
        List.replicate (fraction.rtakeWhile (· = '0')).length '0' :=
      List.eq_replicate_iff.mpr ⟨rfl, fun c hc => by simpa using List.mem_rtakeWhile_imp hc⟩
    have hlength := congrArg List.length hsplit
    rw [List.length_append, ← hkept] at hlength
    conv_lhs => rw [← hsplit, hall]
    rw [show fraction.length - kept.length = (fraction.rtakeWhile (· = '0')).length by omega]
  conv_rhs => rw [hzeros]
  exact (scaled_zeros _).symm

theorem seconds_bounds (hwritten : Written d text) (hvalid : d.Valid) :
    -100000000000 ≤ d.seconds ∧ d.seconds ≤ 1000000000000 := by
  cases hwritten with
  | intro hyear _ _ _ _ _ _ _ _ =>
    have hyear := field_lt hyear
    have hdays := Rfc3339.daysIn_le d.year d.month
    have hday := hvalid.day
    have hhour := hvalid.hour
    have hminute := hvalid.minute
    have hsecond := hvalid.second
    have hoffset : -86400 ≤ d.offset.seconds ∧ d.offset.seconds ≤ 86400 := by
      have hbound := hvalid.offset
      cases hkind : d.offset with
      | utc => exact ⟨by decide, by decide⟩
      | ahead hour minute =>
        rw [hkind] at hbound
        simp only [Offset.Valid] at hbound
        simp only [Offset.seconds]
        omega
      | behind hour minute =>
        rw [hkind] at hbound
        simp only [Offset.Valid] at hbound
        simp only [Offset.seconds]
        omega
    have hmonths : ((Rfc3339.monthLengths d.year).take (d.month - 1)).sum ≤ 366 := by
      have hsum := List.sum_take_add_sum_drop (Rfc3339.monthLengths d.year) (d.month - 1)
      have hyears := Rfc3339.sum_monthLengths d.year
      unfold Rfc3339.yearLength at hyears
      split at hyears <;> omega
    unfold DateTime.seconds Rfc3339.dayOfDate Rfc3339.daysBeforeYear Rfc3339.epochDay
      Rfc3339.secondsPerDay
    omega

theorem fraction_digits (hwritten : Written d text) : ∀ c ∈ d.fraction, c.isDigit = true := by
  cases hwritten with
  | intro _ _ _ _ _ _ _ hfraction _ =>
    cases hkind : d.fraction with
    | nil => simp
    | cons c rest =>
      rw [hkind] at hfraction
      cases hfraction with
      | point _ h => exact h

theorem dateTimeMs_written (hwritten : Written d value.toList) (hvalid : d.Valid) :
    dateTimeMs value = some ⌊1000 * d.instant⌋ := by
  have hbounds := seconds_bounds hwritten hvalid
  have hdigits := fraction_digits hwritten
  have hparse := parseDateTime_iff.mpr ⟨d, hwritten, hvalid, rfl⟩
  have hmilliseconds := milliseconds_eq hdigits
  have hlt : 1000 * Nat.ofDigitChars 10 d.fraction 0 / 10 ^ d.fraction.length < 1000 := by
    rw [Nat.div_lt_iff_lt_mul (Nat.pow_pos (by decide))]
    exact Nat.mul_lt_mul_of_pos_left (ofDigitChars_lt hdigits) (by decide)
  unfold dateTimeMs
  rw [hparse]
  dsimp only [parsedOf]
  rw [hmilliseconds, floor_instant, if_pos, Int.mul_comm]
  simp only [isSafeInteger, Bool.and_eq_true, decide_eq_true_eq]
  omega

/-- `time.Time.UnixMilli`, of an instant in nanoseconds. -/
def unixMilli (unixNano : Int) : Int :=
  unixNano / 1000000000 * 1000 + unixNano % 1000000000 / 1000000

/-- The browser accepts the date-times of RFC 3339 alone; it reads from each the
milliseconds of its instant; and it reads the UTC form of every instant of the years
0 to 9999 as the millisecond that the server computes. -/
theorem browser_instants :
    (∀ value, (parseDateTime value).isSome ↔ ∃ d : DateTime, Written d value.toList ∧ d.Valid) ∧
    (∀ value, (dateTimeMs value).isSome ↔ ∃ d : DateTime, Written d value.toList ∧ d.Valid) ∧
    (∀ value d, Written d value.toList → d.Valid → dateTimeMs value = some ⌊1000 * d.instant⌋) ∧
    ∀ unixNano, (Rfc3339.daysBeforeYear 0 - Rfc3339.epochDay) * Rfc3339.secondsPerDay *
        Rfc3339.nanosPerSecond ≤ unixNano →
      unixNano < (Rfc3339.daysBeforeYear 10000 - Rfc3339.epochDay) * Rfc3339.secondsPerDay *
        Rfc3339.nanosPerSecond →
      dateTimeMs (String.ofList (Rfc3339.format unixNano)) = some (unixMilli unixNano) := by
  refine ⟨?_, ?_, fun value d => dateTimeMs_written, ?_⟩
  · intro value
    rw [Option.isSome_iff_exists]
    constructor
    · rintro ⟨parsed, hparsed⟩
      obtain ⟨d, hwritten, hvalid, -⟩ := parseDateTime_iff.mp hparsed
      exact ⟨d, hwritten, hvalid⟩
    · rintro ⟨d, hwritten, hvalid⟩
      exact ⟨_, parseDateTime_iff.mpr ⟨d, hwritten, hvalid, rfl⟩⟩
  · intro value
    constructor
    · intro h
      cases hparse : parseDateTime value with
      | none =>
        rw [dateTimeMs, hparse] at h
        cases h
      | some parsed =>
        obtain ⟨d, hwritten, hvalid, -⟩ := parseDateTime_iff.mp hparse
        exact ⟨d, hwritten, hvalid⟩
    · rintro ⟨d, hwritten, hvalid⟩
      rw [dateTimeMs_written hwritten hvalid]
      rfl
  · intro unixNano hlo hhi
    obtain ⟨d, hvalid, hwritten, hinstant⟩ := format_written hlo hhi
    have hmillis : 1000 * d.instant = ((unixNano : ℤ) : ℚ) / ((1000000 : ℕ) : ℚ) := by
      rw [hinstant]
      push_cast
      ring
    rw [dateTimeMs_written (by rwa [String.toList_ofList]) hvalid, hmillis,
      Rat.floor_intCast_div_natCast]
    unfold unixMilli
    congr 1
    omega

end Instants

end Pomodorough.Web.SyncCore
