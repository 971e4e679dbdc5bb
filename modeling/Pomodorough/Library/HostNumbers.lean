import Mathlib.Data.List.DropRight
import Pomodorough.Library.JsonText

/-! # Numbers as a browser writes them

A finite number is zero or the shortest decimal that reads as it. How it is written
depends on where its point stands, and what is written gives the decimal back. -/
namespace Pomodorough.Library.HostNumbers
open Pomodorough.Library.JsonText (Str decimal isDigit digitsValue decimal_isDigit
  digitsValue_decimal)

abbrev zeroDigit : Nat := 0x30
abbrev minusSign : Nat := 0x2d
abbrev plusSign : Nat := 0x2b
abbrev point : Nat := 0x2e
abbrev exponentSign : Nat := 0x65

/-- Digits that neither begin nor end with a zero. -/
structure Digits where
  digits : Str
  nonempty : digits ≠ []
  isDigit : ∀ c ∈ digits, isDigit c = true
  first : digits.head? ≠ some zeroDigit
  last : digits.getLast? ≠ some zeroDigit
  deriving DecidableEq

/-- Both zeros are one number, as they are written alike. Any other number is the digits,
with the point after the first `exponent` of them. -/
inductive Number where
  | zero
  | finite (negative : Bool) (digits : Digits) (exponent : Int)
  deriving DecidableEq

/-- The sign and the digits of an exponent. -/
def writeExponent (e : Int) : Str :=
  exponentSign :: (if e < 0 then minusSign else plusSign) :: decimal e.natAbs

/-- `Number::toString` of a positive number. -/
def writePositive (digits : Str) (n : Int) : Str :=
  let k := digits.length
  if k ≤ n ∧ n ≤ 21 then digits ++ List.replicate (n.toNat - k) zeroDigit
  else if 0 < n ∧ n ≤ 21 then digits.take n.toNat ++ point :: digits.drop n.toNat
  else if -6 < n ∧ n ≤ 0 then zeroDigit :: point :: (List.replicate (-n).toNat zeroDigit ++ digits)
  else
    match digits with
    | [] => []
    | [digit] => digit :: writeExponent (n - 1)
    | digit :: rest => digit :: point :: (rest ++ writeExponent (n - 1))

def Number.write : Number → Str
  | .zero => [zeroDigit]
  | .finite negative digits n =>
    if negative then minusSign :: writePositive digits.digits n else writePositive digits.digits n

/-! ## What is written is read -/

/-- The exponent after its sign. -/
def readExponent : Str → Int
  | sign :: digits => if sign = minusSign then -digitsValue digits else digitsValue digits
  | [] => 0

/-- The digits of a positive number and where its point stands. -/
def readPositive (text : Str) : Str × Int :=
  let mantissa := text.takeWhile (· ≠ exponentSign)
  match text.dropWhile (· ≠ exponentSign) with
  | _ :: exponent => (mantissa.filter (· ≠ point), readExponent exponent + 1)
  | [] =>
    let whole := text.takeWhile (· ≠ point)
    match text.dropWhile (· ≠ point) with
    | _ :: fraction =>
      if whole = [zeroDigit] then
        (fraction.dropWhile (· = zeroDigit), -((fraction.takeWhile (· = zeroDigit)).length : Int))
      else (whole ++ fraction, whole.length)
    | [] => (text.rdropWhile (· = zeroDigit), text.length)

theorem plain_of_isDigit {c : Nat} (h : isDigit c = true) :
    c ≠ exponentSign ∧ c ≠ point ∧ c ≠ minusSign ∧ c ≠ plusSign := by
  simp only [JsonText.isDigit, Bool.and_eq_true, decide_eq_true_eq] at h
  simp only [exponentSign, point, minusSign, plusSign]
  omega

theorem takeWhile_plain {c : Nat} {before after : Str} (h : ∀ d ∈ before, d ≠ c) :
    (before ++ c :: after).takeWhile (· ≠ c) = before := by
  rw [List.takeWhile_append_of_pos (by simpa using h)]
  simp

theorem dropWhile_plain {c : Nat} {before after : Str} (h : ∀ d ∈ before, d ≠ c) :
    (before ++ c :: after).dropWhile (· ≠ c) = c :: after := by
  rw [List.dropWhile_append_of_pos (by simpa using h)]
  simp

theorem dropWhile_absent {c : Nat} {s : Str} (h : ∀ d ∈ s, d ≠ c) :
    s.dropWhile (· ≠ c) = [] :=
  List.dropWhile_eq_nil_iff.mpr (by simpa using h)

theorem dropWhile_head {c : Nat} {s : Str} (h : s.head? ≠ some c) : s.dropWhile (· = c) = s := by
  cases s with
  | nil => rfl
  | cons d rest =>
    have hne : d ≠ c := fun heq => h (by rw [heq]; rfl)
    simp [hne]

theorem dropWhile_replicate {c count : Nat} {s : Str} (h : s.head? ≠ some c) :
    (List.replicate count c ++ s).dropWhile (· = c) = s := by
  rw [List.dropWhile_append_of_pos (by simp), dropWhile_head h]

theorem takeWhile_replicate {c count : Nat} {s : Str} (h : s.head? ≠ some c) :
    (List.replicate count c ++ s).takeWhile (· = c) = List.replicate count c := by
  rw [List.takeWhile_append_of_pos (by simp)]
  cases s with
  | nil => simp
  | cons d rest =>
    have hne : d ≠ c := fun heq => h (by rw [heq]; rfl)
    simp [hne]

theorem rdropWhile_replicate {c count : Nat} {s : Str} (h : s.getLast? ≠ some c) :
    (s ++ List.replicate count c).rdropWhile (· = c) = s := by
  rw [List.rdropWhile, List.reverse_append, List.reverse_replicate,
    dropWhile_replicate (by simpa using h), List.reverse_reverse]

theorem readExponent_write (e : Int) :
    readExponent ((if e < 0 then minusSign else plusSign) :: decimal e.natAbs) = e := by
  unfold readExponent
  simp only [digitsValue_decimal]
  by_cases hneg : e < 0
  · rw [if_pos hneg, if_pos rfl]
    omega
  · rw [if_neg hneg, if_neg (by decide)]
    omega

/-- A text with an exponent, whose mantissa is these digits but for a point. -/
theorem readPositive_exponent {mantissa : Str} {e : Int} (h : ∀ c ∈ mantissa, c ≠ exponentSign) :
    readPositive (mantissa ++ writeExponent e) = (mantissa.filter (· ≠ point), e + 1) := by
  unfold readPositive writeExponent
  rw [takeWhile_plain h, dropWhile_plain h]
  simp only [readExponent_write]

/-- A text with a point and no exponent. -/
theorem readPositive_point {whole fraction : Str} (hwhole : ∀ c ∈ whole, isDigit c = true)
    (hfraction : ∀ c ∈ fraction, isDigit c = true) :
    readPositive (whole ++ point :: fraction) =
      if whole = [zeroDigit] then
        (fraction.dropWhile (· = zeroDigit), -((fraction.takeWhile (· = zeroDigit)).length : Int))
      else (whole ++ fraction, (whole.length : Int)) := by
  have hexponent : ∀ c ∈ whole ++ point :: fraction, c ≠ exponentSign := by
    intro c hc
    rcases List.mem_append.mp hc with hc | hc
    · exact (plain_of_isDigit (hwhole c hc)).1
    · rcases List.mem_cons.mp hc with rfl | hc
      · decide
      · exact (plain_of_isDigit (hfraction c hc)).1
  have hpoint : ∀ c ∈ whole, c ≠ point := fun c hc => (plain_of_isDigit (hwhole c hc)).2.1
  unfold readPositive
  rw [dropWhile_absent hexponent, takeWhile_plain hpoint, dropWhile_plain hpoint]

/-- A text of digits alone. -/
theorem readPositive_digits {text : Str} (h : ∀ c ∈ text, isDigit c = true) :
    readPositive text = (text.rdropWhile (· = zeroDigit), (text.length : Int)) := by
  unfold readPositive
  rw [dropWhile_absent fun c hc => (plain_of_isDigit (h c hc)).1,
    dropWhile_absent fun c hc => (plain_of_isDigit (h c hc)).2.1]

theorem Digits.plain (digits : Digits) {c : Nat} (h : c ∈ digits.digits) :
    c ≠ exponentSign ∧ c ≠ point ∧ c ≠ minusSign ∧ c ≠ plusSign :=
  plain_of_isDigit (digits.isDigit c h)

theorem isDigit_zeros {count : Nat} : ∀ c ∈ List.replicate count zeroDigit, isDigit c = true := by
  intro c hc
  rw [List.eq_of_mem_replicate hc]
  rfl

/-- What is written of a positive number is read as its digits and its point. -/
theorem readPositive_write (digits : Digits) (n : Int) :
    readPositive (writePositive digits.digits n) = (digits.digits, n) := by
  have hlength := List.length_pos_iff.mpr digits.nonempty
  unfold writePositive
  simp only
  split
  · rename_i hwhole
    have hdigits : ∀ c ∈ digits.digits ++
        List.replicate (n.toNat - digits.digits.length) zeroDigit, isDigit c = true := by
      intro c hc
      rcases List.mem_append.mp hc with hc | hc
      · exact digits.isDigit c hc
      · exact isDigit_zeros c hc
    rw [readPositive_digits hdigits]
    rw [rdropWhile_replicate digits.last, List.length_append, List.length_replicate]
    simp only [Prod.mk.injEq, true_and]
    omega
  · split
    · rename_i hnot hpoint
      rw [readPositive_point (fun c hc => digits.isDigit c (List.mem_of_mem_take hc))
        (fun c hc => digits.isDigit c (List.mem_of_mem_drop hc)), if_neg, List.take_append_drop]
      · rw [List.length_take]
        simp only [Prod.mk.injEq, true_and]
        omega
      · intro heq
        apply digits.first
        have hhead : (digits.digits.take n.toNat).head? = digits.digits.head? := by
          rw [List.head?_take, if_neg (by omega)]
        rw [← hhead, heq]
        rfl
    · split
      · rename_i hsmall
        have hfraction : ∀ c ∈ List.replicate (-n).toNat zeroDigit ++ digits.digits,
            isDigit c = true := by
          intro c hc
          rcases List.mem_append.mp hc with hc | hc
          · exact isDigit_zeros c hc
          · exact digits.isDigit c hc
        change readPositive ([zeroDigit] ++ point :: _) = _
        rw [readPositive_point (by decide) hfraction, if_pos rfl,
          dropWhile_replicate digits.first, takeWhile_replicate digits.first, List.length_replicate]
        simp only [Prod.mk.injEq, true_and]
        omega
      · have hplain : ∀ c ∈ digits.digits, c ≠ exponentSign ∧ c ≠ point ∧ c ≠ minusSign ∧
            c ≠ plusSign := fun c hc => digits.plain hc
        have hfilter : digits.digits.filter (· ≠ point) = digits.digits :=
          List.filter_eq_self.mpr fun c hc => by simpa using (hplain c hc).2.1
        cases hdigits : digits.digits with
        | nil => exact absurd hdigits digits.nonempty
        | cons digit rest =>
          rw [hdigits] at hplain hfilter
          have hdigit := hplain digit List.mem_cons_self
          cases rest with
          | nil =>
            change readPositive ([digit] ++ writeExponent (n - 1)) = _
            rw [readPositive_exponent (by simpa using hdigit.1), hfilter]
            simp
          | cons second rest =>
            change readPositive ((digit :: point :: second :: rest) ++ writeExponent (n - 1)) = _
            rw [readPositive_exponent]
            · rw [List.filter_cons] at hfilter ⊢
              simp only [hdigit.2.1, ne_eq, not_false_eq_true, decide_true, if_true] at hfilter ⊢
              rw [List.filter_cons, if_neg (by simp), hfilter]
              simp
            · intro c hc
              rcases List.mem_cons.mp hc with rfl | hc
              · exact hdigit.1
              · rcases List.mem_cons.mp hc with rfl | hc
                · decide
                · exact (hplain c (List.mem_cons_of_mem _ hc)).1

/-- A positive number begins with a digit. -/
theorem writePositive_cons (digits : Digits) (n : Int) :
    ∃ c rest, writePositive digits.digits n = c :: rest ∧ isDigit c = true := by
  obtain ⟨digit, later, hdigits⟩ := List.exists_cons_of_ne_nil digits.nonempty
  have hdigit : isDigit digit = true := digits.isDigit digit (by rw [hdigits]; exact List.mem_cons_self)
  rw [hdigits]
  unfold writePositive
  simp only
  split
  · exact ⟨digit, _, rfl, hdigit⟩
  · split
    · rename_i hpoint
      obtain ⟨count, hcount⟩ : ∃ count, n.toNat = count + 1 := ⟨n.toNat - 1, by omega⟩
      rw [hcount, List.take_succ_cons]
      exact ⟨digit, _, rfl, hdigit⟩
    · split
      · exact ⟨zeroDigit, _, rfl, rfl⟩
      · cases later with
        | nil => exact ⟨digit, _, rfl, hdigit⟩
        | cons second rest => exact ⟨digit, _, rfl, hdigit⟩

/-! ## The texts of numbers -/

/-- What the text of a number is made of. -/
def isNumberChar (c : Nat) : Bool :=
  isDigit c || c == point || c == exponentSign || c == minusSign || c == plusSign

theorem isNumberChar_of_isDigit {c : Nat} (h : isDigit c = true) : isNumberChar c = true := by
  simp [isNumberChar, h]

theorem writeExponent_chars (e : Int) : ∀ c ∈ writeExponent e, isNumberChar c = true := by
  intro c hc
  rcases List.mem_cons.mp hc with rfl | hc
  · decide
  · rcases List.mem_cons.mp hc with rfl | hc
    · split <;> decide
    · exact isNumberChar_of_isDigit (decimal_isDigit hc)

theorem writePositive_chars (digits : Digits) (n : Int) :
    ∀ c ∈ writePositive digits.digits n, isNumberChar c = true := by
  have hall : ∀ c ∈ digits.digits, isNumberChar c = true :=
    fun c hc => isNumberChar_of_isDigit (digits.isDigit c hc)
  have hzeros : ∀ count, ∀ c ∈ List.replicate count zeroDigit, isNumberChar c = true :=
    fun _ c hc => isNumberChar_of_isDigit (isDigit_zeros c hc)
  have hpoint : isNumberChar point = true := by decide
  have hzero : isNumberChar zeroDigit = true := by decide
  unfold writePositive
  simp only
  split
  · exact List.forall_mem_append.mpr ⟨hall, hzeros _⟩
  · split
    · exact List.forall_mem_append.mpr ⟨fun c hc => hall c (List.mem_of_mem_take hc),
        List.forall_mem_cons.mpr ⟨hpoint, fun c hc => hall c (List.mem_of_mem_drop hc)⟩⟩
    · split
      · exact List.forall_mem_cons.mpr ⟨hzero, List.forall_mem_cons.mpr ⟨hpoint,
          List.forall_mem_append.mpr ⟨hzeros _, hall⟩⟩⟩
      · cases hdigits : digits.digits with
        | nil => simp
        | cons digit rest =>
          rw [hdigits] at hall
          obtain ⟨hdigit, hrest⟩ := List.forall_mem_cons.mp hall
          have hexponent := writeExponent_chars (n - 1)
          cases rest with
          | nil => exact List.forall_mem_cons.mpr ⟨hdigit, hexponent⟩
          | cons second rest =>
            exact List.forall_mem_cons.mpr ⟨hdigit, List.forall_mem_cons.mpr ⟨hpoint,
              List.forall_mem_append.mpr ⟨hrest, hexponent⟩⟩⟩

theorem Number.write_chars (number : Number) : ∀ c ∈ number.write, isNumberChar c = true := by
  cases number with
  | zero => decide
  | finite negative digits n =>
    have hpositive := writePositive_chars digits n
    cases negative with
    | true => exact List.forall_mem_cons.mpr ⟨by decide, hpositive⟩
    | false => exact hpositive

/-- A number begins with a digit or a minus sign. -/
theorem Number.write_cons (number : Number) :
    ∃ c rest, number.write = c :: rest ∧ (isDigit c = true ∨ c = minusSign) := by
  cases number with
  | zero => exact ⟨zeroDigit, [], rfl, .inl rfl⟩
  | finite negative digits n =>
    obtain ⟨c, rest, heq, hdigit⟩ := writePositive_cons digits n
    cases negative with
    | true => exact ⟨minusSign, _, rfl, .inr rfl⟩
    | false => exact ⟨c, rest, by simp [Number.write, heq], .inl hdigit⟩

theorem writePositive_inj {digits digits' : Digits} {n n' : Int}
    (h : writePositive digits.digits n = writePositive digits'.digits n') :
    digits = digits' ∧ n = n' := by
  have hread := readPositive_write digits n
  rw [h, readPositive_write digits' n', Prod.mk.injEq] at hread
  obtain ⟨hdigits, hn⟩ := hread
  cases digits
  cases digits'
  cases hdigits
  exact ⟨rfl, hn.symm⟩

/-- A text that begins with a minus sign is no positive number's. -/
theorem minus_ne_positive {digits : Digits} {n : Int} {rest : Str} :
    minusSign :: rest ≠ writePositive digits.digits n := by
  intro h
  obtain ⟨c, later, heq, hdigit⟩ := writePositive_cons digits n
  rw [heq] at h
  exact absurd (List.cons.inj h).1.symm (plain_of_isDigit hdigit).2.2.1

/-- Different numbers are written differently. -/
theorem Number.write_injective {number number' : Number} (h : number.write = number'.write) :
    number = number' := by
  have hzero : ∀ (negative : Bool) (digits : Digits) (n : Int),
      [zeroDigit] ≠ (Number.finite negative digits n).write := by
    intro negative digits n heq
    cases negative with
    | true => exact absurd (List.cons.inj heq).1 (by decide)
    | false =>
      have hread := readPositive_write digits n
      rw [← show [zeroDigit] = writePositive digits.digits n from heq] at hread
      have hdigits : ([] : Str) = digits.digits := congrArg Prod.fst hread
      exact digits.nonempty hdigits.symm
  cases number with
  | zero =>
    cases number' with
    | zero => rfl
    | finite negative digits n => exact absurd h (hzero negative digits n)
  | finite negative digits n =>
    cases number' with
    | zero => exact absurd h.symm (hzero negative digits n)
    | finite negative' digits' n' =>
      cases negative <;> cases negative'
      · obtain ⟨rfl, rfl⟩ := writePositive_inj h
        rfl
      · exact absurd h.symm minus_ne_positive
      · exact absurd h minus_ne_positive
      · obtain ⟨rfl, rfl⟩ := writePositive_inj (List.cons.inj h).2
        rfl

end Pomodorough.Library.HostNumbers
