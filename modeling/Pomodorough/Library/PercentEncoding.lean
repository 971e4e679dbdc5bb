import Mathlib.Data.List.Basic

/-! # Percent-encoding

Bytes that are not to stand in a part of a URL are written as a percent sign and two
hexadecimal digits. Which bytes stand as they are is up to the part. -/
namespace Pomodorough.Library.PercentEncoding

abbrev Bytes := List UInt8

abbrev percent : UInt8 := 37

abbrev plusSign : UInt8 := 43

def isHex (b : UInt8) : Bool :=
  (48 ≤ b && b ≤ 57) || (97 ≤ b && b ≤ 102) || (65 ≤ b && b ≤ 70)

def hexValue (b : UInt8) : Nat :=
  if b ≤ 57 then b.toNat - 48 else if b ≤ 70 then b.toNat - 55 else b.toNat - 87

def upperHex (n : Nat) : UInt8 := if n < 10 then UInt8.ofNat (48 + n) else UInt8.ofNat (55 + n)

def isAlphanumeric (b : UInt8) : Bool :=
  (48 ≤ b && b ≤ 57) || (65 ≤ b && b ≤ 90) || (97 ≤ b && b ≤ 122)

/-- A byte in its escape. -/
def escapeByte (b : UInt8) : Bytes := [percent, upperHex (b.toNat / 16), upperHex (b.toNat % 16)]

/-- The text with every byte escaped that is not to be kept. -/
def escape (keep : UInt8 → Bool) (text : Bytes) : Bytes :=
  text.flatMap fun b => if keep b then [b] else escapeByte b

/-- The text with every escape decoded, where each has its two digits. A plus sign
stands for `plus`. -/
def unescape (plus : UInt8) : Bytes → Option Bytes
  | [] => some []
  | [b] => if b = percent then none else some [if b = plusSign then plus else b]
  | [b, c] =>
    if b = percent then none
    else (unescape plus [c]).map ((if b = plusSign then plus else b) :: ·)
  | b :: high :: low :: rest =>
    if b = percent then
      if isHex high && isHex low then
        (unescape plus rest).map (UInt8.ofNat (hexValue high * 16 + hexValue low) :: ·)
      else none
    else (unescape plus (high :: low :: rest)).map ((if b = plusSign then plus else b) :: ·)

section
variable {keep : UInt8 → Bool} {plus b : UInt8} {text rest : Bytes}

theorem isHex_upperHex : ∀ n < 16, isHex (upperHex n) = true := by decide

theorem hexValue_upperHex : ∀ n < 16, hexValue (upperHex n) = n := by decide

theorem hexValue_lt (h : isHex b = true) : hexValue b < 16 := by
  have hall : ∀ n < 256, isHex (UInt8.ofNat n) = true → hexValue (UInt8.ofNat n) < 16 := by
    decide +kernel
  rw [← @UInt8.ofNat_toNat b] at h ⊢
  exact hall _ b.toNat_lt h

theorem unescape_cons (h : b ≠ percent) : unescape plus (b :: rest) =
    (unescape plus rest).map ((if b = plusSign then plus else b) :: ·) := by
  match rest with
  | [] => simp [unescape, h]
  | [c] => simp [unescape, h]
  | high :: low :: rest => simp [unescape, h]

theorem unescape_escapeByte :
    unescape plus (escapeByte b ++ rest) = (unescape plus rest).map (b :: ·) := by
  have hb := b.toNat_lt
  have hhigh : b.toNat / 16 < 16 := by omega
  have hlow : b.toNat % 16 < 16 := by omega
  have hvalue : UInt8.ofNat (b.toNat / 16 * 16 + b.toNat % 16) = b := by
    rw [Nat.div_add_mod', UInt8.ofNat_toNat]
  simp [escapeByte, unescape, isHex_upperHex _ hhigh, isHex_upperHex _ hlow,
    hexValue_upperHex _ hhigh, hexValue_upperHex _ hlow, hvalue]

/-- What was escaped is decoded, where no byte that is kept has another meaning. -/
theorem unescape_escape (h : ∀ b, keep b = true → b ≠ percent ∧ (b = plusSign → plus = plusSign)) :
    unescape plus (escape keep text) = some text := by
  induction text with
  | nil => rfl
  | cons b text ih =>
    unfold escape at ih ⊢
    rw [List.flatMap_cons]
    split
    next hkeep =>
      obtain ⟨hpercent, hplus⟩ := h b hkeep
      have hb : (if b = plusSign then plus else b) = b := by
        split
        next heq => rw [hplus heq, heq]
        next => rfl
      rw [List.singleton_append, unescape_cons hpercent, ih, Option.map_some, hb]
    next => rw [unescape_escapeByte, ih, Option.map_some]

/-- The bytes of an escaped text. -/
theorem mem_escape {P : UInt8 → Prop} (hkeep : ∀ b ∈ text, keep b = true → P b)
    (hpercent : P percent) (hhex : ∀ n < 16, P (upperHex n)) : ∀ b ∈ escape keep text, P b := by
  intro b hb
  obtain ⟨a, hmem, hb⟩ := List.mem_flatMap.mp hb
  split at hb
  next ha =>
    rw [List.mem_singleton.mp hb]
    exact hkeep a hmem ha
  next =>
    have ha := a.toNat_lt
    simp only [escapeByte, List.mem_cons, List.not_mem_nil, or_false] at hb
    obtain rfl | rfl | rfl := hb
    · exact hpercent
    · exact hhex _ (by omega)
    · exact hhex _ (by omega)

theorem escape_of_keep (h : ∀ b ∈ text, keep b = true) : escape keep text = text := by
  induction text with
  | nil => rfl
  | cons b text ih =>
    obtain ⟨hb, htext⟩ := List.forall_mem_cons.mp h
    have hrest := ih htext
    unfold escape at hrest ⊢
    rw [List.flatMap_cons, if_pos hb, hrest, List.singleton_append]

theorem escape_cons : escape keep (b :: text) =
    (if keep b then [b] else escapeByte b) ++ escape keep text := by
  simp [escape]

/-- A second escape of what a first one kept. -/
theorem escape_escape {keep' : UInt8 → Bool} (hpercent : keep percent = true)
    (hhex : ∀ n < 16, keep (upperHex n) = true) :
    escape keep (escape keep' text) = escape (fun b => keep b && keep' b) text := by
  have hescaped : ∀ a : UInt8, escape keep (escapeByte a) = escapeByte a := by
    intro a
    have ha := a.toNat_lt
    apply escape_of_keep
    intro b hb
    simp only [escapeByte, List.mem_cons, List.not_mem_nil, or_false] at hb
    obtain rfl | rfl | rfl := hb
    · exact hpercent
    · exact hhex _ (by omega)
    · exact hhex _ (by omega)
  induction text with
  | nil => rfl
  | cons b text ih =>
    have happend : ∀ s t : Bytes, escape keep (s ++ t) = escape keep s ++ escape keep t :=
      fun s t => List.flatMap_append
    rw [escape_cons, escape_cons, happend, ih]
    congr 1
    by_cases hb : keep' b = true
    · simp [hb, escape]
    · simp [hb, hescaped]

/-- The first byte of a decoded text stands first, or is escaped first. -/
theorem unescape_head (h : unescape plus text = some (b :: rest)) (hb : b ≠ plus) :
    (∃ tail, text = b :: tail ∧ unescape plus tail = some rest) ∨
      ∃ high low tail, text = percent :: high :: low :: tail ∧ isHex high = true ∧
        isHex low = true ∧ UInt8.ofNat (hexValue high * 16 + hexValue low) = b ∧
          unescape plus tail = some rest := by
  cases text with
  | nil => cases h
  | cons c text =>
    by_cases hc : c = percent
    · right
      match text with
      | [] => simp [unescape, hc] at h
      | [d] => simp [unescape, hc] at h
      | high :: low :: tail =>
        rw [unescape, if_pos hc] at h
        split at h
        next hhex =>
          obtain ⟨decoded, hdecoded, heq⟩ := Option.map_eq_some_iff.mp h
          obtain ⟨hbyte, rfl⟩ := List.cons.inj heq
          rw [Bool.and_eq_true] at hhex
          exact ⟨high, low, tail, by rw [hc], hhex.1, hhex.2, hbyte, hdecoded⟩
        next => cases h
    · left
      rw [unescape_cons hc] at h
      obtain ⟨decoded, hdecoded, heq⟩ := Option.map_eq_some_iff.mp h
      obtain ⟨hbyte, rfl⟩ := List.cons.inj heq
      split at hbyte
      next => exact absurd hbyte.symm hb
      next => exact ⟨text, by rw [hbyte], hdecoded⟩

end

end Pomodorough.Library.PercentEncoding
