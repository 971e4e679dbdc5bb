import Mathlib.Data.List.Basic

/-! # Base64 for URLs, without padding

Three bytes are four digits of six bits. A decoder passes over line breaks, and over
the bits of the last digit that belong to no byte. -/
namespace Pomodorough.Library.Base64

abbrev Bytes := List UInt8

/-! ## Digits -/

/-- The character of a digit. -/
def digit (n : Nat) : UInt8 :=
  if n < 26 then UInt8.ofNat (65 + n)
  else if n < 52 then UInt8.ofNat (71 + n)
  else if n < 62 then UInt8.ofNat (n - 4)
  else if n = 62 then 45
  else 95

def digitValue (b : UInt8) : Option Nat :=
  if 65 ≤ b.toNat ∧ b.toNat ≤ 90 then some (b.toNat - 65)
  else if 97 ≤ b.toNat ∧ b.toNat ≤ 122 then some (b.toNat - 71)
  else if 48 ≤ b.toNat ∧ b.toNat ≤ 57 then some (b.toNat + 4)
  else if b = 45 then some 62
  else if b = 95 then some 63
  else none

def isLineBreak (b : UInt8) : Bool := b = 10 || b = 13

theorem digitValue_digit : ∀ n < 64, digitValue (digit n) = some n := by decide

theorem digit_printable : ∀ n < 64, 33 ≤ (digit n).toNat ∧ (digit n).toNat < 127 ∧ digit n ≠ 34 ∧
    digit n ≠ 92 ∧ digit n ≠ 38 ∧ digit n ≠ 60 ∧ digit n ≠ 62 := by decide

/-! ## Encoding and decoding -/

/-- The digits of the bytes. -/
def split : Bytes → List Nat
  | [] => []
  | [a] => [a.toNat / 4, a.toNat % 4 * 16]
  | [a, b] => [a.toNat / 4, a.toNat % 4 * 16 + b.toNat / 16, b.toNat % 16 * 4]
  | a :: b :: c :: rest =>
    a.toNat / 4 :: (a.toNat % 4 * 16 + b.toNat / 16) :: (b.toNat % 16 * 4 + c.toNat / 64) ::
      c.toNat % 64 :: split rest

/-- The bytes of the digits, where no digit stands alone. -/
def join : List Nat → Option Bytes
  | [] => some []
  | [_] => none
  | [w, x] => some [UInt8.ofNat (w * 4 + x / 16)]
  | [w, x, y] => some [UInt8.ofNat (w * 4 + x / 16), UInt8.ofNat (x % 16 * 16 + y / 4)]
  | w :: x :: y :: z :: rest =>
    (join rest).map fun bytes =>
      UInt8.ofNat (w * 4 + x / 16) :: UInt8.ofNat (x % 16 * 16 + y / 4) ::
        UInt8.ofNat (y % 4 * 64 + z) :: bytes

/-- `RawURLEncoding.EncodeToString`. -/
def encodeToString (bytes : Bytes) : Bytes := (split bytes).map digit

/-- `RawURLEncoding.DecodeString`. -/
def decodeString (text : Bytes) : Option Bytes :=
  ((text.filter fun b => !isLineBreak b).mapM digitValue).bind join

theorem split_lt (bytes : Bytes) : ∀ n ∈ split bytes, n < 64 := by
  induction bytes using split.induct with
  | case1 => simp [split]
  | case2 a =>
    have ha := a.toNat_lt
    simp only [split, List.mem_cons, List.not_mem_nil, or_false, forall_eq_or_imp, forall_eq]
    omega
  | case3 a b =>
    have ha := a.toNat_lt
    have hb := b.toNat_lt
    simp only [split, List.mem_cons, List.not_mem_nil, or_false, forall_eq_or_imp, forall_eq]
    omega
  | case4 a b c rest ih =>
    have ha := a.toNat_lt
    have hb := b.toNat_lt
    have hc := c.toNat_lt
    simp only [split, List.forall_mem_cons]
    exact ⟨by omega, by omega, by omega, by omega, ih⟩

theorem ofNat_eq {b : UInt8} {n : Nat} (h : n = b.toNat) : UInt8.ofNat n = b := by
  rw [h, UInt8.ofNat_toNat]

theorem join_split (bytes : Bytes) : join (split bytes) = some bytes := by
  induction bytes using split.induct with
  | case1 => rfl
  | case2 a =>
    simp only [split, join]
    rw [ofNat_eq (b := a) (by omega)]
  | case3 a b =>
    have hb := b.toNat_lt
    simp only [split, join]
    rw [ofNat_eq (b := a) (by omega), ofNat_eq (b := b) (by omega)]
  | case4 a b c rest ih =>
    have hb := b.toNat_lt
    have hc := c.toNat_lt
    simp only [split, join, ih, Option.map_some]
    rw [ofNat_eq (b := a) (by omega), ofNat_eq (b := b) (by omega), ofNat_eq (b := c) (by omega)]

theorem mapM_digitValue {ns : List Nat} (h : ∀ n ∈ ns, n < 64) :
    (ns.map digit).mapM digitValue = some ns := by
  induction ns with
  | nil => rfl
  | cons n ns ih =>
    obtain ⟨hn, hns⟩ := List.forall_mem_cons.mp h
    simp [List.mapM_cons, digitValue_digit n hn, ih hns]

/-- The characters of an encoding are printable, and none has a meaning in JSON. -/
theorem encode_printable {bytes : Bytes} : ∀ b ∈ encodeToString bytes, 33 ≤ b.toNat ∧ b.toNat < 127 ∧
    b ≠ 34 ∧ b ≠ 92 ∧ b ≠ 38 ∧ b ≠ 60 ∧ b ≠ 62 := by
  intro b hb
  obtain ⟨n, hn, rfl⟩ := List.mem_map.mp hb
  exact digit_printable n (split_lt bytes n hn)

/-- What was encoded is decoded. -/
theorem decode_encode (bytes : Bytes) : decodeString (encodeToString bytes) = some bytes := by
  have hkept : (encodeToString bytes).filter (fun b => !isLineBreak b) = encodeToString bytes := by
    rw [List.filter_eq_self]
    intro b hb
    have hlow := (encode_printable b hb).1
    have h10 : b ≠ 10 := by
      rintro rfl
      exact absurd hlow (by decide)
    have h13 : b ≠ 13 := by
      rintro rfl
      exact absurd hlow (by decide)
    simp [isLineBreak, h10, h13]
  unfold decodeString
  rw [hkept, encodeToString, mapM_digitValue (split_lt bytes), Option.bind_some, join_split]

end Pomodorough.Library.Base64
