import Mathlib.Data.List.Basic

/-! # UTF-8 in lists of bytes

A list of bytes as the characters that it encodes, where a byte that starts no
character stands alone. -/
namespace Pomodorough.Library.Utf8

abbrev Bytes := List UInt8

/-- The first character, and the bytes after it. -/
def decodeRune (bytes : Bytes) : Option (Char × Bytes) :=
  (bytes.toByteArray.utf8DecodeChar? 0).map fun c => (c, bytes.drop c.utf8Size)

def encode (cs : List Char) : Bytes := cs.flatMap String.utf8EncodeChar

/-- The characters, with `none` for a byte that starts none. -/
def runesFrom : Nat → Bytes → List (Option Char)
  | 0, _ => []
  | _ + 1, [] => []
  | fuel + 1, b :: bytes =>
    match decodeRune (b :: bytes) with
    | some (c, rest) => some c :: runesFrom fuel rest
    | none => none :: runesFrom fuel bytes

def runes (bytes : Bytes) : List (Option Char) := runesFrom bytes.length bytes

/-- Every byte belongs to a character. -/
def valid (bytes : Bytes) : Bool := (runes bytes).all Option.isSome

/-- The characters, with the replacement character for bytes that start none. -/
def replaced (runes : List (Option Char)) : List Char := runes.map fun rune => rune.getD '\ufffd'

variable {c : Char} {cs : List Char} {bytes rest : Bytes}

@[simp] theorem encode_nil : encode [] = [] := rfl

@[simp] theorem encode_cons : encode (c :: cs) = String.utf8EncodeChar c ++ encode cs := rfl

theorem encode_append {ds : List Char} : encode (cs ++ ds) = encode cs ++ encode ds := by
  simp [encode]

/-- A byte below 128 is the character itself. -/
theorem encodeChar_head : ∃ b bytes, String.utf8EncodeChar c = b :: bytes ∧
    ∀ n < 128, b.toNat = n → c.toNat = n := by
  have hc : c.toNat = c.val.toNat := rfl
  unfold String.utf8EncodeChar
  simp only
  split
  · refine ⟨_, _, rfl, fun n hn hb => ?_⟩
    rw [UInt8.toNat_ofNat'] at hb
    omega
  · split
    · refine ⟨_, _, rfl, fun n hn hb => ?_⟩
      rw [UInt8.toNat_ofNat'] at hb
      omega
    · split
      · refine ⟨_, _, rfl, fun n hn hb => ?_⟩
        rw [UInt8.toNat_ofNat'] at hb
        omega
      · refine ⟨_, _, rfl, fun n hn hb => ?_⟩
        rw [UInt8.toNat_ofNat'] at hb
        omega

theorem decodeRune_encode : decodeRune (String.utf8EncodeChar c ++ rest) = some (c, rest) := by
  unfold decodeRune
  rw [List.toByteArray_append, ByteArray.utf8DecodeChar?_utf8EncodeChar_append, Option.map_some,
    List.drop_left' (String.length_utf8EncodeChar c)]

theorem decodeRune_some (h : decodeRune bytes = some (c, rest)) :
    bytes = String.utf8EncodeChar c ++ rest := by
  unfold decodeRune at h
  rw [Option.map_eq_some_iff] at h
  obtain ⟨d, hd, heq⟩ := h
  cases heq
  obtain ⟨tail, htail⟩ := ByteArray.exists_of_utf8DecodeChar?_eq_some hd
  have htail' : bytes = String.utf8EncodeChar c ++ tail.data.toList := by
    apply List.toByteArray_inj.mp
    rw [htail, List.toByteArray_append]
    congr 1
    apply ByteArray.ext
    rw [List.data_toByteArray, Array.toArray_toList]
  rw [htail', List.drop_left' (String.length_utf8EncodeChar c)]

theorem decodeRune_length (h : decodeRune bytes = some (c, rest)) : rest.length < bytes.length := by
  rw [decodeRune_some h, List.length_append, String.length_utf8EncodeChar]
  have hpos := c.utf8Size_pos
  omega

theorem runesFrom_fuel {fuel fuel' : Nat} (h : bytes.length ≤ fuel) (h' : bytes.length ≤ fuel') :
    runesFrom fuel bytes = runesFrom fuel' bytes := by
  induction fuel generalizing fuel' bytes with
  | zero =>
    obtain rfl := List.length_eq_zero_iff.mp (Nat.le_zero.mp h)
    cases fuel' <;> rfl
  | succ fuel ih =>
    cases bytes with
    | nil => cases fuel' <;> rfl
    | cons b bytes =>
      cases fuel' with
      | zero => simp at h'
      | succ fuel' =>
        rw [List.length_cons] at h h'
        simp only [runesFrom]
        cases hfirst : decodeRune (b :: bytes) with
        | none =>
          simp only
          exact congrArg _ (ih (by omega) (by omega))
        | some decoded =>
          obtain ⟨c, rest⟩ := decoded
          have hlength := decodeRune_length hfirst
          rw [List.length_cons] at hlength
          simp only
          exact congrArg _ (ih (by omega) (by omega))

@[simp] theorem runes_nil : runes [] = [] := rfl

theorem runes_of_some (h : decodeRune bytes = some (c, rest)) : runes bytes = some c :: runes rest := by
  have hlength := decodeRune_length h
  cases bytes with
  | nil => simp at hlength
  | cons b bytes =>
    rw [List.length_cons] at hlength
    unfold runes
    rw [List.length_cons, runesFrom, h]
    exact congrArg _ (runesFrom_fuel (by omega) (Nat.le_refl _))

theorem runes_of_none {b : UInt8} (h : decodeRune (b :: bytes) = none) :
    runes (b :: bytes) = none :: runes bytes := by
  unfold runes
  rw [List.length_cons, runesFrom, h]

theorem runes_encode_append : runes (encode cs ++ rest) = cs.map some ++ runes rest := by
  induction cs with
  | nil => rfl
  | cons c cs ih =>
    rw [encode_cons, List.append_assoc, runes_of_some decodeRune_encode, ih]
    rfl

theorem runes_encode : runes (encode cs) = cs.map some := by
  have h := @runes_encode_append cs []
  simpa using h

theorem valid_encode : valid (encode cs) = true := by
  unfold valid
  rw [runes_encode]
  simp

/-- A byte at the front decides how the bytes are read. -/
theorem runes_induction {P : Bytes → Prop} (nil : P [])
    (char : ∀ c rest, P rest → P (String.utf8EncodeChar c ++ rest))
    (byte : ∀ b rest, decodeRune (b :: rest) = none → P rest → P (b :: rest)) (bytes : Bytes) :
    P bytes := by
  induction h : bytes.length using Nat.strongRecOn generalizing bytes with
  | _ n ih =>
    cases bytes with
    | nil => exact nil
    | cons b bytes =>
      cases hfirst : decodeRune (b :: bytes) with
      | none =>
        refine byte b bytes hfirst (ih bytes.length ?_ bytes rfl)
        rw [← h, List.length_cons]
        omega
      | some decoded =>
        obtain ⟨c, rest⟩ := decoded
        have hlength := decodeRune_length hfirst
        rw [decodeRune_some hfirst]
        exact char c rest (ih rest.length (h ▸ hlength) rest rfl)

/-- Valid bytes are written again from their characters. -/
theorem encode_replaced (h : valid bytes = true) : encode (replaced (runes bytes)) = bytes := by
  induction bytes using runes_induction with
  | nil => rfl
  | char c rest ih =>
    have hrunes : runes (String.utf8EncodeChar c ++ rest) = some c :: runes rest :=
      runes_of_some decodeRune_encode
    unfold valid at h ih
    rw [hrunes, List.all_cons, Bool.and_eq_true] at h
    rw [hrunes]
    show encode (c :: replaced (runes rest)) = _
    rw [encode_cons, ih h.2]
  | byte b rest hnone =>
    unfold valid at h
    rw [runes_of_none hnone] at h
    simp at h

theorem valid_of_ascii (h : ∀ b ∈ bytes, b.toNat < 128) : valid bytes = true := by
  have hbyte : ∀ n < 128, String.utf8EncodeChar (Char.ofNat n) = [UInt8.ofNat n] := by decide
  have hbytes : encode (bytes.map fun b => Char.ofNat b.toNat) = bytes := by
    induction bytes with
    | nil => rfl
    | cons b bytes ih =>
      obtain ⟨hb, hrest⟩ := List.forall_mem_cons.mp h
      rw [List.map_cons, encode_cons, ih hrest, hbyte _ hb, UInt8.ofNat_toNat]
      rfl
  rw [← hbytes]
  exact valid_encode

theorem valid_iff : valid bytes = true ↔ encode (replaced (runes bytes)) = bytes := by
  constructor
  · exact encode_replaced
  · intro h
    rw [← h]
    exact valid_encode

end Pomodorough.Library.Utf8
