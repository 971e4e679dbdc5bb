import Pomodorough.Library.JsonText

/-! # The bytes of a JSON text

A JSON file is read in the Unicode encoding its first bytes give away, with
surrogates let through. ASCII is read as itself. -/
namespace Pomodorough.Library.TextBytes
open Pomodorough.Library.JsonText

/-- ASCII text in bytes. -/
def encode (s : Str) : Bytes := s.map UInt8.ofNat

/-- The six bits of a continuation byte. -/
def continuation (b : UInt8) : Option Nat :=
  if 0x80 ≤ b.toNat ∧ b.toNat ≤ 0xbf then some (b.toNat - 0x80) else none

def decodeUtf8 : Bytes → Option Str
  | [] => some []
  | a :: rest =>
    if a.toNat < 0x80 then (decodeUtf8 rest).map (a.toNat :: ·)
    else if 0xc2 ≤ a.toNat ∧ a.toNat ≤ 0xdf then
      match rest with
      | b :: rest => do
        let low ← continuation b
        let s ← decodeUtf8 rest
        some (((a.toNat - 0xc0) * 0x40 + low) :: s)
      | _ => none
    else if 0xe0 ≤ a.toNat ∧ a.toNat ≤ 0xef then
      match rest with
      | b :: c :: rest => do
        let middle ← continuation b
        let low ← continuation c
        let s ← decodeUtf8 rest
        let n := (a.toNat - 0xe0) * 0x1000 + middle * 0x40 + low
        if 0x800 ≤ n then some (n :: s) else none
      | _ => none
    else if 0xf0 ≤ a.toNat ∧ a.toNat ≤ 0xf4 then
      match rest with
      | b :: c :: d :: rest => do
        let high ← continuation b
        let middle ← continuation c
        let low ← continuation d
        let s ← decodeUtf8 rest
        let n := (a.toNat - 0xf0) * 0x40000 + high * 0x1000 + middle * 0x40 + low
        if 0x10000 ≤ n ∧ n ≤ 0x10ffff then some (n :: s) else none
      | _ => none
    else none

def units16 (big : Bool) : Bytes → Option (List Nat)
  | [] => some []
  | [_] => none
  | a :: b :: rest =>
    (units16 big rest).map
      ((if big then a.toNat * 0x100 + b.toNat else b.toNat * 0x100 + a.toNat) :: ·)

/-- Surrogates that stand alone are let through. -/
def decodeUtf16 (big : Bool) (bytes : Bytes) : Option Str :=
  (units16 big bytes).map fun units => joinSurrogates (units.map .escaped)

def decodeUtf32 (big : Bool) : Bytes → Option Str
  | [] => some []
  | a :: b :: c :: d :: rest => do
    let n := if big then
        ((a.toNat * 0x100 + b.toNat) * 0x100 + c.toNat) * 0x100 + d.toNat
      else ((d.toNat * 0x100 + c.toNat) * 0x100 + b.toNat) * 0x100 + a.toNat
    let s ← decodeUtf32 big rest
    if n ≤ 0x10ffff then some (n :: s) else none
  | _ => none

inductive Encoding where
  | utf8
  | utf16 (big : Bool)
  | utf32 (big : Bool)
  deriving DecidableEq

/-- The encoding, and the length of its byte order mark. -/
def detectEncoding (bytes : Bytes) : Encoding × Nat :=
  if [0x00, 0x00, 0xfe, 0xff].isPrefixOf bytes then (.utf32 true, 4)
  else if [0xff, 0xfe, 0x00, 0x00].isPrefixOf bytes then (.utf32 false, 4)
  else if [0xfe, 0xff].isPrefixOf bytes then (.utf16 true, 2)
  else if [0xff, 0xfe].isPrefixOf bytes then (.utf16 false, 2)
  else if [0xef, 0xbb, 0xbf].isPrefixOf bytes then (.utf8, 3)
  else
    match bytes with
    | a :: b :: c :: d :: _ =>
      if a = 0 then (if b = 0 then (.utf32 true, 0) else (.utf16 true, 0))
      else if b = 0 then (if c = 0 ∧ d = 0 then (.utf32 false, 0) else (.utf16 false, 0))
      else (.utf8, 0)
    | [a, b] =>
      if a = 0 then (.utf16 true, 0) else if b = 0 then (.utf16 false, 0) else (.utf8, 0)
    | _ => (.utf8, 0)

def decode (bytes : Bytes) : Option Str :=
  let (encoding, mark) := detectEncoding bytes
  match encoding with
  | .utf8 => decodeUtf8 (bytes.drop mark)
  | .utf16 big => decodeUtf16 big (bytes.drop mark)
  | .utf32 big => decodeUtf32 big (bytes.drop mark)

/-! ## ASCII -/

def Ascii (s : Str) : Prop := ∀ c ∈ s, 0 < c ∧ c < 0x80

theorem toNat_ofNat {c : Nat} (h : c < 0x80) : (UInt8.ofNat c).toNat = c := by
  rw [UInt8.toNat_ofNat']
  exact Nat.mod_eq_of_lt (by omega)

theorem decodeUtf8_encode {s : Str} (h : Ascii s) : decodeUtf8 (encode s) = some s := by
  induction s with
  | nil => rfl
  | cons c s ih =>
    obtain ⟨-, hc⟩ := h c List.mem_cons_self
    have htail : decodeUtf8 (encode s) = some s := ih fun d hd => h d (List.mem_cons_of_mem _ hd)
    simp only [encode, List.map_cons]
    rw [decodeUtf8.eq_def]
    simp only [toNat_ofNat hc, if_pos hc]
    rw [show List.map UInt8.ofNat s = encode s from rfl, htail, Option.map_some]

theorem ofNat_ne_zero {c : Nat} (h : 0 < c ∧ c < 0x80) : UInt8.ofNat c ≠ 0 := by
  intro heq
  have := congrArg UInt8.toNat heq
  rw [toNat_ofNat h.2] at this
  exact absurd this (by simpa using h.1.ne')

/-- A byte order mark starts outside ASCII. -/
theorem not_mark {c : Nat} {mark : UInt8} {marks bytes : Bytes} (h : 0 < c ∧ c < 0x80)
    (hmark : mark = 0 ∨ 0x80 ≤ mark.toNat) :
    (mark :: marks).isPrefixOf (UInt8.ofNat c :: bytes) = false := by
  have hne : (mark == UInt8.ofNat c) = false := by
    rw [beq_eq_false_iff_ne]
    rintro rfl
    obtain hzero | hlarge := hmark
    · exact ofNat_ne_zero h hzero
    · rw [toNat_ofNat h.2] at hlarge
      omega
  simp [List.isPrefixOf, hne]

theorem detectEncoding_encode {s : Str} (h : Ascii s) : detectEncoding (encode s) = (.utf8, 0) := by
  cases s with
  | nil => rfl
  | cons c s =>
    have hc := h c List.mem_cons_self
    have hne := ofNat_ne_zero hc
    simp only [encode, List.map_cons, detectEncoding]
    rw [not_mark hc (.inl rfl), not_mark hc (.inr (by decide)), not_mark hc (.inr (by decide)),
      not_mark hc (.inr (by decide)), not_mark hc (.inr (by decide))]
    simp only [Bool.false_eq_true, if_false]
    cases s with
    | nil => rfl
    | cons d s =>
      have hd := ofNat_ne_zero (h d (by simp))
      cases s with
      | nil => simp [hne, hd]
      | cons e s =>
        cases s with
        | nil => rfl
        | cons f s => simp [hne, hd]

theorem decode_encode {s : Str} (h : Ascii s) : decode (encode s) = some s := by
  unfold decode
  rw [detectEncoding_encode h]
  exact decodeUtf8_encode h

theorem encode_injective {s t : Str} (hs : Ascii s) (ht : Ascii t) (h : encode s = encode t) :
    s = t := by
  have hdecoded := decode_encode hs
  rw [h, decode_encode ht] at hdecoded
  cases hdecoded
  rfl

/-! ## What is written is ASCII -/

theorem Ascii.append {s t : Str} (hs : Ascii s) (ht : Ascii t) : Ascii (s ++ t) := by
  intro c hc
  obtain hc | hc := List.mem_append.mp hc
  · exact hs c hc
  · exact ht c hc

theorem Ascii.cons {c : Nat} {s : Str} (hc : 0 < c ∧ c < 0x80) (hs : Ascii s) : Ascii (c :: s) := by
  intro d hd
  obtain rfl | hd := List.mem_cons.mp hd
  · exact hc
  · exact hs d hd

theorem ascii_nil : Ascii [] := by
  intro c hc
  cases hc

theorem hexDigit_ascii : ∀ n < 16, 0 < hexDigit n ∧ hexDigit n < 0x80 := by decide

theorem ascii_unicodeEscape (n : Nat) : Ascii (unicodeEscape n) := by
  have hdigit := fun k => hexDigit_ascii (k % 16) (Nat.mod_lt k (by decide))
  exact .cons (by decide) (.cons (by decide) (.cons (hdigit _) (.cons (hdigit _)
    (.cons (hdigit _) (.cons (hdigit _) ascii_nil)))))

theorem ascii_escape (c : Nat) : Ascii (escape c) := by
  unfold escape
  cases h : shortEscapes.lookup c with
  | some letter =>
    have hall : ∀ entry ∈ shortEscapes, 0 < entry.2 ∧ entry.2 < 0x80 := by decide
    obtain ⟨before, after, heq, -⟩ := List.lookup_eq_some_iff.mp h
    exact .cons (by decide) (.cons (hall (c, letter) (by rw [heq]; simp)) ascii_nil)
  | none =>
    simp only
    split
    · exact .cons (by omega) ascii_nil
    · split
      · exact ascii_unicodeEscape c
      · exact (ascii_unicodeEscape _).append (ascii_unicodeEscape _)

theorem ascii_printString (s : Str) : Ascii (printString s) := by
  refine .cons (by decide) (.append ?_ (.cons (by decide) ascii_nil))
  intro c hc
  obtain ⟨d, -, hc⟩ := List.mem_flatMap.mp hc
  exact ascii_escape d c hc

theorem ascii_decimal (n : Nat) : Ascii (decimal n) := by
  intro c hc
  have hdigit := decimal_isDigit hc
  simp only [isDigit, Bool.and_eq_true, decide_eq_true_eq] at hdigit
  omega

theorem ascii_printInt (n : Int) : Ascii (printInt n) := by
  cases n with
  | ofNat n => exact ascii_decimal n
  | negSucc n => exact .cons (by decide) (ascii_decimal (n + 1))

theorem ascii_word {s : Str} (h : s.all fun c => 0 < c && c < 0x80) : Ascii s := by
  intro c hc
  have := List.all_eq_true.mp h c hc
  simpa using this

mutual

theorem ascii_print : ∀ value : Json, Printable value → Ascii (print value)
  | .null, _ => ascii_word (by decide)
  | .bool true, _ => ascii_word (by decide)
  | .bool false, _ => ascii_word (by decide)
  | .int n, _ => ascii_printInt n
  | .float _, h => h.elim
  | .str s, _ => ascii_printString s
  | .arr items, h => .cons (by decide) (ascii_printArray items h)
  | .obj fields, h => .cons (by decide) (ascii_printObject fields h.2)

theorem ascii_printArray : ∀ items : List Json, PrintableItems items → Ascii (printArray items)
  | [], _ => .cons (by decide) ascii_nil
  | item :: items, h => (ascii_print item h.1).append (ascii_printItems items h.2)

theorem ascii_printItems : ∀ items : List Json, PrintableItems items → Ascii (printItems items)
  | [], _ => .cons (by decide) ascii_nil
  | item :: items, h =>
    .cons (by decide) ((ascii_print item h.1).append (ascii_printItems items h.2))

theorem ascii_printObject : ∀ fields : List (Str × Json), PrintableFields fields →
    Ascii (printObject fields)
  | [], _ => .cons (by decide) ascii_nil
  | (key, value) :: fields, h => (ascii_printString key).append
    (.cons (by decide) ((ascii_print value h.2.1).append (ascii_printFields fields h.2.2)))

theorem ascii_printFields : ∀ fields : List (Str × Json), PrintableFields fields →
    Ascii (printFields fields)
  | [], _ => .cons (by decide) ascii_nil
  | (key, value) :: fields, h => .cons (by decide) ((ascii_printString key).append
    (.cons (by decide) ((ascii_print value h.2.1).append (ascii_printFields fields h.2.2))))

end

/-! ## Files -/

/-- A JSON file as it is read. -/
def loads (parseFloat : Str → Double) (bytes : Bytes) : Option Json := do
  let s ← decode bytes
  parse parseFloat s

/-- A JSON file as it is written: keys in order, a newline at the end. -/
def canonicalJson (value : Json) : Bytes := encode (print (sortKeys value) ++ [newline])

theorem loads_canonicalJson (parseFloat : Str → Double) {value : Json}
    (h : Printable (sortKeys value)) :
    loads parseFloat (canonicalJson value) = some (sortKeys value) := by
  have hascii : Ascii (print (sortKeys value) ++ [newline]) :=
    (ascii_print _ h).append (.cons (by decide) ascii_nil)
  simp only [loads, canonicalJson, decode_encode hascii, Option.bind_eq_bind, Option.bind_some,
    parse_print parseFloat h]

theorem canonicalJson_injective {value other : Json} (h : Printable (sortKeys value))
    (ho : Printable (sortKeys other)) (heq : canonicalJson value = canonicalJson other) :
    sortKeys value = sortKeys other := by
  have hread := loads_canonicalJson (fun s => ⟨s, none⟩) h
  rw [heq, loads_canonicalJson _ ho] at hread
  exact (Option.some.inj hread).symm

end Pomodorough.Library.TextBytes
