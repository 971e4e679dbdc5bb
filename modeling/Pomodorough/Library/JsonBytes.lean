import Pomodorough.Library.Hexadecimal
import Pomodorough.Library.Utf8

/-! # JSON objects of literals in bytes

What a decoder into a struct without nested fields reads from bytes, and what an
encoder writes. A string is read as characters, where a byte outside UTF-8 and an
escape of half a surrogate pair are no character: in the decoded text each is the
replacement character. An object that holds an object or an array is not read. -/
namespace Pomodorough.Library.JsonBytes
open Utf8

/-- A character of a string, or what is none. -/
abbrev Rune := Option Char

/-- A number is kept as it is written. -/
inductive Literal where
  | null
  | bool (value : Bool)
  | number (literal : List Char)
  | text (runes : List Rune)
deriving DecidableEq, Repr

/-- A name and what stands after it. -/
abbrev Member := List Rune × Literal

/-! ## Reading strings -/

def isSpace (b : UInt8) : Bool := b = 32 || b = 9 || b = 10 || b = 13

def skipSpace (bytes : Bytes) : Bytes := bytes.dropWhile isSpace

def hexValue (b : UInt8) : Option Nat :=
  let c := Char.ofNat b.toNat
  if Hexadecimal.isHexDigit c then some (Hexadecimal.digitValue c) else none

/-- Four hexadecimal digits. -/
def scanHex : Bytes → Option (Nat × Bytes)
  | a :: b :: c :: d :: rest =>
    ([a, b, c, d].mapM hexValue).map fun digits => (digits.foldl (fun n d => 16 * n + d) 0, rest)
  | _ => none

/-- The escape of the second half of a surrogate pair. -/
def scanLowSurrogate : Bytes → Option (Nat × Bytes)
  | 92 :: 117 :: rest => (scanHex rest).filter fun (low, _) => 0xdc00 ≤ low && low < 0xe000
  | _ => none

/-- The character of an escape with four digits. What follows half a pair is read on
its own where it is not the other half. -/
def scanUnicode (bytes : Bytes) : Option (Rune × Bytes) :=
  match scanHex bytes with
  | none => none
  | some (n, rest) =>
    if n < 0xd800 ∨ 0xe000 ≤ n then some (some (Char.ofNat n), rest)
    else if 0xdc00 ≤ n then some (none, rest)
    else
      match scanLowSurrogate rest with
      | some (low, rest) =>
        some (some (Char.ofNat (0x10000 + (n - 0xd800) * 0x400 + (low - 0xdc00))), rest)
      | none => some (none, rest)

/-- What follows a backslash. -/
def scanEscape : Bytes → Option (Rune × Bytes)
  | 34 :: rest => some (some '"', rest)
  | 92 :: rest => some (some '\\', rest)
  | 47 :: rest => some (some '/', rest)
  | 98 :: rest => some (some '\x08', rest)
  | 102 :: rest => some (some '\x0c', rest)
  | 110 :: rest => some (some '\n', rest)
  | 114 :: rest => some (some '\r', rest)
  | 116 :: rest => some (some '\t', rest)
  | 117 :: rest => scanUnicode rest
  | _ => none

/-- One character of a string. Control characters stand in none. -/
def scanRune : Bytes → Option (Rune × Bytes)
  | [] => none
  | b :: bytes =>
    if b = 92 then scanEscape bytes
    else if b < 32 then none
    else
      match decodeRune (b :: bytes) with
      | some (c, rest) => some (some c, rest)
      | none => some (none, bytes)

/-- A string up to its closing quotation mark. -/
def scanTextFrom : Nat → Bytes → Option (List Rune × Bytes)
  | 0, _ => none
  | _ + 1, [] => none
  | fuel + 1, b :: bytes =>
    if b = 34 then some ([], bytes)
    else
      match scanRune (b :: bytes) with
      | none => none
      | some (rune, rest) =>
        (scanTextFrom fuel rest).map fun (runes, rest) => (rune :: runes, rest)

def scanText (bytes : Bytes) : Option (List Rune × Bytes) := scanTextFrom bytes.length bytes

/-! ## Reading numbers -/

def isDigit (b : UInt8) : Bool := 48 ≤ b && b ≤ 57

/-- All digits, at least one. -/
def scanDigits (bytes : Bytes) : Option (Bytes × Bytes) :=
  if bytes.takeWhile isDigit = [] then none
  else some (bytes.takeWhile isDigit, bytes.dropWhile isDigit)

/-- Nothing follows a leading zero. -/
def scanInteger : Bytes → Option (Bytes × Bytes)
  | 48 :: rest => some ([48], rest)
  | bytes => scanDigits bytes

def scanFraction : Bytes → Option (Bytes × Bytes)
  | 46 :: rest => (scanDigits rest).map fun (digits, rest) => (46 :: digits, rest)
  | bytes => some ([], bytes)

def scanExponent : Bytes → Option (Bytes × Bytes)
  | [] => some ([], [])
  | e :: bytes =>
    if e = 101 ∨ e = 69 then
      let sign := (bytes.take 1).filter fun b => b = 43 || b = 45
      (scanDigits (bytes.drop sign.length)).map fun (digits, rest) => (e :: sign ++ digits, rest)
    else some ([], e :: bytes)

def charOf (b : UInt8) : Char := Char.ofNat b.toNat

def scanNumber (bytes : Bytes) : Option (List Char × Bytes) := do
  let sign := (bytes.take 1).filter fun b => b = 45
  let (integer, bytes) ← scanInteger (bytes.drop sign.length)
  let (fraction, bytes) ← scanFraction bytes
  let (exponent, bytes) ← scanExponent bytes
  return ((sign ++ integer ++ fraction ++ exponent).map charOf, bytes)

/-! ## Reading objects -/

def scanLiteral : Bytes → Option (Literal × Bytes)
  | 34 :: rest => (scanText rest).map fun (runes, rest) => (.text runes, rest)
  | 110 :: 117 :: 108 :: 108 :: rest => some (.null, rest)
  | 116 :: 114 :: 117 :: 101 :: rest => some (.bool true, rest)
  | 102 :: 97 :: 108 :: 115 :: 101 :: rest => some (.bool false, rest)
  | bytes => (scanNumber bytes).map fun (literal, rest) => (.number literal, rest)

/-- What stands after the name of a member. -/
def scanValue (bytes : Bytes) : Option (Literal × Bytes) :=
  match skipSpace bytes with
  | 58 :: bytes => (scanLiteral (skipSpace bytes)).map fun (value, rest) => (value, skipSpace rest)
  | _ => none

def scanMember : Bytes → Option (Member × Bytes)
  | 34 :: bytes =>
    match scanText bytes with
    | some (key, bytes) => (scanValue bytes).map fun (value, rest) => ((key, value), rest)
    | none => none
  | _ => none

/-- The members up to the closing brace. -/
def scanMembers : Nat → Bytes → Option (List Member × Bytes)
  | 0, _ => none
  | fuel + 1, bytes =>
    match scanMember bytes with
    | some (member, 44 :: rest) =>
      (scanMembers fuel (skipSpace rest)).map fun (members, rest) => (member :: members, rest)
    | some (member, 125 :: rest) => some ([member], rest)
    | _ => none

/-- An object, and what follows it. -/
def scanObject (bytes : Bytes) : Option (List Member × Bytes) :=
  match skipSpace bytes with
  | 123 :: bytes =>
    match skipSpace bytes with
    | 125 :: rest => some ([], rest)
    | bytes => scanMembers bytes.length bytes
  | _ => none

/-! ## What is read as a number -/

/-- The text is a number in some place. -/
def IsNumber (literal : List Char) : Prop := ∃ bytes rest, scanNumber bytes = some (literal, rest)

section
variable {bytes rest : Bytes} {value : Literal} {member : Member} {members : List Member}

theorem scanLiteral_number (h : scanLiteral bytes = some (value, rest)) :
    ∀ literal, value = .number literal → IsNumber literal := by
  intro literal hvalue
  unfold scanLiteral at h
  split at h
  · obtain ⟨read, -, hread⟩ := Option.map_eq_some_iff.mp h
    cases hread
    cases hvalue
  · cases h
    cases hvalue
  · cases h
    cases hvalue
  · cases h
    cases hvalue
  · obtain ⟨read, hscan, hread⟩ := Option.map_eq_some_iff.mp h
    cases hread
    cases hvalue
    exact ⟨bytes, read.2, hscan⟩

theorem scanMember_number (h : scanMember bytes = some (member, rest)) :
    ∀ literal, member.2 = .number literal → IsNumber literal := by
  unfold scanMember at h
  split at h
  next =>
    split at h
    next key after hkey =>
      obtain ⟨read, hvalue, hread⟩ := Option.map_eq_some_iff.mp h
      cases hread
      unfold scanValue at hvalue
      split at hvalue
      next =>
        obtain ⟨literal, hliteral, heq⟩ := Option.map_eq_some_iff.mp hvalue
        cases heq
        exact scanLiteral_number hliteral
      next => cases hvalue
    next => cases h
  next => cases h

theorem scanMembers_number {fuel : Nat} (h : scanMembers fuel bytes = some (members, rest)) :
    ∀ member ∈ members, ∀ literal, member.2 = .number literal → IsNumber literal := by
  induction fuel generalizing bytes members rest with
  | zero => cases h
  | succ fuel ih =>
    unfold scanMembers at h
    split at h
    next member after hmember =>
      obtain ⟨read, hrest, hread⟩ := Option.map_eq_some_iff.mp h
      cases hread
      exact List.forall_mem_cons.mpr ⟨scanMember_number hmember, ih hrest⟩
    next member after hmember =>
      cases h
      exact List.forall_mem_cons.mpr ⟨scanMember_number hmember, by simp⟩
    next => cases h

theorem scanObject_number (h : scanObject bytes = some (members, rest)) :
    ∀ member ∈ members, ∀ literal, member.2 = .number literal → IsNumber literal := by
  unfold scanObject at h
  split at h
  next =>
    split at h
    next =>
      cases h
      simp
    next => exact scanMembers_number h
  next => cases h

theorem scanInteger_some {digits : Bytes} (h : scanInteger bytes = some (digits, rest)) :
    digits = [48] ∨ ∃ d ds, digits = d :: ds ∧ d ≠ 48 ∧ isDigit d = true := by
  unfold scanInteger at h
  split at h
  next =>
    cases h
    exact Or.inl rfl
  next hzero =>
    unfold scanDigits at h
    split at h
    next => cases h
    next hdigits =>
      obtain ⟨hread, -⟩ := Prod.mk.inj (Option.some.inj h)
      cases bytes with
      | nil => simp at hdigits
      | cons d bytes =>
        have hd : isDigit d = true := by
          apply Classical.byContradiction
          intro hd
          simp [hd] at hdigits
        refine Or.inr ⟨d, bytes.takeWhile isDigit, ?_, ?_, hd⟩
        · rw [← hread, List.takeWhile_cons_of_pos hd]
        · intro heq
          exact hzero bytes (by rw [heq])

theorem scanFraction_some {digits : Bytes} (h : scanFraction bytes = some (digits, rest)) :
    digits = [] ∨ ∃ ds, digits = 46 :: ds := by
  unfold scanFraction at h
  split at h
  · obtain ⟨read, -, hread⟩ := Option.map_eq_some_iff.mp h
    cases hread
    exact Or.inr ⟨_, rfl⟩
  · cases h
    exact Or.inl rfl

theorem scanExponent_some {digits : Bytes} (h : scanExponent bytes = some (digits, rest)) :
    digits = [] ∨ ∃ e ds, digits = e :: ds ∧ (e = 101 ∨ e = 69) := by
  unfold scanExponent at h
  split at h
  next =>
    cases h
    exact Or.inl rfl
  next e bytes =>
    split at h
    next he =>
      obtain ⟨read, -, hread⟩ := Option.map_eq_some_iff.mp h
      cases hread
      exact Or.inr ⟨e, _, rfl, he⟩
    next =>
      cases h
      exact Or.inl rfl

/-- A number of digits alone has no leading zero. -/
theorem isNumber_digits {literal : List Char} (h : IsNumber literal)
    (hdigits : ∀ c ∈ literal, c.isDigit = true) :
    literal = ['0'] ∨ ∃ c cs, literal = c :: cs ∧ c ≠ '0' := by
  obtain ⟨bytes, rest, hscan⟩ := h
  simp only [scanNumber, Option.bind_eq_bind, Option.bind_eq_some_iff, Option.pure_def,
    Option.some.injEq, Prod.mk.injEq, Prod.exists] at hscan
  obtain ⟨integer, after, hinteger, fraction, after', hfraction, exponent, after'', hexponent,
    hliteral, -⟩ := hscan
  have hmem : ∀ b ∈ (bytes.take 1).filter (fun b => b = 45) ++ integer ++ fraction ++ exponent,
      (charOf b).isDigit = true := by
    intro b hb
    apply hdigits
    rw [← hliteral]
    exact List.mem_map_of_mem hb
  have hsign : (bytes.take 1).filter (fun b => b = 45) = [] := by
    rw [List.filter_eq_nil_iff]
    intro b hb h45
    have hfilter : b ∈ (bytes.take 1).filter (fun b => b = 45) := List.mem_filter.mpr ⟨hb, h45⟩
    have hdigit := hmem b
      (List.mem_append_left _ (List.mem_append_left _ (List.mem_append_left _ hfilter)))
    rw [of_decide_eq_true h45] at hdigit
    exact absurd hdigit (by decide)
  have hnofraction : fraction = [] := by
    obtain hnil | ⟨ds, rfl⟩ := scanFraction_some hfraction
    · exact hnil
    · exact absurd (hmem 46 (by simp)) (by decide)
  have hnoexponent : exponent = [] := by
    obtain hnil | ⟨e, ds, rfl, he⟩ := scanExponent_some hexponent
    · exact hnil
    · have hdigit := hmem e (by simp)
      obtain rfl | rfl := he
      · exact absurd hdigit (by decide)
      · exact absurd hdigit (by decide)
  rw [hsign, hnofraction, hnoexponent, List.nil_append, List.append_nil, List.append_nil] at hliteral
  obtain hzero | ⟨d, ds, hdigits, hne, hd⟩ := scanInteger_some hinteger
  · left
    rw [← hliteral, hzero]
    rfl
  · right
    refine ⟨charOf d, ds.map charOf, by rw [← hliteral, hdigits, List.map_cons], ?_⟩
    intro heq
    apply hne
    have hbyte : ∀ k < 10, charOf (UInt8.ofNat (48 + k)) = '0' → UInt8.ofNat (48 + k) = 48 := by
      decide
    simp only [isDigit, Bool.and_eq_true, decide_eq_true_eq, UInt8.le_iff_toNat_le] at hd
    have hlow : 48 ≤ d.toNat := hd.1
    have hhigh : d.toNat ≤ 57 := hd.2
    rw [← @UInt8.ofNat_toNat d, ← Nat.add_sub_cancel' hlow] at heq ⊢
    exact hbyte _ (by omega) heq

end

/-! ## Writing -/

/-- A digit in lower case. -/
def hexDigit (n : Nat) : UInt8 := UInt8.ofNat (Nat.digitChar n).toNat

/-- A character as it stands in a string. Beside what JSON asks for, the characters
are escaped that have a meaning in HTML or end a line in JavaScript. -/
def escapeRune : Rune → Bytes
  | none => [92, 117, 102, 102, 102, 100]
  | some c =>
    if c = '"' then [92, 34]
    else if c = '\\' then [92, 92]
    else if c = '\x08' then [92, 98]
    else if c = '\x0c' then [92, 102]
    else if c = '\n' then [92, 110]
    else if c = '\r' then [92, 114]
    else if c = '\t' then [92, 116]
    else if c.toNat < 32 ∨ c = '<' ∨ c = '>' ∨ c = '&' then
      [92, 117, 48, 48, hexDigit (c.toNat / 16), hexDigit (c.toNat % 16)]
    else if c = '\u2028' then [92, 117, 50, 48, 50, 56]
    else if c = '\u2029' then [92, 117, 50, 48, 50, 57]
    else String.utf8EncodeChar c

def writeText (runes : List Rune) : Bytes := 34 :: (runes.flatMap escapeRune ++ [34])

def writeLiteral : Literal → Bytes
  | .null => [110, 117, 108, 108]
  | .bool true => [116, 114, 117, 101]
  | .bool false => [102, 97, 108, 115, 101]
  | .number literal => literal.map fun c => UInt8.ofNat c.toNat
  | .text runes => writeText runes

def writeMember (member : Member) : Bytes := writeText member.1 ++ 58 :: writeLiteral member.2

def writeMembers : List Member → Bytes
  | [] => []
  | [member] => writeMember member
  | member :: members => writeMember member ++ 44 :: writeMembers members

def writeObject (members : List Member) : Bytes := 123 :: (writeMembers members ++ [125])

/-! ## Reading what was written -/

/-- The character that a decoder takes. -/
def decoded (rune : Rune) : Char := rune.getD '\ufffd'

section
variable {bytes tail rest : Bytes} {c : Char} {rune : Rune} {runes : List Rune}

theorem hexDigit_escape : ∀ n < 128, scanHex [48, 48, hexDigit (n / 16), hexDigit (n % 16)] = some (n, []) := by
  decide

theorem scanHex_append {n : Nat} {a b c d : UInt8} (h : scanHex [a, b, c, d] = some (n, [])) :
    scanHex (a :: b :: c :: d :: rest) = some (n, rest) := by
  simp only [scanHex] at h ⊢
  obtain ⟨digits, hdigits, hvalue⟩ := Option.map_eq_some_iff.mp h
  rw [hdigits, Option.map_some, (Prod.mk.inj hvalue).1]

/-- A character in its two hexadecimal digits. -/
theorem scanRune_control (h : c.toNat < 128) :
    scanRune (92 :: 117 :: 48 :: 48 :: hexDigit (c.toNat / 16) :: hexDigit (c.toNat % 16) :: tail) =
      some (some c, tail) := by
  have hscan : scanHex (48 :: 48 :: hexDigit (c.toNat / 16) :: hexDigit (c.toNat % 16) :: tail) =
      some (c.toNat, tail) := scanHex_append (hexDigit_escape _ h)
  have hlow : c.toNat < 0xd800 ∨ 0xe000 ≤ c.toNat := Or.inl (by omega)
  simp [scanRune, scanEscape, scanUnicode, hscan, hlow]

/-- A character that is written as it is. -/
theorem scanRune_plain (hquote : c ≠ '"') (hbackslash : c ≠ '\\') (hspace : 32 ≤ c.toNat) :
    ∃ b bs, String.utf8EncodeChar c = b :: bs ∧ b ≠ 34 ∧
      scanRune (b :: (bs ++ tail)) = some (some c, tail) := by
  obtain ⟨b, bs, hhead, hbyte⟩ := @encodeChar_head c
  have hne : ∀ n < 128, c ≠ Char.ofNat n → b.toNat ≠ n := by
    intro n hn hc hb
    apply hc
    rw [← hbyte n hn hb, Char.ofNat_toNat]
  have h34 : b ≠ 34 := by
    intro heq
    exact hne 34 (by omega) hquote (congrArg UInt8.toNat heq)
  have h92 : b ≠ 92 := by
    intro heq
    exact hne 92 (by omega) hbackslash (congrArg UInt8.toNat heq)
  have h32 : ¬ b < 32 := by
    intro hlt
    have hlt : b.toNat < 32 := UInt8.lt_iff_toNat_lt.mp hlt
    have hc := hbyte b.toNat (by omega) rfl
    omega
  refine ⟨b, bs, hhead, h34, ?_⟩
  have hdecode : decodeRune (b :: (bs ++ tail)) = some (c, tail) := by
    rw [← List.cons_append, ← hhead]
    exact decodeRune_encode
  simp [scanRune, h92, h32, hdecode]

/-- Every character is read as it was written. -/
theorem scanRune_escapeRune (rune : Rune) (tail : Bytes) : ∃ b bs, escapeRune rune = b :: bs ∧ b ≠ 34 ∧
    scanRune (b :: (bs ++ tail)) = some (some (decoded rune), tail) := by
  cases rune with
  | none => exact ⟨_, _, rfl, by decide, rfl⟩
  | some c =>
    have hshort : ∀ {d : Char} {bs : Bytes}, c = d →
        scanRune (92 :: (bs ++ tail)) = some (some d, tail) →
        ∃ b' bs', 92 :: bs = b' :: bs' ∧ b' ≠ 34 ∧
          scanRune (b' :: (bs' ++ tail)) = some (some (decoded (some c)), tail) := by
      intro d bs hc hscan
      rw [hc]
      exact ⟨_, _, rfl, by decide, hscan⟩
    unfold escapeRune
    simp only
    by_cases hquote : c = '"'
    · rw [if_pos hquote]
      exact hshort hquote rfl
    rw [if_neg hquote]
    by_cases hbackslash : c = '\\'
    · rw [if_pos hbackslash]
      exact hshort hbackslash rfl
    rw [if_neg hbackslash]
    by_cases hb : c = '\x08'
    · rw [if_pos hb]
      exact hshort hb rfl
    rw [if_neg hb]
    by_cases hf : c = '\x0c'
    · rw [if_pos hf]
      exact hshort hf rfl
    rw [if_neg hf]
    by_cases hn : c = '\n'
    · rw [if_pos hn]
      exact hshort hn rfl
    rw [if_neg hn]
    by_cases hr : c = '\r'
    · rw [if_pos hr]
      exact hshort hr rfl
    rw [if_neg hr]
    by_cases ht : c = '\t'
    · rw [if_pos ht]
      exact hshort ht rfl
    rw [if_neg ht]
    by_cases hcontrol : c.toNat < 32 ∨ c = '<' ∨ c = '>' ∨ c = '&'
    · rw [if_pos hcontrol]
      refine hshort rfl (scanRune_control ?_)
      obtain hlow | rfl | rfl | rfl := hcontrol
      · omega
      · decide
      · decide
      · decide
    rw [if_neg hcontrol]
    by_cases h2028 : c = '\u2028'
    · rw [if_pos h2028]
      exact hshort h2028 rfl
    rw [if_neg h2028]
    by_cases h2029 : c = '\u2029'
    · rw [if_pos h2029]
      exact hshort h2029 rfl
    rw [if_neg h2029]
    exact scanRune_plain hquote hbackslash (by omega)

theorem scanTextFrom_write {fuel : Nat} (h : runes.length < fuel) :
    scanTextFrom fuel (runes.flatMap escapeRune ++ 34 :: rest) =
      some (runes.map fun rune => some (decoded rune), rest) := by
  induction runes generalizing fuel with
  | nil =>
    obtain ⟨fuel, rfl⟩ := Nat.exists_eq_add_of_lt h
    simp [scanTextFrom]
  | cons rune runes ih =>
    cases fuel with
    | zero => simp at h
    | succ fuel =>
      obtain ⟨b, bs, hhead, hquote, hscan⟩ :=
        scanRune_escapeRune rune (runes.flatMap escapeRune ++ 34 :: rest)
      rw [List.length_cons] at h
      rw [List.flatMap_cons, hhead, List.cons_append, List.cons_append, List.append_assoc]
      simp [scanTextFrom, hquote, hscan, ih (Nat.lt_of_succ_lt_succ h)]

theorem length_le_flatMap : runes.length ≤ (runes.flatMap escapeRune).length := by
  induction runes with
  | nil => simp
  | cons rune runes ih =>
    obtain ⟨b, bs, hhead, -⟩ := scanRune_escapeRune rune []
    rw [List.flatMap_cons, hhead, List.length_cons, List.length_append, List.length_cons]
    omega

/-- A string is read back, with the replacement character for what was no character. -/
theorem scanText_write : scanText (runes.flatMap escapeRune ++ 34 :: rest) =
    some (runes.map fun rune => some (decoded rune), rest) := by
  apply scanTextFrom_write
  have hlength := @length_le_flatMap runes
  rw [List.length_append, List.length_cons]
  omega

/-! ### Objects -/

/-- A value as it is read back. -/
def Literal.decoded : Literal → Literal
  | .text runes => .text (runes.map fun rune => some (JsonBytes.decoded rune))
  | value => value

def decodedMember (member : Member) : Member :=
  (member.1.map fun rune => some (decoded rune), member.2.decoded)

/-- The value is read back before a comma and before the end of the object. -/
def Readable (value : Literal) : Prop :=
  ∀ (b : UInt8) (tail : Bytes), b = 44 ∨ b = 125 →
    scanValue (58 :: (writeLiteral value ++ b :: tail)) = some (value.decoded, b :: tail)

theorem skipSpace_cons {b : UInt8} (h : isSpace b = false) : skipSpace (b :: tail) = b :: tail := by
  simp [skipSpace, h]

theorem not_space {b : UInt8} (h : b = 44 ∨ b = 125) : isSpace b = false := by
  obtain rfl | rfl := h <;> rfl

theorem readable_text : Readable (.text runes) := by
  intro b tail hb
  have hvalue : writeLiteral (.text runes) ++ b :: tail =
      34 :: (runes.flatMap escapeRune ++ 34 :: b :: tail) := by
    simp [writeLiteral, writeText]
  simp [hvalue, scanValue, skipSpace_cons, isSpace, scanLiteral, scanText_write, Literal.decoded,
    skipSpace_cons (not_space hb)]

theorem scanMember_write {member : Member} (h : Readable member.2) {b : UInt8}
    (hb : b = 44 ∨ b = 125) :
    scanMember (writeMember member ++ b :: tail) = some (decodedMember member, b :: tail) := by
  obtain ⟨key, value⟩ := member
  have hmember : writeMember (key, value) ++ b :: tail =
      34 :: (key.flatMap escapeRune ++ 34 :: 58 :: (writeLiteral value ++ b :: tail)) := by
    simp [writeMember, writeText]
  simp [hmember, scanMember, scanText_write, h b tail hb, decodedMember]

theorem writeMembers_head {member : Member} {members : List Member} :
    ∃ bytes, writeMembers (member :: members) = 34 :: bytes := by
  cases members with
  | nil => exact ⟨_, rfl⟩
  | cons => exact ⟨_, rfl⟩

theorem scanMembers_write {member : Member} {members : List Member} {fuel : Nat}
    (h : ∀ member' ∈ member :: members, Readable member'.2) (hfuel : members.length < fuel) :
    scanMembers fuel (writeMembers (member :: members) ++ 125 :: rest) =
      some ((member :: members).map decodedMember, rest) := by
  induction members generalizing member fuel with
  | nil =>
    obtain ⟨fuel, rfl⟩ := Nat.exists_eq_add_of_lt hfuel
    simp [scanMembers, writeMembers, scanMember_write (h member List.mem_cons_self)]
  | cons next members ih =>
    cases fuel with
    | zero => simp at hfuel
    | succ fuel =>
      obtain ⟨hmember, hmembers⟩ := List.forall_mem_cons.mp h
      have hrest := ih hmembers (Nat.lt_of_succ_lt_succ hfuel)
      obtain ⟨bytes, hhead⟩ := @writeMembers_head next members
      have hspace : skipSpace (writeMembers (next :: members) ++ 125 :: rest) =
          writeMembers (next :: members) ++ 125 :: rest := by
        rw [hhead]
        rfl
      have hwritten : writeMembers (member :: next :: members) ++ 125 :: rest =
          writeMember member ++ 44 :: (writeMembers (next :: members) ++ 125 :: rest) := by
        simp [writeMembers]
      rw [hwritten]
      simp [scanMembers, scanMember_write hmember, hspace, hrest]

theorem length_le_writeMembers {members : List Member} :
    members.length ≤ (writeMembers members).length := by
  induction members with
  | nil => simp
  | cons member members ih =>
    cases members with
    | nil => simp [writeMembers, writeMember, writeText]
    | cons next members =>
      simp only [writeMembers, List.length_append, List.length_cons] at ih ⊢
      omega

/-- An object is read back, and what follows it is left. -/
theorem scanObject_write {members : List Member} (h : ∀ member ∈ members, Readable member.2) :
    scanObject (writeObject members ++ rest) = some (members.map decodedMember, rest) := by
  cases members with
  | nil => rfl
  | cons member members =>
    have hscan := fun fuel => @scanMembers_write rest member members fuel h
    have hlength := @length_le_writeMembers (member :: members)
    obtain ⟨bytes, hhead⟩ := @writeMembers_head member members
    have hobject : writeObject (member :: members) ++ rest =
        123 :: (writeMembers (member :: members) ++ 125 :: rest) := by
      simp [writeObject]
    rw [hhead] at hobject hscan hlength
    rw [hobject]
    simp only [scanObject, skipSpace_cons (show isSpace 123 = false from rfl), List.cons_append,
      skipSpace_cons (show isSpace 34 = false from rfl)]
    apply hscan
    simp only [List.length_cons, List.length_append] at hlength ⊢
    omega

end

end Pomodorough.Library.JsonBytes
