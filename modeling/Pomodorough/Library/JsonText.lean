import Mathlib.Data.List.Sort
import Mathlib.Data.List.Lex

/-! # JSON texts

Values as a dynamic language reads and writes them. Text is a list of code
points, in which a surrogate may stand alone. Writing escapes everything outside
printable ASCII; reading accepts any JSON text whose objects name each key once.
A value without floats is read back as it was written, up to the order of keys. -/
namespace Pomodorough.Library.JsonText

abbrev Str := List Nat

abbrev Bytes := List UInt8

def text (s : String) : Str := s.toList.map Char.toNat

/-- A double, by what can be observed of it here: how it is written, and the
integer it equals, if it equals one. -/
structure Double where
  repr : Str
  integer : Option Int
  deriving DecidableEq

inductive Json where
  | null
  | bool (value : Bool)
  | int (value : Int)
  | float (value : Double)
  | str (value : Str)
  | arr (items : List Json)
  | obj (fields : List (Str × Json))

/-! ## Characters -/

abbrev quote : Nat := 0x22
abbrev backslash : Nat := 0x5c
abbrev comma : Nat := 0x2c
abbrev colon : Nat := 0x3a
abbrev openBracket : Nat := 0x5b
abbrev closeBracket : Nat := 0x5d
abbrev openBrace : Nat := 0x7b
abbrev closeBrace : Nat := 0x7d
abbrev newline : Nat := 0x0a

def isSpace (c : Nat) : Bool := c == 0x20 || c == 0x09 || c == 0x0a || c == 0x0d

def isDigit (c : Nat) : Bool := 0x30 ≤ c && c ≤ 0x39

def isHighSurrogate (c : Nat) : Bool := 0xd800 ≤ c && c ≤ 0xdbff

def isLowSurrogate (c : Nat) : Bool := 0xdc00 ≤ c && c ≤ 0xdfff

/-- A surrogate pair and the code point it stands for. -/
def joined (high low : Nat) : Nat := 0x10000 + (high - 0xd800) * 0x400 + (low - 0xdc00)

def hexDigit (n : Nat) : Nat := if n < 10 then 0x30 + n else 0x61 + (n - 10)

def hexValue (c : Nat) : Option Nat :=
  if 0x30 ≤ c ∧ c ≤ 0x39 then some (c - 0x30)
  else if 0x61 ≤ c ∧ c ≤ 0x66 then some (c - 0x61 + 10)
  else if 0x41 ≤ c ∧ c ≤ 0x46 then some (c - 0x41 + 10)
  else none

/-! ## Writing -/

def unicodeEscape (n : Nat) : Str :=
  [backslash, 0x75, hexDigit (n / 0x1000 % 16), hexDigit (n / 0x100 % 16),
    hexDigit (n / 0x10 % 16), hexDigit (n % 16)]

/-- The escapes of two characters: the one escaped and its letter. -/
def shortEscapes : List (Nat × Nat) :=
  [(quote, quote), (backslash, backslash), (0x0a, 0x6e), (0x0d, 0x72), (0x09, 0x74),
    (0x0c, 0x66), (0x08, 0x62)]

def escape (c : Nat) : Str :=
  match shortEscapes.lookup c with
  | some letter => [backslash, letter]
  | none =>
    if 0x20 ≤ c ∧ c ≤ 0x7e then [c]
    else if c < 0x10000 then unicodeEscape c
    else unicodeEscape (0xd800 + (c - 0x10000) / 0x400) ++
      unicodeEscape (0xdc00 + (c - 0x10000) % 0x400)

def printString (s : Str) : Str := quote :: (s.flatMap escape ++ [quote])

def decimal (n : Nat) : Str := (Nat.toDigits 10 n).map Char.toNat

def printInt : Int → Str
  | .ofNat n => decimal n
  | .negSucc n => 0x2d :: decimal (n + 1)

mutual

def print : Json → Str
  | .null => text "null"
  | .bool value => if value then text "true" else text "false"
  | .int value => printInt value
  | .float value => value.repr
  | .str value => printString value
  | .arr items => openBracket :: printArray items
  | .obj fields => openBrace :: printObject fields

def printArray : List Json → Str
  | [] => [closeBracket]
  | item :: items => print item ++ printItems items

/-- The items after the first. -/
def printItems : List Json → Str
  | [] => [closeBracket]
  | item :: items => comma :: (print item ++ printItems items)

def printObject : List (Str × Json) → Str
  | [] => [closeBrace]
  | (key, value) :: fields => printString key ++ colon :: (print value ++ printFields fields)

/-- The fields after the first. -/
def printFields : List (Str × Json) → Str
  | [] => [closeBrace]
  | (key, value) :: fields =>
    comma :: (printString key ++ colon :: (print value ++ printFields fields))

end

/-- Fields in the order of their keys. -/
def sortFields (fields : List (Str × Json)) : List (Str × Json) :=
  fields.insertionSort fun a b => a.1 ≤ b.1

mutual

/-- Every object's fields in the order of their keys. -/
def sortKeys : Json → Json
  | .arr items => .arr (sortItems items)
  | .obj fields => .obj (sortFields (sortValues fields))
  | .null => .null
  | .bool value => .bool value
  | .int value => .int value
  | .float value => .float value
  | .str value => .str value

def sortItems : List Json → List Json
  | [] => []
  | item :: items => sortKeys item :: sortItems items

def sortValues : List (Str × Json) → List (Str × Json)
  | [] => []
  | (key, value) :: fields => (key, sortKeys value) :: sortValues fields

end

/-! ## Reading -/

def skipSpace (s : Str) : Str := s.dropWhile isSpace

/-- One character of a string; an escaped surrogate may join its neighbour. -/
inductive Unit16 where
  | raw (c : Nat)
  | escaped (n : Nat)
  deriving DecidableEq

def scanUnits : Str → Option (List Unit16 × Str)
  | [] => none
  | c :: rest =>
    if c = quote then some ([], rest)
    else if c = backslash then
      match rest with
      | [] => none
      | e :: rest =>
        if e = 0x75 then
          match rest with
          | a :: b :: c :: d :: rest => do
            let n := 0x1000 * (← hexValue a) + 0x100 * (← hexValue b) + 0x10 * (← hexValue c) +
              (← hexValue d)
            let (units, rest) ← scanUnits rest
            some (.escaped n :: units, rest)
          | _ => none
        else do
          let c ← if e = 0x2f then some e
            else (shortEscapes.find? fun entry => entry.2 == e).map Prod.fst
          let (units, rest) ← scanUnits rest
          some (.raw c :: units, rest)
    else if c < 0x20 then none
    else do
      let (units, rest) ← scanUnits rest
      some (.raw c :: units, rest)

def joinSurrogates : List Unit16 → Str
  | [] => []
  | .raw c :: units => c :: joinSurrogates units
  | .escaped high :: .escaped low :: units =>
    if isHighSurrogate high && isLowSurrogate low then joined high low :: joinSurrogates units
    else high :: joinSurrogates (.escaped low :: units)
  | .escaped n :: units => n :: joinSurrogates units

/-- A string, after its opening quote. -/
def scanString (s : Str) : Option (Str × Str) :=
  (scanUnits s).map fun (units, rest) => (joinSurrogates units, rest)

def digitsValue (digits : Str) : Nat := Nat.ofDigitChars 10 (digits.map Char.ofNat) 0

/-- `.` and digits, or nothing. -/
def scanFraction : Str → Str
  | [] => []
  | point :: rest =>
    if point = 0x2e ∧ rest.takeWhile isDigit ≠ [] then point :: rest.takeWhile isDigit else []

/-- `e`, a sign and digits, or nothing. -/
def scanExponent : Str → Str
  | [] => []
  | e :: rest =>
    let sign := rest.take 1 |>.filter fun c => c = 0x2b ∨ c = 0x2d
    let digits := (rest.drop sign.length).takeWhile isDigit
    if (e = 0x65 ∨ e = 0x45) ∧ digits ≠ [] then e :: (sign ++ digits) else []

/-- The digits before a point; a zero stands alone. -/
def scanInteger (s : Str) : Str :=
  if s.head? = some 0x30 then [0x30] else s.takeWhile isDigit

section Parser
variable (parseFloat : Str → Double)

def scanNumber (s : Str) : Option (Json × Str) :=
  let negative := s.head? = some 0x2d
  let body := if negative then s.tail else s
  let integer := scanInteger body
  let rest := body.drop integer.length
  let fraction := scanFraction rest
  let exponent := scanExponent (rest.drop fraction.length)
  if integer = [] then none
  else if fraction = [] ∧ exponent = [] then
    some (.int (if negative then -(digitsValue integer : Int) else digitsValue integer), rest)
  else
    let literal := s.take 1 |>.filter (· = 0x2d)
    some (.float (parseFloat (literal ++ integer ++ fraction ++ exponent)),
      rest.drop (fraction.length + exponent.length))

def scanLiteral (literal : Str) (value : Json) (s : Str) : Option (Json × Str) :=
  (literal.isPrefixOf? s).map fun rest => (value, rest)

/-- Everything but strings, arrays and objects. -/
def scanWord (s : Str) : Option (Json × Str) :=
  scanLiteral (text "null") .null s
    <|> scanLiteral (text "true") (.bool true) s
    <|> scanLiteral (text "false") (.bool false) s
    <|> scanLiteral (text "NaN") (.float ⟨text "NaN", none⟩) s
    <|> scanLiteral (text "Infinity") (.float ⟨text "Infinity", none⟩) s
    <|> scanLiteral (text "-Infinity") (.float ⟨text "-Infinity", none⟩) s
    <|> scanNumber parseFloat s

mutual

def scanValue : Nat → Str → Option (Json × Str)
  | _, [] => none
  | 0, _ => none
  | fuel + 1, c :: rest =>
    if c = quote then do
      let (value, rest) ← scanString rest
      some (.str value, rest)
    else if c = openBracket then do
      let (items, rest) ← scanArray fuel (skipSpace rest)
      some (.arr items, rest)
    else if c = openBrace then do
      let (fields, rest) ← scanObject fuel (skipSpace rest)
      if (fields.map Prod.fst).Nodup then some (.obj fields, rest) else none
    else scanWord parseFloat (c :: rest)

def scanArray : Nat → Str → Option (List Json × Str)
  | _, [] => none
  | 0, _ => none
  | fuel + 1, c :: rest =>
    if c = closeBracket then some ([], rest)
    else do
      let (item, rest) ← scanValue fuel (c :: rest)
      let (items, rest) ← scanItems fuel (skipSpace rest)
      some (item :: items, rest)

def scanItems : Nat → Str → Option (List Json × Str)
  | _, [] => none
  | 0, _ => none
  | fuel + 1, c :: rest =>
    if c = closeBracket then some ([], rest)
    else if c = comma then do
      let (item, rest) ← scanValue fuel (skipSpace rest)
      let (items, rest) ← scanItems fuel (skipSpace rest)
      some (item :: items, rest)
    else none

def scanObject : Nat → Str → Option (List (Str × Json) × Str)
  | _, [] => none
  | 0, _ => none
  | fuel + 1, c :: rest =>
    if c = closeBrace then some ([], rest)
    else do
      let (field, rest) ← scanField fuel (c :: rest)
      let (fields, rest) ← scanFields fuel (skipSpace rest)
      some (field :: fields, rest)

def scanFields : Nat → Str → Option (List (Str × Json) × Str)
  | _, [] => none
  | 0, _ => none
  | fuel + 1, c :: rest =>
    if c = closeBrace then some ([], rest)
    else if c = comma then do
      let (field, rest) ← scanField fuel (skipSpace rest)
      let (fields, rest) ← scanFields fuel (skipSpace rest)
      some (field :: fields, rest)
    else none

def scanField : Nat → Str → Option ((Str × Json) × Str)
  | _, [] => none
  | 0, _ => none
  | fuel + 1, c :: rest =>
    if c = quote then do
      let (key, rest) ← scanString rest
      match skipSpace rest with
      | [] => none
      | c :: rest =>
        if c = colon then do
          let (value, rest) ← scanValue fuel (skipSpace rest)
          some ((key, value), rest)
        else none
    else none

end

/-- A whole text. -/
def parse (s : Str) : Option Json := do
  let (value, rest) ← scanValue parseFloat (s.length + 1) (skipSpace s)
  if skipSpace rest = [] then some value else none

end Parser

/-! ## Strings are read back -/

/-- Text whose surrogate pairs cannot be told apart from its characters is left
out: no character is a high surrogate. -/
def PlainText (s : Str) : Prop := ∀ c ∈ s, c < 0x110000 ∧ isHighSurrogate c = false

/-- How a written character is read. -/
def unitsOf (c : Nat) : List Unit16 :=
  if (shortEscapes.lookup c).isSome ∨ 0x20 ≤ c ∧ c ≤ 0x7e then [.raw c]
  else if c < 0x10000 then [.escaped c]
  else [.escaped (0xd800 + (c - 0x10000) / 0x400), .escaped (0xdc00 + (c - 0x10000) % 0x400)]

theorem hexValue_hexDigit : ∀ n < 16, hexValue (hexDigit n) = some n := by decide

theorem scanUnits_unicodeEscape {n : Nat} (h : n < 0x10000) (rest : Str) :
    scanUnits (unicodeEscape n ++ rest) =
      (scanUnits rest).map fun (units, rest) => (.escaped n :: units, rest) := by
  have hvalue : 0x1000 * (n / 0x1000 % 16) + 0x100 * (n / 0x100 % 16) + 0x10 * (n / 0x10 % 16) +
      n % 16 = n := by omega
  have hdigit := fun k => hexValue_hexDigit (k % 16) (Nat.mod_lt k (by decide))
  simp only [unicodeEscape, List.cons_append, List.nil_append]
  rw [scanUnits, if_neg (by decide), if_pos rfl]
  simp only [hdigit, if_true, Option.bind_eq_bind, Option.bind_some, hvalue]
  cases scanUnits rest <;> rfl

theorem shortEscapes_cases {c letter : Nat} (h : shortEscapes.lookup c = some letter) :
    letter ≠ 0x75 ∧ letter ≠ 0x2f ∧
      (shortEscapes.find? fun entry => entry.2 == letter).map Prod.fst = some c := by
  have hall : ∀ entry ∈ shortEscapes, entry.2 ≠ 0x75 ∧ entry.2 ≠ 0x2f ∧
      (shortEscapes.find? fun other => other.2 == entry.2).map Prod.fst = some entry.1 := by decide
  obtain ⟨before, after, heq, -⟩ := List.lookup_eq_some_iff.mp h
  exact hall (c, letter) (by rw [heq]; simp)

theorem scanUnits_quote (rest : Str) : scanUnits (quote :: rest) = some ([], rest) := by
  rw [scanUnits.eq_def]
  rfl

theorem scanUnits_short {c letter : Nat} (h : shortEscapes.lookup c = some letter) (rest : Str) :
    scanUnits (backslash :: letter :: rest) =
      (scanUnits rest).map fun (units, rest) => (.raw c :: units, rest) := by
  obtain ⟨hletter, hslash, hfind⟩ := shortEscapes_cases h
  rw [scanUnits.eq_def]
  simp only [if_neg hletter, if_neg hslash, hfind, if_true, Option.bind_eq_bind, Option.bind_some]
  rw [if_neg (by decide)]
  cases scanUnits rest <;> rfl

theorem scanUnits_raw {c : Nat} (hquote : c ≠ quote) (hbackslash : c ≠ backslash) (h : 0x20 ≤ c)
    (rest : Str) :
    scanUnits (c :: rest) = (scanUnits rest).map fun (units, rest) => (.raw c :: units, rest) := by
  rw [scanUnits.eq_def]
  simp only [if_neg hquote, if_neg hbackslash, if_neg (Nat.not_lt.mpr h)]
  cases scanUnits rest <;> rfl

theorem scanUnits_escape {c : Nat} (h : c < 0x110000) (rest : Str) :
    scanUnits (escape c ++ rest) =
      (scanUnits rest).map fun (units, rest) => (unitsOf c ++ units, rest) := by
  unfold escape unitsOf
  cases hshort : shortEscapes.lookup c with
  | some letter =>
    simp only [Option.isSome_some, true_or, if_true, List.cons_append, List.nil_append]
    exact scanUnits_short hshort rest
  | none =>
    have hquote : c ≠ quote := by
      intro heq
      rw [heq] at hshort
      cases hshort
    have hbackslash : c ≠ backslash := by
      intro heq
      rw [heq] at hshort
      cases hshort
    simp only [Option.isSome_none, Bool.false_eq_true, false_or]
    by_cases hprint : 0x20 ≤ c ∧ c ≤ 0x7e
    · simp only [if_pos hprint, List.cons_append, List.nil_append]
      exact scanUnits_raw hquote hbackslash hprint.1 rest
    · by_cases hsmall : c < 0x10000
      · simp only [if_neg hprint, if_pos hsmall]
        exact scanUnits_unicodeEscape hsmall rest
      · simp only [if_neg hprint, if_neg hsmall, List.append_assoc]
        rw [scanUnits_unicodeEscape (by omega), scanUnits_unicodeEscape (by omega)]
        cases scanUnits rest <;> rfl

theorem scanUnits_escapes {s : Str} (h : PlainText s) (rest : Str) :
    scanUnits (s.flatMap escape ++ quote :: rest) = some (s.flatMap unitsOf, rest) := by
  induction s with
  | nil => exact scanUnits_quote rest
  | cons c s ih =>
    have htail : PlainText s := fun d hd => h d (List.mem_cons_of_mem _ hd)
    rw [List.flatMap_cons, List.append_assoc, scanUnits_escape (h c List.mem_cons_self).1, ih htail]
    rfl

theorem joinSurrogates_unitsOf {c : Nat} (h : c < 0x110000) (hhigh : isHighSurrogate c = false)
    (units : List Unit16) : joinSurrogates (unitsOf c ++ units) = c :: joinSurrogates units := by
  unfold unitsOf
  split
  · rfl
  · split
    · simp only [List.cons_append, List.nil_append]
      cases units with
      | nil => rfl
      | cons unit units =>
        cases unit with
        | raw d => rfl
        | escaped low => simp [joinSurrogates, hhigh]
    · have hpair : (isHighSurrogate (0xd800 + (c - 0x10000) / 0x400) &&
          isLowSurrogate (0xdc00 + (c - 0x10000) % 0x400)) = true := by
        simp only [isHighSurrogate, isLowSurrogate, Bool.and_eq_true, decide_eq_true_eq]
        omega
      have hjoined : joined (0xd800 + (c - 0x10000) / 0x400) (0xdc00 + (c - 0x10000) % 0x400) = c := by
        unfold joined
        omega
      simp only [List.cons_append, List.nil_append, joinSurrogates, hpair, hjoined, if_true]

theorem joinSurrogates_units {s : Str} (h : PlainText s) :
    joinSurrogates (s.flatMap unitsOf) = s := by
  induction s with
  | nil => rfl
  | cons c s ih =>
    obtain ⟨hc, hhigh⟩ := h c List.mem_cons_self
    rw [List.flatMap_cons, joinSurrogates_unitsOf hc hhigh,
      ih fun d hd => h d (List.mem_cons_of_mem _ hd)]

theorem scanString_printString {s : Str} (h : PlainText s) (rest : Str) :
    scanString (s.flatMap escape ++ quote :: rest) = some (s, rest) := by
  simp only [scanString, scanUnits_escapes h, Option.map_some, joinSurrogates_units h]

/-! ## Integers are read back -/

/-- What can follow a value that was written. -/
def Ends (rest : Str) : Prop :=
  ∀ c, rest.head? = some c → c = comma ∨ c = closeBracket ∨ c = closeBrace ∨ c = newline

theorem decimal_isDigit {n c : Nat} (h : c ∈ decimal n) : isDigit c = true := by
  obtain ⟨d, hd, rfl⟩ := List.mem_map.mp h
  have hdigit := Nat.isDigit_of_mem_toDigits (by decide) (by decide) hd
  simp only [Char.isDigit, Bool.and_eq_true, decide_eq_true_eq, ge_iff_le,
    UInt32.le_iff_toNat_le] at hdigit
  simp only [isDigit, Bool.and_eq_true, decide_eq_true_eq]
  exact hdigit

theorem decimal_ne_nil (n : Nat) : decimal n ≠ [] := by
  intro h
  exact Nat.toDigits_ne_nil (List.map_eq_nil_iff.mp h)

theorem digitsValue_decimal (n : Nat) : digitsValue (decimal n) = n := by
  have hchars : (decimal n).map Char.ofNat = Nat.toDigits 10 n := by
    simp [decimal, Function.comp_def]
  rw [digitsValue, hchars, Nat.ofDigitChars_ten_toDigits]

/-- Only zero begins with a zero. -/
theorem decimal_head (n : Nat) : decimal n = [0x30] ∨ (decimal n).head? ≠ some 0x30 := by
  induction n using Nat.strongRecOn with
  | _ n ih =>
    by_cases hsmall : n < 10
    · have hdigits : ∀ m < 10, decimal m = [0x30] ∨ (decimal m).head? ≠ some 0x30 := by decide
      exact hdigits n hsmall
    · have hsplit : decimal n = decimal (n / 10) ++ [(Nat.digitChar (n % 10)).toNat] := by
        simp only [decimal, Nat.toDigits_of_base_le (by decide : 1 < 10) (Nat.not_lt.mp hsmall),
          List.map_append, List.map_cons, List.map_nil]
      have hhead : (decimal n).head? = (decimal (n / 10)).head? := by
        rw [hsplit, List.head?_append_of_ne_nil _ (decimal_ne_nil _)]
      obtain hzero | hne := ih (n / 10) (by omega)
      · have hvalue := digitsValue_decimal (n / 10)
        rw [hzero] at hvalue
        have : n / 10 = 0 := hvalue.symm
        omega
      · exact .inr (by rwa [hhead])

theorem takeWhile_digits {s rest : Str} (hs : ∀ c ∈ s, isDigit c = true) (hrest : Ends rest) :
    (s ++ rest).takeWhile isDigit = s := by
  rw [List.takeWhile_append_of_pos hs]
  cases rest with
  | nil => simp
  | cons c rest =>
    have hc : isDigit c = false := by
      obtain rfl | rfl | rfl | rfl := hrest c rfl <;> rfl
    simp [hc]

theorem scanInteger_decimal (n : Nat) {rest : Str} (hrest : Ends rest) :
    scanInteger (decimal n ++ rest) = decimal n := by
  unfold scanInteger
  obtain hzero | hne := decimal_head n
  · rw [hzero]
    rfl
  · rw [if_neg (by rwa [List.head?_append_of_ne_nil _ (decimal_ne_nil n)]),
      takeWhile_digits (fun c hc => decimal_isDigit hc) hrest]

theorem scanFraction_ends {rest : Str} (h : Ends rest) : scanFraction rest = [] := by
  cases rest with
  | nil => rfl
  | cons c rest =>
    have hc : c ≠ 0x2e := by
      obtain rfl | rfl | rfl | rfl := h c rfl <;> decide
    simp [scanFraction, hc]

theorem scanExponent_ends {rest : Str} (h : Ends rest) : scanExponent rest = [] := by
  cases rest with
  | nil => rfl
  | cons c rest =>
    have hc : ¬ (c = 0x65 ∨ c = 0x45) := by
      obtain rfl | rfl | rfl | rfl := h c rfl <;> decide
    simp [scanExponent, hc]

theorem decimal_unsigned (n : Nat) (rest : Str) : (decimal n ++ rest).head? ≠ some 0x2d := by
  rw [List.head?_append_of_ne_nil _ (decimal_ne_nil n)]
  intro h
  have := decimal_isDigit (List.mem_of_mem_head? h)
  cases this

section Parser
variable (parseFloat : Str → Double)

theorem scanNumber_decimal (n : Nat) {rest : Str} (h : Ends rest) :
    scanNumber parseFloat (decimal n ++ rest) = some (.int n, rest) := by
  unfold scanNumber
  simp only [decimal_unsigned n rest, if_false, scanInteger_decimal n h, List.drop_left,
    scanFraction_ends h, scanExponent_ends h, List.length_nil, List.drop_zero, decimal_ne_nil,
    and_self, if_true, digitsValue_decimal]

theorem scanNumber_negative (n : Nat) {rest : Str} (h : Ends rest) :
    scanNumber parseFloat (0x2d :: (decimal n ++ rest)) = some (.int (-n), rest) := by
  unfold scanNumber
  simp only [List.head?_cons, if_true, List.tail_cons, scanInteger_decimal n h, List.drop_left,
    scanFraction_ends h, scanExponent_ends h, List.length_nil, List.drop_zero, decimal_ne_nil,
    and_self, if_true, if_false, digitsValue_decimal]

theorem scanNumber_printInt (n : Int) {rest : Str} (h : Ends rest) :
    scanNumber parseFloat (printInt n ++ rest) = some (.int n, rest) := by
  cases n with
  | ofNat n => exact scanNumber_decimal parseFloat n h
  | negSucc n => exact scanNumber_negative parseFloat (n + 1) h

end Parser

/-! ## Values are read back -/

mutual

/-- No floats, plain text, and every key once. -/
def Printable : Json → Prop
  | .float _ => False
  | .str value => PlainText value
  | .arr items => PrintableItems items
  | .obj fields => (fields.map Prod.fst).Nodup ∧ PrintableFields fields
  | .null | .bool _ | .int _ => True

def PrintableItems : List Json → Prop
  | [] => True
  | item :: items => Printable item ∧ PrintableItems items

def PrintableFields : List (Str × Json) → Prop
  | [] => True
  | (key, value) :: fields => PlainText key ∧ Printable value ∧ PrintableFields fields

end

section Literals
variable {literal s : Str} {value : Json} {c d : Nat}

theorem scanLiteral_self (literal : Str) (value : Json) (rest : Str) :
    scanLiteral literal value (literal ++ rest) = some (value, rest) := by
  simp [scanLiteral, List.isPrefixOf?_eq_some_iff_append_eq.mpr rfl]

theorem scanLiteral_head (h : literal.head? = some d) (hne : d ≠ c) :
    scanLiteral literal value (c :: s) = none := by
  cases literal with
  | nil => cases h
  | cons e literal =>
    cases h
    simp [scanLiteral, List.isPrefixOf?, hne]

end Literals

section Parser
variable (parseFloat : Str → Double)

theorem scanWord_number {c : Nat} {s : Str}
    (hc : isDigit c = true ∨ c = 0x2d ∧ ∃ d rest, s = d :: rest ∧ isDigit d = true) :
    scanWord parseFloat (c :: s) = scanNumber parseFloat (c :: s) := by
  have hletter : ∀ d, d = 0x6e ∨ d = 0x74 ∨ d = 0x66 ∨ d = 0x4e ∨ d = 0x49 → d ≠ c := by
    rintro d hd rfl
    obtain rfl | rfl | rfl | rfl | rfl := hd <;> obtain h | ⟨h, -⟩ := hc <;> cases h
  have hinfinity : scanLiteral (text "-Infinity") (.float ⟨text "-Infinity", none⟩) (c :: s) =
      none := by
    obtain hdigit | ⟨rfl, d, rest, rfl, hdigit⟩ := hc
    · refine scanLiteral_head (d := 0x2d) rfl ?_
      rintro rfl
      cases hdigit
    · have hne : (0x49 == d) = false := by
        rw [beq_eq_false_iff_ne]
        rintro rfl
        cases hdigit
      have hsplit : text "-Infinity" = 0x2d :: 0x49 :: text "nfinity" := rfl
      simp [scanLiteral, hsplit, List.isPrefixOf?, hne]
  unfold scanWord
  rw [scanLiteral_head (d := 0x6e) rfl (hletter _ (by simp)),
    scanLiteral_head (d := 0x74) rfl (hletter _ (by simp)),
    scanLiteral_head (d := 0x66) rfl (hletter _ (by simp)),
    scanLiteral_head (d := 0x4e) rfl (hletter _ (by simp)),
    scanLiteral_head (d := 0x49) rfl (hletter _ (by simp)), hinfinity]
  rfl

theorem decimal_cons (n : Nat) : ∃ c s, decimal n = c :: s ∧ isDigit c = true := by
  cases h : decimal n with
  | nil => exact absurd h (decimal_ne_nil n)
  | cons c s => exact ⟨c, s, rfl, decimal_isDigit (n := n) (by rw [h]; exact List.mem_cons_self)⟩

/-- How a number starts. -/
theorem printInt_cons (n : Int) : ∃ c s, printInt n = c :: s ∧
    (isDigit c = true ∨ c = 0x2d ∧ ∃ d rest, s = d :: rest ∧ isDigit d = true) := by
  cases n with
  | ofNat n =>
    obtain ⟨c, s, heq, hc⟩ := decimal_cons n
    exact ⟨c, s, heq, .inl hc⟩
  | negSucc n =>
    obtain ⟨c, s, heq, hc⟩ := decimal_cons (n + 1)
    exact ⟨0x2d, decimal (n + 1), rfl, .inr ⟨rfl, c, s, heq, hc⟩⟩

theorem scanWord_printInt (n : Int) {rest : Str} (h : Ends rest) :
    scanWord parseFloat (printInt n ++ rest) = some (.int n, rest) := by
  obtain ⟨c, s, heq, hc⟩ := printInt_cons n
  have hnumber := scanNumber_printInt parseFloat n h
  rw [heq, List.cons_append] at hnumber ⊢
  rw [scanWord_number parseFloat ?_, hnumber]
  obtain hdigit | ⟨hsign, d, tail, rfl, hdigit⟩ := hc
  · exact .inl hdigit
  · exact .inr ⟨hsign, d, tail ++ rest, rfl, hdigit⟩

/-- No value starts with a space or ends a list. -/
theorem print_cons {value : Json} (h : Printable value) :
    ∃ c s, print value = c :: s ∧ isSpace c = false ∧ c ≠ closeBracket := by
  cases value with
  | null => exact ⟨_, _, rfl, rfl, by decide⟩
  | bool value => cases value <;> exact ⟨_, _, rfl, rfl, by decide⟩
  | int n =>
    obtain ⟨c, s, heq, hc⟩ := printInt_cons n
    refine ⟨c, s, by rw [print, heq], ?_⟩
    obtain hdigit | ⟨rfl, -⟩ := hc
    · simp only [isDigit, Bool.and_eq_true, decide_eq_true_eq] at hdigit
      refine ⟨?_, show c ≠ 0x5d by omega⟩
      simp only [isSpace, Bool.or_eq_false_iff, beq_eq_false_iff_ne]
      omega
    · exact ⟨rfl, by decide⟩
  | float value => exact h.elim
  | str value => exact ⟨_, _, by rw [print, printString], rfl, by decide⟩
  | arr items => exact ⟨_, _, by rw [print], rfl, by decide⟩
  | obj fields => exact ⟨_, _, by rw [print], rfl, by decide⟩

theorem skipSpace_cons {c : Nat} (h : isSpace c = false) (s : Str) : skipSpace (c :: s) = c :: s := by
  simp [skipSpace, h]

theorem skipSpace_print {value : Json} (h : Printable value) (rest : Str) :
    skipSpace (print value ++ rest) = print value ++ rest := by
  obtain ⟨c, s, heq, hspace, -⟩ := print_cons h
  rw [heq, List.cons_append, skipSpace_cons hspace]

theorem printItems_cons (items : List Json) : ∃ c s, printItems items = c :: s ∧
    isSpace c = false ∧ (c = comma ∨ c = closeBracket) := by
  cases items with
  | nil => exact ⟨_, _, rfl, rfl, .inr rfl⟩
  | cons item items => exact ⟨_, _, rfl, rfl, .inl rfl⟩

theorem printFields_cons (fields : List (Str × Json)) : ∃ c s, printFields fields = c :: s ∧
    isSpace c = false ∧ (c = comma ∨ c = closeBrace) := by
  cases fields with
  | nil => exact ⟨_, _, rfl, rfl, .inr rfl⟩
  | cons field fields =>
    obtain ⟨key, value⟩ := field
    exact ⟨_, _, rfl, rfl, .inl rfl⟩

theorem skipSpace_printItems (items : List Json) (rest : Str) :
    skipSpace (printItems items ++ rest) = printItems items ++ rest := by
  obtain ⟨c, s, heq, hspace, -⟩ := printItems_cons items
  rw [heq, List.cons_append, skipSpace_cons hspace]

theorem skipSpace_printFields (fields : List (Str × Json)) (rest : Str) :
    skipSpace (printFields fields ++ rest) = printFields fields ++ rest := by
  obtain ⟨c, s, heq, hspace, -⟩ := printFields_cons fields
  rw [heq, List.cons_append, skipSpace_cons hspace]

theorem ends_printItems (items : List Json) (rest : Str) : Ends (printItems items ++ rest) := by
  obtain ⟨c, s, heq, -, hc⟩ := printItems_cons items
  rw [heq]
  rintro d hd
  cases hd
  obtain rfl | rfl := hc
  · exact .inl rfl
  · exact .inr (.inl rfl)

theorem ends_printFields (fields : List (Str × Json)) (rest : Str) :
    Ends (printFields fields ++ rest) := by
  obtain ⟨c, s, heq, -, hc⟩ := printFields_cons fields
  rw [heq]
  rintro d hd
  cases hd
  obtain rfl | rfl := hc
  · exact .inl rfl
  · exact .inr (.inr (.inl rfl))

/-- A field of an object: what the scanner reads at its key. -/
theorem scanField_print {key : Str} {value : Json} {fuel : Nat} {rest : Str}
    (hkey : PlainText key) (hspace : skipSpace (print value ++ rest) = print value ++ rest)
    (hvalue : scanValue parseFloat fuel (print value ++ rest) = some (value, rest)) :
    scanField parseFloat (fuel + 1) (printString key ++ colon :: (print value ++ rest)) =
      some ((key, value), rest) := by
  have hstring := scanString_printString hkey (colon :: (print value ++ rest))
  simp only [printString, List.cons_append, List.append_assoc, List.nil_append]
  rw [scanField.eq_def]
  simp only [if_true, hstring, Option.bind_eq_bind, Option.bind_some,
    skipSpace_cons (show isSpace colon = false from rfl), hspace, hvalue]

mutual

theorem scanValue_print : ∀ (value : Json) (fuel : Nat) (rest : Str), Printable value →
    (print value).length < fuel → Ends rest →
    scanValue parseFloat fuel (print value ++ rest) = some (value, rest)
  | value, 0, _, _, hfuel, _ => absurd hfuel (Nat.not_lt_zero _)
  | .null, fuel + 1, rest, _, _, _ => by
    show scanWord parseFloat (text "null" ++ rest) = _
    simp only [scanWord, scanLiteral_self]
    rfl
  | .bool true, fuel + 1, rest, _, _, _ => by
    show scanWord parseFloat (text "true" ++ rest) = _
    simp only [scanWord, scanLiteral_self]
    rfl
  | .bool false, fuel + 1, rest, _, _, _ => by
    show scanWord parseFloat (text "false" ++ rest) = _
    simp only [scanWord, scanLiteral_self]
    rfl
  | .int n, fuel + 1, rest, _, _, hends => by
    obtain ⟨c, s, heq, hc⟩ := printInt_cons n
    have hword := scanWord_printInt parseFloat n hends
    rw [print, heq, List.cons_append] at *
    rw [scanValue.eq_def]
    have hother : c ≠ quote ∧ c ≠ openBracket ∧ c ≠ openBrace := by
      obtain hdigit | ⟨rfl, -⟩ := hc
      · refine ⟨?_, ?_, ?_⟩ <;> (rintro rfl; cases hdigit)
      · decide
    simp only [if_neg hother.1, if_neg hother.2.1, if_neg hother.2.2]
    exact hword
  | .float _, _ + 1, _, hprint, _, _ => hprint.elim
  | .str s, fuel + 1, rest, hprint, _, _ => by
    have hstring := scanString_printString hprint rest
    simp only [print, printString, List.cons_append, List.append_assoc, List.nil_append]
    rw [scanValue.eq_def]
    simp only [if_true, hstring, Option.bind_eq_bind, Option.bind_some]
  | .arr items, fuel + 1, rest, hprint, hfuel, _ => by
    have harray := scanArray_print items fuel rest hprint
      (by simp only [print, List.length_cons] at hfuel; omega)
    simp only [print, List.cons_append]
    rw [scanValue.eq_def]
    simp only [if_true, if_neg (show openBracket ≠ quote by decide), harray.2, harray.1,
      Option.bind_eq_bind, Option.bind_some]
  | .obj fields, fuel + 1, rest, hprint, hfuel, _ => by
    have hobject := scanObject_print fields fuel rest hprint.2
      (by simp only [print, List.length_cons] at hfuel; omega)
    simp only [print, List.cons_append]
    rw [scanValue.eq_def]
    simp only [if_true, if_neg (show openBrace ≠ quote by decide),
      if_neg (show openBrace ≠ openBracket by decide), hobject.2, hobject.1, Option.bind_eq_bind,
      Option.bind_some, if_pos hprint.1]

theorem scanArray_print : ∀ (items : List Json) (fuel : Nat) (rest : Str), PrintableItems items →
    (printArray items).length < fuel →
    scanArray parseFloat fuel (printArray items ++ rest) = some (items, rest) ∧
      skipSpace (printArray items ++ rest) = printArray items ++ rest
  | _, 0, _, _, hfuel => absurd hfuel (Nat.not_lt_zero _)
  | [], fuel + 1, rest, _, _ => ⟨rfl, skipSpace_cons rfl rest⟩
  | item :: items, fuel + 1, rest, hprint, hfuel => by
    simp only [printArray, List.length_append] at hfuel
    obtain ⟨c, s, heq, -, hclose⟩ := print_cons hprint.1
    have hitem_length : 0 < (print item).length := by simp [heq]
    have hitems_length : 0 < (printItems items).length := by
      obtain ⟨c, s, heq, -⟩ := printItems_cons items
      simp [heq]
    have hitem := scanValue_print item fuel (printItems items ++ rest) hprint.1 (by omega)
      (ends_printItems items rest)
    have hitems := scanItems_print items fuel rest hprint.2 (by omega)
    simp only [printArray, List.append_assoc, skipSpace_print hprint.1, and_true]
    rw [heq, List.cons_append] at hitem ⊢
    rw [scanArray.eq_def]
    simp only [if_neg hclose, hitem, Option.bind_eq_bind, Option.bind_some,
      skipSpace_printItems items rest, hitems]

theorem scanItems_print : ∀ (items : List Json) (fuel : Nat) (rest : Str), PrintableItems items →
    (printItems items).length < fuel →
    scanItems parseFloat fuel (printItems items ++ rest) = some (items, rest)
  | _, 0, _, _, hfuel => absurd hfuel (Nat.not_lt_zero _)
  | [], fuel + 1, rest, _, _ => rfl
  | item :: items, fuel + 1, rest, hprint, hfuel => by
    simp only [printItems, List.length_cons, List.length_append] at hfuel
    have hitem := scanValue_print item fuel (printItems items ++ rest) hprint.1 (by omega)
      (ends_printItems items rest)
    have hitems := scanItems_print items fuel rest hprint.2 (by omega)
    simp only [printItems, List.cons_append, List.append_assoc]
    rw [scanItems.eq_def]
    simp only [if_neg (show comma ≠ closeBracket by decide), if_true, skipSpace_print hprint.1,
      hitem, Option.bind_eq_bind, Option.bind_some, skipSpace_printItems items rest, hitems]

theorem scanObject_print : ∀ (fields : List (Str × Json)) (fuel : Nat) (rest : Str),
    PrintableFields fields → (printObject fields).length < fuel →
    scanObject parseFloat fuel (printObject fields ++ rest) = some (fields, rest) ∧
      skipSpace (printObject fields ++ rest) = printObject fields ++ rest
  | _, 0, _, _, hfuel => absurd hfuel (Nat.not_lt_zero _)
  | [], fuel + 1, rest, _, _ => ⟨rfl, skipSpace_cons rfl rest⟩
  | (key, value) :: fields, fuel + 1, rest, ⟨hkey, hvalue, hfields⟩, hfuel => by
    simp only [printObject, printString, List.length_append, List.length_cons] at hfuel
    obtain ⟨fuel, rfl⟩ : ∃ n, fuel = n + 1 := ⟨fuel - 1, by omega⟩
    have hread := scanValue_print value fuel (printFields fields ++ rest) hvalue (by omega)
      (ends_printFields fields rest)
    have hfield := scanField_print parseFloat hkey (skipSpace_print hvalue _) hread
    have hrest := scanFields_print fields (fuel + 1) rest hfields (by omega)
    simp only [printObject, List.append_assoc, List.cons_append]
    constructor
    · rw [printString, List.cons_append] at hfield ⊢
      rw [scanObject.eq_def]
      simp only [if_neg (show quote ≠ closeBrace by decide), hfield, Option.bind_eq_bind,
        Option.bind_some, skipSpace_printFields fields rest, hrest]
    · exact skipSpace_cons rfl _

theorem scanFields_print : ∀ (fields : List (Str × Json)) (fuel : Nat) (rest : Str),
    PrintableFields fields → (printFields fields).length < fuel →
    scanFields parseFloat fuel (printFields fields ++ rest) = some (fields, rest)
  | _, 0, _, _, hfuel => absurd hfuel (Nat.not_lt_zero _)
  | [], fuel + 1, rest, _, _ => rfl
  | (key, value) :: fields, fuel + 1, rest, ⟨hkey, hvalue, hfields⟩, hfuel => by
    simp only [printFields, printString, List.length_append, List.length_cons] at hfuel
    obtain ⟨fuel, rfl⟩ : ∃ n, fuel = n + 1 := ⟨fuel - 1, by omega⟩
    have hread := scanValue_print value fuel (printFields fields ++ rest) hvalue (by omega)
      (ends_printFields fields rest)
    have hfield := scanField_print parseFloat hkey (skipSpace_print hvalue _) hread
    have hrest := scanFields_print fields (fuel + 1) rest hfields (by omega)
    have hspace : ∀ s, skipSpace (printString key ++ s) = printString key ++ s :=
      fun s => skipSpace_cons rfl _
    simp only [printFields, List.append_assoc, List.cons_append]
    rw [scanFields.eq_def]
    simp only [if_neg (show comma ≠ closeBrace by decide), if_true, hspace, hfield,
      Option.bind_eq_bind, Option.bind_some, skipSpace_printFields fields rest, hrest]

end

/-- A written value, with a newline after it, is read back. -/
theorem parse_print {value : Json} (h : Printable value) :
    parse parseFloat (print value ++ [newline]) = some value := by
  have hends : Ends [newline] := by
    rintro c hc
    cases hc
    exact .inr (.inr (.inr rfl))
  have hscan := scanValue_print parseFloat value ((print value ++ [newline]).length + 1) [newline] h
    (by simp only [List.length_append]; omega) hends
  unfold parse
  rw [skipSpace_print h, hscan]
  rfl

end Parser

end Pomodorough.Library.JsonText
