import Mathlib.Algebra.Ring.Int.Defs
import Mathlib.Data.List.Basic
import Mathlib.Data.List.TakeDrop

/-! # JSON objects as they are written

An object is the list of its members, which may repeat a name or spell it in
another case. A decoder into a struct takes every member whose name is that of a
field up to case, one after the other; a decoder into a map takes the last
member of each name. -/
namespace Pomodorough.Library.JsonObjects

/-- A number is kept as it is written. -/
inductive JsonValue where
  | null
  | bool (value : Bool)
  | number (literal : List Char)
  | string (value : String)
  | array (values : List JsonValue)
  | object (members : List (String × JsonValue))

abbrev Member := String × JsonValue

/-- The object that a decoder reads. -/
abbrev JsonObject := List Member

def JsonValue.isNull : JsonValue → Bool
  | .null => true
  | _ => false

/-- The text of a string. -/
def JsonValue.text : JsonValue → Option String
  | .string value => some value
  | _ => none

/-! ## Names -/

/-- The case folding of a character. Beside the letters themselves, the long s
and the Kelvin sign fold to ASCII; what other characters fold to is not in the
name of any field. -/
def foldRune (c : Char) : Char :=
  if 'a' ≤ c ∧ c ≤ 'z' then c.toUpper
  else if c = '\u017f' then 'S'
  else if c = '\u212a' then 'K'
  else c

def foldName (name : String) : List Char := name.toList.map foldRune

/-- The field a name stands for: the one of this name, or the first of this name
up to case. -/
def fieldNamed {φ : Type} (name : φ → String) (fields : List φ) (key : String) : Option φ :=
  match fields.find? fun field => name field = key with
  | some field => some field
  | none => fields.find? fun field => foldName (name field) = foldName key

/-- The value a map has under a name. -/
def lastNamed (key : String) : JsonObject → Option JsonValue
  | [] => none
  | (name, value) :: members =>
    match lastNamed key members with
    | some later => some later
    | none => if name = key then some value else none

/-- What is written under the names of a field, where it is text. -/
def textsOf (isField : String → Bool) : JsonObject → List String
  | [] => []
  | (name, value) :: members =>
    if isField name then value.text.toList ++ textsOf isField members else textsOf isField members

/-! ## Values -/

/-- Why a value is refused. -/
inductive DecodeError where
  | unknownField (key : String)
  | unmarshalType (field : String)
  | invalidNumber (field : String)
  deriving DecidableEq, Repr

abbrev Decoded := Except DecodeError

/-- A string field keeps its value where it is given null. -/
def decodeString (field current : String) : JsonValue → Decoded String
  | .string value => .ok value
  | .null => .ok current
  | _ => .error (.unmarshalType field)

def digitsValue (digits : List Char) : Option Nat :=
  if digits ≠ [] ∧ digits.all Char.isDigit then
    some (digits.foldl (fun n c => 10 * n + (c.toNat - '0'.toNat)) 0)
  else none

/-- `strconv.ParseInt(literal, 10, 64)` of a JSON number. -/
def parseInt64 (literal : List Char) : Option Int :=
  let value : Option Int := match literal with
    | '-' :: digits => (digitsValue digits).map fun n => -(n : Int)
    | digits => (digitsValue digits).map Int.ofNat
  value.filter fun n => -2 ^ 63 ≤ n && n < 2 ^ 63

/-- A pointer to an integer, which null resets. -/
def decodeInt64 (field : String) : JsonValue → Decoded (Option Int)
  | .null => .ok none
  | .number literal =>
    match parseInt64 literal with
    | some n => .ok (some n)
    | none => .error (.invalidNumber field)
  | _ => .error (.unmarshalType field)

section
variable {isField : String → Bool} {name key : String} {value : JsonValue} {members : JsonObject}

theorem decodeString_ok {field current result : String}
    (h : decodeString field current value = .ok result) :
    result = value.text.getD current := by
  cases value with
  | string text =>
    cases h
    rfl
  | null =>
    cases h
    rfl
  | bool => cases h
  | number => cases h
  | array => cases h
  | object => cases h

/-- The value of a map is written under its name. -/
theorem mem_of_lastNamed (h : lastNamed key members = some value) : (key, value) ∈ members := by
  induction members with
  | nil => cases h
  | cons member members ih =>
    obtain ⟨name, first⟩ := member
    unfold lastNamed at h
    split at h
    next later hlater =>
      cases h
      exact List.mem_cons_of_mem _ (ih hlater)
    next =>
      split at h
      next hname =>
        cases h
        rw [hname]
        exact List.mem_cons_self
      next => cases h

theorem mem_textsOf {text : String} :
    text ∈ textsOf isField members ↔ ∃ name, isField name = true ∧ (name, .string text) ∈ members := by
  induction members with
  | nil => simp [textsOf]
  | cons member members ih =>
    obtain ⟨first, value⟩ := member
    have htext : text ∈ value.text.toList ↔ value = .string text := by
      cases value <;> simp [JsonValue.text]
      exact eq_comm
    unfold textsOf
    constructor
    · intro h
      split at h
      next hfirst =>
        rcases List.mem_append.mp h with h | h
        · refine ⟨first, hfirst, ?_⟩
          rw [htext.mp h]
          exact List.mem_cons_self
        · obtain ⟨name, hname, hmem⟩ := ih.mp h
          exact ⟨name, hname, List.mem_cons_of_mem _ hmem⟩
      next =>
        obtain ⟨name, hname, hmem⟩ := ih.mp h
        exact ⟨name, hname, List.mem_cons_of_mem _ hmem⟩
    · intro h
      obtain ⟨name, hname, hmem⟩ := h
      rcases List.mem_cons.mp hmem with heq | hmem
      · obtain ⟨rfl, rfl⟩ := Prod.mk.inj heq
        simp [hname, JsonValue.text]
      · have hlater := ih.mpr ⟨name, hname, hmem⟩
        split
        · exact List.mem_append_right _ hlater
        · exact hlater

end

end Pomodorough.Library.JsonObjects
