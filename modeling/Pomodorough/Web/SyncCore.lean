import Mathlib.Algebra.Ring.Nat
import Pomodorough.Library.Fallible

/-! # What the browser accepts

The checks of `sync-core.js`: that every operation it sent is acknowledged once,
that a text is a date-time, that a clock sample is one. The payload is whatever
the server's JSON parses to. -/
namespace Pomodorough.Web.SyncCore
open Pomodorough.Library.Fallible

def ackOutcomes : List String := ["applied", "ignored", "rejected"]

/-- The fields that are read of an acknowledgement; `none` is anything but a
string. -/
structure Acknowledgement where
  id : Option String
  outcome : Option String
  reason : Option String
  deriving DecidableEq, Repr

/-- The payload's field: null or absent, no array, or an array. -/
inductive AcknowledgementField where
  | nullish
  | other
  | array (acknowledgements : List Acknowledgement)
  deriving DecidableEq, Repr

/-- The loop of `exactAcknowledgements`, with the ids acknowledged so far. -/
def exactAcknowledgementsFrom (field : String) (expectedIds : List String) :
    List String → List Acknowledgement → Except String (List String)
  | acknowledgedIds, [] => .ok acknowledgedIds
  | acknowledgedIds, acknowledgement :: acknowledgements =>
    match acknowledgement.id with
    | none => .error ("Sync response returned an invalid " ++ field ++ " set.")
    | some id => do
      check (id ∈ expectedIds ∧ id ∉ acknowledgedIds ∧
          (∃ outcome ∈ ackOutcomes, acknowledgement.outcome = some outcome) ∧
          acknowledgement.reason.isSome)
        ("Sync response returned an invalid " ++ field ++ " set.")
      exactAcknowledgementsFrom field expectedIds (acknowledgedIds ++ [id]) acknowledgements

/-- `exactAcknowledgements`. The sent items count by their ids. -/
def exactAcknowledgements (payload : AcknowledgementField) (field : String)
    (sentItems : Option (List String)) :
    Except String (List Acknowledgement × List String) :=
  match payload with
  | .nullish =>
    if sentItems = none then .ok ([], [])
    else .error ("Sync response omitted " ++ field ++ ".")
  | .other => .error ("Sync response omitted " ++ field ++ ".")
  | .array acknowledgements => do
    let expectedIds := sentItems.getD []
    check (expectedIds.Nodup ∧ acknowledgements.length = expectedIds.length)
      ("Sync response returned an invalid " ++ field ++ " set.")
    let acknowledgedIds ← exactAcknowledgementsFrom field expectedIds [] acknowledgements
    .ok (acknowledgements, acknowledgedIds)

section
variable {field : String} {sent acknowledged ids : List String}
  {acknowledgements : List Acknowledgement}

/-- An acknowledgement of the form the browser reads. -/
def Acknowledgement.WellFormed (acknowledgement : Acknowledgement) : Prop :=
  (∃ outcome ∈ ackOutcomes, acknowledgement.outcome = some outcome) ∧
    acknowledgement.reason.isSome = true

theorem exactAcknowledgementsFrom_ok
    (hids : acknowledgements.map Acknowledgement.id = ids.map some)
    (hform : ∀ acknowledgement ∈ acknowledgements, acknowledgement.WellFormed)
    (hsent : ids ⊆ sent) (hnodup : (acknowledged ++ ids).Nodup) :
    exactAcknowledgementsFrom field sent acknowledged acknowledgements = .ok (acknowledged ++ ids) := by
  induction acknowledgements generalizing acknowledged ids with
  | nil =>
    have hnil : ids = [] := by simpa using hids.symm
    simp [exactAcknowledgementsFrom, hnil]
  | cons acknowledgement acknowledgements ih =>
    cases ids with
    | nil => simp at hids
    | cons id ids =>
      rw [List.map_cons, List.map_cons, List.cons.injEq] at hids
      obtain ⟨hid, hids⟩ := hids
      obtain ⟨houtcome, hreason⟩ := hform acknowledgement (by simp)
      have hnew : id ∉ acknowledged := fun hmem =>
        (List.nodup_append.mp hnodup).2.2 id hmem id (by simp) rfl
      have hnodup' : ((acknowledged ++ [id]) ++ ids).Nodup := by simpa using hnodup
      have hrest := ih hids (fun a ha => hform a (List.mem_cons_of_mem acknowledgement ha))
        (fun x hx => hsent (List.mem_cons_of_mem id hx)) hnodup'
      unfold exactAcknowledgementsFrom
      rw [hid]
      refine bind_ok_iff.mpr ⟨(), check_ok_iff.mpr ⟨hsent (by simp), hnew, houtcome, hreason⟩, ?_⟩
      rw [hrest, List.append_assoc, List.singleton_append]

/-- Well-formed acknowledgements of the sent ids, once each and in order, are
accepted. -/
theorem exactAcknowledgements_ok
    (hids : acknowledgements.map Acknowledgement.id = sent.map some)
    (hform : ∀ acknowledgement ∈ acknowledgements, acknowledgement.WellFormed)
    (hnodup : sent.Nodup) :
    exactAcknowledgements (.array acknowledgements) field (some sent) =
      .ok (acknowledgements, sent) := by
  have hlength : acknowledgements.length = sent.length := by
    simpa using congrArg List.length hids
  have hloop : exactAcknowledgementsFrom field sent [] acknowledgements = .ok ([] ++ sent) :=
    exactAcknowledgementsFrom_ok hids hform (List.Subset.refl sent) hnodup
  refine bind_ok_iff.mpr ⟨(), check_ok_iff.mpr ⟨hnodup, hlength⟩, ?_⟩
  exact bind_ok_iff.mpr ⟨sent, hloop, rfl⟩

end

/-- `Number.isSafeInteger`. -/
def isSafeInteger (n : Int) : Bool := -9007199254740991 ≤ n && n ≤ 9007199254740991

/-! ## Date-times -/

/-- `\d{n}`, and what follows it. -/
def digits : Nat → List Char → Option (Nat × List Char)
  | 0, text => some (0, text)
  | n + 1, c :: text => do
    guard c.isDigit
    let (rest, text) ← digits n text
    some ((c.toNat - '0'.toNat) * 10 ^ n + rest, text)
  | _ + 1, [] => none

/-- One of the characters, and what follows it. -/
def oneOf (allowed : List Char) : List Char → Option (Char × List Char)
  | c :: text => if c ∈ allowed then some (c, text) else none
  | [] => none

/-- `(?:\.(\d+))?`. -/
def fractionOf : List Char → Option (List Char × List Char)
  | '.' :: text =>
    match text.takeWhile Char.isDigit with
    | [] => none
    | fraction => some (fraction, text.dropWhile Char.isDigit)
  | text => some ([], text)

/-- `([Zz]|([+-])(\d{2}):(\d{2}))$`: the sign, the hours and the minutes. -/
def offsetOf (text : List Char) : Option (Int × Nat × Nat) :=
  match text with
  | ['Z'] | ['z'] => some (0, 0, 0)
  | _ => do
    let (sign, text) ← oneOf ['+', '-'] text
    let (offsetHour, text) ← digits 2 text
    let (_, text) ← oneOf [':'] text
    let (offsetMinute, text) ← digits 2 text
    guard (text = [])
    some (if sign = '+' then 1 else -1, offsetHour, offsetMinute)

def leapYear (year : Nat) : Bool := year % 4 = 0 ∧ (year % 100 ≠ 0 ∨ year % 400 = 0)

def daysInMonth (year month : Nat) : Nat :=
  if month = 2 then (if leapYear year then 29 else 28)
  else if month ∈ [4, 6, 9, 11] then 30 else 31

/-- `parseDateTime`, as far as to say that the text has a date-time. -/
def validDateTime (value : String) : Bool :=
  (do
    let (year, text) ← digits 4 value.toList
    let (_, text) ← oneOf ['-'] text
    let (month, text) ← digits 2 text
    let (_, text) ← oneOf ['-'] text
    let (day, text) ← digits 2 text
    let (_, text) ← oneOf ['T', 't'] text
    let (hour, text) ← digits 2 text
    let (_, text) ← oneOf [':'] text
    let (minute, text) ← digits 2 text
    let (_, text) ← oneOf [':'] text
    let (second, text) ← digits 2 text
    let (_, text) ← fractionOf text
    let (_, offsetHour, offsetMinute) ← offsetOf text
    guard (1 ≤ month ∧ month ≤ 12 ∧ 1 ≤ day ∧ day ≤ daysInMonth year month ∧ hour ≤ 23 ∧
      minute ≤ 59 ∧ second ≤ 59 ∧ offsetHour ≤ 23 ∧ offsetMinute ≤ 59)).isSome

example : validDateTime "2024-02-29T23:59:59.5+01:00" = true ∧
    validDateTime "2023-02-29T00:00:00Z" = false := by decide +kernel

end Pomodorough.Web.SyncCore
