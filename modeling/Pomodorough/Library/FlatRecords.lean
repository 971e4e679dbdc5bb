import Mathlib.Algebra.Ring.Nat
import Pomodorough.Library.OrderedMaps
import Pomodorough.Library.TextBytes

/-! # Flat records

Objects whose values are texts and integers, written as canonical JSON. They are read
back with their fields in the order of keys, and how long they are does not depend on
the order the fields are given in. -/
namespace Pomodorough.Library.FlatRecords
open Pomodorough.Library.JsonText Pomodorough.Library.TextBytes

/-- Text that is written without an escape. -/
def Bare (s : Str) : Prop := ∀ c ∈ s, 0x20 ≤ c ∧ c ≤ 0x7e ∧ c ≠ quote ∧ c ≠ backslash

instance (s : Str) : Decidable (Bare s) :=
  inferInstanceAs (Decidable (∀ c ∈ s, 0x20 ≤ c ∧ c ≤ 0x7e ∧ c ≠ quote ∧ c ≠ backslash))

inductive Scalar : Json → Prop where
  | str {s : Str} (h : Bare s) : Scalar (.str s)
  | int (n : Int) : Scalar (.int n)

structure Flat (fields : List (Str × Json)) : Prop where
  distinct : (fields.map Prod.fst).Nodup
  bare : ∀ e ∈ fields, Bare e.1 ∧ Scalar e.2

/-- The length of a record's fields, each with a colon, a comma and the quotes of its key. -/
def size (fields : List (Str × Json)) : Nat :=
  (fields.map fun e => e.1.length + (print e.2).length + 4).sum

@[simp] theorem size_nil : size [] = 0 := rfl

@[simp] theorem size_cons (e : Str × Json) (fields : List (Str × Json)) :
    size (e :: fields) = e.1.length + (print e.2).length + 4 + size fields := by
  simp [size]

section Text
variable {s : Str} {c : Nat}

theorem Bare.plain (h : Bare s) : PlainText s := by
  intro c hc
  obtain ⟨-, hle, -⟩ := h c hc
  refine ⟨by omega, ?_⟩
  have hlow : ¬ 0xd800 ≤ c := by omega
  simp [isHighSurrogate, hlow]

theorem escape_bare (hlow : 0x20 ≤ c) (hhigh : c ≤ 0x7e) (hquote : c ≠ quote)
    (hbackslash : c ≠ backslash) : escape c = [c] := by
  have hshort : shortEscapes.lookup c = none := by
    rw [OrderedMaps.lookup_none_iff]
    simp only [shortEscapes, List.map_cons, List.map_nil, List.mem_cons, List.not_mem_nil, not_or]
    exact ⟨hquote, hbackslash, by omega, by omega, by omega, by omega, by omega, not_false⟩
  simp [escape, hshort, hlow, hhigh]

theorem printString_bare (h : Bare s) : printString s = quote :: (s ++ [quote]) := by
  have hescape : s.flatMap escape = s := by
    induction s with
    | nil => rfl
    | cons c s ih =>
      obtain ⟨⟨hlow, hhigh, hquote, hbackslash⟩, hrest⟩ := List.forall_mem_cons.mp h
      rw [List.flatMap_cons, escape_bare hlow hhigh hquote hbackslash, ih hrest]
      rfl
  rw [printString, hescape]

theorem length_printString (h : Bare s) : (printString s).length = s.length + 2 := by
  simp [printString_bare h]

end Text

section Records
variable {fields fields' : List (Str × Json)} {value : Json}

theorem Scalar.sortKeys_eq (h : Scalar value) : sortKeys value = value := by
  cases h <;> rfl

theorem Scalar.printable (h : Scalar value) : Printable value := by
  cases h with
  | str h => exact h.plain
  | int n => trivial

theorem Flat.sortValues_eq (h : ∀ e ∈ fields, Bare e.1 ∧ Scalar e.2) :
    sortValues fields = fields := by
  induction fields with
  | nil => rfl
  | cons e fields ih =>
    obtain ⟨⟨-, hvalue⟩, hrest⟩ := List.forall_mem_cons.mp h
    rw [sortValues, hvalue.sortKeys_eq, ih hrest]

theorem sortFields_perm (fields : List (Str × Json)) : (sortFields fields).Perm fields :=
  List.perm_insertionSort _ fields

theorem Flat.sortKeys_eq (h : Flat fields) : sortKeys (.obj fields) = .obj (sortFields fields) := by
  rw [sortKeys, Flat.sortValues_eq h.bare]

theorem Flat.perm (h : Flat fields) (hperm : fields'.Perm fields) : Flat fields' where
  distinct := (hperm.map Prod.fst).nodup_iff.mpr h.distinct
  bare e he := h.bare e (hperm.mem_iff.mp he)

theorem Flat.snoc {key : Str} (h : Flat fields) (hkey : key ∉ fields.map Prod.fst)
    (hbare : Bare key) (hvalue : Scalar value) : Flat (fields ++ [(key, value)]) where
  distinct := by
    rw [List.map_append, List.nodup_append]
    refine ⟨h.distinct, List.nodup_singleton key, ?_⟩
    intro k hk k' hk' heq
    rw [heq, List.mem_singleton.mp hk'] at hk
    exact hkey hk
  bare e he := by
    obtain he | he := List.mem_append.mp he
    · exact h.bare e he
    · rw [List.mem_singleton.mp he]
      exact ⟨hbare, hvalue⟩

theorem printableFields_of_bare (h : ∀ e ∈ fields, Bare e.1 ∧ Scalar e.2) :
    PrintableFields fields := by
  induction fields with
  | nil => trivial
  | cons e fields ih =>
    obtain ⟨⟨hkey, hvalue⟩, hrest⟩ := List.forall_mem_cons.mp h
    exact ⟨hkey.plain, hvalue.printable, ih hrest⟩

theorem Flat.printable (h : Flat fields) : Printable (.obj fields) :=
  ⟨h.distinct, printableFields_of_bare h.bare⟩

/-- A flat record is read back as it was written. -/
theorem Flat.loads (h : Flat fields) (parseFloat : Str → Double) :
    loads parseFloat (canonicalJson (.obj fields)) = some (.obj (sortFields fields)) := by
  have hsorted := h.perm (sortFields_perm fields)
  rw [loads_canonicalJson parseFloat (h.sortKeys_eq ▸ hsorted.printable), h.sortKeys_eq]

theorem size_perm (hperm : fields'.Perm fields) : size fields' = size fields :=
  (hperm.map _).sum_nat

theorem length_printFields (h : ∀ e ∈ fields, Bare e.1 ∧ Scalar e.2) :
    (printFields fields).length = size fields + 1 := by
  induction fields with
  | nil => rfl
  | cons e fields ih =>
    obtain ⟨⟨hkey, -⟩, hrest⟩ := List.forall_mem_cons.mp h
    rw [printFields, List.length_cons, List.length_append, length_printString hkey,
      List.length_cons, List.length_append, ih hrest, size_cons]
    omega

theorem length_printObject (h : ∀ e ∈ fields, Bare e.1 ∧ Scalar e.2) :
    (print (.obj fields)).length ≤ size fields + 2 := by
  cases fields with
  | nil => exact Nat.le_refl 2
  | cons e fields =>
    obtain ⟨⟨hkey, -⟩, hrest⟩ := List.forall_mem_cons.mp h
    rw [print, List.length_cons, printObject, List.length_append, length_printString hkey,
      List.length_cons, List.length_append, length_printFields hrest, size_cons]
    omega

theorem Flat.length_canonicalJson (h : Flat fields) :
    (canonicalJson (.obj fields)).length ≤ size fields + 3 := by
  have hsorted := h.perm (sortFields_perm fields)
  have hlength := length_printObject hsorted.bare
  rw [size_perm (sortFields_perm fields)] at hlength
  rw [canonicalJson, h.sortKeys_eq, encode, List.length_map, List.length_append]
  exact Nat.succ_le_succ hlength

end Records

end Pomodorough.Library.FlatRecords
