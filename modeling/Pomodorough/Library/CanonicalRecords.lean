import Pomodorough.Library.FlatRecords

/-! # Canonical records

Values nested to any depth, written as canonical JSON. What is read back is the value with
the fields of every object in the order of their keys, and a field is found there as it was
given. -/
namespace Pomodorough.Library.CanonicalRecords
open Pomodorough.Library.JsonText Pomodorough.Library.TextBytes Pomodorough.Library.FlatRecords
open Pomodorough.Library.OrderedMaps

instance (s : Str) : Decidable (PlainText s) :=
  inferInstanceAs (Decidable (∀ c ∈ s, c < 0x110000 ∧ isHighSurrogate c = false))

/-- The fields of an object as they are read back. -/
def sorted (fields : List (Str × Json)) : List (Str × Json) := sortFields (sortValues fields)

section Fields
variable {fields fields' : List (Str × Json)} {items : List Json}

theorem printableFields_iff :
    PrintableFields fields ↔ ∀ e ∈ fields, PlainText e.1 ∧ Printable e.2 := by
  induction fields with
  | nil => simp [PrintableFields]
  | cons e fields ih =>
    obtain ⟨key, value⟩ := e
    rw [PrintableFields, ih, List.forall_mem_cons, and_assoc]

theorem printableItems_iff : PrintableItems items ↔ ∀ item ∈ items, Printable item := by
  induction items with
  | nil => simp [PrintableItems]
  | cons item items ih => rw [PrintableItems, ih, List.forall_mem_cons]

theorem printableFields_perm (hperm : fields'.Perm fields) (h : PrintableFields fields) :
    PrintableFields fields' := by
  rw [printableFields_iff] at h ⊢
  exact fun e he => h e (hperm.mem_iff.mp he)

theorem sortItems_eq_map (items : List Json) : sortItems items = items.map sortKeys := by
  induction items with
  | nil => rfl
  | cons item items ih => rw [sortItems, ih, List.map_cons]

theorem keys_sortValues (fields : List (Str × Json)) :
    (sortValues fields).map Prod.fst = fields.map Prod.fst := by
  induction fields with
  | nil => rfl
  | cons e fields ih => rw [sortValues, List.map_cons, ih, List.map_cons]

theorem keys_sorted_perm (fields : List (Str × Json)) :
    ((sorted fields).map Prod.fst).Perm (fields.map Prod.fst) := by
  rw [← keys_sortValues fields]
  exact (sortFields_perm _).map Prod.fst

theorem length_sorted (fields : List (Str × Json)) : (sorted fields).length = fields.length := by
  have hlength := (keys_sorted_perm fields).length_eq
  rwa [List.length_map, List.length_map] at hlength

theorem lookup_sortValues (fields : List (Str × Json)) (key : Str) :
    (sortValues fields).lookup key = (fields.lookup key).map sortKeys := by
  induction fields with
  | nil => rfl
  | cons e fields ih =>
    rw [sortValues, List.lookup_cons, List.lookup_cons]
    cases key == e.1 with
    | true => rfl
    | false => exact ih

/-- A field is found in the object that is read back. -/
theorem lookup_sorted (h : (fields.map Prod.fst).Nodup) (key : Str) :
    (sorted fields).lookup key = (fields.lookup key).map sortKeys := by
  rw [sorted, lookup_perm (sortFields_perm _).symm ((keys_sortValues fields).symm ▸ h),
    lookup_sortValues]

end Fields

/-! ## What is read back can be written again -/

mutual

theorem printable_sortKeys : ∀ value : Json, Printable value → Printable (sortKeys value)
  | .null, h => h
  | .bool _, h => h
  | .int _, h => h
  | .float _, h => h
  | .str _, h => h
  | .arr items, h => printableItems_sortItems items h
  | .obj fields, h => ⟨(keys_sorted_perm fields).nodup_iff.mpr h.1,
      printableFields_perm (sortFields_perm _) (printableFields_sortValues fields h.2)⟩

theorem printableItems_sortItems : ∀ items : List Json, PrintableItems items →
    PrintableItems (sortItems items)
  | [], h => h
  | item :: items, h => ⟨printable_sortKeys item h.1, printableItems_sortItems items h.2⟩

theorem printableFields_sortValues : ∀ fields : List (Str × Json), PrintableFields fields →
    PrintableFields (sortValues fields)
  | [], h => h
  | (_, value) :: fields, h =>
    ⟨h.1, printable_sortKeys value h.2.1, printableFields_sortValues fields h.2.2⟩

end

/-- A value is read back as it was written. -/
theorem loads_written (parseFloat : Str → Double) {value : Json} (h : Printable value) :
    loads parseFloat (canonicalJson value) = some (sortKeys value) :=
  loads_canonicalJson parseFloat (printable_sortKeys value h)

end Pomodorough.Library.CanonicalRecords
