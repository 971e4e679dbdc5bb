import Mathlib.Data.List.Sort
import Mathlib.Data.List.Lex
import Pomodorough.Library.HostJson

/-! # Sameness of JSON values

Two values are the same up to the order of keys. Objects built from sorted entries, what
holds everywhere within a value, and infinities as they are written. -/
namespace Pomodorough.Library.HostJson
open Pomodorough.Library.JsonText (Str)
open Pomodorough.Library.HostNumbers (Number)

section Fields
variable {α β : Type}

/-- A property is created at the end, or replaced where it stands. -/
def createProperty (fields : List (Str × α)) (entry : Str × α) : List (Str × α) :=
  if fields.any fun field => field.1 == entry.1 then
    fields.map fun field => if field.1 = entry.1 then entry else field
  else fields ++ [entry]

def fromEntries (entries : List (Str × α)) : List (Str × α) := entries.foldl createProperty []

/-- Fields in the order of their keys' code units. -/
def sortFields (fields : List (Str × α)) : List (Str × α) :=
  fields.insertionSort fun a b => a.1 ≤ b.1

theorem foldl_createProperty {entries fields : List (Str × α)}
    (h : ((fields ++ entries).map Prod.fst).Nodup) :
    entries.foldl createProperty fields = fields ++ entries := by
  induction entries generalizing fields with
  | nil => simp
  | cons entry entries ih =>
    have hnew : ¬ (fields.any fun field => field.1 == entry.1) = true := by
      rw [List.map_append, List.map_cons, List.nodup_append] at h
      intro hany
      obtain ⟨field, hfield, hkey⟩ := List.any_eq_true.mp hany
      exact h.2.2 _ (List.mem_map_of_mem hfield) _ List.mem_cons_self (eq_of_beq hkey)
    rw [List.foldl_cons, createProperty, if_neg hnew, ih (by simpa using h)]
    simp

theorem fromEntries_eq {entries : List (Str × α)} (h : (entries.map Prod.fst).Nodup) :
    fromEntries entries = entries :=
  foldl_createProperty h

theorem sortFields_perm (fields : List (Str × α)) : (sortFields fields).Perm fields :=
  List.perm_insertionSort _ fields

theorem sortFields_map (f : α → β) (fields : List (Str × α)) :
    sortFields (fields.map (Prod.map id f)) = (sortFields fields).map (Prod.map id f) :=
  (List.map_insertionSort (fun a b : Str × α => a.1 ≤ b.1) (fun a b : Str × β => a.1 ≤ b.1)
    (Prod.map id f) fields fun _ _ _ _ => Iff.rfl).symm

/-- Fields with distinct keys have one order. -/
theorem sortFields_eq_of_perm {fields fields' : List (Str × α)} (h : fields.Perm fields')
    (hkeys : (fields.map Prod.fst).Nodup) : sortFields fields = sortFields fields' := by
  have hperm : (sortFields fields).Perm (sortFields fields') :=
    ((sortFields_perm fields).trans h).trans (sortFields_perm fields').symm
  have hsorted (l : List (Str × α)) : (sortFields l).Pairwise fun a b => a.1 ≤ b.1 :=
    List.pairwise_insertionSort _ l
  refine hperm.eq_of_pairwise ?_ (hsorted fields) (hsorted fields')
  intro a b ha hb hab hba
  have ha' : a ∈ fields := (sortFields_perm fields).mem_iff.mp ha
  have hb' : b ∈ fields := h.mem_iff.mpr ((sortFields_perm fields').mem_iff.mp hb)
  exact List.inj_on_of_nodup_map hkeys ha' hb' (le_antisymm hab hba)

/-- An object built from sorted entries, as its properties are listed. -/
def arranged (fields : List (Str × α)) : List (Str × α) :=
  ownFields (sortFields (ownFields fields))

theorem arranged_perm (fields : List (Str × α)) : (arranged fields).Perm fields :=
  ((ownFields_perm _).trans (sortFields_perm _)).trans (ownFields_perm fields)

theorem arranged_eq_of_perm {fields fields' : List (Str × α)} (h : fields.Perm fields')
    (hkeys : (fields.map Prod.fst).Nodup) : arranged fields = arranged fields' := by
  have hown : (ownFields fields).Perm (ownFields fields') :=
    ((ownFields_perm fields).trans h).trans (ownFields_perm fields').symm
  unfold arranged
  rw [sortFields_eq_of_perm hown (((ownFields_perm fields).map Prod.fst).nodup_iff.mpr hkeys)]

/-- Fields are their keys and their values. -/
theorem fields_ext {fields fields' : List (Str × α)}
    (hkeys : fields.map Prod.fst = fields'.map Prod.fst)
    (hvalues : fields.map Prod.snd = fields'.map Prod.snd) : fields = fields' := by
  have hzip (l : List (Str × α)) : (l.map Prod.fst).zip (l.map Prod.snd) = l := by
    rw [List.zip_map', List.map_id']
  rw [← hzip fields, ← hzip fields', hkeys, hvalues]

theorem keys_map (f : α → β) (fields : List (Str × α)) :
    (fields.map (Prod.map id f)).map Prod.fst = fields.map Prod.fst := by
  rw [List.map_map]
  rfl

theorem values_map (f : α → β) (fields : List (Str × α)) :
    (fields.map (Prod.map id f)).map Prod.snd = (fields.map Prod.snd).map f := by
  rw [List.map_map, List.map_map]
  rfl

end Fields

/-- Lists related pairwise, by what their elements are. -/
theorem forall₂_of_mem {α β : Type} {R S : α → β → Prop} {l : List α} {l' : List β}
    (h : List.Forall₂ R l l') (hS : ∀ a ∈ l, ∀ b ∈ l', R a b → S a b) : List.Forall₂ S l l' := by
  obtain ⟨hlength, hzip⟩ := List.forall₂_iff_zip.mp h
  refine List.forall₂_iff_zip.mpr ⟨hlength, fun {a b} hmem => ?_⟩
  obtain ⟨ha, hb⟩ := List.of_mem_zip hmem
  exact hS a ha b hb (hzip hmem)

/-! ## Everywhere within a value -/

section Everywhere
variable (P : Value → Prop)

mutual

def Everywhere : Value → Prop
  | .array items => P (.array items) ∧ EverywhereItems items
  | .object fields => P (.object fields) ∧ EverywhereFields fields
  | .null => P .null
  | .bool value => P (.bool value)
  | .number value => P (.number value)
  | .infinite negative => P (.infinite negative)
  | .string units => P (.string units)

def EverywhereItems : List Value → Prop
  | [] => True
  | item :: items => Everywhere item ∧ EverywhereItems items

def EverywhereFields : List (Str × Value) → Prop
  | [] => True
  | (_, value) :: fields => Everywhere value ∧ EverywhereFields fields

end

variable {P}

theorem everywhereItems_iff {items : List Value} :
    EverywhereItems P items ↔ ∀ item ∈ items, Everywhere P item := by
  induction items with
  | nil => simp [EverywhereItems]
  | cons item items ih => rw [EverywhereItems, ih, List.forall_mem_cons]

theorem everywhereFields_iff {fields : List (Str × Value)} :
    EverywhereFields P fields ↔ ∀ field ∈ fields, Everywhere P field.2 := by
  induction fields with
  | nil => simp [EverywhereFields]
  | cons field fields ih => rw [EverywhereFields, ih, List.forall_mem_cons]

theorem everywhere_array {items : List Value} :
    Everywhere P (.array items) ↔ P (.array items) ∧ ∀ item ∈ items, Everywhere P item := by
  rw [Everywhere, everywhereItems_iff]

theorem everywhere_object {fields : List (Str × Value)} :
    Everywhere P (.object fields) ↔
      P (.object fields) ∧ ∀ field ∈ fields, Everywhere P field.2 := by
  rw [Everywhere, everywhereFields_iff]

end Everywhere

/-- An object has one property of a key. -/
def HasDistinctKeys : Value → Prop
  | .object fields => (fields.map Prod.fst).Nodup
  | _ => True

def IsFinite : Value → Prop
  | .infinite _ => False
  | _ => True

/-- The same JSON value, up to the order of keys. -/
inductive Same : Value → Value → Prop where
  | null : Same .null .null
  | bool (value : Bool) : Same (.bool value) (.bool value)
  | number (value : Number) : Same (.number value) (.number value)
  | infinite (negative : Bool) : Same (.infinite negative) (.infinite negative)
  | string (units : Str) : Same (.string units) (.string units)
  | array {items items' : List Value} : List.Forall₂ Same items items' →
      Same (.array items) (.array items')
  | object {fields fields' reordered : List (Str × Value)} :
      fields.map Prod.fst = reordered.map Prod.fst →
      List.Forall₂ Same (fields.map Prod.snd) (reordered.map Prod.snd) →
      reordered.Perm fields' → Same (.object fields) (.object fields')

/-! ## Infinities as they are written -/

mutual

def asWritten : Value → Value
  | .array items => .array (asWrittenItems items)
  | .object fields => .object (asWrittenFields fields)
  | .infinite _ => .null
  | .null => .null
  | .bool value => .bool value
  | .number value => .number value
  | .string units => .string units

def asWrittenItems : List Value → List Value
  | [] => []
  | item :: items => asWritten item :: asWrittenItems items

def asWrittenFields : List (Str × Value) → List (Str × Value)
  | [] => []
  | (key, value) :: fields => (key, asWritten value) :: asWrittenFields fields

end

@[simp] theorem asWrittenItems_eq (items : List Value) : asWrittenItems items = items.map asWritten := by
  induction items with
  | nil => rfl
  | cons item items ih => rw [asWrittenItems, ih, List.map_cons]

@[simp] theorem asWrittenFields_eq (fields : List (Str × Value)) :
    asWrittenFields fields = fields.map (Prod.map id asWritten) := by
  induction fields with
  | nil => rfl
  | cons field fields ih => rw [asWrittenFields, ih, List.map_cons]; rfl

theorem isFinite_asWritten (value : Value) : Everywhere IsFinite (asWritten value) := by
  induction value using Value.induct with
  | array items ih =>
    rw [asWritten, asWrittenItems_eq, everywhere_array]
    exact ⟨trivial, List.forall_mem_map.mpr ih⟩
  | object fields ih =>
    rw [asWritten, asWrittenFields_eq, everywhere_object]
    exact ⟨trivial, List.forall_mem_map.mpr ih⟩
  | null | bool | number | infinite | string => exact trivial

theorem hasDistinctKeys_asWritten (value : Value) (h : Everywhere HasDistinctKeys value) :
    Everywhere HasDistinctKeys (asWritten value) := by
  induction value using Value.induct with
  | array items ih =>
    obtain ⟨-, hitems⟩ := everywhere_array.mp h
    rw [asWritten, asWrittenItems_eq, everywhere_array]
    exact ⟨trivial, List.forall_mem_map.mpr fun item hitem => ih item hitem (hitems item hitem)⟩
  | object fields ih =>
    obtain ⟨hkeys, hfields⟩ := everywhere_object.mp h
    rw [asWritten, asWrittenFields_eq, everywhere_object]
    refine ⟨?_, List.forall_mem_map.mpr fun field hfield => ih field hfield (hfields field hfield)⟩
    rw [HasDistinctKeys, keys_map]
    exact hkeys
  | null | bool | number | infinite | string => exact trivial

theorem asWritten_of_isFinite (value : Value) (h : Everywhere IsFinite value) :
    asWritten value = value := by
  induction value using Value.induct with
  | array items ih =>
    obtain ⟨-, hitems⟩ := everywhere_array.mp h
    rw [asWritten, asWrittenItems_eq,
      List.map_congr_left fun item hitem => ih item hitem (hitems item hitem), List.map_id']
  | object fields ih =>
    obtain ⟨-, hfields⟩ := everywhere_object.mp h
    have hsame : ∀ field ∈ fields, Prod.map id asWritten field = field :=
      fun field hfield => Prod.ext rfl (ih field hfield (hfields field hfield))
    rw [asWritten, asWrittenFields_eq, List.map_congr_left hsame, List.map_id']
  | infinite => exact h.elim
  | null | bool | number | string => rfl

end Pomodorough.Library.HostJson
