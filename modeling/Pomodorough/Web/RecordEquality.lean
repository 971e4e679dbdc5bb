import Pomodorough.Library.JsonSameness

/-! # Equality of records

`canonicalJSON` and `recordsEqual` of `workspace-core.js`. Stored claims are compared by
the texts of their values with every object's keys sorted. -/
namespace Pomodorough.Web.RecordEquality
open Pomodorough.Library.JsonText (Str text)
open Pomodorough.Library.HostJson

mutual

def canonicalJSON : Value → Value
  | .array items => .array (canonicalItems items)
  | .object fields => .object (fromEntries (sortFields (ownFields (canonicalFields fields))))
  | .null => .null
  | .bool value => .bool value
  | .number value => .number value
  | .infinite negative => .infinite negative
  | .string units => .string units

def canonicalItems : List Value → List Value
  | [] => []
  | item :: items => canonicalJSON item :: canonicalItems items

def canonicalFields : List (Str × Value) → List (Str × Value)
  | [] => []
  | (key, value) :: fields => (key, canonicalJSON value) :: canonicalFields fields

end

def recordsEqual (left right : Value) : Bool :=
  stringify (canonicalJSON left) == stringify (canonicalJSON right)

@[simp] theorem canonicalItems_eq (items : List Value) :
    canonicalItems items = items.map canonicalJSON := by
  induction items with
  | nil => rfl
  | cons item items ih => rw [canonicalItems, ih, List.map_cons]

@[simp] theorem canonicalFields_eq (fields : List (Str × Value)) :
    canonicalFields fields = fields.map (Prod.map id canonicalJSON) := by
  induction fields with
  | nil => rfl
  | cons field fields ih => rw [canonicalFields, ih, List.map_cons]; rfl

/-! ## Canonical values as they are listed -/

def listed (value : Value) : Value := ordered (canonicalJSON value)

theorem recordsEqual_iff_listed {left right : Value} :
    recordsEqual left right = true ↔ listed left = listed right := by
  rw [recordsEqual, beq_iff_eq, stringify_eq_iff]
  rfl

theorem listed_array (items : List Value) :
    listed (.array items) = .array (items.map listed) := by
  simp only [listed, canonicalJSON, canonicalItems_eq, ordered, orderedItems_eq, List.map_map]
  rfl

theorem listed_object {fields : List (Str × Value)} (h : HasDistinctKeys (.object fields)) :
    listed (.object fields) = .object (arranged (fields.map (Prod.map id listed))) := by
  have hkeys : ((sortFields (ownFields (fields.map (Prod.map id canonicalJSON)))).map
      Prod.fst).Nodup := by
    have hperm := (sortFields_perm _).trans (ownFields_perm (fields.map (Prod.map id canonicalJSON)))
    rw [(hperm.map Prod.fst).nodup_iff, keys_map]
    exact h
  simp only [listed, canonicalJSON, canonicalFields_eq, ordered, orderedFields_eq]
  rw [fromEntries_eq hkeys, ← sortFields_map, ← ownFields_map, List.map_map]
  rfl

theorem listed_object_iff {fields fields' : List (Str × Value)}
    (h : HasDistinctKeys (.object fields)) (h' : HasDistinctKeys (.object fields')) :
    listed (.object fields) = listed (.object fields') ↔
      (fields.map (Prod.map id listed)).Perm (fields'.map (Prod.map id listed)) := by
  rw [listed_object h, listed_object h', Value.object.injEq]
  constructor
  · intro heq
    exact ((arranged_perm _).symm.trans (List.Perm.of_eq heq)).trans (arranged_perm _)
  · intro hperm
    exact arranged_eq_of_perm hperm (by rw [keys_map]; exact h)

/-! ## What is listed alike is the same -/

/-- A value as a record holds it: no object names a key twice. -/
structure JsonValue where
  value : Value
  distinct : Everywhere HasDistinctKeys value

theorem kind_listed (value : Value) : (listed value).kind = value.kind := by
  cases value <;> rfl

theorem map_listed_eq_iff {values values' : List Value} :
    values.map listed = values'.map listed ↔
      List.Forall₂ (fun value value' => listed value = listed value') values values' := by
  rw [← List.forall₂_eq_eq_eq, List.forall₂_map_left_iff, List.forall₂_map_right_iff]

theorem same_of_listed (value : Value) (hfinite : Everywhere IsFinite value)
    (hdistinct : Everywhere HasDistinctKeys value) :
    ∀ value', Everywhere IsFinite value' → Everywhere HasDistinctKeys value' →
      listed value = listed value' → Same value value' := by
  induction value using Value.induct with
  | array items ih =>
    intro value' hfinite' hdistinct' h
    have hkind := congrArg Value.kind h
    rw [kind_listed, kind_listed] at hkind
    cases value' <;> simp only [Value.kind, reduceCtorEq] at hkind
    rw [listed_array, listed_array, Value.array.injEq, map_listed_eq_iff] at h
    rw [everywhere_array] at hfinite hdistinct hfinite' hdistinct'
    refine .array (forall₂_of_mem h fun item hitem item' hitem' hlisted => ?_)
    exact ih item hitem (hfinite.2 item hitem) (hdistinct.2 item hitem) item'
      (hfinite'.2 item' hitem') (hdistinct'.2 item' hitem') hlisted
  | object fields ih =>
    intro value' hfinite' hdistinct' h
    have hkind := congrArg Value.kind h
    rw [kind_listed, kind_listed] at hkind
    cases value' <;> simp only [Value.kind, reduceCtorEq] at hkind
    rename_i fields'
    rw [everywhere_object] at hfinite hdistinct hfinite' hdistinct'
    have hperm := (listed_object_iff hdistinct.1 hdistinct'.1).mp h
    have hcomp := List.eq_map_comp_perm (Prod.map (id : Str → Str) listed)
    obtain ⟨reordered, hreordered, hperm⟩ := (congrFun (congrFun hcomp _) fields').mpr hperm
    have hkeys := congrArg (List.map Prod.fst) hreordered
    have hvalues := congrArg (List.map Prod.snd) hreordered
    rw [keys_map, keys_map] at hkeys
    rw [values_map, values_map, map_listed_eq_iff] at hvalues
    refine .object hkeys (forall₂_of_mem hvalues ?_) hperm
    refine List.forall_mem_map.mpr fun field hfield => List.forall_mem_map.mpr ?_
    intro field' hfield' hlisted
    have hmem := hperm.mem_iff.mp hfield'
    exact ih field hfield (hfinite.2 field hfield) (hdistinct.2 field hfield) field'.2
      (hfinite'.2 field' hmem) (hdistinct'.2 field' hmem) hlisted
  | infinite => exact hfinite.elim
  | null =>
    intro value' hfinite' hdistinct' h
    have hkind := congrArg Value.kind h
    rw [kind_listed, kind_listed] at hkind
    cases value' <;> simp only [Value.kind, reduceCtorEq] at hkind
    · exact .null
    · exact hfinite'.elim
  | bool | number | string =>
    intro value' hfinite' hdistinct' h
    have hkind := congrArg Value.kind h
    rw [kind_listed, kind_listed] at hkind
    cases value' <;> simp only [Value.kind, reduceCtorEq] at hkind
    cases h
    constructor

theorem listed_of_same (value : Value) (hdistinct : Everywhere HasDistinctKeys value) :
    ∀ value', Everywhere HasDistinctKeys value' → Same value value' →
      listed value = listed value' := by
  induction value using Value.induct with
  | array items ih =>
    intro value' hdistinct' hsame
    cases hsame with
    | array hitems =>
      rw [everywhere_array] at hdistinct hdistinct'
      rw [listed_array, listed_array, map_listed_eq_iff.mpr]
      refine forall₂_of_mem hitems fun item hitem item' hitem' hsame => ?_
      exact ih item hitem (hdistinct.2 item hitem) item' (hdistinct'.2 item' hitem') hsame
  | object fields ih =>
    intro value' hdistinct' hsame
    cases hsame with
    | object hkeys hvalues hperm =>
      rename_i fields' reordered
      rw [everywhere_object] at hdistinct hdistinct'
      have hlisted : (fields.map Prod.snd).map listed = (reordered.map Prod.snd).map listed := by
        refine map_listed_eq_iff.mpr (forall₂_of_mem hvalues ?_)
        refine List.forall_mem_map.mpr fun field hfield => List.forall_mem_map.mpr ?_
        intro field' hfield' hsame
        exact ih field hfield (hdistinct.2 field hfield) field'.2
          (hdistinct'.2 field' (hperm.mem_iff.mp hfield')) hsame
      rw [listed_object_iff hdistinct.1 hdistinct'.1]
      refine (List.Perm.of_eq ?_).trans (hperm.map _)
      exact fields_ext (by rw [keys_map, keys_map, hkeys]) (by rw [values_map, values_map, hlisted])
  | null | bool | number | infinite | string =>
    intro value' hdistinct' hsame
    cases hsame
    rfl

theorem listed_asWritten (value : Value) (h : Everywhere HasDistinctKeys value) :
    listed (asWritten value) = listed value := by
  induction value using Value.induct with
  | array items ih =>
    rw [everywhere_array] at h
    rw [asWritten, asWrittenItems_eq, listed_array, listed_array, List.map_map]
    exact congrArg Value.array (List.map_congr_left fun item hitem => ih item hitem (h.2 item hitem))
  | object fields ih =>
    have hwritten := hasDistinctKeys_asWritten (.object fields) h
    rw [everywhere_object] at h
    rw [asWritten, asWrittenFields_eq] at hwritten ⊢
    rw [listed_object_iff (everywhere_object.mp hwritten).1 h.1, List.map_map]
    refine List.Perm.of_eq (List.map_congr_left fun field hfield => ?_)
    exact Prod.ext rfl (ih field hfield (h.2 field hfield))
  | null | bool | number | infinite | string => rfl

/-! ## Equal records are the same value -/

/-- Records are equal exactly if they are the same once infinities are as they are written. -/
theorem recordsEqual_iff_asWritten (left right : JsonValue) :
    recordsEqual left.value right.value = true ↔
      Same (asWritten left.value) (asWritten right.value) := by
  have hleft := hasDistinctKeys_asWritten left.value left.distinct
  have hright := hasDistinctKeys_asWritten right.value right.distinct
  rw [recordsEqual_iff_listed, ← listed_asWritten left.value left.distinct,
    ← listed_asWritten right.value right.distinct]
  constructor
  · exact same_of_listed _ (isFinite_asWritten _) hleft _ (isFinite_asWritten _) hright
  · exact listed_of_same _ hleft _ hright

theorem recordsEqual_equivalence :
    Equivalence fun left right : JsonValue => recordsEqual left.value right.value = true := by
  simp only [recordsEqual_iff_listed]
  exact ⟨fun _ => rfl, fun h => h.symm, fun h h' => h.trans h'⟩

theorem array_ne_object (items : List Value) (fields : List (Str × Value)) :
    recordsEqual (.array items) (.object fields) = false := by
  refine Bool.eq_false_iff.mpr fun h => ?_
  have hkind := congrArg Value.kind (recordsEqual_iff_listed.mp h)
  cases hkind

theorem length_of_recordsEqual {items items' : List Value}
    (h : recordsEqual (.array items) (.array items') = true) : items.length = items'.length := by
  rw [recordsEqual_iff_listed, listed_array, listed_array, Value.array.injEq] at h
  have hlength := congrArg List.length h
  rwa [List.length_map, List.length_map] at hlength

theorem keys_of_recordsEqual {fields fields' : List (Str × Value)}
    (hkeys : HasDistinctKeys (.object fields)) (hkeys' : HasDistinctKeys (.object fields'))
    (h : recordsEqual (.object fields) (.object fields') = true) (key : Str) :
    key ∈ fields.map Prod.fst ↔ key ∈ fields'.map Prod.fst := by
  have hperm := ((listed_object_iff hkeys hkeys').mp (recordsEqual_iff_listed.mp h)).map Prod.fst
  rw [keys_map, keys_map] at hperm
  exact hperm.mem_iff

/-- A number too large to be held reads as an infinity, which is equal to `null`. -/
theorem infinity_equals_null :
    recordsEqual (.infinite false) .null = true ∧ ¬ Same (.infinite false) .null :=
  ⟨by decide, nofun⟩

/-- Records without infinities are equal exactly if they are the same JSON value, up to
the order of keys; with them, exactly if they are the same with each as `null`. -/
theorem recordsEqual_iff_same :
    (∀ left right : JsonValue, Everywhere IsFinite left.value → Everywhere IsFinite right.value →
      (recordsEqual left.value right.value = true ↔ Same left.value right.value)) ∧
    (∀ left right : JsonValue, recordsEqual left.value right.value = true ↔
      Same (asWritten left.value) (asWritten right.value)) ∧
    (Equivalence fun left right : JsonValue => recordsEqual left.value right.value = true) ∧
    (∀ items fields, recordsEqual (.array items) (.object fields) = false) ∧
    (∀ items items', recordsEqual (.array items) (.array items') = true →
      items.length = items'.length) ∧
    ∀ fields fields', HasDistinctKeys (.object fields) → HasDistinctKeys (.object fields') →
      recordsEqual (.object fields) (.object fields') = true →
        ∀ key, key ∈ fields.map Prod.fst ↔ key ∈ fields'.map Prod.fst := by
  refine ⟨fun left right hleft hright => ?_, recordsEqual_iff_asWritten, recordsEqual_equivalence,
    array_ne_object, fun _ _ => length_of_recordsEqual, fun _ _ => keys_of_recordsEqual⟩
  have h := recordsEqual_iff_asWritten left right
  rwa [asWritten_of_isFinite _ hleft, asWritten_of_isFinite _ hright] at h

/-- `{"b":true,"10":[null]}` -/
def written : JsonValue where
  value := .object [(text "b", .bool true), (text "10", .array [.null])]
  distinct := by simp [Everywhere, EverywhereFields, EverywhereItems, HasDistinctKeys, text]

/-- `{"10":[null],"b":true}` -/
def reordered : JsonValue where
  value := .object [(text "10", .array [.null]), (text "b", .bool true)]
  distinct := by simp [Everywhere, EverywhereFields, EverywhereItems, HasDistinctKeys, text]

theorem recordsEqual_iff_same_reordered :
    Same written.value reordered.value ∧
      (text "b" ∈ [text "b", text "10"] ↔ text "b" ∈ [text "10", text "b"]) :=
  have hequal : recordsEqual written.value reordered.value = true := by decide
  ⟨(recordsEqual_iff_same.1 written reordered ⟨trivial, trivial, ⟨trivial, trivial, trivial⟩, trivial⟩
      ⟨trivial, ⟨trivial, trivial, trivial⟩, trivial, trivial⟩).mp hequal,
    recordsEqual_iff_same.2.2.2.2.2 _ _ (everywhere_object.mp written.distinct).1
      (everywhere_object.mp reordered.distinct).1 hequal (text "b")⟩

end Pomodorough.Web.RecordEquality
