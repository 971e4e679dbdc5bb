import Mathlib.Data.List.Sort
import Mathlib.Data.List.Nodup

/-! # Finite maps

A map whose entries are kept in the order of their keys, so that equal maps have
equal entries, and the updates of a dictionary kept in the order of insertion. -/
namespace Pomodorough.Library.OrderedMaps

variable {κ α β ε : Type}

/-! ## Lookups in a list of entries -/

theorem lookup_cons_ne [BEq κ] [LawfulBEq κ] {l : List (κ × α)} {k key : κ} {a : α} (h : k ≠ key) :
    ((key, a) :: l).lookup k = l.lookup k := by
  rw [List.lookup_cons, beq_eq_false_iff_ne.mpr h]

theorem mem_of_lookup [BEq κ] [LawfulBEq κ] {l : List (κ × α)} {k : κ} {a : α}
    (h : l.lookup k = some a) : (k, a) ∈ l := by
  obtain ⟨before, after, heq, -⟩ := List.lookup_eq_some_iff.mp h
  rw [heq]
  simp

theorem lookup_of_mem [BEq κ] [LawfulBEq κ] {l : List (κ × α)} {k : κ} {a : α}
    (hnodup : (l.map Prod.fst).Nodup) (h : (k, a) ∈ l) : l.lookup k = some a := by
  induction l with
  | nil => cases h
  | cons e l ih =>
    obtain ⟨hnot, hnodup⟩ := List.nodup_cons.mp hnodup
    obtain rfl | hmem := List.mem_cons.mp h
    · simp
    · have hne : k ≠ e.1 := fun heq => hnot (heq ▸ List.mem_map_of_mem hmem)
      rw [lookup_cons_ne hne, ih hnodup hmem]

theorem lookup_iff_mem [BEq κ] [LawfulBEq κ] {l : List (κ × α)} {k : κ} {a : α}
    (hnodup : (l.map Prod.fst).Nodup) : l.lookup k = some a ↔ (k, a) ∈ l :=
  ⟨mem_of_lookup, lookup_of_mem hnodup⟩

theorem lookup_none_iff [BEq κ] [LawfulBEq κ] {l : List (κ × α)} {k : κ} :
    l.lookup k = none ↔ k ∉ l.map Prod.fst := by
  induction l with
  | nil => simp
  | cons e l ih =>
    rw [List.lookup_cons, List.map_cons, List.mem_cons, not_or]
    cases h : k == e.1 with
    | true => simp [eq_of_beq h]
    | false => simp [ih, ne_of_beq_false h]

/-- The order of the entries does not matter to lookups. -/
theorem lookup_perm [BEq κ] [LawfulBEq κ] {l l' : List (κ × α)} (hperm : l.Perm l')
    (hnodup : (l.map Prod.fst).Nodup) (k : κ) : l'.lookup k = l.lookup k := by
  have hnodup' := (hperm.map Prod.fst).nodup_iff.mp hnodup
  cases h : l.lookup k with
  | none =>
    rw [lookup_none_iff] at h ⊢
    exact fun hmem => h ((hperm.map Prod.fst).mem_iff.mpr hmem)
  | some a => exact lookup_of_mem hnodup' (hperm.mem_iff.mp (mem_of_lookup h))

/-! ## Dictionaries -/

/-- `dict.setdefault(key, initial)`, then a change of what is stored there. -/
def upsert [DecidableEq κ] (key : κ) (initial : α) (change : α → α) : List (κ × α) → List (κ × α)
  | [] => [(key, change initial)]
  | (k, a) :: rest =>
    if k = key then (k, change a) :: rest else (k, a) :: upsert key initial change rest

section Upsert
variable [DecidableEq κ] [BEq κ] [LawfulBEq κ] {key k : κ} {initial : α} {change : α → α} {l : List (κ × α)}

theorem lookup_upsert_self : (upsert key initial change l).lookup key =
    some (change ((l.lookup key).getD initial)) := by
  induction l with
  | nil => simp [upsert]
  | cons e l ih =>
    obtain ⟨k, a⟩ := e
    by_cases h : k = key
    · simp [upsert, h]
    · rw [upsert, if_neg h, lookup_cons_ne (Ne.symm h), lookup_cons_ne (Ne.symm h), ih]

theorem lookup_upsert_of_ne (hne : k ≠ key) :
    (upsert key initial change l).lookup k = l.lookup k := by
  induction l with
  | nil => simp [upsert, hne]
  | cons e l ih =>
    obtain ⟨k', a⟩ := e
    by_cases h : k' = key
    · subst h
      rw [upsert, if_pos rfl, lookup_cons_ne hne, lookup_cons_ne hne]
    · simp only [upsert, if_neg h, List.lookup_cons, ih]

theorem mem_keys_upsert :
    k ∈ (upsert key initial change l).map Prod.fst ↔ k = key ∨ k ∈ l.map Prod.fst := by
  by_cases h : k = key
  · have hsome : (upsert key initial change l).lookup key ≠ none := by simp [lookup_upsert_self]
    subst h
    simpa using not_imp_comm.mp lookup_none_iff.mpr hsome
  · rw [← not_iff_not, ← lookup_none_iff, lookup_upsert_of_ne h, lookup_none_iff]
    simp [h]

omit [BEq κ] [LawfulBEq κ] in
theorem nodup_upsert (h : (l.map Prod.fst).Nodup) :
    ((upsert key initial change l).map Prod.fst).Nodup := by
  induction l with
  | nil => simp [upsert]
  | cons e l ih =>
    obtain ⟨k, a⟩ := e
    obtain ⟨hnot, hnodup⟩ := List.nodup_cons.mp h
    by_cases hk : k = key
    · simpa [upsert, hk] using ⟨by simpa [hk] using hnot, hnodup⟩
    · rw [upsert, if_neg hk, List.map_cons, List.nodup_cons]
      refine ⟨fun hmem => ?_, ih hnodup⟩
      obtain heq | hmem := mem_keys_upsert.mp hmem
      · exact hk heq
      · exact hnot hmem

end Upsert

/-! ## Maps in the order of their keys -/

structure OrderedMap (κ α : Type) [LinearOrder κ] where
  entries : List (κ × α)
  ordered : (entries.map Prod.fst).Pairwise (· < ·)

namespace OrderedMap
variable [LinearOrder κ] {m m' : OrderedMap κ α} {key k : κ} {a b : α}

@[ext] theorem ext (h : m.entries = m'.entries) : m = m' := by
  cases m
  cases m'
  cases h
  rfl

instance [DecidableEq α] : DecidableEq (OrderedMap κ α) := fun m m' =>
  decidable_of_iff (m.entries = m'.entries) ⟨ext, fun h => h ▸ rfl⟩

def empty : OrderedMap κ α := ⟨[], List.Pairwise.nil⟩

def find? (m : OrderedMap κ α) (key : κ) : Option α := m.entries.lookup key

def insertEntry (key : κ) (a : α) : List (κ × α) → List (κ × α)
  | [] => [(key, a)]
  | (k, b) :: rest =>
    if key < k then (key, a) :: (k, b) :: rest
    else if key = k then (key, a) :: rest
    else (k, b) :: insertEntry key a rest

theorem mem_keys_insertEntry {l : List (κ × α)} :
    k ∈ (insertEntry key a l).map Prod.fst ↔ k = key ∨ k ∈ l.map Prod.fst := by
  induction l with
  | nil => simp [insertEntry]
  | cons e l ih =>
    obtain ⟨k', b⟩ := e
    rw [insertEntry]
    split
    · simp
    · split
      · next heq => simp [heq]
      · rw [List.map_cons, List.mem_cons, ih, List.map_cons, List.mem_cons]
        tauto

theorem ordered_insertEntry {l : List (κ × α)} (h : (l.map Prod.fst).Pairwise (· < ·)) :
    ((insertEntry key a l).map Prod.fst).Pairwise (· < ·) := by
  induction l with
  | nil => simp [insertEntry]
  | cons e l ih =>
    obtain ⟨k', b⟩ := e
    rw [List.map_cons, List.pairwise_cons] at h
    obtain ⟨hfirst, hrest⟩ := h
    rw [insertEntry]
    split
    · next hlt =>
      simp only [List.map_cons, List.pairwise_cons, List.mem_cons, forall_eq_or_imp]
      exact ⟨⟨hlt, fun k hk => hlt.trans (hfirst k hk)⟩, hfirst, hrest⟩
    · split
      · next heq =>
        subst heq
        exact List.pairwise_cons.mpr ⟨hfirst, hrest⟩
      · next hlt hne =>
        refine List.pairwise_cons.mpr ⟨fun k hk => ?_, ih hrest⟩
        obtain rfl | hk := mem_keys_insertEntry.mp hk
        · exact lt_of_le_of_ne (not_lt.mp hlt) (Ne.symm hne)
        · exact hfirst k hk

/-- The entry of a key, new or in place of the one it had. -/
def write (m : OrderedMap κ α) (key : κ) (a : α) : OrderedMap κ α :=
  ⟨insertEntry key a m.entries, ordered_insertEntry m.ordered⟩

def keep (m : OrderedMap κ α) (p : κ → Bool) : OrderedMap κ α :=
  ⟨m.entries.filter fun e => p e.1,
    m.ordered.sublist ((List.filter_sublist (l := m.entries)).map Prod.fst)⟩

theorem nodup (m : OrderedMap κ α) : (m.entries.map Prod.fst).Nodup :=
  m.ordered.imp fun h => ne_of_lt h

theorem find?_iff_mem : m.find? key = some a ↔ (key, a) ∈ m.entries := lookup_iff_mem m.nodup

theorem lookup_insertEntry_self {l : List (κ × α)} :
    (insertEntry key a l).lookup key = some a := by
  induction l with
  | nil => simp [insertEntry]
  | cons e l ih =>
    obtain ⟨k', b⟩ := e
    rw [insertEntry]
    split
    · simp
    · split
      · simp
      · next hne => rw [lookup_cons_ne hne, ih]

theorem lookup_insertEntry_of_ne {l : List (κ × α)} (h : k ≠ key) :
    (insertEntry key a l).lookup k = l.lookup k := by
  induction l with
  | nil => simp [insertEntry, h]
  | cons e l ih =>
    obtain ⟨k', b⟩ := e
    rw [insertEntry]
    split
    · rw [lookup_cons_ne h]
    · split
      · next heq =>
        subst heq
        rw [lookup_cons_ne h, lookup_cons_ne h]
      · simp only [List.lookup_cons, ih]

@[simp] theorem find?_write_self : (m.write key a).find? key = some a := lookup_insertEntry_self

theorem find?_write_of_ne (h : k ≠ key) : (m.write key a).find? k = m.find? k :=
  lookup_insertEntry_of_ne h

theorem lookup_filter_keys {l : List (κ × α)} (p : κ → Bool) :
    (l.filter fun e => p e.1).lookup k = if p k then l.lookup k else none := by
  induction l with
  | nil => simp
  | cons e l ih =>
    obtain ⟨k', b⟩ := e
    by_cases hk : k = k'
    · subst hk
      by_cases hp : p k <;> simp [hp, ih]
    · by_cases hp : p k' <;> simp [hp, lookup_cons_ne hk, ih]

theorem find?_keep (p : κ → Bool) : (m.keep p).find? k = if p k then m.find? k else none :=
  lookup_filter_keys p

/-- A key above all others is written at the end. -/
theorem insertEntry_last {l : List (κ × α)} (h : ∀ e ∈ l, e.1 < key) :
    insertEntry key a l = l ++ [(key, a)] := by
  induction l with
  | nil => rfl
  | cons e l ih =>
    obtain ⟨k', b⟩ := e
    have hlt : k' < key := h (k', b) List.mem_cons_self
    rw [insertEntry, if_neg hlt.not_gt, if_neg hlt.ne',
      ih fun e he => h e (List.mem_cons_of_mem _ he)]
    rfl

theorem mem_write {e : κ × α} : e ∈ (m.write key a).entries ↔
    e = (key, a) ∨ e ∈ m.entries ∧ e.1 ≠ key := by
  obtain ⟨k, b⟩ := e
  rw [← find?_iff_mem, ← find?_iff_mem]
  by_cases h : k = key
  · subst h
    simp [eq_comm]
  · simp [find?_write_of_ne h, h]

theorem mem_keep {e : κ × α} {p : κ → Bool} :
    e ∈ (m.keep p).entries ↔ e ∈ m.entries ∧ p e.1 = true := List.mem_filter

/-- The entries that satisfy a condition. -/
def filter (m : OrderedMap κ α) (p : κ → α → Bool) : OrderedMap κ α :=
  ⟨m.entries.filter fun e => p e.1 e.2,
    m.ordered.sublist ((List.filter_sublist (l := m.entries)).map Prod.fst)⟩

theorem mem_filter {e : κ × α} {p : κ → α → Bool} :
    e ∈ (m.filter p).entries ↔ e ∈ m.entries ∧ p e.1 e.2 = true := List.mem_filter

theorem find?_filter (p : κ → α → Bool) : (m.filter p).find? k = (m.find? k).filter (p k) := by
  ext a
  rw [find?_iff_mem, mem_filter, ← find?_iff_mem, Option.filter_eq_some_iff]

theorem length_filter_le (p : κ → α → Bool) : (m.filter p).entries.length ≤ m.entries.length :=
  List.length_filter_le _ _

/-- Equal lookups make equal maps. -/
theorem ext_find? (h : ∀ k, m.find? k = m'.find? k) : m = m' := by
  have hmem : ∀ e, e ∈ m.entries ↔ e ∈ m'.entries := by
    rintro ⟨k, a⟩
    rw [← find?_iff_mem, ← find?_iff_mem, h]
  have hperm : m.entries.Perm m'.entries :=
    (List.perm_ext_iff_of_nodup m.nodup.of_map m'.nodup.of_map).mpr hmem
  have hle : ∀ {m : OrderedMap κ α}, m.entries.Pairwise fun e f => e.1 < f.1 := fun {m} =>
    List.pairwise_map.mp m.ordered
  exact ext (hperm.eq_of_pairwise (fun a b _ _ hab hba => absurd hba hab.not_gt) hle hle)

theorem write_write : (m.write key a).write key b = m.write key b := by
  refine ext_find? fun k => ?_
  by_cases h : k = key
  · rw [h, find?_write_self, find?_write_self]
  · rw [find?_write_of_ne h, find?_write_of_ne h, find?_write_of_ne h]

/-- A new key that is removed again leaves no trace. -/
theorem keep_write {p : κ → Bool} (hp : ∀ k, p k = true ↔ k ≠ key) (h : m.find? key = none) :
    (m.write key a).keep p = m := by
  refine ext_find? fun k => ?_
  rw [find?_keep]
  by_cases hk : k = key
  · rw [if_neg ((hp k).not.mpr (not_not.mpr hk)), hk, h]
  · rw [if_pos ((hp k).mpr hk), find?_write_of_ne hk]

theorem keep_write_write {p : κ → Bool} (hp : ∀ k, p k = true ↔ k ≠ key) (h : m.find? key = none)
    (hne : k ≠ key) : ((m.write key a).write k b).keep p = m.write k b := by
  refine ext_find? fun other => ?_
  rw [find?_keep]
  by_cases hother : other = key
  · rw [if_neg ((hp other).not.mpr (not_not.mpr hother)), hother, find?_write_of_ne hne.symm, h]
  · rw [if_pos ((hp other).mpr hother)]
    by_cases hk : other = k
    · rw [hk, find?_write_self, find?_write_self]
    · rw [find?_write_of_ne hk, find?_write_of_ne hother, find?_write_of_ne hk]

theorem length_write_le : (m.write key a).entries.length ≤ m.entries.length + 1 := by
  have hsubset : (m.write key a).entries.map Prod.fst ⊆ key :: m.entries.map Prod.fst :=
    fun k hk => List.mem_cons.mpr (mem_keys_insertEntry.mp hk)
  have hle := (List.subperm_of_subset (m.write key a).nodup hsubset).length_le
  simpa using hle

/-- A key that has an entry keeps its place. -/
theorem length_write_of_found (h : m.find? key = some b) :
    (m.write key a).entries.length ≤ m.entries.length := by
  have hkey : key ∈ m.entries.map Prod.fst := List.mem_map_of_mem (find?_iff_mem.mp h)
  have hsubset : (m.write key a).entries.map Prod.fst ⊆ m.entries.map Prod.fst := by
    intro k hk
    obtain rfl | hk := mem_keys_insertEntry.mp hk
    · exact hkey
    · exact hk
  have hle := (List.subperm_of_subset (m.write key a).nodup hsubset).length_le
  simpa using hle

end OrderedMap

end Pomodorough.Library.OrderedMaps
