import Mathlib.Data.List.Induction
import Mathlib.Data.List.Sort
import Mathlib.Data.List.Nodup
import Mathlib.Data.List.AList

/-! # Keyed logs

A log grows by offers. An entry is inserted at the end unless the log has one
with its key, or one in its slot. What a log holds after a set of offers that do
not clash does not depend on their order or on how often each is made. -/
namespace Pomodorough.Library.KeyedLog

/-- How the entries of a log are told apart. An entry may occupy a slot, which
it shares with no other. -/
structure Keys (α κ σ : Type) where
  key : α → κ
  slot : α → Option σ

/-- What becomes of an offered entry. -/
inductive Verdict where
  | inserted
  | duplicate
  | keyTaken
  | slotTaken
  deriving DecidableEq, Repr

/-- The entry is refused for another entry's sake. -/
def Verdict.IsConflict (v : Verdict) : Prop := v = .keyTaken ∨ v = .slotTaken

instance (v : Verdict) : Decidable v.IsConflict := inferInstanceAs (Decidable (_ ∨ _))

variable {α κ σ : Type} (K : Keys α κ σ)

def Keys.SameSlot (x a : α) : Prop := K.slot a ≠ none ∧ K.slot x = K.slot a

instance [DecidableEq σ] (x a : α) : Decidable (K.SameSlot x a) := inferInstanceAs (Decidable (_ ∧ _))

/-- Two different entries of which a log holds at most one. -/
def Keys.Clash (x a : α) : Prop := (K.key x = K.key a ∨ K.SameSlot x a) ∧ x ≠ a

instance [DecidableEq α] [DecidableEq κ] [DecidableEq σ] (x a : α) : Decidable (K.Clash x a) :=
  inferInstanceAs (Decidable (_ ∧ _))

/-- No two entries of the log have the same key. -/
def Keys.Distinct (log : List α) : Prop := (log.map K.key).Nodup

/-- No two entries of the log are in the same slot. -/
def Keys.SlotsDistinct (log : List α) : Prop := ∀ x ∈ log, ∀ y ∈ log, K.SameSlot x y → x = y

theorem Keys.SameSlot.symm {K : Keys α κ σ} {x a : α} (h : K.SameSlot x a) : K.SameSlot a x :=
  ⟨h.2 ▸ h.1, h.2.symm⟩

/-- The entries of a log do not clash with each other. -/
theorem Keys.not_clash {K : Keys α κ σ} {log : List α} (hd : (log.map K.key).Nodup)
    (hs : K.SlotsDistinct log) {x a : α} (hx : x ∈ log) (ha : a ∈ log) : ¬ K.Clash x a := by
  intro h
  rcases h.1 with hkey | hslot
  · exact h.2 (List.inj_on_of_nodup_map hd hx ha hkey)
  · exact h.2 (hs x hx a ha hslot)

/-- In a log with distinct keys the entry found by a key is the only one. -/
theorem Keys.Distinct.eq_of_key {K : Keys α κ σ} {log : List α} {x y : α} (hd : K.Distinct log)
    (hx : x ∈ log) (hy : y ∈ log) (h : K.key x = K.key y) : x = y :=
  List.inj_on_of_nodup_map hd hx hy h

section
variable [DecidableEq α] [DecidableEq κ] [DecidableEq σ]

def verdict (log : List α) (a : α) : Verdict :=
  match log.find? (fun x => K.key x = K.key a) with
  | some x => if x = a then .duplicate else .keyTaken
  | none => if ∃ x ∈ log, K.SameSlot x a then .slotTaken else .inserted

def offer (log : List α) (a : α) : List α :=
  if verdict K log a = .inserted then log ++ [a] else log

def offers (log : List α) (as : List α) : List α :=
  as.foldl (offer K) log

variable {K} {log as bs : List α} {x y a : α}

@[simp] theorem offers_nil : offers K log [] = log := rfl

@[simp] theorem offers_cons : offers K log (a :: as) = offers K (offer K log a) as := rfl

theorem offers_append : offers K log (as ++ bs) = offers K (offers K log as) bs :=
  List.foldl_append

/-! ## Verdicts -/

omit [DecidableEq α] [DecidableEq σ] in
theorem find_key_none :
    log.find? (fun x => K.key x = K.key a) = none ↔ ∀ x ∈ log, K.key x ≠ K.key a := by
  simp

theorem verdict_inserted_iff :
    verdict K log a = .inserted ↔ ∀ x ∈ log, K.key x ≠ K.key a ∧ ¬ K.SameSlot x a := by
  unfold verdict
  split
  next x hx =>
    have hmem := List.mem_of_find?_eq_some hx
    have hkey : K.key x = K.key a := by simpa using List.find?_some hx
    constructor
    · intro h
      split at h <;> cases h
    · intro h
      exact absurd hkey (h x hmem).1
  next hnone =>
    rw [find_key_none] at hnone
    split
    next hslot =>
      obtain ⟨x, hx, hs⟩ := hslot
      simp only [reduceCtorEq, false_iff]
      exact fun h => (h x hx).2 hs
    next hslot =>
      simp only [true_iff]
      exact fun x hx => ⟨hnone x hx, fun hs => hslot ⟨x, hx, hs⟩⟩

theorem verdict_slotTaken_iff :
    verdict K log a = .slotTaken ↔
      (∀ x ∈ log, K.key x ≠ K.key a) ∧ ∃ x ∈ log, K.SameSlot x a := by
  rw [← find_key_none (a := a)]
  unfold verdict
  split
  next x hx =>
    simp only [hx, reduceCtorEq, false_and, iff_false]
    split <;> simp
  next hnone =>
    simp only [hnone, true_and]
    split <;> simp_all

/-- An entry that is neither inserted nor in conflict is in the log already. -/
theorem mem_of_verdict_duplicate (h : verdict K log a = .duplicate) : a ∈ log := by
  unfold verdict at h
  split at h
  next x hx =>
    split at h
    next hxa => exact hxa ▸ List.mem_of_find?_eq_some hx
    next => cases h
  next => split at h <;> cases h

theorem exists_of_verdict_keyTaken (h : verdict K log a = .keyTaken) :
    ∃ x ∈ log, K.key x = K.key a ∧ x ≠ a := by
  unfold verdict at h
  split at h
  next x hx =>
    split at h
    next => cases h
    next hxa => exact ⟨x, List.mem_of_find?_eq_some hx, by simpa using List.find?_some hx, hxa⟩
  next => split at h <;> cases h

omit [DecidableEq α] [DecidableEq σ] in
theorem find_key_of_mem (hd : K.Distinct log) (hx : x ∈ log) (hk : K.key x = K.key a) :
    log.find? (fun y => K.key y = K.key a) = some x := by
  cases hf : log.find? (fun y => K.key y = K.key a) with
  | none => exact absurd hk (find_key_none.mp hf x hx)
  | some y =>
    have hy : K.key y = K.key a := by simpa using List.find?_some hf
    rw [hd.eq_of_key (List.mem_of_find?_eq_some hf) hx (hy.trans hk.symm)]

theorem verdict_duplicate_iff (hd : K.Distinct log) :
    verdict K log a = .duplicate ↔ a ∈ log := by
  constructor
  · exact mem_of_verdict_duplicate
  · intro h
    simp [verdict, find_key_of_mem hd h rfl]

theorem verdict_keyTaken_iff (hd : K.Distinct log) :
    verdict K log a = .keyTaken ↔ ∃ x ∈ log, K.key x = K.key a ∧ x ≠ a := by
  constructor
  · exact exists_of_verdict_keyTaken
  · rintro ⟨x, hx, hk, hne⟩
    simp [verdict, find_key_of_mem hd hx hk, hne]

/-- A conflict is a clash with an entry of the log. -/
theorem exists_clash_of_conflict (h : (verdict K log a).IsConflict) :
    ∃ x ∈ log, K.Clash x a := by
  obtain h | h := h
  · obtain ⟨x, hx, hk, hne⟩ := exists_of_verdict_keyTaken h
    exact ⟨x, hx, .inl hk, hne⟩
  · obtain ⟨hkeys, x, hx, hs⟩ := verdict_slotTaken_iff.mp h
    refine ⟨x, hx, .inr hs, ?_⟩
    rintro rfl
    exact hkeys x hx rfl

theorem verdict_cases (log : List α) (a : α) :
    verdict K log a = .inserted ∨ verdict K log a = .duplicate ∨
      (verdict K log a).IsConflict := by
  cases h : verdict K log a <;> simp [Verdict.IsConflict]

/-! ## What a log holds after offers -/

theorem offer_of_inserted (h : verdict K log a = .inserted) : offer K log a = log ++ [a] := if_pos h

theorem offer_of_not_inserted (h : verdict K log a ≠ .inserted) : offer K log a = log := if_neg h

theorem prefix_offer : log <+: offer K log a := by
  unfold offer
  split
  · exact List.prefix_append log [a]
  · exact List.prefix_refl log

theorem prefix_offers : log <+: offers K log as := by
  induction as generalizing log with
  | nil => exact List.prefix_refl log
  | cons a as ih => exact prefix_offer.trans ih

theorem mem_offer_of_not_conflict (h : ¬ (verdict K log a).IsConflict) : a ∈ offer K log a := by
  obtain hi | hd | hc := verdict_cases (K := K) log a
  · simp [offer_of_inserted hi]
  · exact prefix_offer.subset (mem_of_verdict_duplicate hd)
  · exact absurd hc h

theorem offer_of_mem (hd : K.Distinct log) (h : a ∈ log) : offer K log a = log :=
  offer_of_not_inserted (by simp [(verdict_duplicate_iff hd).mpr h])

/-- Offering entries again that are in the log changes nothing. -/
theorem offers_of_subset (hd : K.Distinct log) (h : ∀ a ∈ as, a ∈ log) : offers K log as = log := by
  induction as with
  | nil => rfl
  | cons a as ih =>
    rw [offers_cons, offer_of_mem hd (h a (by simp))]
    exact ih fun b hb => h b (List.mem_cons_of_mem a hb)

theorem distinct_offer (hd : K.Distinct log) : K.Distinct (offer K log a) := by
  by_cases h : verdict K log a = .inserted
  · have hkeys := verdict_inserted_iff.mp h
    rw [offer_of_inserted h, Keys.Distinct, List.map_append, List.nodup_append]
    refine ⟨hd, by simp, ?_⟩
    simp only [List.mem_map, List.map_cons, List.map_nil, List.mem_singleton]
    rintro _ ⟨x, hx, rfl⟩ _ rfl
    exact (hkeys x hx).1
  · rwa [offer_of_not_inserted h]

theorem distinct_offers (hd : K.Distinct log) : K.Distinct (offers K log as) := by
  induction as generalizing log with
  | nil => exact hd
  | cons a as ih => exact ih (distinct_offer hd)

/-- A slot is not shared: an entry whose slot is taken is not inserted. -/
theorem slotsDistinct_offer (hs : K.SlotsDistinct log) : K.SlotsDistinct (offer K log a) := by
  by_cases h : verdict K log a = .inserted
  · have hslots := verdict_inserted_iff.mp h
    rw [offer_of_inserted h]
    intro x hx y hy hsame
    rcases List.mem_append.mp hx with hx | hx
    · rcases List.mem_append.mp hy with hy | hy
      · exact hs x hx y hy hsame
      · rw [List.mem_singleton.mp hy] at hsame
        exact absurd hsame (hslots x hx).2
    · rcases List.mem_append.mp hy with hy | hy
      · rw [List.mem_singleton.mp hx] at hsame
        exact absurd hsame.symm (hslots y hy).2
      · rw [List.mem_singleton.mp hx, List.mem_singleton.mp hy]
  · rwa [offer_of_not_inserted h]

theorem slotsDistinct_offers (hs : K.SlotsDistinct log) : K.SlotsDistinct (offers K log as) := by
  induction as generalizing log with
  | nil => exact hs
  | cons a as ih => exact ih (slotsDistinct_offer hs)

theorem mem_of_mem_offer (h : x ∈ offer K log a) : x ∈ log ∨ x = a := by
  unfold offer at h
  split at h
  · simpa using h
  · exact .inl h

theorem mem_of_mem_offers (h : x ∈ offers K log as) : x ∈ log ∨ x ∈ as := by
  induction as generalizing log with
  | nil => exact .inl h
  | cons a as ih =>
    obtain h | h := ih h
    · obtain h | rfl := mem_of_mem_offer h
      · exact .inl h
      · exact .inr (by simp)
    · exact .inr (List.mem_cons_of_mem a h)

/-- What is in the log after offers that do not clash with each other: what was
there, and what clashes with nothing that was there. -/
theorem mem_offers (hfree : ∀ a ∈ as, ∀ b ∈ as, ¬ K.Clash a b) :
    x ∈ offers K log as ↔ x ∈ log ∨ x ∈ as ∧ ∀ y ∈ log, ¬ K.Clash y x := by
  induction as generalizing log with
  | nil => simp
  | cons a as ih =>
    rw [offers_cons, ih fun b hb c hc => hfree b (by simp [hb]) c (by simp [hc])]
    obtain hi | hdup | hc := verdict_cases (K := K) log a
    · -- the new entry clashes neither with the log nor with later offers
      have hnew : ∀ y ∈ log, ¬ K.Clash y a := fun y hy hclash =>
        hclash.1.elim (verdict_inserted_iff.mp hi y hy).1 (verdict_inserted_iff.mp hi y hy).2
      have hlater : x ∈ as → ¬ K.Clash a x := fun hx => hfree a (by simp) x (by simp [hx])
      rw [offer_of_inserted hi]
      simp only [List.mem_append, List.mem_cons]
      grind
    · have hmem : a ∈ log := mem_of_verdict_duplicate hdup
      rw [offer_of_not_inserted (by simp [hdup])]
      simp only [List.mem_cons]
      grind
    · obtain ⟨y, hy, hclash⟩ := exists_clash_of_conflict hc
      rw [offer_of_not_inserted (by rintro hi; simp [hi, Verdict.IsConflict] at hc)]
      simp only [List.mem_cons]
      grind

/-- A slot is taken after offers when one of the entries that were there or were
offered is in it. -/
theorem sameSlot_offers (hkeys : (as.map K.key).Nodup) (hnew : ∀ a ∈ as, ∀ y ∈ log, K.key y ≠ K.key a) :
    (∃ y ∈ offers K log as, K.SameSlot y x) ↔ ∃ y ∈ log ++ as, K.SameSlot y x := by
  induction as generalizing log with
  | nil => simp
  | cons a as ih =>
    rw [List.map_cons, List.nodup_cons] at hkeys
    have hnew' : ∀ b ∈ as, ∀ y ∈ offer K log a, K.key y ≠ K.key b := by
      intro b hb y hy
      rcases mem_of_mem_offer hy with hy | rfl
      · exact hnew b (List.mem_cons_of_mem a hb) y hy
      · exact fun heq => hkeys.1 (heq ▸ List.mem_map_of_mem hb)
    rw [offers_cons, ih hkeys.2 hnew']
    have hkey : ∀ y ∈ log, K.key y ≠ K.key a := hnew a List.mem_cons_self
    by_cases hi : verdict K log a = .inserted
    · rw [offer_of_inserted hi, List.append_assoc, List.singleton_append]
    · -- an entry that is not inserted shares its slot with one that is there
      rw [offer_of_not_inserted hi]
      have htaken : ∃ y ∈ log, K.SameSlot y a := by
        by_contra hfree
        refine hi (verdict_inserted_iff.mpr fun y hy => ⟨hkey y hy, fun hs => hfree ⟨y, hy, hs⟩⟩)
      constructor
      · intro h
        obtain ⟨y, hy, hs⟩ := h
        refine ⟨y, ?_, hs⟩
        simp only [List.mem_append, List.mem_cons] at hy ⊢
        exact hy.imp_right .inr
      · intro h
        obtain ⟨y, hy, hs⟩ := h
        simp only [List.mem_append, List.mem_cons] at hy
        rcases hy with hy | rfl | hy
        · exact ⟨y, List.mem_append_left _ hy, hs⟩
        · obtain ⟨z, hz, htaken⟩ := htaken
          exact ⟨z, List.mem_append_left _ hz, hs.1, htaken.2.trans hs.2⟩
        · exact ⟨y, List.mem_append_right _ hy, hs⟩

/-- Entries with keys of their own: each is inserted unless an earlier one is in
its slot. -/
theorem mem_offers_nil_iff (hkeys : (as.map K.key).Nodup) : x ∈ offers K [] as ↔
    ∃ earlier later, as = earlier ++ x :: later ∧ ∀ y ∈ earlier, ¬ K.SameSlot y x := by
  induction as using List.reverseRecOn with
  | nil => simp
  | append_singleton as a ih =>
    rw [List.map_append, List.nodup_append] at hkeys
    have hunique : ∀ y ∈ as, K.key y ≠ K.key a := fun y hy =>
      hkeys.2.2 _ (List.mem_map_of_mem hy) _ (by simp)
    have hslot : (∃ y ∈ offers K [] as, K.SameSlot y a) ↔ ∃ y ∈ [] ++ as, K.SameSlot y a :=
      sameSlot_offers hkeys.1 fun _ _ _ hy => nomatch hy
    have hverdict : verdict K (offers K [] as) a = .inserted ↔ ∀ y ∈ as, ¬ K.SameSlot y a := by
      rw [verdict_inserted_iff]
      constructor
      · intro h y hy hs
        obtain ⟨z, hz, hzs⟩ := hslot.mpr ⟨y, hy, hs⟩
        exact (h z hz).2 hzs
      · intro h z hz
        have hmem : z ∈ as := (mem_of_mem_offers hz).resolve_left (fun hnil => nomatch hnil)
        exact ⟨hunique z hmem, h z hmem⟩
    rw [offers_append, offers_cons, offers_nil]
    constructor
    · intro hx
      by_cases hi : verdict K (offers K [] as) a = .inserted
      · rw [offer_of_inserted hi] at hx
        rcases List.mem_append.mp hx with hx | hx
        · obtain ⟨earlier, later, rfl, hfirst⟩ := (ih hkeys.1).mp hx
          exact ⟨earlier, later ++ [a], by simp, hfirst⟩
        · cases List.mem_singleton.mp hx
          exact ⟨as, [], rfl, hverdict.mp hi⟩
      · rw [offer_of_not_inserted hi] at hx
        obtain ⟨earlier, later, rfl, hfirst⟩ := (ih hkeys.1).mp hx
        exact ⟨earlier, later ++ [a], by simp, hfirst⟩
    · intro h
      obtain ⟨earlier, later, hsplit, hfirst⟩ := h
      rcases List.eq_nil_or_concat later with rfl | ⟨later, b, rfl⟩
      · obtain ⟨rfl, hlast⟩ := List.append_inj' hsplit rfl
        cases hlast
        rw [offer_of_inserted (hverdict.mpr hfirst)]
        exact List.mem_append_right _ (List.mem_singleton.mpr rfl)
      · have hassoc : as ++ [a] = (earlier ++ x :: later) ++ [b] := by simpa using hsplit
        obtain ⟨rfl, -⟩ := List.append_inj' hassoc rfl
        exact prefix_offer.subset ((ih hkeys.1).mpr ⟨earlier, later, rfl, hfirst⟩)

/-- Entries with keys of their own and without slots are all inserted. -/
theorem offers_nil_of_nodup (hkeys : (as.map K.key).Nodup) (hslots : ∀ a ∈ as, K.slot a = none) :
    offers K [] as = as := by
  induction as using List.reverseRecOn with
  | nil => rfl
  | append_singleton as a ih =>
    rw [List.map_append, List.nodup_append] at hkeys
    rw [offers_append, offers_cons, offers_nil,
      ih hkeys.1 fun b hb => hslots b (List.mem_append_left _ hb)]
    refine offer_of_inserted (verdict_inserted_iff.mpr fun y hy => ⟨?_, fun hs => ?_⟩)
    · exact hkeys.2.2 _ (List.mem_map_of_mem hy) _ (by simp)
    · exact hs.1 (hslots a (by simp))

/-- The entries of a log, offered in any order to an empty one, make up the log. -/
theorem offers_nil_perm (hd : K.Distinct log) (hs : K.SlotsDistinct log) (h : as.Perm log) :
    (offers K [] as).Perm log := by
  have hfree : ∀ a ∈ as, ∀ b ∈ as, ¬ K.Clash a b := fun a ha b hb =>
    Keys.not_clash hd hs (h.mem_iff.mp ha) (h.mem_iff.mp hb)
  have hoffers : (offers K [] as).Nodup := List.Nodup.of_map K.key (distinct_offers List.nodup_nil)
  rw [List.perm_ext_iff_of_nodup hoffers (List.Nodup.of_map K.key hd)]
  intro x
  rw [mem_offers hfree, h.mem_iff]
  simp

/-- Offers that do not clash converge: the order, the grouping and the number of
times each entry is offered do not matter. -/
theorem offers_perm (hd : K.Distinct log) (hfree : ∀ a ∈ as, ∀ b ∈ as, ¬ K.Clash a b)
    (hsame : ∀ a, a ∈ as ↔ a ∈ bs) : (offers K log as).Perm (offers K log bs) := by
  have hfree' : ∀ a ∈ bs, ∀ b ∈ bs, ¬ K.Clash a b := fun a ha b hb =>
    hfree a ((hsame a).mpr ha) b ((hsame b).mpr hb)
  have hnodup : ∀ cs, (offers K log cs).Nodup := fun cs =>
    List.Nodup.of_map K.key (distinct_offers hd)
  rw [List.perm_ext_iff_of_nodup (hnodup as) (hnodup bs)]
  intro x
  rw [mem_offers hfree, mem_offers hfree', hsame]

end

/-! ## Reading a log in order -/

section
variable {β : Type} [LinearOrder β] {log log' : List α} {x : α}

/-- The log in the order of a sort key. -/
def sortBy (key : α → β) (log : List α) : List α :=
  log.insertionSort (fun a b => key a ≤ key b)

@[simp] theorem mem_sortBy {key : α → β} : x ∈ sortBy key log ↔ x ∈ log :=
  List.mem_insertionSort _

theorem sortBy_perm {key : α → β} : (sortBy key log).Perm log :=
  List.perm_insertionSort _ log

theorem pairwise_sortBy {key : α → β} : (sortBy key log).Pairwise (fun a b => key a ≤ key b) := by
  have htotal : Std.Total (fun a b : α => key a ≤ key b) := ⟨fun a b => le_total (key a) (key b)⟩
  have htrans : IsTrans α (fun a b => key a ≤ key b) := ⟨fun _ _ _ => le_trans⟩
  exact List.pairwise_insertionSort _ log

/-- Where no two entries have the same sort key, the order is strict. -/
theorem pairwise_lt_sortBy {key : α → β} (h : (log.map key).Nodup) :
    (sortBy key log).Pairwise (fun a b => key a < key b) := by
  have hnodup : ((sortBy key log).map key).Nodup := ((sortBy_perm.map key).nodup_iff).mpr h
  have hne : (sortBy key log).Pairwise (fun a b => key a ≠ key b) := List.pairwise_map.mp hnodup
  exact pairwise_sortBy.imp₂ (fun _ _ hle hne => lt_of_le_of_ne hle hne) hne

/-- Where the sort key tells the entries apart, the order of arrival is lost. -/
theorem sortBy_eq_of_perm {key : α → β} (hinj : ∀ a ∈ log, ∀ b ∈ log, key a = key b → a = b)
    (h : log.Perm log') : sortBy key log = sortBy key log' := by
  refine List.Perm.eq_of_pairwise ?_ pairwise_sortBy pairwise_sortBy
    (sortBy_perm.trans (h.trans sortBy_perm.symm))
  intro a b ha hb hab hba
  have hb' : b ∈ log := h.mem_iff.mpr (mem_sortBy.mp hb)
  exact hinj a (mem_sortBy.mp ha) b hb' (le_antisymm hab hba)

/-- The entries in a strict order of their own are what sorting them gives, also
where the comparison is not an order on anything else. -/
theorem insertionSort_eq_of_perm {r : α → α → Prop} [DecidableRel r] {l l' : List α}
    (hstrict : l.Pairwise fun a b => r a b ∧ ¬ r b a) (hrefl : ∀ a, r a a) (h : l'.Perm l) :
    l'.insertionSort r = l := by
  classical
  -- on the entries, the comparison is that of their positions
  have hrank : ∀ a ∈ l, ∀ b ∈ l, r a b ↔ l.idxOf a ≤ l.idxOf b := by
    intro a ha b hb
    obtain hlt | heq | hgt := lt_trichotomy (l.idxOf a) (l.idxOf b)
    · have hab := List.pairwise_iff_getElem.mp hstrict _ _ (List.idxOf_lt_length_iff.mpr ha)
        (List.idxOf_lt_length_iff.mpr hb) hlt
      simp only [List.getElem_idxOf] at hab
      exact iff_of_true hab.1 hlt.le
    · obtain rfl := (List.idxOf_inj ha).mp heq
      exact iff_of_true (hrefl a) le_rfl
    · have hba := List.pairwise_iff_getElem.mp hstrict _ _ (List.idxOf_lt_length_iff.mpr hb)
        (List.idxOf_lt_length_iff.mpr ha) hgt
      simp only [List.getElem_idxOf] at hba
      exact iff_of_false hba.2 (by omega)
  have hsorted : l.Pairwise fun a b => l.idxOf a ≤ l.idxOf b :=
    hstrict.imp_of_mem fun {a b} ha hb hab => (hrank a ha b hb).mp hab.1
  have hranked : (l'.insertionSort r).Pairwise fun a b => l.idxOf a ≤ l.idxOf b := by
    have hmap := List.map_insertionSort r (· ≤ ·) l.idxOf l'
      fun a ha b hb => hrank a (h.subset ha) b (h.subset hb)
    have := List.pairwise_insertionSort (· ≤ ·) (l'.map l.idxOf)
    rw [← hmap, List.pairwise_map] at this
    exact this
  refine List.Perm.eq_of_pairwise ?_ hranked hsorted ((List.perm_insertionSort r l').trans h)
  intro a b ha hb hab hba
  exact (List.idxOf_inj (h.subset ((List.mem_insertionSort r).mp ha))).mp (le_antisymm hab hba)

end

/-! ## Tables filled from a list -/

section
variable {β : Type} [DecidableEq κ] {key : α → κ} {value : α → β} {l : List α} {k : κ}

theorem find_key_iff (hnodup : (l.map key).Nodup) {a : α} :
    l.find? (fun x => key x = k) = some a ↔ a ∈ l ∧ key a = k := by
  constructor
  · intro h
    exact ⟨List.mem_of_find?_eq_some h, by simpa using List.find?_some h⟩
  · rintro ⟨ha, rfl⟩
    cases hf : l.find? (fun x => key x = key a) with
    | none => exact absurd (by simp) (List.find?_eq_none.mp hf a ha)
    | some b =>
      have hb : key b = key a := by simpa using List.find?_some hf
      rw [List.inj_on_of_nodup_map hnodup (List.mem_of_find?_eq_some hf) ha hb]

/-- A key that is not in the list keeps its value. -/
theorem lookup_insertAll_of_ne {m : AList fun _ : κ => β} (h : ∀ x ∈ l, key x ≠ k) :
    (l.foldl (fun m x => m.insert (key x) (value x)) m).lookup k = m.lookup k := by
  induction l generalizing m with
  | nil => rfl
  | cons a l ih =>
    rw [List.foldl_cons, ih fun x hx => h x (List.mem_cons_of_mem a hx)]
    exact AList.lookup_insert_ne (h a (by simp)).symm

/-- A key of the list is mapped to the value of its entry. -/
theorem lookup_insertAll_of_mem {m : AList fun _ : κ => β} (hnodup : (l.map key).Nodup)
    {a : α} (ha : a ∈ l) :
    (l.foldl (fun m x => m.insert (key x) (value x)) m).lookup (key a) = some (value a) := by
  induction l generalizing m with
  | nil => cases ha
  | cons b l ih =>
    rw [List.map_cons, List.nodup_cons] at hnodup
    rw [List.foldl_cons]
    obtain rfl | ha := List.mem_cons.mp ha
    · have hlater : ∀ x ∈ l, key x ≠ key a := by
        intro x hx heq
        exact hnodup.1 (heq ▸ List.mem_map_of_mem hx)
      rw [lookup_insertAll_of_ne hlater]
      exact AList.lookup_insert m
    · exact ih hnodup.2 ha

theorem lookup_eraseAll_of_ne {m : AList fun _ : κ => β} (h : ∀ x ∈ l, key x ≠ k) :
    (l.foldl (fun m x => m.erase (key x)) m).lookup k = m.lookup k := by
  induction l generalizing m with
  | nil => rfl
  | cons a l ih =>
    rw [List.foldl_cons, ih fun x hx => h x (List.mem_cons_of_mem a hx)]
    exact AList.lookup_erase_ne (h a (by simp)).symm

theorem lookup_eraseAll_of_none {m : AList fun _ : κ => β} (h : m.lookup k = none) :
    (l.foldl (fun m x => m.erase (key x)) m).lookup k = none := by
  induction l generalizing m with
  | nil => exact h
  | cons a l ih =>
    refine ih ?_
    by_cases heq : k = key a
    · rw [heq, AList.lookup_erase]
    · rw [AList.lookup_erase_ne heq, h]

theorem lookup_eraseAll_of_mem {m : AList fun _ : κ => β} {a : α} (ha : a ∈ l) :
    (l.foldl (fun m x => m.erase (key x)) m).lookup (key a) = none := by
  induction l generalizing m with
  | nil => cases ha
  | cons b l ih =>
    rw [List.foldl_cons]
    obtain rfl | ha := List.mem_cons.mp ha
    · exact lookup_eraseAll_of_none (AList.lookup_erase (key a) m)
    · exact ih ha

/-- A table lists what a duplicate-free list of the same entries does. -/
theorem entries_perm {table : AList fun _ : κ => α} (hnodup : (l.map key).Nodup)
    (hmem : ∀ k value, table.lookup k = some value ↔ value ∈ l ∧ key value = k) :
    (table.entries.map fun entry => entry.2).Perm l := by
  have hkeys : (table.entries.map fun entry => entry.2).map key = table.keys := by
    rw [List.map_map]
    refine List.map_congr_left fun entry hentry => ?_
    exact ((hmem entry.1 entry.2).mp (AList.mem_lookup_iff.mpr hentry)).2
  have hvalues : ((table.entries.map fun entry => entry.2).map key).Nodup := by
    rw [hkeys]
    exact table.keys_nodup
  rw [List.perm_ext_iff_of_nodup (hvalues.of_map _) (hnodup.of_map _)]
  intro value
  rw [List.mem_map]
  constructor
  · rintro ⟨entry, hentry, rfl⟩
    exact ((hmem entry.1 entry.2).mp (AList.mem_lookup_iff.mpr hentry)).1
  · intro hvalue
    exact ⟨⟨key value, value⟩, AList.mem_lookup_iff.mp ((hmem _ _).mpr ⟨hvalue, rfl⟩), rfl⟩

end

end Pomodorough.Library.KeyedLog
