import Mathlib.Order.Lattice
import Pomodorough.Library.Fallible

/-! # Groupings

Values that a fallible operation merges two at a time, in any order and with any
brackets. An operation that keeps the argument with the greater key finds the
member with the greatest key, however they are grouped. -/
namespace Pomodorough.Library.Groupings
open Pomodorough.Library.Fallible

/-- An order and a bracketing of values to merge. -/
inductive Grouping (α : Type) where
  | single (a : α)
  | merged (left right : Grouping α)

variable {α ε K : Type}

namespace Grouping

def members : Grouping α → List α
  | .single a => [a]
  | .merged left right => left.members ++ right.members

def merge (f : α → α → Except ε α) : Grouping α → Except ε α
  | .single a => .ok a
  | .merged left right => do
    let a ← left.merge f
    let b ← right.merge f
    f a b

end Grouping

variable [LinearOrder K] {key : α → K} {f : α → α → Except ε α} {members : List α} {a b : α}

/-- A member that no member is above. -/
structure Greatest (key : α → K) (members : List α) (a : α) : Prop where
  mem : a ∈ members
  le : ∀ b ∈ members, key b ≤ key a

/-- Of two members the operation keeps one that neither is above. -/
def Keeps (key : α → K) (f : α → α → Except ε α) (members : List α) : Prop :=
  ∀ a ∈ members, ∀ b ∈ members, ∃ c, f a b = .ok c ∧ Greatest key [a, b] c

theorem Greatest.unique (hties : ∀ a ∈ members, ∀ b ∈ members, key a = key b → a = b)
    (ha : Greatest key members a) (hb : Greatest key members b) : a = b :=
  hties a ha.mem b hb.mem (le_antisymm (hb.le a ha.mem) (ha.le b hb.mem))

theorem Greatest.append {left right : List α} {c : α} (ha : Greatest key left a)
    (hb : Greatest key right b) (hc : Greatest key [a, b] c) :
    Greatest key (left ++ right) c := by
  have hac : key a ≤ key c := hc.le a (by simp)
  have hbc : key b ≤ key c := hc.le b (by simp)
  refine ⟨?_, fun d hd => ?_⟩
  · have hchosen : c = a ∨ c = b := by simpa using hc.mem
    rcases hchosen with rfl | rfl
    · exact List.mem_append_left _ ha.mem
    · exact List.mem_append_right _ hb.mem
  · rcases List.mem_append.mp hd with hd | hd
    · exact (ha.le d hd).trans hac
    · exact (hb.le d hd).trans hbc

/-- However they are grouped, merging finds a greatest member. -/
theorem Grouping.merge_greatest (t : Grouping α) (h : Keeps key f t.members) :
    ∃ a, t.merge f = .ok a ∧ Greatest key t.members a := by
  induction t with
  | single a => exact ⟨a, rfl, by simp [Grouping.members], by simp [Grouping.members]⟩
  | merged left right ihleft ihright =>
    have hleft : ∀ a ∈ left.members, a ∈ (left.merged right).members :=
      fun a ha => List.mem_append_left _ ha
    have hright : ∀ a ∈ right.members, a ∈ (left.merged right).members :=
      fun a ha => List.mem_append_right _ ha
    obtain ⟨a, ha, hagreatest⟩ := ihleft fun c hc d hd => h c (hleft c hc) d (hleft d hd)
    obtain ⟨b, hb, hbgreatest⟩ := ihright fun c hc d hd => h c (hright c hc) d (hright d hd)
    obtain ⟨c, hc, hcgreatest⟩ :=
      h a (hleft a hagreatest.mem) b (hright b hbgreatest.mem)
    refine ⟨c, ?_, hagreatest.append hbgreatest hcgreatest⟩
    exact bind_ok_iff.mpr ⟨a, ha, bind_ok_iff.mpr ⟨b, hb, hc⟩⟩

/-- Where no two members tie, every grouping of the same members has the same result. -/
theorem Grouping.merge_agrees (t : Grouping α) (h : Keeps key f t.members)
    (hties : ∀ a ∈ t.members, ∀ b ∈ t.members, key a = key b → a = b) :
    ∃ a, Greatest key t.members a ∧
      ∀ t' : Grouping α, (∀ b, b ∈ t'.members ↔ b ∈ t.members) → t'.merge f = .ok a := by
  obtain ⟨a, -, hgreatest⟩ := t.merge_greatest h
  refine ⟨a, hgreatest, fun t' hmembers => ?_⟩
  have h' : Keeps key f t'.members := fun c hc d hd =>
    h c ((hmembers c).mp hc) d ((hmembers d).mp hd)
  obtain ⟨b, hb, hbgreatest⟩ := t'.merge_greatest h'
  have hsame : Greatest key t.members b :=
    ⟨(hmembers b).mp hbgreatest.mem, fun d hd => hbgreatest.le d ((hmembers d).mpr hd)⟩
  rw [hb, hsame.unique hties hgreatest]

end Pomodorough.Library.Groupings
