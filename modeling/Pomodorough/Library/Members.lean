import Mathlib.Data.List.Basic

/-! # One member of a list

A list of parties from which one is picked, to be replaced or taken out. -/
namespace Pomodorough.Library.Members

variable {α : Type} {l before after : List α} {a b c : α}

theorem mem_picked (h : l = before ++ a :: after) : a ∈ l := by
  simp [h]

/-- A member of the list without the one picked. -/
theorem mem_removed (h : l = before ++ a :: after) (hc : c ∈ before ++ after) : c ∈ l := by
  subst h
  rcases List.mem_append.mp hc with hc | hc
  · exact List.mem_append_left _ hc
  · exact List.mem_append_right _ (List.mem_cons_of_mem _ hc)

/-- A member of the list with another in its place. -/
theorem mem_replaced (h : l = before ++ a :: after) (hc : c ∈ before ++ b :: after) :
    c = b ∨ c ∈ l := by
  rcases List.mem_append.mp hc with hc | hc
  · exact .inr (mem_removed h (List.mem_append_left _ hc))
  · rcases List.mem_cons.mp hc with hc | hc
    · exact .inl hc
    · exact .inr (mem_removed h (List.mem_append_right _ hc))

end Pomodorough.Library.Members
