import Mathlib.Data.Set.Basic

/-! # Folds that look at few cells

The state of a fold is a table of cells and one key in focus. A step that reads
and writes only the cell of its command and the cell in focus can be computed
from a part of the table that has these: the rest is merged back afterwards. -/
namespace Pomodorough.Library.PagedFold

variable {K V C O : Type}

@[ext] structure FoldState (K V : Type) where
  cells : K → Option V
  focus : Option K

def FoldState.empty : FoldState K V := ⟨fun _ => none, none⟩

/-- The part of the state whose cells are in the set. -/
noncomputable def FoldState.restrict (cut : Set K) (s : FoldState K V) : FoldState K V where
  cells k := by
    classical
    exact if k ∈ cut then s.cells k else none
  focus := s.focus

/-- What a part of the table has become, laid over the whole. -/
def FoldState.merge (s part : FoldState K V) : FoldState K V where
  cells k := (part.cells k).or (s.cells k)
  focus := part.focus

/-- A step sees the cell of its command, if it has one, and the cell in focus. -/
def Sees (key : C → Option K) (c : C) (s : FoldState K V) (k : K) : Prop :=
  key c = some k ∨ s.focus = some k

/-- A fold whose steps stay inside what they see. A cell is never cleared, and
the focus moves to the command's key, stays, or is lost. -/
structure LocalFold (key : C → Option K) (V O : Type) where
  step : C → FoldState K V → FoldState K V
  outcome : C → FoldState K V → O
  writes : ∀ c s k, ¬ Sees key c s k → (step c s).cells k = s.cells k
  keeps : ∀ c s k, s.cells k ≠ none → (step c s).cells k ≠ none
  moves : ∀ c s k, (step c s).focus = some k → Sees key c s k
  reads : ∀ c s t, s.focus = t.focus → (∀ k, Sees key c s k → s.cells k = t.cells k) →
    (step c s).focus = (step c t).focus ∧ outcome c s = outcome c t ∧
      ∀ k, Sees key c s k → (step c s).cells k = (step c t).cells k

namespace LocalFold
variable {key : C → Option K} (f : LocalFold key V O)

def run (cs : List C) (s : FoldState K V) : FoldState K V :=
  cs.foldl (fun s c => f.step c s) s

/-- Each command with its outcome, in order. -/
def outcomes : List C → FoldState K V → List (C × O)
  | [], _ => []
  | c :: cs, s => (c, f.outcome c s) :: outcomes cs (f.step c s)

@[simp] theorem run_nil (s : FoldState K V) : f.run [] s = s := rfl

@[simp] theorem run_cons (c : C) (cs : List C) (s : FoldState K V) :
    f.run (c :: cs) s = f.run cs (f.step c s) := rfl

theorem run_append (cs ds : List C) (s : FoldState K V) :
    f.run (cs ++ ds) s = f.run ds (f.run cs s) :=
  List.foldl_append

theorem outcomes_append (cs ds : List C) (s : FoldState K V) :
    f.outcomes (cs ++ ds) s = f.outcomes cs s ++ f.outcomes ds (f.run cs s) := by
  induction cs generalizing s with
  | nil => rfl
  | cons c cs ih =>
    show (c, f.outcome c s) :: f.outcomes (cs ++ ds) (f.step c s) = _
    rw [ih]
    rfl

/-- A step that sees nothing changes nothing. -/
theorem step_blind {c : C} {s : FoldState K V} (h : ∀ k, ¬ Sees key c s k) : f.step c s = s := by
  have hcells : (f.step c s).cells = s.cells := funext fun k => f.writes c s k (h k)
  have hlost : (f.step c s).focus = none :=
    Option.eq_none_iff_forall_ne_some.mpr fun k hk => h k (f.moves c s k hk)
  have hnone : s.focus = none :=
    Option.eq_none_iff_forall_ne_some.mpr fun k hk => h k (.inr hk)
  exact FoldState.ext hcells (hlost.trans hnone.symm)

theorem run_keeps (cs : List C) {s : FoldState K V} {k : K} (h : s.cells k ≠ none) :
    (f.run cs s).cells k ≠ none := by
  induction cs generalizing s with
  | nil => exact h
  | cons c cs ih => exact ih (f.keeps c s k h)

/-! ## A part that covers the commands -/

/-- The keys of the commands and the focus are in the set. -/
structure Covers (key : C → Option K) (cut : Set K) (cs : List C) (s : FoldState K V) : Prop where
  keys : ∀ c ∈ cs, ∀ k, key c = some k → k ∈ cut
  focus : ∀ k, s.focus = some k → k ∈ cut

section
variable {f} {cut : Set K} {c : C} {cs : List C} {s : FoldState K V}

theorem Covers.sees (h : Covers key cut (c :: cs) s) {k : K} (hk : Sees key c s k) : k ∈ cut := by
  obtain hk | hk := hk
  · exact h.keys c (by simp) k hk
  · exact h.focus k hk

theorem Covers.step (h : Covers key cut (c :: cs) s) : Covers key cut cs (f.step c s) where
  keys d hd := h.keys d (List.mem_cons_of_mem c hd)
  focus k hk := h.sees (f.moves c s k hk)

theorem restrict_cells (k : K) (hk : k ∈ cut) : (s.restrict cut).cells k = s.cells k :=
  if_pos hk

theorem restrict_cells_none (k : K) (hk : k ∉ cut) : (s.restrict cut).cells k = none :=
  if_neg hk

/-- One step on the part is one step on the whole, and its outcome is the same. -/
theorem step_restrict (h : Covers key cut (c :: cs) s) :
    f.step c (s.restrict cut) = (f.step c s).restrict cut ∧
      f.outcome c (s.restrict cut) = f.outcome c s := by
  obtain ⟨hfocus, houtcome, hcells⟩ := f.reads c (s.restrict cut) s rfl
    fun k hk => restrict_cells k (h.sees hk)
  refine ⟨FoldState.ext (funext fun k => ?_) hfocus, houtcome⟩
  by_cases hseen : Sees key c s k
  · rw [hcells k hseen, restrict_cells k (h.sees hseen)]
  · rw [f.writes c (s.restrict cut) k hseen]
    by_cases hk : k ∈ cut
    · rw [restrict_cells k hk, restrict_cells k hk, f.writes c s k hseen]
    · rw [restrict_cells_none k hk, restrict_cells_none k hk]

theorem run_restrict (h : Covers key cut cs s) :
    f.run cs (s.restrict cut) = (f.run cs s).restrict cut ∧
      f.outcomes cs (s.restrict cut) = f.outcomes cs s := by
  induction cs generalizing s with
  | nil => exact ⟨rfl, rfl⟩
  | cons c cs ih =>
    obtain ⟨hstep, houtcome⟩ := step_restrict (f := f) h
    obtain ⟨hrun, houtcomes⟩ := ih h.step
    unfold LocalFold.outcomes
    rw [run_cons, run_cons, hstep, houtcome]
    exact ⟨hrun, by rw [houtcomes]⟩

/-- What is not covered stays as it is. -/
theorem run_outside (h : Covers key cut cs s) {k : K} (hk : k ∉ cut) :
    (f.run cs s).cells k = s.cells k := by
  induction cs generalizing s with
  | nil => rfl
  | cons c cs ih =>
    rw [run_cons, ih h.step]
    exact f.writes c s k fun hseen => hk (h.sees hseen)

theorem Covers.run (h : Covers key cut cs s) : Covers key cut [] (f.run cs s) := by
  induction cs generalizing s with
  | nil => exact h
  | cons c cs ih => exact ih h.step

/-- The part, run on its own and laid over the whole, is the whole run. -/
theorem merge_run_restrict (h : Covers key cut cs s) :
    s.merge (f.run cs (s.restrict cut)) = f.run cs s := by
  rw [(run_restrict h).1]
  refine FoldState.ext (funext fun k => ?_) rfl
  show (((f.run cs s).restrict cut).cells k).or (s.cells k) = _
  by_cases hk : k ∈ cut
  · rw [restrict_cells k hk]
    cases hs : s.cells k with
    | none => exact Option.or_none
    | some v =>
      obtain ⟨w, hw⟩ := Option.ne_none_iff_exists'.mp
        (f.run_keeps cs (show s.cells k ≠ none by simp [hs]))
      rw [hw, Option.some_or]
  · rw [restrict_cells_none k hk, Option.none_or, run_outside h hk]

end

end LocalFold

end Pomodorough.Library.PagedFold
