import Mathlib.Data.List.Basic

/-! # Traces of events

A state that events change one after another. What one event keeps, every trace
of events keeps. -/
namespace Pomodorough.Library.Traces

variable {σ ε : Type} {step : σ → ε → σ} {s : σ} {e : ε} {es fs : List ε}

/-- The state after the events, the first of the list first. -/
def run (step : σ → ε → σ) (s : σ) (es : List ε) : σ := es.foldl step s

@[simp] theorem run_nil : run step s [] = s := rfl

@[simp] theorem run_cons : run step s (e :: es) = run step (step s e) es := rfl

@[simp] theorem run_append : run step s (es ++ fs) = run step (run step s es) fs :=
  List.foldl_append

/-- Every event of the trace satisfies `ok` in the state it meets. -/
def Meets (step : σ → ε → σ) (ok : σ → ε → Prop) : σ → List ε → Prop
  | _, [] => True
  | s, e :: es => ok s e ∧ Meets step ok (step s e) es

/-- Whether a trace meets a condition that can be decided. -/
instance Meets.decidable {ok : σ → ε → Prop} [∀ s e, Decidable (ok s e)] :
    (s : σ) → (es : List ε) → Decidable (Meets step ok s es)
  | _, [] => .isTrue trivial
  | s, e :: es =>
    have : Decidable (Meets step ok (step s e) es) := Meets.decidable (step s e) es
    inferInstanceAs (Decidable (ok s e ∧ Meets step ok (step s e) es))

section
variable {ok : σ → ε → Prop}

@[simp] theorem meets_nil : Meets step ok s [] := trivial

@[simp] theorem meets_cons :
    Meets step ok s (e :: es) ↔ ok s e ∧ Meets step ok (step s e) es := Iff.rfl

theorem meets_append :
    Meets step ok s (es ++ fs) ↔ Meets step ok s es ∧ Meets step ok (run step s es) fs := by
  induction es generalizing s with
  | nil => simp
  | cons e es ih => simp [ih, and_assoc]

/-- An event of a trace satisfies `ok` in the state the events before it lead to. -/
theorem Meets.at {pre post : List ε} (h : Meets step ok s (pre ++ e :: post)) :
    ok (run step s pre) e :=
  (meets_append.mp h).2.1

/-- A trace meets a condition where each of its events does. -/
theorem meets_iff :
    Meets step ok s es ↔ ∀ pre e post, es = pre ++ e :: post → ok (run step s pre) e := by
  constructor
  · rintro h pre e post rfl
    exact h.at
  · intro h
    induction es generalizing s with
    | nil => trivial
    | cons e es ih =>
      refine ⟨h [] e es rfl, ih ?_⟩
      intro pre e' post hes
      exact h (e :: pre) e' post (by rw [hes]; rfl)

theorem Meets.mono {ok' : σ → ε → Prop} (h : Meets step ok s es)
    (hok : ∀ s e, ok s e → ok' s e) : Meets step ok' s es := by
  induction es generalizing s with
  | nil => trivial
  | cons e es ih => exact ⟨hok s e h.1, ih h.2⟩

/-- A condition on the events alone. -/
theorem meets_of_forall (h : ∀ s, ∀ e ∈ es, ok s e) : Meets step ok s es := by
  induction es generalizing s with
  | nil => trivial
  | cons e es ih =>
    exact ⟨h s e (List.mem_cons_self ..), ih fun s e he => h s e (List.mem_cons_of_mem _ he)⟩

/-- An invariant of one event is one of every trace. -/
theorem invariant {I : σ → Prop} (hstep : ∀ s e, I s → ok s e → I (step s e)) (hs : I s)
    (h : Meets step ok s es) : I (run step s es) := by
  induction es generalizing s with
  | nil => exact hs
  | cons e es ih => exact ih (hstep s e hs h.1) h.2

/-- An invariant of every event is one of every trace. -/
theorem always {I : σ → Prop} (hstep : ∀ s e, I s → I (step s e)) (hs : I s) :
    I (run step s es) := by
  induction es generalizing s with
  | nil => exact hs
  | cons e es ih => exact ih (hstep s e hs)

/-- What every event relates, every trace relates. -/
theorem related {R : σ → σ → Prop} (hrefl : ∀ s, R s s)
    (htrans : ∀ s t u, R s t → R t u → R s u) (hstep : ∀ s e, ok s e → R s (step s e))
    (h : Meets step ok s es) : R s (run step s es) := by
  induction es generalizing s with
  | nil => exact hrefl s
  | cons e es ih => exact htrans _ _ _ (hstep s e h.1) (ih h.2)

end

/-- The first event to end a property is one that may. -/
theorem ended {P : σ → Prop} {Q : σ → ε → Prop}
    (hstep : ∀ s e, P s → P (step s e) ∨ Q s e) (hs : P s) (hend : ¬ P (run step s es)) :
    ∃ pre e post, es = pre ++ e :: post ∧ P (run step s pre) ∧
      ¬ P (step (run step s pre) e) ∧ Q (run step s pre) e := by
  induction es generalizing s with
  | nil => exact absurd hs hend
  | cons e es ih =>
    by_cases hP : P (step s e)
    · obtain ⟨pre, e', post, hes, hbefore, hafter, hq⟩ := ih hP hend
      exact ⟨e :: pre, e', post, by rw [hes]; rfl, hbefore, hafter, hq⟩
    · exact ⟨[], e, es, rfl, hs, hP, (hstep s e hs).resolve_left hP⟩

/-- A property that no event of a trace ends persists through it. -/
theorem persists {P : σ → Prop} {Q : σ → ε → Prop}
    (hstep : ∀ s e, P s → P (step s e) ∨ Q s e) (hs : P s)
    (h : Meets step (fun s e => ¬ Q s e) s es) : P (run step s es) :=
  invariant (fun s e hP hQ => (hstep s e hP).resolve_right hQ) hs h

end Pomodorough.Library.Traces
