import Mathlib.Logic.Relation
import Mathlib.Order.Basic

/-! # Programs of atomic steps

A program over a shared state is a finite tree of atomic steps. A step reads
the whole state, updates it, and continues depending on what it read; between
two steps anything else may run. The tree gives three readings of one
definition: `run` (nothing interferes), `states` (where the program can be
interrupted), and `Sat` (the environment interferes between any two steps). -/
namespace Pomodorough.Library.AtomicSteps

/-- A finite program of atomic steps. `next` receives the state *before* the
step's update, so a step may both return what it read and change it. -/
inductive Prog (σ α : Type) where
  | ret (a : α)
  | act (upd : σ → σ) (next : σ → Prog σ α)

variable {σ α β ε : Type}

namespace Prog

def bind : Prog σ α → (α → Prog σ β) → Prog σ β
  | ret a, k => k a
  | act u n, k => act u fun s => (n s).bind k

instance : Monad (Prog σ) where
  pure := ret
  bind := bind

/-- One atomic step that returns a value. -/
def atomic (f : σ → α × σ) : Prog σ α :=
  act (fun s => (f s).2) fun s => ret (f s).1

/-- The result and the last state when nothing interferes. -/
def run : Prog σ α → σ → α × σ
  | ret a, s => (a, s)
  | act u n, s => (n s).run (u s)

/-- The states the program passes through when nothing interferes, in order:
the shared state wherever it stops early is one of them. -/
def states : Prog σ α → σ → List σ
  | ret _, s => [s]
  | act u n, s => s :: (n s).states (u s)

/-- What is left of the program, and the shared state, after so many steps. -/
def after : Nat → Prog σ α → σ → Prog σ α × σ
  | 0, p, s => (p, s)
  | _ + 1, ret a, s => (ret a, s)
  | k + 1, act u n, s => after k (n s) (u s)

theorem pure_eq (a : α) : (pure a : Prog σ α) = ret a := rfl
theorem bind_eq (p : Prog σ α) (k : α → Prog σ β) : p >>= k = p.bind k := rfl

@[simp] theorem run_ret (a : α) (s : σ) : (ret a : Prog σ α).run s = (a, s) := rfl
@[simp] theorem run_act (u : σ → σ) (n : σ → Prog σ α) (s : σ) :
    (act u n).run s = (n s).run (u s) := rfl

theorem run_bind (p : Prog σ α) (k : α → Prog σ β) (s : σ) :
    (p.bind k).run s = (k (p.run s).1).run (p.run s).2 := by
  induction p generalizing s with
  | ret a => rfl
  | act u n ih => exact ih s (u s)

/-- The last state of a run is one of the states passed through. -/
theorem run_mem_states (p : Prog σ α) (s : σ) : (p.run s).2 ∈ p.states s := by
  induction p generalizing s with
  | ret a => exact List.mem_singleton.mpr rfl
  | act u n ih => exact List.mem_cons_of_mem _ (ih s (u s))

theorem start_mem_states (p : Prog σ α) (s : σ) : s ∈ p.states s := by
  cases p with
  | ret a => exact List.mem_singleton.mpr rfl
  | act u n => exact List.mem_cons_self

/-- A sequence is interrupted in its first part or in its second. -/
theorem mem_states_bind {p : Prog σ α} {k : α → Prog σ β} {s t : σ} :
    t ∈ (p.bind k).states s ↔
      t ∈ (p.states s).dropLast ∨ t ∈ (k (p.run s).1).states (p.run s).2 := by
  induction p generalizing s with
  | ret a => simp [bind, states, run]
  | act u n ih =>
    have hne : ((n s).states (u s)) ≠ [] := List.ne_nil_of_mem (start_mem_states _ _)
    simp only [bind, states, run, List.mem_cons, ih, List.dropLast_cons_of_ne_nil hne]
    exact or_assoc.symm

end Prog

/-! ## Interference -/

/-- `p`, started in `s` while the environment takes `R`-steps between its own
steps, only takes `G`-steps and ends with `Q`. -/
def Sat (R G : σ → σ → Prop) (Q : α → σ → Prop) : Prog σ α → σ → Prop
  | .ret a, s => Q a s
  | .act u n, s => G s (u s) ∧ ∀ s', R (u s) s' → Sat R G Q (n s) s'

section Sat
variable {R R' G G' : σ → σ → Prop} {Q Q' : α → σ → Prop}

theorem sat_bind {T : β → σ → Prop} (p : Prog σ α) (k : α → Prog σ β) (s : σ) :
    Sat R G T (p.bind k) s ↔ Sat R G (fun a => Sat R G T (k a)) p s := by
  induction p generalizing s with
  | ret a => rfl
  | act u n ih => simp only [Prog.bind, Sat, ih]

theorem sat_atomic (f : σ → α × σ) (s : σ) :
    Sat R G Q (Prog.atomic f) s ↔ G s (f s).2 ∧ ∀ s', R (f s).2 s' → Q (f s).1 s' := Iff.rfl

theorem Sat.mono {p : Prog σ α} {s : σ} (h : Sat R G Q p s) (hR : ∀ a b, R' a b → R a b)
    (hG : ∀ a b, G a b → G' a b) (hQ : ∀ a t, Q a t → Q' a t) : Sat R' G' Q' p s := by
  induction p generalizing s with
  | ret a => exact hQ a s h
  | act u n ih => exact ⟨hG _ _ h.1, fun s' hs => ih s (h.2 s' (hR _ _ hs))⟩

theorem Sat.imp {p : Prog σ α} {s : σ} (h : Sat R G Q p s) (hQ : ∀ a t, Q a t → Q' a t) :
    Sat R G Q' p s := h.mono (fun _ _ => id) (fun _ _ => id) hQ

/-- Two guarantees and two results of one program hold together. -/
theorem Sat.and {p : Prog σ α} {s : σ} (h : Sat R G Q p s) (h' : Sat R G' Q' p s) :
    Sat R (fun a b => G a b ∧ G' a b) (fun a t => Q a t ∧ Q' a t) p s := by
  induction p generalizing s with
  | ret a => exact ⟨h, h'⟩
  | act u n ih => exact ⟨⟨h.1, h'.1⟩, fun s' hs => ih s (h.2 s' hs) (h'.2 s' hs)⟩

/-- A property of states that neither the program's steps nor the environment
break holds at the end if it holds at the start. -/
theorem Sat.keep {P : σ → Prop} {p : Prog σ α} {s : σ} (h : Sat R G Q p s) (hs : P s)
    (hR : ∀ a b, R a b → P a → P b) (hG : ∀ a b, G a b → P a → P b) :
    Sat R (fun a b => G a b ∧ P a) (fun a t => Q a t ∧ P t) p s := by
  induction p generalizing s with
  | ret a => exact ⟨h, hs⟩
  | act u n ih =>
    have hu : P (u s) := hG _ _ h.1 hs
    exact ⟨⟨h.1, hs⟩, fun s' hs' => ih s (h.2 s' hs') (hR _ _ hs' hu)⟩

/-- What `Sat` says when nothing interferes. -/
theorem Sat.run {p : Prog σ α} {s : σ} (h : Sat R G Q p s) (hR : ∀ a, R a a) :
    Q (p.run s).1 (p.run s).2 := by
  induction p generalizing s with
  | ret a => exact h
  | act u n ih => exact ih s (h.2 _ (hR _))

/-- Every state passed through is reached by `G`-steps. -/
theorem Sat.states {p : Prog σ α} {s : σ} (h : Sat R G Q p s) (hR : ∀ a, R a a) :
    ∀ t ∈ p.states s, Relation.ReflTransGen G s t := by
  induction p generalizing s with
  | ret a => intro t ht; rw [List.mem_singleton.mp ht]
  | act u n ih =>
    intro t ht
    rcases List.mem_cons.mp ht with rfl | ht
    · exact .refl
    · exact .head h.1 (ih s (h.2 _ (hR _)) t ht)

end Sat

/-! ## Programs that can fail -/

/-- A program that may stop with an error. -/
abbrev Op (σ ε : Type) := ExceptT ε (Prog σ)

namespace Op

/-- One atomic step that cannot fail. -/
def step (f : σ → α × σ) : Op σ ε α :=
  ExceptT.mk (Prog.atomic fun s => (.ok (f s).1, (f s).2))

/-- One atomic step that may fail. -/
def tryStep (f : σ → Except ε α × σ) : Op σ ε α := ExceptT.mk (Prog.atomic f)

/-- Read the state and check what was read. -/
def tryRead (f : σ → Except ε α) : Op σ ε α := tryStep fun s => (f s, s)

/-- Read the state. -/
def read (f : σ → α) : Op σ ε α := step fun s => (f s, s)

/-- Change the state. -/
def modify (f : σ → σ) : Op σ ε Unit := step fun s => ((), f s)

/-- A result already computed from values read. -/
def lift (r : Except ε α) : Op σ ε α := ExceptT.mk (Prog.ret r)

/-- A check on values already read. -/
def require (c : Bool) (e : ε) : Op σ ε Unit := if c then pure () else throw e

/-- The same program for every element, in order. -/
def forEach (f : α → Op σ ε Unit) : List α → Op σ ε Unit
  | [] => pure ()
  | a :: l => do
    f a
    forEach f l

/-- The outcome and the last state when nothing interferes. -/
def exec (x : Op σ ε α) (s : σ) : Except ε α × σ := Prog.run (ExceptT.run x) s

end Op

/-- `Sat` for a program that may fail: `Q` speaks about both outcomes. -/
def Meets (R G : σ → σ → Prop) (Q : Except ε α → σ → Prop) (x : Op σ ε α) (s : σ) : Prop :=
  Sat R G Q (ExceptT.run x) s

section Meets
variable {R R' G G' : σ → σ → Prop} {Q Q' : Except ε α → σ → Prop}

@[simp] theorem meets_pure (a : α) (s : σ) : Meets R G Q (pure a) s ↔ Q (.ok a) s := Iff.rfl

@[simp] theorem meets_throw (e : ε) (s : σ) : Meets R G Q (throw e) s ↔ Q (.error e) s := Iff.rfl

@[simp] theorem meets_bind {T : Except ε β → σ → Prop} (x : Op σ ε α) (k : α → Op σ ε β) (s : σ) :
    Meets R G T (x >>= k) s ↔ Meets R G (fun r s' => match r with
      | .ok a => Meets R G T (k a) s'
      | .error e => T (.error e) s') x s := by
  refine (sat_bind (ExceptT.run x) (ExceptT.bindCont k) s).trans ?_
  constructor <;> refine fun h => Sat.imp h fun a t ha => ?_
  all_goals cases a <;> exact ha

@[simp] theorem meets_step (f : σ → α × σ) (s : σ) :
    Meets R G Q (Op.step f) s ↔ G s (f s).2 ∧ ∀ s', R (f s).2 s' → Q (.ok (f s).1) s' := Iff.rfl

@[simp] theorem meets_tryStep (f : σ → Except ε α × σ) (s : σ) :
    Meets R G Q (Op.tryStep f) s ↔ G s (f s).2 ∧ ∀ s', R (f s).2 s' → Q (f s).1 s' := Iff.rfl

@[simp] theorem meets_tryRead (f : σ → Except ε α) (s : σ) :
    Meets R G Q (Op.tryRead f) s ↔ G s s ∧ ∀ s', R s s' → Q (f s) s' := Iff.rfl

@[simp] theorem meets_read (f : σ → α) (s : σ) :
    Meets R G Q (Op.read f) s ↔ G s s ∧ ∀ s', R s s' → Q (.ok (f s)) s' := Iff.rfl

@[simp] theorem meets_modify {T : Except ε Unit → σ → Prop} (f : σ → σ) (s : σ) :
    Meets R G T (Op.modify f) s ↔ G s (f s) ∧ ∀ s', R (f s) s' → T (.ok ()) s' := Iff.rfl

@[simp] theorem meets_lift (r : Except ε α) (s : σ) : Meets R G Q (Op.lift r) s ↔ Q r s := Iff.rfl

@[simp] theorem meets_require {T : Except ε Unit → σ → Prop} (c : Bool) (e : ε) (s : σ) :
    Meets R G T (Op.require c e) s ↔ if c then T (.ok ()) s else T (.error e) s := by
  cases c <;> exact Iff.rfl

theorem Meets.mono {x : Op σ ε α} {s : σ} (h : Meets R G Q x s) (hR : ∀ a b, R' a b → R a b)
    (hG : ∀ a b, G a b → G' a b) (hQ : ∀ a t, Q a t → Q' a t) : Meets R' G' Q' x s :=
  Sat.mono h hR hG hQ

theorem Meets.imp {x : Op σ ε α} {s : σ} (h : Meets R G Q x s) (hQ : ∀ a t, Q a t → Q' a t) :
    Meets R G Q' x s := Sat.imp h hQ

theorem Meets.and {x : Op σ ε α} {s : σ} (h : Meets R G Q x s) (h' : Meets R G' Q' x s) :
    Meets R (fun a b => G a b ∧ G' a b) (fun a t => Q a t ∧ Q' a t) x s := Sat.and h h'

theorem Meets.keep {P : σ → Prop} {x : Op σ ε α} {s : σ} (h : Meets R G Q x s) (hs : P s)
    (hR : ∀ a b, R a b → P a → P b) (hG : ∀ a b, G a b → P a → P b) :
    Meets R (fun a b => G a b ∧ P a) (fun a t => Q a t ∧ P t) x s := Sat.keep h hs hR hG

/-- The sequence rule: a first part with its own postcondition, then the rest
from every state that satisfies it. -/
theorem Meets.bind {T : Except ε β → σ → Prop} {x : Op σ ε α} {k : α → Op σ ε β} {s : σ}
    (h : Meets R G Q x s) (hok : ∀ a t, Q (.ok a) t → Meets R G T (k a) t)
    (herr : ∀ e t, Q (.error e) t → T (.error e) t) : Meets R G T (x >>= k) s :=
  (meets_bind x k s).mpr (h.imp fun r t hr => by
    cases r with
    | ok a => exact hok a t hr
    | error e => exact herr e t hr)

/-- The loop rule: `I` speaks about the elements that are done. -/
theorem Meets.forEach {R G : σ → σ → Prop} {f : α → Op σ ε Unit} {l : List α}
    {I : List α → σ → Prop} {s : σ}
    (hstep : ∀ done a todo s, l = done ++ a :: todo → I done s →
      Meets R G (fun r t => r = .ok () ∧ I (done ++ [a]) t) (f a) s)
    (hs : I [] s) : Meets R G (fun r t => r = .ok () ∧ I l t) (Op.forEach f l) s := by
  have hrest : ∀ todo done s, l = done ++ todo → I done s →
      Meets R G (fun r t => r = .ok () ∧ I l t) (Op.forEach f todo) s := by
    intro todo
    induction todo with
    | nil =>
      intro done s hl hdone
      rw [List.append_nil] at hl
      exact ⟨rfl, hl ▸ hdone⟩
    | cons a todo ih =>
      intro done s hl hdone
      refine Meets.bind (hstep done a todo s hl hdone) (fun _ t ht => ?_) fun e t ht => by cases ht.1
      exact ih (done ++ [a]) t (by simp [hl]) ht.2
  exact hrest l [] s rfl hs

theorem Meets.exec {x : Op σ ε α} {s : σ} (h : Meets R G Q x s) (hR : ∀ a, R a a) :
    Q (x.exec s).1 (x.exec s).2 := Sat.run h hR

/-- Without interference a program goes along its guarantee. -/
theorem Meets.exec_steps {x : Op σ ε α} {s : σ} (h : Meets R G Q x s) (hR : ∀ a, R a a) :
    Relation.ReflTransGen G s (x.exec s).2 :=
  Sat.states h hR _ (Prog.run_mem_states (ExceptT.run x) s)

end Meets

/-! ## Running without interference -/

namespace Op

@[simp] theorem exec_pure (a : α) (s : σ) : (pure a : Op σ ε α).exec s = (.ok a, s) := rfl

@[simp] theorem exec_throw (e : ε) (s : σ) : (throw e : Op σ ε α).exec s = (.error e, s) := rfl

@[simp] theorem exec_bind (x : Op σ ε α) (k : α → Op σ ε β) (s : σ) :
    (x >>= k).exec s = match x.exec s with
      | (.ok a, t) => (k a).exec t
      | (.error e, t) => (.error e, t) := by
  change Prog.run ((ExceptT.run x).bind (ExceptT.bindCont k)) s = _
  rw [Prog.run_bind]
  unfold exec
  cases h : Prog.run (ExceptT.run x) s with
  | mk r t => cases r <;> rfl

@[simp] theorem exec_step (f : σ → α × σ) (s : σ) :
    (step f : Op σ ε α).exec s = (.ok (f s).1, (f s).2) := rfl

@[simp] theorem exec_tryStep (f : σ → Except ε α × σ) (s : σ) : (tryStep f).exec s = f s := rfl

@[simp] theorem exec_tryRead (f : σ → Except ε α) (s : σ) : (tryRead f).exec s = (f s, s) := rfl

@[simp] theorem exec_read (f : σ → α) (s : σ) : (read f : Op σ ε α).exec s = (.ok (f s), s) := rfl

@[simp] theorem exec_modify (f : σ → σ) (s : σ) :
    (modify f : Op σ ε Unit).exec s = (.ok (), f s) := rfl

@[simp] theorem exec_lift (r : Except ε α) (s : σ) : (lift r : Op σ ε α).exec s = (r, s) := rfl

@[simp] theorem exec_require (c : Bool) (e : ε) (s : σ) :
    (require c e : Op σ ε Unit).exec s = if c then (.ok (), s) else (.error e, s) := by
  cases c <;> rfl

/-- A sequence succeeds when its first part and then its second do. -/
theorem exec_bind_ok {x : Op σ ε α} {k : α → Op σ ε β} {s t : σ} {b : β} :
    (x >>= k).exec s = (.ok b, t) ↔
      ∃ a u, x.exec s = (.ok a, u) ∧ (k a).exec u = (.ok b, t) := by
  rw [exec_bind]
  rcases h : x.exec s with ⟨r, u⟩
  constructor
  · intro hk
    cases r with
    | error e => cases hk
    | ok a => exact ⟨a, u, rfl, hk⟩
  · rintro ⟨a, v, ha, hk⟩
    cases ha
    exact hk

theorem exec_require_ok {c : Bool} {e : ε} {s t : σ} :
    (require c e : Op σ ε Unit).exec s = (.ok (), t) ↔ c = true ∧ s = t := by
  cases c <;> simp

theorem exec_lift_ok {r : Except ε α} {s t : σ} {a : α} :
    (lift r : Op σ ε α).exec s = (.ok a, t) ↔ r = .ok a ∧ s = t := by
  simp

end Op

/-! ## Where it can stop -/

namespace Op

/-- The states a program that may fail passes through. -/
def states (x : Op σ ε α) (s : σ) : List σ := Prog.states (ExceptT.run x) s

@[simp] theorem states_pure (a : α) (s : σ) : (pure a : Op σ ε α).states s = [s] := rfl

@[simp] theorem states_throw (e : ε) (s : σ) : (throw e : Op σ ε α).states s = [s] := rfl

@[simp] theorem states_lift (r : Except ε α) (s : σ) : (lift r : Op σ ε α).states s = [s] := rfl

@[simp] theorem states_require (c : Bool) (e : ε) (s : σ) :
    (require c e : Op σ ε Unit).states s = [s] := by
  cases c <;> rfl

@[simp] theorem states_step (f : σ → α × σ) (s : σ) :
    (step f : Op σ ε α).states s = [s, (f s).2] := rfl

@[simp] theorem states_tryRead (f : σ → Except ε α) (s : σ) :
    (tryRead f).states s = [s, s] := rfl

@[simp] theorem states_read (f : σ → α) (s : σ) : (read f : Op σ ε α).states s = [s, s] := rfl

@[simp] theorem states_modify (f : σ → σ) (s : σ) :
    (modify f : Op σ ε Unit).states s = [s, f s] := rfl

theorem mem_states_bind {x : Op σ ε α} {k : α → Op σ ε β} {s t : σ}
    (h : t ∈ (x >>= k).states s) :
    t ∈ x.states s ∨ ∃ a u, x.exec s = (.ok a, u) ∧ t ∈ (k a).states u := by
  change t ∈ ((ExceptT.run x).bind (ExceptT.bindCont k)).states s at h
  rcases Prog.mem_states_bind.mp h with h | h
  · exact .inl (List.dropLast_subset _ h)
  · rcases hx : Prog.run (ExceptT.run x) s with ⟨r, u⟩
    rw [hx] at h
    cases r with
    | ok a => exact .inr ⟨a, u, hx, h⟩
    | error e =>
      have hu : t = u := List.mem_singleton.mp h
      refine .inl ?_
      have hlast := Prog.run_mem_states (ExceptT.run x) s
      rw [hx] at hlast
      exact hu ▸ hlast

/-- The last state of a run is one of the states passed through. -/
theorem exec_mem_states (x : Op σ ε α) (s : σ) : (x.exec s).2 ∈ x.states s :=
  Prog.run_mem_states (ExceptT.run x) s

/-- A loop stops where one of its rounds does. -/
theorem states_forEach {r : σ → σ → Prop} (refl : ∀ s, r s s)
    (trans : ∀ s t u, r s t → r t u → r s u) {f : α → Op σ ε Unit} {l : List α}
    (hf : ∀ a ∈ l, ∀ s t, t ∈ (f a).states s → r s t) {s t : σ}
    (h : t ∈ (forEach f l).states s) : r s t := by
  induction l generalizing s with
  | nil =>
    rw [forEach, states_pure, List.mem_singleton] at h
    rw [h]
    exact refl s
  | cons a l ih =>
    obtain ⟨ha, hl⟩ := List.forall_mem_cons.mp hf
    obtain h | ⟨_, u, hexec, h⟩ := mem_states_bind h
    · exact ha s t h
    · have hfirst := ha s _ (exec_mem_states (f a) s)
      rw [hexec] at hfirst
      exact trans s u t hfirst (ih hl h)

/-- A program that starts with a step stops before it or after it. -/
theorem mem_states_step_bind {f : σ → α × σ} {k : α → Op σ ε β} {s t : σ}
    (h : t ∈ (step f >>= k).states s) : t = s ∨ t ∈ (k (f s).1).states (f s).2 :=
  List.mem_cons.mp h

theorem mem_states_modify_bind {f : σ → σ} {k : Unit → Op σ ε β} {s t : σ}
    (h : t ∈ (modify f >>= k).states s) : t = s ∨ t ∈ (k ()).states (f s) :=
  mem_states_step_bind h

theorem mem_states_tryRead_bind {f : σ → Except ε α} {k : α → Op σ ε β} {s t : σ}
    (h : t ∈ (tryRead f >>= k).states s) : t = s ∨ ∃ a, f s = .ok a ∧ t ∈ (k a).states s := by
  obtain h | ⟨a, u, hexec, h⟩ := mem_states_bind h
  · simp only [states_tryRead, List.mem_cons, List.not_mem_nil, or_false, or_self] at h
    exact .inl h
  · rw [exec_tryRead, Prod.mk.injEq] at hexec
    obtain ⟨hread, rfl⟩ := hexec
    exact .inr ⟨a, hread, h⟩

end Op

/-! ## A program among others

Between two of its steps a program waits; `Safe` is what holds while it does,
whatever the environment has done meanwhile. -/

/-- `p` may be resumed in `s` or wherever `R` leads from there. -/
def Safe (R G : σ → σ → Prop) (Q : α → σ → Prop) (p : Prog σ α) (s : σ) : Prop :=
  ∀ s', R s s' → Sat R G Q p s'

section Safe
variable {R G : σ → σ → Prop} {Q : α → σ → Prop}

theorem Safe.env {p : Prog σ α} {s t : σ} (h : Safe R G Q p s) (hR : R s t)
    (trans : ∀ a b c, R a b → R b c → R a c) : Safe R G Q p t :=
  fun s' hs => h s' (trans _ _ _ hR hs)

theorem Safe.act {u : σ → σ} {n : σ → Prog σ α} {s : σ} (h : Safe R G Q (.act u n) s)
    (refl : ∀ a, R a a) : G s (u s) ∧ Safe R G Q (n s) (u s) :=
  ⟨(h s (refl s)).1, (h s (refl s)).2⟩

theorem Safe.ret {a : α} {s : σ} (h : Safe R G Q (.ret a) s) (refl : ∀ a, R a a) : Q a s :=
  h s (refl s)

end Safe

/-! ## Programs of one kind of step

Where every step is a `G`-step from any state at all, no environment matters. -/

/-- Every step of the program, wherever it is taken, is a `G`-step. -/
def Steps (G : σ → σ → Prop) : Prog σ α → Prop
  | .ret _ => True
  | .act u n => (∀ s, G s (u s)) ∧ ∀ s, Steps G (n s)

/-- `Steps` for a program that may fail. -/
def Always (G : σ → σ → Prop) (x : Op σ ε α) : Prop := Steps G (ExceptT.run x)

section Always
variable {R G G' : σ → σ → Prop}

theorem Steps.bind {p : Prog σ α} {k : α → Prog σ β} (h : Steps G p) (hk : ∀ a, Steps G (k a)) :
    Steps G (p.bind k) := by
  induction p with
  | ret a => exact hk a
  | act u n ih => exact ⟨h.1, fun s => ih s (h.2 s)⟩

theorem Steps.sat {p : Prog σ α} {s : σ} (h : Steps G p) :
    Sat R G (fun _ _ => True) p s := by
  induction p generalizing s with
  | ret a => trivial
  | act u n ih => exact ⟨h.1 s, fun _ _ => ih s (h.2 s)⟩

theorem Always.bind {x : Op σ ε α} {k : α → Op σ ε β} (h : Always G x)
    (hk : ∀ a, Always G (k a)) : Always G (x >>= k) :=
  Steps.bind h fun r => by
    cases r with
    | ok a => exact hk a
    | error e => trivial

theorem Always.meets {x : Op σ ε α} {s : σ} (h : Always G x) :
    Meets R G (fun _ _ => True) x s := Steps.sat h

@[simp] theorem always_pure (a : α) : Always G (pure a : Op σ ε α) := trivial
@[simp] theorem always_throw (e : ε) : Always G (throw e : Op σ ε α) := trivial
@[simp] theorem always_lift (r : Except ε α) : Always G (Op.lift r : Op σ ε α) := trivial

@[simp] theorem always_require (c : Bool) (e : ε) : Always G (Op.require c e : Op σ ε Unit) := by
  cases c <;> trivial

@[simp] theorem always_step (f : σ → α × σ) :
    Always G (Op.step f : Op σ ε α) ↔ ∀ s, G s (f s).2 :=
  ⟨fun h => h.1, fun h => ⟨h, fun _ => trivial⟩⟩

@[simp] theorem always_modify (f : σ → σ) :
    Always G (Op.modify f : Op σ ε Unit) ↔ ∀ s, G s (f s) := always_step _

@[simp] theorem always_read (f : σ → α) : Always G (Op.read f : Op σ ε α) ↔ ∀ s, G s s :=
  always_step _

@[simp] theorem always_tryRead (f : σ → Except ε α) : Always G (Op.tryRead f) ↔ ∀ s, G s s :=
  ⟨fun h => h.1, fun h => ⟨h, fun _ => trivial⟩⟩

end Always

/-! ## What holds wherever a program stops -/

/-- `P` holds wherever the program stops, alone. -/
def Keeps (P : σ → Prop) (x : Op σ ε α) (s : σ) : Prop := ∀ t ∈ x.states s, P t

section Keeps
variable {P : σ → Prop} {x : Op σ ε α} {s : σ}

theorem Keeps.exec (h : Keeps P x s) : P (x.exec s).2 := h _ (Op.exec_mem_states x s)

/-- The rest starts where the first part ended. -/
theorem Keeps.bind {k : α → Op σ ε β} (h : Keeps P x s)
    (hk : ∀ a t, x.exec s = (.ok a, t) → P t → Keeps P (k a) t) : Keeps P (x >>= k) s := by
  intro t ht
  obtain ht | ⟨a, u, hexec, ht⟩ := Op.mem_states_bind ht
  · exact h t ht
  · have hu := h.exec
    rw [hexec] at hu
    exact hk a u hexec hu t ht

theorem Keeps.of_meets {Q : Except ε α → σ → Prop} (h : Meets Eq (fun a b => P a → P b) Q x s)
    (hs : P s) : Keeps P x s := by
  intro t ht
  have hsteps := Sat.states h (fun _ => rfl) t ht
  clear ht
  induction hsteps with
  | refl => exact hs
  | tail _ hstep ih => exact hstep ih

@[simp] theorem keeps_pure (a : α) : Keeps P (pure a : Op σ ε α) s ↔ P s := List.forall_mem_singleton

@[simp] theorem keeps_throw (e : ε) : Keeps P (throw e : Op σ ε α) s ↔ P s :=
  List.forall_mem_singleton

@[simp] theorem keeps_lift (r : Except ε α) : Keeps P (Op.lift r : Op σ ε α) s ↔ P s :=
  List.forall_mem_singleton

@[simp] theorem keeps_require (c : Bool) (e : ε) : Keeps P (Op.require c e) s ↔ P s := by
  rw [Keeps, Op.states_require]
  exact List.forall_mem_singleton

@[simp] theorem keeps_read (f : σ → α) : Keeps P (Op.read f : Op σ ε α) s ↔ P s := by
  simp [Keeps]

@[simp] theorem keeps_modify (f : σ → σ) :
    Keeps P (Op.modify f : Op σ ε Unit) s ↔ P s ∧ P (f s) := by
  simp [Keeps]

end Keeps

end Pomodorough.Library.AtomicSteps
