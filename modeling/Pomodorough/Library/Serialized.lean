import Pomodorough.Library.AtomicSteps

/-! # One program at a time, among other parties

A shared state is worked on by one program at a time, under a lock, while other
parties take steps of their own that no lock orders. A call may be abandoned
after any of its atomic steps. -/
namespace Pomodorough.Library.Serialized
open Pomodorough.Library.AtomicSteps
open Relation (ReflTransGen)

/-- The calls `κ` that take the lock, and what the other parties `ω` do. -/
structure Machine (σ ω κ α : Type) where
  /-- What a call does while it holds the lock. -/
  body : κ → Prog σ α
  /-- A step of the other parties. -/
  others : σ × ω → σ × ω → Prop
  /-- A call takes the lock. -/
  start : κ → ω → ω → Prop
  /-- A call returns; without a result it was abandoned. -/
  finish : κ → Option α → ω → ω → Prop

/-- The shared state, the other parties, and what is left of the call that
holds the lock. -/
structure Config (σ ω κ α : Type) where
  shared : σ
  parties : ω
  current : Option (κ × Prog σ α)

variable {σ ω κ α : Type}

/-- One step of the system: any party's, or the current call's. -/
inductive Step (M : Machine σ ω κ α) : Config σ ω κ α → Config σ ω κ α → Prop where
  | other {s s' w w' cur} (h : M.others (s, w) (s', w')) : Step M ⟨s, w, cur⟩ ⟨s', w', cur⟩
  | start {s w w' k} (h : M.start k w w') : Step M ⟨s, w, none⟩ ⟨s, w', some (k, M.body k)⟩
  | act {s w k u n} : Step M ⟨s, w, some (k, .act u n)⟩ ⟨u s, w, some (k, n s)⟩
  | done {s w w' k a} (h : M.finish k (some a) w w') :
      Step M ⟨s, w, some (k, .ret a)⟩ ⟨s, w', none⟩
  | abandon {s w w' k p} (h : M.finish k none w w') : Step M ⟨s, w, some (k, p)⟩ ⟨s, w', none⟩

/-- Runs whose steps all satisfy `ok`. -/
def Runs (M : Machine σ ω κ α) (ok : Config σ ω κ α → Config σ ω κ α → Prop) :
    Config σ ω κ α → Config σ ω κ α → Prop :=
  ReflTransGen fun c c' => Step M c c' ∧ ok c c'

/-- What to prove of a machine: the calls rely on `R` and guarantee `G`, and
`J` holds of the shared state and the parties between any two steps. -/
structure Rules (M : Machine σ ω κ α) (ok : Config σ ω κ α → Config σ ω κ α → Prop)
    (R G : σ → σ → Prop) (Q : κ → α → σ → Prop) (J : σ → ω → Prop) : Prop where
  refl : ∀ s, R s s
  trans : ∀ s t u, R s t → R t u → R s u
  others : ∀ {s w s' w'}, J s w → M.others (s, w) (s', w') → J s' w' ∧ R s s'
  start : ∀ {s w w' k}, J s w → M.start k w w' → J s w' ∧ Safe R G (Q k) (M.body k) s
  act : ∀ {s w s' cur cur'}, J s w → G s s' → ok ⟨s, w, cur⟩ ⟨s', w, cur'⟩ → J s' w
  finish : ∀ {s w w' k r}, J s w → (∀ a, r = some a → Q k a s) → M.finish k r w w' → J s w'

/-- The invariant the rules establish: what is left of the current call may be
resumed wherever the others lead. -/
structure Holds (R G : σ → σ → Prop) (Q : κ → α → σ → Prop) (J : σ → ω → Prop)
    (c : Config σ ω κ α) : Prop where
  inv : J c.shared c.parties
  safe : ∀ k p, c.current = some (k, p) → Safe R G (Q k) p c.shared

section
variable {M : Machine σ ω κ α} {ok : Config σ ω κ α → Config σ ω κ α → Prop}
  {R G : σ → σ → Prop} {Q : κ → α → σ → Prop} {J : σ → ω → Prop} {c c' : Config σ ω κ α}

theorem Holds.idle {s : σ} {w : ω} (h : J s w) : Holds R G Q J (⟨s, w, none⟩ : Config σ ω κ α) :=
  ⟨h, fun _ _ hcur => by cases hcur⟩

/-- A step of the current call is one it guarantees. -/
theorem Rules.guarantee (H : Rules M ok R G Q J) {s : σ} {w : ω} {k : κ} {u : σ → σ}
    {n : σ → Prog σ α} (hc : Holds R G Q J ⟨s, w, some (k, .act u n)⟩) : G s (u s) :=
  ((hc.safe k _ rfl).act H.refl).1

/-- A call that returns has established its postcondition. -/
theorem Rules.result (H : Rules M ok R G Q J) {s : σ} {w : ω} {k : κ} {a : α}
    (hc : Holds R G Q J ⟨s, w, some (k, .ret a)⟩) : Q k a s :=
  (hc.safe k _ rfl).ret H.refl

theorem Rules.step (H : Rules M ok R G Q J) (hc : Holds R G Q J c) (hs : Step M c c')
    (hok : ok c c') : Holds R G Q J c' := by
  cases hs with
  | other h =>
    obtain ⟨hJ, hR⟩ := H.others hc.inv h
    exact ⟨hJ, fun k p hcur => (hc.safe k p hcur).env hR H.trans⟩
  | start h =>
    obtain ⟨hJ, hsafe⟩ := H.start hc.inv h
    exact ⟨hJ, fun k p hcur => by cases hcur; exact hsafe⟩
  | act =>
    have hsafe := (hc.safe _ _ rfl).act H.refl
    exact ⟨H.act hc.inv hsafe.1 hok, fun k p hcur => by cases hcur; exact hsafe.2⟩
  | done h =>
    refine .idle (H.finish hc.inv (fun a ha => ?_) h)
    cases ha
    exact H.result hc
  | abandon h =>
    exact .idle (H.finish hc.inv (fun a ha => by cases ha) h)

theorem Rules.runs (H : Rules M ok R G Q J) (hc : Holds R G Q J c) (hr : Runs M ok c c') :
    Holds R G Q J c' := by
  induction hr with
  | refl => exact hc
  | tail _ hs ih => exact H.step ih hs.1 hs.2

/-- Every step of the machine takes the shared state along `T`, when the
guarantee and the other parties' steps do. -/
theorem Rules.step_shared (H : Rules M ok R G Q J) {T : σ → σ → Prop}
    (hG : ∀ {s s'}, G s s' → T s s') (hR : ∀ {s s'}, R s s' → T s s')
    (hc : Holds R G Q J c) (hs : Step M c c') : T c.shared c'.shared := by
  cases hs with
  | other h => exact hR (H.others hc.inv h).2
  | start _ => exact hR (H.refl _)
  | act => exact hG (H.guarantee hc)
  | done _ => exact hR (H.refl _)
  | abandon _ => exact hR (H.refl _)

/-- `step_shared` along a run. -/
theorem Rules.runs_shared (H : Rules M ok R G Q J) {T : σ → σ → Prop}
    (hG : ∀ {s s'}, G s s' → T s s') (hR : ∀ {s s'}, R s s' → T s s')
    (htrans : ∀ {s t u}, T s t → T t u → T s u)
    (hc : Holds R G Q J c) (hr : Runs M ok c c') : T c.shared c'.shared := by
  induction hr with
  | refl => exact hR (H.refl _)
  | tail hpre hs ih => exact htrans ih (H.step_shared hG hR (H.runs hc hpre) hs.1)

/-- While a call keeps the lock, it keeps what was shown of it at its start. -/
theorem Rules.during (H : Rules M ok R G Q J) {G' : σ → σ → Prop} {Q' : α → σ → Prop} {s : σ}
    {w : ω} {k : κ} (hc : Holds R G Q J ⟨s, w, some (k, M.body k)⟩)
    (hsafe : Safe R G' Q' (M.body k) s)
    (hr : Runs M (fun c c' => ok c c' ∧ c'.current.isSome) ⟨s, w, some (k, M.body k)⟩ c) :
    Holds R G Q J c ∧ ∃ p, c.current = some (k, p) ∧ Safe R G' Q' p c.shared := by
  induction hr with
  | refl => exact ⟨hc, _, rfl, hsafe⟩
  | tail _ hs ih =>
    obtain ⟨hb, p, hcur, hp⟩ := ih
    refine ⟨H.step hb hs.1 hs.2.1, ?_⟩
    cases hs.1 with
    | other h => exact ⟨p, hcur, hp.env (H.others hb.inv h).2 H.trans⟩
    | start _ => cases hcur
    | act =>
      cases hcur
      exact ⟨_, rfl, (hp.act H.refl).2⟩
    | done _ | abandon _ => cases hs.2.2

/-- While a call keeps the lock, the shared state moves along `T` when the
call's own guarantee and the other parties' steps do. -/
theorem Rules.during_shared (H : Rules M ok R G Q J) {G' T : σ → σ → Prop} {Q' : α → σ → Prop}
    {s : σ} {w : ω} {k : κ} (hG : ∀ {s s'}, G' s s' → T s s') (hR : ∀ {s s'}, R s s' → T s s')
    (htrans : ∀ {s t u}, T s t → T t u → T s u)
    (hc : Holds R G Q J ⟨s, w, some (k, M.body k)⟩) (hsafe : Safe R G' Q' (M.body k) s)
    (hr : Runs M (fun c c' => ok c c' ∧ c'.current.isSome) ⟨s, w, some (k, M.body k)⟩ c) :
    T s c.shared := by
  induction hr with
  | refl => exact hR (H.refl s)
  | tail hpre hs ih =>
    obtain ⟨hb, p, hcur, hp⟩ := H.during hc hsafe hpre
    refine htrans ih ?_
    cases hs.1 with
    | other h => exact hR (H.others hb.inv h).2
    | start _ => cases hcur
    | act =>
      cases hcur
      exact hG (hp.act H.refl).1
    | done _ | abandon _ => cases hs.2.2

end

/-! ## Invariants of the call in progress -/

/-- What to prove of a machine whose invariant may break, where the current call
works, until that call returns: `J` knows the call that holds the lock. -/
structure CallRules (M : Machine σ ω κ α) (ok : Config σ ω κ α → Config σ ω κ α → Prop)
    (R : σ → σ → Prop) (G : κ → σ → σ → Prop) (Q : κ → α → σ → Prop)
    (J : Option κ → σ → ω → Prop) : Prop where
  refl : ∀ s, R s s
  trans : ∀ s t u, R s t → R t u → R s u
  others : ∀ {k s w s' w'}, J k s w → M.others (s, w) (s', w') → J k s' w' ∧ R s s'
  start : ∀ {k s w w'}, J none s w → M.start k w w' →
    J (some k) s w' ∧ Safe R (G k) (Q k) (M.body k) s
  act : ∀ {k s w u n}, J (some k) s w → G k s (u s) →
    ok ⟨s, w, some (k, .act u n)⟩ ⟨u s, w, some (k, n s)⟩ → J (some k) (u s) w
  finish : ∀ {k s w w' r}, J (some k) s w → (∀ a, r = some a → Q k a s) → M.finish k r w w' →
    J none s w'

structure CallHolds (R : σ → σ → Prop) (G : κ → σ → σ → Prop) (Q : κ → α → σ → Prop)
    (J : Option κ → σ → ω → Prop) (c : Config σ ω κ α) : Prop where
  inv : J (c.current.map Prod.fst) c.shared c.parties
  safe : ∀ k p, c.current = some (k, p) → Safe R (G k) (Q k) p c.shared

section
variable {M : Machine σ ω κ α} {ok : Config σ ω κ α → Config σ ω κ α → Prop} {R : σ → σ → Prop}
  {G : κ → σ → σ → Prop} {Q : κ → α → σ → Prop} {J : Option κ → σ → ω → Prop}
  {c c' : Config σ ω κ α}

theorem CallHolds.idle {s : σ} {w : ω} (h : J none s w) :
    CallHolds R G Q J (⟨s, w, none⟩ : Config σ ω κ α) :=
  ⟨h, fun _ _ hcur => by cases hcur⟩

theorem CallRules.result (H : CallRules M ok R G Q J) {s : σ} {w : ω} {k : κ} {a : α}
    (hc : CallHolds R G Q J ⟨s, w, some (k, .ret a)⟩) : Q k a s :=
  (hc.safe k _ rfl).ret H.refl

theorem CallRules.step (H : CallRules M ok R G Q J) (hc : CallHolds R G Q J c) (hs : Step M c c')
    (hok : ok c c') : CallHolds R G Q J c' := by
  cases hs with
  | other h =>
    obtain ⟨hJ, hR⟩ := H.others hc.inv h
    exact ⟨hJ, fun k p hcur => (hc.safe k p hcur).env hR H.trans⟩
  | start h =>
    obtain ⟨hJ, hsafe⟩ := H.start hc.inv h
    exact ⟨hJ, fun k p hcur => by cases hcur; exact hsafe⟩
  | act =>
    have hsafe := (hc.safe _ _ rfl).act H.refl
    exact ⟨H.act hc.inv hsafe.1 hok, fun k p hcur => by cases hcur; exact hsafe.2⟩
  | done h =>
    refine .idle (H.finish hc.inv (fun a ha => ?_) h)
    cases ha
    exact H.result hc
  | abandon h =>
    exact .idle (H.finish hc.inv (fun a ha => by cases ha) h)

theorem CallRules.runs (H : CallRules M ok R G Q J) (hc : CallHolds R G Q J c)
    (hr : Runs M ok c c') : CallHolds R G Q J c' := by
  induction hr with
  | refl => exact hc
  | tail _ hs ih => exact H.step ih hs.1 hs.2

end

/-! ## Runs without interference -/

section
variable {M : Machine σ ω κ α} {ok : Config σ ω κ α → Config σ ω κ α → Prop}

theorem Runs.mono {ok' : Config σ ω κ α → Config σ ω κ α → Prop} {c c' : Config σ ω κ α}
    (h : Runs M ok c c') (hok : ∀ a b, ok a b → ok' a b) : Runs M ok' c c' :=
  ReflTransGen.mono (fun _ _ hs => ⟨hs.1, hok _ _ hs.2⟩) _ _ h

/-- Runs of a machine whose calls start in fewer cases. -/
theorem Runs.weaken {M' : Machine σ ω κ α} {c c' : Config σ ω κ α} (h : Runs M ok c c')
    (hbody : M.body = M'.body) (hothers : M.others = M'.others)
    (hstart : ∀ k w w', M.start k w w' → M'.start k w w') (hfinish : M.finish = M'.finish) :
    Runs M' ok c c' := by
  refine ReflTransGen.mono (fun a b hs => ⟨?_, hs.2⟩) _ _ h
  cases hs.1 with
  | other h => exact .other (hothers ▸ h)
  | start h =>
    rw [hbody]
    exact .start (hstart _ _ _ h)
  | act => exact .act
  | done h => exact .done (hfinish ▸ h)
  | abandon h => exact .abandon (hfinish ▸ h)

theorem Runs.single {c c' : Config σ ω κ α} (h : Step M c c') (hok : ok c c') : Runs M ok c c' :=
  ReflTransGen.single ⟨h, hok⟩

/-- The rest of a call runs to its end when nobody else moves, and every step
starts in a state where steps are allowed. -/
theorem Runs.rest_where {P : σ → Prop} {w : ω} {k : κ}
    (hok : ∀ s s' p p', P s → ok ⟨s, w, some (k, p)⟩ ⟨s', w, some (k, p')⟩)
    (p : Prog σ α) (s : σ) (hP : ∀ t ∈ (p.states s).dropLast, P t) :
    Runs M ok ⟨s, w, some (k, p)⟩ ⟨(p.run s).2, w, some (k, .ret (p.run s).1)⟩ := by
  induction p generalizing s with
  | ret a => exact ReflTransGen.refl
  | act u n ih =>
    have hne : (n s).states (u s) ≠ [] := List.ne_nil_of_mem (Prog.start_mem_states _ _)
    rw [Prog.states, List.dropLast_cons_of_ne_nil hne] at hP
    have hrest := ih s (u s) fun t ht => hP t (List.mem_cons_of_mem _ ht)
    exact ReflTransGen.head ⟨Step.act, hok _ _ _ _ (hP s List.mem_cons_self)⟩ hrest

/-- The rest of a call runs to its end when nobody else moves. -/
theorem Runs.rest {w : ω} {k : κ} (hok : ∀ s s' p p', ok ⟨s, w, some (k, p)⟩ ⟨s', w, some (k, p')⟩)
    (p : Prog σ α) (s : σ) :
    Runs M ok ⟨s, w, some (k, p)⟩ ⟨(p.run s).2, w, some (k, .ret (p.run s).1)⟩ :=
  Runs.rest_where (P := fun _ => True) (fun s s' p p' _ => hok s s' p p') p s fun _ _ => trivial

/-- The first steps of what is left of a call. -/
theorem Runs.after {w : ω} {k : κ}
    (hok : ∀ s s' p p', ok ⟨s, w, some (k, p)⟩ ⟨s', w, some (k, p')⟩) (count : Nat)
    (p : Prog σ α) (s : σ) :
    Runs M ok ⟨s, w, some (k, p)⟩
      ⟨(Prog.after count p s).2, w, some (k, (Prog.after count p s).1)⟩ := by
  induction count generalizing p s with
  | zero => exact ReflTransGen.refl
  | succ count ih =>
    cases p with
    | ret a => exact ReflTransGen.refl
    | act u n => exact ReflTransGen.head ⟨Step.act, hok _ _ _ _⟩ (ih (n s) (u s))

/-- A whole call, from taking the lock to its return, when nobody else moves. -/
theorem Runs.call {w w₁ w₂ : ω} {k : κ} {s : σ} {r : α × σ} (hr : (M.body k).run s = r)
    (hstart : M.start k w w₁) (hfinish : M.finish k (some r.1) w₁ w₂)
    (hok₁ : ok ⟨s, w, none⟩ ⟨s, w₁, some (k, M.body k)⟩)
    (hok : ∀ s s' p p', ok ⟨s, w₁, some (k, p)⟩ ⟨s', w₁, some (k, p')⟩)
    (hok₂ : ok ⟨r.2, w₁, some (k, .ret r.1)⟩ ⟨r.2, w₂, none⟩) :
    Runs M ok ⟨s, w, none⟩ ⟨r.2, w₂, none⟩ := by
  subst hr
  exact ReflTransGen.head ⟨Step.start hstart, hok₁⟩
    (ReflTransGen.tail (Runs.rest hok _ s) ⟨Step.done hfinish, hok₂⟩)

end

end Pomodorough.Library.Serialized
