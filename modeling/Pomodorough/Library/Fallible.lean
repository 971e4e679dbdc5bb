import Mathlib.Data.List.Basic

/-! # Fallible computations

Inverting a computation in `Except` that has succeeded, one step at a time. -/
namespace Pomodorough.Library.Fallible

variable {ε α β : Type}

theorem bind_ok_iff {x : Except ε α} {f : α → Except ε β} {b : β} :
    (x >>= f) = .ok b ↔ ∃ a, x = .ok a ∧ f a = .ok b := by
  cases x <;> simp [bind, Except.bind]

theorem bind_error {x : Except ε α} {f : α → Except ε β} {e : ε} (h : x = .error e) :
    (x >>= f) = .error e := by
  rw [h]
  rfl

theorem map_ok_iff {x : Except ε α} {f : α → β} {b : β} :
    f <$> x = .ok b ↔ ∃ a, x = .ok a ∧ f a = b := by
  cases x <;> simp [Functor.map, Except.map]

/-- A computation that was evaluated has succeeded. -/
theorem exists_ok {x : Except ε α} {p : α → Bool} (h : x.toOption.any p = true) :
    ∃ a, x = .ok a ∧ p a = true := by
  cases x with
  | ok a => exact ⟨a, rfl, h⟩
  | error e => cases h

theorem exists_of_isOk {x : Except ε α} (h : x.isOk = true) : ∃ a, x = .ok a := by
  cases x with
  | error e => cases h
  | ok a => exact ⟨a, rfl⟩

/-- Fails with `e` unless the condition holds. -/
def check (c : Prop) [Decidable c] (e : ε) : Except ε Unit :=
  if c then .ok () else .error e

@[simp] theorem check_ok_iff {c : Prop} [Decidable c] {e : ε} {u : Unit} :
    check c e = .ok u ↔ c := by
  unfold check
  split <;> simp_all

/-- A check of every element. -/
def checkAll (f : α → Except ε Unit) : List α → Except ε Unit
  | [] => .ok ()
  | a :: as => do
    f a
    checkAll f as

theorem checkAll_ok_iff {f : α → Except ε Unit} {l : List α} {u : Unit} :
    checkAll f l = .ok u ↔ ∀ a ∈ l, f a = .ok () := by
  induction l with
  | nil => simp [checkAll]
  | cons a as ih =>
    simp only [checkAll, bind_ok_iff, ih, List.mem_cons, forall_eq_or_imp]
    constructor
    · rintro ⟨_, ha, has⟩
      exact ⟨ha, has⟩
    · rintro ⟨ha, has⟩
      exact ⟨(), ha, has⟩

/-- A check that fails in one way fails in that way for a list. -/
theorem checkAll_cases {f : α → Except ε Unit} {e : ε} (h : ∀ a, f a = .ok () ∨ f a = .error e)
    (l : List α) : checkAll f l = .ok () ∨ checkAll f l = .error e := by
  induction l with
  | nil => exact .inl rfl
  | cons a as ih =>
    obtain ha | ha := h a
    · rw [checkAll, ha]
      exact ih
    · rw [checkAll, ha]
      exact .inr rfl

/-- What follows a check that fails in one way fails in that way, unless it fails itself. -/
theorem error_of_checkAll {f : α → Except ε Unit} {l : List α} {k : Unit → Except ε β} {e e' : ε}
    (h : ∀ a, f a = .ok () ∨ f a = .error e) (hk : ∃ b, k () = .ok b)
    (herror : (checkAll f l >>= k) = .error e') : e' = e := by
  obtain hcheck | hcheck := checkAll_cases h l
  · obtain ⟨b, hb⟩ := hk
    have hok : (checkAll f l >>= k) = .ok b := bind_ok_iff.mpr ⟨(), hcheck, hb⟩
    rw [hok] at herror
    cases herror
  · rw [bind_error hcheck] at herror
    cases herror
    rfl

/-- A fallible map over a list. -/
def mapAll (f : α → Except ε β) : List α → Except ε (List β)
  | [] => .ok []
  | a :: as => do
    let b ← f a
    let bs ← mapAll f as
    .ok (b :: bs)

/-- What holds of each image holds of the images in order. -/
theorem mapAll_map {γ : Type} {f : α → Except ε β} {g : α → γ} {k : β → γ} {l : List α}
    {bs : List β} (h : mapAll f l = .ok bs) (hfk : ∀ a b, f a = .ok b → k b = g a) :
    bs.map k = l.map g := by
  induction l generalizing bs with
  | nil =>
    cases h
    rfl
  | cons a as ih =>
    obtain ⟨b, hb, h⟩ := bind_ok_iff.mp h
    obtain ⟨bs', hbs, h⟩ := bind_ok_iff.mp h
    cases h
    simp only [List.map_cons, ih hbs, hfk a b hb]

theorem mapAll_succeeds {f : α → Except ε β} {l : List α} (h : ∀ a ∈ l, ∃ b, f a = .ok b) :
    ∃ bs, mapAll f l = .ok bs := by
  induction l with
  | nil => exact ⟨[], rfl⟩
  | cons a as ih =>
    obtain ⟨⟨b, hb⟩, has⟩ := List.forall_mem_cons.mp h
    obtain ⟨bs, hbs⟩ := ih has
    exact ⟨b :: bs, bind_ok_iff.mpr ⟨b, hb, bind_ok_iff.mpr ⟨bs, hbs, rfl⟩⟩⟩

theorem mapAll_each {f : α → Except ε β} {l : List α} {bs : List β} (h : mapAll f l = .ok bs) :
    ∀ a ∈ l, ∃ b, f a = .ok b := by
  induction l generalizing bs with
  | nil => simp
  | cons a as ih =>
    obtain ⟨b, hb, h⟩ := bind_ok_iff.mp h
    obtain ⟨bs', hbs, -⟩ := bind_ok_iff.mp h
    exact List.forall_mem_cons.mpr ⟨⟨b, hb⟩, ih hbs⟩

theorem mem_mapAll {f : α → Except ε β} {l : List α} {bs : List β} (h : mapAll f l = .ok bs)
    {b : β} : b ∈ bs ↔ ∃ a ∈ l, f a = .ok b := by
  induction l generalizing bs with
  | nil =>
    cases h
    simp
  | cons a as ih =>
    obtain ⟨b', hb, h⟩ := bind_ok_iff.mp h
    obtain ⟨bs', hbs, h⟩ := bind_ok_iff.mp h
    cases h
    simp [ih hbs, hb, eq_comm]

/-- The images determine the elements when each image does. -/
theorem mapAll_injective {f : α → Except ε β} {l l' : List α} {bs : List β}
    (hf : ∀ a a' b, f a = .ok b → f a' = .ok b → a = a') (h : mapAll f l = .ok bs)
    (h' : mapAll f l' = .ok bs) : l = l' := by
  induction l generalizing l' bs with
  | nil =>
    cases h
    cases l' with
    | nil => rfl
    | cons a as =>
      obtain ⟨b, -, h'⟩ := bind_ok_iff.mp h'
      obtain ⟨bs, -, h'⟩ := bind_ok_iff.mp h'
      cases h'
  | cons a as ih =>
    obtain ⟨b, hb, h⟩ := bind_ok_iff.mp h
    obtain ⟨bs', hbs, h⟩ := bind_ok_iff.mp h
    cases h
    cases l' with
    | nil => cases h'
    | cons a' as' =>
      obtain ⟨b', hb', h'⟩ := bind_ok_iff.mp h'
      obtain ⟨bs'', hbs', h'⟩ := bind_ok_iff.mp h'
      cases h'
      rw [hf a a' b hb hb', ih hbs hbs']

/-- A sequence ends as its second part does, once the first has returned. -/
theorem exists_bind {ε α β : Type} {x : Except ε α} {f : α → Except ε β} {a : α} {Q : β → Prop}
    (hx : x = .ok a) (hf : ∃ b, f a = .ok b ∧ Q b) : ∃ b, (x >>= f) = .ok b ∧ Q b := by
  obtain ⟨b, hb, hQ⟩ := hf
  exact ⟨b, bind_ok_iff.mpr ⟨a, hx, hb⟩, hQ⟩

end Pomodorough.Library.Fallible
