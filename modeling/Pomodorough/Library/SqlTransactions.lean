import Mathlib.Data.List.Basic

/-! # Transactions that may fail at any statement

A transaction works on a copy of what is committed. Each of its statements may
be refused by the tables or failed by the storage; then nothing of the copy is
kept. -/
namespace Pomodorough.Library.SqlTransactions

variable {σ ε α β γ : Type}

/-- The statements the storage fails, by number, and how. -/
abbrev Faults (ε : Type) := Nat → Option ε

/-- The copy an open transaction works on, and the number of its next statement. -/
structure Working (σ : Type) where
  state : σ
  next : Nat

/-- What runs within a transaction. A failure leaves the copy as it found it. -/
def Tx (σ ε α : Type) := Faults ε → Working σ → Except ε α × Working σ

namespace Tx

def ret (a : α) : Tx σ ε α := fun _ w => (.ok a, w)

def bind (p : Tx σ ε α) (k : α → Tx σ ε β) : Tx σ ε β := fun faults w =>
  match p faults w with
  | (.ok a, w') => k a faults w'
  | (.error e, w') => (.error e, w')

instance : Monad (Tx σ ε) where
  pure := ret
  bind := bind

/-- What is computed without the storage. -/
def lift (x : Except ε α) : Tx σ ε α := fun _ w => (x, w)

/-- One statement. -/
def statement (f : σ → Except ε (α × σ)) : Tx σ ε α := fun faults w =>
  match faults w.next with
  | some e => (.error e, { w with next := w.next + 1 })
  | none =>
    match f w.state with
    | .ok (a, s) => (.ok a, ⟨s, w.next + 1⟩)
    | .error e => (.error e, { w with next := w.next + 1 })

/-- A statement that reads. -/
def query (f : σ → Except ε α) : Tx σ ε α := statement fun s => (fun a => (a, s)) <$> f s

def when (c : Bool) (p : Tx σ ε Unit) : Tx σ ε Unit := if c then p else ret ()

/-- A loop that carries a value. -/
def forEach (f : α → β → Tx σ ε β) : List α → β → Tx σ ε β
  | [], b => ret b
  | a :: as, b => (f a b).bind (forEach f as)

/-! ## What a program that succeeds has done -/

variable {p : Tx σ ε α} {k : α → Tx σ ε β} {faults : Faults ε} {w w' : Working σ} {a : α} {b : β}

theorem pure_ok {a' : α} : (pure a : Tx σ ε α) faults w = (.ok a', w') ↔ a = a' ∧ w = w' := by
  show ((.ok a, w) : Except ε α × Working σ) = (.ok a', w') ↔ _
  simp

theorem bind_ok : (p >>= k) faults w = (.ok b, w') ↔
    ∃ a v, p faults w = (.ok a, v) ∧ k a faults v = (.ok b, w') := by
  show bind p k faults w = _ ↔ _
  unfold bind
  split
  next a v hp => simp [hp]
  next e v hp => simp [hp]

theorem lift_ok {x : Except ε α} :
    (lift x : Tx σ ε α) faults w = (.ok a, w') ↔ x = .ok a ∧ w = w' := by
  unfold lift
  simp

/-- A statement that succeeds was not failed, and the tables allowed it. -/
theorem statement_ok {f : σ → Except ε (α × σ)} (h : statement f faults w = (.ok a, w')) :
    f w.state = .ok (a, w'.state) := by
  unfold statement at h
  split at h
  next => cases h
  next =>
    split at h
    next b s hf =>
      cases h
      exact hf
    next => cases h

theorem query_ok {f : σ → Except ε α} (h : query f faults w = (.ok a, w')) :
    f w.state = .ok a ∧ w'.state = w.state := by
  have hf := statement_ok h
  cases hx : f w.state with
  | error e =>
    rw [hx] at hf
    cases hf
  | ok b =>
    rw [hx] at hf
    have hpair : (b, w.state) = (a, w'.state) := Except.ok.inj hf
    exact ⟨congrArg Except.ok (Prod.mk.inj hpair).1, (Prod.mk.inj hpair).2.symm⟩

theorem when_ok {c : Bool} {q : Tx σ ε Unit} (h : when c q faults w = (.ok (), w')) :
    (c = true → q faults w = (.ok (), w')) ∧ (c = false → w' = w) := by
  cases c with
  | true => simpa [when] using h
  | false =>
    have hsame : ((.ok (), w) : Except ε Unit × Working σ) = (.ok (), w') := h
    simpa using (Prod.mk.inj hsame).2.symm

theorem forEach_cons_ok {f : α → β → Tx σ ε β} {as : List α} {c : β} :
    forEach f (a :: as) b faults w = (.ok c, w') ↔
      ∃ d v, f a b faults w = (.ok d, v) ∧ forEach f as d faults v = (.ok c, w') := bind_ok

end Tx

/-! ## The connection -/

/-- What is committed, and the copy of a transaction that is open. -/
structure Connection (σ : Type) where
  committed : σ
  working : Option σ

/-- How a transaction ends that has not failed. -/
inductive Ending (α : Type) where
  | commit (a : α)
  | abandon (a : α)

def rollback (c : Connection σ) : Connection σ := { c with working := none }

/-- A transaction from its beginning to its commit, with the rollback that is
deferred until the caller returns. -/
def transact (body : Tx σ ε (Ending α)) (faults : Faults ε) (c : Connection σ) :
    Except ε α × Connection σ :=
  match faults 0 with
  | some e => (.error e, c)
  | none =>
    match body faults ⟨c.committed, 1⟩ with
    | (.error e, w) => (.error e, rollback { c with working := some w.state })
    | (.ok (.abandon a), w) => (.ok a, rollback { c with working := some w.state })
    | (.ok (.commit a), w) =>
      match faults w.next with
      | some e => (.error e, rollback { c with working := some w.state })
      | none => (.ok a, ⟨w.state, none⟩)

section
variable {body : Tx σ ε (Ending α)} {faults : Faults ε} {s : σ} {a : α} {e : ε}

/-- A transaction that fails, wherever it does, leaves nothing. -/
theorem transact_error (h : (transact body faults ⟨s, none⟩).1 = .error e) :
    (transact body faults ⟨s, none⟩).2 = ⟨s, none⟩ := by
  unfold transact at h ⊢
  split
  next => rfl
  next hbegin =>
    simp only [hbegin] at h
    split
    next => rfl
    next => rfl
    next hbody =>
      simp only [hbody] at h
      split
      next => rfl
      next hcommit =>
        simp only [hcommit] at h
        cases h

/-- One that answers has committed its copy, or abandoned it. -/
theorem transact_ok (h : (transact body faults ⟨s, none⟩).1 = .ok a) :
    ∃ w, body faults ⟨s, 1⟩ = (.ok (.commit a), w) ∧
        (transact body faults ⟨s, none⟩).2 = ⟨w.state, none⟩ ∨
      body faults ⟨s, 1⟩ = (.ok (.abandon a), w) ∧
        (transact body faults ⟨s, none⟩).2 = ⟨s, none⟩ := by
  unfold transact at h ⊢
  split
  next hbegin =>
    simp only [hbegin] at h
    cases h
  next hbegin =>
    simp only [hbegin] at h
    split
    next hbody =>
      simp only [hbody] at h
      cases h
    next b w hbody =>
      simp only [hbody] at h
      cases h
      exact ⟨w, .inr ⟨hbody, rfl⟩⟩
    next b w hbody =>
      simp only [hbody] at h
      split
      next hcommit =>
        simp only [hcommit] at h
        cases h
      next hcommit =>
        simp only [hcommit] at h
        cases h
        exact ⟨w, .inl ⟨hbody, rfl⟩⟩

end

end Pomodorough.Library.SqlTransactions
