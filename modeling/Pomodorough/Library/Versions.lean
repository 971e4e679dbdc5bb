import Mathlib.Order.Lattice

/-! # States told by their version

A system counts up its version at least whenever something that can be seen of it changes.
Its reports carry the version. Then two reports of one version tell the same, whichever
was made first, and also where one is repeated from memory long after. -/
namespace Pomodorough.Library.Versions

structure System (σ ε ρ ν : Type) where
  step : σ → ε → σ → Prop
  version : σ → ν
  /-- Nothing that can be seen tells the two states apart. -/
  same : σ → σ → Prop
  /-- What is reported with a transition. -/
  report : ε → Option ρ
  reported : ρ → ν
  tells : σ → ρ → Prop
  /-- A report that can be repeated. -/
  remembers : σ → ρ → Prop

variable {σ ε ρ ν : Type} [LinearOrder ν]

inductive Runs (S : System σ ε ρ ν) : σ → List ε → σ → Prop where
  | nil {s} : Runs S s [] s
  | cons {s t u e es} (h : S.step s e t) (rest : Runs S t es u) : Runs S s (e :: es) u

/-- What one transition has to meet. -/
structure Lawful (S : System σ ε ρ ν) (good : σ → Prop) : Prop where
  kept : ∀ {s e t}, good s → S.step s e t → good t
  grows : ∀ {s e t}, good s → S.step s e t → S.version s ≤ S.version t
  unchanged : ∀ {s e t}, good s → S.step s e t → S.version t = S.version s → S.same s t
  refl : ∀ s, S.same s s
  trans : ∀ {s t u}, S.same s t → S.same t u → S.same s u
  tells_same : ∀ {s t r}, S.same s t → S.tells t r → S.tells s r
  reports : ∀ {s e t r}, good s → S.step s e t → S.report e = some r →
    (S.tells t r ∧ S.reported r = S.version t) ∨
      ∃ first, S.remembers s first ∧ S.reported r = S.reported first ∧
        ∀ u, S.tells u first → S.tells u r
  remembers : ∀ {s e t r}, good s → S.step s e t → S.remembers t r →
    S.remembers s r ∨ S.report e = some r ∧ S.tells t r ∧ S.reported r = S.version t

/-- An archive has a state for each version so far: the current one is as it has it, and
what is remembered was told of one of them. -/
structure Archives (S : System σ ε ρ ν) (archive : ν → σ) (s : σ) : Prop where
  current : S.same (archive (S.version s)) s
  remembered : ∀ r, S.remembers s r →
    S.reported r ≤ S.version s ∧ S.tells (archive (S.reported r)) r

/-- The report of a transition is of a version that the archive has. -/
def Archived (S : System σ ε ρ ν) (archive : ν → σ) (t : σ) (e : ε) : Prop :=
  ∀ r, S.report e = some r → S.reported r ≤ S.version t ∧ S.tells (archive (S.reported r)) r

variable {S : System σ ε ρ ν} {good : σ → Prop} {s t : σ} {e : ε} {es : List ε}

/-- A state of a new version is put on the archive, one of an old version is there. -/
theorem Lawful.extend (h : Lawful S good) {archive : ν → σ} (hs : good s)
    (hstep : S.step s e t) (harchive : Archives S archive s) :
    ∃ archive', (∀ n ≤ S.version s, archive' n = archive n) ∧ Archives S archive' t ∧
      Archived S archive' t e := by
  have hgrows := h.grows hs hstep
  obtain ⟨archive', hkept, hcurrent⟩ : ∃ archive' : ν → σ,
      (∀ n ≤ S.version s, archive' n = archive n) ∧ S.same (archive' (S.version t)) t := by
    by_cases hversion : S.version t = S.version s
    · refine ⟨archive, fun _ _ => rfl, ?_⟩
      rw [hversion]
      exact h.trans harchive.current (h.unchanged hs hstep hversion)
    · refine ⟨fun n => if n = S.version t then t else archive n, fun n hn => ?_, ?_⟩
      · have hne : n ≠ S.version t := by
          intro heq
          exact hversion (le_antisymm (heq ▸ hn) hgrows)
        exact if_neg hne
      · dsimp only
        rw [if_pos rfl]
        exact h.refl t
  have hold : ∀ r, S.remembers s r →
      S.reported r ≤ S.version t ∧ S.tells (archive' (S.reported r)) r := by
    intro r hr
    obtain ⟨hle, htells⟩ := harchive.remembered r hr
    rw [hkept _ hle]
    exact ⟨hle.trans hgrows, htells⟩
  have hnew : ∀ r, S.tells t r → S.reported r = S.version t →
      S.reported r ≤ S.version t ∧ S.tells (archive' (S.reported r)) r := by
    intro r htells hreported
    rw [hreported]
    exact ⟨le_refl _, h.tells_same hcurrent htells⟩
  refine ⟨archive', hkept, ⟨hcurrent, fun r hr => ?_⟩, fun r hr => ?_⟩
  · obtain hearlier | ⟨-, htells, hreported⟩ := h.remembers hs hstep hr
    · exact hold r hearlier
    · exact hnew r htells hreported
  · obtain ⟨htells, hreported⟩ | ⟨first, hfirst, hreported, htells⟩ := h.reports hs hstep hr
    · exact hnew r htells hreported
    · obtain ⟨hle, hold⟩ := hold first hfirst
      rw [hreported]
      exact ⟨hle, htells _ hold⟩

theorem Lawful.archived (h : Lawful S good) {archive : ν → σ} (hs : good s)
    (hrun : Runs S s es t) (harchive : Archives S archive s) :
    ∃ archive', (∀ n ≤ S.version s, archive' n = archive n) ∧ Archives S archive' t ∧
      S.version s ≤ S.version t ∧ ∀ e ∈ es, Archived S archive' t e := by
  induction hrun generalizing archive with
  | nil => exact ⟨archive, fun _ _ => rfl, harchive, le_refl _, fun _ he => by cases he⟩
  | @cons s t u e es hstep hrest ih =>
    have hgrows := h.grows hs hstep
    obtain ⟨middle, hkept, hmiddle, hfirst⟩ := h.extend hs hstep harchive
    obtain ⟨archive', hkept', hend, hle, hreports⟩ := ih (h.kept hs hstep) hmiddle
    refine ⟨archive', fun n hn => ?_, hend, hgrows.trans hle, ?_⟩
    · rw [hkept' n (hn.trans hgrows), hkept n hn]
    · refine List.forall_mem_cons.mpr ⟨fun r hr => ?_, hreports⟩
      obtain ⟨hle', htells⟩ := hfirst r hr
      rw [hkept' _ hle']
      exact ⟨hle'.trans hle, htells⟩

/-- Reports of one version tell one state, in every run of a system that remembers nothing
at first. -/
theorem Lawful.told_of_same_version (h : Lawful S good) (hs : good s) (hrun : Runs S s es t)
    (hnew : ∀ r, ¬ S.remembers s r) {first second : ε} {r r' : ρ} (hfirst : first ∈ es)
    (hsecond : second ∈ es) (hr : S.report first = some r) (hr' : S.report second = some r')
    (hversion : S.reported r = S.reported r') : ∃ u, S.tells u r ∧ S.tells u r' := by
  have hstart : Archives S (fun _ => s) s := ⟨h.refl s, fun r hr => absurd hr (hnew r)⟩
  obtain ⟨archive, -, -, -, hreports⟩ := h.archived hs hrun hstart
  have htold := (hreports first hfirst r hr).2
  rw [hversion] at htold
  exact ⟨_, htold, (hreports second hsecond r' hr').2⟩

end Pomodorough.Library.Versions
