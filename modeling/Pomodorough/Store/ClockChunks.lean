import Pomodorough.Store.ClockHead

/-! # The clock head in batches

A batch that is full gives way to its own head. What the batches give in the
end is the head of all the clocks, whatever their number, when the core answers
each batch with its maximum; of another core each answer is only held to be one
of its input clocks. -/
namespace Pomodorough.Store.ClockChunks
open Pomodorough.Library.Fallible
open Pomodorough.Store.Records Pomodorough.Store.SharedCore Pomodorough.Store.AccountRuns
open Pomodorough.Store.ClockHead

/-- A clock whose components JavaScript represents exactly. -/
def Safe (clock : HLC) : Prop :=
  0 ≤ clock.wallMs ∧ clock.wallMs ≤ maxSafeRevision ∧ 0 ≤ clock.counter ∧
    clock.counter ≤ maxSafeRevision

instance : DecidablePred Safe := fun clock => by unfold Safe; infer_instance

/-- `hlc.head.v1` answers with the maximum of safe clocks and the server's time. -/
def HeadExact (core : Core) (physicalNowMs : Int) : Prop :=
  ∀ observed, (∀ clock ∈ observed, Safe clock) → ∃ head,
    core.hlcHead physicalNowMs observed = .ok (some head.wallMs, some head.counter) ∧
      Latest physicalNowMs observed head

section
variable {core : Core} {physicalNowMs : Int} {observed batch : List HLC} {head : HLC}

/-! ## One batch -/

theorem validateCoreHLCHead_ok_iff {u : Unit} :
    validateCoreHLCHead head physicalNowMs observed = .ok u ↔
      Safe head ∧ head ∈ ⟨physicalNowMs, 0⟩ :: observed := by
  unfold validateCoreHLCHead
  simp only [bind_ok_iff, check_ok_iff, exists_const, List.mem_cons]
  exact Iff.rfl

/-- An answer is returned when it is a safe one of the clocks it was asked of. -/
theorem hlcHeadPage_ok_iff :
    hlcHeadPageWithCore core physicalNowMs observed = .ok head ↔
      core.hlcHead physicalNowMs observed = .ok (some head.wallMs, some head.counter) ∧
        Safe head ∧ head ∈ ⟨physicalNowMs, 0⟩ :: observed := by
  unfold hlcHeadPageWithCore
  rw [bind_ok_iff]
  constructor
  · intro h
    obtain ⟨⟨wallMs, counter⟩, hanswer, h⟩ := h
    cases wallMs with
    | none => cases h
    | some wallMs =>
      cases counter with
      | none => cases h
      | some counter =>
        obtain ⟨_, hvalid, h⟩ := bind_ok_iff.mp h
        cases h
        exact ⟨hanswer, validateCoreHLCHead_ok_iff.mp hvalid⟩
  · intro h
    obtain ⟨hanswer, hvalid⟩ := h
    refine ⟨_, hanswer, ?_⟩
    exact bind_ok_iff.mpr ⟨(), validateCoreHLCHead_ok_iff.mpr hvalid, rfl⟩

theorem eq_of_latest {other : HLC} (h : Latest physicalNowMs observed head)
    (hother : Latest physicalNowMs observed other) : head = other := by
  have hkey : clockKey head = clockKey other :=
    le_antisymm (hother.maximal head h.mem) (h.maximal other hother.mem)
  have hpair : (head.wallMs, head.counter) = (other.wallMs, other.counter) :=
    toLex.injective hkey
  cases head
  cases other
  cases hpair
  rfl

/-- A safe maximum is returned, and one that is not is refused. -/
theorem hlcHeadPage_exact (hcore : HeadExact core physicalNowMs)
    (hsafe : ∀ clock ∈ observed, Safe clock) : ∃ head, Latest physicalNowMs observed head ∧
      (Safe head → hlcHeadPageWithCore core physicalNowMs observed = .ok head) ∧
      (¬ Safe head → ∃ e, hlcHeadPageWithCore core physicalNowMs observed = .error e) := by
  obtain ⟨head, hanswer, hlatest⟩ := hcore observed hsafe
  refine ⟨head, hlatest, fun h => hlcHeadPage_ok_iff.mpr ⟨hanswer, h, hlatest.mem⟩, fun h => ?_⟩
  cases hpage : hlcHeadPageWithCore core physicalNowMs observed with
  | error e => exact ⟨e, rfl⟩
  | ok other =>
    obtain ⟨hother, hsafe, -⟩ := hlcHeadPage_ok_iff.mp hpage
    rw [hanswer] at hother
    cases head
    cases other
    cases hother
    exact absurd hsafe h

/-! ## All batches -/

/-- Only the server's time can make the head of safe clocks unsafe. -/
theorem not_safe_iff (h : Latest physicalNowMs observed head)
    (hsafe : ∀ clock ∈ observed, Safe clock) : ¬ Safe head ↔
      maxSafeRevision < physicalNowMs ∨ physicalNowMs < 0 ∧ observed = [] := by
  have hnow := wall_le_of_key_le (h.maximal _ List.mem_cons_self)
  constructor
  · intro hunsafe
    rcases List.mem_cons.mp h.mem with rfl | hmem
    · by_cases hlarge : (maxSafeRevision : Int) < physicalNowMs
      · exact .inl hlarge
      · have hneg : physicalNowMs < 0 := by
          unfold Safe at hunsafe
          simp only at hunsafe
          omega
        refine .inr ⟨hneg, List.eq_nil_iff_forall_not_mem.mpr fun clock hclock => ?_⟩
        have hle := wall_le_of_key_le (h.maximal clock (List.mem_cons_of_mem _ hclock))
        have hpos := (hsafe clock hclock).1
        simp only at hle
        omega
    · exact absurd (hsafe head hmem) hunsafe
  · intro hunsafe hhead
    rcases hunsafe with hlarge | ⟨hneg, rfl⟩
    · have hbound := hhead.2.1
      simp only at hnow
      omega
    · have hpos := hhead.1
      cases List.mem_singleton.mp h.mem
      simp only at hpos
      omega

/-- The batches give the head of what is in the batch and what is left. -/
theorem hlcHeadSequenceFrom_exact (hcore : HeadExact core physicalNowMs)
    (hbatch : ∀ clock ∈ batch, Safe clock) (hsafe : ∀ clock ∈ observed, Safe clock) :
    ∃ head, Latest physicalNowMs (batch ++ observed) head ∧
      (Safe head → hlcHeadSequenceFrom core physicalNowMs batch observed = .ok head) ∧
      (¬ Safe head → ∃ e, hlcHeadSequenceFrom core physicalNowMs batch observed = .error e) := by
  induction observed generalizing batch with
  | nil =>
    rw [List.append_nil]
    exact hlcHeadPage_exact hcore hbatch
  | cons clock observed ih =>
    obtain ⟨hclock, hobserved⟩ := List.forall_mem_cons.mp hsafe
    unfold hlcHeadSequenceFrom
    split
    next hfull =>
      obtain ⟨earlier, hearlier, hok, herror⟩ := hlcHeadPage_exact hcore hbatch
      have hall : ∀ other ∈ batch ++ clock :: observed, Safe other := fun other hmem =>
        (List.mem_append.mp hmem).elim (hbatch other) (hsafe other)
      by_cases hcarried : Safe earlier
      · have hpair : ∀ other ∈ [earlier, clock], Safe other := by
          simp [hcarried, hclock]
        obtain ⟨head, hhead, hrest⟩ := ih hpair hobserved
        refine ⟨head, hearlier.trans hhead, ?_⟩
        rw [hok hcarried]
        exact hrest
      · -- the batch was full, so its head is unsafe because the server's time is too large
        have hlarge : (maxSafeRevision : Int) < physicalNowMs := by
          rcases (not_safe_iff hearlier hbatch).mp hcarried with hlarge | ⟨-, hnil⟩
          · exact hlarge
          · simp [hnil, hlcHeadBatch] at hfull
        obtain ⟨e, he⟩ := herror hcarried
        obtain ⟨head, hhead⟩ : ∃ head, Latest physicalNowMs (batch ++ clock :: observed) head := by
          obtain ⟨head, -, hhead⟩ := hcore _ hall
          exact ⟨head, hhead⟩
        have hunsafe := (not_safe_iff hhead hall).mpr (.inl hlarge)
        exact ⟨head, hhead, fun h => absurd h hunsafe, fun _ => ⟨e, bind_error he⟩⟩
    next =>
      have hnext : ∀ other ∈ batch ++ [clock], Safe other := by
        intro other hmem
        rcases List.mem_append.mp hmem with hmem | hmem
        · exact hbatch other hmem
        · exact List.mem_singleton.mp hmem ▸ hclock
      obtain ⟨head, hhead, hrest⟩ := ih hnext hobserved
      rw [List.append_assoc, List.singleton_append] at hhead
      exact ⟨head, hhead, hrest⟩

/-- A head that is returned is one of the clocks, whatever the core answers. -/
theorem hlcHeadSequenceFrom_mem
    (h : hlcHeadSequenceFrom core physicalNowMs batch observed = .ok head) :
    Safe head ∧ head ∈ ⟨physicalNowMs, 0⟩ :: (batch ++ observed) := by
  induction observed generalizing batch with
  | nil =>
    rw [List.append_nil]
    exact (hlcHeadPage_ok_iff.mp h).2
  | cons clock observed ih =>
    unfold hlcHeadSequenceFrom at h
    split at h
    · obtain ⟨earlier, hpage, h⟩ := bind_ok_iff.mp h
      obtain ⟨hsafe, hmem⟩ := ih h
      have hearlier := (hlcHeadPage_ok_iff.mp hpage).2.2
      refine ⟨hsafe, ?_⟩
      simp only [List.mem_cons, List.mem_append, List.cons_append, List.nil_append] at *
      rcases hmem with hmem | rfl | hmem
      · exact .inl hmem
      · exact hearlier.imp_right .inl
      · exact .inr (.inr hmem)
    · have hrest := ih h
      rwa [List.append_assoc, List.singleton_append] at hrest

/-! ## The head of any number of clocks -/

/-- A core that answers each batch with its maximum gives the maximum of all
clocks, and it is refused only for a server's time no clock may have. Of any
core a batch's answer is accepted when it is a safe one of the batch's clocks. -/
theorem clock_head_in_batches (core : Core) (physicalNowMs : Int) (observed : List HLC) :
    (HeadExact core physicalNowMs → (∀ clock ∈ observed, Safe clock) →
      ∃ head, Latest physicalNowMs observed head ∧
        (Safe ⟨physicalNowMs, 0⟩ → Safe head) ∧
        (Safe head → hlcHeadSequenceWithCore core physicalNowMs observed = .ok head) ∧
        (¬ Safe head → ∃ e, hlcHeadSequenceWithCore core physicalNowMs observed = .error e)) ∧
    (∀ batch head, hlcHeadPageWithCore core physicalNowMs batch = .ok head ↔
      core.hlcHead physicalNowMs batch = .ok (some head.wallMs, some head.counter) ∧
        Safe head ∧ head ∈ ⟨physicalNowMs, 0⟩ :: batch) ∧
    ∀ head, hlcHeadSequenceWithCore core physicalNowMs observed = .ok head →
      Safe head ∧ head ∈ ⟨physicalNowMs, 0⟩ :: observed := by
  refine ⟨fun hcore hsafe => ?_, fun batch head => hlcHeadPage_ok_iff,
    fun head h => hlcHeadSequenceFrom_mem h⟩
  have hempty : ∀ clock ∈ ([] : List HLC), Safe clock := fun _ h => nomatch h
  obtain ⟨head, hhead, hresult⟩ := hlcHeadSequenceFrom_exact hcore hempty hsafe
  refine ⟨head, hhead, fun hnow => ?_, hresult⟩
  by_contra hunsafe
  rcases (not_safe_iff hhead hsafe).mp hunsafe with hlarge | ⟨hneg, -⟩
  · exact absurd hnow.2.1 (not_le.mpr hlarge)
  · exact absurd hnow.1 (not_le.mpr hneg)

end

/-! ## Two small cores -/

/-- What `absentTimerCore` answers is the latest clock. -/
theorem headExact_absentTimerCore (physicalNowMs : Int) :
    HeadExact absentTimerCore physicalNowMs := by
  intro observed _
  refine ⟨_, rfl, ?_, foldl_maximal observed ⟨physicalNowMs, 0⟩⟩
  exact foldl_mem observed ⟨physicalNowMs, 0⟩

theorem clock_head_in_batches_small :
    HeadExact absentTimerCore 100 ∧ Safe ⟨200, 1⟩ ∧
      ∃ head, Latest 100 [⟨200, 0⟩, ⟨200, 1⟩] head ∧
        hlcHeadSequenceWithCore absentTimerCore 100 [⟨200, 0⟩, ⟨200, 1⟩] = .ok head := by
  have hsafe : ∀ clock ∈ ([⟨200, 0⟩, ⟨200, 1⟩] : List HLC), Safe clock := by decide
  obtain ⟨head, hhead, hsafeHead, hok, -⟩ :=
    (clock_head_in_batches absentTimerCore 100 [⟨200, 0⟩, ⟨200, 1⟩]).1
      (headExact_absentTimerCore 100) hsafe
  exact ⟨headExact_absentTimerCore 100, by decide, head, hhead, hok (hsafeHead (by decide))⟩

/-- A core whose head is always the server's time. -/
def physicalClockCore : Core :=
  { absentTimerCore with hlcHead := fun physicalNowMs _ => .ok (some physicalNowMs, some 0) }

/-- An answer may be before a clock of its batch: it is only held to be one of
the input clocks. -/
theorem earlier_head_accepted : ¬ ∀ core physicalNowMs batch head,
    hlcHeadPageWithCore core physicalNowMs batch = .ok head →
      head ∈ ⟨physicalNowMs, 0⟩ :: batch ∧
        ∀ clock ∈ ⟨physicalNowMs, 0⟩ :: batch, clockKey clock ≤ clockKey head := by
  intro hclaim
  have hpage : hlcHeadPageWithCore physicalClockCore 100 [⟨200, 1⟩] = .ok ⟨100, 0⟩ := by
    decide +kernel
  have hle := wall_le_of_key_le ((hclaim _ _ _ _ hpage).2 ⟨200, 1⟩ (by simp))
  exact absurd hle (by decide)

end Pomodorough.Store.ClockChunks
