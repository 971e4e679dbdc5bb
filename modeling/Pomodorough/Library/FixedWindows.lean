import Mathlib.Order.Lattice
import Mathlib.Data.List.Induction

/-! # Fixed windows

Calls counted in windows. The first call opens a window, the calls before its end
are counted in it, and the first call from its end on opens the next one. -/
namespace Pomodorough.Library.FixedWindows

structure Window (τ : Type) where
  start : τ
  count : Nat
deriving DecidableEq

variable {τ : Type} [LinearOrder τ] {ends : τ → τ} {ws : List (Window τ)} {w : Window τ}
  {times : List τ} {t t' : τ} {limit : Nat}

/-! ## The windows of a list of calls -/

/-- The windows after one more call, the last window first. -/
def advance (ends : τ → τ) (ws : List (Window τ)) (t : τ) : List (Window τ) :=
  match ws with
  | [] => [⟨t, 1⟩]
  | w :: earlier =>
    if t < ends w.start then { w with count := w.count + 1 } :: earlier else ⟨t, 1⟩ :: w :: earlier

def windows (ends : τ → τ) (times : List τ) : List (Window τ) := times.foldl (advance ends) []

/-- The window that a call at `t` is counted in, where it does not open one. -/
def openAt (ends : τ → τ) (ws : List (Window τ)) (t : τ) : Option (Window τ) :=
  ws.head?.filter fun w => t < ends w.start

/-- How many of the calls lie between a start and the end of its window. -/
def within (ends : τ → τ) (times : List τ) (start : τ) : Nat :=
  times.countP fun t => start ≤ t ∧ t < ends start

@[simp] theorem windows_nil : windows ends [] = [] := rfl

@[simp] theorem windows_snoc : windows ends (times ++ [t]) = advance ends (windows ends times) t := by
  simp [windows]

theorem within_snoc {start : τ} : within ends (times ++ [t]) start =
    within ends times start + if start ≤ t ∧ t < ends start then 1 else 0 := by
  simp [within, List.countP_append, List.countP_singleton]

theorem openAt_iff : openAt ends ws t = some w ↔ ws.head? = some w ∧ t < ends w.start := by
  simp [openAt, Option.filter_eq_some_iff]

theorem head?_advance_of_open (h : openAt ends ws t = some w) :
    (advance ends ws t).head? = some { w with count := w.count + 1 } := by
  obtain ⟨hhead, hlt⟩ := openAt_iff.mp h
  cases ws with
  | nil => simp at hhead
  | cons first earlier =>
    simp only [List.head?_cons, Option.some.injEq] at hhead
    subst hhead
    simp [advance, hlt]

theorem head?_advance_of_closed (h : openAt ends ws t = none) :
    (advance ends ws t).head? = some ⟨t, 1⟩ := by
  cases ws with
  | nil => simp [advance]
  | cons first earlier =>
    have hend : ¬ t < ends first.start := by simpa [openAt, Option.filter] using h
    simp [advance, hend]

theorem started_advance (h : ∀ w ∈ ws, w.start ∈ times) :
    ∀ w ∈ advance ends ws t, w.start ∈ times ++ [t] := by
  intro w hw
  cases ws with
  | nil =>
    obtain rfl : w = ⟨t, 1⟩ := by simpa [advance] using hw
    simp
  | cons first earlier =>
    by_cases hopen : t < ends first.start
    · rw [advance, if_pos hopen] at hw
      obtain rfl | hmem := List.mem_cons.mp hw
      · exact List.mem_append_left _ (h first List.mem_cons_self)
      · exact List.mem_append_left _ (h w (List.mem_cons_of_mem _ hmem))
    · rw [advance, if_neg hopen] at hw
      obtain rfl | hmem := List.mem_cons.mp hw
      · simp
      · exact List.mem_append_left _ (h w hmem)

/-- A window starts at one of the calls. -/
theorem started_windows : ∀ w ∈ windows ends times, w.start ∈ times := by
  induction times using List.reverseRecOn with
  | nil => simp
  | append_singleton times t ih =>
    rw [windows_snoc]
    exact started_advance ih

/-! ## Calls within a limit -/

/-- Whether the limit leaves room for a call at `t`. -/
def permits (limit : Nat) (ends : τ → τ) (ws : List (Window τ)) (t : τ) : Bool :=
  match openAt ends ws t with
  | none => true
  | some w => w.count < limit

/-- A call that the limit permits leaves no window above the limit. -/
theorem advance_within (hlimit : 1 ≤ limit) (hws : ∀ w ∈ ws, w.count ≤ limit)
    (h : permits limit ends ws t = true) : ∀ w ∈ advance ends ws t, w.count ≤ limit := by
  cases ws with
  | nil => simpa [advance] using hlimit
  | cons first earlier =>
    obtain ⟨-, hearlier⟩ := List.forall_mem_cons.mp hws
    by_cases hopen : t < ends first.start
    · have hcount : first.count < limit := by
        have hfirst : openAt ends (first :: earlier) t = some first := openAt_iff.mpr ⟨rfl, hopen⟩
        simpa [permits, hfirst] using h
      simpa [advance, hopen] using ⟨hcount, hearlier⟩
    · rw [advance, if_neg hopen]
      exact List.forall_mem_cons.mpr ⟨hlimit, hws⟩

/-! ## What a window counts

The windows follow one another, so that the count of a window is the number of
calls from its start to its end. -/

/-- What holds of the windows of calls in the order of time. -/
structure Counted (ends : τ → τ) (times : List τ) (ws : List (Window τ)) : Prop where
  covered : ∀ w, ws.head? = some w → ∀ t ∈ times, t < ends w.start
  started : ∀ w ∈ ws, w.start ∈ times
  apart : ws.Pairwise fun later earlier => ends earlier.start ≤ later.start
  counts : ∀ w ∈ ws, within ends times w.start = w.count

theorem Counted.advance (hends : ∀ t, t < ends t) (h : Counted ends times ws)
    (hlast : ∀ t' ∈ times, t' ≤ t) (hempty : ws = [] → times = []) :
    Counted ends (times ++ [t]) (advance ends ws t) := by
  have started : ∀ w ∈ FixedWindows.advance ends ws t, w.start ∈ times ++ [t] := started_advance h.started
  cases ws with
  | nil =>
    obtain rfl := hempty rfl
    constructor <;> simp [FixedWindows.advance, within, hends]
  | cons first earlier =>
    obtain ⟨hfirst, hapart⟩ := List.pairwise_cons.mp h.apart
    have hcovered : ∀ t' ∈ times, t' < ends first.start := h.covered first rfl
    have hstart : first.start ≤ t := hlast _ (h.started first List.mem_cons_self)
    obtain ⟨hcount, hcounts⟩ := List.forall_mem_cons.mp h.counts
    by_cases hopen : t < ends first.start
    · rw [FixedWindows.advance, if_pos hopen] at started ⊢
      refine ⟨?_, started, List.pairwise_cons.mpr ⟨hfirst, hapart⟩, ?_⟩
      · intro w hw t' ht'
        obtain rfl : _ = w := by simpa using hw
        obtain hmem | rfl := by simpa using ht'
        · exact hcovered t' hmem
        · exact hopen
      · intro w hw
        obtain rfl | hmem := List.mem_cons.mp hw
        · rw [within_snoc, if_pos ⟨hstart, hopen⟩, hcount]
        · -- An earlier window ended before the first one started.
          have hend : ¬ t < ends w.start := not_lt.mpr ((hfirst w hmem).trans hstart)
          rw [within_snoc, if_neg fun hin => hend hin.2, hcounts w hmem, Nat.add_zero]
    · have hend : ends first.start ≤ t := not_lt.mp hopen
      rw [FixedWindows.advance, if_neg hopen] at started ⊢
      refine ⟨?_, started, ?_, ?_⟩
      · intro w hw t' ht'
        obtain rfl : _ = w := by simpa using hw
        obtain hmem | rfl := by simpa using ht'
        · exact (hlast t' hmem).trans_lt (hends t)
        · exact hends t'
      · refine List.pairwise_cons.mpr ⟨?_, h.apart⟩
        intro w hw
        obtain rfl | hmem := List.mem_cons.mp hw
        · exact hend
        · exact (hfirst w hmem).trans hstart
      · intro w hw
        obtain rfl | hmem := List.mem_cons.mp hw
        · have hnone : within ends times t = 0 := by
            rw [within, List.countP_eq_zero]
            intro t' ht' hin
            have hle : t ≤ t' := (of_decide_eq_true hin).1
            exact absurd (hcovered t' ht') (not_lt.mpr (hend.trans hle))
          rw [within_snoc, if_pos ⟨le_rfl, hends t⟩, hnone, Nat.zero_add]
        · have hclosed : ¬ t < ends w.start := by
            obtain rfl | hearlier := List.mem_cons.mp hmem
            · exact hopen
            · exact not_lt.mpr ((hfirst w hearlier).trans hstart)
          rw [within_snoc, if_neg fun hin => hclosed hin.2, h.counts w hmem, Nat.add_zero]

theorem advance_ne_nil : advance ends ws t ≠ [] := by
  cases ws with
  | nil => simp [advance]
  | cons first earlier =>
    by_cases h : t < ends first.start <;> simp [advance, h]

theorem counted_windows (hends : ∀ t, t < ends t) (htimes : times.Pairwise (· ≤ ·)) :
    Counted ends times (windows ends times) := by
  induction times using List.reverseRecOn with
  | nil => constructor <;> simp
  | append_singleton times t ih =>
    obtain ⟨hordered, -, hlast⟩ := List.pairwise_append.mp htimes
    rw [windows_snoc]
    refine (ih hordered).advance hends (fun t' ht' => hlast t' ht' t (by simp)) ?_
    intro hnil
    cases times using List.reverseRecOn with
    | nil => rfl
    | append_singleton times t' =>
      rw [windows_snoc] at hnil
      exact absurd hnil advance_ne_nil

end Pomodorough.Library.FixedWindows
