import Mathlib.Algebra.Ring.Nat
import Mathlib.Data.List.Induction
import Mathlib.Tactic.Ring

/-! # Hexadecimal texts

Numbers in hexadecimal digits of a fixed count, and texts of a fixed shape. -/
namespace Pomodorough.Library.Hexadecimal

/-! ## Digits -/

def isHexDigit (c : Char) : Bool :=
  ('0' ≤ c && c ≤ '9') || ('a' ≤ c && c ≤ 'f') || ('A' ≤ c && c ≤ 'F')

def isLowerHexDigit (c : Char) : Bool := ('0' ≤ c && c ≤ '9') || ('a' ≤ c && c ≤ 'f')

def digitValue (c : Char) : Nat :=
  if 'a' ≤ c then c.toNat - 'a'.toNat + 10
  else if 'A' ≤ c then c.toNat - 'A'.toNat + 10
  else c.toNat - '0'.toNat

variable {c : Char} {cs ds : List Char} {n width : Nat}

theorem isHexDigit_of_lower (h : isLowerHexDigit c = true) : isHexDigit c = true := by
  unfold isHexDigit
  unfold isLowerHexDigit at h
  rw [h, Bool.true_or]

theorem digitValue_lt (h : isHexDigit c = true) : digitValue c < 16 := by
  simp only [isHexDigit, Bool.or_eq_true, Bool.and_eq_true, decide_eq_true_eq, Char.le_def,
    UInt32.le_iff_toNat_le] at h
  simp only [digitValue, Char.le_def, UInt32.le_iff_toNat_le, Char.toNat]
  simp only [show 'a'.val.toNat = 97 from rfl, show 'f'.val.toNat = 102 from rfl,
    show 'A'.val.toNat = 65 from rfl, show 'F'.val.toNat = 70 from rfl,
    show '0'.val.toNat = 48 from rfl, show '9'.val.toNat = 57 from rfl] at h ⊢
  split
  · omega
  · split <;> omega

theorem digitChar_lower : ∀ n < 16, isLowerHexDigit (Nat.digitChar n) = true := by decide

theorem digitValue_digitChar : ∀ n < 16, digitValue (Nat.digitChar n) = n := by decide

theorem digitChar_digitValue (h : isLowerHexDigit c = true) : Nat.digitChar (digitValue c) = c := by
  have hdecimal : ∀ k < 10, Nat.digitChar (digitValue (Char.ofNat (48 + k))) = Char.ofNat (48 + k) := by
    decide
  have hletter : ∀ k < 6, Nat.digitChar (digitValue (Char.ofNat (97 + k))) = Char.ofNat (97 + k) := by
    decide
  simp only [isLowerHexDigit, Bool.or_eq_true, Bool.and_eq_true, decide_eq_true_eq, Char.le_def,
    UInt32.le_iff_toNat_le] at h
  rw [← Char.ofNat_toNat c]
  obtain ⟨hlow, hhigh⟩ | ⟨hlow, hhigh⟩ := h
  · have hlow : 48 ≤ c.toNat := hlow
    have hhigh : c.toNat ≤ 57 := hhigh
    rw [← Nat.add_sub_cancel' hlow]
    exact hdecimal _ (by omega)
  · have hlow : 97 ≤ c.toNat := hlow
    have hhigh : c.toNat ≤ 102 := hhigh
    rw [← Nat.add_sub_cancel' hlow]
    exact hletter _ (by omega)

/-! ## Digits of a fixed count -/

/-- The last digits of a number, so many. -/
def fixed : Nat → Nat → List Char
  | 0, _ => []
  | width + 1, n => fixed width (n / 16) ++ [Nat.digitChar (n % 16)]

/-- The number that the digits write. -/
def value (cs : List Char) : Nat := cs.foldl (fun v c => v * 16 + digitValue c) 0

@[simp] theorem length_fixed : (fixed width n).length = width := by
  induction width generalizing n with
  | zero => rfl
  | succ width ih => simp [fixed, ih]

theorem fixed_lower : ∀ c ∈ fixed width n, isLowerHexDigit c = true := by
  induction width generalizing n with
  | zero => simp [fixed]
  | succ width ih =>
    intro c hc
    obtain hc | hc := List.mem_append.mp hc
    · exact ih c hc
    · rw [List.mem_singleton.mp hc]
      exact digitChar_lower _ (Nat.mod_lt _ (by decide))

theorem fixed_add (high low n : Nat) :
    fixed (high + low) n = fixed high (n / 16 ^ low) ++ fixed low n := by
  induction low generalizing n with
  | zero => simp [fixed]
  | succ low ih =>
    rw [← Nat.add_assoc, fixed, fixed, ih, List.append_assoc, Nat.div_div_eq_div_mul,
      ← Nat.pow_succ']

theorem fixed_zero : fixed width 0 = List.replicate width '0' := by
  induction width with
  | zero => rfl
  | succ width ih =>
    rw [fixed, Nat.zero_div, ih, List.replicate_succ']
    rfl

/-- `padStart` with zeros gives the digits of the count. -/
theorem leftpad_toDigits (hwidth : 0 < width) (h : n < 16 ^ width) :
    (Nat.toDigits 16 n).leftpad width '0' = fixed width n := by
  induction width generalizing n with
  | zero => exact absurd hwidth (by decide)
  | succ width ih =>
    by_cases hn : n < 16
    · have hzero : n / 16 = 0 := Nat.div_eq_of_lt hn
      rw [fixed, hzero, fixed_zero, Nat.toDigits_of_lt_base hn, Nat.mod_eq_of_lt hn]
      simp [List.leftpad]
    · have hpositive : 0 < width := by
        by_contra hzero
        obtain rfl : width = 0 := by omega
        exact hn (by simpa using h)
      have hdiv : n / 16 < 16 ^ width := Nat.div_lt_of_lt_mul (by rwa [← Nat.pow_succ'])
      rw [fixed, ← ih hpositive hdiv, Nat.toDigits_of_base_le (by decide) (not_lt.mp hn)]
      simp [List.leftpad]

theorem value_snoc : value (cs ++ [c]) = value cs * 16 + digitValue c := by
  simp [value]

theorem value_append : value (cs ++ ds) = value cs * 16 ^ ds.length + value ds := by
  induction ds using List.reverseRecOn with
  | nil => simp [value]
  | append_singleton ds d ih =>
    rw [← List.append_assoc, value_snoc, ih, value_snoc, List.length_append, List.length_singleton,
      Nat.pow_succ]
    ring

theorem value_lt (h : ∀ c ∈ cs, isHexDigit c = true) : value cs < 16 ^ cs.length := by
  induction cs using List.reverseRecOn with
  | nil => simp [value]
  | append_singleton cs c ih =>
    have hlast := digitValue_lt (h c (by simp))
    have hinit := ih fun d hd => h d (List.mem_append_left _ hd)
    rw [value_snoc, List.length_append, List.length_singleton, Nat.pow_succ]
    omega

theorem value_fixed : value (fixed width n) = n % 16 ^ width := by
  induction width generalizing n with
  | zero => simp [fixed, value, Nat.mod_one]
  | succ width ih =>
    rw [fixed, value_snoc, ih, digitValue_digitChar _ (Nat.mod_lt _ (by decide)), Nat.pow_succ',
      Nat.mod_mul, Nat.mul_comm, Nat.add_comm]

theorem fixed_value (h : ∀ c ∈ cs, isLowerHexDigit c = true) : fixed cs.length (value cs) = cs := by
  induction cs using List.reverseRecOn with
  | nil => rfl
  | append_singleton cs c ih =>
    have hlast := h c (by simp)
    have hlt := digitValue_lt (isHexDigit_of_lower hlast)
    have hdiv : (value cs * 16 + digitValue c) / 16 = value cs := by omega
    have hmod : (value cs * 16 + digitValue c) % 16 = digitValue c := by omega
    rw [List.length_append, List.length_singleton, value_snoc, fixed, hdiv, hmod,
      ih fun d hd => h d (List.mem_append_left _ hd), digitChar_digitValue hlast]

/-! ## Texts of a fixed shape -/

/-- Each character satisfies the condition in its place. -/
def fits : List (Char → Bool) → List Char → Bool
  | [], [] => true
  | p :: shape, c :: cs => p c && fits shape cs
  | _, _ => false

variable {shape shape' : List (Char → Bool)} {p : Char → Bool}

theorem fits_append_iff : fits (shape ++ shape') cs = true ↔
    ∃ as bs, cs = as ++ bs ∧ fits shape as = true ∧ fits shape' bs = true := by
  induction shape generalizing cs with
  | nil =>
    constructor
    · intro h
      exact ⟨[], cs, rfl, rfl, h⟩
    · rintro ⟨as, bs, rfl, has, hbs⟩
      cases as with
      | nil => exact hbs
      | cons a as => cases has
  | cons p shape ih =>
    cases cs with
    | nil =>
      constructor
      · intro h
        cases h
      · rintro ⟨as, bs, heq, has, -⟩
        obtain ⟨rfl, -⟩ := List.append_eq_nil_iff.mp heq.symm
        cases has
    | cons c cs =>
      simp only [List.cons_append, fits, Bool.and_eq_true]
      rw [ih]
      constructor
      · rintro ⟨hc, as, bs, rfl, has, hbs⟩
        exact ⟨c :: as, bs, rfl, by simp [fits, hc, has], hbs⟩
      · rintro ⟨as, bs, heq, has, hbs⟩
        cases as with
        | nil => cases has
        | cons a as =>
          simp only [List.cons_append, List.cons.injEq] at heq
          obtain ⟨rfl, rfl⟩ := heq
          simp only [fits, Bool.and_eq_true] at has
          exact ⟨has.1, as, bs, rfl, has.2, hbs⟩

theorem fits_replicate_iff : fits (List.replicate n p) cs = true ↔
    cs.length = n ∧ ∀ c ∈ cs, p c = true := by
  induction n generalizing cs with
  | zero => cases cs <;> simp [fits]
  | succ n ih =>
    cases cs with
    | nil => simp [fits, List.replicate_succ]
    | cons c cs =>
      simp only [List.replicate_succ, fits, Bool.and_eq_true, ih, List.length_cons,
        Nat.add_right_cancel_iff, List.forall_mem_cons]
      tauto

theorem fits_cons_iff : fits (p :: shape) cs = true ↔
    ∃ d ds, cs = d :: ds ∧ p d = true ∧ fits shape ds = true := by
  cases cs <;> simp [fits]

end Pomodorough.Library.Hexadecimal
