import Mathlib.Data.List.DropRight
import Pomodorough.Library.UrlReferences

/-! # References in a browser

How a browser resolves a reference against an HTTP URL, by the URL standard. Only
the references that stay on the origin of the base are resolved. -/
namespace Pomodorough.Library.UrlResolution
open Pomodorough.Library.PercentEncoding
open Pomodorough.Library.UrlReferences

/-- The path and the query of the URL that a browser shows. -/
structure Location where
  pathname : Bytes
  search : Bytes
deriving DecidableEq, Repr

/-! ## Paths -/

/-- A backslash separates the segments of an HTTP path as a slash does. -/
def isSeparator (b : UInt8) : Bool := b = slash || b = backslash

/-- Printable ASCII outside the path percent-encode set. -/
def keepsPath (b : UInt8) : Bool :=
  33 ≤ b && b ≤ 126 && !([34, 35, 60, 62, 63, 94, 96, 123, 125].contains b)

/-- Printable ASCII outside the special-query percent-encode set. -/
def keepsQuery (b : UInt8) : Bool := 33 ≤ b && b ≤ 126 && !([34, 35, 39, 60, 62].contains b)

/-- How many dots a segment of dots alone has, escaped or not. -/
def dots : Bytes → Option Nat
  | [] => some 0
  | 46 :: rest => (dots rest).map (· + 1)
  | 37 :: 50 :: 101 :: rest => (dots rest).map (· + 1)
  | 37 :: 50 :: 69 :: rest => (dots rest).map (· + 1)
  | _ => none

/-- The segments after those that are already placed, the last of these first. A
single dot is left out and a double dot takes a segment away; where either is the last
segment, an empty one stands for it. -/
def place : List Bytes → List Bytes → List Bytes
  | placed, [] => placed.reverse
  | placed, [last] =>
    if dots last = some 2 then ([] :: placed.tail).reverse
    else if dots last = some 1 then ([] :: placed).reverse
    else (escape keepsPath last :: placed).reverse
  | placed, segment :: next :: rest =>
    if dots segment = some 2 then place placed.tail (next :: rest)
    else if dots segment = some 1 then place placed (next :: rest)
    else place (escape keepsPath segment :: placed) (next :: rest)

def writePath (segments : List Bytes) : Bytes := segments.flatMap (slash :: ·)

/-- The pathname of a path behind its first separator. -/
def absolute (path : Bytes) : Bytes := writePath (place [] (path.splitOnP isSeparator))

/-! ## References -/

/-- A C0 control or a space. -/
def isBlank (b : UInt8) : Bool := b ≤ 32

def isTabOrNewline (b : UInt8) : Bool := b = 9 || b = 10 || b = 13

def hasScheme (input : Bytes) : Bool :=
  let scheme := input.takeWhile isSchemeByte
  (scheme.head?.any fun b => 65 ≤ b) && (input.drop scheme.length).head? = some colon

/-- The query that a browser shows. -/
def searchOf (query : Option Bytes) : Bytes :=
  match query with
  | none => []
  | some [] => []
  | some query => question :: escape keepsQuery query

/-- A reference with a scheme, or with an authority, is not resolved. -/
def resolve (base : Location) (reference : Bytes) : Option Location :=
  let input := ((reference.dropWhile isBlank).rdropWhile isBlank).filter fun b => !isTabOrNewline b
  if hasScheme input then none
  else
    let (path, query) := cut question (cut numberSign input).1
    let search := searchOf query
    match path with
    | [] => some ⟨base.pathname, if query = none then base.search else search⟩
    | b :: rest =>
      if isSeparator b then
        if rest.head?.any isSeparator then none else some ⟨absolute rest, search⟩
      else
        let directory := ((base.pathname.drop 1).splitOnP isSeparator).dropLast
        some ⟨writePath (place directory.reverse (path.splitOnP isSeparator)), search⟩

/-! ## The pathname that is shown -/

section
variable {placed segments : List Bytes} {rest : Bytes}

theorem mem_splitOnP {p : UInt8 → Bool} {xs : Bytes} :
    ∀ part ∈ xs.splitOnP p, ∀ b ∈ part, p b = false := by
  induction xs with
  | nil => simp
  | cons x xs ih =>
    rw [List.splitOnP_cons_eq_if_modifyHead]
    split
    next =>
      intro part hpart
      rcases List.mem_cons.mp hpart with rfl | hpart
      · simp
      · exact ih part hpart
    next hx =>
      cases hparts : xs.splitOnP p with
      | nil => simp
      | cons first others =>
        rw [hparts] at ih
        rw [List.modifyHead_cons]
        intro part hpart b hb
        rcases List.mem_cons.mp hpart with rfl | hpart
        · rcases List.mem_cons.mp hb with rfl | hb
          · exact Bool.eq_false_iff.mpr hx
          · exact ih first List.mem_cons_self b hb
        · exact ih part (List.mem_cons_of_mem _ hpart) b hb

theorem mem_of_splitOnP {p : UInt8 → Bool} {xs : Bytes} :
    ∀ part ∈ xs.splitOnP p, ∀ b ∈ part, b ∈ xs := by
  induction xs with
  | nil => simp
  | cons x xs ih =>
    rw [List.splitOnP_cons_eq_if_modifyHead]
    have hlater : ∀ part ∈ xs.splitOnP p, ∀ b ∈ part, b ∈ x :: xs :=
      fun part hpart b hb => List.mem_cons_of_mem _ (ih part hpart b hb)
    split
    next => exact List.forall_mem_cons.mpr ⟨by simp, hlater⟩
    next =>
      cases hparts : xs.splitOnP p with
      | nil => simp
      | cons first others =>
        rw [hparts] at hlater
        obtain ⟨hfirst, hothers⟩ := List.forall_mem_cons.mp hlater
        rw [List.modifyHead_cons]
        exact List.forall_mem_cons.mpr
          ⟨List.forall_mem_cons.mpr ⟨List.mem_cons_self, hfirst⟩, hothers⟩

theorem place_forall {P : Bytes → Prop} (hnil : P []) (hplaced : ∀ segment ∈ placed, P segment)
    (hsegments : ∀ segment ∈ segments, P (escape keepsPath segment)) :
    ∀ segment ∈ place placed segments, P segment := by
  have htail : ∀ {placed : List Bytes}, (∀ segment ∈ placed, P segment) →
      ∀ segment ∈ placed.tail, P segment :=
    fun hplaced segment hmem => hplaced segment (List.mem_of_mem_tail hmem)
  have hlast : ∀ {last : Bytes} {placed : List Bytes}, P last → (∀ segment ∈ placed, P segment) →
      ∀ segment ∈ (last :: placed).reverse, P segment := by
    intro last placed hlast hplaced segment hmem
    exact List.forall_mem_cons.mpr ⟨hlast, hplaced⟩ segment (List.mem_reverse.mp hmem)
  induction segments generalizing placed with
  | nil => simpa [place] using hplaced
  | cons segment segments ih =>
    obtain ⟨hsegment, hrest⟩ := List.forall_mem_cons.mp hsegments
    cases segments with
    | nil =>
      unfold place
      split
      · exact hlast hnil (htail hplaced)
      · split
        · exact hlast hnil hplaced
        · exact hlast hsegment hplaced
    | cons next segments =>
      unfold place
      split
      · exact ih (htail hplaced) hrest
      · split
        · exact ih hplaced hrest
        · exact ih (List.forall_mem_cons.mpr ⟨hsegment, hplaced⟩) hrest

theorem place_ne_nil (h : segments ≠ []) : place placed segments ≠ [] := by
  induction segments generalizing placed with
  | nil => exact absurd rfl h
  | cons segment segments ih =>
    cases segments with
    | nil =>
      unfold place
      split
      · simp
      · split
        · simp
        · simp
    | cons next segments =>
      unfold place
      split
      · exact ih (by simp)
      · split
        · exact ih (by simp)
        · exact ih (by simp)

theorem absolute_head : (absolute rest).head? = some slash := by
  unfold absolute
  cases hplaced : place [] (rest.splitOnP isSeparator) with
  | nil => exact absurd hplaced (place_ne_nil (List.splitOnP_ne_nil _ _))
  | cons segment segments => rfl

theorem keepsPath_plain {b : UInt8} (h : keepsPath b = true) :
    33 ≤ b ∧ b ≠ question ∧ b ≠ numberSign := by
  have hall : ∀ n < 256, keepsPath (UInt8.ofNat n) = true →
      33 ≤ UInt8.ofNat n ∧ UInt8.ofNat n ≠ question ∧ UInt8.ofNat n ≠ numberSign := by decide +kernel
  rw [← @UInt8.ofNat_toNat b] at h ⊢
  exact hall _ b.toNat_lt h

/-- The segments of a path without separators are found again. -/
theorem splitOnP_writePath (hne : segments ≠ [])
    (h : ∀ segment ∈ segments, ∀ b ∈ segment, isSeparator b = false) :
    ((writePath segments).drop 1).splitOnP isSeparator = segments := by
  induction segments with
  | nil => exact absurd rfl hne
  | cons segment segments ih =>
    obtain ⟨hsegment, hrest⟩ := List.forall_mem_cons.mp h
    unfold writePath at ih ⊢
    rw [List.flatMap_cons, List.cons_append, List.drop_succ_cons, List.drop_zero]
    cases segments with
    | nil =>
      rw [List.flatMap_nil, List.append_nil]
      exact List.splitOnP_eq_singleton hsegment
    | cons next segments =>
      have hnext := ih (by simp) hrest
      rw [List.flatMap_cons, List.cons_append, List.drop_succ_cons, List.drop_zero] at hnext
      rw [List.flatMap_cons, List.cons_append,
        List.splitOnP_append_cons_of_forall_mem hsegment slash rfl, hnext]

/-- Only the last segment may be empty, where that holds of what is placed. -/
theorem place_dropLast (hplaced : ∀ segment ∈ placed, segment ≠ [])
    (h : ∀ segment ∈ segments.dropLast, segment ≠ []) :
    ∀ segment ∈ (place placed segments).dropLast, segment ≠ [] := by
  have htail : ∀ segment ∈ placed.tail, segment ≠ [] :=
    fun segment hmem => hplaced segment (List.mem_of_mem_tail hmem)
  have hlast : ∀ {last : Bytes} {placed : List Bytes}, (∀ segment ∈ placed, segment ≠ []) →
      ∀ segment ∈ (last :: placed).reverse.dropLast, segment ≠ [] := by
    intro last placed hplaced segment hmem
    rw [List.reverse_cons, List.dropLast_concat, List.mem_reverse] at hmem
    exact hplaced segment hmem
  induction segments generalizing placed with
  | nil =>
    intro segment hmem
    rw [place] at hmem
    exact hplaced segment (List.mem_reverse.mp (List.dropLast_subset _ hmem))
  | cons segment segments ih =>
    cases segments with
    | nil =>
      unfold place
      split
      · exact hlast htail
      · split
        · exact hlast hplaced
        · exact hlast hplaced
    | cons next segments =>
      rw [List.dropLast_cons_cons] at h
      obtain ⟨hsegment, hrest⟩ := List.forall_mem_cons.mp h
      have hescape : escape keepsPath segment ≠ [] := by
        cases segment with
        | nil => exact absurd rfl hsegment
        | cons b segment =>
          rw [escape_cons]
          split
          · simp
          · simp [escapeByte]
      have htail' : ∀ segment ∈ placed.tail.tail, segment ≠ [] :=
        fun segment hmem => htail segment (List.mem_of_mem_tail hmem)
      unfold place
      split
      · exact ih htail hrest htail'
      · split
        · exact ih hplaced hrest htail
        · exact ih (List.forall_mem_cons.mpr ⟨hescape, hplaced⟩) hrest hplaced

theorem length_writePath_cons {segment : Bytes} : (writePath (segment :: segments)).length =
    segment.length + 1 + (writePath segments).length := by
  unfold writePath
  rw [List.flatMap_cons, List.length_append, List.length_cons]

theorem length_writePath_tail : (writePath segments.tail).length ≤ (writePath segments).length := by
  cases segments with
  | nil => exact Nat.le_refl _
  | cons segment segments =>
    rw [length_writePath_cons, List.tail_cons]
    omega

theorem length_writePath_reverse : (writePath segments.reverse).length = (writePath segments).length := by
  unfold writePath
  exact ((List.reverse_perm segments).flatMap_right _).length_eq

/-- A path of bytes that are kept is not shown longer than it is. -/
theorem length_place (h : ∀ segment ∈ segments, ∀ b ∈ segment, keepsPath b = true) :
    (writePath (place placed segments)).length ≤
      (writePath placed).length + (writePath segments).length := by
  induction segments generalizing placed with
  | nil =>
    rw [place, length_writePath_reverse]
    exact Nat.le_add_right _ _
  | cons segment segments ih =>
    obtain ⟨hsegment, hrest⟩ := List.forall_mem_cons.mp h
    have htail := @length_writePath_tail placed
    have hkept := escape_of_keep hsegment
    cases segments with
    | nil =>
      unfold place
      split
      · rw [length_writePath_reverse, length_writePath_cons, length_writePath_cons]
        simp only [List.length_nil]
        omega
      · split
        · rw [length_writePath_reverse, length_writePath_cons, length_writePath_cons]
          simp only [List.length_nil]
          omega
        · rw [hkept, length_writePath_reverse, length_writePath_cons, length_writePath_cons]
          omega
    | cons next segments =>
      rw [length_writePath_cons]
      unfold place
      split
      · have hplaced := @ih placed.tail hrest
        omega
      · split
        · have hplaced := @ih placed hrest
          omega
        · have hplaced := @ih (escape keepsPath segment :: placed) hrest
          rw [hkept] at hplaced ⊢
          rw [length_writePath_cons] at hplaced
          omega

/-- The bytes of a pathname. -/
theorem absolute_plain : ∀ b ∈ absolute rest, b ≠ backslash ∧ keepsPath b = true := by
  have hsegments : ∀ segment ∈ place [] (rest.splitOnP isSeparator),
      ∀ b ∈ segment, b ≠ backslash ∧ keepsPath b = true := by
    apply place_forall
    · simp
    · simp
    · intro segment hsegment
      apply mem_escape
      · intro b hb hkeep
        refine ⟨?_, hkeep⟩
        rintro rfl
        exact absurd (mem_splitOnP segment hsegment _ hb) (by decide)
      · decide
      · decide
  intro b hb
  obtain ⟨segment, hsegment, hb⟩ := List.mem_flatMap.mp hb
  rcases List.mem_cons.mp hb with rfl | hb
  · decide
  · exact hsegments segment hsegment b hb

end

/-! ## What is resolved on the origin -/

section
variable {base : Location} {path query rest text : Bytes}

theorem rdropWhile_append {p : UInt8 → Bool} {b : UInt8} (h : p b = false) :
    (text ++ b :: rest).rdropWhile p = text ++ b :: rest.rdropWhile p := by
  induction rest using List.reverseRecOn with
  | nil => simp [h]
  | append_singleton rest last ih =>
    rw [← List.cons_append, ← List.append_assoc, List.rdropWhile_concat, List.rdropWhile_concat]
    split
    · exact ih
    · simp

/-- A path with one slash first is resolved to itself, on the origin of the base. -/
theorem resolve_input {input : Bytes} {query : Option Bytes}
    (hinput : ((text.dropWhile isBlank).rdropWhile isBlank).filter (fun b => !isTabOrNewline b) = input)
    (hhash : numberSign ∉ input) (hcut : cut question input = (slash :: rest, query))
    (hrest : rest.head?.any isSeparator = false) :
    resolve base text = some ⟨absolute rest, searchOf query⟩ := by
  have hscheme : hasScheme input = false := by
    cases input with
    | nil => rfl
    | cons b input =>
      have hb : b = slash := by
        by_cases hb : b = question
        · rw [hb] at hcut
          cases hcut
        · have hfirst := congrArg Prod.fst hcut
          simp [cut, hb] at hfirst
          exact hfirst.1
      rw [hb]
      rfl
  have hseparator : isSeparator slash = true := rfl
  unfold resolve
  simp only [hinput, hscheme, Bool.false_eq_true, if_false, cut_of_notMem hhash, hcut, hseparator,
    if_true, hrest]

variable (hpath : ∀ b ∈ path, 33 ≤ b ∧ b ≠ question ∧ b ≠ numberSign)
include hpath

theorem printable_path : (∀ b ∈ path, isBlank b = false) ∧ (∀ b ∈ path, isTabOrNewline b = false) ∧
    question ∉ path ∧ numberSign ∉ path := by
  have hlow : ∀ b ∈ path, 33 ≤ b.toNat := fun b hb => UInt8.le_iff_toNat_le.mp (hpath b hb).1
  refine ⟨?_, ?_, fun hb => (hpath _ hb).2.1 rfl, fun hb => (hpath _ hb).2.2 rfl⟩
  · intro b hb
    have hb := hlow b hb
    have hnot : ¬ b ≤ 32 := by
      intro hle
      have hle : b.toNat ≤ 32 := UInt8.le_iff_toNat_le.mp hle
      omega
    simp [isBlank, hnot]
  · intro b hb
    have hb := hlow b hb
    simp only [isTabOrNewline, Bool.or_eq_false_iff, decide_eq_false_iff_not]
    refine ⟨⟨?_, ?_⟩, ?_⟩ <;>
    · intro heq
      rw [heq] at hb
      exact absurd hb (by decide)

variable (hrest : path = slash :: rest ∧ rest.head?.any isSeparator = false)
include hrest

theorem resolve_path : resolve base path = some ⟨absolute rest, []⟩ := by
  obtain ⟨hblank, htab, hquestion, hhash⟩ := printable_path hpath
  obtain ⟨rfl, hhead⟩ := hrest
  have hfirst : isBlank slash = false := hblank slash List.mem_cons_self
  refine @resolve_input base rest _ _ none ?_ hhash (cut_of_notMem hquestion) hhead
  rw [List.dropWhile_cons_of_neg (by simp [hfirst]), List.rdropWhile_eq_self_iff.mpr ?_,
    List.filter_eq_self.mpr ?_]
  · intro b hb
    rw [htab b hb]
    rfl
  · intro hne
    simp [hblank _ (List.getLast_mem hne)]

theorem resolve_query (hquery : ∀ b ∈ query, isTabOrNewline b = false ∧ b ≠ numberSign) :
    resolve base (path ++ question :: query) =
      some ⟨absolute rest, searchOf (some (query.rdropWhile isBlank))⟩ := by
  obtain ⟨hblank, htab, hquestion, hhash⟩ := printable_path hpath
  obtain ⟨rfl, hhead⟩ := hrest
  have hfirst : isBlank slash = false := hblank slash List.mem_cons_self
  have hsub : ∀ b ∈ query.rdropWhile isBlank, b ∈ query := List.IsPrefix.subset (List.rdropWhile_prefix _ _)
  refine @resolve_input base rest _ _ (some (query.rdropWhile isBlank)) ?_ ?_ (cut_eq hquestion) hhead
  · rw [List.cons_append, List.dropWhile_cons_of_neg (by simp [hfirst]), ← List.cons_append,
      rdropWhile_append rfl, List.filter_eq_self.mpr ?_]
    intro b hb
    rcases List.mem_append.mp hb with hb | hb
    · rw [htab b hb]
      rfl
    · rcases List.mem_cons.mp hb with rfl | hb
      · rfl
      · rw [(hquery b (hsub b hb)).1]
        rfl
  · intro hmem
    rcases List.mem_append.mp hmem with hmem | hmem
    · exact hhash hmem
    · rcases List.mem_cons.mp hmem with heq | hmem
      · exact absurd heq (by decide)
      · exact (hquery _ (hsub _ hmem)).2 rfl

end

end Pomodorough.Library.UrlResolution
