import Pomodorough.Library.UrlResolution

/-! # Redirects

The target of a redirect, as `net/http` writes it: the path is made absolute and
cleaned, and the query stays. -/
namespace Pomodorough.Library.Redirects
open Pomodorough.Library.PercentEncoding
open Pomodorough.Library.UrlReferences
open Pomodorough.Library.UrlResolution

/-! ## Clean paths -/

/-- The segments after those that are already kept, the last of these first. -/
def cleanSegments : List Bytes → List Bytes → List Bytes
  | kept, [] => kept.reverse
  | kept, segment :: rest =>
    if segment = [] ∨ segment = [46] then cleanSegments kept rest
    else if segment = [46, 46] then cleanSegments kept.tail rest
    else cleanSegments (segment :: kept) rest

/-- `path.Clean` of an absolute path, with its slash at the end. -/
def cleanPath (path : Bytes) : Bytes :=
  let segments := cleanSegments [] ((path.drop 1).splitOn slash)
  if segments = [] then [slash]
  else if path.getLast? = some slash then writePath segments ++ [slash]
  else writePath segments

/-- What `Redirect` sets as the location, for a request of this path. A text that is
no relative reference stays as it is. -/
def redirectTarget (oldpath url : Bytes) : Bytes :=
  match parse url with
  | none => url
  | some u =>
    if u.scheme = [] ∧ u.host = [] then
      let olddir := (oldpath.reverse.dropWhile (· ≠ slash)).reverse
      let url := if url.head? ≠ some slash then olddir ++ url else url
      match cut question url with
      | (path, none) => cleanPath path
      | (path, some query) => cleanPath path ++ question :: query
    else url

/-! ## What cleaning keeps -/

section
variable {kept segments : List Bytes} {path rest : Bytes}

theorem cleanSegments_forall {P : Bytes → Prop} (hkept : ∀ segment ∈ kept, P segment)
    (hsegments : ∀ segment ∈ segments, P segment) :
    ∀ segment ∈ cleanSegments kept segments, P segment := by
  induction segments generalizing kept with
  | nil => simpa [cleanSegments] using hkept
  | cons segment segments ih =>
    obtain ⟨hsegment, hrest⟩ := List.forall_mem_cons.mp hsegments
    unfold cleanSegments
    split
    · exact ih hkept hrest
    · split
      · exact ih (fun segment hmem => hkept segment (List.mem_of_mem_tail hmem)) hrest
      · exact ih (List.forall_mem_cons.mpr ⟨hsegment, hkept⟩) hrest

/-- No empty segment is kept. -/
theorem cleanSegments_ne_nil (hkept : ∀ segment ∈ kept, segment ≠ []) :
    ∀ segment ∈ cleanSegments kept segments, segment ≠ [] := by
  induction segments generalizing kept with
  | nil => simpa [cleanSegments] using hkept
  | cons segment segments ih =>
    unfold cleanSegments
    split
    · exact ih hkept
    · next hne =>
      split
      · exact ih fun segment hmem => hkept segment (List.mem_of_mem_tail hmem)
      · exact ih (List.forall_mem_cons.mpr ⟨fun heq => hne (Or.inl heq), hkept⟩)

theorem length_cleanSegments : (writePath (cleanSegments kept segments)).length ≤
    (writePath kept).length + (writePath segments).length := by
  induction segments generalizing kept with
  | nil =>
    rw [cleanSegments, length_writePath_reverse]
    exact Nat.le_add_right _ _
  | cons segment segments ih =>
    have hcons := @length_writePath_cons segments segment
    have htail := @length_writePath_tail kept
    unfold cleanSegments
    split
    · have hrest := @ih kept
      omega
    · split
      · have hrest := @ih kept.tail
        omega
      · have hrest := @ih (segment :: kept)
        have hkept := @length_writePath_cons kept segment
        omega

theorem writePath_splitOn : writePath (rest.splitOn slash) = slash :: rest := by
  have hjoin : [slash].intercalate (rest.splitOn slash) = rest := List.intercalate_splitOn slash
  have hwrite : ∀ parts : List Bytes, parts ≠ [] →
      writePath parts = slash :: [slash].intercalate parts := by
    intro parts hparts
    induction parts with
    | nil => exact absurd rfl hparts
    | cons part parts ih =>
      cases parts with
      | nil => simp [writePath]
      | cons next parts =>
        have hrest := ih (by simp)
        rw [List.intercalate_cons_cons]
        unfold writePath at hrest ⊢
        rw [List.flatMap_cons, hrest]
        simp
  rw [hwrite _ (List.splitOn_ne_nil _ _), hjoin]

theorem cleanSegments_concat : cleanSegments kept (segments ++ [[]]) = cleanSegments kept segments := by
  induction segments generalizing kept with
  | nil => simp [cleanSegments]
  | cons segment segments ih =>
    rw [List.cons_append]
    unfold cleanSegments
    rw [ih, ih, ih]

theorem splitOn_concat : (rest ++ [slash]).splitOn slash = rest.splitOn slash ++ [[]] := by
  rw [List.splitOn_append_cons_self, List.splitOn_nil]

/-- A cleaned path is no longer than the path. -/
theorem length_cleanPath : (cleanPath (slash :: rest)).length ≤ (slash :: rest).length := by
  have hclean := fun segments : List Bytes => @length_cleanSegments [] segments
  have hsplit := fun rest : Bytes => congrArg List.length (@writePath_splitOn rest)
  unfold cleanPath
  rw [List.drop_succ_cons, List.drop_zero]
  simp only
  split
  next => simp
  next hne =>
    split
    next hlast =>
      rcases List.eq_nil_or_concat rest with rfl | ⟨init, last, rfl⟩
      · exact absurd rfl hne
      · rw [List.concat_eq_append, ← List.cons_append, List.getLast?_concat, Option.some_inj] at hlast
        rw [List.concat_eq_append, hlast, splitOn_concat, cleanSegments_concat]
        have hinit := hclean (init.splitOn slash)
        rw [hsplit init] at hinit
        simp only [writePath, List.flatMap_nil, List.length_nil, List.length_cons, List.length_append,
          Nat.zero_add] at hinit ⊢
        omega
    next =>
      have hrest := hclean (rest.splitOn slash)
      rw [hsplit rest] at hrest
      simpa [writePath] using hrest

/-- The segments of a cleaned path: none is empty but the last, and none has a slash. -/
theorem cleanPath_parts (path : Bytes) : ∃ parts, cleanPath path = writePath parts ∧ parts ≠ [] ∧
    (∀ part ∈ parts.dropLast, part ≠ []) ∧ ∀ part ∈ parts, ∀ b ∈ part, b ≠ slash ∧ b ∈ path := by
  have hne := @cleanSegments_ne_nil [] ((path.drop 1).splitOn slash) (by simp)
  have hbytes : ∀ part ∈ cleanSegments [] ((path.drop 1).splitOn slash),
      ∀ b ∈ part, b ≠ slash ∧ b ∈ path := by
    apply cleanSegments_forall
    · simp
    · intro part hpart b hb
      rw [List.splitOn_eq_splitOnP] at hpart
      refine ⟨?_, List.mem_of_mem_drop (mem_of_splitOnP part hpart b hb)⟩
      rintro rfl
      exact absurd (mem_splitOnP part hpart _ hb) (by decide)
  have hdrop : ∀ part ∈ (cleanSegments [] ((path.drop 1).splitOn slash)).dropLast, part ≠ [] :=
    fun part hpart => hne part (List.dropLast_subset _ hpart)
  unfold cleanPath
  generalize cleanSegments [] ((path.drop 1).splitOn slash) = segments at hne hbytes hdrop
  simp only
  split
  next => exact ⟨[[]], rfl, by simp, by simp, by simp⟩
  next hsegments =>
    split
    next =>
      refine ⟨segments ++ [[]], by simp [writePath], by simp, by simpa using hne, ?_⟩
      intro part hpart
      rcases List.mem_append.mp hpart with hpart | hpart
      · exact hbytes part hpart
      · rw [List.mem_singleton.mp hpart]
        simp
    next => exact ⟨segments, rfl, hsegments, hdrop, hbytes⟩

end

/-! ## Where a redirect lands -/

section
variable {path query rest : Bytes} {base : Location}

/-- The pathname of a cleaned path starts with one slash. -/
theorem absolute_cleanPath (hpath : backslash ∉ path) :
    (absolute ((cleanPath path).drop 1)).take 2 ≠ [slash, slash] := by
  obtain ⟨parts, hclean, hne, hempty, hbytes⟩ := cleanPath_parts path
  have hseparator : ∀ part ∈ parts, ∀ b ∈ part, isSeparator b = false := by
    intro part hpart b hb
    obtain ⟨hslash, hmem⟩ := hbytes part hpart b hb
    have hbackslash : b ≠ backslash := fun heq => hpath (heq ▸ hmem)
    simp [isSeparator, hslash, hbackslash]
  have hplaced := @place_dropLast [] parts (by simp) hempty
  have hslash : ∀ part ∈ place [] parts, ∀ b ∈ part, b ≠ slash := by
    apply place_forall
    · simp
    · simp
    · intro part hpart
      apply mem_escape
      · exact fun b hb _ => (hbytes part hpart b hb).1
      · decide
      · decide
  rw [hclean, absolute, splitOnP_writePath hne hseparator]
  intro htake
  cases hshown : place [] parts with
  | nil => exact place_ne_nil hne hshown
  | cons first others =>
    rw [hshown] at htake hplaced hslash
    cases first with
    | cons b first =>
      have hb : b = slash := (List.cons.inj (List.cons.inj htake).2).1
      exact hslash (b :: first) List.mem_cons_self b List.mem_cons_self hb
    | nil =>
      cases others with
      | nil => simp [writePath] at htake
      | cons next others => exact hplaced [] (by simp) rfl

/-- A path of bytes that a browser keeps is not shown longer than it is. -/
theorem length_absolute_cleanPath (hkeep : ∀ b ∈ slash :: rest, keepsPath b = true)
    (hbackslash : backslash ∉ rest) :
    (absolute ((cleanPath (slash :: rest)).drop 1)).length ≤ (slash :: rest).length := by
  obtain ⟨parts, hclean, hne, -, hbytes⟩ := cleanPath_parts (slash :: rest)
  have hseparator : ∀ part ∈ parts, ∀ b ∈ part, isSeparator b = false := by
    intro part hpart b hb
    obtain ⟨hslash, hmem⟩ := hbytes part hpart b hb
    have hne : b ≠ backslash := by
      rintro rfl
      exact hbackslash ((List.mem_cons.mp hmem).resolve_left hslash)
    simp [isSeparator, hslash, hne]
  have hlength := @length_cleanPath rest
  have hplace := @length_place [] parts fun part hpart b hb => hkeep b (hbytes part hpart b hb).2
  rw [hclean] at hlength ⊢
  rw [absolute, splitOnP_writePath hne hseparator]
  simp only [writePath, List.flatMap_nil, List.length_nil, Nat.zero_add] at hplace
  exact Nat.le_trans hplace hlength

theorem keepsQuery_plain {b : UInt8} (h : keepsQuery b = true) :
    isTabOrNewline b = false ∧ b ≠ numberSign ∧ isBlank b = false := by
  have hall : ∀ n < 256, keepsQuery (UInt8.ofNat n) = true → isTabOrNewline (UInt8.ofNat n) = false ∧
      UInt8.ofNat n ≠ numberSign ∧ isBlank (UInt8.ofNat n) = false := by decide +kernel
  rw [← @UInt8.ofNat_toNat b] at h ⊢
  exact hall _ b.toNat_lt h

/-- A redirect to a path and a query lands on the pathname of the cleaned path. -/
theorem resolve_cleanPath (hpath : ∀ b ∈ path, 33 ≤ b ∧ b ≠ question ∧ b ≠ numberSign ∧ b ≠ backslash)
    (hquery : ∀ b ∈ query, keepsQuery b = true) :
    resolve base (cleanPath path ++ question :: query) =
      some ⟨absolute ((cleanPath path).drop 1), searchOf (some query)⟩ := by
  obtain ⟨parts, hclean, hne, hempty, hbytes⟩ := cleanPath_parts path
  have hplain : ∀ b ∈ cleanPath path, 33 ≤ b ∧ b ≠ question ∧ b ≠ numberSign := by
    intro b hb
    rw [hclean] at hb
    obtain ⟨part, hpart, hb⟩ := List.mem_flatMap.mp hb
    rcases List.mem_cons.mp hb with rfl | hb
    · decide
    · obtain ⟨hlow, hquestion, hhash, -⟩ := hpath b (hbytes part hpart b hb).2
      exact ⟨hlow, hquestion, hhash⟩
  have hblank : query.rdropWhile isBlank = query := by
    rw [List.rdropWhile_eq_self_iff]
    intro hne
    simp [(keepsQuery_plain (hquery _ (List.getLast_mem hne))).2.2]
  obtain ⟨rest, hrest, hhead⟩ : ∃ rest, cleanPath path = slash :: rest ∧
      rest.head?.any isSeparator = false := by
    cases parts with
    | nil => exact absurd rfl hne
    | cons first others =>
      refine ⟨first ++ writePath others, hclean, ?_⟩
      cases first with
      | cons b first =>
        obtain ⟨hslash, hmem⟩ := hbytes (b :: first) List.mem_cons_self b List.mem_cons_self
        have hbackslash : b ≠ backslash := (hpath b hmem).2.2.2
        simp [isSeparator, hslash, hbackslash]
      | nil =>
        cases others with
        | nil => rfl
        | cons next others => exact absurd rfl (hempty [] (by simp))
  have hresolved := @resolve_query base _ query rest hplain ⟨hrest, hhead⟩ fun b hb =>
    ⟨(keepsQuery_plain (hquery b hb)).1, (keepsQuery_plain (hquery b hb)).2.1⟩
  rw [hresolved, hblank, hrest]
  rfl

end

end Pomodorough.Library.Redirects
