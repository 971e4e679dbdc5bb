import Mathlib.Data.List.Basic

/-! # Lexical paths

Texts over any characters, one of which separates the segments of a path and one makes up
its dot segments. A path is cleaned by its text alone: an empty segment and a single dot
are left out, and a double dot takes the segment before it along. -/
namespace Pomodorough.Library.LexicalPaths

/-- The two characters that are not like the others. -/
structure Alphabet (α : Type) where
  slash : α
  dot : α

variable {α : Type} [DecidableEq α] (A : Alphabet α)

/-- The segments of a text, of which it has at least one. -/
def split : List α → List (List α)
  | [] => [[]]
  | c :: text =>
    if c = A.slash then [] :: split text
    else match split text with
      | [] => [[c]]
      | segment :: segments => (c :: segment) :: segments

def join : List (List α) → List α
  | [] => []
  | [segment] => segment
  | segment :: next :: segments => segment ++ A.slash :: join (next :: segments)

/-- One segment, after those that have been placed, the last of these first. -/
def place (rooted : Bool) (placed : List (List α)) (segment : List α) : List (List α) :=
  if segment = [] ∨ segment = [A.dot] then placed
  else if segment = [A.dot, A.dot] then
    match placed with
    | [] => if rooted then [] else [segment]
    | last :: earlier => if last = [A.dot, A.dot] then segment :: placed else earlier
  else segment :: placed

/-- The shortest path that means the same as a path. -/
def clean (path : List α) : List α :=
  let rooted := path.head? == some A.slash
  let segments := ((split A path).foldl (place A rooted) []).reverse
  if rooted then A.slash :: join A segments
  else if segments = [] then [A.dot] else join A segments

/-- A path below a directory. -/
def below (directory path : List α) : List α := clean A (directory ++ A.slash :: path)

/-- The name of a file or a directory. -/
structure IsName (segment : List α) : Prop where
  nonempty : segment ≠ []
  not_single : segment ≠ [A.dot]
  not_double : segment ≠ [A.dot, A.dot]
  no_slash : A.slash ∉ segment

instance (segment : List α) : Decidable (IsName A segment) :=
  decidable_of_iff (segment ≠ [] ∧ segment ≠ [A.dot] ∧ segment ≠ [A.dot, A.dot] ∧ A.slash ∉ segment)
    ⟨fun h => ⟨h.1, h.2.1, h.2.2.1, h.2.2.2⟩,
      fun h => ⟨h.nonempty, h.not_single, h.not_double, h.no_slash⟩⟩

/-- The names that an absolute path leads through. -/
def names (path : List α) : List (List α) := ((split A path).foldl (place A true) []).reverse

/-- The absolute path through some names. -/
def absolute (segments : List (List α)) : List α := A.slash :: join A segments

section
variable {A} {text path : List α} {segment : List α} {segments segments' placed : List (List α)}

theorem split_ne_nil : split A text ≠ [] := by
  cases text with
  | nil => exact List.cons_ne_nil _ _
  | cons c text =>
    rw [split]
    split
    · exact List.cons_ne_nil _ _
    · split
      · exact List.cons_ne_nil _ _
      · exact List.cons_ne_nil _ _

theorem split_of_no_slash (h : A.slash ∉ text) : split A text = [text] := by
  induction text with
  | nil => rfl
  | cons c text ih =>
    rw [List.mem_cons, not_or] at h
    rw [split, if_neg (Ne.symm h.1), ih h.2]

theorem split_append_slash : split A (text ++ A.slash :: path) = split A text ++ split A path := by
  induction text with
  | nil => simp [split]
  | cons c text ih =>
    rw [List.cons_append, split, split, ih]
    split
    · rfl
    · cases hsplit : split A text with
      | nil => exact absurd hsplit split_ne_nil
      | cons first rest => rfl

theorem no_slash_of_mem_split (h : segment ∈ split A text) : A.slash ∉ segment := by
  induction text generalizing segment with
  | nil =>
    rw [split, List.mem_singleton] at h
    rw [h]
    exact List.not_mem_nil
  | cons c text ih =>
    rw [split] at h
    split at h
    · obtain rfl | h := List.mem_cons.mp h
      · exact List.not_mem_nil
      · exact ih h
    · next hc =>
      split at h
      · rw [List.mem_singleton] at h
        rw [h, List.mem_singleton]
        exact Ne.symm hc
      · next first rest hsplit =>
        obtain rfl | h := List.mem_cons.mp h
        · rw [List.mem_cons, not_or]
          exact ⟨Ne.symm hc, ih (hsplit ▸ List.mem_cons_self)⟩
        · exact ih (hsplit ▸ List.mem_cons_of_mem _ h)

theorem split_join (h : ∀ segment ∈ segments, IsName A segment) (hne : segments ≠ []) :
    split A (join A segments) = segments := by
  induction segments with
  | nil => exact absurd rfl hne
  | cons first rest ih =>
    have hfirst := split_of_no_slash (h first List.mem_cons_self).no_slash
    cases rest with
    | nil => rw [join, hfirst]
    | cons next rest =>
      rw [join, split_append_slash, hfirst, ih (List.forall_mem_cons.mp h).2 (List.cons_ne_nil _ _)]
      rfl

theorem place_name (rooted : Bool) (h : IsName A segment) :
    place A rooted placed segment = segment :: placed := by
  unfold place
  rw [if_neg (not_or.mpr ⟨h.nonempty, h.not_single⟩), if_neg h.not_double]

theorem foldl_place_names (rooted : Bool) (h : ∀ segment ∈ segments, IsName A segment) :
    segments.foldl (place A rooted) placed = segments.reverse ++ placed := by
  induction segments generalizing placed with
  | nil => rfl
  | cons first rest ih =>
    obtain ⟨hfirst, hrest⟩ := List.forall_mem_cons.mp h
    rw [List.foldl_cons, place_name rooted hfirst, ih hrest, List.reverse_cons, List.append_assoc]
    rfl

/-- From the root no double dot is left over. -/
theorem isName_place (hplaced : ∀ name ∈ placed, IsName A name) (hslash : A.slash ∉ segment) :
    ∀ name ∈ place A true placed segment, IsName A name := by
  unfold place
  split
  next => exact hplaced
  next hskipped =>
    rw [not_or] at hskipped
    split
    next =>
      split
      next => exact fun name h => absurd h List.not_mem_nil
      next last earlier =>
        obtain ⟨hlast, hearlier⟩ := List.forall_mem_cons.mp hplaced
        rw [if_neg hlast.not_double]
        exact hearlier
    next hdouble =>
      exact List.forall_mem_cons.mpr ⟨⟨hskipped.1, hskipped.2, hdouble, hslash⟩, hplaced⟩

theorem isName_foldl (hplaced : ∀ name ∈ placed, IsName A name)
    (h : ∀ segment ∈ segments, A.slash ∉ segment) :
    ∀ name ∈ segments.foldl (place A true) placed, IsName A name := by
  induction segments generalizing placed with
  | nil => exact hplaced
  | cons first rest ih =>
    obtain ⟨hfirst, hrest⟩ := List.forall_mem_cons.mp h
    exact ih (isName_place hplaced hfirst) hrest

theorem isName_names : ∀ name ∈ names A path, IsName A name := by
  intro name h
  refine isName_foldl (fun _ h => absurd h List.not_mem_nil)
    (fun _ h => no_slash_of_mem_split h) name (List.mem_reverse.mp h)

theorem placed_join (rooted : Bool) (h : ∀ segment ∈ segments, IsName A segment) :
    (split A (join A segments)).foldl (place A rooted) placed = segments.reverse ++ placed := by
  by_cases hne : segments = []
  · subst hne
    simp [join, split, place]
  · rw [split_join h hne, foldl_place_names rooted h]

theorem names_join (h : ∀ segment ∈ segments, IsName A segment) :
    names A (join A segments) = segments := by
  rw [names, placed_join true h, List.append_nil, List.reverse_reverse]

theorem names_join_append (h : ∀ segment ∈ segments, IsName A segment)
    (h' : ∀ segment ∈ segments', IsName A segment) :
    names A (join A segments ++ A.slash :: join A segments') = segments ++ segments' := by
  rw [names, split_append_slash, List.foldl_append, placed_join true h, placed_join true h']
  simp

theorem clean_slash : clean A (A.slash :: path) = absolute A (names A path) := by
  simp [clean, split, place, absolute, names]

/-- A path below an absolute directory leads through the names of the directory first. -/
theorem below_absolute (h : ∀ segment ∈ segments, IsName A segment)
    (h' : ∀ segment ∈ segments', IsName A segment) :
    below A (absolute A segments) (join A segments') = absolute A (segments ++ segments') := by
  unfold below
  rw [absolute, List.cons_append, clean_slash, names_join_append h h']

omit [DecidableEq α] in
theorem absolute_append (hne : segments ≠ []) (hne' : segments' ≠ []) :
    absolute A (segments ++ segments') = absolute A segments ++ A.slash :: join A segments' := by
  suffices hjoin : join A (segments ++ segments') =
      join A segments ++ A.slash :: join A segments' by
    rw [absolute, hjoin]
    rfl
  induction segments with
  | nil => exact absurd rfl hne
  | cons first rest ih =>
    cases rest with
    | nil =>
      cases segments' with
      | nil => exact absurd rfl hne'
      | cons next rest => rfl
    | cons next rest =>
      have hrest := ih (List.cons_ne_nil _ _)
      rw [List.cons_append] at hrest
      simp only [List.cons_append, join, hrest, List.append_assoc]

omit [DecidableEq α] in
/-- A path through names starts with a character of the first. -/
theorem join_head (h : ∀ segment ∈ segments, IsName A segment) (hne : segments ≠ []) :
    ∃ c rest, join A segments = c :: rest ∧ c ≠ A.slash := by
  cases segments with
  | nil => exact absurd rfl hne
  | cons first rest =>
    have hfirst := h first List.mem_cons_self
    cases first with
    | nil => exact absurd rfl hfirst.nonempty
    | cons c text =>
      have hc : c ≠ A.slash := by
        intro hslash
        exact hfirst.no_slash (hslash ▸ List.mem_cons_self)
      cases rest with
      | nil => exact ⟨c, text, rfl, hc⟩
      | cons next rest => exact ⟨c, _, rfl, hc⟩

theorem join_injective (h : ∀ segment ∈ segments, IsName A segment)
    (h' : ∀ segment ∈ segments', IsName A segment) (hjoin : join A segments = join A segments') :
    segments = segments' := by
  rw [← names_join h, hjoin, names_join h']

end

end Pomodorough.Library.LexicalPaths
