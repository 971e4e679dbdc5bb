import Mathlib.Data.List.TakeWhile
import Pomodorough.Library.PercentEncoding

/-! # URL references

`net/url`: how a reference is parsed into its parts, and how the parts are written
again. The path is kept decoded, beside the path as it was written where that is not
its usual encoding. -/
namespace Pomodorough.Library.UrlReferences
open Pomodorough.Library.PercentEncoding

abbrev numberSign : UInt8 := 35

abbrev slash : UInt8 := 47

abbrev colon : UInt8 := 58

abbrev question : UInt8 := 63

abbrev atSign : UInt8 := 64

abbrev backslash : UInt8 := 92

/-! ## Bytes -/

/-- `stringContainsCTLByte`, of one byte. -/
def isControl (b : UInt8) : Bool := b < 32 || b = 127

/-- A byte that `escape` leaves in a path: unreserved, or one of `$&+,/:;=@`. -/
def keepsInPath (b : UInt8) : Bool :=
  isAlphanumeric b || [45, 95, 46, 126, 36, 38, 43, 44, 47, 58, 59, 61, 64].contains b

/-- A byte of `validEncoded`: one that is kept, a percent sign, or one of `!'()*[]`. -/
def isEncoded (b : UInt8) : Bool := keepsInPath b || [37, 33, 39, 40, 41, 42, 91, 93].contains b

/-- A byte of `validUserinfo`: alphanumeric, or one of `-._:~!$&'()*+,;=%@`. -/
def isUserinfo (b : UInt8) : Bool :=
  isAlphanumeric b ||
    [45, 46, 95, 58, 126, 33, 36, 38, 39, 40, 41, 42, 43, 44, 59, 61, 37, 64].contains b

/-- A byte of a scheme, which starts with a letter. -/
def isSchemeByte (b : UInt8) : Bool := isAlphanumeric b || [43, 45, 46].contains b

/-! ## Parsing -/

/-- `strings.Cut`: what stands before the first separator, and after it. -/
def cut (separator : UInt8) (text : Bytes) : Bytes × Option Bytes :=
  (text.takeWhile (· ≠ separator),
    match text.dropWhile (· ≠ separator) with
    | [] => none
    | _ :: after => some after)

/-- The parts of a URL. The rootless part is that of a scheme that no slash follows. -/
structure Url where
  scheme : Bytes
  rootless : Bytes
  host : Bytes
  path : Bytes
  rawPath : Bytes
  rawQuery : Bytes
  forceQuery : Bool
deriving DecidableEq, Repr

/-- The scheme in lower case and what follows it; an empty scheme where there is none. -/
def getScheme (rawURL : Bytes) : Option (Bytes × Bytes) :=
  let scheme := rawURL.takeWhile isSchemeByte
  match rawURL.drop scheme.length with
  | [] => some ([], rawURL)
  | b :: rest =>
    if b = colon then
      match scheme with
      | [] => none
      | first :: _ =>
        if 65 ≤ first then
          some (scheme.map fun b => if 65 ≤ b ∧ b ≤ 90 then b + 32 else b, rest)
        else some ([], rawURL)
    else some ([], rawURL)

/-- The path, the query, and whether the text ends with the mark of an empty query. -/
def cutQuery (rest : Bytes) : Bytes × Bytes × Bool :=
  match cut question rest with
  | (path, none) => (path, [], false)
  | (path, some query) => (path, query, query = [])

/-- The host of an authority, where the user before it is well-formed. The host stands
as it is written; `net/url` decodes or refuses one that is not empty. -/
def parseAuthority (authority : Bytes) : Option Bytes :=
  let host := (authority.reverse.takeWhile (· ≠ atSign)).reverse
  if host.length = authority.length then some host
  else
    let userinfo := authority.take (authority.length - host.length - 1)
    if userinfo.all isUserinfo && (unescape plusSign userinfo).isSome then some host else none

/-- `setPath`. -/
def Url.setPath (url : Url) (p : Bytes) : Option Url :=
  (unescape plusSign p).map fun path =>
    { url with path := path, rawPath := if escape keepsInPath path = p then [] else p }

/-- `parse`, which has cut off the fragment. -/
def parseReference (rawURL : Bytes) : Option Url :=
  if rawURL.any isControl then none
  else if rawURL = [42] then some ⟨[], [], [], rawURL, [], [], false⟩
  else
    match getScheme rawURL with
    | none => none
    | some (scheme, rest) =>
      let (rest, rawQuery, forceQuery) := cutQuery rest
      let url : Url := ⟨scheme, [], [], [], [], rawQuery, forceQuery⟩
      if rest.head? ≠ some slash ∧ scheme ≠ [] then some { url with rootless := rest }
      else if rest.head? ≠ some slash ∧ colon ∈ rest.takeWhile (· ≠ slash) then none
      else if (scheme ≠ [] ∨ rest.take 3 ≠ [slash, slash, slash]) ∧ rest.take 2 = [slash, slash] then
        match parseAuthority ((rest.drop 2).takeWhile (· ≠ slash)) with
        | none => none
        | some host => { url with host := host }.setPath ((rest.drop 2).dropWhile (· ≠ slash))
      else url.setPath rest

/-- `Parse`: the escapes of a fragment must be well-formed too. -/
def parse (rawURL : Bytes) : Option Url :=
  let (u, fragment) := cut numberSign rawURL
  match parseReference u with
  | none => none
  | some url => if (unescape plusSign (fragment.getD [])).isSome then some url else none

/-! ## Writing -/

/-- `EscapedPath`: the path as it was written, where that is a valid encoding. -/
def Url.escapedPath (url : Url) : Bytes :=
  if url.rawPath ≠ [] ∧ url.rawPath.all isEncoded ∧ unescape plusSign url.rawPath = some url.path then
    url.rawPath
  else if url.path = [42] then url.path
  else escape keepsInPath url.path

/-- `RequestURI`. -/
def Url.requestURI (url : Url) : Bytes :=
  let result :=
    if url.rootless = [] then (if url.escapedPath = [] then [slash] else url.escapedPath)
    else if url.rootless.take 2 = [slash, slash] then url.scheme ++ colon :: url.rootless
    else url.rootless
  if url.forceQuery || url.rawQuery ≠ [] then result ++ question :: url.rawQuery else result

/-! ## What is parsed -/

section
variable {url : Url} {p path text rest u : Bytes} {b separator : UInt8}

theorem cut_eq (h : separator ∉ p) : cut separator (p ++ separator :: rest) = (p, some rest) := by
  have hkeep : ∀ b ∈ p, decide (b ≠ separator) = true := by
    intro b hb
    exact decide_eq_true fun heq => h (heq ▸ hb)
  unfold cut
  rw [List.takeWhile_append_of_pos hkeep, List.dropWhile_append_of_pos hkeep]
  simp

theorem cut_of_notMem (h : separator ∉ p) : cut separator p = (p, none) := by
  have hkeep : ∀ b ∈ p, decide (b ≠ separator) = true := by
    intro b hb
    exact decide_eq_true fun heq => h (heq ▸ hb)
  unfold cut
  rw [List.takeWhile_eq_self_iff.mpr hkeep, List.dropWhile_eq_nil_iff.mpr hkeep]

theorem isEncoded_of_keepsInPath (h : keepsInPath b = true) : isEncoded b = true := by
  unfold isEncoded
  rw [h, Bool.true_or]

theorem keepsInPath_upperHex : ∀ n < 16, keepsInPath (upperHex n) = true := by decide

/-- The encoding of a path is a valid one. -/
theorem isEncoded_escape : ∀ b ∈ escape keepsInPath path, isEncoded b = true := by
  apply mem_escape
  · intro b _
    exact isEncoded_of_keepsInPath
  · decide
  · intro n hn
    exact isEncoded_of_keepsInPath (keepsInPath_upperHex n hn)

theorem unescape_escape_path : unescape plusSign (escape keepsInPath path) = some path := by
  apply unescape_escape
  intro b hb
  refine ⟨?_, fun _ => rfl⟩
  rintro rfl
  exact absurd hb (by decide)

theorem setPath_some {url' : Url} (h : url.setPath p = some url') :
    unescape plusSign p = some url'.path ∧ url' = { url with
      path := url'.path, rawPath := if escape keepsInPath url'.path = p then [] else p } := by
  obtain ⟨path, hpath, rfl⟩ := Option.map_eq_some_iff.mp h
  exact ⟨hpath, rfl⟩

/-- A path is written as it was where that is a valid encoding, and encoded elsewhere. -/
theorem escapedPath_setPath {url' : Url} (h : url.setPath p = some url') (hstar : url'.path ≠ [42]) :
    url'.escapedPath = if p.all isEncoded then p else escape keepsInPath url'.path := by
  obtain ⟨hpath, hurl⟩ := setPath_some h
  have hraw : url'.rawPath = if escape keepsInPath url'.path = p then [] else p := by
    rw [hurl]
  unfold Url.escapedPath
  rw [if_neg hstar, hraw]
  by_cases hescape : escape keepsInPath url'.path = p
  · have hall : p.all isEncoded = true := by
      rw [List.all_eq_true, ← hescape]
      exact isEncoded_escape
    simp [hescape, hall]
  · have hp : p ≠ [] := by
      rintro rfl
      have hnil : url'.path = [] := (Option.some.inj hpath).symm
      rw [hnil] at hescape
      exact hescape rfl
    rw [if_neg hescape]
    by_cases hall : p.all isEncoded = true
    · rw [if_pos ⟨hp, hall, hpath⟩, if_pos hall]
    · rw [if_neg (fun h => hall h.2.1), if_neg hall]

theorem getScheme_nil (h : getScheme u = some ([], rest)) : rest = u := by
  unfold getScheme at h
  simp only at h
  split at h
  next => exact (Prod.mk.inj (Option.some.inj h)).2.symm
  next =>
    split at h
    next =>
      split at h
      next => cases h
      next hletters =>
        split at h
        next =>
          obtain ⟨hnil, -⟩ := Prod.mk.inj (Option.some.inj h)
          rw [hletters] at hnil
          cases hnil
        next => exact (Prod.mk.inj (Option.some.inj h)).2.symm
    next => exact (Prod.mk.inj (Option.some.inj h)).2.symm

theorem mem_of_cut {before after : Bytes} (h : cut separator text = (before, some after)) :
    ∀ b ∈ after, b ∈ text := by
  obtain ⟨-, hafter⟩ := Prod.mk.inj h
  intro b hb
  split at hafter
  next => cases hafter
  next first after' hdrop =>
    obtain rfl := Option.some.inj hafter
    apply (List.dropWhile_suffix fun b => decide (b ≠ separator)).subset
    rw [hdrop]
    exact List.mem_cons_of_mem _ hb

theorem cutQuery_fst : (cutQuery text).1 = (cut question text).1 := by
  unfold cutQuery
  split
  · next hcut => rw [hcut]
  · next hcut => rw [hcut]

theorem mem_of_cutQuery : ∀ b ∈ (cutQuery text).2.1, b ∈ text := by
  unfold cutQuery
  split
  · simp
  · next hcut => exact mem_of_cut hcut

/-- The path of a reference without scheme and host: the text before its query, or
what follows an empty authority. -/
theorem parseReference_path (h : parseReference u = some url) (hscheme : url.scheme = [])
    (hhost : url.host = []) (hstar : url.path ≠ [42]) :
    u.any isControl = false ∧ url.rootless = [] ∧ (∀ b ∈ url.rawQuery, b ∈ u) ∧
      ∃ p, (∃ before : Url, before.setPath p = some url) ∧
        (p.head? = some slash ∨ p = [] ∨
          p = (cut question u).1 ∧ colon ∉ p.takeWhile (· ≠ slash)) := by
  unfold parseReference at h
  split at h
  next => cases h
  next hcontrol =>
    refine ⟨by simpa using hcontrol, ?_⟩
    split at h
    next hu =>
      cases h
      exact absurd hu hstar
    next =>
      split at h
      next => cases h
      next scheme rest hget =>
        have hquery := @mem_of_cutQuery rest
        have hfst := @cutQuery_fst rest
        generalize cutQuery rest = parts at h hquery hfst
        obtain ⟨before, rawQuery, forceQuery⟩ := parts
        simp only at h hquery hfst
        split at h
        next hrootless =>
          cases h
          exact absurd hscheme hrootless.2
        next hrooted =>
          split at h
          next => cases h
          next hcolon =>
            split at h
            next =>
              split at h
              next => cases h
              next host _ =>
                obtain ⟨-, hurl⟩ := setPath_some h
                have hnil : scheme = [] := by
                  rw [← hscheme, hurl]
                rw [hnil] at hget
                obtain rfl := getScheme_nil hget
                refine ⟨by rw [hurl], by rwa [hurl], _, ⟨_, h⟩, ?_⟩
                have htail := List.head?_dropWhile_not (fun b => decide (b ≠ slash)) (before.drop 2)
                cases hrest : (before.drop 2).dropWhile (fun b => decide (b ≠ slash)) with
                | nil => exact Or.inr (Or.inl rfl)
                | cons first tail =>
                  rw [hrest] at htail
                  have hfirst : first = slash := by simpa using htail
                  rw [hfirst]
                  exact Or.inl rfl
            next =>
              obtain ⟨-, hurl⟩ := setPath_some h
              have hnil : scheme = [] := by
                rw [← hscheme, hurl]
              rw [hnil] at hget
              obtain rfl := getScheme_nil hget
              refine ⟨by rw [hurl], by rwa [hurl], _, ⟨_, h⟩, ?_⟩
              by_cases hslash : before.head? = some slash
              · exact Or.inl hslash
              · exact Or.inr (Or.inr ⟨hfst, fun hmem => hcolon ⟨hslash, hmem⟩⟩)

/-- A reference whose first byte starts no scheme, no authority and no query has its
path before the query. -/
theorem parseReference_plain (hu : u = b :: rest) (hcontrol : u.any isControl = false)
    (hb : isSchemeByte b = false ∧ b ≠ colon ∧ b ≠ 42)
    (hauthority : (cutQuery u).1.take 2 ≠ [slash, slash])
    (hcolon : (cutQuery u).1.head? = some slash ∨ colon ∉ (cutQuery u).1.takeWhile (· ≠ slash)) :
    parseReference u =
      Url.setPath ⟨[], [], [], [], [], (cutQuery u).2.1, (cutQuery u).2.2⟩ (cutQuery u).1 := by
  have hscheme : getScheme u = some ([], u) := by
    have hnone : u.takeWhile isSchemeByte = [] := by
      rw [hu, List.takeWhile_cons_of_neg (Bool.eq_false_iff.mp hb.1)]
    unfold getScheme
    simp only [hnone, List.length_nil, List.drop_zero]
    rw [hu]
    simp only
    rw [if_neg hb.2.1]
  have hstar : u ≠ [42] := by
    rw [hu]
    intro heq
    exact hb.2.2 (List.cons.inj heq).1
  have hrooted : ¬ ((cutQuery u).1.head? ≠ some slash ∧ colon ∈ (cutQuery u).1.takeWhile (· ≠ slash)) := by
    intro h
    exact hcolon.elim h.1 fun hnot => hnot h.2
  unfold parseReference
  simp only [hcontrol, Bool.false_eq_true, if_false, hstar, hscheme, ne_eq, not_true_eq_false,
    and_false, hauthority]
  rw [if_neg hrooted]

theorem setPath_written {query : Bytes} {force : Bool} (hpath : unescape plusSign p = some path)
    (hstar : path ≠ [42]) : ∃ url, Url.setPath ⟨[], [], [], [], [], query, force⟩ p = some url ∧
      url.scheme = [] ∧ url.host = [] ∧ url.rootless = [] ∧ url.path = path ∧
        url.rawQuery = query ∧ url.forceQuery = force ∧
          url.escapedPath = if p.all isEncoded then p else escape keepsInPath path := by
  have hset : Url.setPath ⟨[], [], [], [], [], query, force⟩ p =
      some ⟨[], [], [], path, if escape keepsInPath path = p then [] else p, query, force⟩ := by
    rw [Url.setPath, hpath]
    rfl
  exact ⟨_, hset, rfl, rfl, rfl, rfl, rfl, rfl, escapedPath_setPath hset hstar⟩

end

end Pomodorough.Library.UrlReferences
