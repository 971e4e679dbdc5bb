import Pomodorough.Library.UrlResolution
import Pomodorough.Library.Utf8

/-! # Return paths

`safeReturnPath` takes the text that a sign-in is to return to, checks the path that
it decodes to, and returns the path as it was written. -/
namespace Pomodorough.Server.ReturnPaths
open Pomodorough.Library
open Pomodorough.Library.PercentEncoding
open Pomodorough.Library.UrlReferences
open Pomodorough.Library.UrlResolution

/-- The reference is relative, and its path is absolute. -/
def Accepted (parsed : Url) : Prop :=
  parsed.scheme = [] ∧ parsed.host = [] ∧ parsed.path.take 1 = [slash] ∧
    parsed.path.take 2 ≠ [slash, slash] ∧ backslash ∉ parsed.path

instance (parsed : Url) : Decidable (Accepted parsed) := inferInstanceAs (Decidable (_ ∧ _))

/-- The URL that a value is parsed to, where it is accepted. -/
def acceptedUrl (value : Bytes) : Option Url :=
  if value = [] ∨ value.length > 1024 then none else (parse value).filter fun parsed => Accepted parsed

/-- `safeReturnPath`. -/
def safeReturnPath (value : Bytes) : Bytes :=
  match acceptedUrl value with
  | none => [slash]
  | some parsed => parsed.requestURI

/-- The path that a value asks for, which is the root where it is not accepted. -/
def intendedPath (value : Bytes) : Bytes :=
  match acceptedUrl value with
  | none => [slash]
  | some parsed => parsed.path

/-- What a returned text may be: an absolute path of this origin, which a browser
cannot take for an authority. -/
structure IsSafe (value result : Bytes) : Prop where
  starts : ∃ rest, result = slash :: rest ∧ rest.head? ≠ some slash ∧ rest.head? ≠ some backslash
  clean : ∀ b ∈ (cut question result).1, isControl b = false ∧ b ≠ backslash
  intended : unescape plusSign (cut question result).1 = some (intendedPath value)
  lands : ∀ base : Location, ∃ search,
    resolve base result = some ⟨absolute ((cut question result).1.drop 1), search⟩

/-! ## What is returned for an accepted value -/

section
variable {u p value rest : Bytes} {url before : Url} {b : UInt8} {base : Location}

theorem isEncoded_plain (h : isEncoded b = true) :
    isControl b = false ∧ b ≠ backslash ∧ 33 ≤ b ∧ b ≠ question ∧ b ≠ numberSign := by
  have hall : ∀ n < 256, isEncoded (UInt8.ofNat n) = true → isControl (UInt8.ofNat n) = false ∧
      UInt8.ofNat n ≠ backslash ∧ 33 ≤ UInt8.ofNat n ∧ UInt8.ofNat n ≠ question ∧
        UInt8.ofNat n ≠ numberSign := by decide +kernel
  rw [← @UInt8.ofNat_toNat b] at h ⊢
  exact hall _ b.toNat_lt h

theorem acceptedUrl_iff : acceptedUrl value = some url ↔
    value ≠ [] ∧ value.length ≤ 1024 ∧ parseReference (cut numberSign value).1 = some url ∧
      (unescape plusSign ((cut numberSign value).2.getD [])).isSome = true ∧ Accepted url := by
  unfold acceptedUrl parse
  constructor
  · intro h
    split at h
    next => cases h
    next hlength =>
      rw [not_or, Nat.not_lt] at hlength
      obtain ⟨hparse, haccepted⟩ := Option.filter_eq_some_iff.mp h
      simp only at hparse
      split at hparse
      next => cases hparse
      next parsed hreference =>
        split at hparse
        next hfragment =>
          cases hparse
          exact ⟨hlength.1, hlength.2, hreference, hfragment, of_decide_eq_true haccepted⟩
        next => cases hparse
  · intro h
    obtain ⟨hne, hlength, hreference, hfragment, haccepted⟩ := h
    rw [if_neg (by simp [hne, Nat.not_lt.mpr hlength])]
    simp [hreference, hfragment, haccepted]

/-- The query that is written behind the path. -/
def writtenQuery (url : Url) : Bytes :=
  if url.forceQuery || url.rawQuery ≠ [] then question :: url.rawQuery else []

theorem requestURI_eq (hrootless : url.rootless = []) (hpath : url.escapedPath ≠ []) :
    url.requestURI = url.escapedPath ++ writtenQuery url := by
  unfold Url.requestURI writtenQuery
  simp only [hrootless, if_true, hpath, if_false]
  split
  · rfl
  · rw [List.append_nil]

theorem cut_writtenQuery (h : question ∉ p) : (cut question (p ++ writtenQuery url)).1 = p := by
  unfold writtenQuery
  split
  · rw [cut_eq h]
  · rw [List.append_nil, cut_of_notMem h]

theorem head?_writtenQuery (h : rest.head? ≠ some b) (hb : b ≠ question) :
    (rest ++ writtenQuery url).head? ≠ some b := by
  cases rest with
  | cons first rest => exact h
  | nil =>
    unfold writtenQuery
    split
    · intro heq
      exact hb (Option.some.inj heq).symm
    · exact h

/-- A path in a valid encoding, with one slash first, is safe. -/
theorem isSafe_encoded (haccepted : acceptedUrl value = some url) (hrootless : url.rootless = [])
    (hquery : ∀ b ∈ url.rawQuery, isTabOrNewline b = false ∧ b ≠ numberSign)
    (hpath : url.escapedPath = slash :: rest) (hencoded : ∀ b ∈ url.escapedPath, isEncoded b = true)
    (hdecoded : unescape plusSign url.escapedPath = some url.path) (hslash : rest.head? ≠ some slash) :
    IsSafe value (safeReturnPath value) := by
  have hplain := fun b hb => isEncoded_plain (hencoded b hb)
  have hquestion : question ∉ url.escapedPath := fun hmem => (hplain _ hmem).2.2.2.1 rfl
  have hreturn : safeReturnPath value = url.escapedPath ++ writtenQuery url := by
    unfold safeReturnPath
    rw [haccepted]
    exact requestURI_eq hrootless (by rw [hpath]; simp)
  have hcut : (cut question (safeReturnPath value)).1 = url.escapedPath := by
    rw [hreturn, cut_writtenQuery hquestion]
  have hbackslash : rest.head? ≠ some backslash := by
    intro hhead
    have hmem : backslash ∈ url.escapedPath := by
      rw [hpath]
      exact List.mem_cons_of_mem _ (List.mem_of_head? hhead)
    exact (hplain _ hmem).2.1 rfl
  have hhead : rest.head?.any isSeparator = false := by
    cases hrest : rest.head? with
    | none => rfl
    | some first =>
      rw [hrest] at hslash hbackslash
      simp only [ne_eq, Option.some_inj] at hslash hbackslash
      simp [isSeparator, hslash, hbackslash]
  have hbytes : ∀ b ∈ url.escapedPath, 33 ≤ b ∧ b ≠ question ∧ b ≠ numberSign :=
    fun b hb => (hplain b hb).2.2
  constructor
  · exact ⟨rest ++ writtenQuery url, by rw [hreturn, hpath, List.cons_append],
      head?_writtenQuery hslash (by decide), head?_writtenQuery hbackslash (by decide)⟩
  · rw [hcut]
    exact fun b hb => ⟨(hplain b hb).1, (hplain b hb).2.1⟩
  · rw [hcut, hdecoded]
    unfold intendedPath
    rw [haccepted]
  · intro base
    rw [hcut, hreturn]
    have hdrop : url.escapedPath.drop 1 = rest := by
      rw [hpath]
      rfl
    rw [hdrop]
    unfold writtenQuery
    split
    · exact ⟨_, resolve_query hbytes ⟨hpath, hhead⟩ hquery⟩
    · rw [List.append_nil]
      exact ⟨_, resolve_path hbytes ⟨hpath, hhead⟩⟩

theorem isSafe_root : IsSafe value [slash] ↔ intendedPath value = [slash] := by
  constructor
  · intro h
    have hintended := h.intended
    exact (Option.some.inj hintended).symm
  · intro h
    constructor
    · exact ⟨[], rfl, by simp, by simp⟩
    · simp [cut, isControl, slash, question, backslash]
    · rw [h]
      rfl
    · intro base
      exact ⟨[], rfl⟩

/-! ## Where the returned text is safe -/

/-- The path is written with its first slash escaped and every other byte in a valid
encoding, in a value that is accepted otherwise. -/
def StartsEncoded (value : Bytes) : Prop :=
  let u := (cut numberSign value).1
  let p := (cut question u).1
  value.length ≤ 1024 ∧ u.any isControl = false ∧
    (unescape plusSign ((cut numberSign value).2.getD [])).isSome = true ∧
      (p.take 3 = [percent, 50, 70] ∨ p.take 3 = [percent, 50, 102]) ∧ p.all isEncoded = true ∧
        colon ∉ p.takeWhile (· ≠ slash) ∧ ∃ rest, unescape plusSign p = some (slash :: rest) ∧
          rest.head? ≠ some slash ∧ backslash ∉ rest

theorem accepted_path (h : Accepted url) : ∃ rest, url.path = slash :: rest ∧
    rest.head? ≠ some slash ∧ backslash ∉ rest := by
  obtain ⟨-, -, hfirst, hsecond, hbackslash⟩ := h
  cases hpath : url.path with
  | nil =>
    rw [hpath] at hfirst
    cases hfirst
  | cons first rest =>
    rw [hpath] at hfirst hsecond hbackslash
    obtain rfl : first = slash := (List.cons.inj hfirst).1
    refine ⟨rest, rfl, ?_, fun hmem => hbackslash (List.mem_cons_of_mem _ hmem)⟩
    intro hhead
    cases rest with
    | nil => cases hhead
    | cons second rest =>
      rw [List.head?_cons, Option.some_inj] at hhead
      rw [hhead] at hsecond
      exact hsecond rfl

theorem hexValue_slash {high low : UInt8} (hhigh : isHex high = true) (hlow : isHex low = true)
    (h : UInt8.ofNat (hexValue high * 16 + hexValue low) = slash) :
    high = 50 ∧ (low = 70 ∨ low = 102) := by
  have htwo : ∀ n < 256, isHex (UInt8.ofNat n) = true → hexValue (UInt8.ofNat n) = 2 →
      UInt8.ofNat n = 50 := by decide +kernel
  have hfifteen : ∀ n < 256, isHex (UInt8.ofNat n) = true → hexValue (UInt8.ofNat n) = 15 →
      UInt8.ofNat n = 70 ∨ UInt8.ofNat n = 102 := by decide +kernel
  have hhighlt := hexValue_lt hhigh
  have hlowlt := hexValue_lt hlow
  have hvalue := congrArg UInt8.toNat h
  rw [UInt8.toNat_ofNat', show slash.toNat = 47 from rfl] at hvalue
  rw [← @UInt8.ofNat_toNat high] at hhigh hvalue hhighlt ⊢
  rw [← @UInt8.ofNat_toNat low] at hlow hvalue hlowlt ⊢
  exact ⟨htwo _ high.toNat_lt hhigh (by omega), hfifteen _ low.toNat_lt hlow (by omega)⟩

theorem not_tab (h : isControl b = false) : isTabOrNewline b = false := by
  rw [Bool.eq_false_iff]
  intro htab
  simp only [isTabOrNewline, Bool.or_eq_true, decide_eq_true_eq] at htab
  obtain (rfl | rfl) | rfl := htab
  · exact absurd h (by decide)
  · exact absurd h (by decide)
  · exact absurd h (by decide)

/-- A text that decodes to a path with one slash first has one slash first. -/
theorem head?_of_unescape (h : unescape plusSign p = some rest) (hslash : rest.head? ≠ some slash) :
    p.head? ≠ some slash := by
  intro hhead
  cases p with
  | nil => cases hhead
  | cons first tail =>
    obtain rfl : first = slash := Option.some.inj hhead
    rw [unescape_cons (by decide)] at h
    obtain ⟨decoded, -, rfl⟩ := Option.map_eq_some_iff.mp h
    exact hslash rfl

theorem head?_of_escape (hslash : rest.head? ≠ some slash) :
    (escape keepsInPath rest).head? ≠ some slash := by
  cases rest with
  | nil => exact hslash
  | cons first tail =>
    rw [escape_cons]
    split
    · exact hslash
    · intro heq
      exact absurd (Option.some.inj heq) (by decide)

/-- What an accepted value is returned as, where its first slash is not escaped. -/
theorem isSafe_of_accepted (h : acceptedUrl value = some url) (hstart : ¬ StartsEncoded value) :
    IsSafe value (safeReturnPath value) := by
  obtain ⟨-, hlength, hreference, hfragment, haccepted⟩ := acceptedUrl_iff.mp h
  obtain ⟨rest, hpath, hslash, hbackslash⟩ := accepted_path haccepted
  have hstar : url.path ≠ [42] := by
    rw [hpath]
    intro heq
    exact absurd (List.cons.inj heq).1 (by decide)
  obtain ⟨hcontrol, hrootless, hquery, p, ⟨before, hset⟩, hp⟩ :=
    parseReference_path hreference haccepted.1 haccepted.2.1 hstar
  have hescaped := escapedPath_setPath hset hstar
  have hdecoded := (setPath_some hset).1
  have hplain : ∀ b ∈ url.rawQuery, isTabOrNewline b = false ∧ b ≠ numberSign := by
    intro b hb
    have hmem := hquery b hb
    refine ⟨not_tab (by simpa using List.any_eq_false.mp hcontrol b hmem), ?_⟩
    intro heq
    have hkept := List.mem_takeWhile_imp hmem
    simp [heq] at hkept
  by_cases hall : p.all isEncoded = true
  · rw [if_pos hall] at hescaped
    rw [hpath] at hdecoded
    have hencoded := List.all_eq_true.mp hall
    obtain ⟨tail, rfl, htail⟩ | ⟨high, low, tail, rfl, hhigh, hlow, hvalue, htail⟩ :=
      unescape_head hdecoded (by decide)
    · refine isSafe_encoded h hrootless hplain hescaped ?_ ?_ (head?_of_unescape htail hslash)
      · rwa [hescaped]
      · rw [hescaped, hdecoded, hpath]
    · obtain ⟨rfl, hlow⟩ := hexValue_slash hhigh hlow hvalue
      obtain hhead | hnil | ⟨hcut, hcolon⟩ := hp
      · exact absurd (Option.some.inj hhead) (by decide)
      · cases hnil
      · refine absurd ?_ hstart
        unfold StartsEncoded
        simp only
        rw [← hcut]
        refine ⟨hlength, hcontrol, hfragment, ?_, hall, hcolon, rest, hdecoded, hslash, hbackslash⟩
        obtain rfl | rfl := hlow
        · exact Or.inl rfl
        · exact Or.inr rfl
  · rw [if_neg hall, hpath, escape_cons, if_pos (by decide), List.singleton_append] at hescaped
    have hwritten : url.escapedPath = escape keepsInPath url.path := by
      rw [hescaped, hpath, escape_cons, if_pos (by decide), List.singleton_append]
    refine isSafe_encoded h hrootless hplain hescaped ?_ ?_ (head?_of_escape hslash)
    · rw [hwritten]
      exact isEncoded_escape
    · rw [hwritten, unescape_escape_path]

theorem startsEncoded_returns (h : StartsEncoded value) :
    (safeReturnPath value).head? = some percent := by
  obtain ⟨hlength, hcontrol, hfragment, hstart, hall, hcolon, rest, hdecoded, hslash, hbackslash⟩ := h
  obtain ⟨second, tail, hp⟩ : ∃ second tail, (cut question (cut numberSign value).1).1 =
      percent :: second :: tail := by
    generalize (cut question (cut numberSign value).1).1 = p at hstart
    match p with
    | [] => simp at hstart
    | [first] => simp at hstart
    | first :: second :: tail =>
      have hfirst : first = percent := by
        obtain hstart | hstart := hstart
        · exact (List.cons.inj hstart).1
        · exact (List.cons.inj hstart).1
      exact ⟨second, tail, by rw [hfirst]⟩
  obtain ⟨after, hu⟩ : ∃ after, (cut numberSign value).1 = percent :: second :: (tail ++ after) := by
    obtain ⟨after, hafter⟩ := List.takeWhile_prefix
      (fun b => decide (b ≠ question)) (l := (cut numberSign value).1)
    have hcut : (cut numberSign value).1.takeWhile (fun b => decide (b ≠ question)) =
        percent :: second :: tail := hp
    rw [hcut] at hafter
    exact ⟨after, hafter.symm⟩
  have hvalue : value ≠ [] := by
    rintro rfl
    cases hu
  rw [← cutQuery_fst] at hp hall hcolon hdecoded
  have hreference := parseReference_plain hu hcontrol (by decide)
    (by rw [hp]; intro heq; exact absurd (List.cons.inj heq).1 (by decide)) (Or.inr hcolon)
  obtain ⟨url, hset, hscheme, hhost, hrootless, hpath, -, -, hescaped⟩ :=
    setPath_written hdecoded (fun heq => absurd (List.cons.inj heq).1 (by decide))
  rw [hset] at hreference
  rw [if_pos hall] at hescaped
  have haccepted : Accepted url := by
    refine ⟨hscheme, hhost, by rw [hpath]; rfl, ?_, ?_⟩
    · rw [hpath]
      intro htake
      cases rest with
      | nil => cases htake
      | cons first rest => exact hslash (congrArg some (List.cons.inj (List.cons.inj htake).2).1)
    · rw [hpath, List.mem_cons, not_or]
      exact ⟨by decide, hbackslash⟩
  have hurl := acceptedUrl_iff.mpr ⟨hvalue, hlength, hreference, hfragment, haccepted⟩
  have hne : url.escapedPath ≠ [] := by
    rw [hescaped, hp]
    simp
  unfold safeReturnPath
  rw [hurl]
  simp only
  rw [requestURI_eq hrootless hne, hescaped, hp]
  rfl

/-- The returned text is safe exactly where the path does not start with an escaped
slash that is returned as it was written. -/
theorem return_path_safe_iff (value : Bytes) :
    IsSafe value (safeReturnPath value) ↔ ¬ StartsEncoded value := by
  constructor
  · intro hsafe hstart
    obtain ⟨rest, hresult, -⟩ := hsafe.starts
    have hpercent := startsEncoded_returns hstart
    rw [hresult] at hpercent
    exact absurd (Option.some.inj hpercent) (by decide)
  · intro hstart
    cases haccepted : acceptedUrl value with
    | some url => exact isSafe_of_accepted haccepted hstart
    | none =>
      have hroot : safeReturnPath value = [slash] := by
        unfold safeReturnPath
        rw [haccepted]
      rw [hroot, isSafe_root]
      unfold intendedPath
      rw [haccepted]

end

/-- An escaped first slash makes the returned text a relative reference. -/
theorem return_path_escaped_slash : ¬ ∀ value : Bytes, IsSafe value (safeReturnPath value) := by
  intro h
  obtain ⟨rest, hresult, -⟩ := (h (Utf8.encode "%2Fapp".toList)).starts
  have hreturned : safeReturnPath (Utf8.encode "%2Fapp".toList) = Utf8.encode "%2Fapp".toList := by
    decide +kernel
  rw [hreturned] at hresult
  exact absurd (List.cons.inj hresult).1 (by decide)

/-- The fragment is dropped and the query stays. -/
example : safeReturnPath (Utf8.encode "/timer?view=today#ignored".toList) =
    Utf8.encode "/timer?view=today".toList := by decide +kernel

end Pomodorough.Server.ReturnPaths
