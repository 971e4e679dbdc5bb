import Pomodorough.Library.Redirects
import Pomodorough.Server.ReturnPaths

/-! # Landing tokens

A pending sign-out sends a token through the sign-in in the return path. The client
builds and splits the path as text, the server decodes and checks it, and the browser
resolves what the server returns. -/
namespace Pomodorough.Web.LandingTokens
open Pomodorough.Library
open Pomodorough.Library.PercentEncoding
open Pomodorough.Library.UrlReferences
open Pomodorough.Library.UrlResolution
open Pomodorough.Library.Redirects
open Pomodorough.Server.ReturnPaths

set_option maxRecDepth 4000

abbrev ampersand : UInt8 := 38

abbrev equalsSign : UInt8 := 61

/-! ## The client -/

def appPath : Bytes := Utf8.encode "/app".toList

/-- `SIGN_IN_LANDING_FIELD`. -/
def signInLandingField : Bytes := Utf8.encode "signin=".toList

def safeLoginReturnPath (value : Bytes) : Bytes :=
  if value = [] ∨ value.length > 1024 then appPath
  else if value.head? ≠ some slash ∨ value.take 2 = [slash, slash] ∨ backslash ∈ value then appPath
  else value

/-- `currentLoginReturnPath`, of a location with a pathname. -/
def currentLoginReturnPath (location : Location) : Bytes :=
  let query :=
    if location.search = [] ∨ location.search.head? = some question then location.search else []
  let value := (cut numberSign (location.pathname ++ query)).1
  safeLoginReturnPath (if value = [] then appPath else value)

/-- What `splitLandingToken` returns. -/
structure SplitPath where
  pathname : Bytes
  fields : List Bytes
  token : Option Bytes
deriving DecidableEq, Repr

def isLandingField (field : Bytes) : Bool := signInLandingField.isPrefixOf field

/-- The last landing field gives the token. -/
def splitLandingToken (returnPath : Bytes) : SplitPath :=
  match cut question returnPath with
  | (pathname, none) => ⟨pathname, [], none⟩
  | (pathname, some query) =>
    let fields := query.splitOn ampersand
    ⟨pathname, fields.filter fun field => !isLandingField field,
      (fields.filter isLandingField).getLast?.map (List.drop signInLandingField.length)⟩

def joinReturnPath (pathname : Bytes) (fields : List Bytes) : Bytes :=
  if fields = [] then pathname else pathname ++ question :: [ampersand].intercalate fields

/-- The return path of `loginStartUrl`, with an empty token where there is none. -/
def loginReturnPath (location : Location) (landingToken : Bytes) : Bytes :=
  let split := splitLandingToken (currentLoginReturnPath location)
  let landing := if landingToken = [] then [] else [signInLandingField ++ landingToken]
  let joined := joinReturnPath split.pathname (split.fields ++ landing)
  if safeLoginReturnPath joined = joined then joined
  else safeLoginReturnPath (joinReturnPath appPath landing)

/-- A byte that `encodeURIComponent` leaves: alphanumeric, or one of `-_.!~*'()`. -/
def keepsComponent (b : UInt8) : Bool :=
  isAlphanumeric b || [45, 95, 46, 33, 126, 42, 39, 40, 41].contains b

def startPath : Bytes := Utf8.encode "/auth/google/start".toList

def returnKey : Bytes := Utf8.encode "return".toList

def loginStartUrl (location : Location) (landingToken : Bytes) : Bytes :=
  startPath ++ question :: (returnKey ++ equalsSign ::
    escape keepsComponent (loginReturnPath location landingToken))

/-! ## The server -/

/-- The pair of a field of a query, where it is well-formed. -/
def queryPair (field : Bytes) : Option (Bytes × Bytes) :=
  if 59 ∈ field ∨ field = [] then none
  else
    let (key, value) := cut equalsSign field
    match unescape 32 key, unescape 32 (value.getD []) with
    | some key, some value => some (key, value)
    | _, _ => none

/-- `Query().Get`. -/
def queryGet (key rawQuery : Bytes) : Bytes :=
  (((rawQuery.splitOn ampersand).filterMap queryPair).find? fun pair => pair.1 = key).elim [] Prod.snd

/-! ## The round trip -/

/-- Where a sign-in from a location lands, when the callback at `callback` redirects to
the return path. -/
def signInLanding (callback location : Location) (landingToken : Bytes) : Option Location :=
  match resolve location (loginStartUrl location landingToken) with
  | none => none
  | some request => resolve callback
      (redirectTarget callback.pathname (safeReturnPath (queryGet returnKey (request.search.drop 1))))

/-- A location at which the app can run: a pathname under `/app`, as a browser shows
it, and a query as a browser shows it. -/
structure IsAppLocation (location : Location) : Prop where
  path : ∃ rest, location.pathname = appPath ++ rest ∧ (rest = [] ∨ rest.head? = some slash)
  shown : absolute (location.pathname.drop 1) = location.pathname
  query : location.search = [] ∨ ∃ query, query ≠ [] ∧ location.search = question :: query ∧
    ∀ b ∈ query, keepsQuery b = true

/-- What `newLandingToken` makes. -/
def IsToken (token : Bytes) : Prop :=
  token.length = 32 ∧ ∀ b ∈ token, isHex b = true

/-- The query fields of a location other than landing fields. -/
def otherFields (location : Location) : List Bytes :=
  (splitLandingToken (location.pathname ++ location.search)).fields

/-- The landing has the token, and the other fields or the fallback. -/
def Survives (callback location : Location) (token : Bytes) : Prop :=
  ∃ landing, signInLanding callback location token = some landing ∧
    (splitLandingToken (currentLoginReturnPath landing)).token = some token ∧
      ((splitLandingToken (currentLoginReturnPath landing)).fields = otherFields location ∨
        (splitLandingToken (currentLoginReturnPath landing)).pathname = appPath ∧
          (splitLandingToken (currentLoginReturnPath landing)).fields = [])

/-! ## The request -/

section
variable {P Q rest path token text : Bytes} {location callback : Location} {b : UInt8}

theorem keepsComponent_plain (h : keepsComponent b = true) : isTabOrNewline b = false ∧ b ≠ numberSign ∧
    isBlank b = false ∧ b ≠ ampersand ∧ b ≠ 59 ∧ b ≠ percent ∧ b ≠ plusSign := by
  have hall : ∀ n < 256, keepsComponent (UInt8.ofNat n) = true →
      isTabOrNewline (UInt8.ofNat n) = false ∧ UInt8.ofNat n ≠ numberSign ∧ isBlank (UInt8.ofNat n) = false ∧
        UInt8.ofNat n ≠ ampersand ∧ UInt8.ofNat n ≠ 59 ∧ UInt8.ofNat n ≠ percent ∧
          UInt8.ofNat n ≠ plusSign := by decide +kernel
  rw [← @UInt8.ofNat_toNat b] at h ⊢
  exact hall _ b.toNat_lt h

theorem component_plain : ∀ b ∈ escape keepsComponent text,
    isTabOrNewline b = false ∧ b ≠ numberSign ∧ isBlank b = false := by
  apply mem_escape
  · intro b _ hb
    obtain ⟨htab, hhash, hblank, -⟩ := keepsComponent_plain hb
    exact ⟨htab, hhash, hblank⟩
  · decide
  · decide

theorem shown_component : escape keepsQuery (escape keepsComponent text) =
    escape (fun b => keepsQuery b && keepsComponent b) text :=
  escape_escape (by decide) (by decide)

/-- The server is given the text that was encoded. -/
theorem queryGet_component : queryGet returnKey (returnKey ++ equalsSign ::
    escape keepsQuery (escape keepsComponent text)) = text := by
  have hplain : ∀ b ∈ escape keepsQuery (escape keepsComponent text), b ≠ ampersand ∧ b ≠ 59 := by
    rw [shown_component]
    apply mem_escape
    · intro b _ hb
      rw [Bool.and_eq_true] at hb
      obtain ⟨-, -, -, hampersand, hsemicolon, -⟩ := keepsComponent_plain hb.2
      exact ⟨hampersand, hsemicolon⟩
    · decide
    · decide
  have hdecoded : unescape 32 (escape keepsQuery (escape keepsComponent text)) = some text := by
    rw [shown_component]
    apply unescape_escape
    intro b hb
    rw [Bool.and_eq_true] at hb
    obtain ⟨-, -, -, -, -, hpercent, hplus⟩ := keepsComponent_plain hb.2
    exact ⟨hpercent, fun heq => absurd heq hplus⟩
  generalize escape keepsQuery (escape keepsComponent text) = shown at hplain hdecoded
  have hkey : ∀ b ∈ returnKey ++ [equalsSign], b ≠ ampersand ∧ b ≠ 59 := by decide
  have hbytes : ∀ b ∈ returnKey ++ equalsSign :: shown, b ≠ ampersand ∧ b ≠ 59 := by
    intro b hb
    rw [show returnKey ++ equalsSign :: shown = (returnKey ++ [equalsSign]) ++ shown by simp] at hb
    exact (List.mem_append.mp hb).elim (hkey b) (hplain b)
  have hone : (returnKey ++ equalsSign :: shown).splitOn ampersand =
      [returnKey ++ equalsSign :: shown] :=
    List.splitOn_eq_singleton fun hmem => (hbytes _ hmem).1 rfl
  have hpair : queryPair (returnKey ++ equalsSign :: shown) = some (returnKey, text) := by
    have hsemicolon : 59 ∉ returnKey ++ equalsSign :: shown := fun hmem => (hbytes _ hmem).2 rfl
    have hcut : cut equalsSign (returnKey ++ equalsSign :: shown) = (returnKey, some shown) :=
      cut_eq (by decide)
    have hreturn : unescape 32 returnKey = some returnKey := by decide
    unfold queryPair
    rw [if_neg (by simp [hsemicolon])]
    simp [hcut, hreturn, hdecoded]
  simp [queryGet, hone, hpair]

/-- The return path that is sent is what the server redirects to. -/
theorem signInLanding_eq : signInLanding callback location token =
    resolve callback (redirectTarget callback.pathname
      (safeReturnPath (loginReturnPath location token))) := by
  have hpath : ∀ b ∈ startPath, 33 ≤ b ∧ b ≠ question ∧ b ≠ numberSign := by decide
  have hkey : ∀ b ∈ returnKey ++ [equalsSign], isTabOrNewline b = false ∧ b ≠ numberSign ∧ isBlank b = false := by
    decide
  have hbytes : ∀ b ∈ returnKey ++ equalsSign :: escape keepsComponent (loginReturnPath location token),
      isTabOrNewline b = false ∧ b ≠ numberSign ∧ isBlank b = false := by
    intro b hb
    rw [← List.singleton_append, ← List.append_assoc] at hb
    exact (List.mem_append.mp hb).elim (hkey b) (component_plain b)
  have hblank : (returnKey ++ equalsSign :: escape keepsComponent (loginReturnPath location token)).rdropWhile
      isBlank = returnKey ++ equalsSign :: escape keepsComponent (loginReturnPath location token) := by
    rw [List.rdropWhile_eq_self_iff]
    intro hne
    rw [(hbytes _ (List.getLast_mem hne)).2.2]
    exact Bool.false_ne_true
  have hrequest := @resolve_query location startPath
    (returnKey ++ equalsSign :: escape keepsComponent (loginReturnPath location token))
    (startPath.drop 1) hpath ⟨rfl, rfl⟩ fun b hb => ⟨(hbytes b hb).1, (hbytes b hb).2.1⟩
  have hshown : escape keepsQuery
      (returnKey ++ equalsSign :: escape keepsComponent (loginReturnPath location token)) =
      returnKey ++ equalsSign ::
        escape keepsQuery (escape keepsComponent (loginReturnPath location token)) := rfl
  unfold signInLanding loginStartUrl
  rw [hrequest, hblank]
  simp only
  rw [show searchOf (some (returnKey ++ equalsSign :: escape keepsComponent
    (loginReturnPath location token))) = question :: escape keepsQuery (returnKey ++ equalsSign ::
      escape keepsComponent (loginReturnPath location token)) from rfl, List.drop_succ_cons,
    List.drop_zero, hshown, queryGet_component]

/-! ## The server's answer -/

/-- What the server and the browser take of a path and a query. -/
structure IsSent (P Q : Bytes) : Prop where
  path : ∃ rest, P = appPath ++ rest ∧ (rest = [] ∨ rest.head? = some slash)
  shown : absolute (P.drop 1) = P
  query : Q ≠ [] ∧ ∀ b ∈ Q, keepsQuery b = true
  length : (P ++ question :: Q).length ≤ 1024

/-- The path that the server redirects to, where it accepts the path it is sent. -/
def acceptedPath (P : Bytes) : Option Bytes :=
  match unescape plusSign P with
  | none => none
  | some decoded =>
    if backslash ∈ decoded then none
    else some (if P.all isEncoded then P else escape keepsInPath decoded)

theorem IsSent.plain (h : IsSent P Q) : ∀ b ∈ P, b ≠ backslash ∧ keepsPath b = true := by
  rw [← h.shown]
  exact absolute_plain

theorem IsSent.cons (h : IsSent P Q) : ∃ rest, P = slash :: 97 :: rest := by
  obtain ⟨rest, rfl, -⟩ := h.path
  exact ⟨112 :: 112 :: rest, rfl⟩

theorem second_letter : (slash :: 97 :: rest).take 2 ≠ [slash, slash] := by
  intro h
  exact absurd (List.cons.inj (List.cons.inj h).2).1 (by decide)

theorem keeps_control (h : keepsPath b = true ∨ keepsQuery b = true) : isControl b = false := by
  have hall : ∀ n < 256, keepsPath (UInt8.ofNat n) = true ∨ keepsQuery (UInt8.ofNat n) = true →
      isControl (UInt8.ofNat n) = false := by decide +kernel
  rw [← @UInt8.ofNat_toNat b] at h ⊢
  exact hall _ b.toNat_lt h

theorem IsSent.safeReturnPath (h : IsSent P Q) : safeReturnPath (P ++ question :: Q) =
    (acceptedPath P).elim [slash] fun path => path ++ question :: Q := by
  obtain ⟨rest, hP⟩ := h.cons
  have hplain := h.plain
  have hquestion : question ∉ P := fun hmem => (keepsPath_plain (hplain _ hmem).2).2.1 rfl
  have hhash : numberSign ∉ P ++ question :: Q := by
    intro hmem
    rcases List.mem_append.mp hmem with hmem | hmem
    · exact (keepsPath_plain (hplain _ hmem).2).2.2 rfl
    · rcases List.mem_cons.mp hmem with heq | hmem
      · exact absurd heq (by decide)
      · exact (keepsQuery_plain (h.query.2 _ hmem)).2.1 rfl
  have hcut : cut numberSign (P ++ question :: Q) = (P ++ question :: Q, none) := cut_of_notMem hhash
  have hcontrol : (P ++ question :: Q).any isControl = false := by
    rw [List.any_eq_false]
    intro b hb
    rw [Bool.not_eq_true]
    rcases List.mem_append.mp hb with hb | hb
    · exact keeps_control (Or.inl (hplain b hb).2)
    · rcases List.mem_cons.mp hb with rfl | hb
      · rfl
      · exact keeps_control (Or.inr (h.query.2 b hb))
  have hquery : cutQuery (P ++ question :: Q) = (P, Q, false) := by
    have hpath : cut question (P ++ question :: Q) = (P, some Q) := cut_eq hquestion
    unfold cutQuery
    rw [hpath]
    simp [h.query.1]
  have hreference := @parseReference_plain (97 :: rest ++ question :: Q) (P ++ question :: Q) slash
    (by rw [hP]; rfl) hcontrol (by decide) (by rw [hquery, hP]; exact second_letter)
    (by rw [hquery, hP]; exact Or.inl rfl)
  rw [hquery] at hreference
  have hvalue : P ++ question :: Q ≠ [] := by
    rw [hP]
    simp
  unfold acceptedPath Server.ReturnPaths.safeReturnPath
  cases hdecoded : unescape plusSign P with
  | none =>
    have hnone : acceptedUrl (P ++ question :: Q) = none := by
      rw [Option.eq_none_iff_forall_ne_some]
      intro url haccepted
      have hparsed := (acceptedUrl_iff.mp haccepted).2.2.1
      rw [hcut, hreference, Url.setPath, hdecoded] at hparsed
      cases hparsed
    rw [hnone]
    rfl
  | some decoded =>
    obtain ⟨tail, rfl⟩ : ∃ tail, decoded = slash :: 97 :: tail := by
      rw [hP, unescape_cons (by decide), unescape_cons (by decide), Option.map_map] at hdecoded
      obtain ⟨tail, -, rfl⟩ := Option.map_eq_some_iff.mp hdecoded
      exact ⟨tail, rfl⟩
    obtain ⟨url, hset, hscheme, hhost, hrootless, hpath, hrawQuery, hforce, hescaped⟩ :=
      @setPath_written P _ Q false hdecoded (by intro heq; exact absurd (List.cons.inj heq).1 (by decide))
    have haccepts : acceptedUrl (P ++ question :: Q) = some url ↔ backslash ∉ slash :: 97 :: tail := by
      rw [acceptedUrl_iff, hcut, hreference, hset]
      constructor
      · intro haccepted
        rw [← hpath]
        exact haccepted.2.2.2.2.2.2.2.2
      · intro hbackslash
        refine ⟨hvalue, h.length, rfl, rfl, hscheme, hhost, ?_, ?_, ?_⟩
        · rw [hpath]
          rfl
        · rw [hpath]
          exact second_letter
        · rwa [hpath]
    simp only
    by_cases hbackslash : backslash ∈ slash :: 97 :: tail
    · rw [if_pos hbackslash]
      cases hother : acceptedUrl (P ++ question :: Q) with
      | none => rfl
      | some other =>
        have hparsed := (acceptedUrl_iff.mp hother).2.2.1
        rw [hcut, hreference, hset] at hparsed
        rw [← Option.some.inj hparsed] at hother
        exact absurd hbackslash (haccepts.mp hother)
    · have hne : url.escapedPath ≠ [] := by
        rw [hescaped]
        split
        · rw [hP]
          simp
        · rw [escape_cons, if_pos (by decide)]
          simp
      have hwritten : writtenQuery url = question :: Q := by
        unfold writtenQuery
        rw [hrawQuery, if_pos (by simp [h.query.1])]
      rw [if_neg hbackslash, haccepts.mpr hbackslash]
      simp only
      rw [requestURI_eq hrootless hne, hescaped, hwritten]
      rfl

/-! ## The landing -/

theorem escape_query (h : IsSent P Q) : searchOf (some Q) = question :: Q := by
  cases hQ : Q with
  | nil => exact absurd hQ h.query.1
  | cons b rest =>
    show question :: escape keepsQuery (b :: rest) = question :: b :: rest
    rw [← hQ, escape_of_keep h.query.2]

/-- An accepted path is in a valid encoding and decodes to what it was sent as. -/
theorem IsSent.accepted (h : IsSent P Q) (haccepted : acceptedPath P = some path) :
    (∃ rest, path = slash :: 97 :: rest) ∧ (∀ b ∈ path, isEncoded b = true) ∧
      (unescape plusSign path).isSome = true := by
  obtain ⟨rest, hP⟩ := h.cons
  unfold acceptedPath at haccepted
  split at haccepted
  next => cases haccepted
  next decoded hdecoded =>
    split at haccepted
    next => cases haccepted
    next =>
      obtain rfl := Option.some.inj haccepted
      by_cases hall : P.all isEncoded = true
      · rw [if_pos hall, hdecoded]
        exact ⟨⟨rest, hP⟩, List.all_eq_true.mp hall, rfl⟩
      · rw [if_neg hall, unescape_escape_path]
        refine ⟨?_, isEncoded_escape, rfl⟩
        rw [hP, unescape_cons (by decide), unescape_cons (by decide), Option.map_map] at hdecoded
        obtain ⟨tail, -, rfl⟩ := Option.map_eq_some_iff.mp hdecoded
        exact ⟨escape keepsInPath tail, rfl⟩

theorem IsSent.redirect {oldpath : Bytes} (h : IsSent P Q) (haccepted : acceptedPath P = some path) :
    redirectTarget oldpath (path ++ question :: Q) = cleanPath path ++ question :: Q := by
  obtain ⟨⟨rest, hpath⟩, hencoded, hdecoded⟩ := h.accepted haccepted
  obtain ⟨decoded, hdecoded⟩ := Option.isSome_iff_exists.mp hdecoded
  have hquestion : question ∉ path := fun hmem => (isEncoded_plain (hencoded _ hmem)).2.2.2.1 rfl
  have hhash : numberSign ∉ path ++ question :: Q := by
    intro hmem
    rcases List.mem_append.mp hmem with hmem | hmem
    · exact (isEncoded_plain (hencoded _ hmem)).2.2.2.2 rfl
    · rcases List.mem_cons.mp hmem with heq | hmem
      · exact absurd heq (by decide)
      · exact (keepsQuery_plain (h.query.2 _ hmem)).2.1 rfl
  have hcontrol : (path ++ question :: Q).any isControl = false := by
    rw [List.any_eq_false]
    intro b hb
    rw [Bool.not_eq_true]
    rcases List.mem_append.mp hb with hb | hb
    · exact (isEncoded_plain (hencoded b hb)).1
    · rcases List.mem_cons.mp hb with rfl | hb
      · rfl
      · exact keeps_control (Or.inr (h.query.2 b hb))
  have hquery : cutQuery (path ++ question :: Q) = (path, Q, false) := by
    have hcut : cut question (path ++ question :: Q) = (path, some Q) := cut_eq hquestion
    unfold cutQuery
    rw [hcut]
    simp [h.query.1]
  have hreference := @parseReference_plain (97 :: rest ++ question :: Q) (path ++ question :: Q) slash
    (by rw [hpath]; rfl) hcontrol (by decide) (by rw [hquery, hpath]; exact second_letter)
    (by rw [hquery, hpath]; exact Or.inl rfl)
  rw [hquery, Url.setPath, hdecoded, Option.map_some] at hreference
  have hhead : (path ++ question :: Q).head? = some slash := by
    rw [hpath]
    rfl
  have hcut : cut question (path ++ question :: Q) = (path, some Q) := cut_eq hquestion
  unfold redirectTarget parse
  simp [cut_of_notMem hhash, hreference, unescape, hhead, hcut]

/-- Where the browser lands: at the root where the server does not accept the path. -/
theorem IsSent.landing {oldpath : Bytes} (h : IsSent P Q) :
    resolve callback (redirectTarget oldpath (Server.ReturnPaths.safeReturnPath (P ++ question :: Q))) =
      some ((acceptedPath P).elim ⟨[slash], []⟩ fun path =>
        ⟨absolute ((cleanPath path).drop 1), question :: Q⟩) := by
  rw [h.safeReturnPath]
  cases haccepted : acceptedPath P with
  | none => rfl
  | some path =>
    obtain ⟨-, hencoded, -⟩ := h.accepted haccepted
    have hplain : ∀ b ∈ path, 33 ≤ b ∧ b ≠ question ∧ b ≠ numberSign ∧ b ≠ backslash := by
      intro b hb
      obtain ⟨-, hbackslash, hlow, hquestion, hhash⟩ := isEncoded_plain (hencoded b hb)
      exact ⟨hlow, hquestion, hhash, hbackslash⟩
    show resolve callback (redirectTarget oldpath (path ++ question :: Q)) = _
    rw [h.redirect haccepted, resolve_cleanPath hplain h.query.2, escape_query h]
    rfl

end

/-! ## What the client sends -/

/-- The query with the token behind the fields. -/
def landingQuery (fields : List Bytes) (token : Bytes) : Bytes :=
  [ampersand].intercalate (fields ++ [signInLandingField ++ token])

/-- The client sends the token with the root of the app instead of the location. -/
def FallsBack (location : Location) (token : Bytes) : Prop :=
  backslash ∈ location.search ∨ (location.pathname ++ location.search).length > 1024 ∨
    (location.pathname ++ question :: landingQuery (otherFields location) token).length > 1024

section
variable {A P Q token value : Bytes} {fields : List Bytes} {location callback : Location} {b : UInt8}

theorem mem_intercalate {parts : List Bytes} : ∀ b ∈ [ampersand].intercalate parts,
    b = ampersand ∨ ∃ part ∈ parts, b ∈ part := by
  induction parts with
  | nil => simp
  | cons part parts ih =>
    cases parts with
    | nil =>
      intro b hb
      rw [List.intercalate_singleton] at hb
      exact Or.inr ⟨part, List.mem_cons_self, hb⟩
    | cons next parts =>
      intro b hb
      rw [List.intercalate_cons_cons] at hb
      rcases List.mem_append.mp hb with hb | hb
      · rcases List.mem_append.mp hb with hb | hb
        · exact Or.inr ⟨part, List.mem_cons_self, hb⟩
        · exact Or.inl (List.mem_singleton.mp hb)
      · obtain heq | ⟨found, hfound, hb⟩ := ih b hb
        · exact Or.inl heq
        · exact Or.inr ⟨found, List.mem_cons_of_mem _ hfound, hb⟩

theorem landingQuery_ne_nil : landingQuery fields token ≠ [] := by
  unfold landingQuery
  cases fields with
  | nil =>
    rw [List.nil_append, List.intercalate_singleton]
    exact List.append_ne_nil_of_left_ne_nil (by decide) _
  | cons field fields =>
    rw [List.cons_append, List.intercalate_cons_of_ne_nil (by simp)]
    simp

theorem joinReturnPath_landing : joinReturnPath A (fields ++ [signInLandingField ++ token]) =
    A ++ question :: landingQuery fields token := by
  unfold joinReturnPath
  rw [if_neg (by simp)]
  rfl

theorem mem_landingQuery {S : UInt8 → Prop} (hampersand : S ampersand)
    (hlanding : ∀ b ∈ signInLandingField, S b) (htoken : ∀ b ∈ token, S b)
    (hfields : ∀ field ∈ fields, ∀ b ∈ field, S b) : ∀ b ∈ landingQuery fields token, S b := by
  intro b hb
  obtain rfl | ⟨part, hpart, hb⟩ := mem_intercalate b hb
  · exact hampersand
  · rcases List.mem_append.mp hpart with hpart | hpart
    · exact hfields part hpart b hb
    · rw [List.mem_singleton.mp hpart] at hb
      exact (List.mem_append.mp hb).elim (hlanding b) (htoken b)

theorem safeLoginReturnPath_eq (hslash : value.head? = some slash)
    (hsecond : value.take 2 ≠ [slash, slash]) (hbackslash : backslash ∉ value) :
    safeLoginReturnPath value = if value.length ≤ 1024 then value else appPath := by
  have hne : value ≠ [] := by
    rintro rfl
    cases hslash
  unfold safeLoginReturnPath
  by_cases hlength : value.length ≤ 1024
  · rw [if_neg (by simp [hne, hlength]), if_neg (by simp [hslash, hsecond, hbackslash]), if_pos hlength]
  · rw [if_pos (Or.inr (Nat.lt_of_not_le hlength)), if_neg hlength]

theorem currentLoginReturnPath_eq (hne : location.pathname ≠ []) (hpath : numberSign ∉ location.pathname)
    (hsearch : location.search = [] ∨ ∃ query, location.search = question :: query ∧ numberSign ∉ query) :
    currentLoginReturnPath location = safeLoginReturnPath (location.pathname ++ location.search) := by
  have hquery : location.search = [] ∨ location.search.head? = some question := by
    obtain hnil | ⟨query, hquery, -⟩ := hsearch
    · exact Or.inl hnil
    · exact Or.inr (by rw [hquery]; rfl)
  have hhash : numberSign ∉ location.pathname ++ location.search := by
    intro hmem
    rcases List.mem_append.mp hmem with hmem | hmem
    · exact hpath hmem
    · obtain hnil | ⟨query, hquery, hhash⟩ := hsearch
      · rw [hnil] at hmem
        cases hmem
      · rw [hquery] at hmem
        rcases List.mem_cons.mp hmem with heq | hmem
        · exact absurd heq (by decide)
        · exact hhash hmem
  unfold currentLoginReturnPath
  simp [hquery, cut_of_notMem hhash, hne]

/-- A path with the token behind other fields is split into them. -/
theorem splitLandingToken_eq (hA : question ∉ A)
    (hfields : ∀ field ∈ fields, ampersand ∉ field ∧ isLandingField field = false)
    (htoken : ampersand ∉ token) :
    splitLandingToken (A ++ question :: landingQuery fields token) = ⟨A, fields, some token⟩ := by
  have hcut : cut question (A ++ question :: landingQuery fields token) =
      (A, some (landingQuery fields token)) := cut_eq hA
  have hlanding : isLandingField (signInLandingField ++ token) = true :=
    List.isPrefixOf_iff_prefix.mpr (List.prefix_append _ _)
  have hnone : ampersand ∉ signInLandingField ++ token := by
    intro hmem
    rcases List.mem_append.mp hmem with hmem | hmem
    · exact absurd hmem (by decide)
    · exact htoken hmem
  have hsplit : (landingQuery fields token).splitOn ampersand =
      fields ++ [signInLandingField ++ token] := by
    apply List.splitOn_intercalate
    · intro field hfield
      rcases List.mem_append.mp hfield with hfield | hfield
      · exact (hfields field hfield).1
      · rwa [List.mem_singleton.mp hfield]
    · simp
  have hkept : fields.filter (fun field => !isLandingField field) = fields := by
    rw [List.filter_eq_self]
    intro field hfield
    rw [(hfields field hfield).2]
    rfl
  have hdropped : fields.filter isLandingField = [] := by
    rw [List.filter_eq_nil_iff]
    intro field hfield
    rw [(hfields field hfield).2]
    exact Bool.false_ne_true
  unfold splitLandingToken
  rw [hcut]
  simp only
  rw [hsplit, List.filter_append, List.filter_append, hkept, hdropped]
  simp [hlanding]

/-- What the client reads of the location it lands on. -/
theorem split_landing (hslash : A.head? = some slash) (hsecond : A.take 2 ≠ [slash, slash])
    (hplain : ∀ b ∈ A, b ≠ backslash ∧ keepsPath b = true)
    (hquery : ∀ b ∈ landingQuery fields token, b ≠ backslash ∧ keepsQuery b = true)
    (hfields : ∀ field ∈ fields, ampersand ∉ field ∧ isLandingField field = false)
    (htoken : ampersand ∉ token) :
    splitLandingToken (currentLoginReturnPath ⟨A, question :: landingQuery fields token⟩) =
      if (A ++ question :: landingQuery fields token).length ≤ 1024 then ⟨A, fields, some token⟩
      else ⟨appPath, [], none⟩ := by
  have hquestion : question ∉ A := fun hmem => (keepsPath_plain (hplain _ hmem).2).2.1 rfl
  have hhash : numberSign ∉ A := fun hmem => (keepsPath_plain (hplain _ hmem).2).2.2 rfl
  have hne : A ≠ [] := by
    rintro rfl
    cases hslash
  obtain ⟨tail, rfl⟩ : ∃ tail, A = slash :: tail := by
    cases A with
    | nil => exact absurd rfl hne
    | cons first tail => exact ⟨tail, by rw [Option.some.inj hslash]⟩
  have hcurrent := @currentLoginReturnPath_eq
    ⟨slash :: tail, question :: landingQuery fields token⟩ hne hhash
    (Or.inr ⟨_, rfl, fun hmem => (keepsQuery_plain (hquery _ hmem).2).2.1 rfl⟩)
  have hbackslash : backslash ∉ slash :: tail ++ question :: landingQuery fields token := by
    intro hmem
    rcases List.mem_append.mp hmem with hmem | hmem
    · exact (hplain _ hmem).1 rfl
    · rcases List.mem_cons.mp hmem with heq | hmem
      · exact absurd heq (by decide)
      · exact (hquery _ hmem).1 rfl
  have htake : (slash :: tail ++ question :: landingQuery fields token).take 2 ≠ [slash, slash] := by
    cases tail with
    | nil =>
      intro heq
      exact absurd (List.cons.inj (List.cons.inj heq).2).1 (by decide)
    | cons second tail => exact hsecond
  rw [hcurrent, safeLoginReturnPath_eq rfl htake hbackslash]
  split
  · exact splitLandingToken_eq hquestion hfields htoken
  · rfl

theorem isToken_plain (htoken : IsToken token) : ∀ b ∈ token, b ≠ backslash ∧ keepsQuery b = true := by
  have hall : ∀ n < 256, isHex (UInt8.ofNat n) = true →
      UInt8.ofNat n ≠ backslash ∧ keepsQuery (UInt8.ofNat n) = true := by decide +kernel
  intro b hb
  have hhex := htoken.2 b hb
  rw [← @UInt8.ofNat_toNat b] at hhex ⊢
  exact hall _ b.toNat_lt hhex

theorem isToken_ampersand (htoken : IsToken token) : ampersand ∉ token :=
  fun hmem => absurd (htoken.2 _ hmem) (by decide)

theorem length_landingQuery (htoken : IsToken token) : (landingQuery [] token).length = 39 := by
  unfold landingQuery
  rw [List.nil_append, List.intercalate_singleton, List.length_append, htoken.1]
  rfl

theorem IsAppLocation.plain (h : IsAppLocation location) :
    ∀ b ∈ location.pathname, b ≠ backslash ∧ keepsPath b = true := by
  rw [← h.shown]
  exact absolute_plain

theorem IsAppLocation.cons (h : IsAppLocation location) : ∃ rest, location.pathname = slash :: 97 :: rest := by
  obtain ⟨rest, hpath, -⟩ := h.path
  exact ⟨112 :: 112 :: rest, hpath⟩

/-- The parts of a location: its pathname, and its fields with the bytes of its query. -/
theorem IsAppLocation.split (h : IsAppLocation location) :
    (splitLandingToken (location.pathname ++ location.search)).pathname = location.pathname ∧
      ∀ field ∈ otherFields location, (ampersand ∉ field ∧ isLandingField field = false) ∧
        ∀ b ∈ field, b ∈ location.search ∧ keepsQuery b = true := by
  have hquestion : question ∉ location.pathname :=
    fun hmem => (keepsPath_plain (h.plain _ hmem).2).2.1 rfl
  unfold otherFields splitLandingToken
  obtain hnil | ⟨query, -, hquery, hbytes⟩ := h.query
  · rw [hnil, List.append_nil, cut_of_notMem hquestion]
    simp
  · have hcut : cut question (location.pathname ++ question :: query) =
        (location.pathname, some query) := cut_eq hquestion
    rw [hquery, hcut]
    refine ⟨rfl, ?_⟩
    intro field hfield
    obtain ⟨hfield, hother⟩ := List.mem_filter.mp hfield
    rw [List.splitOn_eq_splitOnP] at hfield
    refine ⟨⟨fun hmem => ?_, by simpa using hother⟩, fun b hb => ?_⟩
    · exact absurd (mem_splitOnP field hfield _ hmem) (by decide)
    · have hmem := mem_of_splitOnP field hfield b hb
      exact ⟨List.mem_cons_of_mem _ hmem, hbytes b hmem⟩

theorem isSent_app (htoken : IsToken token) : IsSent appPath (landingQuery [] token) where
  path := ⟨[], rfl, Or.inl rfl⟩
  shown := by decide
  query := by
    refine ⟨?_, mem_landingQuery (by decide) (by decide) (fun b hb => (isToken_plain htoken b hb).2) (by simp)⟩
    intro hnil
    have hlength := length_landingQuery htoken
    rw [hnil] at hlength
    cases hlength
  length := by
    rw [List.length_append, List.length_cons, length_landingQuery htoken]
    decide

theorem take_two_app {rest : Bytes} : (appPath ++ rest).take 2 ≠ [slash, slash] := second_letter

theorem safeLoginReturnPath_app (htoken : IsToken token) :
    safeLoginReturnPath (appPath ++ question :: landingQuery [] token) =
      appPath ++ question :: landingQuery [] token := by
  have hbackslash : backslash ∉ appPath ++ question :: landingQuery [] token := by
    intro hmem
    rcases List.mem_append.mp hmem with hmem | hmem
    · exact absurd hmem (by decide)
    · rcases List.mem_cons.mp hmem with heq | hmem
      · exact absurd heq (by decide)
      · exact mem_landingQuery (S := fun b => b ≠ backslash) (by decide) (by decide)
          (fun b hb => (isToken_plain htoken b hb).1) (by simp) _ hmem rfl
  rw [safeLoginReturnPath_eq rfl take_two_app hbackslash, if_pos (isSent_app htoken).length]

/-- What the client sends: the root of the app, or the location, with the token. -/
theorem IsAppLocation.sent (h : IsAppLocation location) (htoken : IsToken token) :
    ∃ P fields, loginReturnPath location token = P ++ question :: landingQuery fields token ∧
      IsSent P (landingQuery fields token) ∧
        (∀ b ∈ landingQuery fields token, b ≠ backslash ∧ keepsQuery b = true) ∧
          (∀ field ∈ fields, ampersand ∉ field ∧ isLandingField field = false) ∧
            (FallsBack location token ∧ P = appPath ∧ fields = [] ∨
              ¬ FallsBack location token ∧ P = location.pathname ∧ fields = otherFields location) := by
  obtain ⟨rest, hcons⟩ := h.cons
  obtain ⟨hpathname, hfields⟩ := h.split
  have htokenne : token ≠ [] := by
    rintro rfl
    exact absurd htoken.1 (by decide)
  have hnohash : numberSign ∉ location.pathname := fun hmem => (keepsPath_plain (h.plain _ hmem).2).2.2 rfl
  have hsearch : location.search = [] ∨ ∃ query, location.search = question :: query ∧ numberSign ∉ query := by
    obtain hnil | ⟨query, -, hquery, hbytes⟩ := h.query
    · exact Or.inl hnil
    · exact Or.inr ⟨query, hquery, fun hmem => (keepsQuery_plain (hbytes _ hmem)).2.1 rfl⟩
  have hcurrent := currentLoginReturnPath_eq (by rw [hcons]; simp) hnohash hsearch
  have happ : ∀ fields : List Bytes, fields = [] → ∀ b ∈ landingQuery fields token,
      b ≠ backslash ∧ keepsQuery b = true := by
    rintro fields rfl
    exact mem_landingQuery (by decide) (by decide) (isToken_plain htoken) (by simp)
  have hroot : safeLoginReturnPath (joinReturnPath appPath [signInLandingField ++ token]) =
      appPath ++ question :: landingQuery [] token := safeLoginReturnPath_app htoken
  by_cases hfirst : backslash ∈ location.search ∨ (location.pathname ++ location.search).length > 1024
  · refine ⟨appPath, [], ?_, isSent_app htoken, happ [] rfl, by simp,
      Or.inl ⟨hfirst.imp id Or.inl, rfl, rfl⟩⟩
    have hfallback : currentLoginReturnPath location = appPath := by
      rw [hcurrent]
      unfold safeLoginReturnPath
      split
      · rfl
      · next hlength =>
        rw [not_or] at hlength
        rw [if_pos]
        exact Or.inr (Or.inr (List.mem_append_right _ (hfirst.resolve_right hlength.2)))
    have hsplit : splitLandingToken appPath = ⟨appPath, [], none⟩ := by decide
    unfold loginReturnPath
    rw [hfallback, hsplit]
    simp only [htokenne, if_false, List.nil_append]
    split
    · rfl
    · exact hroot
  · rw [not_or, Nat.not_lt] at hfirst
    have hbackslash : backslash ∉ location.pathname ++ location.search := by
      intro hmem
      exact (List.mem_append.mp hmem).elim (fun hmem => (h.plain _ hmem).1 rfl) hfirst.1
    have hquery : ∀ b ∈ landingQuery (otherFields location) token, b ≠ backslash ∧ keepsQuery b = true := by
      apply mem_landingQuery (by decide) (by decide) (isToken_plain htoken)
      intro field hfield b hb
      obtain ⟨hmem, hkeeps⟩ := (hfields field hfield).2 b hb
      exact ⟨fun heq => hfirst.1 (heq ▸ hmem), hkeeps⟩
    have hjoined : backslash ∉ location.pathname ++ question :: landingQuery (otherFields location) token := by
      intro hmem
      rcases List.mem_append.mp hmem with hmem | hmem
      · exact (h.plain _ hmem).1 rfl
      · rcases List.mem_cons.mp hmem with heq | hmem
        · exact absurd heq (by decide)
        · exact (hquery _ hmem).1 rfl
    have hhead : ∀ tail : Bytes, (location.pathname ++ tail).head? = some slash ∧
        (location.pathname ++ tail).take 2 ≠ [slash, slash] := by
      intro tail
      rw [hcons]
      exact ⟨rfl, second_letter⟩
    have hsafe := safeLoginReturnPath_eq (hhead _).1 (hhead _).2 hjoined
    rw [safeLoginReturnPath_eq (hhead _).1 (hhead _).2 hbackslash, if_pos hfirst.2] at hcurrent
    have hreturn : loginReturnPath location token =
        if safeLoginReturnPath (location.pathname ++ question :: landingQuery (otherFields location) token) =
            location.pathname ++ question :: landingQuery (otherFields location) token then
          location.pathname ++ question :: landingQuery (otherFields location) token
        else appPath ++ question :: landingQuery [] token := by
      unfold loginReturnPath
      rw [hcurrent]
      simp only [htokenne, if_false]
      rw [hpathname, hroot]
      rw [joinReturnPath_landing]
      rfl
    by_cases hlength : (location.pathname ++ question :: landingQuery (otherFields location) token).length ≤ 1024
    · rw [if_pos hlength] at hsafe
      refine ⟨location.pathname, otherFields location, by rw [hreturn, if_pos hsafe], ?_, hquery,
        fun field hfield => (hfields field hfield).1, Or.inr ⟨?_, rfl, rfl⟩⟩
      · exact ⟨h.path, h.shown, ⟨landingQuery_ne_nil, fun b hb => (hquery b hb).2⟩, hlength⟩
      · rintro (hmem | hlong | hlong)
        · exact hfirst.1 hmem
        · exact absurd hfirst.2 (Nat.not_le.mpr hlong)
        · exact absurd hlength (Nat.not_le.mpr hlong)
    · rw [if_neg hlength] at hsafe
      refine ⟨appPath, [], ?_, isSent_app htoken, happ [] rfl, by simp,
        Or.inl ⟨Or.inr (Or.inr (Nat.lt_of_not_le hlength)), rfl, rfl⟩⟩
      rw [hreturn, if_neg]
      rw [hsafe]
      intro heq
      rw [← heq] at hlength
      exact hlength (by decide)

/-! ## Where the token survives -/

/-- The path starts with exactly one slash, has no backslash and at most 1024 characters. -/
def IsClientPath (value : Bytes) : Prop :=
  value.head? = some slash ∧ value.take 2 ≠ [slash, slash] ∧ backslash ∉ (cut question value).1 ∧
    value.length ≤ 1024

/-- The server accepts the pathname, and where it encodes the path anew, what the
browser then shows is no longer than the client takes. -/
def Carried (location : Location) (token : Bytes) : Prop :=
  FallsBack location token ∨ ∃ decoded, unescape plusSign location.pathname = some decoded ∧
    backslash ∉ decoded ∧ (location.pathname.all isEncoded = true ∨
      (absolute ((cleanPath (escape keepsInPath decoded)).drop 1) ++
        question :: landingQuery (otherFields location) token).length ≤ 1024)

/-- What the client reads of the landing. -/
theorem sent_split {oldpath : Bytes} (h : IsSent P (landingQuery fields token))
    (hquery : ∀ b ∈ landingQuery fields token, b ≠ backslash ∧ keepsQuery b = true)
    (hfields : ∀ field ∈ fields, ampersand ∉ field ∧ isLandingField field = false)
    (htoken : ampersand ∉ token) : ∃ landing,
      resolve callback (redirectTarget oldpath
        (Server.ReturnPaths.safeReturnPath (P ++ question :: landingQuery fields token))) = some landing ∧
      splitLandingToken (currentLoginReturnPath landing) =
        (acceptedPath P).elim ⟨[slash], [], none⟩ fun path =>
          if (absolute ((cleanPath path).drop 1) ++ question :: landingQuery fields token).length ≤ 1024
          then ⟨absolute ((cleanPath path).drop 1), fields, some token⟩ else ⟨appPath, [], none⟩ := by
  refine ⟨_, h.landing, ?_⟩
  cases haccepted : acceptedPath P with
  | none =>
    show splitLandingToken (currentLoginReturnPath ⟨[slash], []⟩) = ⟨[slash], [], none⟩
    decide
  | some path =>
    obtain ⟨-, hencoded, -⟩ := h.accepted haccepted
    have hbackslash : backslash ∉ path := fun hmem => (isEncoded_plain (hencoded _ hmem)).2.1 rfl
    exact split_landing absolute_head (absolute_cleanPath hbackslash) absolute_plain hquery hfields htoken

theorem IsSent.isClientPath (h : IsSent P Q) : IsClientPath (P ++ question :: Q) := by
  obtain ⟨rest, hP⟩ := h.cons
  have hquestion : question ∉ P := fun hmem => (keepsPath_plain (h.plain _ hmem).2).2.1 rfl
  have hcut : cut question (P ++ question :: Q) = (P, some Q) := cut_eq hquestion
  refine ⟨by rw [hP]; rfl, by rw [hP]; exact second_letter, ?_, h.length⟩
  rw [hcut]
  exact fun hmem => (h.plain _ hmem).1 rfl

/-- The token comes back exactly where the sign-in carries it, and the client's path is
always one of this origin. -/
theorem landing_token_survives_iff (callback : Location) (hlocation : IsAppLocation location)
    (htoken : IsToken token) :
    Survives callback location token ∧ IsClientPath (loginReturnPath location token) ↔
      Carried location token := by
  obtain ⟨P, fields, hreturn, hsent, hquery, hfields, hcase⟩ := hlocation.sent htoken
  obtain ⟨landing, hlanding, hsplit⟩ :=
    @sent_split P token fields callback callback.pathname hsent hquery hfields
      (isToken_ampersand htoken)
  have hsignIn : signInLanding callback location token = some landing := by
    rw [signInLanding_eq, hreturn]
    exact hlanding
  have happ : acceptedPath appPath = some appPath ∧ absolute ((cleanPath appPath).drop 1) = appPath := by
    decide +kernel
  have hsurvives : Survives callback location token ↔
      ∃ path, acceptedPath P = some path ∧
        (absolute ((cleanPath path).drop 1) ++ question :: landingQuery fields token).length ≤ 1024 := by
    constructor
    · intro h
      obtain ⟨other, hother, hread, -⟩ := h
      rw [hsignIn] at hother
      rw [← Option.some.inj hother, hsplit] at hread
      cases haccepted : acceptedPath P with
      | none =>
        rw [haccepted] at hread
        cases hread
      | some path =>
        rw [haccepted, Option.elim_some] at hread
        split at hread
        next hlength => exact ⟨path, rfl, hlength⟩
        next => cases hread
    · intro h
      obtain ⟨path, haccepted, hlength⟩ := h
      rw [haccepted, Option.elim_some, if_pos hlength] at hsplit
      refine ⟨landing, hsignIn, by rw [hsplit], ?_⟩
      rw [hsplit]
      obtain ⟨-, rfl, rfl⟩ | ⟨-, -, hothers⟩ := hcase
      · rw [happ.1] at haccepted
        obtain rfl := Option.some.inj haccepted
        exact Or.inr ⟨happ.2, rfl⟩
      · exact Or.inl hothers
  rw [hsurvives, hreturn, and_iff_left hsent.isClientPath]
  obtain ⟨hfallsBack, rfl, rfl⟩ | ⟨hfallsBack, rfl, rfl⟩ := hcase
  · constructor
    · exact fun _ => Or.inl hfallsBack
    · intro _
      refine ⟨appPath, happ.1, ?_⟩
      rw [happ.2]
      exact hsent.length
  · obtain ⟨rest, hcons⟩ := hlocation.cons
    have hshort : (absolute ((cleanPath location.pathname).drop 1) ++
        question :: landingQuery (otherFields location) token).length ≤ 1024 := by
      have hlength := hsent.length
      have hplain := hlocation.plain
      rw [hcons] at hlength hplain ⊢
      have hclean := @length_absolute_cleanPath (97 :: rest) (fun b hb => (hplain b hb).2)
        fun hmem => (hplain _ (List.mem_cons_of_mem _ hmem)).1 rfl
      rw [List.length_append] at hlength ⊢
      omega
    unfold Carried acceptedPath
    cases hdecoded : unescape plusSign location.pathname with
    | none => simp [hfallsBack]
    | some decoded =>
      by_cases hbackslash : backslash ∈ decoded
      · simp [hfallsBack, hbackslash]
      · by_cases hall : location.pathname.all isEncoded = true
        · simp only [hbackslash, if_false, hall, if_true, Option.some_inj, exists_eq_left']
          exact ⟨fun _ => Or.inr ⟨not_false, Or.inl trivial⟩, fun _ => hshort⟩
        · simp only [hbackslash, if_false, hall, Option.some_inj, exists_eq_left']
          constructor
          · exact fun hlength => Or.inr ⟨not_false, Or.inr hlength⟩
          · intro hcarried
            obtain h | ⟨-, hlength⟩ := hcarried
            · exact absurd h hfallsBack
            · exact hlength.resolve_left (by simp)

end

/-! ## Two locations -/

def callbackLocation : Location := ⟨Utf8.encode "/auth/google/callback".toList, []⟩

def tasksLocation : Location :=
  ⟨Utf8.encode "/app/tasks".toList, Utf8.encode "?filter=today".toList⟩

/-- The path has an escaped backslash. -/
def backslashLocation : Location :=
  ⟨Utf8.encode "/app/%5Cx".toList, Utf8.encode "?filter=today".toList⟩

def sampleToken : Bytes := Utf8.encode "0123456789abcdef0123456789abcdef".toList

theorem isToken_sampleToken : IsToken sampleToken := by
  unfold IsToken
  decide +kernel

theorem landing_token_survives_tasks : IsAppLocation tasksLocation ∧ IsToken sampleToken ∧
    (Survives callbackLocation tasksLocation sampleToken ∧
      IsClientPath (loginReturnPath tasksLocation sampleToken) ↔ Carried tasksLocation sampleToken) := by
  have hlocation : IsAppLocation tasksLocation :=
    { path := ⟨Utf8.encode "/tasks".toList, by decide +kernel, by decide +kernel⟩
      shown := by decide +kernel
      query := Or.inr ⟨Utf8.encode "filter=today".toList, by decide +kernel, by decide +kernel, by decide +kernel⟩ }
  exact ⟨hlocation, isToken_sampleToken,
    landing_token_survives_iff callbackLocation hlocation isToken_sampleToken⟩

/-- The server refuses the path, and the token is gone. -/
theorem landing_token_lost : ¬ ∀ callback location token, IsAppLocation location → IsToken token →
    Survives callback location token ∧ IsClientPath (loginReturnPath location token) := by
  intro h
  have hlocation : IsAppLocation backslashLocation :=
    { path := ⟨Utf8.encode "/%5Cx".toList, by decide +kernel, by decide +kernel⟩
      shown := by decide +kernel
      query := Or.inr ⟨Utf8.encode "filter=today".toList, by decide +kernel, by decide +kernel, by decide +kernel⟩ }
  have hlanding : signInLanding callbackLocation backslashLocation sampleToken = some ⟨[slash], []⟩ := by
    decide +kernel
  obtain ⟨⟨landing, hsome, htoken, -⟩, -⟩ := h callbackLocation _ _ hlocation isToken_sampleToken
  rw [hlanding] at hsome
  rw [← Option.some.inj hsome] at htoken
  exact absurd htoken (by decide +kernel)

end Pomodorough.Web.LandingTokens
