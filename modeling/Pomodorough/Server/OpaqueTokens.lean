import Mathlib.Data.List.TakeWhile
import Pomodorough.Library.Base64
import Pomodorough.Server.ClientAddress
import Pomodorough.Store.DeletionLedger
import Pomodorough.Store.Readiness

/-! # Opaque tokens

`authn.go`: the tokens of sessions name their user and carry a secret of 32 random
bytes, of which a database keeps the digest. `account_deletion.go` reads them from
the headers of a request. -/
namespace Pomodorough.Server.OpaqueTokens
open Pomodorough.Library.Base64
open Pomodorough.Store.Records Pomodorough.Store.DeletionLedger
open Pomodorough.Store.Readiness (validateUserID)
open Pomodorough.Server.ClientAddress (spaces comma)

abbrev dot : UInt8 := 46

/-- Bytes as a text of one character each. -/
def textOf (bytes : Bytes) : String := String.ofList (bytes.map fun b => Char.ofNat b.toNat)

def bytesOf (text : String) : Bytes := text.toList.map fun c => UInt8.ofNat c.toNat

/-! ## Issuing and parsing -/

section
variable (sha256 : Bytes → Hash)

/-- `NewOpaqueToken`, of the random bytes that it draws. -/
def newOpaqueToken (userID : String) (random : Bytes) : Option (Bytes × Hash) :=
  if validateUserID userID then
    let secret := encodeToString random
    some (bytesOf userID ++ dot :: secret, sha256 secret)
  else none

/-- `ParseOpaqueToken`. -/
def parseOpaqueToken (token : Bytes) : Option (String × Hash) :=
  if token.count dot = 1 then
    -- `strings.Cut`
    let userID := textOf (token.takeWhile fun b => b ≠ dot)
    let secret := (token.dropWhile fun b => b ≠ dot).drop 1
    if validateUserID userID then
      match decodeString secret with
      | some raw =>
        if raw.length = 32 ∧ secret = encodeToString raw then some (userID, sha256 secret) else none
      | none => none
    else none
  else none

end

/-! ## Headers -/

/-- A field that has begun. -/
def closing (field : Bytes) : List Bytes := if field = [] then [] else [field]

/-- No character that is not a space has the spelling of a space inside its own, so
its bytes can be taken one by one. -/
def fieldsFrom : Nat → Bytes → Bytes → List Bytes
  | 0, field, _ => closing field
  | _ + 1, field, [] => closing field
  | n + 1, field, b :: s =>
    match spaces.find? fun space => space.isPrefixOf (b :: s) with
    | some space => closing field ++ fieldsFrom n [] ((b :: s).drop space.length)
    | none => fieldsFrom n (field ++ [b]) s

/-- `strings.Fields` -/
def fields (s : Bytes) : List Bytes := fieldsFrom s.length [] s

def toLower (b : UInt8) : UInt8 := if 65 ≤ b.toNat ∧ b.toNat ≤ 90 then b + 32 else b

def scheme : Bytes := bytesOf "Bearer"

/-- `BearerToken`. No letter of the scheme folds to one outside ASCII. -/
def bearerToken (header : Bytes) : Option Bytes :=
  match fields header with
  | [first, token] =>
    if first.map toLower = scheme.map toLower ∧ comma ∉ token then some token else none
  | _ => none

/-- The headers that carry a credential; an empty `Authorization` is none. -/
structure CredentialHeaders where
  authorization : Bytes
  sessionCookie : Option Bytes
  deriving DecidableEq, Repr

/-- The token of a request, and how it came. -/
def presented (headers : CredentialHeaders) : Option (CredentialMethod × Bytes) :=
  if headers.authorization ≠ [] then
    (bearerToken headers.authorization).map fun token => (.bearer, token)
  else headers.sessionCookie.map fun token => (.cookie, token)

def requestCredential (sha256 : Bytes → Hash) (headers : CredentialHeaders) :
    Option (String × DeletionCredential) := do
  let (method, token) ← presented headers
  let (userID, tokenHash) ← parseOpaqueToken sha256 token
  pure (userID, ⟨tokenHash, method⟩)

/-- The headers with which a client sends its token. -/
def headersFor (token : Bytes) : CredentialMethod → CredentialHeaders
  | .bearer => ⟨scheme ++ 32 :: token, none⟩
  | .cookie => ⟨[], some token⟩

/-! ## Characters of a token -/

section Characters
variable {userID : String} {bytes : Bytes}

theorem bytesOf_textOf (bytes : Bytes) : bytesOf (textOf bytes) = bytes := by
  unfold bytesOf textOf
  rw [String.toList_ofList, List.map_map]
  refine (List.map_congr_left fun b _ => ?_).trans (List.map_id bytes)
  have hvalid : b.toNat.isValidChar := .inl (b.toNat_lt.trans (by decide))
  have hchar : (Char.ofNat b.toNat).toNat = b.toNat := by
    rw [Char.ofNat, dif_pos hvalid]
    rfl
  rw [Function.comp_apply, hchar, UInt8.ofNat_toNat, id]

/-- A byte that is no space and starts none. -/
def Visible (b : UInt8) : Prop := 33 ≤ b.toNat ∧ b.toNat < 127

/-- A byte that can stand in a user's id or in a secret. -/
structure Plain (b : UInt8) : Prop where
  visible : Visible b
  ne_dot : b ≠ dot
  ne_comma : b ≠ comma

theorem plain_digit : ∀ n < 64, 33 ≤ (digit n).toNat ∧ (digit n).toNat < 127 ∧ digit n ≠ dot ∧
    digit n ≠ comma := by decide

theorem plain_encode : ∀ b ∈ encodeToString bytes, Plain b := by
  intro b hb
  obtain ⟨n, hn, rfl⟩ := List.mem_map.mp hb
  obtain ⟨hlow, hhigh, hdot, hcomma⟩ := plain_digit n (split_lt bytes n hn)
  exact ⟨⟨hlow, hhigh⟩, hdot, hcomma⟩

theorem plain_char : ∀ n < 127, (Char.ofNat n).isAlphanum || Char.ofNat n = '_' || Char.ofNat n = '-' →
    33 ≤ n ∧ n < 127 ∧ n ≠ 46 ∧ n ≠ 44 := by decide

theorem isAlphanum_eq (c : Char) : c.isAlphanum =
    (decide (c.val ≥ 'A'.val ∧ c.val ≤ 'Z'.val) || (c.val ≥ 'a'.val && c.val ≤ 'z'.val) ||
      (c.val ≥ '0'.val && c.val ≤ '9'.val)) := rfl

theorem plain_userID (h : validateUserID userID = true) {c : Char} (hc : c ∈ userID.toList) :
    c.toNat < 127 ∧ Plain (UInt8.ofNat c.toNat) := by
  simp only [validateUserID, Bool.and_eq_true, List.all_eq_true] at h
  have hword := h.2 c hc
  have hlt : c.toNat < 127 := by
    simp only [isAlphanum_eq, Bool.or_eq_true, Bool.and_eq_true, decide_eq_true_eq, ge_iff_le,
      UInt32.le_iff_toNat_le] at hword
    have hnat : c.val.toNat = c.toNat := rfl
    obtain (((hupper | hlower) | hdigit) | rfl) | rfl := hword
    · have hle : c.val.toNat ≤ 90 := hupper.2
      omega
    · have hle : c.val.toNat ≤ 122 := hlower.2
      omega
    · have hle : c.val.toNat ≤ 57 := hdigit.2
      omega
    · decide
    · decide
  rw [← Char.ofNat_toNat c] at hword
  obtain ⟨hlow, hhigh, hdot, hcomma⟩ := plain_char _ hlt hword
  have hbyte : (UInt8.ofNat c.toNat).toNat = c.toNat := by
    rw [UInt8.toNat_ofNat']
    omega
  refine ⟨hlt, ⟨by omega, by omega⟩, fun heq => ?_, fun heq => ?_⟩
  · exact hdot (hbyte.symm.trans (congrArg UInt8.toNat heq))
  · exact hcomma (hbyte.symm.trans (congrArg UInt8.toNat heq))

theorem plain_bytesOf (h : validateUserID userID = true) : ∀ b ∈ bytesOf userID, Plain b := by
  intro b hb
  obtain ⟨c, hc, rfl⟩ := List.mem_map.mp hb
  exact (plain_userID h hc).2

theorem textOf_bytesOf (h : validateUserID userID = true) : textOf (bytesOf userID) = userID := by
  unfold textOf bytesOf
  rw [List.map_map, List.map_congr_left (g := id), List.map_id, String.ofList_toList]
  intro c hc
  have hlt := (plain_userID h hc).1
  rw [Function.comp_apply, UInt8.toNat_ofNat', Nat.mod_eq_of_lt (by omega), Char.ofNat_toNat, id]

end Characters

/-! ## What is issued is what is accepted -/

section
variable {sha256 : Bytes → Hash} {userID : String} {random token : Bytes} {tokenHash : Hash}

theorem count_dot {bytes : Bytes} (h : ∀ b ∈ bytes, Plain b) : bytes.count dot = 0 :=
  List.count_eq_zero.mpr fun hmem => (h dot hmem).ne_dot rfl

theorem newOpaqueToken_iff : newOpaqueToken sha256 userID random = some (token, tokenHash) ↔
    validateUserID userID = true ∧ token = bytesOf userID ++ dot :: encodeToString random ∧
      tokenHash = sha256 (encodeToString random) := by
  unfold newOpaqueToken
  split
  · rename_i h
    simp only [h, true_and, Option.some.injEq, Prod.mk.injEq, eq_comm]
  · rename_i h
    simp only [h, false_and, reduceCtorEq]

/-- An issued token names its user again. -/
theorem parse_issued (hlength : random.length = 32)
    (h : newOpaqueToken sha256 userID random = some (token, tokenHash)) :
    parseOpaqueToken sha256 token = some (userID, tokenHash) := by
  obtain ⟨hvalid, rfl, rfl⟩ := newOpaqueToken_iff.mp h
  have huser := plain_bytesOf hvalid
  have hne : ∀ b ∈ bytesOf userID, decide (b ≠ dot) = true :=
    fun b hb => decide_eq_true (huser b hb).ne_dot
  have hcount : (bytesOf userID ++ dot :: encodeToString random).count dot = 1 := by
    rw [List.count_append, List.count_cons_self, count_dot huser, count_dot plain_encode]
  unfold parseOpaqueToken
  rw [if_pos hcount, List.takeWhile_append_of_pos hne, List.dropWhile_append_of_pos hne,
    List.takeWhile_cons_of_neg (by simp), List.dropWhile_cons_of_neg (by simp), List.append_nil,
    textOf_bytesOf hvalid]
  simp only [List.drop_one, List.tail_cons, hvalid, if_true, decode_encode, hlength, and_self]

/-- Whatever is accepted has been issued in these very bytes. -/
theorem issued_of_parse (h : parseOpaqueToken sha256 token = some (userID, tokenHash)) :
    ∃ random : Bytes, random.length = 32 ∧
      newOpaqueToken sha256 userID random = some (token, tokenHash) := by
  unfold parseOpaqueToken at h
  split at h
  case isFalse => cases h
  case isTrue hcount =>
  dsimp only at h
  split at h
  case isFalse => cases h
  case isTrue hvalid =>
  split at h
  case h_2 => cases h
  case h_1 raw hraw =>
  split at h
  case isFalse => cases h
  case isTrue hcanonical =>
  cases h
  obtain ⟨hlength, hsecret⟩ := hcanonical
  refine ⟨raw, hlength, newOpaqueToken_iff.mpr ⟨hvalid, ?_, by rw [hsecret]⟩⟩
  rw [bytesOf_textOf, ← hsecret]
  have hdot : dot ∈ token := List.count_pos_iff.mp (by omega)
  have hrest : token.dropWhile (fun b => b ≠ dot) ≠ [] := by
    intro hnil
    have hall := List.dropWhile_eq_nil_iff.mp hnil dot hdot
    simp at hall
  have hhead : (token.dropWhile fun b => b ≠ dot).head hrest = dot := by
    have hnot := List.head_dropWhile_not (fun b => decide (b ≠ dot)) hrest
    simpa using hnot
  have hcons : dot :: (token.dropWhile fun b => b ≠ dot).drop 1 =
      token.dropWhile fun b => b ≠ dot := by
    calc dot :: (token.dropWhile fun b => b ≠ dot).drop 1
        = (token.dropWhile fun b => b ≠ dot).head hrest ::
            (token.dropWhile fun b => b ≠ dot).tail := by rw [hhead, List.drop_one]
      _ = token.dropWhile fun b => b ≠ dot := List.cons_head_tail hrest
  rw [hcons]
  exact List.takeWhile_append_dropWhile.symm

/-! ## Fields of a header -/

theorem spaces_head :
    ∀ space ∈ spaces, ∀ b ∈ space.head?, b.toNat < 33 ∨ 127 ≤ b.toNat := by
  decide +kernel

theorem spaces_ne : ∀ space ∈ spaces, space ≠ [] := by decide +kernel

theorem not_space {b : UInt8} {s : Bytes} (h : Visible b) :
    spaces.find? (fun space => space.isPrefixOf (b :: s)) = none := by
  rw [List.find?_eq_none]
  intro space hspace hstart
  cases space with
  | nil => exact spaces_ne [] hspace rfl
  | cons first rest =>
    simp only [List.isPrefixOf_cons_cons, Bool.and_eq_true, beq_iff_eq] at hstart
    obtain hlow | hhigh := spaces_head _ hspace first rfl
    · rw [hstart.1] at hlow
      exact absurd h.1 (by omega)
    · rw [hstart.1] at hhigh
      exact absurd h.2 (by omega)

theorem fieldsFrom_visible {word rest field : Bytes} {n : Nat} (h : ∀ b ∈ word, Visible b) :
    fieldsFrom (word.length + n) field (word ++ rest) = fieldsFrom n (field ++ word) rest := by
  induction word generalizing field with
  | nil => simp
  | cons b word ih =>
    obtain ⟨hb, hword⟩ := List.forall_mem_cons.mp h
    rw [List.length_cons, Nat.add_right_comm, List.cons_append, fieldsFrom, not_space hb,
      ih hword, List.append_assoc, List.singleton_append]

theorem fields_two {first token : Bytes} (hfirst : ∀ b ∈ first, Visible b) (hne : first ≠ [])
    (htoken : ∀ b ∈ token, Visible b) (hne' : token ≠ []) :
    fields (first ++ 32 :: token) = [first, token] := by
  have hspace : spaces.find? (fun space => space.isPrefixOf (32 :: token)) = some [32] := rfl
  have hlast : fieldsFrom token.length [] token = [token] := by
    have hwhole : fieldsFrom (token.length + 0) [] (token ++ []) = fieldsFrom 0 ([] ++ token) [] :=
      fieldsFrom_visible htoken
    rw [Nat.add_zero, List.append_nil, List.nil_append, fieldsFrom, closing, if_neg hne'] at hwhole
    exact hwhole
  calc fields (first ++ 32 :: token)
      = fieldsFrom (first.length + (token.length + 1)) [] (first ++ 32 :: token) := by
        rw [fields, List.length_append, List.length_cons]
    _ = fieldsFrom (token.length + 1) first (32 :: token) := by
        rw [fieldsFrom_visible hfirst, List.nil_append]
    _ = closing first ++ fieldsFrom token.length [] token := by
        rw [fieldsFrom, hspace]
        rfl
    _ = [first, token] := by
        rw [closing, if_neg hne, hlast, List.singleton_append]

theorem visible_scheme : ∀ b ∈ scheme, 33 ≤ b.toNat ∧ b.toNat < 127 := by decide +kernel

theorem bearerToken_issued (h : newOpaqueToken sha256 userID random = some (token, tokenHash)) :
    bearerToken (scheme ++ 32 :: token) = some token := by
  obtain ⟨hvalid, rfl, -⟩ := newOpaqueToken_iff.mp h
  have hbytes : ∀ b ∈ bytesOf userID ++ dot :: encodeToString random, Visible b ∧ b ≠ comma := by
    intro b hb
    obtain huser | hsecret := List.mem_append.mp hb
    · exact ⟨(plain_bytesOf hvalid b huser).visible, (plain_bytesOf hvalid b huser).ne_comma⟩
    · obtain rfl | hsecret := List.mem_cons.mp hsecret
      · exact ⟨⟨by decide, by decide⟩, by decide⟩
      · exact ⟨(plain_encode b hsecret).visible, (plain_encode b hsecret).ne_comma⟩
  have hcomma : comma ∉ bytesOf userID ++ dot :: encodeToString random :=
    fun hmem => (hbytes comma hmem).2 rfl
  unfold bearerToken
  rw [fields_two visible_scheme (by decide) (fun b hb => (hbytes b hb).1) (by simp)]
  exact if_pos ⟨rfl, hcomma⟩

/-- However a client presents an issued token, it is read back. -/
theorem presented_issued (h : newOpaqueToken sha256 userID random = some (token, tokenHash))
    (method : CredentialMethod) : presented (headersFor token method) = some (method, token) := by
  cases method with
  | bearer =>
    have hne : scheme ++ 32 :: token ≠ [] := by simp
    rw [headersFor, presented, if_pos hne, bearerToken_issued h]
    rfl
  | cookie => rfl

theorem requestCredential_issued (hlength : random.length = 32)
    (h : newOpaqueToken sha256 userID random = some (token, tokenHash)) (method : CredentialMethod) :
    requestCredential sha256 (headersFor token method) = some (userID, ⟨tokenHash, method⟩) := by
  simp only [requestCredential, presented_issued h, Option.bind_eq_bind, Option.bind_some,
    parse_issued hlength h, Option.pure_def]

/-- A request is taken for a user exactly where the token it presents was issued to
that user, in this spelling; and however a client presents an issued token, it is
read back. -/
theorem requestCredential_iff :
    (∀ headers userID credential,
      requestCredential sha256 headers = some (userID, credential) ↔
        ∃ token random : Bytes, presented headers = some (credential.method, token) ∧
          random.length = 32 ∧
          newOpaqueToken sha256 userID random = some (token, credential.tokenHash)) ∧
    (∀ userID random token tokenHash,
      newOpaqueToken sha256 userID random = some (token, tokenHash) →
        ∀ method, presented (headersFor token method) = some (method, token)) := by
  refine ⟨fun headers userID credential => ?_, fun userID random token tokenHash h method => ?_⟩
  · simp only [requestCredential, Option.bind_eq_bind, Option.bind_eq_some_iff, Option.pure_def,
      Option.some.injEq, Prod.exists, Prod.mk.injEq]
    constructor
    · intro hrequest
      obtain ⟨method, token, hpresented, _, tokenHash, hparse, rfl, rfl⟩ := hrequest
      obtain ⟨random, hlength, hissued⟩ := issued_of_parse hparse
      exact ⟨token, random, hpresented, hlength, hissued⟩
    · intro hissued
      obtain ⟨token, random, hpresented, hlength, hissued⟩ := hissued
      exact ⟨_, token, hpresented, userID, _, parse_issued hlength hissued, rfl, rfl⟩
  · exact presented_issued h method

end

end Pomodorough.Server.OpaqueTokens
