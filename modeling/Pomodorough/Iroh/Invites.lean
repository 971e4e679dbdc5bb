import Pomodorough.Iroh.Frames
import Pomodorough.Library.Base64
import Pomodorough.Library.JsonBytes
import Pomodorough.Library.JsonObjects

/-! # Invites

An invite is a JSON object in base64 behind a fixed word. The writer checks the
fields as Go strings and the reader checks what the decoders make of the text. -/
namespace Pomodorough.Iroh
open Pomodorough.Library
open Utf8 hiding Bytes
open Base64 hiding Bytes
open Sha256 JsonBytes

/-! ## The fields of an invite -/

def InvitePrefix : Bytes := ascii "pomodorough1."

def Version : Int := 1

def MaxTicketBytes : Nat := 16384

def roomIDDomain : Bytes := ascii "pomodorough-room-v1\x00"

structure Invite where
  version : Int
  roomID : Bytes
  roomName : Bytes
  endpointTicket : Bytes
  roomSecret : Bytes
deriving DecidableEq, Repr

inductive InviteField where
  | version
  | roomID
  | roomName
  | endpointTicket
  | roomSecret
deriving DecidableEq, Repr

/-- The name in the JSON object. -/
def InviteField.name : InviteField → String
  | .version => "v"
  | .roomID => "roomId"
  | .roomName => "roomName"
  | .endpointTicket => "endpointTicket"
  | .roomSecret => "roomSecret"

def InviteField.all : List InviteField :=
  [.version, .roomID, .roomName, .endpointTicket, .roomSecret]

def InviteField.key (field : InviteField) : List Rune := field.name.toList.map some

inductive InviteError where
  | textStart
  | encoding
  | json
  | trailingData
  | version
  | secretEncoding
  | secretLength
  | roomName
  | endpointTicket
  | roomIDMismatch
deriving DecidableEq, Repr

/-- `RoomID`. -/
def roomID (secret : Bytes) : Bytes := encodeToString (sha256 (roomIDDomain ++ secret))

/-- `validateInviteFields`. -/
def validateInviteFields (roomName endpointTicket secret : Bytes) : Except InviteError Unit :=
  if secret.length ≠ 32 then .error .secretLength
  else if roomName ≠ [] ∧ (valid roomName = false ∨ (runes roomName).length > 64) then
    .error .roomName
  else if endpointTicket = [] ∨ endpointTicket.length > MaxTicketBytes ∨
      (ascii "endpoint").isPrefixOf endpointTicket = false then .error .endpointTicket
  else .ok ()

/-! ## Writing an invite -/

def integer (n : Int) : Literal := .number (toString n).toList

/-- The members that `json.Marshal` writes, the room name where there is one. -/
def inviteMembers (invite : Invite) : List Member :=
  [(InviteField.version.key, integer invite.version),
    (InviteField.roomID.key, .text (runes invite.roomID))] ++
  (if invite.roomName = [] then []
    else [(InviteField.roomName.key, .text (runes invite.roomName))]) ++
  [(InviteField.endpointTicket.key, .text (runes invite.endpointTicket)),
    (InviteField.roomSecret.key, .text (runes invite.roomSecret))]

/-- `NewInvite`. -/
def newInvite (roomName endpointTicket secret : Bytes) : Except InviteError Bytes := do
  validateInviteFields roomName endpointTicket secret
  let invite := { version := Version, roomID := roomID secret, roomName := roomName,
                  endpointTicket := endpointTicket, roomSecret := encodeToString secret }
  .ok (InvitePrefix ++ encodeToString (writeObject (inviteMembers invite)))

/-! ## Reading an invite -/

/-- The field that the decoder gives a member to. -/
def fieldOf (key : List Rune) : Option InviteField :=
  JsonObjects.fieldNamed InviteField.name InviteField.all (String.ofList (replaced key))

def Invite.withText (invite : Invite) (text : Bytes) : InviteField → Invite
  | .version => invite
  | .roomID => { invite with roomID := text }
  | .roomName => { invite with roomName := text }
  | .endpointTicket => { invite with endpointTicket := text }
  | .roomSecret => { invite with roomSecret := text }

/-- Null leaves a field as it is. -/
def decodeField (invite : Invite) : InviteField → Literal → Option Invite
  | _, .null => some invite
  | .version, .number literal =>
    (JsonObjects.parseInt64 literal).map fun n => { invite with version := n }
  | .version, _ => none
  | field, .text runes => some (invite.withText (encode (replaced runes)) field)
  | _, _ => none

/-- A member of no field is refused. -/
def decodeMember (invite : Invite) (member : Member) : Option Invite :=
  match fieldOf member.1 with
  | some field => decodeField invite field member.2
  | none => none

/-- `decoder.Decode(&invite)`: the invite, and what is left of the body. A body of
null leaves the invite empty. -/
def decodeInvite (body : Bytes) : Option (Invite × Bytes) :=
  let empty := ⟨0, [], [], [], []⟩
  match scanObject body with
  | some (members, rest) => (members.foldlM decodeMember empty).map fun invite => (invite, rest)
  | none =>
    match skipSpace body with
    | 110 :: 117 :: 108 :: 108 :: rest => some (empty, rest)
    | _ => none

/-- `ParseInvite`. -/
def parseInvite (value : Bytes) : Except InviteError (Invite × Bytes) :=
  if InvitePrefix.isPrefixOf value = false then .error .textStart
  else
    match decodeString (value.drop InvitePrefix.length) with
    | none => .error .encoding
    | some body =>
      match decodeInvite body with
      | none => .error .json
      | some (invite, rest) =>
        if rest.all isSpace = false then .error .trailingData
        else if invite.version ≠ Version then .error .version
        else
          match decodeString invite.roomSecret with
          | none => .error .secretEncoding
          | some secret =>
            match validateInviteFields invite.roomName invite.endpointTicket secret with
            | .error err => .error err
            | .ok () =>
              if invite.roomID ≠ roomID secret then .error .roomIDMismatch
              else .ok (invite, secret)

section
variable {value text roomName endpointTicket secret : Bytes} {invite : Invite}

theorem validateInviteFields_ok_iff : validateInviteFields roomName endpointTicket secret = .ok () ↔
    secret.length = 32 ∧ (roomName = [] ∨ valid roomName = true ∧ (runes roomName).length ≤ 64) ∧
      endpointTicket ≠ [] ∧ endpointTicket.length ≤ MaxTicketBytes ∧
        ascii "endpoint" <+: endpointTicket := by
  unfold validateInviteFields
  split_ifs with hsecret hname hticket
  · simp [hsecret]
  · obtain ⟨hne, hvalid | hlength⟩ := hname
    · simp [hne, hvalid]
    · simp [hne, Nat.not_le.mpr hlength]
  · obtain hnil | hlength | hstart := hticket
    · simp [hnil]
    · simp [Nat.not_le.mpr hlength]
    · simp [← List.isPrefixOf_iff_prefix, hstart]
  · simp only [not_not] at hsecret
    simp only [not_and_or, not_or, not_not, Bool.not_eq_false, Nat.not_lt] at hname hticket
    simp only [true_iff]
    exact ⟨hsecret, hname, hticket.1, hticket.2.1, List.isPrefixOf_iff_prefix.mp hticket.2.2⟩

theorem parseInvite_ok_iff : parseInvite value = .ok (invite, secret) ↔
    ∃ text body rest, value = InvitePrefix ++ text ∧ decodeString text = some body ∧
      decodeInvite body = some (invite, rest) ∧ rest.all isSpace = true ∧
        invite.version = Version ∧ decodeString invite.roomSecret = some secret ∧
          validateInviteFields invite.roomName invite.endpointTicket secret = .ok () ∧
            invite.roomID = roomID secret := by
  unfold parseInvite
  constructor
  · intro h
    split at h
    next => cases h
    next hstart =>
      rw [Bool.not_eq_false, List.isPrefixOf_iff_prefix] at hstart
      obtain ⟨text, rfl⟩ := hstart
      rw [List.drop_left] at h
      split at h
      next => cases h
      next body hbody =>
        split at h
        next => cases h
        next decodedInvite rest hdecode =>
          split_ifs at h with hrest hversion
          split at h
          next => cases h
          next decodedSecret hsecret =>
            split at h
            next => cases h
            next hvalidate =>
              split_ifs at h with hroom
              cases h
              rw [Bool.not_eq_false] at hrest
              exact ⟨text, body, rest, rfl, hbody, hdecode, hrest, not_not.mp hversion, hsecret,
                hvalidate, not_not.mp hroom⟩
  · intro h
    obtain ⟨text, body, rest, rfl, hbody, hdecode, hrest, hversion, hsecret, hvalidate, hroom⟩ := h
    have hstart : InvitePrefix.isPrefixOf (InvitePrefix ++ text) = true :=
      List.isPrefixOf_iff_prefix.mpr (List.prefix_append _ _)
    simp [hstart, hbody, hdecode, hrest, hversion, hsecret, hvalidate, hroom]

/-! ## What is read of a written invite -/

@[simp] theorem fieldOf_key {field : InviteField} : fieldOf field.key = some field := by
  cases field <;> decide

/-- A text with the replacement character for what is no character. -/
def repaired (text : Bytes) : Bytes := encode (replaced (runes text))

theorem repaired_eq_iff : repaired text = text ↔ valid text = true := valid_iff.symm

theorem replaced_decoded {runes : List Rune} :
    replaced (runes.map fun rune => some (decoded rune)) = replaced runes := by
  simp [replaced, decoded]

theorem decodedMember_key {field : InviteField} {value : Literal} :
    decodedMember (field.key, value) = (field.key, value.decoded) := by
  simp [decodedMember, InviteField.key, decoded, Function.comp_def]

/-- A text is read into its field with the characters that it has. -/
theorem decodeMember_text {field : InviteField} (h : field ≠ .version) :
    decodeMember invite (decodedMember (field.key, .text (runes text))) =
      some (invite.withText (repaired text) field) := by
  rw [decodedMember_key, Literal.decoded, decodeMember, fieldOf_key]
  cases field with
  | version => exact absurd rfl h
  | roomID => simp [decodeField, replaced_decoded, repaired]
  | roomName => simp [decodeField, replaced_decoded, repaired]
  | endpointTicket => simp [decodeField, replaced_decoded, repaired]
  | roomSecret => simp [decodeField, replaced_decoded, repaired]

theorem decodeMember_version : decodeMember invite (decodedMember
    (InviteField.version.key, integer Version)) = some { invite with version := Version } := by
  rw [decodedMember_key, decodeMember, fieldOf_key]
  rfl

theorem readable_version : Readable (integer Version) := by
  intro b tail hb
  obtain rfl | rfl := hb
  · rfl
  · rfl

theorem readable_inviteMembers (h : invite.version = Version) :
    ∀ member ∈ inviteMembers invite, Readable member.2 := by
  intro member hmember
  unfold inviteMembers at hmember
  rw [h] at hmember
  split at hmember
  · simp only [List.append_nil, List.cons_append, List.nil_append, List.mem_cons, List.not_mem_nil,
      or_false] at hmember
    obtain rfl | rfl | rfl | rfl := hmember
    · exact readable_version
    · exact readable_text
    · exact readable_text
    · exact readable_text
  · simp only [List.cons_append, List.nil_append, List.mem_cons, List.not_mem_nil,
      or_false] at hmember
    obtain rfl | rfl | rfl | rfl | rfl := hmember
    · exact readable_version
    · exact readable_text
    · exact readable_text
    · exact readable_text
    · exact readable_text

/-- The reader finds the fields that were written, each repaired. -/
theorem decodeInvite_write (h : invite.version = Version) :
    decodeInvite (writeObject (inviteMembers invite)) =
      some (⟨Version, repaired invite.roomID, repaired invite.roomName,
        repaired invite.endpointTicket, repaired invite.roomSecret⟩, []) := by
  have hscan := @scanObject_write [] _ (readable_inviteMembers h)
  rw [List.append_nil] at hscan
  unfold decodeInvite
  rw [hscan]
  simp only
  unfold inviteMembers
  rw [h]
  split
  next hname =>
    simp [decodeMember_version, decodeMember_text, Invite.withText, hname, repaired, replaced]
  next => simp [decodeMember_version, decodeMember_text, Invite.withText]

theorem newInvite_ok_iff : newInvite roomName endpointTicket secret = .ok text ↔
    validateInviteFields roomName endpointTicket secret = .ok () ∧
      text = InvitePrefix ++ encodeToString (writeObject (inviteMembers
        ⟨Version, roomID secret, roomName, endpointTicket, encodeToString secret⟩)) := by
  unfold newInvite
  constructor
  · intro h
    cases hvalidate : validateInviteFields roomName endpointTicket secret with
    | error err =>
      rw [hvalidate] at h
      cases h
    | ok =>
      rw [hvalidate] at h
      exact ⟨rfl, (Except.ok.inj h).symm⟩
  · intro h
    obtain ⟨hvalidate, rfl⟩ := h
    rw [hvalidate]
    rfl

theorem repaired_encodeToString : repaired (encodeToString text) = encodeToString text := by
  apply repaired_eq_iff.mpr
  apply valid_of_ascii
  intro b hb
  have hprintable := (encode_printable b hb).2.1
  omega

theorem validateInviteFields_repaired
    (h : validateInviteFields roomName endpointTicket secret = .ok ()) :
    repaired roomName = roomName := by
  obtain ⟨-, rfl | ⟨hvalid, -⟩, -⟩ := validateInviteFields_ok_iff.mp h
  · rfl
  · exact repaired_eq_iff.mpr hvalid

/-- What the reader decodes of a new invite. -/
theorem decode_newInvite {body : Bytes} (h : newInvite roomName endpointTicket secret = .ok text)
    (htext : text = InvitePrefix ++ value) (hbody : decodeString value = some body) :
    decodeInvite body = some (⟨Version, roomID secret, roomName, repaired endpointTicket,
      encodeToString secret⟩, []) := by
  obtain ⟨hvalidate, rfl⟩ := newInvite_ok_iff.mp h
  rw [← List.append_cancel_left htext, decode_encode] at hbody
  cases hbody
  have hroom : repaired (roomID secret) = roomID secret := repaired_encodeToString
  rw [decodeInvite_write rfl, hroom, validateInviteFields_repaired hvalidate,
    repaired_encodeToString]

/-- The ticket that is read is the repaired one. -/
theorem parse_newInvite {read : Bytes} (h : newInvite roomName endpointTicket secret = .ok text)
    (hparse : parseInvite text = .ok (invite, read)) :
    invite.endpointTicket = repaired endpointTicket := by
  obtain ⟨value, body, rest, htext, hbody, hdecode, -⟩ := parseInvite_ok_iff.mp hparse
  rw [decode_newInvite h htext hbody] at hdecode
  cases hdecode
  rfl

/-- An invite is read back as it was made exactly where its ticket is in UTF-8. -/
theorem invite_roundtrip_iff (h : newInvite roomName endpointTicket secret = .ok text) :
    (∃ invite, parseInvite text = .ok (invite, secret) ∧ invite.roomName = roomName ∧
      invite.endpointTicket = endpointTicket) ↔ valid endpointTicket = true := by
  rw [← repaired_eq_iff]
  constructor
  · intro hparse
    obtain ⟨invite, hparse, -, hsame⟩ := hparse
    rw [← parse_newInvite h hparse, hsame]
  · intro hrepaired
    obtain ⟨hvalidate, htext⟩ := newInvite_ok_iff.mp h
    have hread := decode_newInvite h htext (decode_encode _)
    rw [hrepaired] at hread
    exact ⟨_, parseInvite_ok_iff.mpr ⟨_, _, _, htext, decode_encode _, hread, rfl, rfl,
      decode_encode _, hvalidate, rfl⟩, rfl, rfl⟩

theorem invite_roundtrip_iff_named : ∃ text,
    newInvite (ascii "Design desk") (ascii "endpointabc") (List.replicate 32 7) = .ok text ∧
      ((∃ invite, parseInvite text = .ok (invite, List.replicate 32 7) ∧
        invite.roomName = ascii "Design desk" ∧ invite.endpointTicket = ascii "endpointabc") ↔
          valid (ascii "endpointabc") = true) := by
  have hvalidate : validateInviteFields (ascii "Design desk") (ascii "endpointabc")
      (List.replicate 32 7) = .ok () :=
    validateInviteFields_ok_iff.mpr (by decide +kernel)
  have hnew := newInvite_ok_iff.mpr ⟨hvalidate, rfl⟩
  exact ⟨_, hnew, invite_roundtrip_iff hnew⟩

/-- A byte of the ticket that is no character is lost. -/
theorem invite_roundtrip_malformed : ¬ ∀ roomName endpointTicket secret text : Bytes,
    newInvite roomName endpointTicket secret = .ok text →
      ∃ invite, parseInvite text = .ok (invite, secret) ∧ invite.roomName = roomName ∧
        invite.endpointTicket = endpointTicket := by
  intro h
  have hvalidate : validateInviteFields [] (ascii "endpoint" ++ [255]) (List.replicate 32 7) =
      .ok () :=
    validateInviteFields_ok_iff.mpr (by decide +kernel)
  have hnew := newInvite_ok_iff.mpr ⟨hvalidate, rfl⟩
  obtain ⟨invite, hparse, -, hsame⟩ := h _ _ _ _ hnew
  rw [parse_newInvite hnew hparse] at hsame
  exact absurd hsame (by decide +kernel)

end

end Pomodorough.Iroh
