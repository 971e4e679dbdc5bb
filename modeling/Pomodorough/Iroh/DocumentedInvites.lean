import Mathlib.Data.List.Induction
import Mathlib.Data.List.Nodup
import Pomodorough.Iroh.Invites

/-! # Documented invites

The protocol documents one form of an invite and asks a decoder to refuse every
other text. The decoders that `ParseInvite` rests on take more. -/
namespace Pomodorough.Iroh
open Pomodorough.Library
open Utf8 hiding Bytes
open Base64 hiding Bytes
open Sha256 JsonBytes

/-! ## The fields that are decoded -/

/-- The last value of a field that is not null. -/
def lastValue (field : InviteField) (members : List Member) : Option Literal :=
  ((members.filter fun member => fieldOf member.1 = some field ∧ member.2 ≠ .null).getLast?).map
    Prod.snd

/-- A value that the field takes. -/
def fits : InviteField → Literal → Bool
  | _, .null => true
  | .version, .number literal => (JsonObjects.parseInt64 literal).isSome
  | .version, _ => false
  | _, .text _ => true
  | _, _ => false

def numberOf : Option Literal → Int
  | some (.number literal) => (JsonObjects.parseInt64 literal).getD 0
  | _ => 0

def textOf : Option Literal → Bytes
  | some (.text runes) => encode (replaced runes)
  | _ => []

/-- The invite of the values of its fields. -/
def inviteOf (values : InviteField → Option Literal) : Invite :=
  ⟨numberOf (values .version), textOf (values .roomID), textOf (values .roomName),
    textOf (values .endpointTicket), textOf (values .roomSecret)⟩

section
variable {member : Member} {members : List Member} {field : InviteField} {value : Literal}
  {invite : Invite} {values : InviteField → Option Literal}

theorem lastValue_concat : lastValue field (members ++ [member]) =
    if fieldOf member.1 = some field ∧ member.2 ≠ .null then some member.2
    else lastValue field members := by
  unfold lastValue
  split
  next h => simp [h]
  next h => simp [h]

theorem decodeField_iff : decodeField (inviteOf values) field value = some invite ↔
    fits field value = true ∧ invite = inviteOf fun other =>
      if field = other ∧ value ≠ .null then some value else values other := by
  have hset : ∀ {read expected : Invite}, read = expected →
      (some read = some invite ↔ true = true ∧ invite = expected) := by
    intro read expected h
    rw [h, Option.some_inj, eq_self_iff_true, true_and, eq_comm]
  cases value with
  | null => cases field <;> exact hset (by simp)
  | bool => cases field <;> simp [decodeField, fits]
  | number literal =>
    cases field with
    | version =>
      cases hparse : JsonObjects.parseInt64 literal with
      | none => simp [decodeField, fits, hparse]
      | some n =>
        rw [decodeField, fits, hparse]
        exact hset (by simp [inviteOf, numberOf, hparse])
    | roomID => simp [decodeField, fits]
    | roomName => simp [decodeField, fits]
    | endpointTicket => simp [decodeField, fits]
    | roomSecret => simp [decodeField, fits]
  | text runes =>
    cases field with
    | version => simp [decodeField, fits]
    | roomID => exact hset (by simp [inviteOf, textOf, Invite.withText])
    | roomName => exact hset (by simp [inviteOf, textOf, Invite.withText])
    | endpointTicket => exact hset (by simp [inviteOf, textOf, Invite.withText])
    | roomSecret => exact hset (by simp [inviteOf, textOf, Invite.withText])

/-- The decoder gives each field its last value, where every member fits its field. -/
theorem decodeMembers_iff : members.foldlM decodeMember ⟨0, [], [], [], []⟩ = some invite ↔
    (∀ member ∈ members, ∃ field, fieldOf member.1 = some field ∧ fits field member.2 = true) ∧
      invite = inviteOf fun field => lastValue field members := by
  induction members using List.reverseRecOn generalizing invite with
  | nil =>
    simp only [List.foldlM_nil, Option.pure_def, Option.some_inj, List.not_mem_nil,
      false_implies, implies_true, true_and]
    exact eq_comm
  | append_singleton members member ih =>
    simp only [List.foldlM_append, List.foldlM_cons, List.foldlM_nil, Option.bind_eq_bind,
      Option.pure_def, Option.bind_eq_some_iff, Option.some_inj, exists_eq_right, ih,
      List.forall_mem_append, List.forall_mem_singleton, lastValue_concat]
    unfold decodeMember
    cases hfield : fieldOf member.1 with
    | none => simp
    | some field =>
      simp only [Option.some_inj, exists_eq_left']
      constructor
      · intro h
        obtain ⟨before, ⟨hmembers, rfl⟩, hmember⟩ := h
        obtain ⟨hfits, rfl⟩ := decodeField_iff.mp hmember
        exact ⟨⟨hmembers, hfits⟩, rfl⟩
      · intro h
        obtain ⟨⟨hmembers, hfits⟩, rfl⟩ := h
        exact ⟨_, ⟨hmembers, rfl⟩, decodeField_iff.mpr ⟨hfits, rfl⟩⟩

end

/-! ## Members that are fields once -/

/-- Every member is a field by its name, none twice and none null. -/
structure Tidy (members : List Member) : Prop where
  spelled : ∀ member ∈ members, ∃ field : InviteField, member.1 = field.key
  nonnull : ∀ member ∈ members, member.2 ≠ .null
  nodup : (members.map Prod.fst).Nodup

section
variable {members document : List Member} {field : InviteField} {value : Literal}

theorem mem_of_lastValue (h : lastValue field members = some value) :
    ∃ key, fieldOf key = some field ∧ (key, value) ∈ members := by
  obtain ⟨member, hlast, rfl⟩ := Option.map_eq_some_iff.mp h
  obtain ⟨hmem, hkept⟩ := List.mem_filter.mp (List.mem_of_getLast? hlast)
  rw [decide_eq_true_eq] at hkept
  exact ⟨member.1, hkept.1, hmem⟩

theorem Tidy.lastValue_iff (h : Tidy members) :
    lastValue field members = some value ↔ (field.key, value) ∈ members := by
  have hfound : ∀ {value}, lastValue field members = some value → (field.key, value) ∈ members := by
    intro value hlast
    obtain ⟨key, hkey, hmem⟩ := mem_of_lastValue hlast
    obtain ⟨other, rfl⟩ : ∃ other : InviteField, key = other.key := h.spelled _ hmem
    rw [fieldOf_key] at hkey
    cases hkey
    exact hmem
  constructor
  · exact hfound
  · intro hmem
    cases hlast : lastValue field members with
    | none =>
      rw [lastValue, Option.map_eq_none_iff, List.getLast?_eq_none_iff, List.filter_eq_nil_iff] at hlast
      exact absurd (by simp [h.nonnull _ hmem]) (hlast _ hmem)
    | some other =>
      have hsame := List.inj_on_of_nodup_map h.nodup (hfound hlast) hmem rfl
      rw [(Prod.mk.inj hsame).2]

theorem Tidy.perm (h : Tidy members) (hperm : members.Perm document) : Tidy document where
  spelled := fun member hmem => h.spelled member (hperm.mem_iff.mpr hmem)
  nonnull := fun member hmem => h.nonnull member (hperm.mem_iff.mpr hmem)
  nodup := (hperm.map Prod.fst).nodup_iff.mp h.nodup

/-- The order of the members has no meaning. -/
theorem Tidy.perm_iff (h : Tidy members) (hdocument : Tidy document) : members.Perm document ↔
    ∀ field, lastValue field members = lastValue field document := by
  constructor
  · intro hperm field
    apply Option.ext
    intro value
    rw [h.lastValue_iff, hdocument.lastValue_iff, hperm.mem_iff]
  · intro hvalues
    rw [List.perm_ext_iff_of_nodup h.nodup.of_map hdocument.nodup.of_map]
    intro member
    obtain ⟨key, value⟩ := member
    constructor
    · intro hmem
      obtain ⟨field, rfl⟩ : ∃ field : InviteField, key = field.key := h.spelled _ hmem
      rw [← h.lastValue_iff] at hmem
      rwa [← hdocument.lastValue_iff, ← hvalues]
    · intro hmem
      obtain ⟨field, rfl⟩ : ∃ field : InviteField, key = field.key := hdocument.spelled _ hmem
      rw [← hdocument.lastValue_iff] at hmem
      rwa [← h.lastValue_iff, hvalues]

end

/-! ## The documented form -/

/-- The value of a field in the documented form: the version 1, the room name where
there is one, and the texts of the others. -/
def documentValue (roomName : Option (List Char)) (ticket : List Char) (secret : Bytes) :
    InviteField → Option Literal
  | .version => some (.number ['1'])
  | .roomID => some (.text (runes (roomID secret)))
  | .roomName => roomName.map fun name => .text (name.map some)
  | .endpointTicket => some (.text (ticket.map some))
  | .roomSecret => some (.text (runes (encodeToString secret)))

def document (roomName : Option (List Char)) (ticket : List Char) (secret : Bytes) : List Member :=
  InviteField.all.filterMap fun field =>
    (documentValue roomName ticket secret field).map fun value => (field.key, value)

/-- The documented invites. The base64 is the encoding of the body, the body is one
object with white space around it, and its members are those of the form. -/
def IsDocumented (value : Bytes) : Prop :=
  ∃ body members rest roomName ticket secret,
    value = InvitePrefix ++ encodeToString body ∧ scanObject body = some (members, rest) ∧
      rest.all isSpace = true ∧ members.Perm (document roomName ticket secret) ∧
        (∀ name ∈ roomName, 1 ≤ name.length ∧ name.length ≤ 64) ∧
          ascii "endpoint" <+: encode ticket ∧ (encode ticket).length ≤ MaxTicketBytes ∧
            secret.length = 32

section
variable {roomName : Option (List Char)} {ticket : List Char} {secret : Bytes}
  {field : InviteField} {member : Member}

theorem mem_document : member ∈ document roomName ticket secret ↔
    ∃ field, documentValue roomName ticket secret field = some member.2 ∧ member.1 = field.key := by
  obtain ⟨key, value⟩ := member
  simp only [document, List.mem_filterMap, Option.map_eq_some_iff, Prod.mk.injEq]
  constructor
  · intro h
    obtain ⟨field, -, value, hvalue, rfl, rfl⟩ := h
    exact ⟨field, hvalue, rfl⟩
  · intro h
    obtain ⟨field, hvalue, rfl⟩ := h
    refine ⟨field, ?_, value, hvalue, rfl, rfl⟩
    cases field <;> decide

theorem tidy_document : Tidy (document roomName ticket secret) where
  spelled := fun member hmem => by
    obtain ⟨field, -, hkey⟩ := mem_document.mp hmem
    exact ⟨field, hkey⟩
  nonnull := fun member hmem => by
    obtain ⟨field, hvalue, -⟩ := mem_document.mp hmem
    intro hnull
    rw [hnull] at hvalue
    cases field <;> simp [documentValue] at hvalue
  nodup := by
    cases roomName with
    | none =>
      show (([.version, .roomID, .endpointTicket, .roomSecret] : List InviteField).map
        InviteField.key).Nodup
      decide
    | some name =>
      show (InviteField.all.map InviteField.key).Nodup
      decide

theorem lastValue_document : lastValue field (document roomName ticket secret) =
    documentValue roomName ticket secret field := by
  apply Option.ext
  intro value
  rw [tidy_document.lastValue_iff, mem_document]
  constructor
  · intro h
    obtain ⟨other, hvalue, hkey⟩ := h
    have hsame := congrArg fieldOf hkey
    rw [fieldOf_key, fieldOf_key] at hsame
    cases hsame
    exact hvalue
  · intro h
    exact ⟨field, h, rfl⟩

end

/-! ## What is read beside the documented form -/

/-- The parts of an invite. -/
structure Reading where
  text : Bytes
  body : Bytes
  members : List Member
  rest : Bytes
  secret : Bytes

/-- The text after the fixed word decodes to a body that begins with an object. -/
def Reads (value : Bytes) (r : Reading) : Prop :=
  value = InvitePrefix ++ r.text ∧ decodeString r.text = some r.body ∧
    scanObject r.body = some (r.members, r.rest)

/-- The last values of the fields are those of an invite, whatever else is written. -/
structure Tolerated (r : Reading) : Prop where
  members : ∀ member ∈ r.members, ∃ field, fieldOf member.1 = some field ∧ fits field member.2 = true
  rest : r.rest.all isSpace = true
  version : numberOf (lastValue .version r.members) = Version
  secret : decodeString (textOf (lastValue .roomSecret r.members)) = some r.secret
  limits : validateInviteFields (textOf (lastValue .roomName r.members))
    (textOf (lastValue .endpointTicket r.members)) r.secret = .ok ()
  roomID : textOf (lastValue .roomID r.members) = Iroh.roomID r.secret

/-- What the documented form does not have. -/
inductive Deviates (r : Reading) : Prop where
  | encoding (h : r.text ≠ encodeToString r.body)
  | spelling (member : Member) (h : member ∈ r.members)
      (hkey : ∀ field : InviteField, member.1 ≠ field.key)
  | repeated (h : ¬ (r.members.map Prod.fst).Nodup)
  | null (key : List Rune) (h : (key, Literal.null) ∈ r.members)
  | malformed (key runes : List Rune) (h : (key, Literal.text runes) ∈ r.members)
      (hnone : none ∈ runes)
  | secretEncoding (h : textOf (lastValue .roomSecret r.members) ≠ encodeToString r.secret)
  | emptyName (h : (InviteField.roomName.key, Literal.text []) ∈ r.members)

/-- The text is tolerated, and is not in the documented form. -/
def IsLax (value : Bytes) : Prop := ∃ r, Reads value r ∧ Tolerated r ∧ Deviates r

section
variable {value body rest secret : Bytes} {invite : Invite} {r r' : Reading} {field : InviteField}

theorem decodeInvite_iff (h : invite.version = Version) : decodeInvite body = some (invite, rest) ↔
    ∃ members, scanObject body = some (members, rest) ∧
      members.foldlM decodeMember ⟨0, [], [], [], []⟩ = some invite := by
  unfold decodeInvite
  simp only
  cases hscan : scanObject body with
  | none =>
    simp only [reduceCtorEq, false_and, exists_false, iff_false]
    split
    · intro hempty
      cases hempty
      exact absurd h (by decide)
    · simp
  | some scanned =>
    obtain ⟨members, after⟩ := scanned
    simp only [Option.map_eq_some_iff, Prod.mk.injEq, Option.some_inj]
    constructor
    · intro hfold
      obtain ⟨read, hfold, rfl, rfl⟩ := hfold
      exact ⟨members, ⟨rfl, rfl⟩, hfold⟩
    · intro hfold
      obtain ⟨found, ⟨rfl, rfl⟩, hfold⟩ := hfold
      exact ⟨invite, hfold, rfl, rfl⟩

/-- The reader accepts what is tolerated. -/
theorem accepted_iff : (∃ invite secret, parseInvite value = .ok (invite, secret)) ↔
    ∃ r, Reads value r ∧ Tolerated r := by
  constructor
  · intro h
    obtain ⟨invite, secret, h⟩ := h
    obtain ⟨text, body, rest, htext, hbody, hdecode, hrest, hversion, hsecret, hlimits, hroom⟩ :=
      parseInvite_ok_iff.mp h
    obtain ⟨members, hscan, hfold⟩ := (decodeInvite_iff hversion).mp hdecode
    obtain ⟨hmembers, rfl⟩ := decodeMembers_iff.mp hfold
    exact ⟨⟨text, body, members, rest, secret⟩, ⟨htext, hbody, hscan⟩, hmembers, hrest, hversion,
      hsecret, hlimits, hroom⟩
  · intro h
    obtain ⟨r, ⟨htext, hbody, hscan⟩, h⟩ := h
    have hfold := decodeMembers_iff.mpr ⟨h.members, rfl⟩
    exact ⟨_, r.secret, parseInvite_ok_iff.mpr ⟨r.text, r.body, r.rest, htext, hbody,
      (decodeInvite_iff h.version).mpr ⟨_, hscan, hfold⟩, h.rest, h.version, h.secret, h.limits,
      h.roomID⟩⟩

theorem reading_unique (hreads : Reads value r) (h : Tolerated r) (hreads' : Reads value r')
    (h' : Tolerated r') : r = r' := by
  obtain ⟨htext, hbody, hscan⟩ := hreads
  obtain ⟨htext', hbody', hscan'⟩ := hreads'
  have hsecret := h.secret
  have hsecret' := h'.secret
  obtain ⟨text, body, members, rest, secret⟩ := r
  obtain ⟨text', body', members', rest', secret'⟩ := r'
  obtain rfl : text = text' := List.append_cancel_left (htext.symm.trans htext')
  obtain rfl : body = body' := Option.some.inj (hbody.symm.trans hbody')
  obtain ⟨rfl, rfl⟩ := Prod.mk.inj (Option.some.inj (hscan.symm.trans hscan'))
  obtain rfl : secret = secret' := Option.some.inj (hsecret.symm.trans hsecret')
  rfl

/-! ## The documented form is tolerated -/

theorem textOf_chars {cs : List Char} : textOf (some (.text (cs.map some))) = encode cs := by
  simp [textOf, replaced]

theorem textOf_encoded {bytes : Bytes} :
    textOf (some (.text (runes (encodeToString bytes)))) = encodeToString bytes :=
  repaired_encodeToString

theorem fits_documentValue {roomName : Option (List Char)} {ticket : List Char} {value : Literal}
    (h : documentValue roomName ticket secret field = some value) : fits field value = true := by
  cases field with
  | version =>
    cases h
    decide
  | roomID =>
    cases h
    rfl
  | roomName =>
    obtain ⟨name, -, rfl⟩ := Option.map_eq_some_iff.mp h
    rfl
  | endpointTicket =>
    cases h
    rfl
  | roomSecret =>
    cases h
    rfl

/-- A text that is written with characters alone. -/
theorem none_notMem_runes {bytes : Bytes} : none ∉ runes (encodeToString bytes) := by
  have hvalid : valid (encodeToString bytes) = true := repaired_eq_iff.mp repaired_encodeToString
  intro hnone
  have hall := List.all_eq_true.mp hvalid none hnone
  cases hall

theorem none_notMem_document {roomName : Option (List Char)} {ticket : List Char}
    {rs : List Rune} (h : documentValue roomName ticket secret field = some (.text rs)) :
    none ∉ rs := by
  have hchars : ∀ cs : List Char, none ∉ cs.map some := by simp
  cases field with
  | version => cases h
  | roomID =>
    rw [← Literal.text.inj (Option.some.inj h)]
    exact none_notMem_runes
  | roomName =>
    obtain ⟨name, -, hname⟩ := Option.map_eq_some_iff.mp h
    cases hname
    exact hchars name
  | endpointTicket =>
    rw [← Literal.text.inj (Option.some.inj h)]
    exact hchars ticket
  | roomSecret =>
    rw [← Literal.text.inj (Option.some.inj h)]
    exact none_notMem_runes

theorem documented_tolerated (h : IsDocumented value) :
    ∃ r, Reads value r ∧ Tolerated r ∧ ¬ Deviates r := by
  obtain ⟨body, members, rest, roomName, ticket, secret, hvalue, hscan, hrest, hperm, hname, hstart,
    hlength, hsecret⟩ := h
  have htidy : Tidy members := tidy_document.perm hperm.symm
  have hvalues : ∀ field, lastValue field members = documentValue roomName ticket secret field := by
    intro field
    rw [(htidy.perm_iff tidy_document).mp hperm, lastValue_document]
  have hfield : ∀ key value, (key, value) ∈ members → ∃ field : InviteField,
      documentValue roomName ticket secret field = some value ∧ key = field.key :=
    fun key value hmem => mem_document.mp (hperm.mem_iff.mp hmem)
  have hroomName : textOf (documentValue roomName ticket secret .roomName) = [] ∨
      valid (textOf (documentValue roomName ticket secret .roomName)) = true ∧
        (runes (textOf (documentValue roomName ticket secret .roomName))).length ≤ 64 := by
    cases roomName with
    | none => exact Or.inl rfl
    | some name =>
      right
      rw [documentValue, Option.map_some, textOf_chars, runes_encode, List.length_map]
      exact ⟨valid_encode, (hname name rfl).2⟩
  have hticket : encode ticket ≠ [] := by
    intro hnil
    rw [hnil] at hstart
    exact absurd hstart (by decide)
  refine ⟨⟨encodeToString body, body, members, rest, secret⟩, ⟨hvalue, decode_encode body, hscan⟩,
    ?_, ?_⟩
  · constructor
    · intro member hmem
      obtain ⟨field, hdocument, hkey⟩ := hfield member.1 member.2 hmem
      exact ⟨field, by rw [hkey, fieldOf_key], fits_documentValue hdocument⟩
    · exact hrest
    · rw [hvalues]
      rfl
    · rw [hvalues, documentValue, textOf_encoded, decode_encode]
    · rw [hvalues, hvalues, validateInviteFields_ok_iff]
      refine ⟨hsecret, hroomName, ?_⟩
      rw [documentValue, textOf_chars]
      exact ⟨hticket, hlength, hstart⟩
    · rw [hvalues]
      exact textOf_encoded
  · intro hdeviates
    cases hdeviates with
    | encoding hencoding => exact hencoding rfl
    | spelling member hmem hkey =>
      obtain ⟨field, hspelled⟩ := htidy.spelled member hmem
      exact hkey field hspelled
    | repeated hrepeated => exact hrepeated htidy.nodup
    | null key hnull => exact htidy.nonnull _ hnull rfl
    | malformed key rs hmem hnone =>
      obtain ⟨field, hdocument, -⟩ := hfield key _ hmem
      exact none_notMem_document hdocument hnone
    | secretEncoding hencoding =>
      rw [hvalues] at hencoding
      exact hencoding textOf_encoded
    | emptyName hempty =>
      rw [← htidy.lastValue_iff, hvalues] at hempty
      obtain ⟨name, hsome, htext⟩ := Option.map_eq_some_iff.mp hempty
      have hpositive := (hname name hsome).1
      rw [List.map_eq_nil_iff.mp (Literal.text.inj htext)] at hpositive
      exact absurd hpositive (by decide)

/-! ## What is tolerated and does not deviate is documented -/

theorem digits_grow {cs : List Char} {n : Nat} :
    n ≤ cs.foldl (fun n c => 10 * n + (c.toNat - '0'.toNat)) n := by
  induction cs generalizing n with
  | nil => exact Nat.le_refl n
  | cons c cs ih =>
    rw [List.foldl_cons]
    refine Nat.le_trans ?_ ih
    omega

/-- The number one has one text. -/
theorem literal_one {literal : List Char} (hnumber : IsNumber literal)
    (h : JsonObjects.parseInt64 literal = some 1) : literal = ['1'] := by
  have hvalue : JsonObjects.digitsValue literal = some 1 := by
    unfold JsonObjects.parseInt64 at h
    obtain ⟨h, -⟩ := Option.filter_eq_some_iff.mp h
    split at h
    · obtain ⟨n, hdigits, hn⟩ := Option.map_eq_some_iff.mp h
      obtain ⟨m, -, hm⟩ := Option.bind_eq_some_iff.mp hdigits
      have hcast : (m : Int) = n := Option.some.inj hm
      omega
    · obtain ⟨n, hdigits, hn⟩ := Option.map_eq_some_iff.mp h
      rw [hdigits, Int.ofNat_inj.mp hn]
  unfold JsonObjects.digitsValue at hvalue
  split at hvalue
  next hdigits =>
    have hfold := Option.some.inj hvalue
    have hall := List.all_eq_true.mp hdigits.2
    obtain rfl | ⟨c, cs, rfl, hc⟩ := isNumber_digits hnumber hall
    · exact absurd hfold (by decide)
    · have hdigit := hall c List.mem_cons_self
      rw [Char.isDigit, Bool.and_eq_true, decide_eq_true_eq, decide_eq_true_eq] at hdigit
      have hlow : 48 ≤ c.toNat := UInt32.le_iff_toNat_le.mp hdigit.1
      have hzero : '0'.toNat = 48 := rfl
      have hne : c.toNat ≠ 48 := fun heq => hc (Char.toNat_inj.mp heq)
      cases cs with
      | nil =>
        rw [List.foldl_cons, List.foldl_nil, hzero] at hfold
        have hone : c.toNat = '1'.toNat := by
          show c.toNat = 49
          omega
        rw [Char.toNat_inj.mp hone]
      | cons d ds =>
        rw [List.foldl_cons, List.foldl_cons, hzero] at hfold
        have hgrow := @digits_grow ds (10 * (10 * 0 + (c.toNat - 48)) + (d.toNat - 48))
        rw [hzero] at hgrow
        omega
  next => cases hvalue

theorem exists_chars {rs : List Rune} (h : none ∉ rs) : ∃ cs : List Char, rs = cs.map some := by
  induction rs with
  | nil => exact ⟨[], rfl⟩
  | cons rune rs ih =>
    rw [List.mem_cons, not_or] at h
    obtain ⟨cs, rfl⟩ := ih h.2
    obtain ⟨c, rfl⟩ := Option.ne_none_iff_exists'.mp (Ne.symm h.1)
    exact ⟨c :: cs, rfl⟩

theorem tidy_of_not_deviates (hdeviates : ¬ Deviates r) : Tidy r.members where
  spelled := fun member hmem => by
    apply Classical.byContradiction
    intro hkey
    exact hdeviates (.spelling member hmem fun field heq => hkey ⟨field, heq⟩)
  nonnull := fun member hmem hnull => hdeviates (.null member.1 (hnull ▸ hmem))
  nodup := Classical.byContradiction fun hrepeated => hdeviates (.repeated hrepeated)

/-- A field of text has a text of characters, or none. -/
theorem value_chars (h : Tolerated r) (hdeviates : ¬ Deviates r) (hfield : field ≠ .version) :
    lastValue field r.members = none ∨
      ∃ cs : List Char, lastValue field r.members = some (.text (cs.map some)) := by
  have htidy := tidy_of_not_deviates hdeviates
  cases hlast : lastValue field r.members with
  | none => exact Or.inl rfl
  | some value =>
    right
    have hmem := htidy.lastValue_iff.mp hlast
    have hnull := htidy.nonnull _ hmem
    obtain ⟨other, hother, hfits⟩ := h.members _ hmem
    rw [fieldOf_key] at hother
    cases hother
    cases value with
    | text rs =>
      obtain ⟨cs, rfl⟩ := exists_chars fun hnone => hdeviates (.malformed _ rs hmem hnone)
      exact ⟨cs, rfl⟩
    | null => exact absurd rfl hnull
    | bool => cases field <;> first | exact absurd rfl hfield | cases hfits
    | number => cases field <;> first | exact absurd rfl hfield | cases hfits

theorem value_text (h : Tolerated r) (hdeviates : ¬ Deviates r) (hfield : field ≠ .version)
    (hne : textOf (lastValue field r.members) ≠ []) :
    lastValue field r.members = some (.text (runes (textOf (lastValue field r.members)))) := by
  obtain hnone | ⟨cs, hchars⟩ := value_chars h hdeviates hfield
  · rw [hnone] at hne
    exact absurd rfl hne
  · rw [hchars, textOf_chars, runes_encode]

theorem encodeToString_ne_nil {bytes : Bytes} (h : bytes ≠ []) : encodeToString bytes ≠ [] := by
  intro hnil
  have hdecode := decode_encode bytes
  rw [hnil] at hdecode
  exact h (Option.some.inj hdecode).symm

theorem tolerated_documented (hreads : Reads value r) (h : Tolerated r) (hdeviates : ¬ Deviates r) :
    IsDocumented value := by
  obtain ⟨hvalue, hbody, hscan⟩ := hreads
  have htidy := tidy_of_not_deviates hdeviates
  obtain ⟨hsecret, hroomName, hticketne, hlength, hstart⟩ := validateInviteFields_ok_iff.mp h.limits
  have htext : r.text = encodeToString r.body :=
    Classical.byContradiction fun hne => hdeviates (.encoding hne)
  have hversion : lastValue .version r.members = some (.number ['1']) := by
    have hone := h.version
    have hzero : (0 : Int) ≠ Version := by decide
    cases hlast : lastValue .version r.members with
    | none =>
      rw [hlast] at hone
      exact absurd hone hzero
    | some value =>
      rw [hlast] at hone
      cases value with
      | number literal =>
        have hmem := htidy.lastValue_iff.mp hlast
        have hnumber := scanObject_number hscan _ hmem literal rfl
        cases hparse : JsonObjects.parseInt64 literal with
        | none =>
          rw [numberOf, hparse] at hone
          exact absurd hone hzero
        | some n =>
          rw [numberOf, hparse, Option.getD_some] at hone
          rw [hone] at hparse
          rw [literal_one hnumber hparse]
      | null => exact absurd hone hzero
      | bool => exact absurd hone hzero
      | text => exact absurd hone hzero
  have hroomID := @value_text r .roomID h hdeviates (by decide)
  rw [h.roomID] at hroomID
  have hroomSecret := @value_text r .roomSecret h hdeviates (by decide)
  have hcanonical : textOf (lastValue .roomSecret r.members) = encodeToString r.secret :=
    Classical.byContradiction fun hne => hdeviates (.secretEncoding hne)
  rw [hcanonical] at hroomSecret
  have hsecretne : r.secret ≠ [] := by
    intro hnil
    rw [hnil] at hsecret
    exact absurd hsecret (by decide)
  obtain hnone | ⟨ticket, hticket⟩ := @value_chars r .endpointTicket h hdeviates (by decide)
  · rw [hnone] at hticketne
    exact absurd rfl hticketne
  · rw [hticket, textOf_chars] at hticketne hlength hstart
    have hname : ∃ roomName : Option (List Char),
        lastValue .roomName r.members = roomName.map (fun name => .text (name.map some)) ∧
          ∀ name ∈ roomName, 1 ≤ name.length ∧ name.length ≤ 64 := by
      obtain hnone | ⟨name, hname⟩ := @value_chars r .roomName h hdeviates (by decide)
      · exact ⟨none, hnone, by simp⟩
      · refine ⟨some name, hname, ?_⟩
        intro other hother
        obtain rfl : name = other := Option.some.inj hother
        have hne : name ≠ [] := by
          rintro rfl
          exact hdeviates (.emptyName (htidy.lastValue_iff.mp hname))
        rw [hname, textOf_chars, runes_encode, List.length_map] at hroomName
        obtain hnil | ⟨-, hcount⟩ := hroomName
        · have hempty := congrArg runes hnil
          rw [runes_encode] at hempty
          exact absurd (List.map_eq_nil_iff.mp hempty) hne
        · exact ⟨List.length_pos_iff.mpr hne, hcount⟩
    obtain ⟨roomName, hname, hcount⟩ := hname
    refine ⟨r.body, r.members, r.rest, roomName, ticket, r.secret, htext ▸ hvalue, hscan, h.rest,
      ?_, hcount, hstart, hlength, hsecret⟩
    rw [htidy.perm_iff tidy_document]
    intro field
    rw [lastValue_document]
    cases field with
    | version => exact hversion
    | roomID => exact hroomID (encodeToString_ne_nil (by simp [sha256, bytesOf]))
    | roomName => exact hname
    | endpointTicket => exact hticket
    | roomSecret => exact hroomSecret (encodeToString_ne_nil hsecretne)

/-- The reader takes the documented invites and no others, except for those that it
tolerates. -/
theorem accepts_documented_iff (value : Bytes) :
    ((∃ invite secret, parseInvite value = .ok (invite, secret)) ↔ IsDocumented value) ↔
      ¬ IsLax value := by
  constructor
  · intro h hlax
    obtain ⟨r, hreads, htolerated, hdeviates⟩ := hlax
    obtain ⟨r', hreads', htolerated', hdeviates'⟩ :=
      documented_tolerated (h.mp (accepted_iff.mpr ⟨r, hreads, htolerated⟩))
    rw [reading_unique hreads htolerated hreads' htolerated'] at hdeviates
    exact hdeviates' hdeviates
  · intro hlax
    constructor
    · intro haccepted
      obtain ⟨r, hreads, htolerated⟩ := accepted_iff.mp haccepted
      exact tolerated_documented hreads htolerated fun hdeviates =>
        hlax ⟨r, hreads, htolerated, hdeviates⟩
    · intro hdocumented
      obtain ⟨r, hreads, htolerated, -⟩ := documented_tolerated hdocumented
      exact accepted_iff.mpr ⟨r, hreads, htolerated⟩

/-- A second version before that of the invite. -/
def repeatedVersion : Bytes :=
  let secret : Bytes := List.replicate 32 7
  writeObject ((InviteField.version.key, integer 0) ::
    inviteMembers ⟨Version, roomID secret, [], ascii "endpointabc", encodeToString secret⟩)

theorem accepts_documented_repeated : ¬ ∀ value : Bytes,
    ((∃ invite secret, parseInvite value = .ok (invite, secret)) ↔ IsDocumented value) := by
  intro h
  have haccepted : (parseInvite (InvitePrefix ++ encodeToString repeatedVersion)).toOption.isSome =
      true := by decide +kernel
  have hrepeated : (scanObject repeatedVersion).all
      (fun read => ¬ (read.1.map Prod.fst).Nodup) = true := by decide +kernel
  cases hparse : parseInvite (InvitePrefix ++ encodeToString repeatedVersion) with
  | error err =>
    rw [hparse] at haccepted
    cases haccepted
  | ok read =>
    obtain ⟨r, ⟨htext, hbody, hscan⟩, -, hdeviates⟩ :=
      documented_tolerated ((h _).mp ⟨read.1, read.2, hparse⟩)
    rw [← List.append_cancel_left htext, decode_encode] at hbody
    rw [← Option.some.inj hbody] at hscan
    rw [hscan, Option.all_some, decide_eq_true_eq] at hrepeated
    exact hdeviates (.repeated hrepeated)

end

end Pomodorough.Iroh
