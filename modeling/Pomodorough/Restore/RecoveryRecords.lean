import Pomodorough.Library.FlatRecords
import Pomodorough.Restore.Lineage

/-! # Recovery records are read back

What `restore_drill.py` writes as a private record it accepts when it reads it again: the
recovery domain, each receipt after the one it continues, and a binding to one of them. -/
namespace Pomodorough.Restore.RecoveryRecords
open Pomodorough.Library.Fallible Pomodorough.Library.OrderedMaps Pomodorough.Library.FlatRecords
open Pomodorough.Library.JsonText Pomodorough.Library.TextBytes
open Pomodorough.Restore.Trees Pomodorough.Restore.Lineage

/-- Digests are written as 64 hexadecimal digits. -/
structure WritesDigests (host : Host) : Prop where
  sha256 : ∀ contents, isDigest (host.sha256 contents) = true
  hmacSha256 : ∀ key contents, isDigest (host.hmacSha256 key contents) = true

/-- What the file of a private record holds. -/
def recordNode (value : Json) : Node := .file 0o600 (canonicalJson value)

/-! ## Fields in another order -/

section Fields
variable {fields fields' : List (Str × Json)} {keys : List String}

theorem field_perm (hperm : fields'.Perm fields) (h : (fields.map Prod.fst).Nodup) (key : String) :
    field fields' key = field fields key := by
  rw [field, lookup_perm hperm.symm h, field]

theorem hasKeys_perm (hperm : fields'.Perm fields) (keys : List String) :
    hasKeys fields' keys = hasKeys fields keys := by
  have hany (p : Str × Json → Bool) : fields'.any p = fields.any p := hperm.any_eq
  simp only [hasKeys, hperm.all_eq, hany]

end Fields

/-! ## Digests in records -/

section Digests
variable {digest : Str}

theorem bare_of_isDigest (h : isDigest digest = true) : Bare digest := by
  intro c hc
  simp only [isDigest, Bool.and_eq_true, List.all_eq_true] at h
  have hdigit := h.2 c hc
  simp only [isHexDigit, isDigit, Bool.or_eq_true, Bool.and_eq_true, decide_eq_true_eq] at hdigit
  refine ⟨by omega, by omega, ?_, ?_⟩
  · intro (hquote : c = 0x22)
    omega
  · intro (hbackslash : c = 0x5c)
    omega

theorem length_print_digest (h : isDigest digest = true) : (print (.str digest)).length = 66 := by
  rw [print, length_printString (bare_of_isDigest h)]
  simp only [isDigest, Bool.and_eq_true, beq_iff_eq] at h
  rw [h.1]

theorem validHex_digest (h : isDigest digest = true) : validHex (.str digest) = some digest :=
  if_pos h

theorem length_decimal {n : Nat} (h : n < 10 ^ 16) : (decimal n).length ≤ 16 := by
  rw [decimal, List.length_map]
  exact (Nat.length_toDigits_le_iff (by decide) (by decide)).mpr h

theorem length_print_sequence {n : Nat} (h : n ≤ MAX_SAFE_REVISION) :
    (print (.int n)).length ≤ 16 :=
  length_decimal (lt_of_le_of_lt h (by decide))

end Digests

/-! ## Reading a written record -/

section Reading
variable {host : Host} {tree : Tree} {path : Str} {fields : List (Str × Json)}

theorem strictJsonBytes_written (h : Flat fields) :
    strictJsonBytes host (canonicalJson (.obj fields)) = .ok (sortFields fields) := by
  rw [strictJsonBytes, h.loads]

variable (host) in
/-- A written record is read with the same fields, in another order. -/
theorem privateJson_written (hfind : tree.find? path = some (recordNode (.obj fields)))
    (h : Flat fields) (hsize : size fields ≤ 4093) :
    ∃ sorted, privateJson host tree path = .ok (sorted, canonicalJson (.obj fields)) ∧
      (∀ key, field sorted key = field fields key) ∧
      ∀ keys, hasKeys sorted keys = hasKeys fields keys := by
  have hlength := h.length_canonicalJson
  have hlong : ¬ 4096 < (canonicalJson (.obj fields)).length := by omega
  have hperm := sortFields_perm fields
  refine ⟨sortFields fields, ?_, field_perm hperm h.distinct, hasKeys_perm hperm⟩
  simp [privateJson, readRegular, hfind, recordNode, hlong, check, strictJsonBytes_written h, bind,
    Except.bind]

theorem privateJson_missing (hfind : tree.find? path = none) :
    privateJson host tree path = .error .fileNotFound := by
  simp [privateJson, readRegular, hfind, bind, Except.bind]

end Reading

/-! ## The domain -/

def domainFields (domain : RecoveryDomain) : List (Str × Json) :=
  [(text "version", .int 1), (text "domainId", .str domain.domainId),
    (text "authenticationKey", .str domain.authenticationKey)]

/-- An identity and a key of 32 bytes. -/
structure ValidDomain (domain : RecoveryDomain) : Prop where
  domainId : isDigest domain.domainId = true
  authenticationKey : isDigest domain.authenticationKey = true

section Domain
variable {host : Host} {ledger : Tree} {domain : RecoveryDomain}

theorem flat_domain (h : ValidDomain domain) : Flat (domainFields domain) where
  distinct := by
    have hkeys : (["version", "domainId", "authenticationKey"].map text).Nodup := by decide
    exact hkeys
  bare := by
    simp only [domainFields, List.forall_mem_cons]
    exact ⟨⟨by decide, .int 1⟩, ⟨by decide, .str (bare_of_isDigest h.domainId)⟩,
      ⟨by decide, .str (bare_of_isDigest h.authenticationKey)⟩, nofun⟩

theorem size_domain (h : ValidDomain domain) : size (domainFields domain) ≤ 4093 := by
  have hversion : (print (.int 1)).length = 1 := by decide
  simp only [domainFields, size_cons, size_nil, hversion, length_print_digest h.domainId,
    length_print_digest h.authenticationKey]
  decide

theorem loadRecoveryDomain_written (h : ValidDomain domain)
    (hfind : ledger.find? recoveryDomainFile = some (recordNode (.obj (domainFields domain)))) :
    loadRecoveryDomain host ledger = .ok domain := by
  obtain ⟨sorted, hread, hfield, hkeys⟩ :=
    privateJson_written host hfind (flat_domain h) (size_domain h)
  have hschema : hasKeys (domainFields domain) ["version", "domainId", "authenticationKey"] = true :=
    rfl
  have hversion : field (domainFields domain) "version" = .int 1 := rfl
  have hid : field (domainFields domain) "domainId" = .str domain.domainId := rfl
  have hkey : field (domainFields domain) "authenticationKey" = .str domain.authenticationKey := rfl
  simp only [loadRecoveryDomain, hread, bind, Except.bind, hkeys, hfield, hschema, hversion, hid,
    hkey, validHex_digest h.domainId, validHex_digest h.authenticationKey]
  rfl

end Domain

/-! ## Tagged records -/

def taggedFields (host : Host) (domain : RecoveryDomain) (payload : List (Str × Json)) :
    List (Str × Json) :=
  payload ++ [(text "authenticationTag", .str (recoveryTag host domain (.obj payload)))]

section Tagged
variable {host : Host} {domain : RecoveryDomain} {payload : List (Str × Json)}

theorem flat_tagged (hhost : WritesDigests host) (h : Flat payload)
    (hkey : text "authenticationTag" ∉ payload.map Prod.fst) :
    Flat (taggedFields host domain payload) :=
  h.snoc hkey (by decide) (.str (bare_of_isDigest (hhost.hmacSha256 _ _)))

theorem size_tagged (hhost : WritesDigests host) :
    size (taggedFields host domain payload) = size payload + 87 := by
  have htag : (print (.str (recoveryTag host domain (.obj payload)))).length = 66 :=
    length_print_digest (hhost.hmacSha256 _ _)
  rw [taggedFields, size_perm List.perm_append_comm, List.singleton_append, size_cons, htag,
    Nat.add_comm]
  rfl

end Tagged

/-! ## Receipts -/

def receiptPayload (domain : RecoveryDomain) (sequence : Nat) (previous dataDigest : Str) :
    List (Str × Json) :=
  [(text "version", .int 1), (text "domainId", .str domain.domainId),
    (text "sequence", .int sequence), (text "previousReceiptSha256", .str previous),
    (text "dataInventorySha256", .str dataDigest)]

/-- What a written receipt is read as. -/
def receiptOf (host : Host) (domain : RecoveryDomain) (sequence : Nat)
    (previous dataDigest : Str) : RecoveryReceipt where
  sequence := sequence
  dataInventorySha256 := dataDigest
  receiptSha256 := host.sha256 (canonicalJson (receiptJson host domain sequence previous dataDigest))

section Receipts
variable {host : Host} {domain : RecoveryDomain} {ledger : Tree} {path : Str} {sequence : Nat}
  {previous dataDigest : Str}

theorem flat_receipt (hhost : WritesDigests host) (hdomain : ValidDomain domain)
    (hprevious : isDigest previous = true) (hdigest : isDigest dataDigest = true) :
    Flat (taggedFields host domain (receiptPayload domain sequence previous dataDigest)) := by
  refine flat_tagged hhost ⟨?_, ?_⟩ ?_
  · have hkeys : (receiptKeys.map text).Nodup := by decide
    exact hkeys
  · simp only [receiptPayload, List.forall_mem_cons]
    exact ⟨⟨by decide, .int 1⟩, ⟨by decide, .str (bare_of_isDigest hdomain.domainId)⟩,
      ⟨by decide, .int sequence⟩, ⟨by decide, .str (bare_of_isDigest hprevious)⟩,
      ⟨by decide, .str (bare_of_isDigest hdigest)⟩, nofun⟩
  · have hkeys : text "authenticationTag" ∉ receiptKeys.map text := by decide
    exact hkeys

theorem size_receipt (hhost : WritesDigests host) (hdomain : ValidDomain domain)
    (hprevious : isDigest previous = true) (hdigest : isDigest dataDigest = true)
    (hsequence : sequence ≤ MAX_SAFE_REVISION) :
    size (taggedFields host domain (receiptPayload domain sequence previous dataDigest)) ≤ 4093 := by
  have hversion : (print (.int 1)).length = 1 := by decide
  have hkeys : (receiptKeys.map fun key => (text key).length).sum = 63 := by decide
  simp only [receiptKeys, List.map_cons, List.map_nil, List.sum_cons, List.sum_nil] at hkeys
  have hint := length_print_sequence hsequence
  rw [size_tagged hhost]
  simp only [receiptPayload, size_cons, size_nil, hversion, length_print_digest hdomain.domainId,
    length_print_digest hprevious, length_print_digest hdigest]
  omega

/-- A written receipt is accepted after the one it continues. -/
theorem parseRecoveryReceipt_written (hhost : WritesDigests host) (hdomain : ValidDomain domain)
    (hprevious : isDigest previous = true) (hdigest : isDigest dataDigest = true)
    (hsequence : sequence ≤ MAX_SAFE_REVISION)
    (hfind : ledger.find? path =
      some (recordNode (receiptJson host domain sequence previous dataDigest))) :
    parseRecoveryReceipt host domain ledger path sequence previous =
      .ok (receiptOf host domain sequence previous dataDigest) := by
  obtain ⟨sorted, hread, hfield, hkeys⟩ :=
    privateJson_written host hfind (flat_receipt hhost hdomain hprevious hdigest)
      (size_receipt hhost hdomain hprevious hdigest hsequence)
  have hschema : hasKeys sorted (receiptKeys ++ ["authenticationTag"]) = true := hkeys _
  have hversion : field sorted "version" = .int 1 := hfield _
  have hsequence : field sorted "sequence" = .int sequence := hfield _
  have hbefore : field sorted "previousReceiptSha256" = .str previous := hfield _
  have hdata : field sorted "dataInventorySha256" = .str dataDigest := hfield _
  have hid : field sorted "domainId" = .str domain.domainId := hfield _
  have hpayload : payloadOf sorted receiptKeys =
      .obj (receiptPayload domain sequence previous dataDigest) := by
    simp only [payloadOf, hfield]
    rfl
  have htag : validHex (field sorted "authenticationTag") =
      some (recoveryTag host domain (payloadOf sorted receiptKeys)) := by
    rw [hpayload, hfield]
    exact validHex_digest (hhost.hmacSha256 _ _)
  simp only [parseRecoveryReceipt, hread, bind, Except.bind, hschema, hversion, hsequence, hbefore,
    hdata, hid, htag, validHex_digest hdigest]
  simp [equalsInt, equalsStr, check, receiptOf]
  rfl

end Receipts

/-! ## Bindings -/

def bindingPayload (domain : RecoveryDomain) (receipt : RecoveryReceipt) : List (Str × Json) :=
  [(text "version", .int 1), (text "domainId", .str domain.domainId),
    (text "sequence", .int receipt.sequence), (text "receiptSha256", .str receipt.receiptSha256),
    (text "dataInventorySha256", .str receipt.dataInventorySha256)]

def bindingJson (host : Host) (domain : RecoveryDomain) (receipt : RecoveryReceipt) : Json :=
  tagged host domain (bindingPayload domain receipt)

/-- The binding to a receipt, as it is read. -/
def bindingOf (receipt : RecoveryReceipt) : RecoveryBinding where
  sequence := receipt.sequence
  receiptSha256 := receipt.receiptSha256
  dataInventorySha256 := receipt.dataInventorySha256

section Bindings
variable {host : Host} {domain : RecoveryDomain} {data : Tree} {receipt : RecoveryReceipt}
  {receipts : List RecoveryReceipt}

theorem flat_binding (hhost : WritesDigests host) (hdomain : ValidDomain domain)
    (hreceipt : isDigest receipt.receiptSha256 = true)
    (hdigest : isDigest receipt.dataInventorySha256 = true) :
    Flat (taggedFields host domain (bindingPayload domain receipt)) := by
  refine flat_tagged hhost ⟨?_, ?_⟩ ?_
  · have hkeys : (bindingKeys.map text).Nodup := by decide
    exact hkeys
  · simp only [bindingPayload, List.forall_mem_cons]
    exact ⟨⟨by decide, .int 1⟩, ⟨by decide, .str (bare_of_isDigest hdomain.domainId)⟩,
      ⟨by decide, .int receipt.sequence⟩, ⟨by decide, .str (bare_of_isDigest hreceipt)⟩,
      ⟨by decide, .str (bare_of_isDigest hdigest)⟩, nofun⟩
  · have hkeys : text "authenticationTag" ∉ bindingKeys.map text := by decide
    exact hkeys

theorem size_binding (hhost : WritesDigests host) (hdomain : ValidDomain domain)
    (hreceipt : isDigest receipt.receiptSha256 = true)
    (hdigest : isDigest receipt.dataInventorySha256 = true)
    (hsequence : receipt.sequence ≤ MAX_SAFE_REVISION) :
    size (taggedFields host domain (bindingPayload domain receipt)) ≤ 4093 := by
  have hversion : (print (.int 1)).length = 1 := by decide
  have hkeys : (bindingKeys.map fun key => (text key).length).sum = 55 := by decide
  simp only [bindingKeys, List.map_cons, List.map_nil, List.sum_cons, List.sum_nil] at hkeys
  have hint := length_print_sequence hsequence
  rw [size_tagged hhost]
  simp only [bindingPayload, size_cons, size_nil, hversion, length_print_digest hdomain.domainId,
    length_print_digest hreceipt, length_print_digest hdigest]
  omega

/-- A written binding is accepted beside the receipt it names. -/
theorem loadRecoveryBinding_written (hhost : WritesDigests host) (hdomain : ValidDomain domain)
    (hreceipt : isDigest receipt.receiptSha256 = true)
    (hdigest : isDigest receipt.dataInventorySha256 = true)
    (hpositive : 1 ≤ receipt.sequence) (hsequence : receipt.sequence ≤ MAX_SAFE_REVISION)
    (hnamed : receipts[receipt.sequence - 1]? = some receipt)
    (hfind : data.find? recoveryBindingFile = some (recordNode (bindingJson host domain receipt)))
    (required : Bool) :
    loadRecoveryBinding host data domain receipts required = .ok (some (bindingOf receipt)) := by
  obtain ⟨sorted, hread, hfield, hkeys⟩ :=
    privateJson_written host hfind (flat_binding hhost hdomain hreceipt hdigest)
      (size_binding hhost hdomain hreceipt hdigest hsequence)
  have hschema : hasKeys sorted (bindingKeys ++ ["authenticationTag"]) = true := hkeys _
  have hversion : field sorted "version" = .int 1 := hfield _
  have hlink : field sorted "sequence" = .int receipt.sequence := hfield _
  have hsha : field sorted "receiptSha256" = .str receipt.receiptSha256 := hfield _
  have hdata : field sorted "dataInventorySha256" = .str receipt.dataInventorySha256 := hfield _
  have hid : field sorted "domainId" = .str domain.domainId := hfield _
  have hpayload : payloadOf sorted bindingKeys = .obj (bindingPayload domain receipt) := by
    simp only [payloadOf, hfield]
    rfl
  have htag : validHex (field sorted "authenticationTag") =
      some (recoveryTag host domain (payloadOf sorted bindingKeys)) := by
    rw [hpayload, hfield]
    exact validHex_digest (hhost.hmacSha256 _ _)
  have hgeneration : validGeneration (.int receipt.sequence) = some receipt.sequence := by
    have hvalid : 1 ≤ (receipt.sequence : Int) ∧ (receipt.sequence : Int) ≤ MAX_SAFE_REVISION := by
      omega
    rw [validGeneration, if_pos hvalid, Int.toNat_natCast]
  simp only [loadRecoveryBinding, hread, parseRecoveryBinding, bind, Except.bind, hschema, hversion,
    hlink, hgeneration, Option.bind_some, hnamed, Option.map_some, hsha, hdata, hid, htag]
  simp [equalsInt, equalsStr, check, bindingOf]

theorem loadRecoveryBinding_missing (hfind : data.find? recoveryBindingFile = none) :
    loadRecoveryBinding host data domain receipts false = .ok none := by
  simp [loadRecoveryBinding, privateJson_missing hfind]

end Bindings

/-! ## The names of receipts -/

section Names
variable {sequence other : Nat}

theorem digitsValue_zeros (zeros : Nat) (sequence : Nat) :
    digitsValue (List.replicate zeros 0x30 ++ decimal sequence) = sequence := by
  induction zeros with
  | zero => exact digitsValue_decimal sequence
  | succ zeros ih => exact ih

/-- The name of a receipt has its number. -/
theorem recoveryReceiptFile_receiptName (h : sequence ≤ MAX_SAFE_REVISION) :
    recoveryReceiptFile (receiptName sequence) = some sequence := by
  let digits := List.replicate (16 - (decimal sequence).length) 0x30 ++ decimal sequence
  have hname : receiptName sequence = receiptPrefix ++ (digits ++ text ".json") := by
    simp [receiptName, digits]
  have hlength : digits.length = 16 := by
    have hle := length_decimal (lt_of_le_of_lt h (by decide : MAX_SAFE_REVISION < 10 ^ 16))
    simp only [digits, List.length_append, List.length_replicate]
    omega
  have hdigits : digits.all isDigit = true := by
    rw [List.all_eq_true]
    intro c hc
    obtain hc | hc := List.mem_append.mp hc
    · rw [List.eq_of_mem_replicate hc]
      rfl
    · exact decimal_isDigit hc
  rw [recoveryReceiptFile, hname, List.isPrefixOf?_eq_some_iff_append_eq.mpr rfl, Option.bind_some,
    List.take_left' hlength, List.drop_left' hlength, if_pos ⟨hlength, hdigits, rfl⟩,
    digitsValue_zeros]

theorem receiptName_injective (h : sequence ≤ MAX_SAFE_REVISION) (hother : other ≤ MAX_SAFE_REVISION)
    (heq : receiptName sequence = receiptName other) : sequence = other := by
  have hnumber := recoveryReceiptFile_receiptName h
  rw [heq, recoveryReceiptFile_receiptName hother] at hnumber
  exact (Option.some.inj hnumber).symm

theorem receiptName_starts (sequence : Nat) :
    receiptPrefix.isPrefixOf (receiptName sequence) = true := by
  rw [List.isPrefixOf_iff_prefix, receiptName, List.append_assoc, List.append_assoc]
  exact List.prefix_append _ _

theorem receiptName_noSlash (sequence : Nat) : slash ∉ receiptName sequence := by
  simp only [receiptName, List.mem_append, not_or]
  refine ⟨⟨⟨by decide, ?_⟩, ?_⟩, by decide⟩
  · intro hmem
    cases List.eq_of_mem_replicate hmem
  · intro hmem
    cases decimal_isDigit hmem

end Names

end Pomodorough.Restore.RecoveryRecords
