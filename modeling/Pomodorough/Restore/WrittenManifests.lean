import Pomodorough.Library.CanonicalRecords
import Pomodorough.Restore.RecoveryRecords
import Pomodorough.Restore.Snapshots

/-! # Manifests are read back

The manifest that `create_snapshot` of `restore_drill.py` writes is the canonical JSON of
what it listed. Its schema is accepted entry by entry, up to the bound on modes that only the
reader checks. -/
namespace Pomodorough.Restore.WrittenManifests
open Pomodorough.Library.Fallible Pomodorough.Library.OrderedMaps
open Pomodorough.Library.JsonText Pomodorough.Library.TextBytes Pomodorough.Library.CanonicalRecords
open Pomodorough.Library.FlatRecords
open Pomodorough.Restore.Trees Pomodorough.Restore.Ledger Pomodorough.Restore.Lineage
open Pomodorough.Restore.Snapshots Pomodorough.Restore.RecoveryRecords

/-! ## Fields that are read back -/

section Fields
variable {fields : List (Str × Json)}

theorem field_sorted (h : (fields.map Prod.fst).Nodup) (key : String) :
    field (sorted fields) key = sortKeys (field fields key) := by
  rw [field, lookup_sorted h, field]
  cases fields.lookup (text key) with
  | none => rfl
  | some value => rfl

theorem hasKeys_keys {other : List (Str × Json)}
    (h : other.map Prod.fst = fields.map Prod.fst) (keys : List String) :
    hasKeys other keys = hasKeys fields keys := by
  have hnames (l : List (Str × Json)) : hasKeys l keys =
      ((l.map Prod.fst).all (fun name => keys.any fun key => text key == name) &&
        keys.all fun key => (l.map Prod.fst).any fun name => name == text key) := by
    simp [hasKeys, List.all_map, List.any_map, Function.comp_def]
  rw [hnames, hnames, h]

theorem hasKeys_sorted (fields : List (Str × Json)) (keys : List String) :
    hasKeys (sorted fields) keys = hasKeys fields keys := by
  rw [sorted, hasKeys_perm (sortFields_perm _), hasKeys_keys (keys_sortValues fields)]

end Fields

/-! ## Entries -/

/-- A path that a file system can name; a byte that is no text is a low surrogate there. -/
structure FileName (path : Str) : Prop where
  valid : validInventoryPath (.str path) = some path
  plain : PlainText path

def Named (tree : Tree) : Prop := ∀ path node, tree.find? path = some node → FileName path

/-- An entry as `inventory` makes it. -/
inductive Written : Entry → Prop where
  | file {path : Str} {mode size : Nat} {sha256 : Str} (hpath : FileName path)
      (hdigest : isDigest sha256 = true) : Written (.file path mode size sha256)
  | directory {path : Str} {mode : Nat} (hpath : FileName path) : Written (.directory path mode)

def entryFields : Entry → List (Str × Json)
  | .file path mode size sha256 => [(text "path", .str path), (text "mode", .int mode),
      (text "type", .str (text "file")), (text "size", .int size), (text "sha256", .str sha256)]
  | .directory path mode => [(text "path", .str path), (text "mode", .int mode),
      (text "type", .str (text "directory"))]

theorem toJson_entry (entry : Entry) : entry.toJson = .obj (entryFields entry) := by
  cases entry <;> rfl

theorem keys_entry (entry : Entry) : ((entryFields entry).map Prod.fst).Nodup := by
  cases entry with
  | file path mode size sha256 =>
    have hkeys : (["path", "mode", "type", "size", "sha256"].map text).Nodup := by decide
    exact hkeys
  | directory path mode =>
    have hkeys : (["path", "mode", "type"].map text).Nodup := by decide
    exact hkeys

theorem plain_digest {digest : Str} (h : isDigest digest = true) : PlainText digest :=
  (bare_of_isDigest h).plain

section Entries
variable {host : Host} {tree : Tree} {entry : Entry} {entries : List Entry} {previous : Str}

theorem written_inventory (hhost : WritesDigests host) (hnamed : Named tree)
    (h : inventory host tree = .ok entries) : ∀ entry ∈ entries, Written entry := by
  intro entry hmem
  obtain ⟨⟨path, node⟩, hitem, hentry⟩ := (mem_inventory h).mp hmem
  have hpath := hnamed path node (OrderedMap.find?_iff_mem.mpr hitem)
  cases node with
  | other => cases hentry
  | directory mode =>
    cases hentry
    exact .directory hpath
  | file mode contents =>
    cases hentry
    exact .file hpath (hhost.sha256 contents)

theorem Written.printable (h : Written entry) : Printable entry.toJson := by
  rw [toJson_entry]
  refine ⟨keys_entry entry, printableFields_iff.mpr ?_⟩
  cases h with
  | directory hpath =>
    simp only [entryFields, List.forall_mem_cons]
    exact ⟨⟨by decide, hpath.plain⟩, ⟨by decide, trivial⟩,
      ⟨by decide, (by decide : PlainText (text "directory"))⟩, nofun⟩
  | file hpath hdigest =>
    simp only [entryFields, List.forall_mem_cons]
    exact ⟨⟨by decide, hpath.plain⟩, ⟨by decide, trivial⟩,
      ⟨by decide, (by decide : PlainText (text "file"))⟩, ⟨by decide, trivial⟩,
      ⟨by decide, plain_digest hdigest⟩, nofun⟩

variable (previous) in
/-- An entry is accepted after an entry that comes before it. -/
theorem validateEntry_written (h : Written entry) (hmode : entry.mode ≤ 0o777)
    (hafter : previous < entry.path) :
    validateEntry previous (sortKeys entry.toJson) = .ok entry := by
  have hmodes : validMode (.int entry.mode) = some entry.mode := by
    have hbound : 0 ≤ (entry.mode : Int) ∧ (entry.mode : Int) ≤ 0o777 := by omega
    rw [validMode, intOrBool, Option.bind_some, if_pos hbound, Int.toNat_natCast]
  have hfield (key : String) : field (sorted (entryFields entry)) key =
      sortKeys (field (entryFields entry) key) := field_sorted (keys_entry entry) key
  rw [toJson_entry, sortKeys, ← sorted, validateEntry]
  cases h with
  | @directory path mode hpath =>
    have hpaths : field (sorted (entryFields (.directory path mode))) "path" = .str path := hfield _
    have htype : field (sorted (entryFields (.directory path mode))) "type" =
        .str (text "directory") := hfield _
    have hmodeField : field (sorted (entryFields (.directory path mode))) "mode" = .int mode :=
      hfield _
    have hschema : hasKeys (entryFields (.directory path mode)) ["path", "mode", "type"] = true := rfl
    have hfile : equalsStr (.str (text "directory")) (text "file") = false := by decide
    have hdirectory : equalsStr (.str (text "directory")) (text "directory") = true := by decide
    simp only [hpaths, hpath.valid, htype, hfile, hdirectory, hmodeField, Bool.false_eq_true,
      if_false, List.append_nil, hasKeys_sorted, hschema, Entry.mode] at hmodes ⊢
    simp [hmodes, check, show previous < path from hafter, bind, Except.bind]
  | @file path mode size sha256 hpath hdigest =>
    have hpaths : field (sorted (entryFields (.file path mode size sha256))) "path" = .str path :=
      hfield _
    have htype : field (sorted (entryFields (.file path mode size sha256))) "type" =
        .str (text "file") := hfield _
    have hmodeField : field (sorted (entryFields (.file path mode size sha256))) "mode" =
        .int mode := hfield _
    have hsize : field (sorted (entryFields (.file path mode size sha256))) "size" = .int size :=
      hfield _
    have hsha : field (sorted (entryFields (.file path mode size sha256))) "sha256" =
        .str sha256 := hfield _
    have hschema : hasKeys (entryFields (.file path mode size sha256))
        ["path", "mode", "type", "size", "sha256"] = true := rfl
    have hfile : equalsStr (.str (text "file")) (text "file") = true := by decide
    simp only [hpaths, hpath.valid, htype, hfile, hmodeField, if_true, List.cons_append,
      List.nil_append, hasKeys_sorted, hschema, validFileInventory, hsize, hsha,
      validHex_digest hdigest, Entry.mode] at hmodes ⊢
    simp [hmodes, check, show previous < path from hafter, bind, Except.bind]

theorem validateEntry_mode {item : Json} (h : validateEntry previous item = .ok entry) :
    entry.mode ≤ 0o777 := by
  have hvalid (value : Json) (mode : Nat) (hmode : validMode value = some mode) : mode ≤ 0o777 := by
    obtain ⟨n, -, hn⟩ := Option.bind_eq_some_iff.mp hmode
    split at hn
    · cases hn
      omega
    · cases hn
  unfold validateEntry at h
  split at h
  · split at h
    · cases h
    · obtain ⟨-, -, h⟩ := bind_ok_iff.mp h
      split at h
      · cases h
      · next mode hmode =>
        split at h
        · split at h
          · cases h
          · cases h
            exact hvalid _ _ hmode
        · split at h
          · cases h
            exact hvalid _ _ hmode
          · cases h
  · cases h

theorem validateEntries_mode {items : List Json} (h : validateEntries previous items = .ok entries) :
    ∀ entry ∈ entries, entry.mode ≤ 0o777 := by
  induction items generalizing previous entries with
  | nil =>
    cases h
    exact nofun
  | cons item items ih =>
    obtain ⟨entry, hentry, h⟩ := bind_ok_iff.mp h
    obtain ⟨rest, hrest, h⟩ := bind_ok_iff.mp h
    cases h
    exact List.forall_mem_cons.mpr ⟨validateEntry_mode hentry, ih hrest⟩

theorem validateEntries_written (h : ∀ entry ∈ entries, Written entry)
    (hmode : ∀ entry ∈ entries, entry.mode ≤ 0o777)
    (hordered : (entries.map Entry.path).Pairwise (· < ·))
    (hafter : ∀ entry ∈ entries, previous < entry.path) :
    validateEntries previous (entries.map fun entry => sortKeys entry.toJson) = .ok entries := by
  induction entries generalizing previous with
  | nil => rfl
  | cons entry entries ih =>
    obtain ⟨hentry, hrest⟩ := List.forall_mem_cons.mp h
    obtain ⟨hmodeEntry, hmodeRest⟩ := List.forall_mem_cons.mp hmode
    rw [List.map_cons, List.pairwise_cons] at hordered
    obtain ⟨hbefore, hordered⟩ := hordered
    have hlater := ih hrest hmodeRest hordered fun other hother =>
      hbefore other.path (List.mem_map_of_mem hother)
    rw [List.map_cons, validateEntries,
      validateEntry_written previous hentry hmodeEntry (hafter entry List.mem_cons_self)]
    simp only [bind, Except.bind, hlater]

theorem validateInventory_mode {value : Json} (h : validateInventory value = .ok entries) :
    ∀ entry ∈ entries, entry.mode ≤ 0o777 := by
  cases value <;> simp only [validateInventory, reduceCtorEq] at h
  exact validateEntries_mode h

/-- A listed directory is accepted in a manifest where its modes are permissions only. -/
theorem validateInventory_written (hhost : WritesDigests host) (hnamed : Named tree)
    (h : inventory host tree = .ok entries) (hmode : ∀ entry ∈ entries, entry.mode ≤ 0o777) :
    validateInventory (sortKeys (inventoryJson entries)) = .ok entries := by
  have hjson : sortKeys (inventoryJson entries) =
      .arr (entries.map fun entry => sortKeys entry.toJson) := by
    rw [inventoryJson, sortKeys, sortItems_eq_map, List.map_map]
    rfl
  have hwritten := written_inventory hhost hnamed h
  rw [hjson]
  refine validateEntries_written hwritten hmode (inventory_ordered h) fun entry hentry => ?_
  cases hpath : entry.path with
  | nil =>
    have hvalid : FileName entry.path := by
      cases hwritten entry hentry <;> assumption
    have hempty := hvalid.valid
    rw [hpath] at hempty
    cases hempty
  | cons c path => exact List.nil_lt_cons c path

theorem printable_inventory (h : ∀ entry ∈ entries, Written entry) :
    Printable (inventoryJson entries) := by
  refine printableItems_iff.mpr fun item hitem => ?_
  obtain ⟨entry, hentry, rfl⟩ := List.mem_map.mp hitem
  exact (h entry hentry).printable

end Entries

/-! ## The high watermark -/

section Watermark
variable {host : Host} {data ledger : Tree} {watermark : Watermark}

theorem recordEntries_nodup {records records' : List (Str × AccountRecords)} {names : List Str}
    (hnodup : (records.map Prod.fst).Nodup)
    (h : recordEntries host ledger records names = .ok records') :
    (records'.map Prod.fst).Nodup := by
  induction names generalizing records with
  | nil =>
    cases h
    exact hnodup
  | cons name names ih =>
    obtain ⟨middle, hstep, h⟩ := bind_ok_iff.mp h
    refine ih ?_ h
    unfold recordEntry at hstep
    split at hstep
    · obtain ⟨_, -, hstep⟩ := bind_ok_iff.mp hstep
      cases hstep
      exact nodup_upsert hnodup
    · split at hstep
      · obtain ⟨_, -, hstep⟩ := bind_ok_iff.mp hstep
        cases hstep
        exact nodup_upsert hnodup
      · obtain ⟨_, -, hstep⟩ := bind_ok_iff.mp hstep
        cases hstep
        exact hnodup

/-- A watermark has every account once, by its digest. -/
theorem watermark_keys (h : ledgerHighWatermark host ledger = .ok watermark) :
    (watermark.map Prod.fst).Nodup ∧ ∀ e ∈ watermark, isDigest e.1 = true := by
  obtain ⟨records, hrecords, hall⟩ := bind_ok_iff.mp h
  have hkeys : watermark.map Prod.fst = records.map Prod.fst := by
    refine mapAll_map hall fun e normalized he => ?_
    obtain ⟨_, -, heq⟩ := bind_ok_iff.mp he
    cases heq
    rfl
  have hnone : (([] : List (Str × AccountRecords)).map Prod.fst).Nodup := List.nodup_nil
  have hnodup : (records.map Prod.fst).Nodup := recordEntries_nodup hnone hrecords
  refine ⟨hkeys ▸ hnodup, fun e he => ?_⟩
  have hmem : e.1 ∈ records.map Prod.fst := hkeys ▸ List.mem_map_of_mem he
  obtain ⟨⟨digest, value⟩, hmem, heq⟩ := List.mem_map.mp hmem
  rw [← heq]
  exact ((collected_nil.run hrecords).key digest value (lookup_of_mem hnodup hmem)).1

def watermarkFields (watermark : Watermark) : List (Str × Json) :=
  watermark.map fun e => (e.1, HighWatermark.toJson e.2)

theorem keys_watermarkFields : (watermarkFields watermark).map Prod.fst = watermark.map Prod.fst := by
  rw [watermarkFields, List.map_map]
  rfl

def accountFields (highWatermark : HighWatermark) : List (Str × Json) :=
  [(text "generation", .int highWatermark.generation),
    (text "state", .str (stateText highWatermark.state)),
    (text "lifecycleGeneration", .int highWatermark.lifecycleGeneration),
    (text "deletedGeneration", .int highWatermark.deletedGeneration)]

theorem keys_accountFields (highWatermark : HighWatermark) :
    ((accountFields highWatermark).map Prod.fst).Nodup := by
  have hkeys :
      (["generation", "state", "lifecycleGeneration", "deletedGeneration"].map text).Nodup := by decide
  exact hkeys

theorem printable_watermark (h : ledgerHighWatermark host ledger = .ok watermark) :
    Printable (watermarkJson watermark) := by
  obtain ⟨hnodup, hdigests⟩ := watermark_keys h
  refine ⟨keys_watermarkFields ▸ hnodup, printableFields_iff.mpr fun e he => ?_⟩
  obtain ⟨⟨digest, highWatermark⟩, hmem, rfl⟩ := List.mem_map.mp he
  refine ⟨plain_digest (hdigests _ hmem), keys_accountFields highWatermark,
    printableFields_iff.mpr ?_⟩
  have hstate : PlainText (stateText highWatermark.state) := by
    cases highWatermark.state <;> decide
  simp only [List.forall_mem_cons]
  exact ⟨⟨by decide, trivial⟩, ⟨by decide, hstate⟩, ⟨by decide, trivial⟩, ⟨by decide, trivial⟩,
    nofun⟩

theorem equals_written (highWatermark : HighWatermark) :
    HighWatermark.equals highWatermark (sortKeys (HighWatermark.toJson highWatermark)) = true := by
  have hfield (key : String) : field (sorted (accountFields highWatermark)) key =
      sortKeys (field (accountFields highWatermark) key) :=
    field_sorted (keys_accountFields highWatermark) key
  have hgeneration : field (sorted (accountFields highWatermark)) "generation" =
      .int highWatermark.generation := hfield _
  have hstate : field (sorted (accountFields highWatermark)) "state" =
      .str (stateText highWatermark.state) := hfield _
  have hlifecycle : field (sorted (accountFields highWatermark)) "lifecycleGeneration" =
      .int highWatermark.lifecycleGeneration := hfield _
  have hdeleted : field (sorted (accountFields highWatermark)) "deletedGeneration" =
      .int highWatermark.deletedGeneration := hfield _
  have hschema : hasKeys (accountFields highWatermark)
      ["generation", "state", "lifecycleGeneration", "deletedGeneration"] = true := rfl
  rw [HighWatermark.toJson, ← accountFields, sortKeys, ← sorted, HighWatermark.equals, hasKeys_sorted,
    hschema, hgeneration, hstate, hlifecycle, hdeleted]
  simp [equalsInt, equalsStr]

theorem watermarkEquals_written (h : ledgerHighWatermark host ledger = .ok watermark) :
    watermarkEquals watermark (sorted (watermarkFields watermark)) = true := by
  obtain ⟨hnodup, -⟩ := watermark_keys h
  have hkeys : ((watermarkFields watermark).map Prod.fst).Nodup := keys_watermarkFields ▸ hnodup
  rw [watermarkEquals, Bool.and_eq_true, beq_iff_eq, List.all_eq_true]
  refine ⟨by rw [length_sorted, watermarkFields, List.length_map], fun e he => ?_⟩
  obtain ⟨digest, highWatermark⟩ := e
  have hmem : (digest, HighWatermark.toJson highWatermark) ∈ watermarkFields watermark :=
    List.mem_map.mpr ⟨_, he, rfl⟩
  simp only [lookup_sorted hkeys, lookup_of_mem hkeys hmem]
  exact equals_written highWatermark

end Watermark

/-! ## Manifests -/

def manifestFields (manifest : Manifest) : List (Str × Json) :=
  [(text "version", .int SNAPSHOT_VERSION),
    (text "createdAtUnixNs", .int manifest.createdAtUnixNs),
    (text "dataInventory", inventoryJson manifest.dataInventory),
    (text "ledgerInventory", inventoryJson manifest.ledgerInventory),
    (text "ledgerHighWatermark", watermarkJson manifest.ledgerHighWatermark),
    (text "recoveryDomainId", .str manifest.lineage.recoveryDomainId),
    (text "recoverySequence", .int manifest.lineage.recoverySequence),
    (text "recoveryReceiptSha256", .str manifest.lineage.recoveryReceiptSha256),
    (text "dataInventorySha256", .str manifest.lineage.dataInventorySha256)]

/-- A manifest is that of a pair of directories. -/
structure Describes (host : Host) (data ledger : Tree) (manifest : Manifest) : Prop where
  createdAtUnixNs : 1 ≤ manifest.createdAtUnixNs
  dataInventory : inventory host data = .ok manifest.dataInventory
  ledgerInventory : inventory host ledger = .ok manifest.ledgerInventory
  highWatermark : validateDataAgainstLedger host data ledger = .ok manifest.ledgerHighWatermark
  lineage : validateRecoveryLineage host data ledger = .ok manifest.lineage

/-- The modes of a pair of directories are permissions only. -/
def PlainModes (manifest : Manifest) : Prop :=
  (∀ entry ∈ manifest.dataInventory, entry.mode ≤ 0o777) ∧
    ∀ entry ∈ manifest.ledgerInventory, entry.mode ≤ 0o777

/-- What the schema of a written manifest is read as. -/
def schemaOf (manifest : Manifest) : ManifestSchema where
  createdAtUnixNs := manifest.createdAtUnixNs
  dataInventory := manifest.dataInventory
  ledgerInventory := manifest.ledgerInventory
  ledgerHighWatermark := sorted (watermarkFields manifest.ledgerHighWatermark)
  lineage := manifest.lineage

section Manifests
variable {host : Host} {data ledger : Tree} {manifest : Manifest} {lineage : RecoveryLineage}

theorem isDigest_validHex {value : Json} {digest : Str} (h : validHex value = some digest) :
    isDigest digest = true := by
  cases value <;> simp only [validHex, reduceCtorEq] at h
  split at h
  · next hdigest =>
    cases h
    exact hdigest
  · cases h

theorem validGeneration_some {value : Json} {n : Nat} (h : validGeneration value = some n) :
    1 ≤ n ∧ n ≤ MAX_SAFE_REVISION := by
  cases value <;> simp only [validGeneration, reduceCtorEq] at h
  split at h
  · cases h
    omega
  · cases h

/-- What a lineage is written with. -/
structure ValidLineage (lineage : RecoveryLineage) : Prop where
  recoveryDomainId : isDigest lineage.recoveryDomainId = true
  recoverySequence : 1 ≤ lineage.recoverySequence ∧ lineage.recoverySequence ≤ MAX_SAFE_REVISION
  recoveryReceiptSha256 : isDigest lineage.recoveryReceiptSha256 = true
  dataInventorySha256 : isDigest lineage.dataInventorySha256 = true

def ValidReceipt (receipt : RecoveryReceipt) : Prop :=
  isDigest receipt.receiptSha256 = true ∧ isDigest receipt.dataInventorySha256 = true

theorem loadRecoveryDomain_id {domain : RecoveryDomain}
    (h : loadRecoveryDomain host ledger = .ok domain) : isDigest domain.domainId = true := by
  simp only [loadRecoveryDomain, bind_ok_iff] at h
  obtain ⟨_, -, _, -, h⟩ := h
  split at h
  · next hid _ =>
    cases h
    exact isDigest_validHex hid
  · cases h

theorem parseRecoveryReceipt_valid (hhost : WritesDigests host) {domain : RecoveryDomain} {path : Str}
    {sequence : Nat} {previous : Str} {receipt : RecoveryReceipt}
    (h : parseRecoveryReceipt host domain ledger path sequence previous = .ok receipt) :
    ValidReceipt receipt := by
  simp only [parseRecoveryReceipt, bind_ok_iff] at h
  obtain ⟨⟨fields, contents⟩, -, _, -, h⟩ := h
  split at h
  · cases h
  · next digest hdigest =>
    simp only [bind_ok_iff] at h
    obtain ⟨_, -, _, -, h⟩ := h
    cases h
    exact ⟨hhost.sha256 contents, isDigest_validHex hdigest⟩

theorem loadReceiptsFrom_valid (hhost : WritesDigests host) {domain : RecoveryDomain}
    {expected : Nat} {previous : Str} {paths : List (Nat × Str)} {receipts : List RecoveryReceipt}
    (h : loadReceiptsFrom host domain ledger expected previous paths = .ok receipts) :
    ∀ receipt ∈ receipts, ValidReceipt receipt := by
  induction paths generalizing expected previous receipts with
  | nil =>
    cases h
    exact nofun
  | cons path paths ih =>
    simp only [loadReceiptsFrom, bind_ok_iff] at h
    obtain ⟨_, -, receipt, hreceipt, rest, hrest, h⟩ := h
    cases h
    exact List.forall_mem_cons.mpr ⟨parseRecoveryReceipt_valid hhost hreceipt, ih hrest⟩

theorem parseRecoveryBinding_valid {domain : RecoveryDomain} {receipts : List RecoveryReceipt}
    {fields : List (Str × Json)} {binding : RecoveryBinding}
    (h : parseRecoveryBinding host domain receipts fields = .ok binding) :
    (1 ≤ binding.sequence ∧ binding.sequence ≤ MAX_SAFE_REVISION) ∧
      ∃ receipt ∈ receipts, binding.receiptSha256 = receipt.receiptSha256 ∧
        binding.dataInventorySha256 = receipt.dataInventorySha256 := by
  simp only [parseRecoveryBinding, bind_ok_iff] at h
  obtain ⟨_, -, h⟩ := h
  split at h
  · cases h
  · next sequence receipt hfound =>
    obtain ⟨_, -, h⟩ := bind_ok_iff.mp h
    cases h
    obtain ⟨found, hsequence, hnamed⟩ := Option.bind_eq_some_iff.mp hfound
    obtain ⟨named, hindex, heq⟩ := Option.map_eq_some_iff.mp hnamed
    cases heq
    exact ⟨validGeneration_some hsequence, receipt, List.mem_of_getElem? hindex, rfl, rfl⟩

theorem validLineage (hhost : WritesDigests host)
    (h : validateRecoveryLineage host data ledger = .ok lineage) : ValidLineage lineage := by
  simp only [validateRecoveryLineage, bind_ok_iff] at h
  obtain ⟨domain, hdomain, receipts, hreceipts, found, hfound, _, -, h⟩ := h
  obtain ⟨paths, -, hreceipts⟩ := bind_ok_iff.mp hreceipts
  split at h
  · cases h
  · next binding =>
    obtain ⟨_, -, h⟩ := bind_ok_iff.mp h
    cases h
    unfold loadRecoveryBinding at hfound
    split at hfound
    · cases hfound
    · cases hfound
    · obtain ⟨parsed, hparsed, heq⟩ := bind_ok_iff.mp hfound
      cases heq
      obtain ⟨hsequence, receipt, hmem, hreceipt, hdata⟩ := parseRecoveryBinding_valid hparsed
      obtain ⟨hsha, hdigest⟩ := loadReceiptsFrom_valid hhost hreceipts receipt hmem
      exact ⟨loadRecoveryDomain_id hdomain, hsequence, hreceipt ▸ hsha, hdata ▸ hdigest⟩

theorem keys_manifestFields (manifest : Manifest) :
    ((manifestFields manifest).map Prod.fst).Nodup := by
  have hkeys : (manifestKeys.map text).Nodup := by decide
  exact hkeys

theorem ledgerHighWatermark_of_valid {watermark : Watermark}
    (h : validateDataAgainstLedger host data ledger = .ok watermark) :
    ledgerHighWatermark host ledger = .ok watermark := by
  simp only [validateDataAgainstLedger, bind_ok_iff] at h
  obtain ⟨found, hfound, _, -, _, -, h⟩ := h
  cases h
  exact hfound

theorem unchanged_iff {dataInventory ledgerInventory : List Entry}
    {failure : Failure} {u : Unit} :
    unchanged host data ledger dataInventory ledgerInventory failure = .ok u ↔
      inventory host data = .ok dataInventory ∧ inventory host ledger = .ok ledgerInventory := by
  simp only [unchanged, bind_ok_iff, check_ok_iff]
  constructor
  · intro h
    obtain ⟨_, hdata, _, hledger, rfl, rfl⟩ := h
    exact ⟨hdata, hledger⟩
  · intro h
    exact ⟨_, h.1, _, h.2, rfl, rfl⟩

theorem Describes.printable (hhost : WritesDigests host) (hdata : Named data)
    (hledger : Named ledger) (h : Describes host data ledger manifest) :
    Printable manifest.toJson := by
  refine ⟨keys_manifestFields manifest, printableFields_iff.mpr ?_⟩
  have hlineage := validLineage hhost h.lineage
  simp only [List.forall_mem_cons]
  exact ⟨⟨by decide, trivial⟩, ⟨by decide, trivial⟩,
    ⟨by decide, printable_inventory (written_inventory hhost hdata h.dataInventory)⟩,
    ⟨by decide, printable_inventory (written_inventory hhost hledger h.ledgerInventory)⟩,
    ⟨by decide, printable_watermark (ledgerHighWatermark_of_valid h.highWatermark)⟩,
    ⟨by decide, plain_digest hlineage.recoveryDomainId⟩, ⟨by decide, trivial⟩,
    ⟨by decide, plain_digest hlineage.recoveryReceiptSha256⟩,
    ⟨by decide, plain_digest hlineage.dataInventorySha256⟩, nofun⟩

theorem validateManifestSchema_modes {fields : List (Str × Json)} {schema : ManifestSchema}
    (h : validateManifestSchema fields = .ok schema) :
    (∀ entry ∈ schema.dataInventory, entry.mode ≤ 0o777) ∧
      ∀ entry ∈ schema.ledgerInventory, entry.mode ≤ 0o777 := by
  unfold validateManifestSchema at h
  obtain ⟨_, -, h⟩ := bind_ok_iff.mp h
  split at h
  · simp only [bind_ok_iff] at h
    obtain ⟨_, -, _, -, _, -, dataInventory, hdata, ledgerInventory, hledger, h⟩ := h
    split at h
    · cases h
      exact ⟨validateInventory_mode hdata, validateInventory_mode hledger⟩
    · cases h
  · cases h

/-- The schema of a written manifest is accepted where its modes are permissions only. -/
theorem validateManifestSchema_written (hhost : WritesDigests host) (hdata : Named data)
    (hledger : Named ledger) (h : Describes host data ledger manifest) (hmodes : PlainModes manifest) :
    validateManifestSchema (sorted (manifestFields manifest)) = .ok (schemaOf manifest) := by
  have hlineage := validLineage hhost h.lineage
  have hfield (key : String) : field (sorted (manifestFields manifest)) key =
      sortKeys (field (manifestFields manifest) key) :=
    field_sorted (keys_manifestFields manifest) key
  have hversion : field (sorted (manifestFields manifest)) "version" = .int SNAPSHOT_VERSION :=
    hfield _
  have hcreated : field (sorted (manifestFields manifest)) "createdAtUnixNs" =
      .int manifest.createdAtUnixNs := hfield _
  have hdataField : field (sorted (manifestFields manifest)) "dataInventory" =
      sortKeys (inventoryJson manifest.dataInventory) := hfield _
  have hledgerField : field (sorted (manifestFields manifest)) "ledgerInventory" =
      sortKeys (inventoryJson manifest.ledgerInventory) := hfield _
  have hwatermark : field (sorted (manifestFields manifest)) "ledgerHighWatermark" =
      .obj (sorted (watermarkFields manifest.ledgerHighWatermark)) := hfield _
  have hid : field (sorted (manifestFields manifest)) "recoveryDomainId" =
      .str manifest.lineage.recoveryDomainId := hfield _
  have hsequence : field (sorted (manifestFields manifest)) "recoverySequence" =
      .int manifest.lineage.recoverySequence := hfield _
  have hreceipt : field (sorted (manifestFields manifest)) "recoveryReceiptSha256" =
      .str manifest.lineage.recoveryReceiptSha256 := hfield _
  have hdigest : field (sorted (manifestFields manifest)) "dataInventorySha256" =
      .str manifest.lineage.dataInventorySha256 := hfield _
  have hschema : hasKeys (sorted (manifestFields manifest)) manifestKeys = true := by
    rw [hasKeys_sorted]
    rfl
  have hpositive : validPositiveInteger (.int manifest.createdAtUnixNs) =
      some manifest.createdAtUnixNs := by
    have hbound : 1 ≤ (manifest.createdAtUnixNs : Int) := by exact_mod_cast h.createdAtUnixNs
    rw [validPositiveInteger, if_pos hbound, Int.toNat_natCast]
  have hgeneration : validGeneration (.int manifest.lineage.recoverySequence) =
      some manifest.lineage.recoverySequence := by
    have hvalid : 1 ≤ (manifest.lineage.recoverySequence : Int) ∧
        (manifest.lineage.recoverySequence : Int) ≤ MAX_SAFE_REVISION := by
      obtain ⟨hlow, hhigh⟩ := hlineage.recoverySequence
      omega
    rw [validGeneration, if_pos hvalid, Int.toNat_natCast]
  have hdataRun := validateInventory_written hhost hdata h.dataInventory hmodes.1
  have hledgerRun := validateInventory_written hhost hledger h.ledgerInventory hmodes.2
  simp only [validateManifestSchema, hschema, hversion, hcreated, hpositive, hsequence, hgeneration,
    manifestDigest, hid, hreceipt, hdigest, validHex_digest hlineage.recoveryDomainId,
    validHex_digest hlineage.recoveryReceiptSha256, validHex_digest hlineage.dataInventorySha256,
    hdataField, hledgerField, hwatermark, hdataRun, hledgerRun, bind, Except.bind]
  rfl

end Manifests

end Pomodorough.Restore.WrittenManifests
