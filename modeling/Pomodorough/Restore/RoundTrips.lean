import Pomodorough.Restore.NextSnapshots
import Pomodorough.Restore.WrittenManifests

/-! # A snapshot is restored as it was taken

When `restore_drill.py` accepts what its own `create_snapshot` wrote: the bounds are those
of the reader, which the writer does not check. -/
namespace Pomodorough.Restore.RoundTrips
open Pomodorough.Library.Fallible Pomodorough.Library.OrderedMaps
open Pomodorough.Library.JsonText Pomodorough.Library.TextBytes Pomodorough.Library.CanonicalRecords
open Pomodorough.Restore.Trees Pomodorough.Restore.Ledger Pomodorough.Restore.Lineage
open Pomodorough.Restore.Snapshots Pomodorough.Restore.Copies Pomodorough.Restore.RecoveryRecords
open Pomodorough.Restore.SnapshotSteps Pomodorough.Restore.NextSnapshots
open Pomodorough.Restore.WrittenManifests Pomodorough.Restore.LineageStates
open Pomodorough.Restore.Interruptions Pomodorough.Restore.ReceiptChains

/-! ## Verification -/

/-- A snapshot holds a pair of directories and the manifest that describes them. -/
structure Holds (host : Host) (snapshot : Snapshot) (manifest : Manifest) : Prop where
  describes : Describes host snapshot.data snapshot.ledger manifest
  manifest : snapshot.manifest = canonicalJson manifest.toJson
  checksum : snapshot.checksum = encode (host.sha256 snapshot.manifest ++ text "  manifest.json\n")
  dataNamed : Named snapshot.data
  ledgerNamed : Named snapshot.ledger

/-- The manifest is not too long to be read, its modes are permissions only, and both
directories can be copied under the umask of the reader. -/
structure Readable (umask : Mode) (snapshot : Snapshot) (manifest : Manifest) : Prop where
  size : snapshot.manifest.length ≤ manifestLimit
  modes : PlainModes manifest
  dataCopies : Reproducible umask snapshot.data
  ledgerCopies : Reproducible umask snapshot.ledger

section Verification
variable {host : Host} {umask : Mode} {snapshot : Snapshot} {manifest found : Manifest}
  {expected : Option Str}

theorem plain_separator {digest : Str} (h : isDigest digest = true) :
    ∀ c ∈ digest, isSeparator c = false := by
  intro c hc
  have hdigit := isDigest_hex h hc
  simp only [isHexDigit, isDigit, Bool.or_eq_true, Bool.and_eq_true, decide_eq_true_eq] at hdigit
  simp only [isSeparator, Bool.or_eq_false_iff, Bool.and_eq_false_iff, decide_eq_false_iff_not]
  omega

/-- The line of a checksum file has the digest and the name of the manifest. -/
theorem words_checksum {digest : Str} (h : isDigest digest = true) :
    words (digest ++ text "  manifest.json\n") = [digest, text "manifest.json"] := by
  have hline : text "  manifest.json\n" = 0x20 :: text " manifest.json\n" := rfl
  have hrest : (text " manifest.json\n").splitOnP isSeparator = [[], text "manifest.json", []] := by
    have hname : text " manifest.json\n" = [] ++ 0x20 :: (text "manifest.json" ++ 0x0a :: []) := rfl
    have hplain : ∀ c ∈ text "manifest.json", isSeparator c = false := by decide
    rw [hname, List.splitOnP_append_cons_of_forall_mem nofun _ (by decide), List.splitOnP_append_cons_of_forall_mem hplain _ (by decide),
      List.splitOnP_nil]
  have hne : digest ≠ [] := by
    intro hnil
    have hlength := isDigest_length h
    rw [hnil] at hlength
    cases hlength
  rw [words, hline, List.splitOnP_append_cons_of_forall_mem (plain_separator h) _ (by decide), hrest]
  simp [hne]
  decide

theorem decodeAscii_encode {s : Str} (h : Ascii s) : decodeAscii (encode s) = some s := by
  have hbytes : (encode s).map UInt8.toNat = s := by
    rw [encode, List.map_map]
    refine (List.map_congr_left fun c hc => ?_).trans (List.map_id s)
    exact toNat_ofNat (h c hc).2
  have hall : (encode s).all (·.toNat < 0x80) = true := by
    rw [List.all_eq_true]
    intro b hb
    obtain ⟨c, hc, rfl⟩ := List.mem_map.mp hb
    rw [toNat_ofNat (h c hc).2]
    exact decide_eq_true (h c hc).2
  rw [decodeAscii, if_pos hall, hbytes]

theorem ascii_digest {digest : Str} (h : isDigest digest = true) : Ascii digest := by
  intro c hc
  obtain ⟨hlow, hhigh, -⟩ := bare_of_isDigest h c hc
  omega

theorem readSnapshotManifest_written (hhost : WritesDigests host) (h : Holds host snapshot manifest)
    (hsize : snapshot.manifest.length ≤ manifestLimit)
    (hexpected : expected.all (· = host.sha256 snapshot.manifest) = true) :
    readSnapshotManifest host snapshot expected =
      .ok (sorted (manifestFields manifest), host.sha256 snapshot.manifest) := by
  have hsha := hhost.sha256 snapshot.manifest
  have hdigest : expected.all isDigest = true := by
    cases expected with
    | none => rfl
    | some digest =>
      have heq : digest = host.sha256 snapshot.manifest := by simpa using hexpected
      rw [heq]
      exact hsha
  have hlength : snapshot.checksum.length ≤ 256 := by
    rw [h.checksum, encode, List.length_map, List.length_append, isDigest_length hsha]
    decide
  have hascii : Ascii (host.sha256 snapshot.manifest ++ text "  manifest.json\n") :=
    (ascii_digest hsha).append (ascii_word (by decide))
  have hjson : strictJsonBytes host snapshot.manifest = .ok (sorted (manifestFields manifest)) := by
    rw [strictJsonBytes, h.manifest,
      loads_written host.parseFloat (h.describes.printable hhost h.dataNamed h.ledgerNamed)]
    rfl
  have hchecksum : decodeAscii snapshot.checksum =
      some (host.sha256 snapshot.manifest ++ text "  manifest.json\n") := by
    rw [h.checksum, decodeAscii_encode hascii]
  simp only [readSnapshotManifest, check, hsize, hdigest, hexpected, hlength, if_true, hchecksum,
    words_checksum hsha, hjson, bind, Except.bind]

/-- Verification passes on a readable snapshot and finds its manifest. -/
theorem verifySnapshot_passes (hhost : WritesDigests host) (h : Holds host snapshot manifest)
    (hreadable : Readable umask snapshot manifest)
    (hexpected : expected.all (· = host.sha256 snapshot.manifest) = true) :
    verifySnapshot host umask snapshot.still expected = .ok manifest := by
  have hdescribes := h.describes
  have hread := readSnapshotManifest_written hhost h hreadable.size hexpected
  have hschema := validateManifestSchema_written hhost h.dataNamed h.ledgerNamed hdescribes
    hreadable.modes
  have hdata := copyInventory_reproduces hreadable.dataCopies hdescribes.dataInventory
  have hledger := copyInventory_reproduces hreadable.ledgerCopies hdescribes.ledgerInventory
  have hequals := watermarkEquals_written (ledgerHighWatermark_of_valid hdescribes.highWatermark)
  have hunchanged (failure : Failure) : unchanged host snapshot.data snapshot.ledger
      manifest.dataInventory manifest.ledgerInventory failure = .ok () :=
    unchanged_iff.mpr ⟨hdescribes.dataInventory, hdescribes.ledgerInventory⟩
  have hcopy : validateSnapshotCopy host snapshot.data snapshot.ledger (schemaOf manifest) =
      .ok manifest.ledgerHighWatermark := by
    simp only [validateSnapshotCopy, hdescribes.highWatermark, hdescribes.lineage, schemaOf, hequals,
      hunchanged, check, if_true, bind, Except.bind]
  simp only [schemaOf] at hschema hcopy
  simp only [verifySnapshot, Snapshot.still, hread, hschema, hdescribes.dataInventory,
    hdescribes.ledgerInventory, hdata, hledger, hcopy, hunchanged, check, if_true, and_self, bind,
    Except.bind]

/-- Verification finds nothing but the manifest, and only on a readable snapshot. -/
theorem verifySnapshot_ok (h : Holds host snapshot manifest)
    (hrun : verifySnapshot host umask snapshot.still expected = .ok found) :
    (found.dataInventory = manifest.dataInventory ∧
        found.ledgerInventory = manifest.ledgerInventory) ∧
      expected.all (· = host.sha256 snapshot.manifest) = true ∧ Readable umask snapshot manifest := by
  have hdescribes := h.describes
  simp only [verifySnapshot, Snapshot.still, readSnapshotManifest, bind_ok_iff, check_ok_iff] at hrun
  obtain ⟨⟨fields, digest⟩, ⟨_, hsize, _, -, _, hexpected, -⟩, schema, hschema, dataInventory, hdata,
    ledgerInventory, hledger, _, ⟨rfl, rfl⟩, dataCopy, hdataCopy, ledgerCopy, hledgerCopy, watermark,
    hcopy, -, -, _, -, hfound⟩ := hrun
  cases hfound
  rw [hdescribes.dataInventory] at hdata
  rw [hdescribes.ledgerInventory] at hledger
  have hsameData := Except.ok.inj hdata
  have hsameLedger := Except.ok.inj hledger
  obtain ⟨hdataModes, hledgerModes⟩ := validateManifestSchema_modes hschema
  simp only [validateSnapshotCopy, bind_ok_iff, unchanged_iff] at hcopy
  obtain ⟨_, -, _, -, _, -, _, -, _, ⟨hdataNow, hledgerNow⟩, -⟩ := hcopy
  rw [← hsameData] at hdataCopy hdataNow hdataModes
  rw [← hsameLedger] at hledgerCopy hledgerNow hledgerModes
  refine ⟨⟨hsameData.symm, hsameLedger.symm⟩, check_ok_iff.mp hexpected, check_ok_iff.mp hsize,
    ⟨hdataModes, hledgerModes⟩, ?_, ?_⟩
  · exact reproducible_of_copy hdescribes.dataInventory hdataCopy hdataNow
  · exact reproducible_of_copy hdescribes.ledgerInventory hledgerCopy hledgerNow

end Verification

/-! ## Restore -/

section Restore
variable {host : Host} {umask : Mode} {snapshot : Snapshot} {manifest : Manifest}
  {dataDigest ledgerDigest : Str} {restored : Restored}

theorem find?_path {entries : List Entry} {entry : Entry} (hnodup : (entries.map Entry.path).Nodup)
    (h : entry ∈ entries) : entries.find? (·.path = entry.path) = some entry := by
  induction entries with
  | nil => cases h
  | cons other entries ih =>
    rw [List.map_cons, List.nodup_cons] at hnodup
    obtain ⟨hnot, hnodup⟩ := hnodup
    obtain rfl | h := List.mem_cons.mp h
    · simp
    · have hne : other.path ≠ entry.path := fun heq => hnot (heq ▸ List.mem_map_of_mem h)
      rw [List.find?_cons_of_neg (by simpa using hne), ih hnodup h]

/-- A ledger dominates itself. -/
theorem requireLedgerDominates_self (hnodup : (manifest.ledgerHighWatermark.map Prod.fst).Nodup)
    (hpaths : (manifest.ledgerInventory.map Entry.path).Nodup) :
    requireLedgerDominates manifest manifest = .ok () := by
  have haccounts : checkAll (requireAccountDominates manifest.ledgerHighWatermark)
      manifest.ledgerHighWatermark = .ok () := by
    refine checkAll_ok_iff.mpr fun account hmem => ?_
    obtain ⟨digest, highWatermark⟩ := account
    have hstale : staleRank highWatermark highWatermark = false := by
      cases hstate : highWatermark.state <;> simp [staleRank, hstate]
    simp only [requireAccountDominates, lookup_of_mem hnodup hmem, check, le_refl, hstale, if_true,
      bind, Except.bind]
  have hentries : checkAll (requireImmutableEntry manifest.ledgerInventory)
      manifest.ledgerInventory = .ok () := by
    refine checkAll_ok_iff.mpr fun entry hmem => ?_
    rw [requireImmutableEntry, check_ok_iff]
    intro hfile _
    have hkept : entry ∈ (manifest.ledgerInventory.filter Entry.isFile).reverse :=
      List.mem_reverse.mpr (List.mem_filter.mpr ⟨hmem, hfile⟩)
    refine find?_path ?_ hkept
    rw [List.map_reverse, List.nodup_reverse]
    exact hpaths.sublist (List.filter_sublist.map Entry.path)
  simp only [requireLedgerDominates, haccounts, hentries, check, le_refl, if_true, bind, Except.bind]

/-- What is restored from one snapshot is what it holds, exactly where it is readable. -/
theorem restoreSnapshot_iff (hhost : WritesDigests host) (h : Holds host snapshot manifest) :
    restoreSnapshot host umask snapshot.stillRestored snapshot.stillRestored dataDigest
        ledgerDigest = .ok restored ↔
      (dataDigest = host.sha256 snapshot.manifest ∧ ledgerDigest = host.sha256 snapshot.manifest ∧
        Readable umask snapshot manifest) ∧ restored = ⟨snapshot.data, snapshot.ledger⟩ := by
  have hdescribes := h.describes
  constructor
  · intro hrun
    simp only [restoreSnapshot, Snapshot.stillRestored, bind_ok_iff] at hrun
    obtain ⟨found, hfound, foundLedger, hfoundLedger, _, -, ledger, hledger, data, hdata, -, -, -, -,
      -, -, -, -, -, -, -, -, -, -, -, -, -, -, hrestored⟩ := hrun
    cases hrestored
    obtain ⟨⟨hsameData, -⟩, hdigest, hreadable⟩ := verifySnapshot_ok h hfound
    obtain ⟨⟨-, hsameLedger⟩, hledgerDigest, -⟩ := verifySnapshot_ok h hfoundLedger
    rw [hsameData, copyInventory_reproduces hreadable.dataCopies hdescribes.dataInventory] at hdata
    rw [hsameLedger, copyInventory_reproduces hreadable.ledgerCopies hdescribes.ledgerInventory] at hledger
    cases hdata
    cases hledger
    exact ⟨⟨by simpa using hdigest, by simpa using hledgerDigest, hreadable⟩, rfl⟩
  · intro hcondition
    obtain ⟨⟨rfl, rfl, hreadable⟩, rfl⟩ := hcondition
    have hverify : verifySnapshot host umask snapshot.still (some (host.sha256 snapshot.manifest)) =
        .ok manifest := verifySnapshot_passes hhost h hreadable (by simp)
    have hdata := copyInventory_reproduces hreadable.dataCopies hdescribes.dataInventory
    have hledger := copyInventory_reproduces hreadable.ledgerCopies hdescribes.ledgerInventory
    obtain ⟨hnodup, -⟩ := watermark_keys (ledgerHighWatermark_of_valid hdescribes.highWatermark)
    have hpaths : (manifest.ledgerInventory.map Entry.path).Nodup :=
      (inventory_ordered hdescribes.ledgerInventory).imp fun hlt => hlt.ne
    simp only [restoreSnapshot, Snapshot.stillRestored, hverify,
      requireLedgerDominates_self hnodup hpaths, hledger, hdata, hdescribes.highWatermark,
      hdescribes.lineage, hdescribes.dataInventory, hdescribes.ledgerInventory, check, if_true, bind,
      Except.bind]

end Restore

/-! ## Created snapshots -/

section Created
variable {host : Host} {umask : Mode} {timeNs : Nat} {fresh : RecoveryDomain}
  {tree tree' data ledger : Tree} {path : Str} {created : Created}

theorem fileName_of_noSlash (hslash : slash ∉ path) (hplain : PlainText path)
    (hname : path ≠ [] ∧ path ≠ text "." ∧ path ≠ text "..") : FileName path where
  valid := by
    have hhead : path.head? ≠ some slash := fun hhead => hslash (List.mem_of_head? hhead)
    rw [validInventoryPath, if_pos]
    refine ⟨hname.1, hhead, ?_⟩
    rw [List.splitOn_eq_singleton hslash]
    intro part hpart
    rwa [List.mem_singleton.mp hpart]
  plain := hplain

theorem fileName_receipt (sequence : Nat) : FileName (receiptName sequence) := by
  have hlong : receiptPrefix.length ≤ (receiptName sequence).length := by
    simp only [receiptName, List.length_append]
    omega
  refine fileName_of_noSlash (receiptName_noSlash sequence) (fun c hc => ?_) ⟨?_, ?_, ?_⟩
  · have hplain : PlainText receiptPrefix ∧ PlainText (text ".json") ∧ PlainText [0x30] := by decide
    simp only [receiptName, List.mem_append] at hc
    obtain ((hc | hc) | hc) | hc := hc
    · exact hplain.1 c hc
    · exact hplain.2.2 c (by rw [List.eq_of_mem_replicate hc]; exact List.mem_singleton_self _)
    · have hascii := ascii_decimal sequence c hc
      have hlow : ¬ 0xd800 ≤ c := by omega
      exact ⟨by omega, by simp [isHighSurrogate, hlow]⟩
    · exact hplain.2.1 c hc
  all_goals
    intro heq
    rw [heq] at hlong
    exact absurd hlong (by decide)

theorem named_write (h : Named tree) {node : Node} (hpath : FileName path) :
    Named (tree.write path node) := by
  intro other kept hfind
  by_cases heq : other = path
  · rw [heq]
    exact hpath
  · rw [OrderedMap.find?_write_of_ne heq] at hfind
    exact h other kept hfind

theorem named_keep (h : Named tree) (p : Str → Bool) : Named (tree.keep p) := by
  intro path node hfind
  rw [OrderedMap.find?_keep] at hfind
  split at hfind
  · exact h path node hfind
  · cases hfind

theorem named_writeNew (h : Named tree) {value : Json} (hpath : FileName path)
    (hrun : writeNew tree path value = .ok tree') : Named tree' := by
  obtain ⟨-, rfl⟩ := makeNew_ok hrun
  exact named_write h hpath

theorem named_cleanup (h : Named tree) (hrun : cleanupPendingRecovery tree = .ok tree') :
    Named tree' := by
  obtain ⟨_, -, hrun⟩ := bind_ok_iff.mp hrun
  cases hrun
  exact named_keep h _

/-- An advance adds files with names of the tool. -/
theorem named_advance {data' ledger' : Tree} (hdata : Named data) (hledger : Named ledger)
    (hrun : advanceRecoveryLineage host fresh data ledger = .ok (data', ledger')) :
    Named data' ∧ Named ledger' := by
  have hdomain : FileName recoveryDomainFile :=
    fileName_of_noSlash (by decide) (by decide) (by decide)
  have hbinding : FileName recoveryBindingFile :=
    fileName_of_noSlash (by decide) (by decide) (by decide)
  rw [advanceRecoveryLineage_eq] at hrun
  simp only [bind_ok_iff] at hrun
  obtain ⟨⟨domain, ensured⟩, hensure, ⟨sequence, previous, digest⟩, -, received, hreceipt, bound,
    hbound, hend⟩ := hrun
  cases hend
  have hensured : Named ensured := by
    unfold ensureRecoveryDomain at hensure
    split at hensure
    · cases hensure
      exact hledger
    · simp only [bind_ok_iff] at hensure
      obtain ⟨_, -, _, -, made, hmade, _, -, hend⟩ := hensure
      cases hend
      exact named_writeNew hledger hdomain hmade
    · cases hensure
  refine ⟨?_, named_writeNew hensured (fileName_receipt sequence) hreceipt⟩
  unfold writeOver at hbound
  split at hbound
  · cases hbound
  · cases hbound
    exact named_write hdata hbinding

/-- What a snapshot that passes leaves behind. -/
theorem takeSnapshot_holds (htime : 1 ≤ timeNs) (hdata : Named data) (hledger : Named ledger)
    (h : takeSnapshot host umask timeNs data ledger = .ok created) :
    Holds host created.snapshot created.manifest ∧
      created.snapshot.data = created.data ∧ created.snapshot.ledger = created.ledger := by
  simp only [takeSnapshot, bind_ok_iff] at h
  obtain ⟨dataBefore, hdataBefore, ledgerBefore, hledgerBefore, ledgerCopy, hledgerCopy, dataCopy,
    hdataCopy, _, _, manifest, hmanifest, _, hsame, _, hunchanged, hcreated⟩ := h
  obtain ⟨hdataNow, hledgerNow⟩ := unchanged_iff.mp hunchanged
  have hcopiesData := reproducible_of_copy hdataBefore hdataCopy hdataNow
  have hcopiesLedger := reproducible_of_copy hledgerBefore hledgerCopy hledgerNow
  rw [copyInventory_reproduces hcopiesData hdataBefore] at hdataCopy
  rw [copyInventory_reproduces hcopiesLedger hledgerBefore] at hledgerCopy
  cases hdataCopy
  cases hledgerCopy
  cases hcreated
  simp only [manifestPayload, bind_ok_iff] at hmanifest
  obtain ⟨lineage, hlineage, dataInventory, hdataInventory, ledgerInventory, hledgerInventory,
    watermark, hwatermark, hmade⟩ := hmanifest
  cases hmade
  exact ⟨⟨⟨htime, hdataInventory, hledgerInventory, hwatermark, hlineage⟩, rfl, rfl, hdata, hledger⟩,
    rfl, rfl⟩

theorem createSnapshot_holds (htime : 1 ≤ timeNs) (hdata : Named data) (hledger : Named ledger)
    (h : createSnapshot host umask timeNs fresh data ledger = .ok created) :
    Holds host created.snapshot created.manifest ∧
      created.snapshot.data = created.data ∧ created.snapshot.ledger = created.ledger := by
  rw [createSnapshot_eq] at h
  simp only [bind_ok_iff] at h
  obtain ⟨cleanData, hcleanData, cleanLedger, hcleanLedger, _, -, ⟨liveData, liveLedger⟩, hadvance,
    htaken⟩ := h
  obtain ⟨hliveData, hliveLedger⟩ :=
    named_advance (named_cleanup hdata hcleanData) (named_cleanup hledger hcleanLedger) hadvance
  exact takeSnapshot_holds htime hliveData hliveLedger htaken

/-- A created snapshot is restored, by its own digest and as the directories that
`create_snapshot` left, exactly where its manifest is not too long, its modes are permissions
only and its directories can be made under the umask of the restore. Nothing else is ever
restored from it. -/
theorem restore_created_iff (hhost : WritesDigests host) (htime : 1 ≤ timeNs) (hdata : Named data)
    (hledger : Named ledger)
    (h : createSnapshot host umask timeNs fresh data ledger = .ok created) (restoreUmask : Mode)
    (dataDigest ledgerDigest : Str) (restored : Restored) :
    restoreSnapshot host restoreUmask created.snapshot.stillRestored created.snapshot.stillRestored
        dataDigest ledgerDigest = .ok restored ↔
      (dataDigest = host.sha256 created.snapshot.manifest ∧
        ledgerDigest = host.sha256 created.snapshot.manifest ∧
        Readable restoreUmask created.snapshot created.manifest) ∧
      restored = ⟨created.data, created.ledger⟩ := by
  obtain ⟨hholds, hsameData, hsameLedger⟩ := createSnapshot_holds htime hdata hledger h
  rw [restoreSnapshot_iff hhost hholds, hsameData, hsameLedger]

end Created

theorem named_empty : Named .empty := by
  intro path node hfind
  cases hfind

/-- The first snapshot of two empty directories. -/
theorem restore_created_first : ∃ created,
    createSnapshot pythonHost 0o077 1 ⟨zeroDigest, zeroDigest⟩ .empty .empty = .ok created ∧
      ∀ restored, restoreSnapshot pythonHost 0o027 created.snapshot.stillRestored
          created.snapshot.stillRestored (pythonHost.sha256 created.snapshot.manifest)
          (pythonHost.sha256 created.snapshot.manifest) = .ok restored ↔
        (pythonHost.sha256 created.snapshot.manifest = pythonHost.sha256 created.snapshot.manifest ∧
          pythonHost.sha256 created.snapshot.manifest = pythonHost.sha256 created.snapshot.manifest ∧
          Readable 0o027 created.snapshot created.manifest) ∧
        restored = ⟨created.data, created.ledger⟩ := by
  have hsound : Sound pythonHost ⟨.empty, .empty⟩ := sound_start rfl rfl
  have hfresh : ValidDomain ⟨zeroDigest, zeroDigest⟩ := ⟨zeroDigest_isDigest, zeroDigest_isDigest⟩
  obtain ⟨created, -, -, -, hcreated, -, -⟩ := createSnapshot_passes 1 pythonHost_digests
    pythonHost_reads hfresh hsound
    ⟨⟨nofun, nofun, nofun⟩, ⟨nofun, nofun, nofun⟩, ⟨_, rfl⟩⟩ (by decide)
  exact ⟨created, hcreated, restore_created_iff pythonHost_digests le_rfl named_empty named_empty hcreated 0o027
    _ _⟩

end Pomodorough.Restore.RoundTrips
