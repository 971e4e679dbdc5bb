import Mathlib.Data.List.MinMax
import Pomodorough.Library.Sha256
import Pomodorough.Restore.Interruptions

/-! # The snapshot after an interruption

Whatever runs of `create_snapshot` have left in account data and ledger, the next one that
nothing stops continues the chain of receipts by one and binds the data to it, where the
directories without the files of the tool are such that it takes a first snapshot of them. -/
namespace Pomodorough.Restore.NextSnapshots
open Pomodorough.Library.AtomicSteps Pomodorough.Library.Fallible Pomodorough.Library.OrderedMaps
open Pomodorough.Library Pomodorough.Library.JsonText Pomodorough.Library.TextBytes
open Pomodorough.Restore.Trees Pomodorough.Restore.Ledger Pomodorough.Restore.Lineage
open Pomodorough.Restore.Snapshots Pomodorough.Restore.Copies Pomodorough.Restore.RecoveryRecords
open Pomodorough.Restore.ReceiptChains Pomodorough.Restore.RecoveryFiles
open Pomodorough.Restore.LineageStates Pomodorough.Restore.SnapshotSteps
open Pomodorough.Restore.Interruptions

section Next
variable {host : Host} {umask : Mode} {timeNs : Nat} {fresh domain : RecoveryDomain}
  {digests : List Str} {storage : Storage} {data ledger data' ledger' : Tree}

theorem writeNew_agree {names : Str → Bool} {tree tree' : Tree} {path : Str} {value : Json}
    (hfiles : ∀ other, names other = true → FileOrNone (tree.find? other)) (hpath : names path = true)
    (h : writeNew tree path value = .ok tree') : AgreeBeside names tree tree' := by
  obtain ⟨-, rfl⟩ := makeNew_ok h
  exact agreeBeside_write hpath hfiles

/-- An advance writes only files of the tool. -/
theorem advance_agree (hdata : ∀ path, isDataName path = true → FileOrNone (data.find? path))
    (hledger : ∀ path, isLedgerName path = true → FileOrNone (ledger.find? path))
    (h : advanceRecoveryLineage host fresh data ledger = .ok (data', ledger')) :
    AgreeBeside isDataName data data' ∧ AgreeBeside isLedgerName ledger ledger' := by
  rw [advanceRecoveryLineage_eq] at h
  simp only [bind_ok_iff] at h
  obtain ⟨⟨domain, ensured⟩, hensure, ⟨sequence, previous, digest⟩, -, received, hreceipt, bound,
    hbinding, hend⟩ := h
  cases hend
  have hensured : AgreeBeside isLedgerName ledger ensured := by
    unfold ensureRecoveryDomain at hensure
    split at hensure
    · cases hensure
      exact ⟨fun _ _ => rfl, fun path hpath => ⟨hledger path hpath, hledger path hpath⟩⟩
    · simp only [bind_ok_iff] at hensure
      obtain ⟨_, -, _, -, made, hmade, _, -, hend⟩ := hensure
      cases hend
      exact writeNew_agree hledger isLedgerName_domain hmade
    · cases hensure
  refine ⟨?_, hensured.trans (writeNew_agree (fun path hpath => (hensured.files path hpath).2)
    (isLedgerName_receipt (isReceiptName_receiptName sequence)) hreceipt)⟩
  unfold writeOver at hbinding
  split at hbinding
  · cases hbinding
  · cases hbinding
    exact agreeBeside_write isDataName_binding hdata

/-- Both directories can be copied, and the check of the one against the other passes. -/
structure Taken (host : Host) (umask : Mode) (data ledger : Tree) : Prop where
  dataCopies : Reproducible umask data
  ledgerCopies : Reproducible umask ledger
  valid : ∃ watermark, validateDataAgainstLedger host data ledger = .ok watermark

theorem Taken.agree (hreads : ReadsOwnDirectory host) (h : Taken host umask data ledger)
    (hdata : AgreeBeside isDataName data data') (hledger : AgreeBeside isLedgerName ledger ledger') :
    Taken host umask data' ledger' where
  dataCopies := hdata.reproducible (fun _ hpath => (hidden_data hpath).noSlash) h.dataCopies
  ledgerCopies := hledger.reproducible (fun _ hpath => (hidden_ledger hpath).noSlash) h.ledgerCopies
  valid := by
    obtain ⟨watermark, hvalid⟩ := h.valid
    refine ⟨watermark, ?_⟩
    have hdata' : accountData data' = accountData data := AgreeBeside.keep_eq hdata
    have hledger' : accountLedger ledger' = accountLedger ledger := AgreeBeside.keep_eq hledger
    rw [← validateDataAgainstLedger_account hreads, hdata', hledger',
      validateDataAgainstLedger_account hreads, hvalid]

/-- The copies that were made are the directories. -/
theorem taken_of_snapshot {created : Created}
    (hvalid : ∃ watermark, validateDataAgainstLedger host data ledger = .ok watermark)
    (h : takeSnapshot host umask timeNs data ledger = .ok created) : Taken host umask data ledger := by
  simp only [takeSnapshot, bind_ok_iff] at h
  obtain ⟨dataBefore, hdata, ledgerBefore, hledger, ledgerCopy, hledgerCopy, dataCopy, hdataCopy, _, _,
    _, _, _, _, _, hunchanged, -⟩ := h
  simp only [unchanged, bind_ok_iff, check_ok_iff] at hunchanged
  obtain ⟨dataNow, hdataNow, ledgerNow, hledgerNow, rfl, rfl⟩ := hunchanged
  exact ⟨reproducible_of_copy hdata hdataCopy hdataNow,
    reproducible_of_copy hledger hledgerCopy hledgerNow, hvalid⟩

variable (timeNs) in
/-- A snapshot of directories that were taken before passes when their lineage is valid. -/
theorem takeSnapshot_passes (h : Taken host umask data ledger) {lineage : RecoveryLineage}
    (hlineage : validateRecoveryLineage host data ledger = .ok lineage) :
    ∃ created, takeSnapshot host umask timeNs data ledger = .ok created := by
  obtain ⟨dataBefore, hdata⟩ := inventory_succeeds host h.dataCopies.supported
  obtain ⟨ledgerBefore, hledger⟩ := inventory_succeeds host h.ledgerCopies.supported
  obtain ⟨watermark, hvalid⟩ := h.valid
  have hunchanged (failure : Failure) :
      unchanged host data ledger dataBefore ledgerBefore failure = .ok () := by
    simp [unchanged, hdata, hledger, check, bind, Except.bind]
  have hmanifest : manifestPayload host timeNs data ledger =
      .ok ⟨timeNs, dataBefore, ledgerBefore, watermark, lineage⟩ := by
    simp [manifestPayload, hlineage, hdata, hledger, hvalid, bind, Except.bind]
  simp only [takeSnapshot, hdata, hledger, copyInventory_reproduces h.dataCopies hdata,
    copyInventory_reproduces h.ledgerCopies hledger, hunchanged, hmanifest, bind, Except.bind, check,
    and_self, if_true]
  exact ⟨_, rfl⟩

end Next

/-! ## The files of the tool -/

section Files
variable {host : Host} {domain : RecoveryDomain} {digests : List Str} {storage : Storage}

theorem dataFiles (h : Sound host storage) (path : Str) (hpath : isDataName path = true) :
    FileOrNone (storage.data.find? path) := by
  rw [isDataName, Bool.or_eq_true, beq_iff_eq] at hpath
  obtain rfl | hpath := hpath
  · obtain hnew | ⟨domain, digests, hold⟩ := h.lineage
    · rw [hnew.binding]
      trivial
    · exact hold.fileOrNone
  · exact h.data path hpath

theorem ledgerFiles (h : Sound host storage) (path : Str) (hpath : isLedgerName path = true) :
    FileOrNone (storage.ledger.find? path) := by
  rw [isLedgerName, Bool.or_eq_true, Bool.or_eq_true, beq_iff_eq] at hpath
  obtain (rfl | hpath) | hpath := hpath
  · obtain hnew | ⟨domain, digests, hold⟩ := h.lineage
    · rw [hnew.domainFile]
      trivial
    · rw [hold.domainFile]
      trivial
  · obtain ⟨hstarts, hslash⟩ := isReceiptName_iff.mp hpath
    by_cases hfind : storage.ledger.find? path = none
    · rw [hfind]
      trivial
    obtain hnew | ⟨domain, digests, hold⟩ := h.lineage
    · obtain ⟨k, hone, hk, -⟩ := hnew.names.only path hslash hstarts hfind
      omega
    · obtain ⟨k, hone, hk, rfl⟩ := hold.names.only path hslash hstarts hfind
      obtain ⟨value, hvalue⟩ := hold.receipts.file hone (by omega)
      rw [hvalue]
      trivial
  · exact h.ledger path hpath

end Files

/-! ## The next receipt -/

/-- The data is bound to the last receipt, which is of the data as it is. -/
structure Current (host : Host) (domain : RecoveryDomain) (digests : List Str) (storage : Storage)
    (receipt : RecoveryReceipt) : Prop where
  established : Established host domain digests storage
  clean : Clean storage
  last : (chain host domain digests).getLast? = some receipt
  binding : storage.data.find? recoveryBindingFile = some (recordNode (bindingJson host domain receipt))
  digest : HasDigest host storage.data receipt.dataInventorySha256

section Receipt
variable {host : Host} {fresh domain : RecoveryDomain} {digests : List Str} {storage : Storage}
  {receipt : RecoveryReceipt}

theorem Current.index (h : Current host domain digests storage receipt) :
    (chain host domain digests)[digests.length - 1]? = some receipt := by
  have hlast := h.last
  rwa [List.getLast?_eq_getElem?, length_chain] at hlast

theorem Current.sequence (h : Current host domain digests storage receipt) :
    receipt.sequence = digests.length := by
  obtain ⟨hsequence, -⟩ := mem_chainFrom h.index
  have hlt := (List.getElem?_eq_some_iff.mp h.index).1
  rw [length_chain] at hlt
  omega

theorem Current.loadBinding (hhost : WritesDigests host)
    (h : Current host domain digests storage receipt) :
    loadRecoveryBinding host storage.data domain (chain host domain digests) true =
      .ok (some (bindingOf receipt)) :=
  h.established.loadBinding hhost h.index h.binding true

/-- The lineage of data that is bound to the last receipt is valid. -/
theorem Current.validate (hhost : WritesDigests host)
    (h : Current host domain digests storage receipt) :
    validateRecoveryLineage host storage.data storage.ledger =
      .ok ⟨domain.domainId, digests.length, receipt.receiptSha256, receipt.dataInventorySha256⟩ := by
  obtain ⟨entries, hentries, hsha⟩ := h.digest
  have hstate : dataStateInventory host storage.data = .ok entries :=
    (dataStateInventory_eq h.clean h.established.fileOrNone).trans hentries
  have hsequence := h.sequence
  simp [validateRecoveryLineage, h.established.loadDomain, h.established.loadReceipts hhost,
    h.loadBinding hhost, hstate, hsha, bindingOf, hsequence, check, bind, Except.bind]

/-- The lineage advances by one receipt. -/
theorem advance_passes (hhost : WritesDigests host) (hfresh : ValidDomain fresh)
    (h : Sound host storage) (hclean : Clean storage) {digest : Str}
    (hdigest : HasDigest host storage.data digest)
    (hcount : (receiptFiles storage.ledger).length < MAX_SAFE_REVISION) :
    ∃ (domain : RecoveryDomain) (digests : List Str) (receipt : RecoveryReceipt) (live : Storage),
      advanceRecoveryLineage host fresh storage.data storage.ledger = .ok (live.data, live.ledger) ∧
      Current host domain digests live receipt ∧
      digests.length = (receiptFiles storage.ledger).length + 1 := by
  obtain ⟨domain, digests, ledger, hensure, hold, hlength⟩ := ensureRecoveryDomain_sound hfresh h
  have hnext : digests.length + 1 ≤ MAX_SAFE_REVISION := by omega
  have hplan := (planReceipt_iff hhost hold hclean).mpr ⟨digest, hdigest, hnext, rfl⟩
  have hreceipt := hold.writeReceipt hhost hdigest hnext
  have hlast : (chain host domain (digests ++ [digest])).getLast? =
      some (nextReceipt host domain digests digest) := by
    rw [chain_snoc, List.getLast?_concat]
  have hindex : (chain host domain (digests ++ [digest]))[digests.length]? =
      some (nextReceipt host domain digests digest) := by
    rwa [List.getLast?_eq_getElem?, length_chain, List.length_append] at hlast
  have hbound := hreceipt.writeBinding hindex
  refine ⟨domain, digests ++ [digest], nextReceipt host domain digests digest, _, ?_,
    ⟨hbound, ?_, hlast, OrderedMap.find?_write_self, ?_⟩, by simp [hlength]⟩
  · have hnew : writeNew ledger (receiptName (digests.length + 1)) (receiptJson host domain
        (digests.length + 1) (lastDigest zeroDigest (chain host domain digests)) digest) =
        .ok (ledger.write (receiptName (digests.length + 1))
          (nextReceiptNode host domain digests digest)) := by
      simp [writeNew, makeNew, hold.names.missing hnext, nextReceiptNode, recordNode]
    have hover : writeOver storage.data recoveryBindingFile
        (bindingJson host domain (nextReceipt host domain digests digest)) =
        .ok (storage.data.write recoveryBindingFile
          (recordNode (bindingJson host domain (nextReceipt host domain digests digest)))) := by
      have hfile := hold.fileOrNone
      unfold writeOver
      split
      · next mode hfind =>
        rw [hfind] at hfile
        cases hfile
      · rfl
    rw [advanceRecoveryLineage_eq, hensure]
    simp only [nextReceipt] at hover
    simp only [hplan, hnew, hover, bind, Except.bind, nextReceipt]
  · intro path hpath
    have hne : path ≠ recoveryBindingFile := by
      rintro rfl
      rw [not_pending_binding] at hpath
      cases hpath
    rw [OrderedMap.find?_write_of_ne hne]
    exact hclean path hpath
  · obtain ⟨entries, hentries, hsha⟩ := hdigest
    have hagree : AgreeBeside isDataName storage.data (storage.data.write recoveryBindingFile
        (recordNode (bindingJson host domain (nextReceipt host domain digests digest)))) :=
      agreeBeside_write isDataName_binding (dataFiles h)
    have hsame : accountData (storage.data.write recoveryBindingFile
        (recordNode (bindingJson host domain (nextReceipt host domain digests digest)))) =
        accountData storage.data := AgreeBeside.keep_eq hagree
    exact ⟨entries, hsame ▸ hentries, hsha⟩

end Receipt

/-! ## The next snapshot -/

section Snapshot
variable {host : Host} {umask : Mode} {timeNs : Nat} {fresh : RecoveryDomain} {storage : Storage}

theorem length_receiptFiles_cleaned (h : Sound host storage) :
    (receiptFiles storage.cleaned.ledger).length = (receiptFiles storage.ledger).length := by
  obtain ⟨count, hreceipts⟩ := h.hasReceipts
  have hcleaned : HasReceipts storage.cleaned.ledger count :=
    hreceipts.congr fun path hslash hstarts => (Beside.cleaned storage.ledger).same path
      (not_pending_of_receipt (isReceiptName_iff.mpr ⟨hstarts, hslash⟩))
  rw [length_receiptFiles hcleaned, length_receiptFiles hreceipts]

/-- Directories are taken with the files of the tool as they are without them. -/
theorem taken_iff (hreads : ReadsOwnDirectory host) (h : Sound host storage) :
    Taken host umask storage.data storage.ledger ↔
      Taken host umask (accountData storage.data) (accountLedger storage.ledger) := by
  have hdata : AgreeBeside isDataName storage.data (accountData storage.data) :=
    agreeBeside_keep (dataFiles h)
  have hledger : AgreeBeside isLedgerName storage.ledger (accountLedger storage.ledger) :=
    agreeBeside_keep (ledgerFiles h)
  constructor
  · intro htaken
    exact htaken.agree hreads hdata hledger
  · intro htaken
    exact htaken.agree hreads hdata.symm hledger.symm

theorem taken_cleaned_iff (hreads : ReadsOwnDirectory host) (h : Sound host storage) :
    Taken host umask storage.cleaned.data storage.cleaned.ledger ↔
      Taken host umask (accountData storage.data) (accountLedger storage.ledger) := by
  rw [taken_iff hreads h.cleaned]
  rw [← (Beside.cleaned storage.data).accountData_eq, ← (Beside.cleaned storage.ledger).accountLedger_eq]
  rfl

variable (timeNs) in
/-- A snapshot of a sound state passes where its directories can be taken. -/
theorem createSnapshot_passes (hhost : WritesDigests host) (hreads : ReadsOwnDirectory host)
    (hfresh : ValidDomain fresh) (h : Sound host storage)
    (htaken : Taken host umask (accountData storage.data) (accountLedger storage.ledger))
    (hcount : (receiptFiles storage.ledger).length < MAX_SAFE_REVISION) :
    ∃ (created : Created) (domain : RecoveryDomain) (digests : List Str) (receipt : RecoveryReceipt),
      createSnapshot host umask timeNs fresh storage.data storage.ledger = .ok created ∧
      Current host domain digests ⟨created.data, created.ledger⟩ receipt ∧
      digests.length = (receiptFiles storage.ledger).length + 1 := by
  have hsound := h.cleaned
  have hbase := (taken_cleaned_iff hreads h).mpr htaken
  have hclean : Clean storage.cleaned := clean_cleaned storage.data
  obtain ⟨entries, hentries⟩ : ∃ entries, inventory host (accountData storage.cleaned.data) =
      .ok entries :=
    inventory_succeeds host ((taken_iff hreads hsound).mp hbase).dataCopies.supported
  have hlength := length_receiptFiles_cleaned h
  obtain ⟨domain, digests, receipt, live, hadvance, hcurrent, hdigests⟩ :=
    advance_passes hhost hfresh hsound hclean ⟨entries, hentries, rfl⟩ (by omega)
  obtain ⟨hdata, hledger⟩ := advance_agree (dataFiles hsound) (ledgerFiles hsound) hadvance
  have hlive := hbase.agree hreads hdata hledger
  obtain ⟨created, hcreated⟩ := takeSnapshot_passes timeNs hlive (hcurrent.validate hhost)
  obtain ⟨hsameData, hsameLedger⟩ := takeSnapshot_ok hcreated
  obtain ⟨watermark, hvalid⟩ := hbase.valid
  refine ⟨created, domain, digests, receipt, ?_, ?_, by omega⟩
  · rw [createSnapshot_eq]
    refine bind_ok_iff.mpr ⟨_, cleanupPendingRecovery_iff.mpr ⟨h.data, rfl⟩, ?_⟩
    refine bind_ok_iff.mpr ⟨_, cleanupPendingRecovery_iff.mpr ⟨h.ledger, rfl⟩, ?_⟩
    exact bind_ok_iff.mpr ⟨watermark, hvalid, bind_ok_iff.mpr ⟨_, hadvance, hcreated⟩⟩
  · rw [hsameData, hsameLedger]
    exact hcurrent

/-- Where a snapshot passes, there was a number for its receipt. -/
theorem count_of_createSnapshot (hhost : WritesDigests host) (hfresh : ValidDomain fresh)
    (h : Sound host storage) {created : Created}
    (hcreated : createSnapshot host umask timeNs fresh storage.data storage.ledger = .ok created) :
    (receiptFiles storage.ledger).length < MAX_SAFE_REVISION := by
  rw [createSnapshot_eq] at hcreated
  simp only [bind_ok_iff] at hcreated
  obtain ⟨data, hdata, ledger, hledger, _, -, _, hadvance, -⟩ := hcreated
  obtain ⟨-, rfl⟩ := cleanupPendingRecovery_iff.mp hdata
  obtain ⟨-, rfl⟩ := cleanupPendingRecovery_iff.mp hledger
  obtain ⟨domain, digests, ensured, hensure, hold, hlength⟩ :=
    ensureRecoveryDomain_sound hfresh h.cleaned
  simp only [Storage.cleaned] at hensure hold hlength
  rw [advanceRecoveryLineage_eq, hensure] at hadvance
  simp only [bind_ok_iff, Except.ok.injEq, exists_eq_left'] at hadvance
  obtain ⟨plan, hplan, -⟩ := hadvance
  obtain ⟨_, -, hcount, -⟩ := (planReceipt_iff hhost hold (clean_cleaned storage.data)).mp hplan
  have hsame := length_receiptFiles_cleaned h
  simp only [Storage.cleaned] at hsame
  omega

/-- Where a snapshot passes, its directories can be taken. -/
theorem taken_of_createSnapshot (hreads : ReadsOwnDirectory host) (h : Sound host storage)
    {created : Created}
    (hcreated : createSnapshot host umask timeNs fresh storage.data storage.ledger = .ok created) :
    Taken host umask (accountData storage.data) (accountLedger storage.ledger) := by
  rw [createSnapshot_eq] at hcreated
  simp only [bind_ok_iff] at hcreated
  obtain ⟨data, hdata, ledger, hledger, watermark, hvalid, ⟨liveData, liveLedger⟩, hadvance,
    htaken⟩ := hcreated
  obtain ⟨-, rfl⟩ := cleanupPendingRecovery_iff.mp hdata
  obtain ⟨-, rfl⟩ := cleanupPendingRecovery_iff.mp hledger
  have hsound := h.cleaned
  obtain ⟨hagree, hagreeLedger⟩ := advance_agree (dataFiles hsound) (ledgerFiles hsound) hadvance
  have hsameData : accountData liveData = accountData (cleaned storage.data) :=
    AgreeBeside.keep_eq hagree
  have hsameLedger : accountLedger liveLedger = accountLedger (cleaned storage.ledger) :=
    AgreeBeside.keep_eq hagreeLedger
  have hlive : ∃ watermark, validateDataAgainstLedger host liveData liveLedger = .ok watermark := by
    refine ⟨watermark, ?_⟩
    rw [← validateDataAgainstLedger_account hreads, hsameData, hsameLedger,
      validateDataAgainstLedger_account hreads, hvalid]
  have hbase := (taken_of_snapshot hlive htaken).agree hreads hagree.symm hagreeLedger.symm
  exact (taken_cleaned_iff hreads h).mp hbase

end Snapshot

/-! ## A system -/

/-- `hexdigest`. -/
def hexdigest (bytes : Bytes) : Str :=
  bytes.flatMap fun b => [hexDigit (b.toNat / 16), hexDigit (b.toNat % 16)]

/-- `bytes.fromhex`. -/
def fromHex : Str → Bytes
  | c :: d :: rest =>
    UInt8.ofNat (16 * (hexValue c).getD 0 + (hexValue d).getD 0) :: fromHex rest
  | _ => []

/-- The hashes of the standard library, and no database and no fraction that could be read. -/
def pythonHost : Host where
  sha256 contents := hexdigest (Sha256.sha256 contents)
  hmacSha256 key contents := hexdigest (Sha256.hmac (fromHex key) contents)
  parseFloat _ := ⟨[], none⟩
  generationRow _ _ := .error .osError

theorem isHexDigit_hexDigit {n : Nat} (h : n < 16) : isHexDigit (hexDigit n) = true := by
  unfold hexDigit
  split
  · simp [isHexDigit, isDigit]
    omega
  · simp [isHexDigit, isDigit]
    omega

theorem isDigest_hexdigest {bytes : Bytes} (h : bytes.length = 32) :
    isDigest (hexdigest bytes) = true := by
  have hlength : (hexdigest bytes).length = 64 := by
    simp [hexdigest, List.length_flatMap, h]
  simp only [isDigest, hlength, beq_self_eq_true, Bool.true_and, List.all_eq_true]
  intro c hc
  obtain ⟨b, -, hc⟩ := List.mem_flatMap.mp hc
  have hbyte := b.toNat_lt
  simp only [List.mem_cons, List.not_mem_nil, or_false] at hc
  obtain rfl | rfl := hc
  · exact isHexDigit_hexDigit (by omega)
  · exact isHexDigit_hexDigit (by omega)

theorem pythonHost_digests : WritesDigests pythonHost where
  sha256 contents := isDigest_hexdigest (Sha256.length_sha256 contents)
  hmacSha256 key contents := isDigest_hexdigest (Sha256.length_hmac (fromHex key) contents)

theorem pythonHost_reads : ReadsOwnDirectory pythonHost := fun _ _ _ _ => rfl

/-- The length of the longest path. -/
def longest (tree : Tree) : Nat := (tree.entries.map fun e => e.1.length).foldr max 0

theorem length_le_longest {tree : Tree} {path : Str} {node : Node} (h : tree.find? path = some node) :
    path.length ≤ longest tree := by
  have hmem : path.length ∈ tree.entries.map fun e => e.1.length :=
    List.mem_map.mpr ⟨(path, node), OrderedMap.find?_iff_mem.mp h, rfl⟩
  exact List.le_max_of_le' 0 hmem le_rfl

/-- A system that names a temporary file longer than every file there is. -/
def plainSystem : System where
  temporaryName tree := pendingPrefix ++ List.replicate (longest tree) 0x61
  temporary_pending tree := by
    rw [isPendingName_iff]
    refine ⟨List.isPrefixOf_iff_prefix.mpr (List.prefix_append _ _), fun hslash => ?_⟩
    obtain hslash | hslash := List.mem_append.mp hslash
    · exact absurd hslash (by decide)
    · cases List.eq_of_mem_replicate hslash
  temporary_new tree := by
    rw [Option.eq_none_iff_forall_not_mem]
    intro node hnode
    have hlength := length_le_longest hnode
    have hstarts : pendingPrefix.length = 18 := by decide
    simp only [List.length_append, List.length_replicate, hstarts] at hlength
    omega
  glob tree := ((children tree).map Prod.fst).filter isPendingName
  glob_nodup tree := children_names_nodup.filter _
  mem_glob tree path := by
    rw [List.mem_filter, mem_children, isPendingName_iff]
    exact ⟨fun ⟨⟨_, hfind⟩, hname⟩ => ⟨hname, hfind⟩, fun ⟨hname, hfind⟩ => ⟨⟨hname.2, hfind⟩, hname⟩⟩
  written := 0
  fresh := ⟨zeroDigest, zeroDigest⟩
  fresh_valid := ⟨zeroDigest_isDigest, zeroDigest_isDigest⟩

/-! ## After any history -/

/-- A run that nothing stops passes. The files of receipts are then those from one to one more
than before, a chain of which each is authenticated, and the data is bound to the last of them
by a valid lineage. -/
def ContinuesChain (host : Host) (umask : Mode) (timeNs : Nat) (system : System)
    (storage : Storage) : Prop :=
  ∃ (created : Created) (domain : RecoveryDomain) (receipts : List RecoveryReceipt)
    (binding : RecoveryBinding) (lineage : RecoveryLineage) (n : Nat),
    (createSnapshotSteps host umask timeNs system).exec storage =
      (.ok created, ⟨created.data, created.ledger⟩) ∧
    n = (receiptFiles storage.ledger).length + 1 ∧
    (∀ path, path ∈ receiptFiles created.ledger ↔ ∃ k, 1 ≤ k ∧ k ≤ n ∧ path = receiptName k) ∧
    loadRecoveryDomain host created.ledger = .ok domain ∧
    loadRecoveryReceipts host domain created.ledger = .ok receipts ∧
    receipts.map RecoveryReceipt.sequence = List.range' 1 n ∧
    loadRecoveryBinding host created.data domain receipts true = .ok (some binding) ∧
    binding.sequence = n ∧
    validateRecoveryLineage host created.data created.ledger = .ok lineage ∧
    lineage.recoverySequence = n

section History
variable {host : Host} {umask : Mode} {timeNs : Nat} {system : System} {storage : Storage}

theorem continuesChain_of_taken (hhost : WritesDigests host) (hreads : ReadsOwnDirectory host)
    (h : Sound host storage)
    (htaken : Taken host umask (accountData storage.data) (accountLedger storage.ledger))
    (hcount : (receiptFiles storage.ledger).length < MAX_SAFE_REVISION) :
    ContinuesChain host umask timeNs system storage := by
  obtain ⟨created, domain, digests, receipt, hcreated, hcurrent, hlength⟩ :=
    createSnapshot_passes timeNs hhost hreads system.fresh_valid h htaken hcount
  obtain ⟨state, hexec, hstate⟩ := exec_createSnapshotSteps host umask timeNs system storage
  rw [hcreated, hstate created hcreated] at hexec
  exact ⟨created, domain, chain host domain digests, bindingOf receipt, _, digests.length, hexec,
    hlength, mem_receiptFiles hcurrent.established.names, hcurrent.established.loadDomain,
    hcurrent.established.loadReceipts hhost, map_sequence_chain, hcurrent.loadBinding hhost,
    hcurrent.sequence, hcurrent.validate hhost, rfl⟩

theorem ContinuesChain.passes (h : ContinuesChain host umask timeNs system storage) :
    ∃ created, createSnapshot host umask timeNs system.fresh storage.data storage.ledger =
      .ok created := by
  obtain ⟨created, _, _, _, _, _, hexec, -⟩ := h
  obtain ⟨state, hcreated, -⟩ := exec_createSnapshotSteps host umask timeNs system storage
  rw [hexec] at hcreated
  exact ⟨created, (Prod.mk.inj hcreated).1.symm⟩

end History

/-- Account data that holds a symbolic link. -/
def linked : Storage := ⟨OrderedMap.empty.write (text "link") .other, .empty⟩

end Pomodorough.Restore.NextSnapshots
