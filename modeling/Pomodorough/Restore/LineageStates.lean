import Pomodorough.Restore.ReceiptChains
import Pomodorough.Restore.RecoveryFiles

/-! # States of a recovery lineage

What account data and its ledger look like between runs of `create_snapshot`, whether the
runs passed or were stopped: no recovery domain yet, or a domain with a chain of receipts,
and data that is bound to one of them or is still the data of the last. -/
namespace Pomodorough.Restore.LineageStates
open Pomodorough.Library.Fallible Pomodorough.Library.OrderedMaps
open Pomodorough.Library.JsonText Pomodorough.Library.TextBytes
open Pomodorough.Restore.Trees Pomodorough.Restore.Ledger Pomodorough.Restore.Lineage
open Pomodorough.Restore.Copies Pomodorough.Restore.RecoveryRecords
open Pomodorough.Restore.ReceiptChains Pomodorough.Restore.RecoveryFiles

structure Storage where
  data : Tree
  ledger : Tree
  deriving DecidableEq

/-! ## Temporary files -/

/-- The trees are the same but for temporary files. -/
structure Beside (tree tree' : Tree) : Prop where
  same : ∀ path, isPendingName path = false → tree'.find? path = tree.find? path
  files : ∀ path, isPendingName path = true → FileOrNone (tree.find? path) →
    FileOrNone (tree'.find? path)

namespace Beside
variable {tree tree' tree'' : Tree} {path : Str} {node : Node}

theorem refl (tree : Tree) : Beside tree tree := ⟨fun _ _ => rfl, fun _ _ h => h⟩

theorem trans (h : Beside tree tree') (h' : Beside tree' tree'') : Beside tree tree'' where
  same path hpath := (h'.same path hpath).trans (h.same path hpath)
  files path hpath hfile := h'.files path hpath (h.files path hpath hfile)

/-- A temporary file is made or written to. -/
theorem write (tree : Tree) (hpath : isPendingName path = true) (mode : Mode) (contents : Bytes) :
    Beside tree (tree.write path (.file mode contents)) where
  same other hother := by
    refine OrderedMap.find?_write_of_ne ?_
    rintro rfl
    rw [hpath] at hother
    cases hother
  files other hother hfile := by
    by_cases heq : other = path
    · rw [heq, OrderedMap.find?_write_self]
      trivial
    · rwa [OrderedMap.find?_write_of_ne heq]

/-- Temporary files are removed. -/
theorem keep (tree : Tree) {p : Str → Bool} (hp : ∀ path, isPendingName path = false → p path = true) :
    Beside tree (tree.keep p) where
  same path hpath := by rw [OrderedMap.find?_keep, if_pos (hp path hpath)]
  files path _ hfile := by
    rw [OrderedMap.find?_keep]
    split
    · exact hfile
    · trivial

theorem cleaned (tree : Tree) : Beside tree (cleaned tree) :=
  keep tree fun path hpath => by simp [hpath]

/-- The same file written in both. -/
theorem writeBoth (h : Beside tree tree') (hpath : isPendingName path = false) :
    Beside (tree.write path node) (tree'.write path node) where
  same other hother := by
    by_cases heq : other = path
    · rw [heq, OrderedMap.find?_write_self, OrderedMap.find?_write_self]
    · rw [OrderedMap.find?_write_of_ne heq, OrderedMap.find?_write_of_ne heq, h.same other hother]
  files other hother hfile := by
    have hne : other ≠ path := by
      rintro rfl
      rw [hpath] at hother
      cases hother
    rw [OrderedMap.find?_write_of_ne hne] at hfile ⊢
    exact h.files other hother hfile

theorem keep_eq (h : Beside tree tree') {p : Str → Bool}
    (hp : ∀ path, isPendingName path = true → p path = false) : tree'.keep p = tree.keep p := by
  refine OrderedMap.ext_find? fun path => ?_
  rw [OrderedMap.find?_keep, OrderedMap.find?_keep]
  cases hname : isPendingName path with
  | true => simp [hp path hname]
  | false => rw [h.same path hname]

theorem accountData_eq (h : Beside tree tree') : accountData tree' = accountData tree :=
  h.keep_eq fun path hpath => by simp [isDataName, hpath]

theorem accountLedger_eq (h : Beside tree tree') : accountLedger tree' = accountLedger tree :=
  h.keep_eq fun path hpath => by simp [isLedgerName, hpath]

end Beside

/-! ## The names of the tool are told apart -/

section Names
variable {k : Nat}

theorem not_pending_domain : isPendingName recoveryDomainFile = false := by decide

theorem not_pending_binding : isPendingName recoveryBindingFile = false := by decide

theorem not_receipt_domain : isReceiptName recoveryDomainFile = false := by decide

theorem isReceiptName_receiptName (k : Nat) : isReceiptName (receiptName k) = true :=
  isReceiptName_iff.mpr ⟨receiptName_starts k, receiptName_noSlash k⟩

theorem not_pending_of_receipt {path : Str} (h : isReceiptName path = true) :
    isPendingName path = false := by
  rw [Bool.eq_false_iff]
  intro hpending
  obtain ⟨rest, rfl⟩ := List.isPrefixOf_iff_prefix.mp (isReceiptName_iff.mp h).1
  obtain ⟨rest', hrest⟩ := List.isPrefixOf_iff_prefix.mp (isPendingName_iff.mp hpending).1
  have hreceipt : receiptPrefix = 0x2e :: 0x72 :: text "ecovery-receipt-" := by decide
  have hpending : pendingPrefix = 0x2e :: 0x70 :: text "ending-recovery-" := by decide
  rw [hreceipt, hpending, List.cons_append, List.cons_append, List.cons_append, List.cons_append] at hrest
  cases (List.cons.inj (List.cons.inj hrest).2).1

theorem not_pending_receiptName (k : Nat) : isPendingName (receiptName k) = false :=
  not_pending_of_receipt (isReceiptName_receiptName k)

theorem receiptName_ne_domain (k : Nat) : receiptName k ≠ recoveryDomainFile := by
  intro heq
  have hname := isReceiptName_receiptName k
  rw [heq, not_receipt_domain] at hname
  cases hname

end Names

/-! ## The states -/

/-- The chain of a domain for some inventories. -/
def chain (host : Host) (domain : RecoveryDomain) (digests : List Str) : List RecoveryReceipt :=
  chainFrom host domain 1 zeroDigest digests

/-- The data has this inventory, without the tool's files. -/
def HasDigest (host : Host) (data : Tree) (digest : Str) : Prop :=
  ∃ entries, inventory host (accountData data) = .ok entries ∧ inventorySha256 host entries = digest

/-- A ledger with a domain and receipts of some inventories. -/
structure Established (host : Host) (domain : RecoveryDomain) (digests : List Str)
    (storage : Storage) : Prop where
  valid : ValidDomain domain
  hex : ∀ digest ∈ digests, isDigest digest = true
  domainFile : storage.ledger.find? recoveryDomainFile = some (recordNode (.obj (domainFields domain)))
  names : HasReceipts storage.ledger digests.length
  receipts : HoldsFrom host domain storage.ledger 1 zeroDigest digests
  binding :
    (storage.data.find? recoveryBindingFile = none ∧
      ∀ last ∈ digests.getLast?, HasDigest host storage.data last) ∨
    ∃ (k : Nat) (receipt : RecoveryReceipt), (chain host domain digests)[k]? = some receipt ∧
      storage.data.find? recoveryBindingFile = some (recordNode (bindingJson host domain receipt))

/-- No run has come as far as to write a domain. -/
structure Untouched (storage : Storage) : Prop where
  domainFile : storage.ledger.find? recoveryDomainFile = none
  names : HasReceipts storage.ledger 0
  binding : storage.data.find? recoveryBindingFile = none

/-- A state that runs of `create_snapshot` lead to. -/
structure Sound (host : Host) (storage : Storage) : Prop where
  data : ∀ path, isPendingName path = true → FileOrNone (storage.data.find? path)
  ledger : ∀ path, isPendingName path = true → FileOrNone (storage.ledger.find? path)
  lineage : Untouched storage ∨ ∃ domain digests, Established host domain digests storage

section States
variable {host : Host} {domain : RecoveryDomain} {digests : List Str} {storage storage' : Storage}

theorem chain_prefix (digest : Str) {k : Nat} {receipt : RecoveryReceipt}
    (h : (chain host domain digests)[k]? = some receipt) :
    (chain host domain (digests ++ [digest]))[k]? = some receipt := by
  rw [chain, chainFrom_snoc, List.getElem?_append_left]
  · exact h
  · exact (List.getElem?_eq_some_iff.mp h).1

/-- The state does not depend on temporary files. -/
theorem Established.beside (h : Established host domain digests storage)
    (hdata : Beside storage.data storage'.data) (hledger : Beside storage.ledger storage'.ledger) :
    Established host domain digests storage' where
  valid := h.valid
  hex := h.hex
  domainFile := by rw [hledger.same _ not_pending_domain, h.domainFile]
  names := h.names.congr fun path hslash hstarts =>
    hledger.same path (not_pending_of_receipt (isReceiptName_iff.mpr ⟨hstarts, hslash⟩))
  receipts := h.receipts.congr fun k _ => hledger.same _ (not_pending_receiptName k)
  binding := by
    rw [hdata.same _ not_pending_binding]
    refine h.binding.imp (fun ⟨hnone, hlast⟩ => ⟨hnone, fun last hmem => ?_⟩) id
    obtain ⟨entries, hentries, hsha⟩ := hlast last hmem
    exact ⟨entries, hdata.accountData_eq ▸ hentries, hsha⟩

theorem Sound.beside (h : Sound host storage) (hdata : Beside storage.data storage'.data)
    (hledger : Beside storage.ledger storage'.ledger) : Sound host storage' where
  data path hpath := hdata.files path hpath (h.data path hpath)
  ledger path hpath := hledger.files path hpath (h.ledger path hpath)
  lineage := by
    obtain hnew | ⟨domain, digests, hold⟩ := h.lineage
    · refine .inl ⟨?_, ?_, ?_⟩
      · rw [hledger.same _ not_pending_domain, hnew.domainFile]
      · exact hnew.names.congr fun path hslash hstarts =>
          hledger.same path (not_pending_of_receipt (isReceiptName_iff.mpr ⟨hstarts, hslash⟩))
      · rw [hdata.same _ not_pending_binding, hnew.binding]
    · exact .inr ⟨domain, digests, hold.beside hdata hledger⟩

theorem Sound.hasReceipts (h : Sound host storage) : ∃ count, HasReceipts storage.ledger count := by
  obtain hnew | ⟨domain, digests, hold⟩ := h.lineage
  · exact ⟨0, hnew.names⟩
  · exact ⟨digests.length, hold.names⟩

/-- The directories without temporary files. -/
def Storage.cleaned (storage : Storage) : Storage :=
  ⟨RecoveryFiles.cleaned storage.data, RecoveryFiles.cleaned storage.ledger⟩

theorem Sound.cleaned (h : Sound host storage) : Sound host storage.cleaned :=
  h.beside (.cleaned storage.data) (.cleaned storage.ledger)

variable (host) in
/-- A domain is written. -/
theorem Untouched.writeDomain (h : Untouched storage) (hdomain : ValidDomain domain) :
    Established host domain []
      ⟨storage.data, storage.ledger.write recoveryDomainFile
        (recordNode (.obj (domainFields domain)))⟩ where
  valid := hdomain
  hex := nofun
  domainFile := OrderedMap.find?_write_self
  names := h.names.congr fun path _ hstarts => by
    refine OrderedMap.find?_write_of_ne ?_
    rintro rfl
    cases hstarts
  receipts := trivial
  binding := .inl ⟨h.binding, nofun⟩

/-- The receipt that follows those of some inventories. -/
def nextReceipt (host : Host) (domain : RecoveryDomain) (digests : List Str) (digest : Str) :
    RecoveryReceipt :=
  receiptOf host domain (digests.length + 1)
    (lastDigest zeroDigest (chain host domain digests)) digest

/-- The file of that receipt. -/
def nextReceiptNode (host : Host) (domain : RecoveryDomain) (digests : List Str) (digest : Str) :
    Node :=
  recordNode (receiptJson host domain (digests.length + 1)
    (lastDigest zeroDigest (chain host domain digests)) digest)

theorem chain_snoc (digest : Str) : chain host domain (digests ++ [digest]) =
    chain host domain digests ++ [nextReceipt host domain digests digest] := by
  rw [chain, chainFrom_snoc, Nat.add_comm 1]
  rfl

/-- A receipt of the data as it is is written. -/
theorem Established.writeReceipt (hhost : WritesDigests host)
    (h : Established host domain digests storage) {digest : Str}
    (hdigest : HasDigest host storage.data digest)
    (hcount : digests.length + 1 ≤ MAX_SAFE_REVISION) :
    Established host domain (digests ++ [digest])
      ⟨storage.data, storage.ledger.write (receiptName (digests.length + 1))
        (nextReceiptNode host domain digests digest)⟩ where
  valid := h.valid
  hex := by
    intro other hother
    obtain hother | hother := List.mem_append.mp hother
    · exact h.hex other hother
    · obtain ⟨entries, -, hsha⟩ := hdigest
      rw [List.mem_singleton.mp hother, ← hsha]
      exact hhost.sha256 _
  domainFile := by
    rw [OrderedMap.find?_write_of_ne (receiptName_ne_domain _).symm, h.domainFile]
  names := by
    rw [List.length_append, List.length_singleton]
    exact h.names.write hcount _
  receipts := by
    have hkept : HoldsFrom host domain (storage.ledger.write (receiptName (digests.length + 1))
        (nextReceiptNode host domain digests digest)) 1 zeroDigest digests := by
      refine h.receipts.congr fun k hk => OrderedMap.find?_write_of_ne ?_
      intro heq
      rw [heq] at hk
      exact hk (h.names.missing hcount)
    refine hkept.snoc ?_
    rw [Nat.add_comm 1, OrderedMap.find?_write_self]
    rfl
  binding := by
    obtain ⟨hnone, -⟩ | ⟨k, receipt, hk, hfile⟩ := h.binding
    · refine .inl ⟨hnone, fun last hlast => ?_⟩
      rw [List.getLast?_concat] at hlast
      cases hlast
      exact hdigest
    · exact .inr ⟨k, receipt, chain_prefix digest hk, hfile⟩

/-- The data is bound to a receipt. -/
theorem Established.writeBinding (h : Established host domain digests storage) {k : Nat}
    {receipt : RecoveryReceipt} (hk : (chain host domain digests)[k]? = some receipt) :
    Established host domain digests
      ⟨storage.data.write recoveryBindingFile (recordNode (bindingJson host domain receipt)),
        storage.ledger⟩ where
  valid := h.valid
  hex := h.hex
  domainFile := h.domainFile
  names := h.names
  receipts := h.receipts
  binding := .inr ⟨k, receipt, hk, OrderedMap.find?_write_self⟩

theorem fileOrNone_write {tree : Tree} {path : Str} {node : Node}
    (h : ∀ other, isPendingName other = true → FileOrNone (tree.find? other))
    (hpath : isPendingName path = false) (other : Str) (hother : isPendingName other = true) :
    FileOrNone ((tree.write path node).find? other) := by
  have hne : other ≠ path := by
    rintro rfl
    rw [hpath] at hother
    cases hother
  rw [OrderedMap.find?_write_of_ne hne]
  exact h other hother

/-- A record is written to the ledger of a sound state. -/
theorem Sound.writeLedger (h : Sound host storage) {path : Str} {node : Node}
    (hpath : isPendingName path = false)
    (hold : Established host domain digests ⟨storage.data, storage.ledger.write path node⟩) :
    Sound host ⟨storage.data, storage.ledger.write path node⟩ :=
  ⟨h.data, fileOrNone_write h.ledger hpath, .inr ⟨domain, digests, hold⟩⟩

/-- A record is written to the account data of a sound state. -/
theorem Sound.writeData (h : Sound host storage) {path : Str} {node : Node}
    (hpath : isPendingName path = false)
    (hold : Established host domain digests ⟨storage.data.write path node, storage.ledger⟩) :
    Sound host ⟨storage.data.write path node, storage.ledger⟩ :=
  ⟨fileOrNone_write h.data hpath, h.ledger, .inr ⟨domain, digests, hold⟩⟩

end States

/-! ## Reading a state -/

section Reading
variable {host : Host} {domain : RecoveryDomain} {digests : List Str} {storage : Storage}

theorem Established.fileOrNone (h : Established host domain digests storage) :
    FileOrNone (storage.data.find? recoveryBindingFile) := by
  obtain ⟨hnone, -⟩ | ⟨k, receipt, -, hfile⟩ := h.binding
  · rw [hnone]
    trivial
  · rw [hfile]
    trivial

theorem HasDigest.unique {data : Tree} {digest digest' : Str} (h : HasDigest host data digest)
    (h' : HasDigest host data digest') : digest = digest' := by
  obtain ⟨entries, hentries, rfl⟩ := h
  obtain ⟨entries', hentries', rfl⟩ := h'
  rw [hentries] at hentries'
  cases hentries'
  rfl

@[simp] theorem length_chain : (chain host domain digests).length = digests.length := length_chainFrom

/-- The last receipt of a chain is of the last inventory. -/
theorem getLast?_chain : ((chain host domain digests).getLast?.map
    RecoveryReceipt.dataInventorySha256) = digests.getLast? := by
  induction digests using List.reverseRecOn with
  | nil => rfl
  | append_singleton digests digest ih =>
    rw [chain_snoc, List.getLast?_concat, List.getLast?_concat]
    rfl

/-- The receipts of a chain are numbered from one. -/
theorem map_sequence_chain : (chain host domain digests).map RecoveryReceipt.sequence =
    List.range' 1 digests.length := by
  induction digests using List.reverseRecOn with
  | nil => rfl
  | append_singleton digests digest ih =>
    rw [chain_snoc, List.map_append, ih, List.length_append, List.length_singleton,
      List.range'_concat, Nat.one_mul, Nat.add_comm 1]
    rfl

theorem Established.loadDomain (h : Established host domain digests storage) :
    loadRecoveryDomain host storage.ledger = .ok domain :=
  loadRecoveryDomain_written h.valid h.domainFile

theorem Established.loadReceipts (hhost : WritesDigests host)
    (h : Established host domain digests storage) :
    loadRecoveryReceipts host domain storage.ledger = .ok (chain host domain digests) :=
  loadRecoveryReceipts_chain hhost h.valid h.hex h.names h.receipts

/-- A receipt of the chain is one that a binding can name. -/
theorem Established.loadBinding (hhost : WritesDigests host)
    (h : Established host domain digests storage) {k : Nat} {receipt : RecoveryReceipt}
    (hk : (chain host domain digests)[k]? = some receipt)
    (hfile : storage.data.find? recoveryBindingFile =
      some (recordNode (bindingJson host domain receipt))) (required : Bool) :
    loadRecoveryBinding host storage.data domain (chain host domain digests) required =
      .ok (some (bindingOf receipt)) := by
  obtain ⟨hsequence, hmem, contents, hsha⟩ := mem_chainFrom hk
  have hlt := (List.getElem?_eq_some_iff.mp hk).1
  rw [chain, length_chainFrom] at hlt
  have hbound := h.names.bounded
  refine loadRecoveryBinding_written hhost h.valid (hsha ▸ hhost.sha256 _) (h.hex _ hmem)
    (by omega) (by omega) ?_ hfile required
  rw [hsequence, Nat.add_sub_cancel_left, hk]

end Reading

end Pomodorough.Restore.LineageStates
