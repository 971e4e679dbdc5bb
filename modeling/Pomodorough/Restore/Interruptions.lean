import Pomodorough.Restore.SnapshotSteps

/-! # Snapshots after runs that were stopped

Account data and ledger between runs of `create_snapshot` of `restore_drill.py`, each of
which passed, was refused or was stopped at any point. Whatever the runs have left is a state
in which the tool's records can be read and continued. -/
namespace Pomodorough.Restore.Interruptions
open Pomodorough.Library.AtomicSteps Pomodorough.Library.Fallible Pomodorough.Library.OrderedMaps
open Pomodorough.Library.JsonText Pomodorough.Library.TextBytes
open Pomodorough.Restore.Trees Pomodorough.Restore.Ledger Pomodorough.Restore.Lineage
open Pomodorough.Restore.Snapshots Pomodorough.Restore.Copies Pomodorough.Restore.RecoveryRecords
open Pomodorough.Restore.ReceiptChains Pomodorough.Restore.RecoveryFiles
open Pomodorough.Restore.LineageStates Pomodorough.Restore.SnapshotSteps

/-- The names of the receipts in a ledger. -/
def receiptFiles (ledger : Tree) : List Str :=
  ((children ledger).map Prod.fst).filter isReceiptName

/-- What is done to the two directories between runs leaves the tool's files alone, and the
account data as it is while a receipt of it waits for its binding. -/
structure Changed (storage storage' : Storage) : Prop where
  data : ∀ path, isDataName path = true → storage'.data.find? path = storage.data.find? path
  ledger : ∀ path, isLedgerName path = true → storage'.ledger.find? path = storage.ledger.find? path
  unbound : storage.data.find? recoveryBindingFile = none → receiptFiles storage.ledger ≠ [] →
    accountData storage'.data = accountData storage.data

/-- The directories after any number of runs. -/
inductive Reached (host : Host) (umask : Mode) : Storage → Prop where
  | start (storage : Storage) (hdata : accountData storage.data = storage.data)
      (hledger : accountLedger storage.ledger = storage.ledger) : Reached host umask storage
  /-- A run passes, is refused or is stopped. -/
  | ran {storage state : Storage} (timeNs : Nat) (system : System)
      (h : Reached host umask storage)
      (hstate : state ∈ (createSnapshotSteps host umask timeNs system).states storage) :
      Reached host umask state
  /-- The handler of a write that raised removes its temporary file. -/
  | handled {storage state : Storage} (timeNs : Nat) (system : System) (root : Root) (path : Str)
      (h : Reached host umask storage)
      (hstate : state ∈ (createSnapshotSteps host umask timeNs system).states storage)
      (hpath : isPendingName path = true) :
      Reached host umask (update state (·.keep fun other => other != path) root)
  | changed {storage storage' : Storage} (h : Reached host umask storage)
      (hchanged : Changed storage storage') : Reached host umask storage'

/-! ## Receipts that are there -/

section Receipts
variable {ledger : Tree} {count : Nat}

theorem mem_receiptFiles (h : HasReceipts ledger count) (path : Str) :
    path ∈ receiptFiles ledger ↔ ∃ k, 1 ≤ k ∧ k ≤ count ∧ path = receiptName k := by
  rw [receiptFiles, List.mem_filter, mem_children, isReceiptName_iff]
  constructor
  · intro ⟨⟨hslash, hfind⟩, hstarts, _⟩
    exact h.only path hslash hstarts hfind
  · rintro ⟨k, hone, hk, rfl⟩
    exact ⟨⟨receiptName_noSlash k, h.present k hone hk⟩, receiptName_starts k, receiptName_noSlash k⟩

theorem length_receiptFiles (h : HasReceipts ledger count) : (receiptFiles ledger).length = count := by
  have hmem (path : Str) : path ∈ receiptFiles ledger ↔ path ∈ (List.range' 1 count).map receiptName := by
    rw [mem_receiptFiles h, List.mem_map]
    constructor
    · rintro ⟨k, hone, hk, rfl⟩
      exact ⟨k, List.mem_range'_1.mpr ⟨hone, by omega⟩, rfl⟩
    · rintro ⟨k, hk, rfl⟩
      obtain ⟨hone, hlt⟩ := List.mem_range'_1.mp hk
      exact ⟨k, hone, by omega, rfl⟩
  have hnodup : ((List.range' 1 count).map receiptName).Nodup := by
    refine List.Nodup.map_on (fun j hj k hk heq => ?_) (List.nodup_range' ..)
    rw [List.mem_range'_1] at hj hk
    have hbound := h.bounded
    exact receiptName_injective (by omega) (by omega) heq
  have hperm := (List.perm_ext_iff_of_nodup (children_names_nodup.filter _) hnodup).mpr hmem
  rw [receiptFiles, hperm.length_eq, List.length_map, List.length_range']

end Receipts

/-! ## What a run leaves -/

section Runs
variable {host : Host} {umask : Mode} {timeNs : Nat} {system : System} {domain : RecoveryDomain}
  {digests : List Str} {storage state after : Storage}

/-- No temporary file is in the account data. -/
def Clean (storage : Storage) : Prop :=
  ∀ path, isPendingName path = true → storage.data.find? path = none

theorem clean_cleaned (data : Tree) {ledger : Tree} : Clean ⟨cleaned data, ledger⟩ := by
  intro path hpath
  simp [cleaned, OrderedMap.find?_keep, hpath]

/-- The next receipt is of the account data as it is, whatever was left before. -/
theorem planReceipt_iff (hhost : WritesDigests host) (h : Established host domain digests storage)
    (hclean : Clean storage) {plan : Nat × Str × Str} :
    planReceipt host domain storage.data storage.ledger = .ok plan ↔
      ∃ digest, HasDigest host storage.data digest ∧ digests.length + 1 ≤ MAX_SAFE_REVISION ∧
        plan = (digests.length + 1, lastDigest zeroDigest (chain host domain digests), digest) := by
  have hbinding : ∃ binding, loadRecoveryBinding host storage.data domain
      (chain host domain digests) false = .ok binding ∧
      (binding = none → ∀ last ∈ digests.getLast?, HasDigest host storage.data last) := by
    obtain ⟨hnone, hlast⟩ | ⟨k, receipt, hk, hfile⟩ := h.binding
    · exact ⟨none, loadRecoveryBinding_missing hnone, fun _ => hlast⟩
    · exact ⟨some _, h.loadBinding hhost hk hfile false,
        fun hnone => by cases hnone⟩
  obtain ⟨binding, hload, hunbound⟩ := hbinding
  have hguard (entries : List Entry) (hentries : inventory host (accountData storage.data) = .ok entries) :
      ¬ (binding = none ∧ ((chain host domain digests).getLast?.any fun last =>
        last.dataInventorySha256 ≠ inventorySha256 host entries) = true) := by
    intro hboth
    obtain ⟨hnone, hany⟩ := hboth
    have hlast : ((chain host domain digests).getLast?.map RecoveryReceipt.dataInventorySha256) =
        digests.getLast? := getLast?_chain
    cases hreceipt : (chain host domain digests).getLast? with
    | none =>
      rw [hreceipt] at hany
      cases hany
    | some receipt =>
      rw [hreceipt] at hany hlast
      have hdigest := hunbound hnone receipt.dataInventorySha256 hlast.symm
      simp [hdigest.unique ⟨entries, hentries, rfl⟩] at hany
  rw [planReceipt, h.loadReceipts hhost]
  simp only [bind_ok_iff, check_ok_iff, Except.ok.injEq, exists_eq_left', hload,
    dataStateInventory_eq hclean h.fileOrNone, length_chain]
  constructor
  · intro hsteps
    obtain ⟨entries, hentries, _, _, _, hcount, hplan⟩ := hsteps
    exact ⟨inventorySha256 host entries, ⟨entries, hentries, rfl⟩, hcount, hplan.symm⟩
  · rintro ⟨_, ⟨entries, hentries, rfl⟩, hcount, rfl⟩
    exact ⟨entries, hentries, (), hguard entries hentries, (), hcount, rfl⟩

/-- A domain is found, or made where no run has come that far. -/
theorem ensureRecoveryDomain_sound {fresh : RecoveryDomain}
    (hfresh : ValidDomain fresh) (h : Sound host storage) :
    ∃ domain digests ledger, ensureRecoveryDomain host fresh storage.ledger = .ok (domain, ledger) ∧
      Established host domain digests ⟨storage.data, ledger⟩ ∧
      digests.length = (receiptFiles storage.ledger).length := by
  obtain hnew | ⟨domain, digests, hold⟩ := h.lineage
  · have hload : loadRecoveryDomain host storage.ledger = .error .fileNotFound :=
      bind_error (privateJson_missing hnew.domainFile)
    have hmade := hnew.writeDomain host hfresh
    refine ⟨fresh, [], _, ?_, hmade, (length_receiptFiles hnew.names).symm⟩
    have hloaded := hmade.loadDomain
    have hwrite : writeNew storage.ledger recoveryDomainFile (.obj (domainFields fresh)) =
        .ok (storage.ledger.write recoveryDomainFile (recordNode (.obj (domainFields fresh)))) := by
      simp [writeNew, makeNew, hnew.domainFile, recordNode]
    simp only [domainFields] at hwrite hloaded
    simp only [ensureRecoveryDomain, hload, recoveryReceiptPaths_eq hnew.names, hwrite, bind,
      Except.bind, hloaded]
    rfl
  · refine ⟨domain, digests, storage.ledger, ?_, hold, (length_receiptFiles hold.names).symm⟩
    rw [ensureRecoveryDomain, hold.loadDomain]

/-- Wherever the writing of a domain stops. -/
theorem states_ensureDomain (h : Sound host storage)
    (hstate : state ∈ (ensureDomain host umask system).states storage) : Sound host state := by
  have hhere : state = storage → Sound host state := fun heq => heq ▸ h
  obtain rfl | hstate := Op.mem_states_step_bind hstate
  · exact h
  simp only at hstate
  cases hload : loadRecoveryDomain host storage.ledger with
  | ok domain =>
    rw [hload] at hstate
    exact hhere (List.mem_singleton.mp hstate)
  | error e =>
    rw [hload] at hstate
    cases e with
    | fileNotFound =>
      obtain rfl | ⟨-, -, hstate⟩ := Op.mem_states_tryRead_bind hstate
      · exact h
      have hnew : Untouched storage := by
        obtain hnew | ⟨domain, digests, hold⟩ := h.lineage
        · exact hnew
        · rw [hold.loadDomain] at hload
          cases hload
      have hmade := hnew.writeDomain host system.fresh_valid
      have hsound := h.writeLedger not_pending_domain hmade
      have hwritten (written : Storage) (hstates : written ∈ (writePrivateNew umask system .ledger
          recoveryDomainFile (.obj (domainFields system.fresh))).states storage) :
          Sound host written := by
        obtain hbeside | ⟨-, hbeside⟩ := states_writePrivateNew not_pending_domain hstates
        · exact h.beside hbeside.1 hbeside.2
        · exact hsound.beside hbeside.1 hbeside.2
      obtain hstate | ⟨_, written, hexec, hstate⟩ := Op.mem_states_bind hstate
      · exact hwritten state hstate
      · have hlast := Op.exec_mem_states (writePrivateNew umask system .ledger recoveryDomainFile
          (.obj (domainFields system.fresh))) storage
        rw [hexec] at hlast
        simp only [Op.states_tryRead, List.mem_cons, List.not_mem_nil, or_false, or_self] at hstate
        rw [hstate]
        exact hwritten written hlast
    | valueError message => exact hhere (List.mem_singleton.mp hstate)
    | runtimeError message => exact hhere (List.mem_singleton.mp hstate)
    | fileExists => exact hhere (List.mem_singleton.mp hstate)
    | osError => exact hhere (List.mem_singleton.mp hstate)

/-- The run of a part of the steps that has returned leaves one of its states. -/
theorem exec_mem {α : Type} {x : Op Storage Failure α} {a : α} (h : x.exec storage = (.ok a, after)) :
    after ∈ x.states storage := by
  have hlast := Op.exec_mem_states x storage
  rwa [h] at hlast

theorem exec_ensureDomain_sound (h : Sound host storage)
    (hexec : (ensureDomain host umask system).exec storage = (.ok domain, after)) :
    Sound host after ∧ after.data = storage.data ∧
      ∃ digests, Established host domain digests after := by
  obtain ⟨made, digests, ledger, hensure, hold, -⟩ := ensureRecoveryDomain_sound system.fresh_valid h
  obtain ⟨left, hleft, hstate⟩ := exec_ensureDomain host umask system storage
  refine ⟨states_ensureDomain h (exec_mem hexec), ?_⟩
  rw [hexec, hensure] at hleft
  cases hleft
  rw [hstate made ledger hensure]
  exact ⟨rfl, digests, hold⟩

/-- Wherever the advance of a lineage stops. -/
theorem states_advanceLineage (hhost : WritesDigests host) (h : Sound host storage)
    (hclean : Clean storage) (hstate : state ∈ (advanceLineage host umask system).states storage) :
    Sound host state := by
  obtain hstate | ⟨domain, ensured, hexec, hstate⟩ := Op.mem_states_bind hstate
  · exact states_ensureDomain h hstate
  obtain ⟨hensured, hdata, digests, hold⟩ := exec_ensureDomain_sound h hexec
  have hstill : Clean ensured := fun path hpath => hdata ▸ hclean path hpath
  obtain rfl | ⟨plan, hplan, hstate⟩ := Op.mem_states_tryRead_bind hstate
  · exact hensured
  obtain ⟨digest, hdigest, hcount, rfl⟩ := (planReceipt_iff hhost hold hstill).mp hplan
  have hreceipt := hold.writeReceipt hhost hdigest hcount
  have hpath := not_pending_receiptName (digests.length + 1)
  have hwritten := hensured.writeLedger hpath hreceipt
  obtain hstate | ⟨_, received, hexec, hstate⟩ := Op.mem_states_bind hstate
  · obtain hbeside | ⟨-, hbeside⟩ := states_writePrivateNew hpath hstate
    · exact hensured.beside hbeside.1 hbeside.2
    · exact hwritten.beside hbeside.1 hbeside.2
  rw [exec_writePrivateNew umask system .ledger _ ensured hpath] at hexec
  have hnew : writeNew ensured.ledger (receiptName (digests.length + 1)) (receiptJson host domain
      (digests.length + 1) (lastDigest zeroDigest (chain host domain digests)) digest) =
      .ok (ensured.ledger.write (receiptName (digests.length + 1))
        (nextReceiptNode host domain digests digest)) := by
    simp [writeNew, makeNew, hold.names.missing hcount, nextReceiptNode, recordNode]
  simp only [directory, hnew, update] at hexec
  cases hexec
  have hlast : (chain host domain (digests ++ [digest]))[digests.length]? =
      some (nextReceipt host domain digests digest) := by
    rw [chain_snoc, List.getElem?_append_right (by simp)]
    simp
  have hbound := hwritten.writeData not_pending_binding (hreceipt.writeBinding hlast)
  obtain hbeside | hbeside := states_writePrivateOver not_pending_binding hstate
  · exact hwritten.beside hbeside.1 hbeside.2
  · exact hbound.beside hbeside.1 hbeside.2

/-- Wherever a run stops, the state is one that runs lead to. -/
theorem states_createSnapshotSteps (hhost : WritesDigests host) (h : Sound host storage)
    (hstate : state ∈ (createSnapshotSteps host umask timeNs system).states storage) :
    Sound host state := by
  obtain hstate | ⟨_, first, hfirst, hstate⟩ := Op.mem_states_bind hstate
  · exact h.beside (states_cleanupPending hstate).1 (states_cleanupPending hstate).2
  have hbeside := states_cleanupPending (exec_mem hfirst)
  have hsound := h.beside hbeside.1 hbeside.2
  obtain hstate | ⟨_, second, hsecond, hstate⟩ := Op.mem_states_bind hstate
  · exact hsound.beside (states_cleanupPending hstate).1 (states_cleanupPending hstate).2
  have hbeside := states_cleanupPending (exec_mem hsecond)
  have hsound := hsound.beside hbeside.1 hbeside.2
  have hclean : Clean second := by
    rw [exec_cleanupPending_ok hsecond, exec_cleanupPending_ok hfirst]
    exact clean_cleaned storage.data
  obtain rfl | ⟨_, -, hstate⟩ := Op.mem_states_tryRead_bind hstate
  · exact hsound
  obtain hstate | ⟨_, advanced, hadvanced, hstate⟩ := Op.mem_states_bind hstate
  · exact states_advanceLineage hhost hsound hclean hstate
  · simp only [Op.states_tryRead, List.mem_cons, List.not_mem_nil, or_false, or_self] at hstate
    rw [hstate]
    exact states_advanceLineage hhost hsound hclean (exec_mem hadvanced)

end Runs

/-! ## Between runs -/

section Between
variable {host : Host} {umask : Mode} {storage storage' : Storage}

theorem isDataName_pending {path : Str} (h : isPendingName path = true) : isDataName path = true := by
  simp [isDataName, h]

theorem isLedgerName_pending {path : Str} (h : isPendingName path = true) :
    isLedgerName path = true := by
  simp [isLedgerName, h]

theorem isLedgerName_receipt {path : Str} (h : isReceiptName path = true) :
    isLedgerName path = true := by
  simp [isLedgerName, h]

theorem isDataName_binding : isDataName recoveryBindingFile = true := by decide

theorem isLedgerName_domain : isLedgerName recoveryDomainFile = true := by decide

theorem sound_changed (h : Sound host storage) (hchanged : Changed storage storage') :
    Sound host storage' where
  data path hpath := by
    rw [hchanged.data path (isDataName_pending hpath)]
    exact h.data path hpath
  ledger path hpath := by
    rw [hchanged.ledger path (isLedgerName_pending hpath)]
    exact h.ledger path hpath
  lineage := by
    have hdomain := hchanged.ledger _ isLedgerName_domain
    have hbinding := hchanged.data _ isDataName_binding
    have hreceipts (path : Str) (hslash : slash ∉ path) (hstarts : receiptPrefix.isPrefixOf path = true) :
        storage'.ledger.find? path = storage.ledger.find? path :=
      hchanged.ledger path (isLedgerName_receipt (isReceiptName_iff.mpr ⟨hstarts, hslash⟩))
    refine h.lineage.imp (fun hnew => ?_) (fun ⟨domain, digests, hold⟩ => ⟨domain, digests, ?_⟩)
    · exact ⟨hdomain.trans hnew.domainFile, hnew.names.congr hreceipts,
        hbinding.trans hnew.binding⟩
    · refine ⟨hold.valid, hold.hex, hdomain.trans hold.domainFile, hold.names.congr hreceipts,
        hold.receipts.congr fun k _ => hreceipts _ (receiptName_noSlash k) (receiptName_starts k), ?_⟩
      rw [hbinding]
      refine hold.binding.imp (fun ⟨hnone, hlast⟩ => ⟨hnone, fun last hmem => ?_⟩) id
      have hlength := length_receiptFiles hold.names
      have hsome : receiptFiles storage.ledger ≠ [] := by
        intro hnil
        rw [hnil] at hlength
        rw [List.eq_nil_of_length_eq_zero hlength.symm] at hmem
        cases hmem
      obtain ⟨entries, hentries, hsha⟩ := hlast last hmem
      exact ⟨entries, hchanged.unbound hnone hsome ▸ hentries, hsha⟩

theorem find?_of_accountData {data : Tree} (h : accountData data = data) {path : Str}
    (hpath : isDataName path = true) : data.find? path = none := by
  rw [← h, accountData, OrderedMap.find?_keep]
  simp [hpath]

theorem find?_of_accountLedger {ledger : Tree} (h : accountLedger ledger = ledger) {path : Str}
    (hpath : isLedgerName path = true) : ledger.find? path = none := by
  rw [← h, accountLedger, OrderedMap.find?_keep]
  simp [hpath]

/-- Directories without files of the tool. -/
theorem sound_start (hdata : accountData storage.data = storage.data)
    (hledger : accountLedger storage.ledger = storage.ledger) : Sound host storage where
  data path hpath := by
    rw [find?_of_accountData hdata (isDataName_pending hpath)]
    trivial
  ledger path hpath := by
    rw [find?_of_accountLedger hledger (isLedgerName_pending hpath)]
    trivial
  lineage := by
    refine .inl ⟨find?_of_accountLedger hledger isLedgerName_domain, ⟨Nat.zero_le _, ?_, ?_⟩,
      find?_of_accountData hdata isDataName_binding⟩
    · intro k hone hk
      omega
    · intro path hslash hstarts hfind
      have hname := isLedgerName_receipt (isReceiptName_iff.mpr ⟨hstarts, hslash⟩)
      exact absurd (find?_of_accountLedger hledger hname) hfind

/-- Every history leads to a sound state. -/
theorem reached_sound (hhost : WritesDigests host) (h : Reached host umask storage) :
    Sound host storage := by
  induction h with
  | start storage hdata hledger => exact sound_start hdata hledger
  | ran timeNs system _ hstate ih => exact states_createSnapshotSteps hhost ih hstate
  | handled timeNs system root path _ hstate hpath ih =>
    have hsound := states_createSnapshotSteps hhost ih hstate
    exact hsound.beside (besideBoth_unlink _ root hpath).1 (besideBoth_unlink _ root hpath).2
  | changed _ hchanged ih => exact sound_changed ih hchanged

end Between

end Pomodorough.Restore.Interruptions
