import Pomodorough.Restore.RecoveryRecords

/-! # Chains of receipts

The receipts of successive states of account data, each authenticated and each naming the
one before. A ledger that holds such a chain, and no other file named like a receipt, is
read by `load_recovery_receipts` as that chain. -/
namespace Pomodorough.Restore.ReceiptChains
open Pomodorough.Library.Fallible Pomodorough.Library.OrderedMaps
open Pomodorough.Library.JsonText Pomodorough.Library.TextBytes
open Pomodorough.Restore.Trees Pomodorough.Restore.Lineage Pomodorough.Restore.RecoveryRecords

/-- The receipts of some inventories from a number on, after a receipt. -/
def chainFrom (host : Host) (domain : RecoveryDomain) :
    Nat → Str → List Str → List RecoveryReceipt
  | _, _, [] => []
  | sequence, previous, digest :: digests =>
    let receipt := receiptOf host domain sequence previous digest
    receipt :: chainFrom host domain (sequence + 1) receipt.receiptSha256 digests

/-- What a receipt after these names as the one before it. -/
def lastDigest (previous : Str) (receipts : List RecoveryReceipt) : Str :=
  (receipts.getLast?.map RecoveryReceipt.receiptSha256).getD previous

/-- A ledger holds the files of these receipts. -/
def HoldsFrom (host : Host) (domain : RecoveryDomain) (ledger : Tree) : Nat → Str → List Str → Prop
  | _, _, [] => True
  | sequence, previous, digest :: digests =>
    ledger.find? (receiptName sequence) =
        some (recordNode (receiptJson host domain sequence previous digest)) ∧
      HoldsFrom host domain ledger (sequence + 1)
        (receiptOf host domain sequence previous digest).receiptSha256 digests

/-- The numbers and names of some receipts. -/
def namesFrom (sequence count : Nat) : List (Nat × Str) :=
  (List.range' sequence count).map fun k => (k, receiptName k)

section Chains
variable {host : Host} {domain : RecoveryDomain} {ledger ledger' : Tree} {sequence : Nat}
  {previous digest : Str} {digests : List Str}

@[simp] theorem length_chainFrom :
    (chainFrom host domain sequence previous digests).length = digests.length := by
  induction digests generalizing sequence previous with
  | nil => rfl
  | cons digest digests ih => simp [chainFrom, ih]

theorem lastDigest_cons (receipt : RecoveryReceipt) (receipts : List RecoveryReceipt) :
    lastDigest previous (receipt :: receipts) = lastDigest receipt.receiptSha256 receipts := by
  cases receipts with
  | nil => rfl
  | cons first rest => simp [lastDigest, List.getLast?_cons]

/-- The next receipt of a chain continues it. -/
theorem chainFrom_snoc :
    chainFrom host domain sequence previous (digests ++ [digest]) =
      chainFrom host domain sequence previous digests ++
        [receiptOf host domain (sequence + digests.length)
          (lastDigest previous (chainFrom host domain sequence previous digests)) digest] := by
  induction digests generalizing sequence previous with
  | nil => rfl
  | cons first digests ih =>
    simp only [List.cons_append, chainFrom, ih, lastDigest_cons, List.length_cons]
    rw [Nat.add_right_comm, Nat.add_assoc]

theorem HoldsFrom.snoc (h : HoldsFrom host domain ledger sequence previous digests)
    (hfind : ledger.find? (receiptName (sequence + digests.length)) =
      some (recordNode (receiptJson host domain (sequence + digests.length)
        (lastDigest previous (chainFrom host domain sequence previous digests)) digest))) :
    HoldsFrom host domain ledger sequence previous (digests ++ [digest]) := by
  induction digests generalizing sequence previous with
  | nil => exact ⟨hfind, trivial⟩
  | cons first digests ih =>
    obtain ⟨hfirst, hrest⟩ := h
    refine ⟨hfirst, ih hrest ?_⟩
    rw [chainFrom, lastDigest_cons, List.length_cons, ← Nat.add_assoc, Nat.add_right_comm] at hfind
    exact hfind

/-- Only the files of receipts matter. -/
theorem HoldsFrom.congr (h : HoldsFrom host domain ledger sequence previous digests)
    (hfind : ∀ k, ledger.find? (receiptName k) ≠ none →
      ledger'.find? (receiptName k) = ledger.find? (receiptName k)) :
    HoldsFrom host domain ledger' sequence previous digests := by
  induction digests generalizing sequence previous with
  | nil => trivial
  | cons first digests ih =>
    obtain ⟨hfirst, hrest⟩ := h
    refine ⟨?_, ih hrest⟩
    rw [hfind sequence (by simp [hfirst]), hfirst]

theorem HoldsFrom.file (h : HoldsFrom host domain ledger sequence previous digests) {k : Nat}
    (hle : sequence ≤ k) (hlt : k < sequence + digests.length) :
    ∃ value, ledger.find? (receiptName k) = some (recordNode value) := by
  induction digests generalizing sequence previous with
  | nil => simp at hlt; omega
  | cons first digests ih =>
    obtain ⟨hfirst, hrest⟩ := h
    obtain rfl | hgt := Nat.eq_or_lt_of_le hle
    · exact ⟨_, hfirst⟩
    · refine ih hrest hgt ?_
      rw [List.length_cons] at hlt
      omega

theorem mem_chainFrom {receipt : RecoveryReceipt} {k : Nat}
    (h : (chainFrom host domain sequence previous digests)[k]? = some receipt) :
    receipt.sequence = sequence + k ∧ receipt.dataInventorySha256 ∈ digests ∧
      ∃ contents, receipt.receiptSha256 = host.sha256 contents := by
  induction digests generalizing sequence previous k with
  | nil => cases h
  | cons first digests ih =>
    cases k with
    | zero =>
      cases h
      exact ⟨rfl, List.mem_cons_self, _, rfl⟩
    | succ k =>
      obtain ⟨hsequence, hmem, hsha⟩ := ih h
      exact ⟨by omega, List.mem_cons_of_mem _ hmem, hsha⟩

/-- The loop accepts the files of a chain. -/
theorem loadReceiptsFrom_chain (hhost : WritesDigests host) (hdomain : ValidDomain domain)
    (hprevious : isDigest previous = true) (hdigests : ∀ digest ∈ digests, isDigest digest = true)
    (hsequence : sequence + digests.length ≤ MAX_SAFE_REVISION + 1)
    (h : HoldsFrom host domain ledger sequence previous digests) :
    loadReceiptsFrom host domain ledger sequence previous (namesFrom sequence digests.length) =
      .ok (chainFrom host domain sequence previous digests) := by
  induction digests generalizing sequence previous with
  | nil => rfl
  | cons first digests ih =>
    obtain ⟨hfind, hrest⟩ := h
    obtain ⟨hfirst, hdigests⟩ := List.forall_mem_cons.mp hdigests
    rw [List.length_cons] at hsequence
    have hparse := parseRecoveryReceipt_written hhost hdomain hprevious hfirst (by omega) hfind
    have hloop := ih (hhost.sha256 _) hdigests (by omega) hrest
    have hnames : namesFrom sequence (digests.length + 1) =
        (sequence, receiptName sequence) :: namesFrom (sequence + 1) digests.length := by
      simp [namesFrom, List.range'_succ]
    rw [List.length_cons, hnames, loadReceiptsFrom, hparse]
    refine bind_ok_iff.mpr ⟨(), check_ok_iff.mpr rfl, ?_⟩
    exact bind_ok_iff.mpr ⟨_, rfl, bind_ok_iff.mpr ⟨_, hloop, rfl⟩⟩

end Chains

/-! ## The names in a ledger -/

section Names
variable {ledger ledger' : Tree} {count : Nat}

/-- The files named like receipts are the receipts from one on. -/
structure HasReceipts (ledger : Tree) (count : Nat) : Prop where
  bounded : count ≤ MAX_SAFE_REVISION
  present : ∀ k, 1 ≤ k → k ≤ count → ledger.find? (receiptName k) ≠ none
  only : ∀ name, slash ∉ name → receiptPrefix.isPrefixOf name = true → ledger.find? name ≠ none →
    ∃ k, 1 ≤ k ∧ k ≤ count ∧ name = receiptName k

theorem HasReceipts.congr (h : HasReceipts ledger count)
    (hfind : ∀ path, slash ∉ path → receiptPrefix.isPrefixOf path = true →
      ledger'.find? path = ledger.find? path) :
    HasReceipts ledger' count where
  bounded := h.bounded
  present k hone hk := by
    rw [hfind _ (receiptName_noSlash k) (receiptName_starts k)]
    exact h.present k hone hk
  only name hslash hstarts hname := by
    rw [hfind name hslash hstarts] at hname
    exact h.only name hslash hstarts hname

/-- The next receipt is written. -/
theorem HasReceipts.write (h : HasReceipts ledger count) (hcount : count + 1 ≤ MAX_SAFE_REVISION)
    (node : Node) : HasReceipts (ledger.write (receiptName (count + 1)) node) (count + 1) where
  bounded := hcount
  present k hone hk := by
    by_cases heq : receiptName k = receiptName (count + 1)
    · rw [heq, OrderedMap.find?_write_self]
      exact Option.some_ne_none node
    · rw [OrderedMap.find?_write_of_ne heq]
      have hne : k ≠ count + 1 := fun hk => heq (hk ▸ rfl)
      exact h.present k hone (by omega)
  only name hslash hstarts hname := by
    by_cases heq : name = receiptName (count + 1)
    · exact ⟨count + 1, by omega, le_rfl, heq⟩
    · rw [OrderedMap.find?_write_of_ne heq] at hname
      obtain ⟨k, hone, hk, hname⟩ := h.only name hslash hstarts hname
      exact ⟨k, hone, by omega, hname⟩

theorem HasReceipts.missing (h : HasReceipts ledger count) (hcount : count + 1 ≤ MAX_SAFE_REVISION) :
    ledger.find? (receiptName (count + 1)) = none := by
  by_contra hfind
  obtain ⟨k, -, hk, heq⟩ := h.only _ (receiptName_noSlash _) (receiptName_starts _) hfind
  have := receiptName_injective hcount (hk.trans h.bounded) heq
  omega

theorem recoveryReceiptFile_starts {name : Str} {k : Nat} (h : recoveryReceiptFile name = some k) :
    receiptPrefix.isPrefixOf name = true := by
  obtain ⟨rest, hrest, -⟩ := Option.bind_eq_some_iff.mp h
  rw [List.isPrefixOf?_eq_some_iff_append_eq] at hrest
  rw [List.isPrefixOf_iff_prefix, ← hrest]
  exact List.prefix_append _ _

/-- The receipts of a ledger are found in their order. -/
theorem recoveryReceiptPaths_eq (h : HasReceipts ledger count) :
    recoveryReceiptPaths ledger = .ok (namesFrom 1 count) := by
  have hvalid : ∀ name ∈ (children ledger).map Prod.fst, receiptPrefix.isPrefixOf name = true →
      (recoveryReceiptFile name).isSome = true := by
    intro name hmem hstarts
    obtain ⟨hslash, hfind⟩ := mem_children.mp hmem
    obtain ⟨k, -, hk, rfl⟩ := h.only name hslash hstarts hfind
    rw [recoveryReceiptFile_receiptName (hk.trans h.bounded)]
    rfl
  let found := ((children ledger).map Prod.fst).filterMap fun name =>
    (recoveryReceiptFile name).map fun n => (n, name)
  have hmem : ∀ item, item ∈ found ↔ item ∈ namesFrom 1 count := by
    rintro ⟨k, name⟩
    simp only [found, namesFrom, List.mem_filterMap, List.mem_map, List.mem_range'_1,
      Option.map_eq_some_iff, Prod.mk.injEq]
    constructor
    · rintro ⟨other, hother, n, hn, rfl, rfl⟩
      obtain ⟨hslash, hfind⟩ := mem_children.mp (List.mem_map.mpr hother)
      obtain ⟨k, hone, hk, rfl⟩ := h.only other hslash (recoveryReceiptFile_starts hn) hfind
      rw [recoveryReceiptFile_receiptName (hk.trans h.bounded)] at hn
      cases hn
      exact ⟨n, ⟨hone, by omega⟩, rfl, rfl⟩
    · rintro ⟨n, ⟨hone, hlt⟩, rfl, rfl⟩
      have hk : n ≤ count := by omega
      have hchild := mem_children.mpr ⟨receiptName_noSlash n, h.present n hone hk⟩
      exact ⟨receiptName n, List.mem_map.mp hchild, n,
        recoveryReceiptFile_receiptName (hk.trans h.bounded), rfl, rfl⟩
  have hnodup : found.Nodup := by
    refine children_names_nodup.filterMap ?_
    intro name other item hname hother
    simp only [Option.mem_def, Option.map_eq_some_iff] at hname hother
    obtain ⟨_, _, rfl⟩ := hname
    obtain ⟨_, _, heq⟩ := hother
    exact (congrArg Prod.snd heq).symm
  have hnames : (namesFrom 1 count).Nodup :=
    (List.nodup_range' ..).map fun a b heq => congrArg Prod.fst heq
  have hperm : (found.insertionSort fun a b => a.1 ≤ b.1).Perm (namesFrom 1 count) :=
    (List.perm_insertionSort _ _).trans ((List.perm_ext_iff_of_nodup hnodup hnames).mpr hmem)
  have hsorted : (namesFrom 1 count).Pairwise fun a b => a.1 ≤ b.1 := by
    refine List.pairwise_map.mpr ?_
    exact (List.pairwise_lt_range' ..).imp fun h => Nat.le_of_lt h
  have heq : (found.insertionSort fun a b => a.1 ≤ b.1) = namesFrom 1 count := by
    refine hperm.eq_of_pairwise ?_ (List.pairwise_insertionSort _ _) hsorted
    intro a b ha hb hab hba
    have hfirst := le_antisymm hab hba
    obtain ⟨k, -, rfl⟩ := List.mem_map.mp (hperm.mem_iff.mp ha)
    obtain ⟨k', -, rfl⟩ := List.mem_map.mp hb
    cases hfirst
    rfl
  rw [recoveryReceiptPaths, check, if_pos hvalid]
  exact congrArg Except.ok heq

end Names

section Loading
variable {host : Host} {domain : RecoveryDomain} {ledger : Tree} {digests : List Str}

theorem zeroDigest_isDigest : isDigest zeroDigest = true := by decide

/-- A ledger is read as the chain it holds. -/
theorem loadRecoveryReceipts_chain (hhost : WritesDigests host) (hdomain : ValidDomain domain)
    (hdigests : ∀ digest ∈ digests, isDigest digest = true)
    (hnames : HasReceipts ledger digests.length)
    (h : HoldsFrom host domain ledger 1 zeroDigest digests) :
    loadRecoveryReceipts host domain ledger = .ok (chainFrom host domain 1 zeroDigest digests) := by
  have hbound := hnames.bounded
  rw [loadRecoveryReceipts, recoveryReceiptPaths_eq hnames]
  exact loadReceiptsFrom_chain hhost hdomain zeroDigest_isDigest hdigests (by omega) h

end Loading

end Pomodorough.Restore.ReceiptChains
