import Pomodorough.Restore.Copies
import Pomodorough.Restore.Ledger
import Pomodorough.Restore.Lineage

/-! # Recovery files beside account data

The files that `restore_drill.py` keeps for itself in the root of account data and of a
ledger. The check of the one against the other does not look at them, and the inventory
that a receipt records leaves them out. -/
namespace Pomodorough.Restore.RecoveryFiles
open Pomodorough.Library.Fallible Pomodorough.Library.OrderedMaps
open Pomodorough.Library.JsonText Pomodorough.Library.TextBytes
open Pomodorough.Restore.Trees Pomodorough.Restore.Ledger Pomodorough.Restore.Lineage
open Pomodorough.Restore.Copies

/-- What `glob(".pending-recovery-*")` finds. -/
def isPendingName (path : Str) : Bool := pendingPrefix.isPrefixOf path && !path.contains slash

def isReceiptName (path : Str) : Bool := receiptPrefix.isPrefixOf path && !path.contains slash

def isDataName (path : Str) : Bool := path == recoveryBindingFile || isPendingName path

def isLedgerName (path : Str) : Bool :=
  path == recoveryDomainFile || isReceiptName path || isPendingName path

/-- Account data without the files of the tool. -/
def accountData (data : Tree) : Tree := data.keep fun path => !isDataName path

/-- A deletion ledger without the files of the tool. -/
def accountLedger (ledger : Tree) : Tree := ledger.keep fun path => !isLedgerName path

/-- A database is read from the files of its own directory. -/
def ReadsOwnDirectory (host : Host) : Prop :=
  ∀ (data data' : Tree) (name : Str),
    (∀ other, data.find? (users ++ slash :: other) = data'.find? (users ++ slash :: other)) →
    host.generationRow data (users ++ slash :: name) =
      host.generationRow data' (users ++ slash :: name)

/-! ## The names -/

section Names
variable {path : Str}

theorem isPendingName_iff :
    isPendingName path = true ↔ pendingPrefix.isPrefixOf path = true ∧ slash ∉ path := by
  simp [isPendingName]

theorem isReceiptName_iff :
    isReceiptName path = true ↔ receiptPrefix.isPrefixOf path = true ∧ slash ∉ path := by
  simp [isReceiptName]

/-- A name in the root that starts with a dot. -/
structure Hidden (path : Str) : Prop where
  noSlash : slash ∉ path
  dot : path.head? = some 0x2e

theorem head_of_prefix {start : Str} {c : Nat} (hstart : start.head? = some c)
    (h : start.isPrefixOf path = true) : path.head? = some c := by
  obtain ⟨rest, rfl⟩ := List.isPrefixOf_iff_prefix.mp h
  cases start with
  | nil => cases hstart
  | cons d start => exact hstart

theorem hidden_pending (h : isPendingName path = true) : Hidden path := by
  obtain ⟨hstarts, hslash⟩ := isPendingName_iff.mp h
  exact ⟨hslash, head_of_prefix rfl hstarts⟩

theorem hidden_receipt (h : isReceiptName path = true) : Hidden path := by
  obtain ⟨hstarts, hslash⟩ := isReceiptName_iff.mp h
  exact ⟨hslash, head_of_prefix rfl hstarts⟩

theorem hidden_data (h : isDataName path = true) : Hidden path := by
  rw [isDataName, Bool.or_eq_true, beq_iff_eq] at h
  obtain rfl | h := h
  · exact ⟨by decide, rfl⟩
  · exact hidden_pending h

theorem hidden_ledger (h : isLedgerName path = true) : Hidden path := by
  rw [isLedgerName, Bool.or_eq_true, Bool.or_eq_true, beq_iff_eq] at h
  obtain (rfl | h) | h := h
  · exact ⟨by decide, rfl⟩
  · exact hidden_receipt h
  · exact hidden_pending h

theorem not_hidden_of_slash {rest : Str} : ¬ Hidden (path ++ slash :: rest) :=
  fun h => h.noSlash (by simp)

end Names

/-! ## The check of account data -/

section Ledger
variable {host : Host} {ledger : Tree} {records : List (Str × AccountRecords)} {name : Str}

theorem not_accountPrefix (h : Hidden name) : (text "account-").isPrefixOf name = false := by
  rw [Bool.eq_false_iff]
  intro hstarts
  have hhead := head_of_prefix (c := 0x61) rfl hstarts
  rw [h.dot] at hhead
  cases hhead

theorem tombstoneFile_hidden (h : Hidden name) : tombstoneFile name = none := by
  cases hfile : tombstoneFile name with
  | none => rfl
  | some digest =>
    obtain ⟨rfl, hdigest⟩ := tombstoneFile_iff.mp hfile
    have hdot := h.dot
    rw [tombstoneName] at hdot
    cases digest with
    | nil => cases hdigest
    | cons c digest =>
      cases hdot
      cases isDigest_hex hdigest List.mem_cons_self

theorem lifecycleFile_hidden (h : Hidden name) : lifecycleFile name = none := by
  cases hfile : lifecycleFile name with
  | none => rfl
  | some digest =>
    obtain ⟨rfl, -⟩ := lifecycleFile_iff.mp hfile
    cases h.dot

/-- The loop over a ledger passes over the tool's own files. -/
theorem recordEntry_hidden (h : Hidden name) : recordEntry host ledger records name = .ok records := by
  rw [recordEntry, lifecycleFile_hidden h]
  simp [tombstoneFile_hidden h, not_accountPrefix h, check, bind, Except.bind]

theorem recordEntry_account (h : isLedgerName name = false) :
    recordEntry host (accountLedger ledger) records name = recordEntry host ledger records name := by
  have hfind : (accountLedger ledger).find? name = ledger.find? name := by
    simp [accountLedger, OrderedMap.find?_keep, h]
  have hread : readRegular (accountLedger ledger) name (some 65536) =
      readRegular ledger name (some 65536) := by
    rw [readRegular, hfind, readRegular]
  have hjson : strictJson host (accountLedger ledger) name = strictJson host ledger name := by
    rw [strictJson, hread, strictJson]
  rw [recordEntry, recordEntry, parseLifecycle, parseTombstone, hjson, ← parseLifecycle,
    ← parseTombstone]

theorem recordEntries_account (names : List Str) :
    recordEntries host (accountLedger ledger) records (names.filter fun name => !isLedgerName name) =
      recordEntries host ledger records names := by
  induction names generalizing records with
  | nil => rfl
  | cons name names ih =>
    cases hname : isLedgerName name with
    | true =>
      rw [List.filter_cons_of_neg (by simp [hname]), ih, recordEntries,
        recordEntry_hidden (hidden_ledger hname)]
      rfl
    | false =>
      rw [List.filter_cons_of_pos (by simp [hname]), recordEntries, recordEntry_account hname,
        recordEntries]
      simp only [ih]

theorem ledgerHighWatermark_account :
    ledgerHighWatermark host (accountLedger ledger) = ledgerHighWatermark host ledger := by
  have hnames : (children (accountLedger ledger)).map Prod.fst =
      ((children ledger).map Prod.fst).filter fun name => !isLedgerName name := by
    rw [children, accountLedger, OrderedMap.keep, List.filter_filter, children, List.filter_map,
      List.filter_filter]
    exact congrArg _ (List.filter_congr fun e he => Bool.and_comm _ _)
  rw [ledgerHighWatermark, hnames, recordEntries_account, ledgerHighWatermark]

end Ledger

section Data
variable {host : Host} {data ledger : Tree}

theorem find?_accountData {path : Str} (h : ¬ Hidden path) :
    (accountData data).find? path = data.find? path := by
  have hname : isDataName path = false := Bool.eq_false_iff.mpr fun hname => h (hidden_data hname)
  simp [accountData, OrderedMap.find?_keep, hname]

theorem childNames_accountData (directory : Str) :
    childNames (accountData data) directory = childNames data directory := by
  rw [childNames, accountData, OrderedMap.keep, List.filterMap_filter, childNames]
  refine List.filterMap_congr fun e he => ?_
  cases hname : isDataName e.1 with
  | false => rfl
  | true =>
    have hnone : (directory ++ [slash]).isPrefixOf? e.1 = none := by
      rw [Option.eq_none_iff_forall_not_mem]
      intro child hchild
      rw [Option.mem_def, List.isPrefixOf?_eq_some_iff_append_eq, List.append_assoc] at hchild
      exact not_hidden_of_slash (hchild ▸ hidden_data hname)
    simp [hnone]

theorem accountStorage_account : accountStorage (accountData data) = accountStorage data := by
  have husers : ¬ Hidden users := fun h => by cases h.dot
  rw [accountStorage, find?_accountData husers, childNames_accountData, accountStorage]

theorem validateAccount_account (hhost : ReadsOwnDirectory host) (watermark : Watermark)
    (account : Str × AccountStorage) :
    validateAccount host (accountData data) watermark account =
      validateAccount host data watermark account := by
  have hrow (name : Str) : host.generationRow (accountData data) (users ++ slash :: name) =
      host.generationRow data (users ++ slash :: name) :=
    hhost _ _ name fun other => find?_accountData not_hidden_of_slash
  simp only [validateAccount, storedGeneration, hrow]

/-- The check does not look at the tool's own files. -/
theorem validateDataAgainstLedger_account (hhost : ReadsOwnDirectory host) :
    validateDataAgainstLedger host (accountData data) (accountLedger ledger) =
      validateDataAgainstLedger host data ledger := by
  have haccount (watermark : Watermark) : validateAccount host (accountData data) watermark =
      validateAccount host data watermark := funext (validateAccount_account hhost watermark)
  simp only [validateDataAgainstLedger, ledgerHighWatermark_account, accountStorage_account,
    haccount]

end Data

/-! ## Trees that differ in the tool's files -/

section Agree
variable {tree tree' : Tree} {names : Str → Bool}

theorem AgreeBeside.keep_eq (h : AgreeBeside names tree tree') :
    (tree'.keep fun path => !names path) = tree.keep fun path => !names path := by
  refine OrderedMap.ext_find? fun path => ?_
  rw [OrderedMap.find?_keep, OrderedMap.find?_keep]
  cases hname : names path with
  | true => rfl
  | false => rw [h.same path hname]

theorem agreeBeside_keep (h : ∀ path, names path = true → FileOrNone (tree.find? path)) :
    AgreeBeside names tree (tree.keep fun path => !names path) where
  same path hname := by simp [OrderedMap.find?_keep, hname]
  files path hname := ⟨h path hname, by simp [OrderedMap.find?_keep, hname, FileOrNone]⟩

theorem agreeBeside_write {path : Str} {mode : Mode} {contents : Bytes}
    (hname : names path = true) (hfiles : ∀ path, names path = true → FileOrNone (tree.find? path)) :
    AgreeBeside names tree (tree.write path (.file mode contents)) where
  same other hother := by
    have hne : other ≠ path := by
      rintro rfl
      rw [hname] at hother
      cases hother
    exact OrderedMap.find?_write_of_ne hne
  files other hother := by
    refine ⟨hfiles other hother, ?_⟩
    by_cases heq : other = path
    · subst heq
      rw [OrderedMap.find?_write_self]
      trivial
    · rw [OrderedMap.find?_write_of_ne heq]
      exact hfiles other hother

end Agree

/-! ## Cleaning up -/

/-- A directory without the temporary files of runs that were stopped. -/
def cleaned (root : Tree) : Tree := root.keep fun path => !isPendingName path

section Cleaning
variable {root tree : Tree}

theorem cleanupPendingRecovery_iff :
    cleanupPendingRecovery root = .ok tree ↔
      (∀ path, isPendingName path = true → FileOrNone (root.find? path)) ∧ tree = cleaned root := by
  rw [cleanupPendingRecovery, bind_ok_iff]
  simp only [checkAll_ok_iff]
  constructor
  · rintro ⟨_, hall, htree⟩
    cases htree
    refine ⟨fun path hpending => ?_, rfl⟩
    cases hfind : root.find? path with
    | none => trivial
    | some node =>
      obtain ⟨hstarts, hslash⟩ := isPendingName_iff.mp hpending
      have hchild : (path, node) ∈ children root :=
        List.mem_filter.mpr ⟨OrderedMap.find?_iff_mem.mp hfind, by simpa using hslash⟩
      have hchecked := hall (path, node) (List.mem_filter.mpr ⟨hchild, hstarts⟩)
      cases node with
      | file mode contents => trivial
      | directory mode => cases hchecked
      | other => cases hchecked
  · rintro ⟨hfiles, rfl⟩
    refine ⟨(), fun e he => ?_, rfl⟩
    obtain ⟨hchild, hstarts⟩ := List.mem_filter.mp he
    obtain ⟨hmem, hslash⟩ := List.mem_filter.mp hchild
    obtain ⟨path, node⟩ := e
    have hfile := hfiles path (isPendingName_iff.mpr ⟨hstarts, by simpa using hslash⟩)
    rw [OrderedMap.find?_iff_mem.mpr hmem] at hfile
    cases node with
    | file mode contents => rfl
    | directory mode => cases hfile
    | other => cases hfile

theorem cleanupPendingRecovery_error (h : ∀ tree, cleanupPendingRecovery root ≠ .ok tree) :
    cleanupPendingRecovery root = .error (.valueError "unsafe interrupted recovery file") := by
  cases hrun : cleanupPendingRecovery root with
  | ok tree => exact absurd hrun (h tree)
  | error e =>
    unfold cleanupPendingRecovery at hrun
    refine congrArg Except.error (error_of_checkAll ?_ ?_ hrun)
    on_goal 2 => exact ⟨_, rfl⟩
    intro item
    obtain ⟨path, node⟩ := item
    cases node with
    | file mode contents => exact .inl rfl
    | directory mode => exact .inr rfl
    | other => exact .inr rfl

end Cleaning

/-! ## The inventory a receipt records -/

section Inventory
variable {α β ε : Type} {f : α → Except ε β} {p : α → Bool} {q : β → Bool}

/-- Leaving elements out before or after makes no difference where only they are left out. -/
theorem mapAll_filter (l : List α) (hpq : ∀ a b, f a = .ok b → q b = p a)
    (hok : ∀ a ∈ l, p a = false → ∃ b, f a = .ok b) :
    mapAll f (l.filter p) = (do let bs ← mapAll f l; .ok (bs.filter q)) := by
  induction l with
  | nil => rfl
  | cons a l ih =>
    obtain ⟨ha, hl⟩ := List.forall_mem_cons.mp hok
    have hrest := ih hl
    cases hp : p a with
    | false =>
      obtain ⟨b, hb⟩ := ha hp
      have hq : q b = false := (hpq a b hb).trans hp
      rw [List.filter_cons_of_neg (by simp [hp]), hrest, mapAll, hb]
      cases mapAll f l with
      | error e => rfl
      | ok bs => simp [bind, Except.bind, hq]
    | true =>
      rw [List.filter_cons_of_pos hp, mapAll, hrest, mapAll]
      cases hb : f a with
      | error e => rfl
      | ok b =>
        have hq : q b = true := (hpq a b hb).trans hp
        cases mapAll f l with
        | error e => rfl
        | ok bs => simp [bind, Except.bind, hq]

variable {host : Host} {data : Tree}

/-- Without temporary files, the state of account data is all but the tool's files. -/
theorem dataStateInventory_eq (hpending : ∀ path, isPendingName path = true → data.find? path = none)
    (hbinding : FileOrNone (data.find? recoveryBindingFile)) :
    dataStateInventory host data = inventory host (accountData data) := by
  have hkept : (accountData data).entries =
      data.entries.filter fun e => decide (e.1 ≠ recoveryBindingFile) := by
    refine List.filter_congr fun e he => ?_
    have hname : isPendingName e.1 = false := by
      rw [Bool.eq_false_iff]
      intro hname
      have hfind : data.find? e.1 = some e.2 := OrderedMap.find?_iff_mem.mpr he
      rw [hpending e.1 hname] at hfind
      cases hfind
    by_cases heq : e.1 = recoveryBindingFile <;> simp [isDataName, hname, heq]
  rw [dataStateInventory, inventory, inventory, hkept, mapAll_filter]
  · intro item entry hentry
    rw [inventoryEntry_path hentry]
  · rintro ⟨path, node⟩ hmem hpath
    have heq : path = recoveryBindingFile := by simpa using hpath
    rw [← heq, OrderedMap.find?_iff_mem.mpr hmem] at hbinding
    cases node with
    | file mode contents => exact ⟨_, rfl⟩
    | directory mode => cases hbinding
    | other => cases hbinding

end Inventory

end Pomodorough.Restore.RecoveryFiles
