import Pomodorough.Restore.Copies
import Pomodorough.Restore.Installation
import Pomodorough.Restore.WrittenManifests

/-! # A restore keeps deletions

What `restore_snapshot` of `restore_drill.py` installs, while the two snapshots may change as
they are read: the ledger has every deletion that the older ledger had, and no account
database that it does not either delete or hold for current. -/
namespace Pomodorough.Restore.KeptDeletions
open Pomodorough.Library.Fallible Pomodorough.Library.OrderedMaps
open Pomodorough.Library.JsonText Pomodorough.Library.TextBytes
open Pomodorough.Restore.Trees Pomodorough.Restore.Ledger Pomodorough.Restore.Lineage
open Pomodorough.Restore.Snapshots Pomodorough.Restore.Copies Pomodorough.Restore.WrittenManifests
open Pomodorough.Restore.Installation

/-! ## Copies with one inventory -/

/-- Files at one path of the two directories with one digest have the same contents. -/
def CollisionFree (host : Host) (tree tree' : Tree) : Prop :=
  ∀ path mode mode' contents contents', tree.find? path = some (.file mode contents) →
    tree'.find? path = some (.file mode' contents') →
    host.sha256 contents = host.sha256 contents' → contents = contents'

/-- What files contain comes from the files of another directory. -/
def FilesFrom (source target : Tree) : Prop :=
  ∀ path mode contents, target.find? path = some (.file mode contents) →
    ∃ mode', source.find? path = some (.file mode' contents)

section Copies
variable {host : Host} {umask : Mode} {mode : Nat} {source source' target target' : Tree}
  {path : Str} {paths : List Str} {entry : Entry} {entries : List Entry}

theorem FilesFrom.refl (tree : Tree) : FilesFrom tree tree := fun _ mode _ hfind => ⟨mode, hfind⟩

theorem FilesFrom.write_directory (h : FilesFrom source target) (made : Mode) :
    FilesFrom source (target.write path (.directory made)) := by
  intro other mode contents hfind
  by_cases heq : other = path
  · rw [heq, OrderedMap.find?_write_self] at hfind
    cases hfind
  · rw [OrderedMap.find?_write_of_ne heq] at hfind
    exact h other mode contents hfind

theorem FilesFrom.write_file (h : FilesFrom source target) {sourceMode : Mode} {contents : Bytes}
    (hsource : source.find? path = some (.file sourceMode contents)) (made : Mode) :
    FilesFrom source (target.write path (.file made contents)) := by
  intro other mode kept hfind
  by_cases heq : other = path
  · rw [heq, OrderedMap.find?_write_self] at hfind
    cases hfind
    exact ⟨sourceMode, heq ▸ hsource⟩
  · rw [OrderedMap.find?_write_of_ne heq] at hfind
    exact h other mode kept hfind

theorem filesFrom_makeParents (h : FilesFrom source target)
    (hrun : makeParents umask mode target paths = .ok target') : FilesFrom source target' := by
  induction paths generalizing target with
  | nil =>
    cases hrun
    exact h
  | cons path paths ih =>
    unfold makeParents at hrun
    split at hrun
    · exact ih h hrun
    · cases hrun
    · exact ih (h.write_directory _) hrun

theorem readRegular_file {maximum : Option Nat} {contents : Bytes} {made : Mode}
    (h : readRegular source path maximum = .ok (contents, made)) :
    source.find? path = some (.file made contents) := by
  unfold readRegular at h
  split at h
  · cases h
  · next hfind =>
    split at h
    · cases h
    · cases h
      exact hfind
  · cases h

theorem filesFrom_copyEntry (h : FilesFrom source target)
    (hrun : copyEntry host umask source target entry = .ok target') : FilesFrom source target' := by
  cases entry with
  | directory path mode =>
    rw [copyEntry] at hrun
    split at hrun
    · simp only [bind_ok_iff] at hrun
      obtain ⟨_, -, parents, hparents, hnew⟩ := hrun
      obtain ⟨-, rfl⟩ := makeNew_ok hnew
      exact (filesFrom_makeParents h hparents).write_directory _
    · cases hrun
    · cases hrun
  | file path mode size sha256 =>
    simp only [copyEntry, copyInventoryFile, bind_ok_iff] at hrun
    obtain ⟨parents, hparents, ⟨contents, sourceMode⟩, hread, _, -, copied, hnew, _, -, hpure⟩ := hrun
    cases hpure
    obtain ⟨-, rfl⟩ := makeNew_ok hnew
    exact (filesFrom_makeParents h hparents).write_file (readRegular_file hread) _

theorem filesFrom_copyInventory (hrun : copyInventory host umask source entries = .ok target) :
    FilesFrom source target := by
  have hcopy (entries : List Entry) (before after : Tree) (h : FilesFrom source before)
      (hrun : copyEntries host umask source before entries = .ok after) :
      FilesFrom source after := by
    induction entries generalizing before with
    | nil =>
      cases hrun
      exact h
    | cons entry entries ih =>
      obtain ⟨middle, hentry, hrun⟩ := bind_ok_iff.mp hrun
      exact ih middle (filesFrom_copyEntry h hentry) hrun
  refine hcopy entries .empty target ?_ hrun
  intro path mode contents hfind
  cases hfind

/-- What has the inventory of a directory is in it what it is there. -/
theorem find?_of_inventory (hfree : CollisionFree host source source')
    (hfrom : FilesFrom source target) (hfrom' : FilesFrom source' target')
    (h : inventory host target = .ok entries) (h' : inventory host target' = .ok entries)
    {node : Node} (hfind : target.find? path = some node) : target'.find? path = some node := by
  obtain ⟨entry, hentry⟩ := mapAll_each h (path, node) (OrderedMap.find?_iff_mem.mp hfind)
  have hmem : entry ∈ entries :=
    (mem_inventory h).mpr ⟨(path, node), OrderedMap.find?_iff_mem.mp hfind, hentry⟩
  obtain ⟨⟨path', node'⟩, hitem, hentry'⟩ := (mem_inventory h').mp hmem
  have hpath : path' = path :=
    (inventoryEntry_path hentry').symm.trans (inventoryEntry_path hentry)
  subst hpath
  have hfind' := OrderedMap.find?_iff_mem.mpr hitem
  cases node with
  | other => cases hentry
  | directory mode =>
    cases hentry
    cases node' with
    | other => cases hentry'
    | file mode' contents' => cases hentry'
    | directory mode' =>
      simp only [inventoryEntry, Except.ok.injEq, Entry.directory.injEq] at hentry'
      rw [hfind', BitVec.eq_of_toNat_eq hentry'.2]
  | file mode contents =>
    cases hentry
    cases node' with
    | other => cases hentry'
    | directory mode' => cases hentry'
    | file mode' contents' =>
      simp only [inventoryEntry, Except.ok.injEq, Entry.file.injEq] at hentry'
      obtain ⟨-, hmode, -, hdigest⟩ := hentry'
      obtain ⟨_, hsource⟩ := hfrom _ mode contents hfind
      obtain ⟨_, hsource'⟩ := hfrom' _ mode' contents' hfind'
      rw [hfind', BitVec.eq_of_toNat_eq hmode,
        hfree _ _ _ _ _ hsource hsource' hdigest.symm]

/-- Without collisions, copies with one inventory are the same. -/
theorem same_copies (hfree : CollisionFree host source source') (hfrom : FilesFrom source target)
    (hfrom' : FilesFrom source' target') (h : inventory host target = .ok entries)
    (h' : inventory host target' = .ok entries) : target = target' := by
  have hsymm : CollisionFree host source' source := fun _ _ _ _ _ hfind hfind' hsha =>
    (hfree _ _ _ _ _ hfind' hfind hsha.symm).symm
  refine OrderedMap.ext_find? fun path => Option.ext fun node => ?_
  exact ⟨find?_of_inventory hfree hfrom hfrom' h h', find?_of_inventory hsymm hfrom' hfrom h' h⟩

end Copies

/-! ## Watermarks and records -/

section Records
variable {host : Host} {ledger : Tree} {digest : Str} {watermark : Watermark}
  {records : AccountRecords} {highWatermark : HighWatermark}

theorem lookup_mapAll {α β ε : Type} {f : α → Except ε β} {l : List (Str × α)} {l' : List (Str × β)}
    (h : mapAll (fun e => do let b ← f e.2; .ok (e.1, b)) l = .ok l') (key : Str) :
    (∀ b, l'.lookup key = some b → ∃ a, l.lookup key = some a ∧ f a = .ok b) ∧
      ∀ a, l.lookup key = some a → ∃ b, l'.lookup key = some b := by
  induction l generalizing l' with
  | nil =>
    cases h
    exact ⟨nofun, nofun⟩
  | cons e l ih =>
    obtain ⟨made, hmade, h⟩ := bind_ok_iff.mp h
    obtain ⟨rest, hrest, h⟩ := bind_ok_iff.mp h
    obtain ⟨b, hb, hpair⟩ := bind_ok_iff.mp hmade
    cases hpair
    cases h
    obtain ⟨hback, hforth⟩ := ih hrest
    rw [List.lookup_cons, List.lookup_cons]
    cases key == e.1 with
    | true => exact ⟨fun c hc => ⟨e.2, rfl, Option.some.inj hc ▸ hb⟩, fun _ _ => ⟨b, rfl⟩⟩
    | false => exact ⟨hback, hforth⟩

/-- The watermark of an account comes from its records in the ledger, if it has any. -/
theorem lookup_watermark (h : ledgerHighWatermark host ledger = .ok watermark)
    (hdigest : isDigest digest = true) :
    (∀ highWatermark, watermark.lookup digest = some highWatermark →
      normalizeHighWatermark (accountRecords host ledger digest) = .ok highWatermark) ∧
    (accountRecords host ledger digest ≠ .none → ∃ highWatermark,
      watermark.lookup digest = some highWatermark) := by
  obtain ⟨collected, hcollected, hall⟩ := bind_ok_iff.mp h
  have hvalue := (collected_nil.run hcollected).value digest hdigest
  have hnames : recordsIn host ledger (((children ledger).map Prod.fst).reverse ++ []) digest =
      recordsIn host ledger ((children ledger).map Prod.fst) digest := by
    simp only [recordsIn, List.append_nil, List.mem_reverse]
  rw [hnames, recordsIn_children hdigest] at hvalue
  obtain ⟨hback, hforth⟩ := lookup_mapAll hall digest
  constructor
  · intro highWatermark hlookup
    obtain ⟨value, hfound, hnormalize⟩ := hback highWatermark hlookup
    rw [hfound] at hvalue
    exact hvalue ▸ hnormalize
  · intro hsome
    cases hfound : collected.lookup digest with
    | none =>
      rw [hfound] at hvalue
      exact absurd hvalue.symm hsome
    | some value => exact hforth value hfound

/-- What the watermark says of the records of an account. -/
structure Normalized (records : AccountRecords) (highWatermark : HighWatermark) : Prop where
  generation : highWatermark.generation = max records.lifecycleGeneration records.deletedGeneration
  lifecycleGeneration : highWatermark.lifecycleGeneration = records.lifecycleGeneration
  deletedGeneration : highWatermark.deletedGeneration = records.deletedGeneration
  active : highWatermark.state = .active →
    ∃ lifecycle, records.lifecycle = some lifecycle ∧ lifecycle.state = .active

theorem normalized_of_ok (h : normalizeHighWatermark records = .ok highWatermark) :
    Normalized records highWatermark := by
  simp only [normalizeHighWatermark, bind_ok_iff] at h
  obtain ⟨_, -, h⟩ := h
  split at h
  · cases h
    refine ⟨rfl, rfl, rfl, fun hactive => ?_⟩
    cases hactive
  · split at h
    · next lifecycle hlifecycle =>
      cases h
      exact ⟨rfl, rfl, rfl, fun hactive => ⟨lifecycle, hlifecycle, hactive⟩⟩
    · cases h

theorem ok_of_toOption {α ε : Type} {x : Except ε α} {a : α} (h : x.toOption = some a) :
    x = .ok a := by
  cases x with
  | error e => cases h
  | ok b => exact congrArg Except.ok (Option.some.inj h)

theorem tombstone_of_deletedGeneration {generation : Nat} (hpositive : 0 < generation)
    (h : generation ≤ (accountRecords host ledger digest).deletedGeneration) :
    ∃ tombstone, parseTombstone host ledger (tombstoneName digest) = .ok tombstone ∧
      generation ≤ tombstone.deletedGeneration := by
  rw [AccountRecords.deletedGeneration] at h
  cases hrecord : (accountRecords host ledger digest).tombstone with
  | none =>
    rw [hrecord] at h
    exact absurd h hpositive.not_ge
  | some tombstone =>
    rw [hrecord] at h
    exact ⟨tombstone, ok_of_toOption hrecord, h⟩

end Records

/-! ## Verified ledgers -/

section Ledgers
variable {host : Host} {umask : Mode} {reading : Reading} {expected : Option Str} {manifest : Manifest}

/-- The watermark of a verified manifest is that of a copy of the ledger it lists. -/
theorem verifySnapshot_ledger (h : verifySnapshot host umask reading expected = .ok manifest) :
    ∃ copy, FilesFrom reading.copied.ledger copy ∧
      inventory host copy = .ok manifest.ledgerInventory ∧
      inventory host reading.listed.ledger = .ok manifest.ledgerInventory ∧
      ledgerHighWatermark host copy = .ok manifest.ledgerHighWatermark := by
  simp only [verifySnapshot, bind_ok_iff] at h
  obtain ⟨⟨fields, digest⟩, -, schema, -, dataInventory, -, ledgerInventory, hledger, _, hsame, _, -,
    copy, hcopy, watermark, hvalid, _, -, _, -, hmanifest⟩ := h
  cases hmanifest
  obtain ⟨-, rfl⟩ := check_ok_iff.mp hsame
  simp only [validateSnapshotCopy, bind_ok_iff, unchanged_iff] at hvalid
  obtain ⟨found, hwatermark, _, -, _, -, _, -, _, ⟨-, hinventory⟩, hend⟩ := hvalid
  cases hend
  exact ⟨copy, filesFrom_copyInventory hcopy, hinventory, hledger,
    ledgerHighWatermark_of_valid hwatermark⟩

/-- The loops of `require_ledger_dominates`, account by account. -/
theorem dominates_account {trusted baseline : Manifest} {digest : Str} {older : HighWatermark}
    (h : requireLedgerDominates trusted baseline = .ok ())
    (hlookup : baseline.ledgerHighWatermark.lookup digest = some older) :
    ∃ newer, trusted.ledgerHighWatermark.lookup digest = some newer ∧
      older.deletedGeneration ≤ newer.deletedGeneration ∧ older.generation ≤ newer.generation := by
  simp only [requireLedgerDominates, bind_ok_iff] at h
  obtain ⟨_, -, _, haccounts, -⟩ := h
  have haccount := checkAll_ok_iff.mp haccounts (digest, older) (mem_of_lookup hlookup)
  simp only [requireAccountDominates] at haccount
  split at haccount
  · cases haccount
  · next newer hnewer =>
    simp only [bind_ok_iff] at haccount
    obtain ⟨_, hdeleted, hstale⟩ := haccount
    have hrank := check_ok_iff.mp hstale
    simp only [staleRank, Bool.or_eq_false_iff, decide_eq_false_iff_not] at hrank
    exact ⟨newer, hnewer, check_ok_iff.mp hdeleted, by omega⟩

end Ledgers

/-! ## Databases -/

section Databases
variable {host : Host} {data : Tree} {accounts : List (Str × AccountStorage)} {name other userID : Str}

theorem accountFile_name (h : accountFile name = some (userID, none)) :
    name = userID ++ text ".sqlite" := by
  simp only [accountFile] at h
  split at h
  · split at h
    · next hrest =>
      cases h
      rw [← hrest, List.take_append_drop]
    · split at h
      · cases h
      · split at h <;> cases h
  · cases h

/-- The database of an account was found. -/
def Found (accounts : List (Str × AccountStorage)) (userID name : Str) : Prop :=
  ∃ storage, accounts.lookup userID = some storage ∧ storage.main = some name

theorem found_storeEntry (hname : accountFile name = some (userID, none))
    (h : Found accounts userID name ∨ other = name) :
    Found (storeEntry accounts other) userID name := by
  have hkeep (changed : Str) (change : AccountStorage → AccountStorage)
      (hchange : changed = userID → ∀ account, (change account).main = some name ∨
        (change account).main = account.main) (hfound : Found accounts userID name) :
      Found (upsert changed .none change accounts) userID name := by
    obtain ⟨storage, hlookup, hmain⟩ := hfound
    by_cases heq : userID = changed
    · subst heq
      refine ⟨_, lookup_upsert_self, ?_⟩
      rw [hlookup, Option.getD_some]
      obtain hset | hsame := hchange rfl storage
      · exact hset
      · exact hsame.trans hmain
    · exact ⟨storage, (lookup_upsert_of_ne heq).trans hlookup, hmain⟩
  obtain hfound | rfl := h
  · unfold storeEntry
    split
    · exact hfound
    · exact hkeep _ _ (fun _ _ => .inr rfl) hfound
    · next changed hother =>
      refine hkeep changed _ (fun heq account => .inl ?_) hfound
      subst heq
      rw [accountFile_name hother, accountFile_name hname]
  · simp only [storeEntry, hname]
    exact ⟨_, lookup_upsert_self, rfl⟩

theorem found_storage (hname : accountFile name = some (userID, none)) {names : List Str}
    (h : Found accounts userID name ∨ name ∈ names) :
    Found (names.foldl storeEntry accounts) userID name := by
  induction names generalizing accounts with
  | nil => exact h.resolve_right List.not_mem_nil
  | cons other names ih =>
    obtain hfound | hmem := h
    · exact ih (.inl (found_storeEntry hname (.inl hfound)))
    · obtain rfl | hmem := List.mem_cons.mp hmem
      · exact ih (.inl (found_storeEntry hname (.inr rfl)))
      · exact ih (.inr hmem)

theorem mem_ancestors_child (directory rest : Str) : directory ∈ ancestors (directory ++ slash :: rest) := by
  induction directory with
  | nil => simp [ancestors]
  | cons c directory ih =>
    rw [List.cons_append, ancestors]
    split
    · exact List.mem_cons_of_mem _ (List.mem_map_of_mem ih)
    · exact List.mem_map_of_mem ih

theorem find?_childNames {directory : Str} (h : name ∈ childNames data directory) :
    ∃ node, data.find? (directory ++ slash :: name) = some node := by
  obtain ⟨⟨path, node⟩, hmem, hchild⟩ := List.mem_filterMap.mp h
  obtain ⟨child, hstarts, hchild⟩ := Option.bind_eq_some_iff.mp hchild
  split at hchild
  · cases hchild
  · cases hchild
    rw [List.isPrefixOf?_eq_some_iff_append_eq, List.append_assoc] at hstarts
    exact ⟨node, OrderedMap.find?_iff_mem.mpr (hstarts ▸ hmem)⟩

/-- An account in a checked directory of users has a current or a deleted generation. -/
theorem validate_database {ledger : Tree} {watermark : Watermark} {mode : Mode}
    (h : validateDataAgainstLedger host data ledger = .ok watermark)
    (husers : data.find? users = some (.directory mode)) (hmem : name ∈ childNames data users)
    (hname : accountFile name = some (userID, none)) :
    ∃ record generation, watermark.lookup (userDigest host userID) = some record ∧
      storedGeneration host data name = .ok generation ∧
      (generation ≤ record.deletedGeneration ∨
        record.state = .active ∧ record.lifecycleGeneration = generation) := by
  simp only [validateDataAgainstLedger, bind_ok_iff] at h
  obtain ⟨found, -, accounts, haccounts, _, hall, h⟩ := h
  cases h
  simp only [accountStorage, husers, Except.ok.injEq] at haccounts
  have hfound : Found ((childNames data users).foldl storeEntry []) userID name :=
    found_storage hname (.inr hmem)
  rw [haccounts] at hfound
  obtain ⟨storage, hlookup, hmain⟩ := hfound
  have hchecked := checkAll_ok_iff.mp hall (userID, storage) (mem_of_lookup hlookup)
  simp only [validateAccount, hmain] at hchecked
  split at hchecked
  · cases hchecked
  · next record hrecord =>
    obtain ⟨generation, hstored, hcurrent⟩ := bind_ok_iff.mp hchecked
    exact ⟨record, generation, hrecord, hstored, check_ok_iff.mp hcurrent⟩

theorem storedGeneration_positive {generation : Nat}
    (h : storedGeneration host data name = .ok generation) : 0 < generation := by
  obtain ⟨row, -, h⟩ := bind_ok_iff.mp h
  split at h
  · next hvalid =>
    cases h
    obtain ⟨stored, -, hstored⟩ := Option.bind_eq_some_iff.mp hvalid
    exact (validGeneration_some hstored).1
  · cases h

end Databases

/-! ## Restore -/

/-- A deletion at some generation or after. -/
def DeletedSince (host : Host) (ledger : Tree) (digest : Str) (generation : Nat) : Prop :=
  ∃ tombstone, parseTombstone host ledger (tombstoneName digest) = .ok tombstone ∧
    generation ≤ tombstone.deletedGeneration

/-- A generation that is current. -/
def Current (host : Host) (ledger : Tree) (digest : Str) (generation : Nat) : Prop :=
  ∃ lifecycle, parseLifecycle host ledger (lifecycleName digest) = .ok lifecycle ∧
    lifecycle.state = .active ∧ lifecycle.generation = generation

/-- The highest generation that the records of an account name. -/
def latestGeneration (host : Host) (ledger : Tree) (digest : Str) : Nat :=
  max (accountRecords host ledger digest).lifecycleGeneration
    (accountRecords host ledger digest).deletedGeneration

/-- What is installed does not fall back behind an older ledger: deletions and generations of
accounts stay, and every database is deleted or current. -/
structure KeepsDeletions (host : Host) (older : Tree) (restored : Restored) : Prop where
  deletions : ∀ digest tombstone, isDigest digest = true →
    parseTombstone host older (tombstoneName digest) = .ok tombstone →
    DeletedSince host restored.ledger digest tombstone.deletedGeneration
  generations : ∀ digest, isDigest digest = true →
    latestGeneration host older digest ≤ latestGeneration host restored.ledger digest
  databases : ∀ userID name, name ∈ childNames restored.data users →
    accountFile name = some (userID, none) →
    ∃ generation, storedGeneration host restored.data name = .ok generation ∧
      (DeletedSince host restored.ledger (userDigest host userID) generation ∨
        Current host restored.ledger (userDigest host userID) generation)

section Restore
variable {host : Host} {umask : Mode} {snapshot ledgerSnapshot : RestoreReading}
  {dataDigest ledgerDigest : Str} {restored : Restored}

theorem parseTombstone_positive {ledger : Tree} {path : Str} {tombstone : Tombstone}
    (h : parseTombstone host ledger path = .ok tombstone) : 0 < tombstone.deletedGeneration := by
  simp only [parseTombstone, bind_ok_iff] at h
  obtain ⟨_, -, _, -, h⟩ := h
  split at h
  · next hgeneration =>
    split at h
    · cases h
      exact (validGeneration_some hgeneration).1
    · cases h
  · cases h

/-- A restore that is accepted keeps every deletion of the ledger beside its data, however the
snapshots change while they are read. -/
theorem restore_keeps_deletions
    (hdata : CollisionFree host snapshot.verified.copied.ledger snapshot.verified.listed.ledger)
    (hledger : CollisionFree host ledgerSnapshot.verified.copied.ledger ledgerSnapshot.copied.ledger)
    (h : restoreSnapshot host umask snapshot ledgerSnapshot dataDigest ledgerDigest = .ok restored) :
    KeepsDeletions host snapshot.verified.listed.ledger restored := by
  simp only [restoreSnapshot, bind_ok_iff] at h
  obtain ⟨manifest, hmanifest, trusted, htrusted, _, hdominates, ledger, hledgerCopy, data, hdataCopy,
    watermark, hvalid, _, -, _, -, dataNow, hdataNow, _, hsameData, ledgerNow, hledgerNow, _,
    hsameLedger, _, -, _, -, hrestored⟩ := h
  cases hrestored
  have hdataInventory := check_ok_iff.mp hsameData
  have hledgerInventory := check_ok_iff.mp hsameLedger
  subst hdataInventory hledgerInventory
  obtain ⟨older, holder, holderNow, holderListed, holderWatermark⟩ := verifySnapshot_ledger hmanifest
  obtain ⟨newer, hnewer, hnewerNow, -, hnewerWatermark⟩ := verifySnapshot_ledger htrusted
  rw [same_copies hdata holder (.refl _) holderNow holderListed] at holderWatermark
  rw [same_copies hledger hnewer (filesFrom_copyInventory hledgerCopy) hnewerNow hledgerNow]
    at hnewerWatermark
  have hwatermark := ledgerHighWatermark_of_valid hvalid
  rw [hnewerWatermark] at hwatermark
  have hsame := Except.ok.inj hwatermark
  subst hsame
  have haccount (digest : Str) (hdigest : isDigest digest = true)
      (hsome : accountRecords host snapshot.verified.listed.ledger digest ≠ .none) :
      (accountRecords host snapshot.verified.listed.ledger digest).deletedGeneration ≤
          (accountRecords host ledger digest).deletedGeneration ∧
        latestGeneration host snapshot.verified.listed.ledger digest ≤
          latestGeneration host ledger digest := by
    obtain ⟨hnormalOld, hfindOld⟩ := lookup_watermark holderWatermark hdigest
    obtain ⟨hnormalNew, -⟩ := lookup_watermark hnewerWatermark hdigest
    obtain ⟨old, hold⟩ := hfindOld hsome
    obtain ⟨new, hnew, hdeleted, hgeneration⟩ := dominates_account hdominates hold
    have hrecordsOld := normalized_of_ok (hnormalOld old hold)
    have hrecordsNew := normalized_of_ok (hnormalNew new hnew)
    rw [hrecordsOld.deletedGeneration, hrecordsNew.deletedGeneration] at hdeleted
    rw [hrecordsOld.generation, hrecordsNew.generation] at hgeneration
    exact ⟨hdeleted, hgeneration⟩
  refine ⟨fun digest tombstone hdigest hparse => ?_, fun digest hdigest => ?_, fun userID name hmem
    hname => ?_⟩
  · have hrecord : (accountRecords host snapshot.verified.listed.ledger digest).tombstone =
        some tombstone := by
      rw [accountRecords, hparse]
      rfl
    have hsome : accountRecords host snapshot.verified.listed.ledger digest ≠ .none := by
      intro hnone
      rw [hnone] at hrecord
      cases hrecord
    obtain ⟨hdeleted, -⟩ := haccount digest hdigest hsome
    rw [AccountRecords.deletedGeneration, hrecord] at hdeleted
    exact tombstone_of_deletedGeneration (parseTombstone_positive hparse) hdeleted
  · by_cases hnone : accountRecords host snapshot.verified.listed.ledger digest = .none
    · rw [latestGeneration, hnone]
      exact Nat.zero_le _
    · exact (haccount digest hdigest hnone).2
  · obtain ⟨node, hfind⟩ := find?_childNames hmem
    obtain ⟨entry, hentry, hpath⟩ := mem_paths hdataNow hfind
    obtain ⟨-, hcopied⟩ := copyEntries_spec hdataCopy
    obtain ⟨mode, husers⟩ := (hcopied entry hentry).parents users (hpath ▸ mem_ancestors_child _ _)
    obtain ⟨record, generation, hrecord, hstored, hcurrent⟩ :=
      validate_database hvalid husers hmem hname
    have hdigest := (watermark_keys hnewerWatermark).2 _ (mem_of_lookup hrecord)
    obtain ⟨hnormal, -⟩ := lookup_watermark hnewerWatermark hdigest
    have hrecords := normalized_of_ok (hnormal record hrecord)
    refine ⟨generation, hstored, ?_⟩
    obtain hdeleted | ⟨hactive, hgeneration⟩ := hcurrent
    · rw [hrecords.deletedGeneration] at hdeleted
      exact .inl (tombstone_of_deletedGeneration (storedGeneration_positive hstored) hdeleted)
    · obtain ⟨lifecycle, hlifecycle, hstate⟩ := hrecords.active hactive
      rw [hrecords.lifecycleGeneration, AccountRecords.lifecycleGeneration, hlifecycle] at hgeneration
      exact .inr ⟨lifecycle, ok_of_toOption hlifecycle, hstate, hgeneration⟩

end Restore

/-- The ledger of an account that was deleted in its second generation. -/
def deletedLedger : Tree :=
  OrderedMap.empty.write (tombstoneName zeroDigest) (.file 0o600 (canonicalJson
    (.obj [(text "version", .int 1), (text "deletedGeneration", .int 2),
      (text "deletedAtMs", .int 1)])))

/-- A snapshot of no account data beside that ledger. -/
def deletedSnapshot : Snapshot :=
  match createSnapshot plainHost 0o077 1 ⟨zeroDigest, zeroDigest⟩ .empty deletedLedger with
  | .ok created => created.snapshot
  | .error _ => ⟨[], [], .empty, .empty⟩

theorem deletedSnapshot_accepted :
    (restoreSnapshot plainHost 0o077 deletedSnapshot.stillRestored deletedSnapshot.stillRestored
      zeroDigest zeroDigest).isOk = true := by
  decide +kernel

theorem collisionFree_refl (host : Host) (tree : Tree) : CollisionFree host tree tree := by
  intro path mode mode' contents contents' hfind hfind' _
  rw [hfind] at hfind'
  cases hfind'
  rfl

/-- A snapshot that nobody changes. -/
theorem collisionFree_still (host : Host) (snapshot : Snapshot) :
    CollisionFree host snapshot.stillRestored.verified.copied.ledger
        snapshot.stillRestored.verified.listed.ledger ∧
      CollisionFree host snapshot.stillRestored.verified.copied.ledger
        snapshot.stillRestored.copied.ledger :=
  ⟨collisionFree_refl host snapshot.ledger, collisionFree_refl host snapshot.ledger⟩

theorem restore_deleted : ∃ restored,
    restoreSnapshot plainHost 0o077 deletedSnapshot.stillRestored deletedSnapshot.stillRestored
        zeroDigest zeroDigest = .ok restored ∧
      KeepsDeletions plainHost deletedSnapshot.stillRestored.verified.listed.ledger restored := by
  obtain ⟨restored, hrestored⟩ := exists_of_isOk deletedSnapshot_accepted
  obtain ⟨hdata, hledger⟩ := collisionFree_still plainHost deletedSnapshot
  exact ⟨restored, hrestored, restore_keeps_deletions hdata hledger hrestored⟩

end Pomodorough.Restore.KeptDeletions
