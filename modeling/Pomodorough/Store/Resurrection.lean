import Pomodorough.Library.Serialized
import Pomodorough.Store.LedgerSpec

/-! # No deleted generation comes back

Backups of an account's database may be restored, or the database lost, at any
moment; only the deletion ledger is never rolled back. Whatever happens to the
files, the ledger only advances and no open returns a deleted generation. -/
namespace Pomodorough.Store.Resurrection
open Pomodorough.Library.AtomicSteps Pomodorough.Library.Serialized
open Pomodorough.Store.Records Pomodorough.Store.DeletionLedger Pomodorough.Store.Accounts
open Pomodorough.Store.LedgerSpec

/-! ## The ledger advances -/

/-- Lifecycle records in the order the ledger goes through them: by generation,
and active before deleted. -/
def lifecycleRank : Option AccountLifecycleRecord → Nat
  | none => 0
  | some record => 2 * record.generation + if record.state = .deleted then 1 else 0

/-- A deleted lifecycle has its tombstone. -/
def Coherent (disk : AccountDisk) : Prop :=
  ∀ record, disk.lifecycleRecord = some record → record.state = .deleted →
    record.generation ≤ tombstone disk

/-- What one step may do to the ledger. -/
structure Advances (s t : AccountDisk) : Prop where
  tombstone : tombstone s ≤ tombstone t
  rank : lifecycleRank s.lifecycleRecord ≤ lifecycleRank t.lifecycleRecord
  coherent : Coherent s → Coherent t
  /-- A generation is activated just above the tombstone. -/
  activation : ∀ record, t.lifecycleRecord = some record → record.state = .active →
    s.lifecycleRecord ≠ some record → record.generation = LedgerSpec.tombstone s + 1

/-- The database is of a generation the ledger has activated, or just created. -/
def FileBound (disk : AccountDisk) : Prop :=
  ∀ file, disk.file = some file →
    storedGeneration file ≤ max 1 (lifecycleGeneration disk.lifecycleRecord)

/-- What one step of a call guarantees. -/
structure Moves (s t : AccountDisk) : Prop extends Advances s t where
  file : FileBound s → FileBound t

/-- What a handle does: it creates a file at most, and stores no generation. -/
structure Handles (s t : AccountDisk) : Prop where
  ledger : SameLedger s t
  file : ∀ file', t.file = some file' →
    (∃ file, s.file = some file ∧ storedGeneration file' = storedGeneration file) ∨
      storedGeneration file' = 1

theorem lifecycleRank_generation (lifecycle : Option AccountLifecycleRecord) :
    lifecycleRank lifecycle / 2 = lifecycleGeneration lifecycle := by
  cases lifecycle with
  | none => rfl
  | some record =>
    simp only [lifecycleRank, lifecycleGeneration]
    split <;> omega

theorem advances_of_sameLedger {s t : AccountDisk} (h : SameLedger s t) : Advances s t where
  tombstone := h.tombstone.ge
  rank := by rw [h.lifecycleRecord]
  coherent hs record hrec hdel := by
    rw [h.tombstone]
    exact hs record (h.lifecycleRecord ▸ hrec) hdel
  activation record hrec _ hne := absurd (h.lifecycleRecord ▸ hrec) hne

theorem moves_of_handles {s t : AccountDisk} (h : Handles s t) : Moves s t where
  toAdvances := advances_of_sameLedger h.ledger
  file hs file' hfile' := by
    rw [h.ledger.lifecycleRecord]
    rcases h.file file' hfile' with ⟨file, hfile, hgen⟩ | hgen
    · rw [hgen]
      exact hs file hfile
    · rw [hgen]
      exact le_max_left _ _

theorem handles_of_quiet {s t : AccountDisk} (h : Quiet s t) : Handles s t where
  ledger := h.ledger
  file file' hfile' := by
    rcases h.file file' hfile' with ⟨file, hfile, hopen⟩ | ⟨-, hopen⟩
    · exact .inl ⟨file, hfile, hopen.storedGeneration⟩
    · exact .inr (by simp [hopen.storedGeneration])

theorem moves_of_quiet (s t : AccountDisk) (h : Quiet s t) : Moves s t :=
  moves_of_handles (handles_of_quiet h)

theorem moves_publishDeletionRecord {s : AccountDisk} {generation : Nat} (now : WallClock)
    (h : tombstone s ≤ generation) : Moves s (s.publishDeletionRecord generation now) where
  tombstone := h
  rank := le_rfl
  coherent hs record hrec hdel := (hs record hrec hdel).trans h
  activation _ hrec _ hne := absurd hrec hne
  file := id

theorem lifecycleRank_le {current : Option AccountLifecycleRecord} {generation : Nat}
    {state : AccountState} {version : Nat} {now : Int}
    (h : LifecycleAllows current generation state) :
    lifecycleRank current ≤ lifecycleRank (some ⟨version, generation, state, now⟩) := by
  cases current with
  | none => exact Nat.zero_le _
  | some record =>
    obtain ⟨hle, hdel⟩ := h
    simp only [lifecycleGeneration] at hle
    simp only [lifecycleRank]
    by_cases heq : record.generation = generation
    · split
      · rename_i hstate
        rw [hdel record rfl heq hstate, if_pos rfl]
        omega
      · omega
    · split <;> omega

/-- Publishing a lifecycle record the ledger allows: deleted below the
tombstone, or active just above it. -/
theorem moves_publishLifecycleRecord {s : AccountDisk} {generation : Nat}
    {state : AccountState} (now : WallClock)
    (hallow : LifecycleAllows s.lifecycleRecord generation state)
    (hdel : state = .deleted → generation ≤ tombstone s)
    (hact : state = .active → generation = tombstone s + 1) :
    Moves s (s.publishLifecycleRecord generation state now) where
  tombstone := le_rfl
  rank := lifecycleRank_le hallow
  coherent _ record hrec hstate := by
    cases hrec
    exact hdel hstate
  activation record hrec hstate _ := by
    cases hrec
    exact hact hstate
  file hs file hfile := (hs file hfile).trans (max_le_max_left 1 hallow.1)

/-- A generation is stored once the ledger has activated it. -/
theorem moves_updateGeneration {s : AccountDisk} {generation : Nat} (inode : Nat)
    (h : generation ≤ lifecycleGeneration s.lifecycleRecord) :
    Moves s (s.updateFile inode fun file => { file with generation := some generation }) where
  toAdvances := advances_of_sameLedger ⟨rfl, rfl, rfl⟩
  file hs file' hfile' := by
    simp only [AccountDisk.updateFile, Option.map_eq_some_iff] at hfile'
    obtain ⟨file, hfile, rfl⟩ := hfile'
    split
    · simp only [storedGeneration, DatabaseFile.migrate]
      split
      · exact le_max_left _ _
      · exact h.trans (le_max_right _ _)
    · exact hs file hfile

/-! ## Programs that leave the ledger alone -/

section Neutral
variable {α β : Type} {s : AccountDisk}

/-- Nothing in the ledger changes, whatever happens to the files. -/
def Neutral (Q : α → Prop) (x : DiskOp α) (s : AccountDisk) : Prop :=
  Meets SameLedger Handles (fun r t => SameLedger s t ∧ ∀ a, r = .ok a → Q a) x s

theorem Neutral.of_reads {Q : α → Prop} {x : DiskOp α} (h : Reads SameLedger Q x s) :
    Neutral Q x s :=
  Meets.mono h (fun _ _ => id) (fun _ _ => handles_of_quiet) fun _ _ => id

theorem Neutral.pure {Q : α → Prop} {a : α} (h : Q a) : Neutral Q (pure a) s :=
  .of_reads (.pure h)

theorem Neutral.throw {Q : α → Prop} {e : StoreError} : Neutral Q (throw e) s :=
  .of_reads .throw

theorem Neutral.bind {Q : α → Prop} {T : β → Prop} {x : DiskOp α} {k : α → DiskOp β}
    (h : Neutral Q x s) (hk : ∀ a t, SameLedger s t → Q a → Neutral T (k a) t) :
    Neutral T (x >>= k) s :=
  Meets.bind h
    (fun a t hr => Meets.imp (hk a t hr.1 (hr.2 a rfl)) fun _ _ hu => ⟨hr.1.trans hu.1, hu.2⟩)
    (fun _ _ hr => ⟨hr.1, fun _ hb => by cases hb⟩)

/-- A neutral program before one that advances the ledger. -/
theorem Neutral.advances {Q : α → Prop} {T : Except StoreError β → AccountDisk → Prop}
    {x : DiskOp α} {k : α → DiskOp β} (h : Neutral Q x s)
    (hk : ∀ a t, SameLedger s t → Q a → Meets SameLedger Moves T (k a) t)
    (herr : ∀ e t, T (.error e) t) : Meets SameLedger Moves T (x >>= k) s :=
  Meets.bind (Meets.mono h (fun _ _ => id) (fun _ _ => moves_of_handles) fun _ _ => id)
    (fun a t hr => hk a t hr.1 (hr.2 a rfl)) (fun e t _ => herr e t)

theorem neutral_modify {f : AccountDisk → AccountDisk} (h : ∀ u, Handles u (f u)) :
    Neutral (fun _ => True) (Op.modify f) s :=
  ⟨h s, fun _ ht => ⟨(h s).ledger.trans ht, fun _ _ => trivial⟩⟩

theorem neutral_removeUserFiles : Neutral (fun _ => True) removeUserFiles s := by
  unfold removeUserFiles
  have hkeep : ∀ u : AccountDisk, ∀ wal shm, Handles u { u with wal, shm } :=
    fun u _ _ => ⟨⟨rfl, rfl, rfl⟩, fun file h => .inl ⟨file, h, rfl⟩⟩
  refine Neutral.bind (neutral_modify fun u => hkeep u false u.shm) fun _ _ _ _ => ?_
  refine Neutral.bind (neutral_modify fun u => hkeep u u.wal false) fun _ _ _ _ => ?_
  exact neutral_modify fun _ => ⟨⟨rfl, rfl, rfl⟩, fun file h => by cases h⟩

theorem neutral_closeDatabase (db : DatabaseFile) :
    Neutral (fun _ => True) (closeDatabase db) s :=
  .of_reads (reads_closeDatabase (fun _ _ h => h) db s)

theorem neutral_openDatabase : Neutral (fun _ => True) openDatabase s :=
  .of_reads ((reads_openDatabase (fun _ _ h => h) s).imp fun _ _ => trivial)

theorem neutral_deletedGeneration : Neutral (fun d => d = tombstone s) deletedGeneration s :=
  .of_reads (reads_deletedGeneration (fun _ _ h => h) s)

theorem neutral_present : Neutral (fun _ => True) (Op.read fun disk => disk.file.isSome) s :=
  .of_reads (.read (fun _ _ h => h) trivial)

/-- The handle an open may return is above the deleted generation it read. -/
def Above (deleted : Nat) (db : DatabaseFile) : Prop :=
  ∃ generation, accountGeneration db = .ok generation ∧ deleted < generation

theorem neutral_openReusableAccount (deleted : Nat) :
    Neutral (fun r => ∀ db, r = some db → Above deleted db) (openReusableAccount deleted) s := by
  refine neutral_present.bind fun present t _ _ => ?_
  cases present with
  | false => exact .pure fun db h => by cases h
  | true =>
    refine neutral_openDatabase.bind fun db u _ _ => ?_
    cases hg : accountGeneration db with
    | error e => exact (neutral_closeDatabase db).bind fun _ _ _ _ => .throw
    | ok generation =>
      dsimp only
      by_cases hlt : deleted < generation
      · rw [if_pos hlt]
        exact .pure fun db' h => by cases h; exact ⟨generation, hg, hlt⟩
      · rw [if_neg hlt]
        refine (neutral_closeDatabase db).bind fun _ _ _ _ => ?_
        exact neutral_removeUserFiles.bind fun _ _ _ _ => .pure fun db' h => by cases h

theorem neutral_openExistingUser : Neutral (Above (tombstone s)) openExistingUser s := by
  have hopen : Neutral (fun p => accountGeneration p.1 = .ok p.2) openStoredAccount s :=
    .of_reads ((reads_openStoredAccount (fun _ _ h => h) s).imp fun _ h => h.2)
  refine hopen.bind fun ⟨db, generation⟩ t ht hg => ?_
  refine neutral_deletedGeneration.bind fun deleted u _ hd => ?_
  rw [ht.tombstone] at hd
  subst hd
  by_cases hlt : tombstone s < generation
  · rw [if_pos hlt]
    exact .pure ⟨generation, hg, hlt⟩
  · rw [if_neg hlt]
    refine (neutral_closeDatabase db).bind fun _ _ _ _ => ?_
    exact neutral_removeUserFiles.bind fun _ _ _ _ => .throw

theorem neutral_purgeReceiptedGeneration (generation : Nat) :
    Neutral (fun _ => True) (purgeReceiptedGeneration generation) s := by
  refine neutral_present.bind fun present t _ _ => ?_
  cases present with
  | false => exact neutral_removeUserFiles
  | true =>
    refine neutral_openDatabase.bind fun db u _ _ => ?_
    refine (neutral_closeDatabase db).bind fun _ v _ _ => ?_
    have hlift : Neutral (fun _ => True) (Op.lift (accountGeneration db)) v :=
      .of_reads (.lift fun _ _ => trivial)
    refine hlift.bind fun current w _ _ => ?_
    by_cases hlt : generation < current
    · rw [if_pos hlt]
      exact .pure trivial
    · rw [if_neg hlt]
      exact neutral_removeUserFiles

end Neutral

/-! ## The calls -/

section Calls
variable {s : AccountDisk}

/-- The ledger only advances; nothing is said about the result. -/
def Advancing {α : Type} (x : DiskOp α) (s : AccountDisk) : Prop :=
  Meets SameLedger Moves (fun _ _ => True) x s

theorem Advancing.bind {α β : Type} {x : DiskOp α} {k : α → DiskOp β} (h : Advancing x s)
    (hk : ∀ a t, Advancing (k a) t) : Advancing (x >>= k) s :=
  Meets.bind h (fun a t _ => hk a t) fun _ _ _ => trivial

theorem Neutral.advancing {α : Type} {Q : α → Prop} {x : DiskOp α} (h : Neutral Q x s) :
    Advancing x s :=
  Meets.mono h (fun _ _ => id) (fun _ _ => moves_of_handles) fun _ _ _ => trivial

theorem advancing_require (c : Bool) (e : StoreError) : Advancing (Op.require c e) s := by
  cases c <;> trivial

theorem advancing_lift {α : Type} (r : Except StoreError α) : Advancing (Op.lift r) s := trivial

theorem advancing_recordDeletion (generation : Nat) (now : WallClock) :
    Advancing (recordDeletion generation now) s := by
  refine Meets.imp (meets_recordDeletion (P := fun _ => True) (fun _ _ h => h)
    moves_of_quiet (fun _ _ _ _ => trivial)
    (fun _ _ _ _ => trivial) trivial (fun u hu _ => ?_) (fun u hu hlife _ _ hallow => ?_))
    fun _ _ _ => trivial
  · have hle : tombstone u ≤ max (tombstone s) generation := by
      rw [hu.tombstone]
      exact le_max_left _ _
    exact ⟨moves_publishDeletionRecord now hle, trivial⟩
  · refine ⟨moves_publishLifecycleRecord now (hlife ▸ hallow) (fun _ => hu.ge) ?_, trivial⟩
    exact fun h => by cases h

/-- Below the tombstone a deletion may be recorded at any time. -/
theorem advancing_recordDeletedAccountLifecycle {generation : Nat} (now : WallClock)
    (h : generation ≤ tombstone s) :
    Advancing (recordDeletedAccountLifecycle generation now) s := by
  refine Meets.imp (meets_recordDeletedAccountLifecycle (P := fun _ => True) (fun _ _ h => h)
    moves_of_quiet (fun _ _ _ _ => trivial)
    (fun _ _ _ _ => trivial) trivial fun u hu _ hallow => ?_) fun _ _ _ => trivial
  refine ⟨moves_publishLifecycleRecord now (hu.lifecycleRecord ▸ hallow) (fun _ => ?_) ?_,
    trivial⟩
  · rw [hu.tombstone]
    exact h
  · exact fun h => by cases h

/-- What an open returns is above the tombstone. -/
def ReturnsLive (r : Except StoreError DatabaseFile) (t : AccountDisk) : Prop :=
  ∀ db, r = .ok db → Above (tombstone t) db

theorem meets_setAccountGeneration (db : DatabaseFile) (now : WallClock) :
    Meets SameLedger Moves ReturnsLive
      (setAccountGeneration db (tombstone s + 1) now) s := by
  unfold setAccountGeneration
  rw [meets_bind, meets_require]
  split
  case isFalse => exact fun db h => by cases h
  case isTrue hvalid =>
  refine Meets.bind (meets_recordAccountLifecycle (P := fun _ => True) (fun _ _ h => h)
    moves_of_quiet (fun _ _ _ _ => trivial)
    (fun _ _ _ _ => trivial) trivial fun u hu _ hallow => ?_) (fun _ t ht => ?_) ?_
  · refine ⟨moves_publishLifecycleRecord now (hu.lifecycleRecord ▸ hallow) ?_ ?_, trivial⟩
    · exact fun h => by cases h
    · exact fun _ => by rw [hu.tombstone]
  · obtain ⟨hsame, -, -⟩ := ht.2.2 rfl
    have htomb : tombstone t = tombstone s := hsame.tombstone
    have hlife : lifecycleGeneration t.lifecycleRecord = tombstone s + 1 := by
      rw [hsame.lifecycleRecord]
      rfl
    refine ⟨moves_updateGeneration _ hlife.ge, fun u hu db' h => ?_⟩
    cases h
    have hu' : tombstone u = tombstone s := hu.tombstone.trans htomb
    refine ⟨tombstone s + 1, ?_, by omega⟩
    simp [accountGeneration, hvalid]
  · exact fun _ _ _ db h => by cases h

theorem meets_createAccountDatabase (now : WallClock) :
    Meets SameLedger Moves ReturnsLive (createAccountDatabase (tombstone s) now) s := by
  have hcreate : Neutral (fun _ => True) createFile s := by
    refine neutral_modify fun u => ?_
    cases hf : u.file with
    | none => exact ⟨⟨rfl, rfl, rfl⟩, fun file h => by cases h; exact .inr rfl⟩
    | some file => exact ⟨⟨rfl, rfl, rfl⟩, fun file' h => .inl ⟨file', h, rfl⟩⟩
  refine hcreate.advances (fun _ t ht _ => ?_) fun _ _ _ h => by cases h
  refine neutral_openDatabase.advances (fun db u hu _ => ?_) fun _ _ _ h => by cases h
  by_cases hmax : tombstone s = maxSafeRevision
  · rw [if_pos hmax]
    refine (neutral_closeDatabase db).advances (fun _ _ _ _ => ?_) fun _ _ _ h => by cases h
    exact fun _ h => by cases h
  · rw [if_neg hmax, ← ht.tombstone, ← hu.tombstone]
    exact meets_setAccountGeneration db now

theorem meets_openUser (now : WallClock) :
    Meets SameLedger Moves ReturnsLive (openUser now) s := by
  refine neutral_deletedGeneration.advances (fun deleted t ht hd => ?_) fun _ _ _ h => by cases h
  subst hd
  refine (neutral_openReusableAccount _).advances (fun reusable u hu hr => ?_)
    fun _ _ _ h => by cases h
  have htomb : tombstone u = tombstone s := hu.tombstone.trans ht.tombstone
  rw [← htomb] at hr ⊢
  cases reusable with
  | none => exact meets_createAccountDatabase now
  | some db => exact fun db' h => by cases h; exact hr db rfl

theorem meets_openExistingUser :
    Meets SameLedger Moves ReturnsLive openExistingUser s := by
  refine Meets.mono neutral_openExistingUser (fun _ _ => id)
    (fun _ _ => moves_of_handles) fun r t hr db h => ?_
  rw [hr.1.tombstone]
  exact hr.2 db h

theorem advancing_deleteUser (now : WallClock) : Advancing (deleteUser now) s := by
  have hread : Neutral (fun g => tombstone s ≤ g) currentOrNextAccountGeneration s :=
    .of_reads (reads_currentOrNextAccountGeneration (fun _ _ h => h) s)
  refine hread.advancing.bind fun generation t => ?_
  exact (advancing_recordDeletion generation now).bind fun _ _ => neutral_removeUserFiles.advancing

theorem advancing_deleteUserForGeneration (generation : Nat) (now : WallClock) :
    Advancing (deleteUserForGeneration generation now) s := by
  refine neutral_openExistingUser.advancing.bind fun db _ => ?_
  refine (neutral_closeDatabase db).advancing.bind fun _ _ => ?_
  refine (advancing_lift _).bind fun current _ => ?_
  refine (advancing_require _ _).bind fun _ _ => ?_
  exact (advancing_recordDeletion current now).bind fun _ _ => neutral_removeUserFiles.advancing

theorem advancing_writeDeletionReceipt (credential : DeletionCredential)
    (receipt : DeletionReceipt) : Advancing (writeDeletionReceipt credential receipt) s := by
  refine (advancing_require _ _).bind fun _ t => ?_
  refine (advancing_lift _).bind fun path u => ⟨⟨⟨le_rfl, le_rfl, id, ?_⟩, id⟩, fun _ _ => trivial⟩
  exact fun record hrec _ hne => absurd hrec hne

theorem advancing_deleteUserWithReceipt (generation : Nat) (credential : DeletionCredential)
    (csrfHash : Option Hash) (sessionID : Option String) (now : WallClock) :
    Advancing (deleteUserWithReceipt generation credential csrfHash sessionID now) s := by
  have hread : Neutral _ (committedDeletionReceipt credential) s :=
    .of_reads (reads_committedDeletionReceipt (fun _ _ h => h) credential s)
  refine hread.advancing.bind fun receipt t => ?_
  cases receipt with
  | some receipt =>
    exact (advancing_require _ _).bind fun _ _ =>
      (neutral_purgeReceiptedGeneration generation).advancing
  | none =>
    refine neutral_openExistingUser.advancing.bind fun db _ => ?_
    refine (neutral_closeDatabase db).advancing.bind fun _ _ => ?_
    refine (advancing_lift _).bind fun current _ => ?_
    refine (advancing_require _ _).bind fun _ _ => ?_
    refine (advancing_require _ _).bind fun _ _ => ?_
    refine (advancing_writeDeletionReceipt credential _).bind fun _ _ => ?_
    exact (advancing_recordDeletion generation now).bind fun _ _ =>
      (neutral_purgeReceiptedGeneration generation).advancing

theorem advancing_validateAccountLifecycleEntry : Advancing validateAccountLifecycleEntry s := by
  have hread : Neutral (fun _ => True) (Op.read fun disk => disk.lifecycleRecord) s :=
    .of_reads (.read (fun _ _ h => h) trivial)
  refine hread.advancing.bind fun recorded t => ?_
  cases recorded with
  | none => trivial
  | some lifecycle =>
    refine (advancing_require _ _).bind fun _ u => ?_
    have hdeleted : Neutral _ readDeletionRecord u :=
      .of_reads (reads_readDeletionRecord (fun _ _ h => h) u)
    exact hdeleted.advancing.bind fun _ _ => advancing_require _ _

theorem advancing_applyAccountDeletionObligation (now : WallClock) :
    Advancing (applyAccountDeletionObligation now) s := by
  refine neutral_deletedGeneration.advances (fun deleted t ht hd => ?_) fun _ _ => trivial
  have hlife : Neutral (fun _ => True) accountLifecycle t :=
    .of_reads ((reads_accountLifecycle (fun _ _ h => h) t).imp fun _ _ => trivial)
  refine hlife.advances (fun lifecycle u hu _ => ?_) fun _ _ => trivial
  refine neutral_present.advances (fun present v hv _ => ?_) fun _ _ => trivial
  have htomb : tombstone v = deleted := by
    rw [hd]
    exact ((ht.trans hu).trans hv).tombstone
  cases present with
  | true =>
    have hstored : Neutral (fun g => 1 ≤ g) readStoredAccountGeneration v :=
      .of_reads (reads_readStoredAccountGeneration (fun _ _ h => h) v)
    refine hstored.advances (fun generation w hw _ => ?_) fun _ _ => trivial
    by_cases hle : generation ≤ deleted
    · rw [if_pos hle]
      refine (advancing_recordDeletedAccountLifecycle now ?_).bind fun _ _ =>
        neutral_removeUserFiles.advancing
      rw [hw.tombstone, htomb]
      exact hle
    · rw [if_neg hle]
      exact advancing_require _ _
  | false =>
    rw [if_neg Bool.false_ne_true]
    split
    · exact (advancing_recordDeletedAccountLifecycle now htomb.ge).bind fun _ _ =>
        neutral_removeUserFiles.advancing
    · trivial

theorem advancing_startAccount (now : WallClock) : Advancing (startAccount now) s := by
  refine advancing_validateAccountLifecycleEntry.bind fun _ t => ?_
  have hread : Neutral (fun _ => True) (Op.read AccountDisk.hasStorage) t :=
    .of_reads (.read (fun _ _ h => h) trivial)
  refine hread.advancing.bind fun stored u => ?_
  cases stored with
  | true => exact advancing_applyAccountDeletionObligation now
  | false => trivial

/-- What any call may return: nothing, or a handle above the tombstone. -/
def AnswersLive (r : Except StoreError (Option DatabaseFile)) (t : AccountDisk) : Prop :=
  ∀ db, r = .ok (some db) → Above (tombstone t) db

theorem Advancing.answers {x : DiskOp Unit} (h : Advancing x s) :
    Meets SameLedger Moves AnswersLive (x >>= fun _ => Pure.pure none) s :=
  Meets.bind h (fun _ _ _ db hdb => by cases hdb) fun _ _ _ db hdb => by cases hdb

theorem answers_of_returns {x : DiskOp DatabaseFile}
    (h : Meets SameLedger Moves ReturnsLive x s) :
    Meets SameLedger Moves AnswersLive (x >>= fun db => Pure.pure (some db)) s :=
  Meets.bind h (fun db _ hr db' hdb => by cases hdb; exact hr db rfl)
    fun _ _ _ db hdb => by cases hdb

/-- Every call advances the ledger and never returns a deleted generation,
whatever happens to the files between its steps. -/
theorem meets_call (call : Call) : Meets SameLedger Moves AnswersLive call.body s := by
  cases call with
  | openUser now => exact answers_of_returns (meets_openUser now)
  | openExistingUser => exact answers_of_returns meets_openExistingUser
  | deleteUser now => exact (advancing_deleteUser now).answers
  | deleteUserForGeneration generation now =>
    exact (advancing_deleteUserForGeneration generation now).answers
  | deleteUserWithReceipt generation credential csrfHash sessionID now =>
    exact (advancing_deleteUserWithReceipt generation credential csrfHash sessionID now).answers
  | restart now => exact (advancing_startAccount now).answers

end Calls

/-! ## Runs -/

/-- What happens to the database between and during calls: copies of it are
taken, and it is lost or replaced by one of its earlier copies, with whatever
sidecars lie beside it. -/
inductive Restores : AccountDisk × List DatabaseFile → AccountDisk × List DatabaseFile → Prop where
  | backup {disk backups file} (h : disk.file = some file) :
      Restores (disk, backups) (disk, file :: backups)
  | lose {disk backups wal shm} :
      Restores (disk, backups) ({ disk with file := none, wal, shm }, backups)
  | restore {disk backups file wal shm} (h : file ∈ backups) :
      Restores (disk, backups)
        ({ disk with file := some { file with inode := disk.nextInode }, wal, shm,
                     nextInode := disk.nextInode + 1 }, backups)

/-- One account: calls run one at a time and may stop after any step, and the
database is restored at any moment. -/
def account : Machine AccountDisk (List DatabaseFile) Call
    (Except StoreError (Option DatabaseFile)) where
  body call := ExceptT.run call.body
  others := Restores
  start _ backups backups' := backups' = backups
  finish _ _ backups backups' := backups' = backups

abbrev AccountConfig :=
  Config AccountDisk (List DatabaseFile) Call (Except StoreError (Option DatabaseFile))

/-- Runs of the account, without further conditions. -/
def Account : AccountConfig → AccountConfig → Prop := Runs account fun _ _ => True

/-- Nobody has created the account. -/
def AccountConfig.initial : AccountConfig := ⟨.blank, [], none⟩

theorem restores_sameLedger {a b : AccountDisk × List DatabaseFile} (h : Restores a b) :
    SameLedger a.1 b.1 := by
  cases h <;> exact ⟨rfl, rfl, rfl⟩

/-- What holds of an account between any two steps. -/
structure Consistent (disk : AccountDisk) (backups : List DatabaseFile) : Prop where
  coherent : Coherent disk
  /-- The ledger activates no generation but the next. -/
  next : lifecycleGeneration disk.lifecycleRecord ≤ tombstone disk + 1
  file : FileBound disk
  backups : ∀ file ∈ backups,
    storedGeneration file ≤ max 1 (lifecycleGeneration disk.lifecycleRecord)

theorem Advances.generation {s t : AccountDisk} (h : Advances s t) :
    lifecycleGeneration s.lifecycleRecord ≤ lifecycleGeneration t.lifecycleRecord := by
  rw [← lifecycleRank_generation, ← lifecycleRank_generation]
  exact Nat.div_le_div_right h.rank

theorem Consistent.moves {s t : AccountDisk} {backups : List DatabaseFile}
    (hs : Consistent s backups) (h : Moves s t) : Consistent t backups where
  coherent := h.coherent hs.coherent
  next := by
    have htomb := h.tombstone
    by_cases hsame : s.lifecycleRecord = t.lifecycleRecord
    · have hnext := hs.next
      rw [hsame] at hnext
      omega
    · cases hrec : t.lifecycleRecord with
      | none => exact Nat.zero_le _
      | some record =>
        cases hstate : record.state with
        | active =>
          have hact := h.activation record hrec hstate (by rw [← hrec]; exact hsame)
          simp only [lifecycleGeneration]
          omega
        | deleted =>
          have hdel := h.coherent hs.coherent record hrec hstate
          simp only [lifecycleGeneration]
          omega
  file := h.file hs.file
  backups file hfile :=
    (hs.backups file hfile).trans (max_le_max_left 1 h.toAdvances.generation)

theorem storedGeneration_inode (file : DatabaseFile) (inode : Nat) :
    storedGeneration { file with inode } = storedGeneration file := by
  unfold storedGeneration DatabaseFile.migrate
  dsimp only
  split <;> rfl

theorem Consistent.restores {a b : AccountDisk × List DatabaseFile}
    (ha : Consistent a.1 a.2) (h : Restores a b) : Consistent b.1 b.2 := by
  cases h with
  | backup hfile =>
    refine ⟨ha.coherent, ha.next, ha.file, fun file hmem => ?_⟩
    rcases List.mem_cons.mp hmem with rfl | hmem
    · exact ha.file file hfile
    · exact ha.backups file hmem
  | lose => exact ⟨ha.coherent, ha.next, fun _ h => (by cases h), ha.backups⟩
  | restore hmem =>
    refine ⟨ha.coherent, ha.next, fun file hfile => ?_, ha.backups⟩
    cases hfile
    rw [storedGeneration_inode]
    exact ha.backups _ hmem

theorem account_rules : Rules account (fun _ _ => True) SameLedger Moves
    (fun _ => AnswersLive) Consistent where
  refl := .refl
  trans _ _ _ := .trans
  others hJ h := ⟨hJ.restores h, restores_sameLedger h⟩
  start hJ h := ⟨h ▸ hJ, fun _ _ => meets_call _⟩
  act hJ hG _ := hJ.moves hG
  finish hJ _ h := h ▸ hJ

theorem consistent_blank : Consistent .blank [] where
  coherent _ h := by cases h
  next := Nat.zero_le _
  file _ h := by cases h
  backups _ h := by cases h

theorem holds_initial :
    Holds SameLedger Moves (fun _ => AnswersLive) Consistent AccountConfig.initial :=
  .idle consistent_blank

/-- What no restore brings back between two points of a run. -/
structure NoResurrection (past now : AccountConfig) : Prop where
  /-- A returned handle is of no generation tombstoned before. -/
  opened : ∀ call db, now.current = some (call, .ret (.ok (some db))) →
    Above (tombstone past.shared) db
  tombstone : LedgerSpec.tombstone past.shared ≤ LedgerSpec.tombstone now.shared
  generation : lifecycleGeneration past.shared.lifecycleRecord ≤
    lifecycleGeneration now.shared.lifecycleRecord
  undeleted : ∀ old new, past.shared.lifecycleRecord = some old →
    now.shared.lifecycleRecord = some new → old.state = .deleted →
    new.generation = old.generation → new.state = .deleted
  coherent : Coherent now.shared
  /-- A generation activated next is of no generation tombstoned before. -/
  recreated : ∀ next record, Step account now next →
    next.shared.lifecycleRecord = some record → record.state = .active →
    now.shared.lifecycleRecord ≠ some record → LedgerSpec.tombstone past.shared < record.generation

theorem lifecycleRank_undeleted {old new : AccountLifecycleRecord}
    (h : lifecycleRank (some old) ≤ lifecycleRank (some new)) (hdel : old.state = .deleted)
    (hgen : new.generation = old.generation) : new.state = .deleted := by
  simp only [lifecycleRank, hdel, hgen, if_pos] at h
  by_contra hne
  rw [if_neg hne] at h
  omega

theorem account_noResurrection {past now : AccountConfig} (hpast : Account .initial past)
    (hnow : Account past now) : NoResurrection past now := by
  have hholds := account_rules.runs holds_initial hpast
  have hholds' := account_rules.runs hholds hnow
  have htomb : tombstone past.shared ≤ tombstone now.shared :=
    account_rules.runs_shared (T := fun s t => tombstone s ≤ tombstone t)
      (fun h => h.tombstone) (fun h => h.tombstone.ge) le_trans hholds hnow
  have hrank : lifecycleRank past.shared.lifecycleRecord ≤
      lifecycleRank now.shared.lifecycleRecord :=
    account_rules.runs_shared
      (T := fun s t => lifecycleRank s.lifecycleRecord ≤ lifecycleRank t.lifecycleRecord)
      (fun h => h.rank) (fun h => (advances_of_sameLedger h).rank) le_trans hholds hnow
  refine ⟨fun call db hret => ?_, htomb, ?_, ?_, hholds'.inv.coherent, fun next record hs hrec hact hne => ?_⟩
  · obtain ⟨s, w, cur⟩ := now
    cases hret
    obtain ⟨generation, hg, hlt⟩ := account_rules.result hholds' db rfl
    exact ⟨generation, hg, lt_of_le_of_lt htomb hlt⟩
  · rw [← lifecycleRank_generation, ← lifecycleRank_generation]
    exact Nat.div_le_div_right hrank
  · intro old new hold hnew hdel hgen
    rw [hold, hnew] at hrank
    exact lifecycleRank_undeleted hrank hdel hgen
  · have hadv : Advances now.shared next.shared :=
      account_rules.step_shared (fun h => h.toAdvances) advances_of_sameLedger hholds' hs
    rw [hadv.activation record hrec hact hne]
    omega

/-- A whole call that nothing interrupts. -/
theorem Account.call (call : Call) {s : AccountDisk} {backups : List DatabaseFile}
    {r : Except StoreError (Option DatabaseFile) × AccountDisk} (h : call.body.exec s = r) :
    Account ⟨s, backups, none⟩ ⟨r.2, backups, none⟩ :=
  Runs.call h rfl rfl trivial (fun _ _ _ _ => trivial) trivial

/-- The deleted account of the first generation with its database restored. -/
def firstRestored : AccountDisk :=
  { firstDeleted with file := some { firstFile with inode := 1 }, nextInode := 2 }

/-- A deleted account's restored copy is not opened: it is recreated above. -/
theorem account_noResurrection_restored : ∃ past now : AccountConfig,
    tombstone past.shared = 1 ∧ past.shared.file.map storedGeneration = some 1 ∧
      (∃ call db, now.current = some (call, .ret (.ok (some db))) ∧
        accountGeneration db = .ok 2) ∧ NoResurrection past now := by
  have hcreate : Account .initial ⟨firstCreated, [], none⟩ :=
    Account.call (.openUser firstClock) rfl
  have hbackup : Account ⟨firstCreated, [], none⟩ ⟨firstCreated, [firstFile], none⟩ :=
    Runs.single (.other (Restores.backup rfl)) trivial
  have hdelete : Account ⟨firstCreated, [firstFile], none⟩ ⟨firstDeleted, [firstFile], none⟩ :=
    Account.call (.deleteUserForGeneration 1 firstClock) rfl
  have hrestore : Account ⟨firstDeleted, [firstFile], none⟩ ⟨firstRestored, [firstFile], none⟩ :=
    Runs.single (.other (Restores.restore (List.mem_singleton.mpr rfl))) trivial
  have hopen : Account ⟨firstRestored, [firstFile], none⟩
      ⟨_, [firstFile], some (.openUser firstClock, .ret _)⟩ :=
    .head ⟨.start rfl, trivial⟩ (Runs.rest (fun _ _ _ _ => trivial) _ firstRestored)
  exact ⟨_, _, rfl, rfl, ⟨_, _, rfl, rfl⟩,
    account_noResurrection (((hcreate.trans hbackup).trans hdelete).trans hrestore) hopen⟩

end Pomodorough.Store.Resurrection
