import Pomodorough.Store.Accounts

/-! # Following one database

A database is known by its inode. Whatever a call or a request does to the files
of an account, the tables of the database it finds at the path are those of the
same database before, changed by its own transactions only, or those of a new
database. -/
namespace Pomodorough.Store.TrackedFiles
open Pomodorough.Library.AtomicSteps
open Pomodorough.Store.Records Pomodorough.Store.DeletionLedger Pomodorough.Store.Accounts

/-- The database at the path is the one before, its tables changed along `T`,
or a new one. -/
structure Track (T : UserTables → UserTables → Prop) (s t : AccountDisk) : Prop where
  next : s.nextInode ≤ t.nextInode
  file : ∀ file', t.file = some file' →
    (∃ file, s.file = some file ∧ file.inode = file'.inode ∧ T file.tables file'.tables) ∨
      (s.nextInode ≤ file'.inode ∧ file'.inode < t.nextInode ∧ T .initial file'.tables)

/-- No table of any database changes. -/
abbrev Idle : AccountDisk → AccountDisk → Prop := Track Eq

section
variable {T T' : UserTables → UserTables → Prop} {s t u : AccountDisk}

theorem Track.mono (h : Track T s t) (hT : ∀ a b, T a b → T' a b) : Track T' s t :=
  ⟨h.next, fun file' hfile' => (h.file file' hfile').imp
    (fun ⟨file, hfile, hinode, htables⟩ => ⟨file, hfile, hinode, hT _ _ htables⟩)
    fun ⟨hle, hlt, htables⟩ => ⟨hle, hlt, hT _ _ htables⟩⟩

theorem Track.refl (hT : ∀ a, T a a) (s : AccountDisk) : Track T s s :=
  ⟨le_refl _, fun file hfile => .inl ⟨file, hfile, rfl, hT _⟩⟩

theorem Track.trans (hT : ∀ a b c, T a b → T b c → T a c) (h : Track T s t) (h' : Track T t u) :
    Track T s u := by
  refine ⟨h.next.trans h'.next, fun file'' hfile'' => ?_⟩
  rcases h'.file file'' hfile'' with ⟨file', hfile', hinode', htables'⟩ | ⟨hle, hlt, htables⟩
  · rcases h.file file' hfile' with ⟨file, hfile, hinode, htables⟩ | ⟨hle, hlt, htables⟩
    · exact .inl ⟨file, hfile, hinode.trans hinode', hT _ _ _ htables htables'⟩
    · exact .inr ⟨hinode' ▸ hle, hinode' ▸ (hlt.trans_le h'.next), hT _ _ _ htables htables'⟩
  · exact .inr ⟨h.next.trans hle, hlt, htables⟩

/-- A step that changes neither the path nor any inode. -/
theorem Track.same (hT : ∀ a, T a a) (hfile : t.file = s.file) (hnext : t.nextInode = s.nextInode) :
    Track T s t :=
  ⟨hnext.ge, fun file' h => .inl ⟨file', hfile ▸ h, rfl, hT _⟩⟩

theorem Track.removed (hfile : t.file = none) (hnext : t.nextInode = s.nextInode) : Track T s t := by
  refine ⟨hnext.ge, fun file' h => ?_⟩
  rw [hfile] at h
  cases h

theorem Idle.refl (s : AccountDisk) : Idle s s := Track.refl (fun _ => rfl) s

theorem idle_trans (a b c : AccountDisk) (h : Idle a b) (h' : Idle b c) : Idle a c :=
  Track.trans (fun _ _ _ => Eq.trans) h h'

theorem Idle.same (hfile : t.file = s.file) (hnext : t.nextInode = s.nextInode) : Idle s t :=
  Track.same (fun _ => rfl) hfile hnext

/-- A new database at a free path. -/
theorem Idle.created {file : DatabaseFile} (hfile : t.file = some file)
    (hinode : file.inode = s.nextInode) (htables : file.tables = .initial)
    (hnext : t.nextInode = s.nextInode + 1) : Idle s t := by
  refine ⟨by omega, fun file' h => .inr ?_⟩
  rw [hfile] at h
  cases h
  exact ⟨hinode.ge, by omega, htables.symm⟩

/-- The file a handle has open changes, but not its tables. -/
theorem Idle.updateFile {change : DatabaseFile → DatabaseFile} (inode : Nat)
    (hinode : ∀ file, (change file).inode = file.inode)
    (htables : ∀ file, (change file).tables = file.tables) : Idle s (s.updateFile inode change) := by
  refine ⟨le_refl _, fun file' h => .inl ?_⟩
  obtain ⟨file, hfile, rfl⟩ := Option.map_eq_some_iff.mp h
  refine ⟨file, hfile, ?_, ?_⟩
  · split
    · exact (hinode file).symm
    · rfl
  · split
    · exact (htables file).symm
    · rfl

theorem migrate_inode (file : DatabaseFile) : file.migrate.inode = file.inode := by
  unfold DatabaseFile.migrate
  split <;> rfl

theorem migrate_tables (file : DatabaseFile) : file.migrate.tables = file.tables := by
  unfold DatabaseFile.migrate
  split <;> rfl

end

/-! ## Opening and the ledger leave the tables alone -/

theorem idle_connectDatabase : Always Idle connectDatabase := by
  refine (always_step _).mpr fun s => ?_
  cases h : s.file with
  | some file => exact .same (by simp [h]) rfl
  | none => exact .created rfl rfl rfl rfl

theorem idle_migrateDatabase (db : DatabaseFile) : Always Idle (migrateDatabase db) :=
  (always_require _ _).bind fun _ =>
    (always_step _).mpr fun _ => .updateFile _ migrate_inode migrate_tables

theorem idle_openDatabase : Always Idle openDatabase :=
  idle_connectDatabase.bind idle_migrateDatabase

theorem idle_closeDatabase (db : DatabaseFile) : Always Idle (closeDatabase db) := by
  refine (always_modify _).mpr fun s => ?_
  split
  · exact .same rfl rfl
  · exact .refl s

theorem idle_removeUserFiles : Always Idle removeUserFiles := by
  refine Always.bind ((always_modify _).mpr fun s => .same rfl rfl) fun _ => ?_
  refine Always.bind ((always_modify _).mpr fun s => .same rfl rfl) fun _ => ?_
  exact (always_modify _).mpr fun s => Track.removed rfl rfl

theorem idle_present : Always Idle (Op.read fun disk => disk.file.isSome : DiskOp Bool) :=
  (always_read _).mpr Idle.refl

theorem idle_readDeletionRecord : Always Idle readDeletionRecord := (always_tryRead _).mpr Idle.refl

theorem idle_accountLifecycle : Always Idle accountLifecycle := (always_tryRead _).mpr Idle.refl

theorem idle_readStoredAccountGeneration : Always Idle readStoredAccountGeneration := by
  refine idle_openDatabase.bind fun db => (idle_closeDatabase db).bind fun _ => always_lift _

theorem idle_validateStoredAccountLifecycle (deleted : Nat) :
    Always Idle (validateStoredAccountLifecycle deleted) := by
  refine idle_present.bind fun present => ?_
  split
  case isFalse => exact always_pure _
  case isTrue =>
  refine idle_readStoredAccountGeneration.bind fun generation => ?_
  split
  · exact always_pure _
  · exact idle_accountLifecycle.bind fun _ => always_require _ _

theorem idle_deletedGeneration : Always Idle deletedGeneration :=
  idle_readDeletionRecord.bind fun _ =>
    (idle_validateStoredAccountLifecycle _).bind fun _ => always_pure _

theorem idle_recordAccountLifecycle (generation : Nat) (state : AccountState) (now : WallClock) :
    Always Idle (recordAccountLifecycle generation state now) := by
  refine idle_accountLifecycle.bind fun _ => (always_require _ _).bind fun _ => ?_
  exact (always_require _ _).bind fun _ => (always_modify _).mpr fun _ => .same rfl rfl

theorem idle_recordDeletedAccountLifecycle (generation : Nat) (now : WallClock) :
    Always Idle (recordDeletedAccountLifecycle generation now) := by
  refine idle_accountLifecycle.bind fun _ => ?_
  split
  · exact always_pure _
  · exact idle_recordAccountLifecycle _ _ _

theorem idle_recordDeletion (generation : Nat) (now : WallClock) :
    Always Idle (recordDeletion generation now) := by
  refine idle_deletedGeneration.bind fun _ => (always_require _ _).bind fun _ => ?_
  refine Always.bind ((always_modify _).mpr fun _ => .same rfl rfl) fun _ => ?_
  exact idle_recordDeletedAccountLifecycle _ _

theorem idle_currentOrNextAccountGeneration : Always Idle currentOrNextAccountGeneration := by
  refine idle_deletedGeneration.bind fun deleted => idle_present.bind fun present => ?_
  split
  · refine idle_openDatabase.bind fun db => (idle_closeDatabase db).bind fun _ => ?_
    exact (always_lift _).bind fun _ => always_pure _
  · exact always_pure _

theorem idle_setAccountGeneration (db : DatabaseFile) (generation : Nat) (now : WallClock) :
    Always Idle (setAccountGeneration db generation now) :=
  (always_require _ _).bind fun _ => (idle_recordAccountLifecycle _ _ _).bind fun _ =>
    (always_step _).mpr fun _ => .updateFile _ (fun _ => rfl) fun _ => rfl

theorem idle_applyAccountDeletionObligation (now : WallClock) :
    Always Idle (applyAccountDeletionObligation now) := by
  refine idle_deletedGeneration.bind fun deleted => idle_accountLifecycle.bind fun lifecycle => ?_
  refine idle_present.bind fun present => ?_
  split
  · refine idle_readStoredAccountGeneration.bind fun generation => ?_
    split
    · exact (idle_recordDeletedAccountLifecycle _ _).bind fun _ => idle_removeUserFiles
    · exact always_require _ _
  · split
    · exact (idle_recordDeletedAccountLifecycle _ _).bind fun _ => idle_removeUserFiles
    · exact always_throw _

theorem idle_validateAccountLifecycleEntry : Always Idle validateAccountLifecycleEntry := by
  refine Always.bind ((always_read _).mpr Idle.refl) fun recorded => ?_
  cases recorded with
  | none => exact always_pure _
  | some lifecycle =>
    exact (always_require _ _).bind fun _ => idle_readDeletionRecord.bind fun _ => always_require _ _

theorem idle_startAccount (now : WallClock) : Always Idle (startAccount now) := by
  refine idle_validateAccountLifecycleEntry.bind fun _ => ?_
  refine Always.bind ((always_read _).mpr Idle.refl) fun stored => ?_
  split
  · exact idle_applyAccountDeletionObligation now
  · exact always_pure _

/-! ## Deletions leave the tables alone -/

theorem idle_openStoredAccount : Always Idle openStoredAccount := by
  refine idle_present.bind fun present => ?_
  split
  case isFalse => exact always_throw _
  case isTrue =>
  refine idle_openDatabase.bind fun db => ?_
  split
  · exact (idle_closeDatabase db).bind fun _ => always_throw _
  · exact always_pure _

theorem idle_openExistingUser : Always Idle openExistingUser := by
  refine idle_openStoredAccount.bind fun found => idle_deletedGeneration.bind fun deleted => ?_
  split
  · exact always_pure _
  · exact (idle_closeDatabase _).bind fun _ => idle_removeUserFiles.bind fun _ => always_throw _

theorem idle_deleteUser (now : WallClock) : Always Idle (deleteUser now) :=
  idle_currentOrNextAccountGeneration.bind fun _ => (idle_recordDeletion _ _).bind fun _ =>
    idle_removeUserFiles

theorem idle_deleteUserForGeneration (generation : Nat) (now : WallClock) :
    Always Idle (deleteUserForGeneration generation now) := by
  refine idle_openExistingUser.bind fun db => (idle_closeDatabase db).bind fun _ => ?_
  refine (always_lift _).bind fun _ => (always_require _ _).bind fun _ => ?_
  exact (idle_recordDeletion _ _).bind fun _ => idle_removeUserFiles

theorem idle_committedDeletionReceipt (credential : DeletionCredential) :
    Always Idle (committedDeletionReceipt credential) := by
  refine (always_lift _).bind fun path => ?_
  refine Always.bind ((always_tryRead _).mpr Idle.refl) fun receipt => ?_
  cases receipt with
  | none => exact always_pure _
  | some receipt =>
    refine idle_deletedGeneration.bind fun generation => ?_
    split <;> exact always_pure _

theorem idle_writeDeletionReceipt (credential : DeletionCredential) (receipt : DeletionReceipt) :
    Always Idle (writeDeletionReceipt credential receipt) := by
  refine (always_require _ _).bind fun _ => (always_lift _).bind fun path => ?_
  exact (always_modify _).mpr fun _ => .same rfl rfl

theorem idle_purgeReceiptedGeneration (generation : Nat) :
    Always Idle (purgeReceiptedGeneration generation) := by
  refine idle_present.bind fun present => ?_
  split
  case isFalse => exact idle_removeUserFiles
  case isTrue =>
  refine idle_openDatabase.bind fun db => (idle_closeDatabase db).bind fun _ => ?_
  refine (always_lift _).bind fun current => ?_
  split
  · exact always_pure _
  · exact idle_removeUserFiles

theorem idle_deleteUserWithReceipt (generation : Nat) (credential : DeletionCredential)
    (csrfHash : Option Hash) (sessionID : Option String) (now : WallClock) :
    Always Idle (deleteUserWithReceipt generation credential csrfHash sessionID now) := by
  refine (idle_committedDeletionReceipt credential).bind fun receipt => ?_
  cases receipt with
  | some receipt => exact (always_require _ _).bind fun _ => idle_purgeReceiptedGeneration _
  | none =>
    refine idle_openExistingUser.bind fun db => (idle_closeDatabase db).bind fun _ => ?_
    refine (always_lift _).bind fun _ => (always_require _ _).bind fun _ => ?_
    refine (always_require _ _).bind fun _ => (idle_writeDeletionReceipt _ _).bind fun _ => ?_
    exact (idle_recordDeletion _ _).bind fun _ => idle_purgeReceiptedGeneration _

/-! ## Handles -/

/-- A handle knows the tables of its database, wherever that still is. -/
structure Handle (db : DatabaseFile) (s : AccountDisk) : Prop where
  inode : db.inode < s.nextInode
  tables : ∀ file, s.file = some file → file.inode = db.inode → file.tables = db.tables

/-- The database at the path has its own inode. -/
def Numbered (s : AccountDisk) : Prop := ∀ file, s.file = some file → file.inode < s.nextInode

section
variable {s t : AccountDisk} {db : DatabaseFile} {α : Type} {T : UserTables → UserTables → Prop}

theorem Track.numbered (h : Track T s t) (hs : Numbered s) : Numbered t := by
  intro file' hfile'
  rcases h.file file' hfile' with ⟨file, hfile, hinode, -⟩ | ⟨-, hlt, -⟩
  · exact hinode ▸ (hs file hfile).trans_le h.next
  · exact hlt

theorem Handle.idle (h : Handle db s) (hst : Idle s t) : Handle db t := by
  refine ⟨h.inode.trans_le hst.next, fun file' hfile' hsame => ?_⟩
  rcases hst.file file' hfile' with ⟨file, hfile, hinode, htables⟩ | ⟨hle, -, -⟩
  · exact htables ▸ h.tables file hfile (hinode.trans hsame)
  · have hlt := h.inode
    omega

/-- A handle stays good while only steps of this kind are taken. -/
theorem always_handle {x : DiskOp α} (hx : Always Idle x) (h : Handle db s) :
    Meets Idle Idle (fun _ t => Handle db t) x s :=
  Meets.mono (Meets.keep hx.meets h (fun _ _ hR hP => hP.idle hR) fun _ _ hG hP => hP.idle hG)
    (fun _ _ => id) (fun _ _ h => h.1) fun _ _ h => h.2

/-- An open that gives a handle gives a good one. -/
def Opens (x : DiskOp DatabaseFile) (s : AccountDisk) : Prop :=
  Meets Idle Idle (fun r t => ∀ db, r = .ok db → Handle db t) x s

theorem Handle.congr {db' : DatabaseFile} (h : Handle db s) (hinode : db'.inode = db.inode)
    (htables : db'.tables = db.tables) : Handle db' s :=
  ⟨hinode ▸ h.inode, fun file hfile hsame => htables ▸ h.tables file hfile (hsame.trans hinode)⟩

theorem opens_openDatabase (hs : Numbered s) : Opens openDatabase s := by
  refine Meets.bind (Q := fun r t => ∀ db, r = .ok db → Handle db t) ?_ (fun db t hdb => ?_)
    fun e t _ db h => by cases h
  · have hstep := (always_step _).mp idle_connectDatabase s
    rw [connectDatabase, meets_step]
    refine ⟨hstep, fun t hst db hdb => Handle.idle ?_ hst⟩
    cases hdb
    cases h : s.file with
    | some file =>
      refine ⟨hs file h, fun file' hfile' _ => ?_⟩
      cases hfile'
      rfl
    | none =>
      refine ⟨Nat.lt_succ_self _, fun file' hfile' _ => ?_⟩
      cases hfile'
      rfl
  · have hgood := hdb db rfl
    rw [migrateDatabase, meets_bind, meets_require]
    split
    case isFalse => exact fun _ h => by cases h
    case isTrue =>
    have hstep : Idle t (t.updateFile db.inode DatabaseFile.migrate) :=
      .updateFile _ migrate_inode migrate_tables
    refine ⟨hstep, fun u htu db' h => ?_⟩
    cases h
    exact ((hgood.idle hstep).idle htu).congr (migrate_inode db) (migrate_tables db)

/-- What follows an open keeps its handle. -/
theorem Opens.then {x : DiskOp DatabaseFile} {k : DatabaseFile → DiskOp DatabaseFile}
    (h : Opens x s) (hk : ∀ db t, Handle db t → Opens (k db) t) : Opens (x >>= k) s :=
  Meets.bind h (fun db t hdb => hk db t (hdb db rfl)) fun e t _ db he => by cases he

theorem opens_of_throw {e : StoreError} : Opens (throw e) s := fun db h => by cases h

theorem meets_numbered {Q : Except StoreError α → AccountDisk → Prop} {x : DiskOp α}
    (h : Meets Idle Idle Q x s) (hs : Numbered s) :
    Meets Idle Idle (fun r t => Q r t ∧ Numbered t) x s :=
  Meets.mono (Meets.keep h hs (fun _ _ hR hP => Track.numbered hR hP)
    fun _ _ hG hP => Track.numbered hG hP) (fun _ _ => id) (fun _ _ h => h.1) fun _ _ h => h

/-- What precedes an open leaves the path numbered. -/
theorem Opens.after {x : DiskOp α} {k : α → DiskOp DatabaseFile} (hx : Always Idle x)
    (hs : Numbered s) (hk : ∀ a t, Numbered t → Opens (k a) t) : Opens (x >>= k) s :=
  Meets.bind (meets_numbered hx.meets hs) (fun a t ht => hk a t ht.2) fun e t _ db he => by cases he

/-- What comes between an open and its return keeps the handle. -/
theorem Opens.through {x : DiskOp α} {k : α → DiskOp DatabaseFile} (hx : Always Idle x)
    (h : Handle db s) (hk : ∀ a t, Handle db t → Opens (k a) t) : Opens (x >>= k) s :=
  Meets.bind (always_handle hx h) (fun a t ht => hk a t ht) fun e t _ db' he => by cases he

theorem opens_pure (h : Handle db s) : Opens (pure db) s := fun _ hr => by
  cases hr
  exact h

theorem opens_openExistingUser (hs : Numbered s) : Opens openExistingUser s := by
  refine Meets.bind (Q := fun r t => ∀ found, r = .ok found → Handle found.1 t) ?_
    (fun found t hfound => ?_) fun e t _ db h => by cases h
  · rw [openStoredAccount]
    refine Meets.bind (Q := fun _ t => Numbered t) ?_ (fun present t ht => ?_)
      fun e t _ found h => by cases h
    · exact ⟨.refl s, fun t ht => Track.numbered ht hs⟩
    · split
      case isFalse => exact fun _ h => by cases h
      case isTrue =>
      refine Meets.bind (opens_openDatabase ht) (fun db u hdb => ?_) fun e u _ found h => by cases h
      have hgood := hdb db rfl
      split
      · exact Meets.bind (always_handle (idle_closeDatabase db) hgood) (fun _ _ _ _ h => by cases h)
          fun _ _ _ _ h => by cases h
      · intro found h
        cases h
        exact hgood
  · refine Opens.through idle_deletedGeneration (hfound found rfl) fun deleted u hu => ?_
    split
    · exact opens_pure hu
    · exact Opens.through (idle_closeDatabase _) hu fun _ v hv =>
        Opens.through idle_removeUserFiles hv fun _ w _ => opens_of_throw

theorem opens_createAccountDatabase (hs : Numbered s) (deleted : Nat) (now : WallClock) :
    Opens (createAccountDatabase deleted now) s := by
  have hcreate : Always Idle createFile := (always_modify _).mpr fun s => by
    cases h : s.file with
    | some file => exact .refl s
    | none => exact .created rfl rfl rfl rfl
  refine Opens.after hcreate hs fun _ t ht => ?_
  refine (opens_openDatabase ht).then fun db u hdb => ?_
  split
  · exact Opens.through (idle_closeDatabase db) hdb fun _ v _ => opens_of_throw
  · refine Opens.through (always_require _ _) hdb fun _ v hv => ?_
    refine Opens.through (idle_recordAccountLifecycle _ _ _) hv fun _ w hw => ?_
    have hstep : Idle w (w.updateFile db.inode fun file => { file with generation := some (deleted + 1) }) :=
      .updateFile _ (fun _ => rfl) fun _ => rfl
    refine ⟨hstep, fun x hx db' h => ?_⟩
    cases h
    exact ((hw.idle hstep).idle hx).congr rfl rfl

theorem handles_openReusableAccount (hs : Numbered s) (deleted : Nat) :
    Meets Idle Idle (fun r t => ∀ db, r = .ok (some db) → Handle db t)
      (openReusableAccount deleted) s := by
  refine Meets.bind (meets_numbered idle_present.meets hs) (fun present t ht => ?_)
    fun e t _ db h => by cases h
  split
  case isFalse => exact fun _ h => by cases h
  case isTrue =>
  refine Meets.bind (opens_openDatabase ht.2) (fun db u hdb => ?_) fun e u _ found h => by cases h
  have hgood := hdb db rfl
  split
  · exact Meets.bind (always_handle (idle_closeDatabase db) hgood) (fun _ _ _ _ h => by cases h)
      fun _ _ _ _ h => by cases h
  · split
    · intro found h
      cases h
      exact hgood
    · refine Meets.bind (idle_closeDatabase db).meets (fun _ v _ => ?_) fun _ _ _ _ h => by cases h
      exact Meets.bind idle_removeUserFiles.meets (fun _ _ _ _ h => by cases h)
        fun _ _ _ _ h => by cases h

theorem opens_openUser (hs : Numbered s) (now : WallClock) : Opens (openUser now) s := by
  refine Opens.after idle_deletedGeneration hs fun deleted t ht => ?_
  refine Meets.bind (meets_numbered (handles_openReusableAccount ht deleted) ht)
    (fun reusable u hu => ?_) fun e u _ db h => by cases h
  cases reusable with
  | some db => exact opens_pure (hu.1 db rfl)
  | none => exact opens_createAccountDatabase hu.2 deleted now

end

end Pomodorough.Store.TrackedFiles
