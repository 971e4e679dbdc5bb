import Pomodorough.Store.LedgerSpec

/-! # What the ledger's functions do alone

When nothing interferes, a call is a function of the disk it starts on. Reading
the ledger leaves an account's file migrated and its sidecars gone. -/
namespace Pomodorough.Store.Sequential
open Pomodorough.Library.AtomicSteps Pomodorough.Store.Records Pomodorough.Store.DeletionLedger
open Pomodorough.Store.Accounts Pomodorough.Store.LedgerSpec

/-! ## Opening a file -/

/-- The disk while a handle to its database is open. -/
def opened (s : AccountDisk) (file : DatabaseFile) : AccountDisk :=
  { s with file := some file.migrate, wal := true, shm := true }

/-- The disk once the handle is closed again. -/
def closed (s : AccountDisk) (file : DatabaseFile) : AccountDisk :=
  { s with file := some file.migrate, wal := false, shm := false }

/-- The schema is one this version can open. -/
def Supported (file : DatabaseFile) : Prop := file.schemaVersion ≤ currentSchemaVersion

instance (file : DatabaseFile) : Decidable (Supported file) :=
  inferInstanceAs (Decidable (_ ≤ _))

section
variable {s : AccountDisk} {file : DatabaseFile}

@[simp] theorem opened_file : (opened s file).file = some file.migrate := rfl
@[simp] theorem opened_inode : file.migrate.inode = file.inode := migrate_inode file
@[simp] theorem opened_tombstone : tombstone (opened s file) = tombstone s := rfl
@[simp] theorem closed_file : (closed s file).file = some file.migrate := rfl
@[simp] theorem closed_tombstone : tombstone (closed s file) = tombstone s := rfl
@[simp] theorem closed_lifecycleRecord : (closed s file).lifecycleRecord = s.lifecycleRecord := rfl
@[simp] theorem closed_deletionRecord : (closed s file).deletionRecord = s.deletionRecord := rfl
@[simp] theorem closed_closed : closed (closed s file) file.migrate = closed s file := by
  simp [closed]
@[simp] theorem closed_opened : closed (opened s file) file.migrate = closed s file := by
  simp [closed, opened]
@[simp] theorem opened_closed : opened (closed s file) file.migrate = opened s file := by
  simp [closed, opened]

theorem supported_migrate : Supported file.migrate ↔ Supported file := by
  unfold Supported DatabaseFile.migrate
  split
  · simp only [le_refl, true_iff]
    omega
  · rfl

theorem closed_sameLedger : SameLedger s (closed s file) := ⟨rfl, rfl, rfl⟩

theorem exec_connectDatabase (h : s.file = some file) :
    connectDatabase.exec s = (.ok file, { s with wal := true, shm := true }) := by
  simp [connectDatabase, h]

theorem exec_openDatabase (h : s.file = some file) (hs : Supported file) :
    openDatabase.exec s = (.ok file.migrate, opened s file) := by
  have hs' : file.schemaVersion ≤ currentSchemaVersion := hs
  simp [openDatabase, exec_connectDatabase h, migrateDatabase, hs', AccountDisk.updateFile, h,
    opened]

theorem exec_openDatabase_unsupported (h : s.file = some file) (hs : ¬ Supported file) :
    openDatabase.exec s = (.error (.failure "user database schema is newer than supported schema"),
      { s with wal := true, shm := true }) := by
  have hs' : ¬ file.schemaVersion ≤ currentSchemaVersion := hs
  simp [openDatabase, exec_connectDatabase h, migrateDatabase, hs']

theorem exec_closeDatabase (h : s.file = some file) (db : DatabaseFile)
    (hi : file.inode = db.inode) :
    (closeDatabase db).exec s = (.ok (), { s with wal := false, shm := false }) := by
  simp [closeDatabase, h, hi]

theorem exec_closeDatabase_opened :
    (closeDatabase file.migrate).exec (opened s file) = (.ok (), closed s file) := by
  rw [exec_closeDatabase opened_file _ rfl]
  rfl

theorem exec_readStoredAccountGeneration (h : s.file = some file) (hs : Supported file) :
    readStoredAccountGeneration.exec s = (accountGeneration file.migrate, closed s file) := by
  simp [readStoredAccountGeneration, exec_openDatabase h hs, exec_closeDatabase_opened]

theorem exec_openDatabase_ok {t : AccountDisk} {db : DatabaseFile} (h : s.file = some file)
    (ho : openDatabase.exec s = (.ok db, t)) :
    Supported file ∧ db = file.migrate ∧ t = opened s file := by
  by_cases hs : Supported file
  · rw [exec_openDatabase h hs] at ho
    cases ho
    exact ⟨hs, rfl, rfl⟩
  · rw [exec_openDatabase_unsupported h hs] at ho
    cases ho

theorem exec_readStoredAccountGeneration_ok {t : AccountDisk} {generation : Nat}
    (h : s.file = some file) (hr : readStoredAccountGeneration.exec s = (.ok generation, t)) :
    Supported file ∧ accountGeneration file.migrate = .ok generation ∧ t = closed s file := by
  obtain ⟨db, u, ho, hr⟩ := Op.exec_bind_ok.mp hr
  obtain ⟨hs, rfl, rfl⟩ := exec_openDatabase_ok h ho
  rw [Op.exec_bind, exec_closeDatabase_opened] at hr
  obtain ⟨hg, rfl⟩ := Op.exec_lift_ok.mp hr
  exact ⟨hs, hg, rfl⟩

theorem exec_removeUserFiles (s : AccountDisk) : removeUserFiles.exec s =
    (.ok (), { s with file := none, wal := false, shm := false }) := by
  simp [removeUserFiles]

end

/-! ## Reading the ledger -/

theorem exec_readDeletionRecord_ok {s t : AccountDisk} {deleted : Nat}
    (h : readDeletionRecord.exec s = (.ok deleted, t)) : deleted = tombstone s ∧ t = s := by
  simp only [readDeletionRecord, Op.exec_tryRead, Prod.mk.injEq] at h
  obtain ⟨h, rfl⟩ := h
  refine ⟨?_, rfl⟩
  split at h
  · rename_i hnone
    unfold tombstone
    rw [hnone]
    exact (Except.ok.inj h).symm
  · rename_i record hrecord
    unfold tombstone
    rw [hrecord]
    split at h
    · exact (Except.ok.inj h).symm
    · cases h

theorem exec_accountLifecycle_ok {s t : AccountDisk} {lifecycle : Option AccountLifecycleRecord}
    (h : accountLifecycle.exec s = (.ok lifecycle, t)) :
    lifecycle = s.lifecycleRecord ∧ t = s := by
  simp only [accountLifecycle, Op.exec_tryRead, Prod.mk.injEq] at h
  obtain ⟨h, rfl⟩ := h
  refine ⟨?_, rfl⟩
  split at h
  · rename_i hnone
    rw [hnone]
    exact (Except.ok.inj h).symm
  · rename_i record hrecord
    rw [hrecord]
    split at h
    · exact (Except.ok.inj h).symm
    · cases h

theorem lifecycleGeneration_of_bindsActive {lifecycle : Option AccountLifecycleRecord}
    {generation : Nat}
    (h : bindsActive lifecycle generation = true) :
    lifecycleGeneration lifecycle = generation := by
  cases lifecycle with
  | none => cases h
  | some record =>
    simp only [bindsActive, Bool.and_eq_true, beq_iff_eq] at h
    exact h.2

/-- What a successful ledger read has checked of the file: it is deleted, or it
is the active generation. -/
def Admitted (s : AccountDisk) (generation : Nat) : Prop :=
  generation ≤ tombstone s ∨ bindsActive s.lifecycleRecord generation = true

instance (s : AccountDisk) (generation : Nat) : Decidable (Admitted s generation) :=
  inferInstanceAs (Decidable (_ ∨ _))

/-- A successful ledger read: the account is missing, or its file was opened,
checked and closed. -/
theorem exec_deletedGeneration_ok {s t : AccountDisk} {deleted : Nat}
    (h : deletedGeneration.exec s = (.ok deleted, t)) : deleted = tombstone s ∧
      ((s.file = none ∧ t = s) ∨ ∃ file generation, s.file = some file ∧ Supported file ∧
        accountGeneration file.migrate = .ok generation ∧ Admitted s generation ∧
        t = closed s file) := by
  obtain ⟨d, u, hr, h⟩ := Op.exec_bind_ok.mp h
  obtain ⟨rfl, rfl⟩ := exec_readDeletionRecord_ok hr
  obtain ⟨_, v, hv, h⟩ := Op.exec_bind_ok.mp h
  cases h
  refine ⟨rfl, ?_⟩
  simp only [validateStoredAccountLifecycle, Op.exec_bind, Op.exec_read] at hv
  cases hf : u.file with
  | none =>
    rw [hf] at hv
    cases hv
    exact .inl ⟨rfl, rfl⟩
  | some file =>
    rw [hf] at hv
    obtain ⟨generation, w, hg, hv⟩ := Op.exec_bind_ok.mp hv
    obtain ⟨hs, hgen, rfl⟩ := exec_readStoredAccountGeneration_ok hf hg
    refine .inr ⟨file, generation, rfl, hs, hgen, ?_⟩
    by_cases hle : generation ≤ tombstone u
    · rw [if_pos hle] at hv
      cases hv
      exact ⟨.inl hle, rfl⟩
    · rw [if_neg hle] at hv
      obtain ⟨lifecycle, x, hl, hv⟩ := Op.exec_bind_ok.mp hv
      obtain ⟨rfl, rfl⟩ := exec_accountLifecycle_ok hl
      obtain ⟨hb, rfl⟩ := Op.exec_require_ok.mp hv
      exact ⟨.inr hb, rfl⟩

/-! ## Opening an account -/

theorem exec_openStoredAccount_ok {s t : AccountDisk} {db : DatabaseFile} {generation : Nat}
    (h : openStoredAccount.exec s = (.ok (db, generation), t)) : ∃ file, s.file = some file ∧
      Supported file ∧ db = file.migrate ∧ accountGeneration file.migrate = .ok generation ∧
      t = opened s file := by
  simp only [openStoredAccount, Op.exec_bind, Op.exec_read] at h
  cases hf : s.file with
  | none =>
    rw [hf] at h
    cases h
  | some file =>
    rw [hf] at h
    obtain ⟨db', u, ho, h⟩ := Op.exec_bind_ok.mp h
    obtain ⟨hs, rfl, rfl⟩ := exec_openDatabase_ok hf ho
    cases hg : accountGeneration file.migrate with
    | error e =>
      rw [hg] at h
      obtain ⟨_, _, _, h⟩ := Op.exec_bind_ok.mp h
      cases h
    | ok g =>
      rw [hg] at h
      cases h
      exact ⟨file, rfl, hs, rfl, hg, rfl⟩

/-- An existing account opens when it is the ledger's active generation. -/
theorem exec_openExistingUser_ok {s t : AccountDisk} {db : DatabaseFile}
    (h : openExistingUser.exec s = (.ok db, t)) : ∃ file generation, s.file = some file ∧
      db = file.migrate ∧ accountGeneration file.migrate = .ok generation ∧
      tombstone s < generation ∧ bindsActive s.lifecycleRecord generation = true ∧
      t = closed s file := by
  obtain ⟨⟨db', generation⟩, u, ho, h⟩ := Op.exec_bind_ok.mp h
  obtain ⟨file, hf, -, rfl, hg, rfl⟩ := exec_openStoredAccount_ok ho
  obtain ⟨deleted, v, hd, h⟩ := Op.exec_bind_ok.mp h
  obtain ⟨rfl, hv⟩ := exec_deletedGeneration_ok hd
  rcases hv with ⟨hnone, -⟩ | ⟨file', generation', hf', -, hg', hadm, rfl⟩
  · cases hnone
  · cases hf'
    rw [migrate_migrate, hg] at hg'
    cases hg'
    rw [opened_tombstone, closed_opened] at h
    by_cases hlt : tombstone s < generation
    · rw [if_pos hlt] at h
      cases h
      exact ⟨file, generation, hf, rfl, hg, hlt, hadm.resolve_left (not_le.mpr hlt), rfl⟩
    · rw [if_neg hlt] at h
      obtain ⟨_, _, -, h⟩ := Op.exec_bind_ok.mp h
      obtain ⟨_, _, -, h⟩ := Op.exec_bind_ok.mp h
      cases h

theorem exec_currentOrNextAccountGeneration_ok {s t : AccountDisk} {current : Nat}
    (h : currentOrNextAccountGeneration.exec s = (.ok current, t)) :
    (s.file = none ∧ current = (if 0 < tombstone s then tombstone s else 1) ∧ t = s) ∨
      ∃ file generation, s.file = some file ∧ accountGeneration file.migrate = .ok generation ∧
        Admitted s generation ∧ current = max (tombstone s) generation ∧ t = closed s file := by
  obtain ⟨deleted, u, hd, h⟩ := Op.exec_bind_ok.mp h
  obtain ⟨rfl, hu⟩ := exec_deletedGeneration_ok hd
  rcases hu with ⟨hnone, rfl⟩ | ⟨file, generation, hf, hs, hg, hadm, rfl⟩
  · simp only [Op.exec_bind, Op.exec_read, hnone] at h
    cases h
    exact .inl ⟨hnone, rfl, rfl⟩
  · simp only [Op.exec_bind, Op.exec_read, closed_file, Option.isSome_some, if_true] at h
    rw [exec_openDatabase closed_file (supported_migrate.mpr hs)] at h
    simp only [migrate_migrate] at h
    have hclose : (closeDatabase file.migrate).exec (opened (closed s file) file.migrate) =
        (.ok (), closed s file) := by
      rw [opened_closed]
      exact exec_closeDatabase_opened
    rw [hclose] at h
    simp only [Op.exec_lift, hg] at h
    cases h
    exact .inr ⟨file, generation, hf, hg, hadm, rfl, rfl⟩

/-- A receipt is written beside the records that decide what is deleted. -/
theorem exec_writeDeletionReceipt_ok {s t : AccountDisk} {credential : DeletionCredential}
    {receipt : DeletionReceipt}
    (h : (writeDeletionReceipt credential receipt).exec s = (.ok (), t)) :
    ∃ receipts, t = { s with receipts } := by
  obtain ⟨_, u, hreq, hrest⟩ := Op.exec_bind_ok.mp h
  obtain ⟨-, rfl⟩ := Op.exec_require_ok.mp hreq
  obtain ⟨path, v, hpath, hwrite⟩ := Op.exec_bind_ok.mp hrest
  obtain ⟨-, rfl⟩ := Op.exec_lift_ok.mp hpath
  cases hwrite
  exact ⟨_, rfl⟩

/-! ## On a valid ledger -/

/-- The account's records, where they exist, are records the ledger accepts. -/
structure ValidLedger (s : AccountDisk) : Prop where
  deletion : ∀ record, s.deletionRecord = some record → record.valid = true
  lifecycle : ∀ record, s.lifecycleRecord = some record → record.valid = true

section
variable {s : AccountDisk} {file : DatabaseFile} {generation : Nat}

theorem exec_readDeletionRecord (hv : ValidLedger s) :
    readDeletionRecord.exec s = (.ok (tombstone s), s) := by
  rw [readDeletionRecord, Op.exec_tryRead]
  unfold tombstone
  cases hrec : s.deletionRecord with
  | none => rfl
  | some record => simp [hv.deletion record hrec]

theorem exec_accountLifecycle (hv : ValidLedger s) :
    accountLifecycle.exec s = (.ok s.lifecycleRecord, s) := by
  rw [accountLifecycle, Op.exec_tryRead]
  cases hrec : s.lifecycleRecord with
  | none => rfl
  | some record => simp [hv.lifecycle record hrec]

theorem exec_deletedGeneration_missing (hv : ValidLedger s) (h : s.file = none) :
    deletedGeneration.exec s = (.ok (tombstone s), s) := by
  rw [deletedGeneration, Op.exec_bind, exec_readDeletionRecord hv]
  simp [validateStoredAccountLifecycle, h]

theorem exec_deletedGeneration_present (hv : ValidLedger s) (h : s.file = some file)
    (hs : Supported file) (hg : accountGeneration file.migrate = .ok generation) :
    deletedGeneration.exec s = (if Admitted s generation then .ok (tombstone s)
      else .error (.failure "account database is not bound to current ledger lifecycle"),
      closed s file) := by
  rw [deletedGeneration, Op.exec_bind, exec_readDeletionRecord hv]
  have hv' : ValidLedger (closed s file) := ⟨hv.deletion, hv.lifecycle⟩
  simp only [validateStoredAccountLifecycle, Op.exec_bind, Op.exec_read, h, Option.isSome_some,
    if_true, exec_readStoredAccountGeneration h hs, hg]
  by_cases hle : generation ≤ tombstone s
  · simp [hle, Admitted]
  · by_cases hb : bindsActive s.lifecycleRecord generation = true
    · simp [hle, Admitted, exec_accountLifecycle hv', hb]
    · simp [hle, Admitted, exec_accountLifecycle hv', hb]

theorem exec_recordAccountLifecycle (hv : ValidLedger s) {state : AccountState} (now : WallClock)
    (hg : validGeneration generation = true)
    (hallow : LifecycleAllows s.lifecycleRecord generation state) :
    (recordAccountLifecycle generation state now).exec s =
      (.ok (), s.publishLifecycleRecord generation state now) := by
  have hguard : s.lifecycleRecord.any (fun record => record.generation == generation &&
      record.state == .deleted && state == .active) = false := by
    cases hrec : s.lifecycleRecord with
    | none => rfl
    | some record =>
      by_cases heq : record.generation = generation
      · by_cases hdel : record.state = .deleted
        · have hstate := hallow.2 record hrec heq hdel
          simp [hstate]
        · simp [hdel]
      · simp [heq]
  simp [recordAccountLifecycle, exec_accountLifecycle hv, hg, hallow.1, hguard]

end

end Pomodorough.Store.Sequential
