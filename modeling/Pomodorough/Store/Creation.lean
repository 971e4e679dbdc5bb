import Pomodorough.Store.Sequential

/-! # Creating an account, interrupted anywhere

An account is created in two stores without a common transaction: the database
file first, then the ledger's lifecycle record, then the generation inside the
file. What a later open and a restart make of each intermediate state decides
whether the creation can be finished. -/
namespace Pomodorough.Store.Creation
open Pomodorough.Library.AtomicSteps Pomodorough.Store.Records Pomodorough.Store.DeletionLedger
open Pomodorough.Store.Accounts Pomodorough.Store.LedgerSpec Pomodorough.Store.Sequential

/-! ## Creating from a missing file -/

section Creating
variable {s : AccountDisk} {file : DatabaseFile} {generation : Nat} {now : WallClock}

/-- The file a creation makes, once migrated: its generation is 1 for now. -/
def newFile (s : AccountDisk) : DatabaseFile := (DatabaseFile.empty s.nextInode).migrate

@[simp] theorem newFile_generation : (newFile s).generation = some 1 := rfl
@[simp] theorem newFile_inode : (newFile s).inode = s.nextInode := rfl

/-- The file exists and is migrated. -/
def withNewFile (s : AccountDisk) : AccountDisk :=
  { s with file := some (newFile s), wal := true, shm := true, nextInode := s.nextInode + 1 }

/-- The account a creation ends with. -/
def createdAccount (s : AccountDisk) (now : WallClock) : AccountDisk :=
  { (withNewFile s).publishLifecycleRecord (tombstone s + 1) .active now with
    file := some { newFile s with generation := some (tombstone s + 1) } }

theorem exec_createFile (h : s.file = none) : createFile.exec s =
    (.ok (), { s with file := some (.empty s.nextInode), nextInode := s.nextInode + 1 }) := by
  simp [createFile, h]

theorem exec_createFile_openDatabase (h : s.file = none) :
    (createFile >>= fun _ => openDatabase).exec s = (.ok (newFile s), withNewFile s) := by
  rw [Op.exec_bind, exec_createFile h]
  exact exec_openDatabase rfl (Nat.zero_le 7)

/-- The ledger may activate the generation after the tombstone. -/
def CanActivate (s : AccountDisk) : Prop :=
  ValidLedger s ∧ tombstone s < maxSafeRevision ∧
    LifecycleAllows s.lifecycleRecord (tombstone s + 1) .active

theorem validGeneration_next (h : tombstone s < maxSafeRevision) :
    validGeneration (tombstone s + 1) = true := by
  simp only [validGeneration, Bool.and_eq_true, decide_eq_true_eq]
  omega

theorem exec_createAccountDatabase (h : s.file = none) (hcan : CanActivate s) :
    (createAccountDatabase (tombstone s) now).exec s =
      (.ok { newFile s with generation := some (tombstone s + 1) }, createdAccount s now) := by
  obtain ⟨hv, hlt, hallow⟩ := hcan
  have hopen := exec_createFile_openDatabase h
  rw [Op.exec_bind, exec_createFile h] at hopen
  have hne : tombstone s ≠ maxSafeRevision := by omega
  have hv' : ValidLedger (withNewFile s) := ⟨hv.deletion, hv.lifecycle⟩
  have hset : (setAccountGeneration (newFile s) (tombstone s + 1) now).exec (withNewFile s) =
      (.ok { newFile s with generation := some (tombstone s + 1) }, createdAccount s now) := by
    have hrecord := exec_recordAccountLifecycle hv' now (validGeneration_next hlt) hallow
    simp only [setAccountGeneration, Op.exec_bind, Op.exec_require, validGeneration_next hlt,
      if_true, hrecord]
    simp [updateGeneration, AccountDisk.updateFile, createdAccount, withNewFile,
      AccountDisk.publishLifecycleRecord]
  rw [createAccountDatabase, Op.exec_bind, exec_createFile h]
  dsimp only at hopen ⊢
  rw [Op.exec_bind, hopen]
  dsimp only
  rw [if_neg hne, hset]

theorem tombstone_le (hv : ValidLedger s) : tombstone s ≤ maxSafeRevision := by
  unfold tombstone
  cases hrec : s.deletionRecord with
  | none => exact Nat.zero_le _
  | some record =>
    have hvalid := hv.deletion record hrec
    simp only [DeletionRecord.valid, validGeneration, Bool.and_eq_true, decide_eq_true_eq] at hvalid
    exact hvalid.1.2.2

/-- After the last generation nothing can be created any more. -/
theorem exec_createAccountDatabase_exhausted (h : s.file = none)
    (hmax : tombstone s = maxSafeRevision) :
    ((createAccountDatabase (tombstone s) now).exec s).1 = .error .revisionExhausted := by
  have hopen := exec_createFile_openDatabase h
  rw [Op.exec_bind, exec_createFile h] at hopen
  dsimp only at hopen
  simp only [createAccountDatabase, Op.exec_bind, exec_createFile h, hopen, hmax, if_true,
    closeDatabase, Op.exec_modify, Op.exec_throw]

theorem exec_openUser_create (hv : ValidLedger s) (h : s.file = none) :
    (openUser now).exec s = (createAccountDatabase (tombstone s) now).exec s := by
  rw [openUser, Op.exec_bind, exec_deletedGeneration_missing hv h]
  simp only [Op.exec_bind, openReusableAccount, Op.exec_read, h, Option.isSome_none]
  rfl

theorem exec_openUser_missing (h : s.file = none) (hcan : CanActivate s) :
    (openUser now).exec s =
      (.ok { newFile s with generation := some (tombstone s + 1) }, createdAccount s now) := by
  rw [exec_openUser_create hcan.1 h]
  exact exec_createAccountDatabase h hcan

/-- A file of the active generation above the tombstone is returned. -/
theorem exec_openUser_bound (hv : ValidLedger s) (h : s.file = some file) (hs : Supported file)
    (hg : accountGeneration file.migrate = .ok generation) (hlt : tombstone s < generation)
    (hb : bindsActive s.lifecycleRecord generation = true) :
    (openUser now).exec s = (.ok file.migrate, opened s file) := by
  rw [openUser, Op.exec_bind, exec_deletedGeneration_present hv h hs hg, if_pos (.inr hb)]
  have hopen : openDatabase.exec (closed s file) = (.ok file.migrate, opened s file) := by
    rw [exec_openDatabase closed_file (supported_migrate.mpr hs), migrate_migrate, opened_closed]
  simp only [Op.exec_bind, openReusableAccount, Op.exec_read, closed_file, Option.isSome_some,
    if_true, hopen, hg, hlt, Op.exec_pure]

/-- The account with its files removed. -/
def removed (s : AccountDisk) : AccountDisk := { s with file := none, wal := false, shm := false }

/-- A file at or below the tombstone is removed and the account created anew. -/
theorem exec_openUser_deleted (hv : ValidLedger s) (h : s.file = some file) (hs : Supported file)
    (hg : accountGeneration file.migrate = .ok generation) (hle : generation ≤ tombstone s) :
    (openUser now).exec s = (createAccountDatabase (tombstone s) now).exec (removed s) := by
  rw [openUser, Op.exec_bind, exec_deletedGeneration_present hv h hs hg, if_pos (.inl hle)]
  have hopen : openDatabase.exec (closed s file) = (.ok file.migrate, opened s file) := by
    rw [exec_openDatabase closed_file (supported_migrate.mpr hs), migrate_migrate, opened_closed]
  simp only [Op.exec_bind, openReusableAccount, Op.exec_read, closed_file, Option.isSome_some,
    if_true, hopen, hg, not_lt.mpr hle, if_false, exec_closeDatabase_opened, exec_removeUserFiles,
    Op.exec_pure]
  rfl

/-! ## Starting with the file present -/

theorem exec_applyObligation_bound (hv : ValidLedger s) (h : s.file = some file)
    (hs : Supported file) (hg : accountGeneration file.migrate = .ok generation)
    (hlt : tombstone s < generation) (hb : bindsActive s.lifecycleRecord generation = true) :
    (applyAccountDeletionObligation now).exec s = (.ok (), closed s file) := by
  have hv' : ValidLedger (closed s file) := ⟨hv.deletion, hv.lifecycle⟩
  have hread : readStoredAccountGeneration.exec (closed s file) =
      (.ok generation, closed s file) := by
    rw [exec_readStoredAccountGeneration closed_file (supported_migrate.mpr hs), migrate_migrate,
      hg, closed_closed]
  rw [applyAccountDeletionObligation, Op.exec_bind, exec_deletedGeneration_present hv h hs hg,
    if_pos (.inr hb)]
  simp only [Op.exec_bind, exec_accountLifecycle hv', Op.exec_read, closed_file,
    Option.isSome_some, if_true, hread, not_le.mpr hlt, if_false, Op.exec_require,
    closed_lifecycleRecord, hb]

/-- A deleted file that a deletion or a creation left behind is cleared away. -/
theorem exec_applyObligation_deleted (hv : ValidLedger s) (h : s.file = some file)
    (hs : Supported file) (hg : accountGeneration file.migrate = .ok generation)
    (hle : generation ≤ tombstone s) :
    ((applyAccountDeletionObligation now).exec s).1 = .ok () := by
  have hv' : ValidLedger (closed s file) := ⟨hv.deletion, hv.lifecycle⟩
  have hread : readStoredAccountGeneration.exec (closed s file) =
      (.ok generation, closed s file) := by
    rw [exec_readStoredAccountGeneration closed_file (supported_migrate.mpr hs), migrate_migrate,
      hg, closed_closed]
  rw [applyAccountDeletionObligation, Op.exec_bind, exec_deletedGeneration_present hv h hs hg,
    if_pos (.inl hle)]
  simp only [Op.exec_bind, exec_accountLifecycle hv', Op.exec_read, closed_file,
    Option.isSome_some, if_true, hread, hle]
  by_cases hlt : generation < lifecycleGeneration s.lifecycleRecord
  · simp [recordDeletedAccountLifecycle, exec_accountLifecycle hv', hlt, exec_removeUserFiles]
  · obtain ⟨-, hpos, hmax⟩ := accountGeneration_ok hg
    have hvalid : validGeneration generation = true := by
      simp only [validGeneration, Bool.and_eq_true, decide_eq_true_eq]
      exact ⟨hpos, hmax⟩
    have hallow : LifecycleAllows (closed s file).lifecycleRecord generation .deleted :=
      ⟨not_lt.mp hlt, fun _ _ _ _ => rfl⟩
    simp [recordDeletedAccountLifecycle, exec_accountLifecycle hv', hlt,
      exec_recordAccountLifecycle hv' now hvalid hallow, exec_removeUserFiles]

/-- The ledger inventory accepts the account's records. -/
theorem exec_validateAccountLifecycleEntry (hv : ValidLedger s)
    (hcoherent : ∀ record, s.lifecycleRecord = some record → record.state = .deleted →
      record.generation ≤ tombstone s) :
    validateAccountLifecycleEntry.exec s = (.ok (), s) := by
  rw [validateAccountLifecycleEntry, Op.exec_bind, Op.exec_read]
  cases hrec : s.lifecycleRecord with
  | none => rfl
  | some record =>
    have hguard : (record.state == .deleted && decide (tombstone s < record.generation)) = false := by
      by_cases hdel : record.state = .deleted
      · have hle := hcoherent record hrec hdel
        simp [hle]
      · simp [hdel]
    simp only [Op.exec_bind, Op.exec_require, hv.lifecycle record hrec, if_true,
      exec_readDeletionRecord hv, hguard, Bool.not_false]

end Creating

/-! ## Between calls -/

/-- An account that successful calls have left: missing, and then nobody has
created it or its last generation is deleted, or active just above the
tombstone. -/
structure Settled (s : AccountDisk) : Prop where
  ledger : ValidLedger s
  missing : s.file = none → s.wal = false ∧ s.shm = false ∧
    lifecycleGeneration s.lifecycleRecord = tombstone s ∧
    ∀ record, s.lifecycleRecord = some record → record.state = .deleted
  active : ∀ file, s.file = some file → file.schemaVersion = currentSchemaVersion ∧
    accountGeneration file = .ok (tombstone s + 1) ∧
    bindsActive s.lifecycleRecord (tombstone s + 1) = true

/-- The same account with no handle open on it. -/
def quiet (s : AccountDisk) : AccountDisk := { s with wal := false, shm := false }

section Settled
variable {s t : AccountDisk} {file : DatabaseFile} {now : WallClock}

theorem settled_blank : Settled .blank where
  ledger := ⟨fun _ h => (by cases h), fun _ h => (by cases h)⟩
  missing _ := ⟨rfl, rfl, rfl, fun _ h => (by cases h)⟩
  active _ h := by cases h

theorem migrate_current (h : file.schemaVersion = currentSchemaVersion) : file.migrate = file := by
  simp [DatabaseFile.migrate, h]

/-- A file of the current schema is not changed by opening it. -/
theorem quiet_keeps_file (hsame : file.migrate = file) (h : Quiet s t)
    (hs : s.file = some file) : t.file = some file := by
  have hkept := h.kept (by rw [hs]; rfl)
  obtain ⟨file', hfile'⟩ := Option.isSome_iff_exists.mp hkept
  rcases h.file file' hfile' with ⟨old, hold, hopen⟩ | ⟨hnone, -⟩
  · rw [hs] at hold
    cases hold
    rcases hopen with rfl | rfl
    · exact hfile'
    · rw [hfile', hsame]
  · rw [hs] at hnone
    cases hnone

theorem Settled.sidecars (h : Settled s) {wal shm : Bool} (hfile : s.file.isSome) :
    Settled { s with wal, shm } where
  ledger := ⟨h.ledger.deletion, h.ledger.lifecycle⟩
  missing hnone := by
    rw [show s.file = none from hnone] at hfile
    cases hfile
  active := h.active

theorem Settled.quiet (h : Settled s) : Settled (quiet s) where
  ledger := ⟨h.ledger.deletion, h.ledger.lifecycle⟩
  missing hnone := ⟨rfl, rfl, (h.missing hnone).2.2⟩
  active := h.active

theorem Settled.closed_eq (h : Settled s) (hfile : s.file = some file) :
    closed s file = Creation.quiet s := by
  rw [closed, migrate_current (h.active file hfile).1, ← hfile]
  rfl

theorem Settled.coherent (h : Settled s) : ∀ record, s.lifecycleRecord = some record →
    record.state = .deleted → record.generation ≤ tombstone s := by
  intro record hrec hdel
  cases hfile : s.file with
  | none =>
    have hgen := (h.missing hfile).2.2.1
    rw [hrec] at hgen
    exact hgen.le
  | some file =>
    have hb := (h.active file hfile).2.2
    rw [hrec] at hb
    simp [bindsActive, hdel] at hb

/-- Creating the next generation is allowed where the account is missing. -/
theorem Settled.canActivate (h : Settled s) (hfile : s.file = none)
    (hlt : tombstone s < maxSafeRevision) : CanActivate s := by
  obtain ⟨-, -, hgen, hdel⟩ := h.missing hfile
  refine ⟨h.ledger, hlt, by omega, fun record hrec heq _ => ?_⟩
  rw [hrec] at hgen
  simp only [lifecycleGeneration] at hgen
  omega

/-! ## Successful calls -/

theorem settled_openUser (h : Settled s) {db : DatabaseFile}
    (ho : (openUser now).exec s = (.ok db, t)) : Settled t := by
  cases hfile : s.file with
  | some file =>
    obtain ⟨hschema, hg, hb⟩ := h.active file hfile
    have hsame := migrate_current hschema
    rw [exec_openUser_bound h.ledger hfile hschema.le (hsame.symm ▸ hg) (Nat.lt_succ_self _) hb] at ho
    cases ho
    have hopened : opened s file = { s with wal := true, shm := true } := by
      rw [opened, hsame, ← hfile]
    rw [hopened]
    exact h.sidecars (by rw [hfile]; rfl)
  | none =>
    by_cases hlt : tombstone s < maxSafeRevision
    · rw [exec_openUser_missing hfile (h.canActivate hfile hlt)] at ho
      cases ho
      refine ⟨⟨h.ledger.deletion, fun record hrec => ?_⟩, fun hnone => (by cases hnone), ?_⟩
      · cases hrec
        have hnow := now.positive
        simp [AccountLifecycleRecord.valid, validGeneration_next hlt, hnow]
      · intro file hsome
        cases hsome
        refine ⟨rfl, ?_, ?_⟩
        · simp only [accountGeneration]
          exact if_pos (validGeneration_next hlt)
        · simp [bindsActive, createdAccount, AccountDisk.publishLifecycleRecord, tombstone,
            withNewFile]
    · have hle := tombstone_le h.ledger
      rw [exec_openUser_create h.ledger hfile] at ho
      have herr : ((createAccountDatabase (tombstone s) now).exec s).1 = _ :=
        exec_createAccountDatabase_exhausted hfile (by omega)
      rw [ho] at herr
      cases herr

theorem settled_openExistingUser (h : Settled s) {db : DatabaseFile}
    (ho : openExistingUser.exec s = (.ok db, t)) : Settled t := by
  obtain ⟨file, generation, hfile, -, -, -, -, rfl⟩ := exec_openExistingUser_ok ho
  rw [h.closed_eq hfile]
  exact h.quiet

/-- A deletion that has gone through: both records and no file. -/
theorem settled_deleted {generation : Nat} (hvalid : validGeneration generation = true)
    (hdel : t.deletionRecord = some ⟨1, generation, now.unixMilli⟩)
    (hlife : t.lifecycleRecord = some ⟨1, generation, .deleted, now.unixMilli⟩)
    (hfile : t.file = none) (hwal : t.wal = false) (hshm : t.shm = false) : Settled t := by
  have hnow := now.positive
  refine ⟨⟨fun record hrec => ?_, fun record hrec => ?_⟩, fun _ => ?_, fun file hsome => ?_⟩
  · rw [hdel] at hrec
    cases hrec
    simp [DeletionRecord.valid, hvalid, hnow]
  · rw [hlife] at hrec
    cases hrec
    simp [AccountLifecycleRecord.valid, hvalid, hnow]
  · refine ⟨hwal, hshm, ?_, fun record hrec => ?_⟩
    · rw [hlife, tombstone, hdel]
      rfl
    · rw [hlife] at hrec
      cases hrec
      rfl
  · rw [hfile] at hsome
    cases hsome

/-- Recording a deletion at or above the ledger's generation, alone. -/
theorem exec_recordDeletion_settled {generation : Nat} {P : AccountDisk → Prop}
    (hP : ∀ a b, Quiet a b → P a → P b)
    (hPd : ∀ a generation now, P a → P (a.publishDeletionRecord generation now))
    (hPl : ∀ a generation state now, P a → P (a.publishLifecycleRecord generation state now))
    (hs : P s) (hle : lifecycleGeneration s.lifecycleRecord ≤ max (tombstone s) generation)
    (hrun : (recordDeletion generation now).exec s = (.ok (), t)) :
    P t ∧ tombstone t = max (tombstone s) generation ∧
      validGeneration (max (tombstone s) generation) = true ∧
      t.deletionRecord = some ⟨1, max (tombstone s) generation, now.unixMilli⟩ ∧
      t.lifecycleRecord = some ⟨1, max (tombstone s) generation, .deleted, now.unixMilli⟩ := by
  have hmeets : Meets Eq (fun _ _ => True) _ (recordDeletion generation now) s :=
    meets_recordDeletion (R := Eq) (P := P) (fun a _ heq => heq ▸ .refl a) (fun _ _ _ => trivial)
      (fun _ _ heq ha => heq ▸ ha) hP hs (fun u _ hu => ⟨trivial, hPd u _ _ hu⟩)
      (fun u _ _ _ hu _ => ⟨trivial, hPl u _ _ _ hu⟩)
  have hexec := hmeets.exec fun _ => rfl
  rw [hrun] at hexec
  obtain ⟨htomb, hlife, hvalid, hrecord⟩ := hexec.2.2 rfl
  refine ⟨hexec.1, htomb, htomb ▸ hvalid, hrecord, ?_⟩
  rcases hlife with ⟨hlt, -⟩ | ⟨-, hrec⟩
  · omega
  · exact hrec

theorem settled_recordDeletion {generation : Nat} {u v : AccountDisk}
    (htomb : tombstone u = tombstone s) (hlife : u.lifecycleRecord = s.lifecycleRecord)
    (hle : lifecycleGeneration s.lifecycleRecord ≤ max (tombstone s) generation)
    (hrecord : (recordDeletion generation now).exec u = (.ok (), v))
    (hremove : removeUserFiles.exec v = (.ok (), t)) : Settled t := by
  rw [← htomb, ← hlife] at hle
  obtain ⟨-, -, hvalid, hdel, hdeleted⟩ := exec_recordDeletion_settled (P := fun _ => True)
    (fun _ _ _ _ => trivial) (fun _ _ _ _ => trivial) (fun _ _ _ _ _ => trivial) trivial hle hrecord
  rw [exec_removeUserFiles] at hremove
  cases hremove
  exact settled_deleted hvalid hdel hdeleted rfl rfl rfl

theorem settled_deleteUser (h : Settled s)
    (hrun : (deleteUser now).exec s = (.ok (), t)) : Settled t := by
  obtain ⟨generation, u, hcur, hrest⟩ := Op.exec_bind_ok.mp hrun
  obtain ⟨_, v, hrecord, hremove⟩ := Op.exec_bind_ok.mp hrest
  rcases exec_currentOrNextAccountGeneration_ok hcur with
    ⟨hnone, -, hu⟩ | ⟨file, stored, hfile, hg, -, hgen, hu⟩
  · subst hu
    obtain ⟨-, -, hlife, -⟩ := h.missing hnone
    refine settled_recordDeletion (s := u) rfl rfl ?_ hrecord hremove
    omega
  · subst hu
    obtain ⟨hschema, hactive, hb⟩ := h.active file hfile
    rw [migrate_current hschema, hactive] at hg
    cases hg
    have hlife := lifecycleGeneration_of_bindsActive hb
    refine settled_recordDeletion (s := s) (u := closed s file) rfl rfl ?_ hrecord hremove
    omega

theorem settled_deleteUserForGeneration {requested : Nat}
    (hrun : (deleteUserForGeneration requested now).exec s = (.ok (), t)) : Settled t := by
  obtain ⟨db, u, ho, h₁⟩ := Op.exec_bind_ok.mp hrun
  obtain ⟨file, generation, hfile, rfl, hg, -, hb, rfl⟩ := exec_openExistingUser_ok ho
  have hclose : (closeDatabase file.migrate).exec (closed s file) = (.ok (), closed s file) :=
    exec_closeDatabase closed_file _ rfl
  rw [Op.exec_bind, hclose] at h₁
  obtain ⟨current, _, hcur, h₂⟩ := Op.exec_bind_ok.mp h₁
  obtain ⟨hcur, rfl⟩ := Op.exec_lift_ok.mp hcur
  rw [hg] at hcur
  cases hcur
  obtain ⟨_, _, hreq, h₃⟩ := Op.exec_bind_ok.mp h₂
  obtain ⟨-, rfl⟩ := Op.exec_require_ok.mp hreq
  obtain ⟨_, v, hrecord, hremove⟩ := Op.exec_bind_ok.mp h₃
  have hlife := lifecycleGeneration_of_bindsActive hb
  refine settled_recordDeletion (s := s) (u := closed s file) rfl rfl ?_ hrecord hremove
  omega

theorem exec_purgeReceiptedGeneration_present {generation stored : Nat}
    (hfile : s.file = some file) (hs : Supported file)
    (hg : accountGeneration file.migrate = .ok stored) :
    (purgeReceiptedGeneration generation).exec s = (.ok (),
      if generation < stored then closed s file
      else { s with file := none, wal := false, shm := false }) := by
  simp only [purgeReceiptedGeneration, Op.exec_bind, Op.exec_read, hfile, Option.isSome_some,
    if_true, exec_openDatabase hfile hs, exec_closeDatabase_opened, Op.exec_lift, hg]
  by_cases hlt : generation < stored
  · simp [hlt]
  · simp [hlt, exec_removeUserFiles, closed]

/-- Reading the receipt leaves a settled account settled. -/
theorem exec_committedDeletionReceipt_settled (h : Settled s) {credential : DeletionCredential}
    {receipt : Option DeletionReceipt}
    (hread : (committedDeletionReceipt credential).exec s = (.ok receipt, t)) :
    Settled t ∧ tombstone t = tombstone s ∧
      ∀ found, receipt = some found → found.generation ≤ tombstone s := by
  obtain ⟨path, u, hpath, h₁⟩ := Op.exec_bind_ok.mp hread
  obtain ⟨-, rfl⟩ := Op.exec_lift_ok.mp hpath
  obtain ⟨found, v, hfound, h₂⟩ := Op.exec_bind_ok.mp h₁
  have hv : s = v := by
    rw [readDeletionReceipt, Op.exec_tryRead] at hfound
    exact (Prod.mk.inj hfound).2
  subst hv
  cases found with
  | none =>
    cases h₂
    exact ⟨h, rfl, fun _ hsome => by cases hsome⟩
  | some found =>
    obtain ⟨deleted, w, hdel, h₃⟩ := Op.exec_bind_ok.mp h₂
    obtain ⟨rfl, hw⟩ := exec_deletedGeneration_ok hdel
    have hsettled : Settled w ∧ tombstone w = tombstone s := by
      rcases hw with ⟨-, rfl⟩ | ⟨file, _, hfile, -, -, -, rfl⟩
      · exact ⟨h, rfl⟩
      · rw [h.closed_eq hfile]
        exact ⟨h.quiet, rfl⟩
    by_cases hlt : tombstone s < found.generation
    · rw [if_pos hlt] at h₃
      cases h₃
      exact ⟨hsettled.1, hsettled.2, fun _ hsome => by cases hsome⟩
    · rw [if_neg hlt] at h₃
      cases h₃
      refine ⟨hsettled.1, hsettled.2, fun found' hsome => ?_⟩
      cases hsome
      exact not_lt.mp hlt

theorem settled_deleteUserWithReceipt (h : Settled s) {requested : Nat}
    {credential : DeletionCredential} {csrfHash : Option Hash} {sessionID : Option String}
    (hrun : (deleteUserWithReceipt requested credential csrfHash sessionID now).exec s =
      (.ok (), t)) : Settled t := by
  obtain ⟨receipt, u, hread, h₁⟩ := Op.exec_bind_ok.mp hrun
  obtain ⟨hu, htomb, hcommitted⟩ := exec_committedDeletionReceipt_settled h hread
  cases receipt with
  | some receipt =>
    obtain ⟨_, _, hreq, hpurge⟩ := Op.exec_bind_ok.mp h₁
    obtain ⟨hguard, rfl⟩ := Op.exec_require_ok.mp hreq
    have heq : receipt.generation = requested := by
      simp only [Bool.not_eq_true', Bool.or_eq_false_iff, bne_eq_false_iff_eq] at hguard
      exact hguard.1
    have hle := hcommitted receipt rfl
    cases hfile : u.file with
    | none =>
      -- nothing is left to remove
      have hexec : (purgeReceiptedGeneration requested).exec u = (.ok (), Creation.quiet u) := by
        rw [purgeReceiptedGeneration, Op.exec_bind, Op.exec_read]
        simp [hfile, exec_removeUserFiles, Creation.quiet]
      rw [hexec] at hpurge
      cases hpurge
      exact hu.quiet
    | some file =>
      obtain ⟨hschema, hactive, -⟩ := hu.active file hfile
      rw [exec_purgeReceiptedGeneration_present hfile hschema.le
        ((migrate_current hschema).symm ▸ hactive), if_pos (by omega), hu.closed_eq hfile] at hpurge
      cases hpurge
      exact hu.quiet
  | none =>
    obtain ⟨db, v, ho, h₂⟩ := Op.exec_bind_ok.mp h₁
    obtain ⟨file, generation, hfile, rfl, hg, -, hb, rfl⟩ := exec_openExistingUser_ok ho
    have hclose : (closeDatabase file.migrate).exec (closed u file) = (.ok (), closed u file) :=
      exec_closeDatabase closed_file _ rfl
    rw [Op.exec_bind, hclose] at h₂
    obtain ⟨current, _, hcur, h₃⟩ := Op.exec_bind_ok.mp h₂
    obtain ⟨hcur, rfl⟩ := Op.exec_lift_ok.mp hcur
    rw [hg] at hcur
    cases hcur
    obtain ⟨_, _, hreq, h₄⟩ := Op.exec_bind_ok.mp h₃
    obtain ⟨heq, rfl⟩ := Op.exec_require_ok.mp hreq
    obtain rfl := of_decide_eq_true heq
    obtain ⟨_, _, hreq', h₅⟩ := Op.exec_bind_ok.mp h₄
    obtain ⟨-, rfl⟩ := Op.exec_require_ok.mp hreq'
    obtain ⟨_, w, hwrite, h₆⟩ := Op.exec_bind_ok.mp h₅
    obtain ⟨_, x, hrecord, hpurge⟩ := Op.exec_bind_ok.mp h₆
    obtain ⟨receipts, rfl⟩ := exec_writeDeletionReceipt_ok hwrite
    have hsame := migrate_current (hu.active file hfile).1
    have hlife := lifecycleGeneration_of_bindsActive hb
    obtain ⟨hkept, -, hvalid, hdel, hdeleted⟩ :=
      exec_recordDeletion_settled (s := { closed u file with receipts })
        (P := fun v => v.file = some file)
        (fun a b => quiet_keeps_file hsame) (fun _ _ _ => id) (fun _ _ _ _ => id)
        (show some file.migrate = some file by rw [hsame])
        (show lifecycleGeneration u.lifecycleRecord ≤ max (tombstone u) generation by omega) hrecord
    rw [exec_purgeReceiptedGeneration_present hkept (hu.active file hfile).1.le hg,
      if_neg (lt_irrefl _)] at hpurge
    cases hpurge
    exact settled_deleted hvalid hdel hdeleted rfl rfl rfl

theorem settled_startAccount (h : Settled s) :
    ∃ t, (startAccount now).exec s = (.ok (), t) ∧ Settled t := by
  rw [startAccount, Op.exec_bind, exec_validateAccountLifecycleEntry h.ledger h.coherent]
  simp only [Op.exec_bind, Op.exec_read]
  cases hfile : s.file with
  | none =>
    obtain ⟨hwal, hshm, -, -⟩ := h.missing hfile
    simp only [AccountDisk.hasStorage, hfile, hwal, hshm]
    exact ⟨s, rfl, h⟩
  | some file =>
    obtain ⟨hschema, hactive, hb⟩ := h.active file hfile
    have happly : (applyAccountDeletionObligation now).exec s = _ :=
      exec_applyObligation_bound h.ledger hfile hschema.le
        ((migrate_current hschema).symm ▸ hactive) (Nat.lt_succ_self _) hb
    simp only [AccountDisk.hasStorage, hfile, Option.isSome_some, Bool.true_or, if_true, happly]
    exact ⟨_, rfl, h.closed_eq hfile ▸ h.quiet⟩

/-- Every call that succeeds leaves a settled account settled. -/
theorem settled_call (h : Settled s) {call : Call} {answer : Option DatabaseFile}
    (hrun : call.body.exec s = (.ok answer, t)) : Settled t := by
  cases call with
  | openUser now =>
    obtain ⟨_, _, hopen, hpure⟩ := Op.exec_bind_ok.mp hrun
    cases hpure
    exact settled_openUser h hopen
  | openExistingUser =>
    obtain ⟨_, _, hopen, hpure⟩ := Op.exec_bind_ok.mp hrun
    cases hpure
    exact settled_openExistingUser h hopen
  | deleteUser now =>
    obtain ⟨_, _, hdelete, hpure⟩ := Op.exec_bind_ok.mp hrun
    cases hpure
    exact settled_deleteUser h hdelete
  | deleteUserForGeneration generation now =>
    obtain ⟨_, _, hdelete, hpure⟩ := Op.exec_bind_ok.mp hrun
    cases hpure
    exact settled_deleteUserForGeneration hdelete
  | deleteUserWithReceipt generation credential csrfHash sessionID now =>
    obtain ⟨_, _, hdelete, hpure⟩ := Op.exec_bind_ok.mp hrun
    cases hpure
    exact settled_deleteUserWithReceipt h hdelete
  | restart now =>
    obtain ⟨_, _, hstart, hpure⟩ := Op.exec_bind_ok.mp hrun
    cases hpure
    obtain ⟨u, (hu : (startAccount now).exec s = _), hsettled⟩ := settled_startAccount h
    rw [hu] at hstart
    cases hstart
    exact hsettled

end Settled

/-! ## Where a creation can stop -/

/-- How far the creation of a missing account has come. -/
inductive Stage (s : AccountDisk) (now : WallClock) : AccountDisk → Prop where
  | unstarted : Stage s now s
  | created {file wal shm} (h : OpenedAs (.empty s.nextInode) file) :
      Stage s now { s with file := some file, wal, shm, nextInode := s.nextInode + 1 }
  | activated {wal shm} (h : tombstone s < maxSafeRevision) :
      Stage s now { (withNewFile s).publishLifecycleRecord (tombstone s + 1) .active now with
        wal, shm }
  | stored {wal shm} (h : tombstone s < maxSafeRevision) :
      Stage s now { createdAccount s now with wal, shm }

section Stages
variable {s t : AccountDisk} {now : WallClock}

theorem states_deletedGeneration_missing (hv : ValidLedger s) (h : s.file = none)
    (ht : t ∈ deletedGeneration.states s) : t = s := by
  rcases Op.mem_states_bind ht with ht | ⟨deleted, u, hu, ht⟩
  · simpa [readDeletionRecord] using ht
  · rw [exec_readDeletionRecord hv] at hu
    cases hu
    rcases Op.mem_states_bind ht with ht | ⟨_, v, hv', ht⟩
    · rcases Op.mem_states_bind ht with ht | ⟨present, w, hw, ht⟩
      · simpa using ht
      · rw [Op.exec_read, h] at hw
        cases hw
        simpa using ht
    · simp only [validateStoredAccountLifecycle, Op.exec_bind, Op.exec_read, h] at hv'
      cases hv'
      simpa using ht

theorem states_openReusableAccount_missing {deleted : Nat} (h : s.file = none)
    (ht : t ∈ (openReusableAccount deleted).states s) : t = s := by
  rcases Op.mem_states_bind ht with ht | ⟨present, u, hu, ht⟩
  · simpa using ht
  · rw [Op.exec_read, h] at hu
    cases hu
    simpa using ht

/-- Closing a handle before an error leaves the file as it is. -/
theorem states_closeDatabase_throw {α : Type} {db : DatabaseFile} {e : StoreError}
    (ht : t ∈ (closeDatabase db >>= fun _ => (throw e : DiskOp α)).states s) :
    ∃ wal shm, t = { s with wal, shm } := by
  have hclose : ∃ wal shm, ((closeDatabase db).exec s).2 = { s with wal, shm } := by
    rw [closeDatabase, Op.exec_modify]
    split
    · exact ⟨false, false, rfl⟩
    · exact ⟨s.wal, s.shm, rfl⟩
  rcases Op.mem_states_bind ht with ht | ⟨_, u, hu, ht⟩
  · simp only [closeDatabase, Op.states_modify, List.mem_cons, List.not_mem_nil, or_false] at ht
    rcases ht with rfl | rfl
    · exact ⟨t.wal, t.shm, rfl⟩
    · exact hclose
  · rw [hu] at hclose
    rw [Op.states_throw, List.mem_singleton] at ht
    exact ht ▸ hclose

theorem stage_createFile (h : s.file = none) (ht : t ∈ createFile.states s) :
    Stage s now t := by
  simp only [createFile, h, Op.states_modify, List.mem_cons, List.not_mem_nil, or_false] at ht
  rcases ht with rfl | rfl
  · exact .unstarted
  · exact .created (.inl rfl)

theorem stage_openDatabase (ht : t ∈ openDatabase.states
      { s with file := some (.empty s.nextInode), nextInode := s.nextInode + 1 }) :
    Stage s now t := by
  have hcreated : ∀ {file wal shm}, OpenedAs (.empty s.nextInode) file →
      Stage s now { s with file := some file, wal, shm, nextInode := s.nextInode + 1 } := .created
  rcases Op.mem_states_bind ht with ht | ⟨db, v, hconnect, ht⟩
  · simp only [connectDatabase, Op.states_step, List.mem_cons, List.not_mem_nil, or_false] at ht
    rcases ht with rfl | rfl
    · exact hcreated (.inl rfl)
    · exact hcreated (.inl rfl)
  · rw [exec_connectDatabase rfl] at hconnect
    cases hconnect
    rcases Op.mem_states_bind ht with ht | ⟨_, w, hw, ht⟩
    · rw [Op.states_require, List.mem_singleton] at ht
      subst ht
      exact hcreated (.inl rfl)
    · obtain ⟨-, rfl⟩ := Op.exec_require_ok.mp hw
      simp only [Op.states_step, List.mem_cons, List.not_mem_nil, or_false] at ht
      rcases ht with rfl | rfl
      · exact hcreated (.inl rfl)
      · exact hcreated (.inr (if_pos rfl))

theorem stage_setAccountGeneration (hcan : CanActivate s)
    (ht : t ∈ (setAccountGeneration (newFile s) (tombstone s + 1) now).states (withNewFile s)) :
    Stage s now t := by
  obtain ⟨hv, hlt, hallow⟩ := hcan
  have hv' : ValidLedger (withNewFile s) := ⟨hv.deletion, hv.lifecycle⟩
  have hcreated : Stage s now (withNewFile s) := .created (.inr rfl)
  have hactivated : Stage s now
      ((withNewFile s).publishLifecycleRecord (tombstone s + 1) .active now) := .activated hlt
  have hrecord := exec_recordAccountLifecycle hv' now (validGeneration_next hlt) hallow
  rcases Op.mem_states_bind ht with ht | ⟨_, u, hu, ht⟩
  · rw [Op.states_require, List.mem_singleton] at ht
    exact ht ▸ hcreated
  obtain ⟨-, rfl⟩ := Op.exec_require_ok.mp hu
  rcases Op.mem_states_bind ht with ht | ⟨_, v, hv'', ht⟩
  · -- inside the lifecycle record's transaction
    rcases Op.mem_states_bind ht with ht | ⟨current, w, hw, ht⟩
    · simp only [accountLifecycle, Op.states_tryRead, List.mem_cons, List.not_mem_nil, or_false,
        or_self] at ht
      exact ht ▸ hcreated
    rw [exec_accountLifecycle hv'] at hw
    cases hw
    rcases Op.mem_states_bind ht with ht | ⟨_, x, hx, ht⟩
    · rw [Op.states_require, List.mem_singleton] at ht
      exact ht ▸ hcreated
    obtain ⟨-, rfl⟩ := Op.exec_require_ok.mp hx
    rcases Op.mem_states_bind ht with ht | ⟨_, y, hy, ht⟩
    · rw [Op.states_require, List.mem_singleton] at ht
      exact ht ▸ hcreated
    obtain ⟨-, rfl⟩ := Op.exec_require_ok.mp hy
    simp only [Op.states_modify, List.mem_cons, List.not_mem_nil, or_false] at ht
    rcases ht with rfl | rfl
    · exact hcreated
    · exact hactivated
  · rw [hrecord] at hv''
    cases hv''
    simp only [updateGeneration, Op.states_step, List.mem_cons, List.not_mem_nil, or_false] at ht
    rcases ht with rfl | rfl
    · exact hactivated
    · have hstored : ((withNewFile s).publishLifecycleRecord (tombstone s + 1) .active now).updateFile
          (newFile s).inode (fun file => { file with generation := some (tombstone s + 1) }) =
          createdAccount s now := by
        simp [AccountDisk.updateFile, createdAccount, withNewFile,
          AccountDisk.publishLifecycleRecord]
      rw [hstored]
      exact .stored hlt

/-- Wherever the creation stops, it is at one of its stages. -/
theorem stage_of_states (h : Settled s) (hfile : s.file = none)
    (ht : t ∈ (openUser now).states s) : Stage s now t := by
  rcases Op.mem_states_bind ht with ht | ⟨deleted, u, hu, ht⟩
  · rw [states_deletedGeneration_missing h.ledger hfile ht]
    exact .unstarted
  rw [exec_deletedGeneration_missing h.ledger hfile] at hu
  cases hu
  rcases Op.mem_states_bind ht with ht | ⟨reusable, v, hv, ht⟩
  · rw [states_openReusableAccount_missing hfile ht]
    exact .unstarted
  simp only [openReusableAccount, Op.exec_bind, Op.exec_read, hfile] at hv
  cases hv
  rcases Op.mem_states_bind ht with ht | ⟨_, w, hw, ht⟩
  · exact stage_createFile hfile ht
  rw [exec_createFile hfile] at hw
  cases hw
  rcases Op.mem_states_bind ht with ht | ⟨db, x, hx, ht⟩
  · exact stage_openDatabase ht
  rw [exec_openDatabase (s := { s with file := some (.empty s.nextInode), nextInode := _ }) rfl
    (Nat.zero_le 7)] at hx
  cases hx
  by_cases hmax : tombstone s = maxSafeRevision
  · rw [if_pos hmax] at ht
    obtain ⟨wal, shm, rfl⟩ := states_closeDatabase_throw ht
    exact .created (.inr rfl)
  · rw [if_neg hmax] at ht
    have hle := tombstone_le h.ledger
    exact stage_setAccountGeneration (h.canActivate hfile (by omega)) ht

end Stages

end Pomodorough.Store.Creation
