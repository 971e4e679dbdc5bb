import Pomodorough.Store.Creation

/-! # Deletions with a receipt, interrupted any number of times

`deleteUserWithReceipt` changes the receipt, the tombstone, the lifecycle record and the
files one after the other. Wherever it stops, and wherever the starts of the server after it
stop, the account is untouched or committed to its deletion, and the same request repeated
completes it. -/
namespace Pomodorough.Store.ResumedDeletions
open Pomodorough.Library.AtomicSteps Pomodorough.Store.Records Pomodorough.Store.DeletionLedger
open Pomodorough.Store.Accounts Pomodorough.Store.LedgerSpec Pomodorough.Store.Sequential
open Pomodorough.Store.Creation

/-- What one deletion is asked for with. -/
structure Request where
  generation : Nat
  credential : DeletionCredential
  csrfHash : Option Hash
  sessionID : Option String

def Request.call (request : Request) (now : WallClock) : DiskOp Unit :=
  deleteUserWithReceipt request.generation request.credential request.csrfHash request.sessionID now

def Request.receipt (request : Request) : DeletionReceipt where
  version := 1
  generation := request.generation
  csrfHash := request.csrfHash

/-- A credential that has a receipt, with the CSRF proof of a cookie. -/
structure WellFormed (request : Request) : Prop where
  generation : validGeneration request.generation = true
  tokenHash : request.credential.tokenHash ≠ 0
  csrfHash : request.csrfHash.isSome = (request.credential.method == .cookie)

/-- The session of the request is live in the account. -/
structure Admits (request : Request) (file : DatabaseFile) : Prop where
  schema : file.schemaVersion = currentSchemaVersion
  generation : accountGeneration file = .ok request.generation
  session : request.sessionID.all (liveDeletionSession file.tables request.credential) = true

/-! ## The two sides of the tombstone -/

/-- Nothing but a receipt has been written. -/
structure Untouched (request : Request) (file : DatabaseFile) (s : AccountDisk) : Prop where
  ledger : ValidLedger s
  file : s.file = some file
  deleted : tombstone s < request.generation
  bound : bindsActive s.lifecycleRecord request.generation = true
  receipt : s.receipts.lookup request.credential = none ∨
    s.receipts.lookup request.credential = some request.receipt

/-- The tombstone has been written, and what is left of the account is below it. -/
structure Committed (request : Request) (s : AccountDisk) : Prop where
  ledger : ValidLedger s
  file : ∀ file, s.file = some file → Supported file ∧
    ∃ generation, accountGeneration file.migrate = .ok generation ∧ generation ≤ request.generation
  deleted : tombstone s = request.generation
  lifecycle : lifecycleGeneration s.lifecycleRecord = request.generation
  receipt : s.receipts.lookup request.credential = some request.receipt

def Pending (request : Request) (file : DatabaseFile) (s : AccountDisk) : Prop :=
  Untouched request file s ∨ Committed request s

section Reading
variable {request : Request} {file : DatabaseFile} {s t : AccountDisk}

theorem ValidLedger.same (h : ValidLedger s) (hsame : SameLedger s t) : ValidLedger t where
  deletion record hrecord := h.deletion record (hsame.deletionRecord ▸ hrecord)
  lifecycle record hrecord := h.lifecycle record (hsame.lifecycleRecord ▸ hrecord)

theorem Untouched.quiet (hadmits : Admits request file) (h : Untouched request file s)
    (hquiet : Quiet s t) : Untouched request file t where
  ledger := ValidLedger.same h.ledger hquiet.ledger
  file := quiet_keeps_file (migrate_current hadmits.schema) hquiet h.file
  deleted := hquiet.ledger.tombstone ▸ h.deleted
  bound := hquiet.ledger.lifecycleRecord ▸ h.bound
  receipt := hquiet.ledger.receipts ▸ h.receipt

theorem Committed.quiet (hrequest : WellFormed request) (h : Committed request s)
    (hquiet : Quiet s t) : Committed request t where
  ledger := ValidLedger.same h.ledger hquiet.ledger
  file file' hfile' := by
    have hpositive := hrequest.generation
    simp only [validGeneration, Bool.and_eq_true, decide_eq_true_eq] at hpositive
    obtain ⟨file, hfile, hopened⟩ | ⟨-, hopened⟩ := hquiet.file file' hfile'
    · obtain ⟨hsupported, generation, hgeneration, hle⟩ := h.file file hfile
      obtain rfl | rfl := hopened
      · exact ⟨hsupported, generation, hgeneration, hle⟩
      · exact ⟨supported_migrate.mpr hsupported, generation,
          (migrate_migrate file).symm ▸ hgeneration, hle⟩
    · -- a file that SQLite created is migrated to the first generation
      obtain rfl | rfl := hopened
      · exact ⟨Nat.zero_le 7, 1, rfl, hpositive.1⟩
      · exact ⟨Nat.le_refl 7, 1, rfl, hpositive.1⟩
  deleted := hquiet.ledger.tombstone ▸ h.deleted
  lifecycle := hquiet.ledger.lifecycleRecord ▸ h.lifecycle
  receipt := hquiet.ledger.receipts ▸ h.receipt

/-- Reading stops where what it may change has not mattered. -/
theorem keeps_reads {α : Type} {P : AccountDisk → Prop} {Q : α → Prop} {x : DiskOp α}
    (hP : ∀ a b, Quiet a b → P a → P b) (h : Reads Eq Q x s) (hs : P s) : Keeps P x s :=
  .of_meets (h.mono (fun _ _ => id) hP fun _ _ hr => hr) hs

theorem eq_sameLedger (a b : AccountDisk) (h : a = b) : SameLedger a b := h ▸ .refl a

end Reading

/-! ## What is read -/

section Receipts
variable {request : Request} {file : DatabaseFile} {s : AccountDisk}

theorem validDeletionReceipt_request (h : WellFormed request) :
    validDeletionReceipt request.receipt request.credential.method = true := by
  have hcsrf : (request.csrfHash.isSome == (request.credential.method == .cookie)) = true := by
    rw [h.csrfHash, beq_self_eq_true]
  simp only [validDeletionReceipt, Request.receipt, h.generation, hcsrf, beq_self_eq_true,
    Bool.and_self]

theorem deletionReceiptPath_request (h : WellFormed request) :
    deletionReceiptPath request.credential = .ok request.credential := if_neg h.tokenHash

theorem exec_readDeletionReceipt (h : WellFormed request)
    (hreceipt : s.receipts.lookup request.credential = some request.receipt) :
    (readDeletionReceipt request.credential).exec s = (.ok (some request.receipt), s) := by
  simp [readDeletionReceipt, hreceipt, validDeletionReceipt_request h]

/-- Before the tombstone there is no committed receipt. -/
theorem exec_committedDeletionReceipt_untouched (hrequest : WellFormed request)
    (hadmits : Admits request file) (h : Untouched request file s) :
    ∃ t, (committedDeletionReceipt request.credential).exec s = (.ok none, t) ∧
      Untouched request file t := by
  have hsame := migrate_current hadmits.schema
  have hclosed : Quiet s (closed s file) :=
    ⟨closed_sameLedger, fun file' hfile' => .inl ⟨file, h.file, .inr (Option.some.inj hfile').symm⟩,
      fun _ => rfl⟩
  obtain hnone | hsome := h.receipt
  · refine ⟨s, ?_, h⟩
    simp [committedDeletionReceipt, deletionReceiptPath_request hrequest, readDeletionReceipt, hnone]
  · refine ⟨closed s file, ?_, h.quiet hadmits hclosed⟩
    have hdeleted := exec_deletedGeneration_present h.ledger h.file hadmits.schema.le
      (hsame.symm ▸ hadmits.generation)
    rw [if_pos (.inr h.bound)] at hdeleted
    have hlt : tombstone s < request.receipt.generation := h.deleted
    simp only [committedDeletionReceipt, deletionReceiptPath_request hrequest, Op.exec_bind,
      Op.exec_lift, exec_readDeletionReceipt hrequest hsome, hdeleted, hlt, if_true, Op.exec_pure]

/-- After the tombstone the receipt is committed. -/
theorem exec_committedDeletionReceipt_committed (hrequest : WellFormed request)
    (h : Committed request s) :
    ∃ t, (committedDeletionReceipt request.credential).exec s = (.ok (some request.receipt), t) ∧
      Committed request t := by
  have hread := exec_readDeletionReceipt hrequest h.receipt
  have hlt : ¬ tombstone s < request.receipt.generation := by
    rw [h.deleted]
    exact lt_irrefl _
  cases hfile : s.file with
  | none =>
    refine ⟨s, ?_, h⟩
    simp only [committedDeletionReceipt, deletionReceiptPath_request hrequest, Op.exec_bind,
      Op.exec_lift, hread, exec_deletedGeneration_missing h.ledger hfile, hlt, if_false, Op.exec_pure]
  | some file =>
    obtain ⟨hsupported, generation, hgeneration, hle⟩ := h.file file hfile
    have hclosed : Quiet s (closed s file) :=
      ⟨closed_sameLedger, fun file' hfile' => .inl ⟨file, hfile, .inr (Option.some.inj hfile').symm⟩,
        fun _ => rfl⟩
    refine ⟨closed s file, ?_, h.quiet hrequest hclosed⟩
    have hdeleted := exec_deletedGeneration_present h.ledger hfile hsupported hgeneration
    rw [if_pos (.inl (h.deleted.symm ▸ hle))] at hdeleted
    simp only [committedDeletionReceipt, deletionReceiptPath_request hrequest, Op.exec_bind,
      Op.exec_lift, hread, hdeleted, hlt, if_false, Op.exec_pure]

theorem keeps_committedDeletionReceipt {P : AccountDisk → Prop}
    (hP : ∀ a b, Quiet a b → P a → P b) (hs : P s) :
    Keeps P (committedDeletionReceipt request.credential) s :=
  keeps_reads hP (reads_committedDeletionReceipt eq_sameLedger request.credential s) hs

end Receipts

/-! ## Purging -/

section Purging
variable {request : Request} {s : AccountDisk}

theorem Committed.clear (h : Committed request s) (wal shm : Bool) :
    Committed request { s with file := none, wal, shm } where
  ledger := ⟨h.ledger.deletion, h.ledger.lifecycle⟩
  file file hfile := by cases hfile
  deleted := h.deleted
  lifecycle := h.lifecycle
  receipt := h.receipt

theorem Committed.sidecars (h : Committed request s) (wal shm : Bool) :
    Committed request { s with wal, shm } where
  ledger := ⟨h.ledger.deletion, h.ledger.lifecycle⟩
  file := h.file
  deleted := h.deleted
  lifecycle := h.lifecycle
  receipt := h.receipt

theorem keeps_removeUserFiles (h : Committed request s) :
    Keeps (Committed request) removeUserFiles s := by
  refine ((keeps_modify _).mpr ⟨h, h.sidecars false s.shm⟩).bind fun _ t _ ht => ?_
  refine ((keeps_modify _).mpr ⟨ht, ht.sidecars t.wal false⟩).bind fun _ u _ hu => ?_
  exact (keeps_modify _).mpr ⟨hu, hu.clear u.wal u.shm⟩

theorem keeps_purge (hrequest : WellFormed request) (h : Committed request s) :
    Keeps (Committed request) (purgeReceiptedGeneration request.generation) s := by
  have hquiet : ∀ a b, Quiet a b → Committed request a → Committed request b :=
    fun _ _ hq ha => ha.quiet hrequest hq
  refine ((keeps_read _).mpr h).bind fun present t _ ht => ?_
  cases present with
  | false => exact keeps_removeUserFiles ht
  | true =>
    refine (keeps_reads hquiet (reads_openDatabase eq_sameLedger t) ht).bind fun db u _ hu => ?_
    refine (keeps_reads hquiet (reads_closeDatabase eq_sameLedger db u) hu).bind fun _ v _ hv => ?_
    refine ((keeps_lift _).mpr hv).bind fun generation w _ hw => ?_
    split
    · exact (keeps_pure _).mpr hw
    · exact keeps_removeUserFiles hw

/-- Nothing is left of the account. -/
structure Purged (request : Request) (s : AccountDisk) : Prop where
  committed : Committed request s
  file : s.file = none
  wal : s.wal = false
  shm : s.shm = false

theorem exec_purge (h : Committed request s) :
    ∃ t, (purgeReceiptedGeneration request.generation).exec s = (.ok (), t) ∧ Purged request t := by
  refine ⟨{ s with file := none, wal := false, shm := false }, ?_, h.clear false false, rfl, rfl, rfl⟩
  cases hfile : s.file with
  | none => simp [purgeReceiptedGeneration, hfile, exec_removeUserFiles]
  | some file =>
    obtain ⟨hsupported, generation, hgeneration, hle⟩ := h.file file hfile
    rw [exec_purgeReceiptedGeneration_present hfile hsupported hgeneration, if_neg (not_lt.mpr hle)]

end Purging

/-! ## Committing -/

section Committing
variable {request : Request} {file : DatabaseFile} {s : AccountDisk} {now : WallClock}

theorem pending_quiet (hrequest : WellFormed request) (hadmits : Admits request file)
    (a b : AccountDisk) (hquiet : Quiet a b) (h : Pending request file a) : Pending request file b := by
  obtain h | h := h
  · exact .inl (h.quiet hadmits hquiet)
  · exact .inr (h.quiet hrequest hquiet)

theorem lifecycleGeneration_untouched (h : Untouched request file s) :
    lifecycleGeneration s.lifecycleRecord = request.generation := lifecycleGeneration_of_bindsActive h.bound

theorem valid_deletionRecord (h : WellFormed request) (now : WallClock) :
    (⟨1, request.generation, now.unixMilli⟩ : DeletionRecord).valid = true := by
  simp [DeletionRecord.valid, h.generation, now.positive]

theorem valid_lifecycleRecord (h : WellFormed request) (state : AccountState) (now : WallClock) :
    (⟨1, request.generation, state, now.unixMilli⟩ : AccountLifecycleRecord).valid = true := by
  simp [AccountLifecycleRecord.valid, h.generation, now.positive]

/-- What stands in the way of nothing while the records are written. -/
structure Recording (request : Request) (file : DatabaseFile) (s : AccountDisk) : Prop where
  file : s.file = some file
  receipt : s.receipts.lookup request.credential = some request.receipt
  deletion : ∀ record, s.deletionRecord = some record → record.valid = true

theorem Recording.committed (hadmits : Admits request file)
    (h : Recording request file s) (hdeleted : tombstone s = request.generation)
    (hlifecycle : lifecycleGeneration s.lifecycleRecord = request.generation)
    (hvalid : ∀ record, s.lifecycleRecord = some record → record.valid = true) :
    Committed request s where
  ledger := ⟨h.deletion, hvalid⟩
  file file' hfile' := by
    rw [h.file] at hfile'
    cases hfile'
    exact ⟨hadmits.schema.le, request.generation,
      (migrate_current hadmits.schema).symm ▸ hadmits.generation, le_rfl⟩
  deleted := hdeleted
  lifecycle := hlifecycle
  receipt := h.receipt

/-- Once the receipt is written, recording the deletion stops before the tombstone or after it. -/
theorem keeps_recordDeletion (hrequest : WellFormed request) (hadmits : Admits request file)
    (h : Untouched request file s)
    (hreceipt : s.receipts.lookup request.credential = some request.receipt) :
    Keeps (Pending request file) (recordDeletion request.generation now) s := by
  have hmax : max (tombstone s) request.generation = request.generation :=
    max_eq_right h.deleted.le
  have hlife := lifecycleGeneration_untouched h
  have hquiet : ∀ a b, Quiet a b → Recording request file a → Recording request file b :=
    fun a b hq ha => ⟨quiet_keeps_file (migrate_current hadmits.schema) hq ha.file,
      hq.ledger.receipts ▸ ha.receipt, hq.ledger.deletionRecord ▸ ha.deletion⟩
  refine .of_meets (meets_recordDeletion (P := Recording request file) eq_sameLedger
    (fun a b hq => pending_quiet hrequest hadmits a b hq) (fun _ _ heq ha => heq ▸ ha) hquiet
    ⟨h.file, hreceipt, h.ledger.deletion⟩ (fun u hu hP => ?_) fun u hu hrecord hr hP _ => ?_) (.inl h)
  · rw [hmax]
    have hP' : Recording request file (u.publishDeletionRecord request.generation now) := by
      refine ⟨hP.file, hP.receipt, fun record hrecord => ?_⟩
      cases hrecord
      exact valid_deletionRecord hrequest now
    refine ⟨fun _ => .inr (hP'.committed hadmits rfl ?_ ?_), hP'⟩
    · exact (congrArg lifecycleGeneration hu.lifecycleRecord).trans hlife
    · exact fun record hrecord => h.ledger.lifecycle record (hu.lifecycleRecord ▸ hrecord)
  · rw [hmax] at hu ⊢
    have hP' : Recording request file (u.publishLifecycleRecord request.generation .deleted now) :=
      ⟨hP.file, hP.receipt, hP.deletion⟩
    refine ⟨fun _ => .inr (hP'.committed hadmits hu rfl fun record hrecord => ?_), hP'⟩
    cases hrecord
    exact valid_lifecycleRecord hrequest .deleted now

theorem exec_recordDeletion (now : WallClock) (hrequest : WellFormed request)
    (hadmits : Admits request file) (h : Untouched request file s)
    (hreceipt : s.receipts.lookup request.credential = some request.receipt) :
    ∃ t, (recordDeletion request.generation now).exec s = (.ok (), t) ∧ Committed request t := by
  have hsame := migrate_current hadmits.schema
  have hmax : max (tombstone s) request.generation = request.generation :=
    max_eq_right h.deleted.le
  have hlife := lifecycleGeneration_untouched h
  have hdeleted := exec_deletedGeneration_present h.ledger h.file hadmits.schema.le
    (hsame.symm ▸ hadmits.generation)
  rw [if_pos (.inr h.bound)] at hdeleted
  let t := (closed s file).publishDeletionRecord request.generation now
  have hledger : ValidLedger t := by
    refine ⟨fun record hrecord => ?_, h.ledger.lifecycle⟩
    cases hrecord
    exact valid_deletionRecord hrequest now
  have hallow : LifecycleAllows t.lifecycleRecord request.generation .deleted :=
    ⟨hlife.le, fun _ _ _ _ => rfl⟩
  have hrecord : (recordDeletedAccountLifecycle request.generation now).exec t =
      (.ok (), t.publishLifecycleRecord request.generation .deleted now) := by
    have hnot : ¬ request.generation < lifecycleGeneration t.lifecycleRecord := hlife.not_gt
    simp only [recordDeletedAccountLifecycle, Op.exec_bind, exec_accountLifecycle hledger, hnot,
      if_false, exec_recordAccountLifecycle hledger now hrequest.generation hallow]
  refine ⟨t.publishLifecycleRecord request.generation .deleted now, ?_, ?_⟩
  · simp only [recordDeletion, Op.exec_bind, hdeleted, hmax, Op.exec_require, hrequest.generation,
      if_true, Op.exec_modify]
    exact hrecord
  · have hrecording : Recording request file (t.publishLifecycleRecord request.generation .deleted now) :=
      ⟨congrArg some hsame, hreceipt, hledger.deletion⟩
    refine hrecording.committed hadmits rfl rfl fun record hrecord => ?_
    cases hrecord
    exact valid_lifecycleRecord hrequest .deleted now

/-- The receipt is there. -/
def withReceipt (request : Request) (s : AccountDisk) : AccountDisk :=
  { s with receipts := (request.credential, request.receipt) ::
      s.receipts.filter fun entry => entry.1 ≠ request.credential }

theorem lookup_withReceipt :
    (withReceipt request s).receipts.lookup request.credential = some request.receipt := by
  simp [withReceipt]

theorem Untouched.withReceipt (h : Untouched request file s) :
    Untouched request file (withReceipt request s) where
  ledger := ⟨h.ledger.deletion, h.ledger.lifecycle⟩
  file := h.file
  deleted := h.deleted
  bound := h.bound
  receipt := .inr lookup_withReceipt

theorem exec_writeDeletionReceipt (hrequest : WellFormed request) :
    (writeDeletionReceipt request.credential request.receipt).exec s =
      (.ok (), withReceipt request s) := by
  simp [writeDeletionReceipt, validDeletionReceipt_request hrequest,
    deletionReceiptPath_request hrequest, withReceipt]

theorem keeps_writeDeletionReceipt (hrequest : WellFormed request) (h : Untouched request file s) :
    Keeps (Pending request file) (writeDeletionReceipt request.credential request.receipt) s := by
  refine ((keeps_require _ _).mpr (.inl h)).bind fun _ t ht _ => ?_
  obtain ⟨-, rfl⟩ := Op.exec_require_ok.mp ht
  refine ((keeps_lift _).mpr (.inl h)).bind fun path u hpath _ => ?_
  obtain ⟨hpath, rfl⟩ := Op.exec_lift_ok.mp hpath
  rw [deletionReceiptPath_request hrequest] at hpath
  cases hpath
  exact (keeps_modify _).mpr ⟨.inl h, .inl h.withReceipt⟩

end Committing

/-! ## The request, repeated -/

section Calling
variable {request : Request} {file : DatabaseFile} {s : AccountDisk} {now : WallClock}

/-- The part of a deletion after the receipt was looked for and not found. -/
def commitAndPurge (request : Request) (now : WallClock) : DiskOp Unit := do
  let db ← openExistingUser
  closeDatabase db
  let currentGeneration ← Op.lift (accountGeneration db)
  Op.require (currentGeneration = request.generation) .accountGenerationChanged
  Op.require (request.sessionID.all (liveDeletionSession db.tables request.credential)) .unauthorized
  writeDeletionReceipt request.credential request.receipt
  recordDeletion request.generation now
  purgeReceiptedGeneration request.generation

theorem call_eq : request.call now = (do
    let receipt ← committedDeletionReceipt request.credential
    match receipt with
    | some receipt =>
      Op.require (!(receipt.generation != request.generation ||
        (request.credential.method == .cookie && receipt.csrfHash != request.csrfHash))) .unauthorized
      purgeReceiptedGeneration request.generation
    | none => commitAndPurge request now) := rfl

theorem untouched_closed (hadmits : Admits request file) (h : Untouched request file s) :
    Untouched request file (closed s file) :=
  h.quiet hadmits ⟨closed_sameLedger, fun _ hfile' =>
    .inl ⟨file, h.file, .inr (Option.some.inj hfile').symm⟩, fun _ => rfl⟩

theorem exec_openExistingUser (hadmits : Admits request file) (h : Untouched request file s) :
    openExistingUser.exec s = (.ok file, closed s file) := by
  have hsame := migrate_current hadmits.schema
  have hopen : openDatabase.exec s = (.ok file.migrate, opened s file) :=
    exec_openDatabase h.file hadmits.schema.le
  have hledger : ValidLedger (opened s file) := ⟨h.ledger.deletion, h.ledger.lifecycle⟩
  have hdeleted := exec_deletedGeneration_present hledger opened_file
    (supported_migrate.mpr hadmits.schema.le)
    ((migrate_migrate file).symm ▸ hsame.symm ▸ hadmits.generation)
  have hadmitted : Sequential.Admitted (opened s file) request.generation := .inr h.bound
  rw [if_pos hadmitted, closed_opened, opened_tombstone] at hdeleted
  simp only [openExistingUser, openStoredAccount, Op.exec_bind, Op.exec_read, h.file,
    Option.isSome_some, if_true, hopen, hsame, hadmits.generation, Op.exec_pure, hdeleted, h.deleted]

/-- Opening and checking the account changes nothing. -/
theorem keeps_openExistingUser (hrequest : WellFormed request) (hadmits : Admits request file)
    (h : Untouched request file s) : Keeps (Pending request file) openExistingUser s := by
  have hquiet := pending_quiet hrequest hadmits
  refine (keeps_reads hquiet (reads_openStoredAccount eq_sameLedger s) (.inl h)).bind
    fun p t ht hpending => ?_
  obtain ⟨db, generation⟩ := p
  obtain ⟨found, hfound, -, -, hgeneration, rfl⟩ := exec_openStoredAccount_ok ht
  rw [h.file] at hfound
  cases hfound
  rw [migrate_current hadmits.schema, hadmits.generation] at hgeneration
  cases hgeneration
  refine (keeps_reads hquiet (reads_deletedGeneration eq_sameLedger _) hpending).bind
    fun deleted u hu hpending => ?_
  obtain ⟨rfl, -⟩ := exec_deletedGeneration_ok hu
  rw [opened_tombstone, if_pos h.deleted]
  exact (keeps_pure _).mpr hpending

theorem exec_commitAndPurge (hrequest : WellFormed request) (hadmits : Admits request file)
    (h : Untouched request file s) :
    ∃ t, (commitAndPurge request now).exec s = (.ok (), t) ∧ Purged request t := by
  have hclosed := untouched_closed hadmits h
  have hclose : (closeDatabase file).exec (closed s file) = (.ok (), closed s file) :=
    exec_closeDatabase closed_file file opened_inode
  obtain ⟨t, hrecord, hcommitted⟩ := exec_recordDeletion now hrequest hadmits
    hclosed.withReceipt lookup_withReceipt
  obtain ⟨u, hpurge, hpurged⟩ := exec_purge hcommitted
  refine ⟨u, ?_, hpurged⟩
  simp only [commitAndPurge, Op.exec_bind, exec_openExistingUser hadmits h, hclose, Op.exec_lift,
    hadmits.generation, Op.exec_require, decide_true, if_true, hadmits.session,
    exec_writeDeletionReceipt hrequest, hrecord, hpurge]

theorem keeps_commitAndPurge (hrequest : WellFormed request) (hadmits : Admits request file)
    (h : Untouched request file s) :
    Keeps (Pending request file) (commitAndPurge request now) s := by
  have hclosed := untouched_closed hadmits h
  refine (keeps_openExistingUser hrequest hadmits h).bind fun db t ht _ => ?_
  rw [exec_openExistingUser hadmits h] at ht
  cases ht
  refine (keeps_reads (pending_quiet hrequest hadmits) (reads_closeDatabase eq_sameLedger file _)
    (.inl hclosed)).bind fun _ t ht _ => ?_
  rw [exec_closeDatabase closed_file file opened_inode] at ht
  cases ht
  have hsidecars : Untouched request file { closed s file with wal := false, shm := false } := hclosed
  refine ((keeps_lift _).mpr (.inl hsidecars)).bind fun generation t ht _ => ?_
  obtain ⟨-, rfl⟩ := Op.exec_lift_ok.mp ht
  refine ((keeps_require _ _).mpr (.inl hsidecars)).bind fun _ t ht _ => ?_
  obtain ⟨-, rfl⟩ := Op.exec_require_ok.mp ht
  refine ((keeps_require _ _).mpr (.inl hsidecars)).bind fun _ t ht _ => ?_
  obtain ⟨-, rfl⟩ := Op.exec_require_ok.mp ht
  refine (keeps_writeDeletionReceipt hrequest hsidecars).bind fun _ t ht _ => ?_
  rw [exec_writeDeletionReceipt hrequest] at ht
  cases ht
  refine (keeps_recordDeletion hrequest hadmits hsidecars.withReceipt lookup_withReceipt).bind
    fun _ t ht _ => ?_
  obtain ⟨u, hrecord, hcommitted⟩ := exec_recordDeletion now hrequest hadmits
    hsidecars.withReceipt lookup_withReceipt
  rw [hrecord] at ht
  cases ht
  exact fun v hv => .inr (keeps_purge hrequest hcommitted v hv)

/-- The request completes the deletion from either side of the tombstone. -/
theorem exec_call (hrequest : WellFormed request) (hadmits : Admits request file)
    (h : Pending request file s) :
    ∃ t, (request.call now).exec s = (.ok (), t) ∧ Purged request t := by
  rw [call_eq]
  obtain h | h := h
  · obtain ⟨t, hread, ht⟩ := exec_committedDeletionReceipt_untouched hrequest hadmits h
    simp only [Op.exec_bind, hread]
    exact exec_commitAndPurge hrequest hadmits ht
  · obtain ⟨t, hread, ht⟩ := exec_committedDeletionReceipt_committed hrequest h
    obtain ⟨u, hpurge, hpurged⟩ := exec_purge ht
    refine ⟨u, ?_, hpurged⟩
    simp [Op.exec_bind, hread, Request.receipt, hpurge]

theorem keeps_call (hrequest : WellFormed request) (hadmits : Admits request file)
    (h : Pending request file s) : Keeps (Pending request file) (request.call now) s := by
  rw [call_eq]
  refine (keeps_committedDeletionReceipt (pending_quiet hrequest hadmits) h).bind
    fun receipt t ht _ => ?_
  obtain h | h := h
  · obtain ⟨u, hread, hu⟩ := exec_committedDeletionReceipt_untouched hrequest hadmits h
    rw [hread] at ht
    cases ht
    exact keeps_commitAndPurge hrequest hadmits hu
  · obtain ⟨u, hread, hu⟩ := exec_committedDeletionReceipt_committed hrequest h
    rw [hread] at ht
    cases ht
    refine ((keeps_require _ _).mpr (.inr hu)).bind fun _ v hv _ => ?_
    obtain ⟨-, rfl⟩ := Op.exec_require_ok.mp hv
    exact fun w hw => .inr (keeps_purge hrequest hu w hw)

end Calling

/-! ## Starting the server -/

section Starting
variable {request : Request} {file : DatabaseFile} {s : AccountDisk} {now : WallClock}

theorem keeps_recordDeletedAccountLifecycle (hrequest : WellFormed request)
    (h : Committed request s) {generation : Nat} (hle : generation ≤ request.generation) :
    Keeps (Committed request) (recordDeletedAccountLifecycle generation now) s := by
  refine .of_meets (meets_recordDeletedAccountLifecycle (P := Committed request) eq_sameLedger
    (fun _ _ hq ha => ha.quiet hrequest hq) (fun _ _ heq ha => heq ▸ ha)
    (fun _ _ hq ha => ha.quiet hrequest hq) h fun u hu hP hallow => ?_) h
  have hgeneration : generation = request.generation := le_antisymm hle (h.lifecycle ▸ hallow.1)
  subst hgeneration
  have hP' : Committed request (u.publishLifecycleRecord request.generation .deleted now) := by
    refine ⟨⟨hP.ledger.deletion, fun record hrecord => ?_⟩, hP.file, hP.deleted, rfl, hP.receipt⟩
    cases hrecord
    exact valid_lifecycleRecord hrequest .deleted now
  exact ⟨fun _ => hP', hP'⟩

theorem keeps_validateAccountLifecycleEntry {P : AccountDisk → Prop}
    (hP : ∀ a b, Quiet a b → P a → P b) (h : P s) : Keeps P validateAccountLifecycleEntry s := by
  refine ((keeps_read _).mpr h).bind fun recorded t _ ht => ?_
  cases recorded with
  | none => exact (keeps_pure _).mpr ht
  | some lifecycle =>
    refine ((keeps_require _ _).mpr ht).bind fun _ u _ hu => ?_
    refine (keeps_reads hP (reads_readDeletionRecord eq_sameLedger u) hu).bind fun deleted v _ hv => ?_
    exact (keeps_require _ _).mpr hv

/-- The obligation of an untouched account is to stay as it is. -/
theorem keeps_obligation_untouched (hadmits : Admits request file) (h : Untouched request file s) :
    Keeps (Untouched request file) (applyAccountDeletionObligation now) s := by
  have hquiet : ∀ a b, Quiet a b → Untouched request file a → Untouched request file b :=
    fun _ _ hq ha => ha.quiet hadmits hq
  refine (keeps_reads hquiet (reads_deletedGeneration eq_sameLedger s) h).bind
    fun deleted t hdeleted ht => ?_
  obtain ⟨rfl, -⟩ := exec_deletedGeneration_ok hdeleted
  refine (keeps_reads hquiet (reads_accountLifecycle eq_sameLedger t) ht).bind
    fun lifecycle u _ hu => ?_
  refine ((keeps_read _).mpr hu).bind fun present v hv hkept => ?_
  rw [Op.exec_read, hu.file] at hv
  cases hv
  refine (keeps_reads hquiet (reads_readStoredAccountGeneration eq_sameLedger u) hkept).bind
    fun generation w hw hstill => ?_
  obtain ⟨-, hgeneration, -⟩ := exec_readStoredAccountGeneration_ok hkept.file hw
  rw [migrate_current hadmits.schema, hadmits.generation] at hgeneration
  cases hgeneration
  rw [if_neg h.deleted.not_ge]
  exact (keeps_require _ _).mpr hstill

/-- The obligation of a committed account is its deletion. -/
theorem keeps_obligation_committed (hrequest : WellFormed request) (h : Committed request s) :
    Keeps (Committed request) (applyAccountDeletionObligation now) s := by
  have hquiet : ∀ a b, Quiet a b → Committed request a → Committed request b :=
    fun _ _ hq ha => ha.quiet hrequest hq
  refine (keeps_reads hquiet (reads_deletedGeneration eq_sameLedger s) h).bind
    fun deleted t hdeleted ht => ?_
  obtain ⟨rfl, -⟩ := exec_deletedGeneration_ok hdeleted
  refine (keeps_reads hquiet (reads_accountLifecycle eq_sameLedger t) ht).bind
    fun lifecycle u _ hu => ?_
  refine ((keeps_read _).mpr hu).bind fun present v _ hv => ?_
  cases present with
  | true =>
    refine (keeps_reads hquiet (reads_readStoredAccountGeneration eq_sameLedger v) hv).bind
      fun generation w _ hw => ?_
    split
    · next hle =>
      refine (keeps_recordDeletedAccountLifecycle hrequest hw (h.deleted ▸ hle)).bind
        fun _ x _ hx => keeps_removeUserFiles hx
    · exact (keeps_require _ _).mpr hw
  | false =>
    rw [if_neg Bool.false_ne_true]
    split
    · refine (keeps_recordDeletedAccountLifecycle hrequest hv h.deleted.le).bind
        fun _ x _ hx => keeps_removeUserFiles hx
    · exact (keeps_throw _).mpr hv

theorem keeps_startAccount (hrequest : WellFormed request) (hadmits : Admits request file)
    (h : Pending request file s) : Keeps (Pending request file) (startAccount now) s := by
  refine (keeps_validateAccountLifecycleEntry (pending_quiet hrequest hadmits) h).bind
    fun _ t _ ht => ?_
  refine ((keeps_read _).mpr ht).bind fun stored u _ hu => ?_
  cases stored with
  | false => exact (keeps_pure _).mpr hu
  | true =>
    obtain hu | hu := hu
    · exact fun v hv => .inl (keeps_obligation_untouched hadmits hu v hv)
    · exact fun v hv => .inr (keeps_obligation_committed hrequest hu v hv)

theorem Pending.coherent (h : Pending request file s) : ∀ record, s.lifecycleRecord = some record →
    record.state = .deleted → record.generation ≤ tombstone s := by
  intro record hrecord hdeleted
  obtain h | h := h
  · have hbound := h.bound
    simp [hrecord, bindsActive, hdeleted] at hbound
  · have hlife := h.lifecycle
    rw [hrecord] at hlife
    exact (hlife.trans h.deleted.symm).le

/-- A start of the server passes on either side of the tombstone. -/
theorem exec_startAccount (hrequest : WellFormed request) (hadmits : Admits request file)
    (h : Pending request file s) : ((startAccount now).exec s).1 = .ok () := by
  have hledger : ValidLedger s := h.elim (fun h => h.ledger) fun h => h.ledger
  have hentry := exec_validateAccountLifecycleEntry hledger h.coherent
  simp only [startAccount, Op.exec_bind, hentry, Op.exec_read]
  cases hstored : s.hasStorage with
  | false => rfl
  | true =>
    rw [if_pos rfl]
    obtain h | h := h
    · rw [exec_applyObligation_bound h.ledger h.file hadmits.schema.le
        ((migrate_current hadmits.schema).symm ▸ hadmits.generation) h.deleted h.bound]
    · cases hfile : s.file with
      | some found =>
        obtain ⟨hsupported, generation, hgeneration, hle⟩ := h.file found hfile
        exact exec_applyObligation_deleted h.ledger hfile hsupported hgeneration (h.deleted ▸ hle)
      | none =>
        have hpositive := hrequest.generation
        simp only [validGeneration, Bool.and_eq_true, decide_eq_true_eq] at hpositive
        have hlt : 0 < request.generation := hpositive.1
        have hallow : LifecycleAllows s.lifecycleRecord request.generation .deleted :=
          ⟨h.lifecycle.le, fun _ _ _ _ => rfl⟩
        have hrecord := exec_recordAccountLifecycle h.ledger now hrequest.generation hallow
        simp [applyAccountDeletionObligation, exec_deletedGeneration_missing h.ledger hfile,
          exec_accountLifecycle h.ledger, hfile, h.deleted, h.lifecycle, hlt,
          recordDeletedAccountLifecycle, hrecord, exec_removeUserFiles]

end Starting

/-! ## Any number of interruptions -/

/-- What the request and starts of the server leave of an account, each stopped somewhere or
not at all. -/
inductive Interrupted (request : Request) (s : AccountDisk) : AccountDisk → Prop where
  | start : Interrupted request s s
  | called {t u : AccountDisk} (now : WallClock) (h : Interrupted request s t)
      (hu : u ∈ (request.call now).states t) : Interrupted request s u
  | restarted {t u : AccountDisk} (now : WallClock) (h : Interrupted request s t)
      (hu : u ∈ (startAccount now).states t) : Interrupted request s u

section Interruptions
variable {request : Request} {file : DatabaseFile} {s t : AccountDisk}

theorem untouched_settled (hadmits : Admits request file) (h : Settled s)
    (hfile : s.file = some file) (hreceipt : s.receipts.lookup request.credential = none) :
    Untouched request file s := by
  obtain ⟨-, hgeneration, hbound⟩ := h.active file hfile
  rw [hadmits.generation] at hgeneration
  have heq := Except.ok.inj hgeneration
  exact ⟨h.ledger, hfile, heq ▸ Nat.lt_succ_self _, heq ▸ hbound, .inl hreceipt⟩

theorem pending_interrupted (hrequest : WellFormed request) (hadmits : Admits request file)
    (hs : Pending request file s) (h : Interrupted request s t) : Pending request file t := by
  induction h with
  | start => exact hs
  | called now _ hu ih => exact keeps_call hrequest hadmits ih _ hu
  | restarted now _ hu ih => exact keeps_startAccount hrequest hadmits ih _ hu

/-- However often a deletion and the starts after it were stopped, the server starts, and the
request repeated deletes the account: its files are gone, its tombstone stands and the receipt
answers the next repetition. -/
theorem deletion_resumes (hrequest : WellFormed request) (hadmits : Admits request file)
    (hs : Settled s) (hfile : s.file = some file)
    (hreceipt : s.receipts.lookup request.credential = none) (h : Interrupted request s t)
    (now : WallClock) :
    ((startAccount now).exec t).1 = .ok () ∧
      ∃ u, (request.call now).exec t = (.ok (), u) ∧ Purged request u := by
  have hpending := pending_interrupted hrequest hadmits
    (.inl (untouched_settled hadmits hs hfile hreceipt)) h
  exact ⟨exec_startAccount hrequest hadmits hpending, exec_call hrequest hadmits hpending⟩

end Interruptions

/-- The deletion of the first account by a bearer token outside its sessions. -/
def firstRequest : Request := ⟨1, ⟨1, .bearer⟩, none, none⟩

/-- The account once the tombstone of that deletion is written. -/
def firstCommitted : AccountDisk where
  file := some firstFile
  wal := false
  shm := false
  deletionRecord := some ⟨1, 1, 1⟩
  lifecycleRecord := some ⟨1, 1, .active, 1⟩
  receipts := [(firstRequest.credential, firstRequest.receipt)]
  nextInode := 1

/-- The deletion stops after its tombstone. -/
theorem deletion_resumes_first : Interrupted firstRequest firstCreated firstCommitted ∧
    ((startAccount firstClock).exec firstCommitted).1 = .ok () ∧
    ∃ u, (firstRequest.call firstClock).exec firstCommitted = (.ok (), u) ∧
      Purged firstRequest u := by
  have hstopped : Interrupted firstRequest firstCreated firstCommitted :=
    .called firstClock .start (by decide)
  have hsettled : Settled firstCreated := by
    have hopen : (openUser firstClock).exec .blank = (.ok firstFile, firstCreated) := rfl
    exact settled_openUser settled_blank hopen
  exact ⟨hstopped, deletion_resumes ⟨rfl, by decide, rfl⟩ ⟨rfl, rfl, rfl⟩ hsettled rfl rfl hstopped
    firstClock⟩

end Pomodorough.Store.ResumedDeletions
