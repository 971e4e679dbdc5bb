import Pomodorough.Store.Accounts

/-! # What the ledger's functions do under interference

Each function is described once, for any environment that leaves the ledger
directory alone between its steps: what its own steps change, and what a
successful result says about the ledger. -/
namespace Pomodorough.Store.LedgerSpec
open Pomodorough.Library.AtomicSteps Pomodorough.Store.Records Pomodorough.Store.DeletionLedger
open Pomodorough.Store.Accounts

/-! ## The ledger's view of a state -/

/-- The committed tombstone generation; 0 before any deletion. -/
def tombstone (disk : AccountDisk) : Nat :=
  match disk.deletionRecord with
  | none => 0
  | some record => record.deletedGeneration

/-- The generation any open reads from a file, which it migrates first. -/
def storedGeneration (file : DatabaseFile) : Nat := file.migrate.generation.getD 0

/-- The file at the path is of a generation nobody has deleted. -/
def Live (disk : AccountDisk) : Prop :=
  ∃ file, disk.file = some file ∧ tombstone disk < storedGeneration file

structure SameLedger (s t : AccountDisk) : Prop where
  deletionRecord : t.deletionRecord = s.deletionRecord
  lifecycleRecord : t.lifecycleRecord = s.lifecycleRecord
  receipts : t.receipts = s.receipts

theorem SameLedger.refl (s : AccountDisk) : SameLedger s s := ⟨rfl, rfl, rfl⟩

theorem SameLedger.trans {s t u : AccountDisk} (h : SameLedger s t) (h' : SameLedger t u) :
    SameLedger s u :=
  ⟨h'.1.trans h.1, h'.2.trans h.2, h'.3.trans h.3⟩

theorem SameLedger.tombstone {s t : AccountDisk} (h : SameLedger s t) :
    tombstone t = tombstone s := by
  unfold LedgerSpec.tombstone; rw [h.deletionRecord]

/-- A file that was only opened, and so migrated. -/
def OpenedAs (file file' : DatabaseFile) : Prop := file' = file ∨ file' = file.migrate

/-- What reading steps may change: SQLite creates a file where there was none,
and an opened file is migrated. -/
structure Quiet (s t : AccountDisk) : Prop where
  ledger : SameLedger s t
  file : ∀ file', t.file = some file' →
    (∃ file, s.file = some file ∧ OpenedAs file file') ∨
    (s.file = none ∧ OpenedAs (DatabaseFile.empty s.nextInode) file')
  kept : s.file.isSome → t.file.isSome

theorem Quiet.refl (s : AccountDisk) : Quiet s s :=
  ⟨.refl s, fun file' h => .inl ⟨file', h, .inl rfl⟩, id⟩

@[simp] theorem migrate_migrate (file : DatabaseFile) : file.migrate.migrate = file.migrate := by
  unfold DatabaseFile.migrate
  split
  · simp [currentSchemaVersion]
  · rfl

@[simp] theorem storedGeneration_migrate (file : DatabaseFile) :
    storedGeneration file.migrate = storedGeneration file := by
  simp [storedGeneration]

@[simp] theorem storedGeneration_empty (inode : Nat) :
    storedGeneration (.empty inode) = 1 := rfl

@[simp] theorem migrate_inode (file : DatabaseFile) : file.migrate.inode = file.inode := by
  unfold DatabaseFile.migrate; split <;> rfl

theorem OpenedAs.storedGeneration {file file' : DatabaseFile} (h : OpenedAs file file') :
    storedGeneration file' = storedGeneration file := by
  rcases h with rfl | rfl <;> simp

theorem OpenedAs.inode {file file' : DatabaseFile} (h : OpenedAs file file') :
    file'.inode = file.inode := by
  rcases h with rfl | rfl <;> simp

theorem accountGeneration_ok {db : DatabaseFile} {generation : Nat}
    (h : accountGeneration db = .ok generation) :
    db.generation = some generation ∧ 1 ≤ generation ∧ generation ≤ maxSafeRevision := by
  unfold accountGeneration at h
  split at h
  · cases h
  · rename_i g hg
    split at h
    · rename_i hv
      cases h
      simpa [hg, validGeneration] using hv
    · cases h

/-! ## Reading programs -/

section Reads
variable {R : AccountDisk → AccountDisk → Prop} {α β : Type}

/-- A program whose own steps are reading steps, between which the environment
leaves the ledger alone, and whose successful results satisfy `Q`. -/
def Reads (R : AccountDisk → AccountDisk → Prop) (Q : α → Prop) (x : DiskOp α)
    (s : AccountDisk) : Prop :=
  Meets R Quiet (fun r t => SameLedger s t ∧ ∀ a, r = .ok a → Q a) x s

theorem Reads.pure {Q : α → Prop} {a : α} {s : AccountDisk} (h : Q a) :
    Reads R Q (pure a) s := ⟨.refl s, fun b hb => by cases hb; exact h⟩

theorem Reads.throw {Q : α → Prop} {e : StoreError} {s : AccountDisk} :
    Reads R Q (throw e) s := ⟨.refl s, fun b hb => by cases hb⟩

theorem Reads.lift {Q : α → Prop} {r : Except StoreError α} {s : AccountDisk}
    (h : ∀ a, r = .ok a → Q a) : Reads R Q (Op.lift r) s := ⟨.refl s, h⟩

theorem Reads.require {Q : Unit → Prop} {c : Bool} {e : StoreError} {s : AccountDisk}
    (h : c = true → Q ()) : Reads R Q (Op.require c e) s := by
  cases c with
  | true => exact Reads.pure (h rfl)
  | false => exact Reads.throw

theorem Reads.imp {Q T : α → Prop} {x : DiskOp α} {s : AccountDisk} (h : Reads R Q x s)
    (hQ : ∀ a, Q a → T a) : Reads R T x s :=
  Meets.imp h fun _ _ hr => ⟨hr.1, fun a ha => hQ a (hr.2 a ha)⟩

theorem Reads.bind {Q : α → Prop} {T : β → Prop} {x : DiskOp α} {k : α → DiskOp β}
    {s : AccountDisk} (h : Reads R Q x s)
    (hk : ∀ a t, SameLedger s t → Q a → Reads R T (k a) t) : Reads R T (x >>= k) s :=
  Meets.bind h
    (fun a t hr => Meets.imp (hk a t hr.1 (hr.2 a rfl)) fun _ _ hu => ⟨hr.1.trans hu.1, hu.2⟩)
    (fun _ _ hr => ⟨hr.1, fun b hb => by cases hb⟩)

variable (hR : ∀ a b, R a b → SameLedger a b)
include hR

theorem Reads.step {Q : α → Prop} {f : AccountDisk → α × AccountDisk} {s : AccountDisk}
    (hq : Quiet s (f s).2) (h : Q (f s).1) : Reads R Q (Op.step f) s :=
  ⟨hq, fun _ ht => ⟨hq.ledger.trans (hR _ _ ht), fun a ha => by cases ha; exact h⟩⟩

theorem Reads.tryRead {Q : α → Prop} {f : AccountDisk → Except StoreError α} {s : AccountDisk}
    (h : ∀ a, f s = .ok a → Q a) : Reads R Q (Op.tryRead f) s :=
  ⟨Quiet.refl s, fun _ ht => ⟨hR _ _ ht, h⟩⟩

theorem Reads.read {Q : α → Prop} {f : AccountDisk → α} {s : AccountDisk} (h : Q (f s)) :
    Reads R Q (Op.read f) s := Reads.step hR (Quiet.refl s) h

/-! ## The reading functions -/

theorem reads_readDeletionRecord (s : AccountDisk) :
    Reads R (fun d => d = tombstone s) readDeletionRecord s := by
  refine Reads.tryRead hR fun d hd => ?_
  split at hd
  · rename_i hnone
    unfold tombstone
    rw [hnone]; exact (Except.ok.inj hd).symm
  · rename_i record hrecord
    unfold tombstone
    rw [hrecord]
    split at hd
    · exact (Except.ok.inj hd).symm
    · cases hd

theorem reads_accountLifecycle (s : AccountDisk) :
    Reads R (fun l => l = s.lifecycleRecord) accountLifecycle s := by
  refine Reads.tryRead hR fun l hl => ?_
  split at hl
  · rename_i hnone
    rw [hnone]; exact (Except.ok.inj hl).symm
  · rename_i record hrecord
    rw [hrecord]
    split at hl
    · exact (Except.ok.inj hl).symm
    · cases hl

theorem reads_connectDatabase (s : AccountDisk) :
    Reads R (fun _ => True) connectDatabase s := by
  apply Reads.step hR _ trivial
  cases h : s.file with
  | none =>
    exact ⟨⟨rfl, rfl, rfl⟩, fun f hf => .inr ⟨h, .inl (Option.some.inj hf).symm⟩, fun _ => rfl⟩
  | some file =>
    exact ⟨⟨rfl, rfl, rfl⟩, fun f hf => .inl ⟨f, h.trans hf, .inl rfl⟩, fun _ => rfl⟩

omit hR in
theorem quiet_updateFile_migrate (s : AccountDisk) (inode : Nat) :
    Quiet s (s.updateFile inode DatabaseFile.migrate) := by
  refine ⟨⟨rfl, rfl, rfl⟩, fun f hf => ?_, fun h => by simpa [AccountDisk.updateFile] using h⟩
  simp only [AccountDisk.updateFile, Option.map_eq_some_iff] at hf
  obtain ⟨file, hfile, rfl⟩ := hf
  refine .inl ⟨file, hfile, ?_⟩
  split
  · exact .inr rfl
  · exact .inl rfl

theorem reads_migrateDatabase (db : DatabaseFile) (s : AccountDisk) :
    Reads R (fun db' => db' = db.migrate) (migrateDatabase db) s :=
  (Reads.require (Q := fun _ => True) fun _ => trivial).bind fun _ t _ _ =>
    Reads.step hR (quiet_updateFile_migrate t db.inode) rfl

theorem reads_openDatabase (s : AccountDisk) :
    Reads R (fun db => db.migrate = db) openDatabase s :=
  (reads_connectDatabase hR s).bind fun db t _ _ =>
    (reads_migrateDatabase hR db t).imp fun db' h => by rw [h, migrate_migrate]

theorem reads_closeDatabase (db : DatabaseFile) (s : AccountDisk) :
    Reads R (fun _ => True) (closeDatabase db) s := by
  apply Reads.step hR _ trivial
  dsimp only
  split
  · exact ⟨⟨rfl, rfl, rfl⟩, fun f hf => .inl ⟨f, hf, .inl rfl⟩, id⟩
  · exact Quiet.refl s

theorem reads_readStoredAccountGeneration (s : AccountDisk) :
    Reads R (fun g => 1 ≤ g) readStoredAccountGeneration s :=
  (reads_openDatabase hR s).bind fun db t _ _ =>
    (reads_closeDatabase hR db t).bind fun _ _ _ _ =>
      Reads.lift fun _ hg => (accountGeneration_ok hg).2.1

theorem reads_validateStoredAccountLifecycle (deleted : Nat) (s : AccountDisk) :
    Reads R (fun _ => True) (validateStoredAccountLifecycle deleted) s := by
  refine (Reads.read hR (Q := fun _ => True) trivial).bind fun present t _ _ => ?_
  cases present with
  | false => exact Reads.pure trivial
  | true =>
    refine (reads_readStoredAccountGeneration hR t).bind fun generation u _ _ => ?_
    by_cases hle : generation ≤ deleted
    · simpa [hle] using Reads.pure trivial
    · simp only [hle, if_false]
      exact (reads_accountLifecycle hR u).bind fun _ _ _ _ => Reads.require fun _ => trivial

/-- A successful ledger read returns the committed tombstone. -/
theorem reads_deletedGeneration (s : AccountDisk) :
    Reads R (fun d => d = tombstone s) deletedGeneration s :=
  (reads_readDeletionRecord hR s).bind fun d t _ hd =>
    (reads_validateStoredAccountLifecycle hR d t).bind fun _ _ _ _ => Reads.pure hd

theorem reads_openStoredAccount (s : AccountDisk) :
    Reads R (fun p => p.1.migrate = p.1 ∧ accountGeneration p.1 = .ok p.2) openStoredAccount s := by
  refine (Reads.read hR (Q := fun _ => True) trivial).bind fun present t _ _ => ?_
  cases present with
  | false => exact Reads.throw
  | true =>
    refine (reads_openDatabase hR t).bind fun db u _ hdb => ?_
    cases hg : accountGeneration db with
    | error e => exact (reads_closeDatabase hR db u).bind fun _ _ _ _ => Reads.throw
    | ok generation => exact Reads.pure ⟨hdb, hg⟩

theorem reads_currentOrNextAccountGeneration (s : AccountDisk) :
    Reads R (fun g => tombstone s ≤ g) currentOrNextAccountGeneration s := by
  refine (reads_deletedGeneration hR s).bind fun d t ht hd => ?_
  refine (Reads.read hR (Q := fun _ => True) trivial).bind fun present u _ _ => ?_
  cases present with
  | false =>
    apply Reads.pure
    split <;> omega
  | true =>
    refine (reads_openDatabase hR u).bind fun db v _ _ => ?_
    refine (reads_closeDatabase hR db v).bind fun _ w _ _ => ?_
    exact (Reads.lift (Q := fun _ => True) fun _ _ => trivial).bind fun g _ _ _ =>
      Reads.pure (by omega)

theorem reads_readDeletionReceipt (credential : DeletionCredential) (s : AccountDisk) :
    Reads R (fun r => r = s.receipts.lookup credential ∧
      ∀ receipt, r = some receipt → validDeletionReceipt receipt credential.method = true)
      (readDeletionReceipt credential) s := by
  refine Reads.tryRead hR fun r hr => ?_
  split at hr
  · rename_i hnone
    rw [hnone]
    exact ⟨(Except.ok.inj hr).symm, fun receipt h => by cases hr; cases h⟩
  · rename_i receipt hreceipt
    rw [hreceipt]
    split at hr
    · rename_i hv
      cases hr
      exact ⟨rfl, fun receipt' h => by cases h; exact hv⟩
    · cases hr

/-- A committed receipt is stored, valid, and covered by the tombstone. -/
theorem reads_committedDeletionReceipt (credential : DeletionCredential) (s : AccountDisk) :
    Reads R (fun r => ∀ receipt, r = some receipt →
      s.receipts.lookup credential = some receipt ∧ receipt.generation ≤ tombstone s ∧
      validDeletionReceipt receipt credential.method = true)
      (committedDeletionReceipt credential) s := by
  refine (Reads.lift (Q := fun path => path = credential) fun path hp => ?_).bind
    fun path t ht hpath => ?_
  · unfold deletionReceiptPath at hp
    split at hp <;> cases hp
    rfl
  subst hpath
  refine (reads_readDeletionReceipt hR path t).bind fun r u hu hr => ?_
  cases r with
  | none => exact Reads.pure fun receipt h => by cases h
  | some receipt =>
    refine (reads_deletedGeneration hR u).bind fun d v _ hd => ?_
    by_cases hlt : d < receipt.generation
    · simp only [hlt, if_true]
      exact Reads.pure fun receipt h => by cases h
    · simp only [hlt, if_false]
      refine Reads.pure fun receipt' h => ?_
      cases h
      rw [hu.tombstone, ht.tombstone] at hd
      exact ⟨by rw [← ht.receipts, ← hr.1], by omega, hr.2 receipt rfl⟩

end Reads

/-! ## Writing programs

`G` is what a caller's steps may do. The lemmas take it as given that reading
steps are allowed and ask for the writes: each write happens in a state whose
ledger is the one last read, and which still satisfies whatever property `P` of
the files the environment and the reading steps keep. -/

section Writes
variable {R G : AccountDisk → AccountDisk → Prop} {P : AccountDisk → Prop} {α : Type}

theorem Reads.keep {Q : α → Prop} {x : DiskOp α} {s : AccountDisk} (h : Reads R Q x s)
    (hG : ∀ a b, Quiet a b → G a b) (hPR : ∀ a b, R a b → P a → P b)
    (hPQ : ∀ a b, Quiet a b → P a → P b) (hs : P s) :
    Meets R G (fun r t => SameLedger s t ∧ P t ∧ ∀ a, r = .ok a → Q a) x s :=
  (Meets.keep h hs hPR hPQ).mono (fun _ _ => id) (fun _ _ h => hG _ _ h.1)
    fun _ _ h => ⟨h.1.1, h.2, h.1.2⟩

/-- The transitions `recordAccountLifecycle` lets through. -/
def LifecycleAllows (current : Option AccountLifecycleRecord) (generation : Nat)
    (state : AccountState) : Prop :=
  lifecycleGeneration current ≤ generation ∧
    ∀ record, current = some record → record.generation = generation →
      record.state = .deleted → state = .deleted

variable (hR : ∀ a b, R a b → SameLedger a b) (hG : ∀ a b, Quiet a b → G a b)
  (hPR : ∀ a b, R a b → P a → P b) (hPQ : ∀ a b, Quiet a b → P a → P b)
include hR hG hPR hPQ

theorem meets_recordAccountLifecycle {generation : Nat} {state : AccountState} {now : WallClock}
    {s : AccountDisk} (hs : P s)
    (hwrite : ∀ u, SameLedger s u → P u → LifecycleAllows s.lifecycleRecord generation state →
      G u (u.publishLifecycleRecord generation state now) ∧
        P (u.publishLifecycleRecord generation state now)) :
    Meets R G (fun r t => P t ∧ (∀ e, r = .error e → SameLedger s t) ∧
        (r = .ok () → SameLedger (s.publishLifecycleRecord generation state now) t ∧
          1 ≤ generation ∧ LifecycleAllows s.lifecycleRecord generation state))
      (recordAccountLifecycle generation state now) s := by
  refine ((reads_accountLifecycle hR s).keep hG hPR hPQ hs).bind (fun current t ht => ?_)
    fun e t ht => ⟨ht.2.1, fun _ _ => ht.1, fun h => by cases h⟩
  have hcur : current = s.lifecycleRecord := ht.2.2 current rfl
  subst hcur
  rw [meets_bind, meets_require]
  split
  case isFalse => exact ⟨ht.2.1, fun _ _ => ht.1, fun h => by cases h⟩
  case isTrue hvalid =>
  dsimp only
  rw [meets_bind, meets_require]
  split
  case isFalse => exact ⟨ht.2.1, fun _ _ => ht.1, fun h => by cases h⟩
  case isTrue hguard =>
  have hallow : LifecycleAllows s.lifecycleRecord generation state := by
    simp only [Bool.not_eq_true', Bool.or_eq_false_iff, decide_eq_false_iff_not, not_lt] at hguard
    refine ⟨hguard.1, fun record hrec hgen hdel => ?_⟩
    have := hguard.2
    rw [hrec] at this
    cases state with
    | deleted => rfl
    | active => simp [hgen, hdel] at this
  have hw := hwrite t ht.1 ht.2.1 hallow
  refine ⟨hw.1, fun u hu => ⟨hPR _ _ hu hw.2, fun _ h => (nomatch h), fun _ => ⟨?_, ?_, hallow⟩⟩⟩
  · have hsame : SameLedger (s.publishLifecycleRecord generation state now)
        (t.publishLifecycleRecord generation state now) :=
      ⟨ht.1.deletionRecord, rfl, ht.1.receipts⟩
    exact hsame.trans (hR _ _ hu)
  · simp only [validGeneration, Bool.and_eq_true, decide_eq_true_eq] at hvalid
    exact hvalid.1

/-- A deleted lifecycle record is published, or a newer one stands. -/
theorem meets_recordDeletedAccountLifecycle {generation : Nat} {now : WallClock}
    {s : AccountDisk} (hs : P s)
    (hwrite : ∀ u, SameLedger s u → P u → LifecycleAllows s.lifecycleRecord generation .deleted →
      G u (u.publishLifecycleRecord generation .deleted now) ∧
        P (u.publishLifecycleRecord generation .deleted now)) :
    Meets R G (fun r t => P t ∧ (∀ e, r = .error e → SameLedger s t) ∧
        (r = .ok () → (generation < lifecycleGeneration s.lifecycleRecord ∧ SameLedger s t) ∨
          (lifecycleGeneration s.lifecycleRecord ≤ generation ∧
            SameLedger (s.publishLifecycleRecord generation .deleted now) t)))
      (recordDeletedAccountLifecycle generation now) s := by
  refine ((reads_accountLifecycle hR s).keep hG hPR hPQ hs).bind (fun current t ht => ?_)
    fun e t ht => ⟨ht.2.1, fun _ _ => ht.1, fun h => by cases h⟩
  have hcur : current = s.lifecycleRecord := ht.2.2 current rfl
  subst hcur
  split
  case isTrue hlt => exact ⟨ht.2.1, fun _ h => (nomatch h), fun _ => .inl ⟨hlt, ht.1⟩⟩
  case isFalse hge =>
  have hlife := ht.1.lifecycleRecord
  refine Meets.imp (meets_recordAccountLifecycle hR hG hPR hPQ ht.2.1 fun u hu hP hallow =>
    hwrite u (ht.1.trans hu) hP (hlife ▸ hallow)) fun r v hv => ⟨hv.1, ?_, fun hr => ?_⟩
  · intro e he; exact ht.1.trans (hv.2.1 e he)
  · have hsame : SameLedger (s.publishLifecycleRecord generation .deleted now)
        (t.publishLifecycleRecord generation .deleted now) :=
      ⟨ht.1.deletionRecord, rfl, ht.1.receipts⟩
    exact .inr ⟨by omega, hsame.trans (hv.2.2 hr).1⟩

/-- `recordDeletion` raises the tombstone to the larger of the two generations
and then the lifecycle, unless a newer generation is recorded there. -/
theorem meets_recordDeletion {generation : Nat} {now : WallClock} {s : AccountDisk} (hs : P s)
    (hdelete : ∀ u, SameLedger s u → P u →
      G u (u.publishDeletionRecord (max (tombstone s) generation) now) ∧
        P (u.publishDeletionRecord (max (tombstone s) generation) now))
    (hlife : ∀ u, tombstone u = max (tombstone s) generation →
      u.lifecycleRecord = s.lifecycleRecord → u.receipts = s.receipts → P u →
      LifecycleAllows s.lifecycleRecord (max (tombstone s) generation) .deleted →
      G u (u.publishLifecycleRecord (max (tombstone s) generation) .deleted now) ∧
        P (u.publishLifecycleRecord (max (tombstone s) generation) .deleted now)) :
    Meets R G (fun r t => P t ∧ t.receipts = s.receipts ∧
        (r = .ok () → tombstone t = max (tombstone s) generation ∧
          ((tombstone t < lifecycleGeneration s.lifecycleRecord ∧
              t.lifecycleRecord = s.lifecycleRecord) ∨
            (lifecycleGeneration s.lifecycleRecord ≤ tombstone t ∧
              t.lifecycleRecord = some
                ⟨1, max (tombstone s) generation, .deleted, now.unixMilli⟩)) ∧
          validGeneration (tombstone t) = true ∧
          t.deletionRecord = some ⟨1, max (tombstone s) generation, now.unixMilli⟩))
      (recordDeletion generation now) s := by
  refine ((reads_deletedGeneration hR s).keep hG hPR hPQ hs).bind (fun current t ht => ?_)
    fun e t ht => ⟨ht.2.1, ht.1.receipts, fun h => by cases h⟩
  have hcur : current = tombstone s := ht.2.2 current rfl
  subst hcur
  rw [meets_bind, meets_require]
  split
  case isFalse => exact ⟨ht.2.1, ht.1.receipts, fun h => by cases h⟩
  case isTrue hvalid =>
  dsimp only
  have hw := hdelete t ht.1 ht.2.1
  rw [meets_bind, meets_modify]
  refine ⟨hw.1, fun u hu => ?_⟩
  have hP : P u := hPR _ _ hu hw.2
  have hu' := hR _ _ hu
  have htomb : tombstone u = max (tombstone s) generation := hu'.tombstone
  have hrec : u.lifecycleRecord = s.lifecycleRecord := hu'.lifecycleRecord.trans ht.1.lifecycleRecord
  have hreceipts : u.receipts = s.receipts := hu'.receipts.trans ht.1.receipts
  refine Meets.imp (meets_recordDeletedAccountLifecycle hR hG hPR hPQ hP fun v hv hPv hallow =>
    hlife v (hv.tombstone.trans htomb) (hv.lifecycleRecord.trans hrec) (hv.receipts.trans hreceipts)
      hPv (hrec ▸ hallow)) fun r v hv => ⟨hv.1, ?_, fun hr => ?_⟩
  · cases r with
    | error e => exact (hv.2.1 e rfl).receipts.trans hreceipts
    | ok _ =>
      rcases hv.2.2 rfl with ⟨_, h⟩ | ⟨_, h⟩
      · exact h.receipts.trans hreceipts
      · exact h.receipts.trans hreceipts
  · have hrecord : u.deletionRecord =
        some ⟨1, max (tombstone s) generation, now.unixMilli⟩ := hu'.deletionRecord
    rcases hv.2.2 hr with ⟨hlt, h⟩ | ⟨hle, h⟩
    · rw [h.tombstone, htomb]
      rw [hrec] at hlt
      exact ⟨rfl, .inl ⟨hlt, h.lifecycleRecord.trans hrec⟩, hvalid,
        h.deletionRecord.trans hrecord⟩
    · have htv : tombstone v = max (tombstone s) generation := h.tombstone.trans htomb
      rw [htv]
      rw [hrec] at hle
      exact ⟨rfl, .inr ⟨hle, h.lifecycleRecord⟩, hvalid, h.deletionRecord.trans hrecord⟩

end Writes

end Pomodorough.Store.LedgerSpec
