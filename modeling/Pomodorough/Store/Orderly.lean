import Pomodorough.Store.Sequential
import Pomodorough.Store.UnlockedOpen

/-! # Accounts the server left in order

Every file an account has is one this version opens, of a generation the ledger
knows of; and once the account has been deleted, a live file is bound to the
ledger. Whatever the calls on an account do, in any order and stopped anywhere,
keeps it so, and an open of such an account fails only as its state says. -/
namespace Pomodorough.Store.Orderly
open Pomodorough.Library.AtomicSteps
open Pomodorough.Store.Records Pomodorough.Store.DeletionLedger Pomodorough.Store.Accounts
open Pomodorough.Store.LedgerSpec Pomodorough.Store.Sequential
open Pomodorough.Store.UnlockedOpen (OpenedAs.trans Below)

/-- A file this version opens, of a generation one above the deleted at most. -/
structure OrderlyFile (deleted : Nat) (file : DatabaseFile) : Prop where
  supported : Supported file
  numbered : file.schemaVersion = currentSchemaVersion → file.generation.isSome
  generation : ∀ generation, file.generation = some generation →
    validGeneration generation = true ∧ generation ≤ deleted + 1

structure OrderlyAccount (s : AccountDisk) : Prop where
  ledger : ValidLedger s
  file : ∀ file, s.file = some file → OrderlyFile (tombstone s) file
  bound : ∀ file, s.file = some file → 1 ≤ tombstone s → tombstone s < storedGeneration file →
    bindsActive s.lifecycleRecord (storedGeneration file) = true
  receipts : ∀ entry ∈ s.receipts, validDeletionReceipt entry.2 entry.1.method = true

/-- A file is at the path, or the account has been deleted once. -/
def Present (s : AccountDisk) : Prop := tombstone s = 0 → s.file.isSome = true

/-- The file a connection finds, or makes. -/
def fileAt (s : AccountDisk) : DatabaseFile := s.file.getD (.empty s.nextInode)

section
variable {s t u : AccountDisk} {file file' : DatabaseFile} {deleted generation : Nat}

@[simp] theorem migrate_tables (file : DatabaseFile) : file.migrate.tables = file.tables := by
  unfold DatabaseFile.migrate
  split <;> rfl

theorem OpenedAs.tables (h : OpenedAs file file') : file'.tables = file.tables := by
  rcases h with rfl | rfl
  · rfl
  · exact migrate_tables file

theorem validGeneration_iff :
    validGeneration generation = true ↔ 1 ≤ generation ∧ generation ≤ maxSafeRevision := by
  simp [validGeneration]

/-! ## Orderly files -/

theorem OrderlyFile.empty (inode : Nat) : OrderlyFile deleted (.empty inode) where
  supported := Nat.zero_le _
  numbered h := by cases h
  generation _ h := by cases h

theorem OrderlyFile.mono (h : OrderlyFile deleted file) (hle : deleted ≤ generation) :
    OrderlyFile generation file where
  supported := h.supported
  numbered := h.numbered
  generation g hg := ⟨(h.generation g hg).1, (h.generation g hg).2.trans (by omega)⟩

theorem OrderlyFile.migrate (h : OrderlyFile deleted file) : OrderlyFile deleted file.migrate := by
  unfold DatabaseFile.migrate
  split
  · refine ⟨le_refl _, fun _ => rfl, fun g hg => ?_⟩
    cases hg
    exact ⟨rfl, by omega⟩
  · exact h

theorem OrderlyFile.openedAs (h : OrderlyFile deleted file) (ho : OpenedAs file file') :
    OrderlyFile deleted file' := by
  rcases ho with rfl | rfl
  · exact h
  · exact h.migrate

/-- Any open reads the generation of an orderly file. -/
theorem OrderlyFile.accountGeneration (h : OrderlyFile deleted file) :
    accountGeneration file.migrate = .ok (storedGeneration file) ∧
      validGeneration (storedGeneration file) = true ∧ storedGeneration file ≤ deleted + 1 := by
  have hm := h.migrate
  have hversion : file.migrate.schemaVersion = currentSchemaVersion := by
    have hsupported := h.supported
    unfold Supported at hsupported
    unfold DatabaseFile.migrate
    split
    · rfl
    · omega
  obtain ⟨g, hg⟩ := Option.isSome_iff_exists.mp (hm.numbered hversion)
  obtain ⟨hvalid, hle⟩ := hm.generation g hg
  have hstored : storedGeneration file = g := by simp [storedGeneration, hg]
  rw [hstored]
  refine ⟨?_, hvalid, hle⟩
  unfold DeletionLedger.accountGeneration
  rw [hg]
  simp only [hvalid, if_true]

theorem OrderlyFile.pos (h : OrderlyFile deleted file) : 1 ≤ storedGeneration file :=
  (validGeneration_iff.mp h.accountGeneration.2.1).1

theorem OrderlyAccount.fileAt (h : OrderlyAccount s) : OrderlyFile (tombstone s) (fileAt s) := by
  unfold Orderly.fileAt
  cases hs : s.file with
  | none => exact .empty _
  | some file => exact h.file file hs

theorem OrderlyAccount.receipt {credential : DeletionCredential} {receipt : DeletionReceipt}
    (ho : OrderlyAccount s) (h : s.receipts.lookup credential = some receipt) :
    validDeletionReceipt receipt credential.method = true := by
  obtain ⟨before, after, hsplit, -⟩ := List.lookup_eq_some_iff.mp h
  exact ho.receipts (credential, receipt) (by rw [hsplit]; simp)

theorem OrderlyAccount.tombstone_valid (h : OrderlyAccount s) (hpos : 1 ≤ tombstone s) :
    validGeneration (tombstone s) = true := by
  unfold tombstone at hpos ⊢
  cases hrec : s.deletionRecord with
  | none =>
    rw [hrec] at hpos
    exact absurd hpos (by decide)
  | some record =>
    have hvalid := h.ledger.deletion record hrec
    simp only [DeletionRecord.valid, Bool.and_eq_true] at hvalid
    exact hvalid.1.2

/-! ## What either side may do -/

/-- What calls without the lock do to a call that holds it: files are migrated
or removed, and one made anew is of a deleted generation. -/
structure Foreign (s t : AccountDisk) : Prop where
  ledger : SameLedger s t
  file : ∀ file', t.file = some file' → (∃ file, s.file = some file ∧ OpenedAs file file') ∨
    (1 ≤ tombstone s ∧ ∃ inode, OpenedAs (.empty inode) file')
  present : Present s → Present t

/-- What any call does to the others. -/
structure Onward (s t : AccountDisk) : Prop where
  orderly : OrderlyAccount s → OrderlyAccount t
  tombstone : tombstone s ≤ tombstone t
  present : Present s → Present t

theorem Onward.refl (s : AccountDisk) : Onward s s := ⟨id, le_refl _, id⟩

theorem Onward.trans (h : Onward s t) (h' : Onward t u) : Onward s u :=
  ⟨fun hs => h'.orderly (h.orderly hs), h.tombstone.trans h'.tombstone,
    fun hs => h'.present (h.present hs)⟩

theorem Foreign.refl (s : AccountDisk) : Foreign s s :=
  ⟨.refl s, fun file' h => .inl ⟨file', h, .inl rfl⟩, id⟩

theorem Foreign.trans (h : Foreign s t) (h' : Foreign t u) : Foreign s u := by
  refine ⟨h.ledger.trans h'.ledger, fun file'' hfile'' => ?_, fun hs => h'.present (h.present hs)⟩
  rcases h'.file file'' hfile'' with ⟨file', hfile', hopen'⟩ | ⟨hpos, inode, hopen'⟩
  · rcases h.file file' hfile' with ⟨file, hfile, hopen⟩ | ⟨hpos, inode, hopen⟩
    · exact .inl ⟨file, hfile, OpenedAs.trans hopen hopen'⟩
    · exact .inr ⟨hpos, inode, OpenedAs.trans hopen hopen'⟩
  · rw [h.ledger.tombstone] at hpos
    exact .inr ⟨hpos, inode, hopen'⟩

theorem OrderlyAccount.congr (h : OrderlyAccount s) (hl : SameLedger s t)
    (hf : ∀ file', t.file = some file' → (∃ file, s.file = some file ∧ OpenedAs file file') ∨
      ∃ inode, OpenedAs (.empty inode) file') : OrderlyAccount t := by
  refine ⟨⟨fun record hr => ?_, fun record hr => ?_⟩, fun file' hfile' => ?_,
    fun file' hfile' hpos hlt => ?_, hl.receipts ▸ h.receipts⟩
  · exact h.ledger.deletion record (hl.deletionRecord ▸ hr)
  · exact h.ledger.lifecycle record (hl.lifecycleRecord ▸ hr)
  · rw [hl.tombstone]
    rcases hf file' hfile' with ⟨file, hfile, hopen⟩ | ⟨inode, hopen⟩
    · exact (h.file file hfile).openedAs hopen
    · exact (OrderlyFile.empty inode).openedAs hopen
  · rw [hl.tombstone] at hpos hlt
    rcases hf file' hfile' with ⟨file, hfile, hopen⟩ | ⟨inode, hopen⟩
    · rw [hl.lifecycleRecord, hopen.storedGeneration]
      rw [hopen.storedGeneration] at hlt
      exact h.bound file hfile hpos hlt
    · rw [hopen.storedGeneration, storedGeneration_empty] at hlt
      omega

theorem Foreign.onward (h : Foreign s t) : Onward s t where
  orderly hs := hs.congr h.ledger fun file' hfile' => (h.file file' hfile').imp_right And.right
  tombstone := h.ledger.tombstone.ge
  present := h.present

/-- Nothing without the lock makes an account live. -/
theorem Foreign.live (h : Foreign s t) (hfile' : t.file = some file')
    (hlt : tombstone t < storedGeneration file') :
    ∃ file, s.file = some file ∧ OpenedAs file file' := by
  rcases h.file file' hfile' with hfrom | ⟨hpos, inode, hopen⟩
  · exact hfrom
  · rw [h.ledger.tombstone, hopen.storedGeneration, storedGeneration_empty] at hlt
    omega

theorem Foreign.dead (h : Foreign s t) (hs : ¬ Live s) : ¬ Live t := by
  rintro ⟨file', hfile', hlt⟩
  obtain ⟨file, hfile, hopen⟩ := h.live hfile' hlt
  rw [h.ledger.tombstone, hopen.storedGeneration] at hlt
  exact hs ⟨file, hfile, hlt⟩

theorem Foreign.below (hpos : 1 ≤ generation) (h : Foreign s t) (hs : Below generation s) :
    Below generation t := by
  intro file' hfile'
  rcases h.file file' hfile' with ⟨file, hfile, hopen⟩ | ⟨-, inode, hopen⟩
  · rw [hopen.storedGeneration]
    exact hs file hfile
  · rw [hopen.storedGeneration, storedGeneration_empty]
    exact hpos

theorem OrderlyAccount.quiet (hs : OrderlyAccount s) (h : Quiet s t) : OrderlyAccount t :=
  hs.congr h.ledger fun file' hfile' => by
    rcases h.file file' hfile' with hfrom | ⟨-, hopen⟩
    · exact .inl hfrom
    · exact .inr ⟨_, hopen⟩

theorem Present.quiet (hs : Present s) (h : Quiet s t) : Present t := fun hzero =>
  h.kept (hs (h.ledger.tombstone ▸ hzero))

theorem onward_of_quiet (h : Quiet s t) : Onward s t :=
  ⟨fun hs => hs.quiet h, h.ledger.tombstone.ge, fun hs => hs.quiet h⟩

/-- A reading step on an account that has a file, or had one. -/
structure Peek (s t : AccountDisk) : Prop where
  quiet : Quiet s t
  foreign : Foreign s t

theorem Peek.refl (s : AccountDisk) : Peek s s := ⟨.refl s, .refl s⟩

theorem Present.peek (hs : Present s) (h : Quiet s t) : Peek s t := by
  refine ⟨h, h.ledger, fun file' hfile' => ?_, fun hs => hs.quiet h⟩
  rcases h.file file' hfile' with hfrom | ⟨hnone, hopen⟩
  · exact .inl hfrom
  · refine .inr ⟨?_, _, hopen⟩
    by_contra hzero
    have hsome := hs (by omega)
    rw [hnone] at hsome
    cases hsome

theorem peek_of_file (h : Quiet s t)
    (hfile : ∀ file', t.file = some file' → ∃ file, s.file = some file ∧ OpenedAs file file') :
    Peek s t :=
  ⟨h, h.ledger, fun file' hfile' => .inl (hfile file' hfile'), fun hs => hs.quiet h⟩

end

/-! ## Reading such an account

`R` is what the others do between two steps: `Foreign` under the lock, `Onward`
without it. -/

section Peeks
variable {R : AccountDisk → AccountDisk → Prop} {α β : Type} {s : AccountDisk}

/-- A program of reading steps, and what its outcome says of where it began and
ended. -/
def Peeks (R : AccountDisk → AccountDisk → Prop) (Q : Except StoreError α → AccountDisk → Prop)
    (x : DiskOp α) (s : AccountDisk) : Prop :=
  Meets R Peek (fun r t => R s t ∧ Q r t) x s

theorem Peeks.imp {Q T : Except StoreError α → AccountDisk → Prop} {x : DiskOp α}
    (h : Peeks R Q x s) (hQ : ∀ r t, R s t → Q r t → T r t) : Peeks R T x s :=
  Meets.imp h fun r t hr => ⟨hr.1, hQ r t hr.1 hr.2⟩

variable (hrefl : ∀ a, R a a) (htrans : ∀ a b c, R a b → R b c → R a c)
  (hpeek : ∀ a b, Peek a b → R a b) (hon : ∀ a b, R a b → Onward a b)

section
include htrans

theorem Peeks.bind {Q : Except StoreError α → AccountDisk → Prop}
    {T : Except StoreError β → AccountDisk → Prop} {x : DiskOp α} {k : α → DiskOp β}
    (h : Peeks R Q x s) (hok : ∀ a t, R s t → Q (.ok a) t → Peeks R T (k a) t)
    (herr : ∀ e t, R s t → Q (.error e) t → T (.error e) t) : Peeks R T (x >>= k) s :=
  Meets.bind h
    (fun a t hr => Meets.imp (hok a t hr.1 hr.2) fun _ _ hu => ⟨htrans _ _ _ hr.1 hu.1, hu.2⟩)
    (fun e t hr => ⟨hr.1, herr e t hr.1 hr.2⟩)

include hpeek

theorem Peeks.step {f : AccountDisk → α × AccountDisk} (h : Peek s (f s).2) :
    Peeks R (fun r _ => r = .ok (f s).1) (Op.step f) s :=
  ⟨h, fun _ ht => ⟨htrans _ _ _ (hpeek _ _ h) ht, rfl⟩⟩

theorem Peeks.tryRead {f : AccountDisk → Except StoreError α} :
    Peeks R (fun r _ => r = f s) (Op.tryRead f) s :=
  ⟨.refl s, fun _ ht => ⟨htrans _ _ _ (hpeek _ _ (.refl s)) ht, rfl⟩⟩

theorem peeks_present :
    Peeks R (fun r _ => r = .ok s.file.isSome) (Op.read fun disk => disk.file.isSome) s :=
  Peeks.step htrans hpeek (.refl s)

theorem peeks_closeDatabase (db : DatabaseFile) :
    Peeks R (fun r _ => r = .ok ()) (closeDatabase db) s := by
  refine Peeks.step htrans hpeek (peek_of_file ?_ fun file' hfile' => ⟨file', ?_, .inl rfl⟩)
  · dsimp only
    split
    · exact ⟨⟨rfl, rfl, rfl⟩, fun f hf => .inl ⟨f, hf, .inl rfl⟩, id⟩
    · exact Quiet.refl s
  · dsimp only at hfile'
    split at hfile' <;> exact hfile'

theorem peeks_connectDatabase (hp : Present s) :
    Peeks R (fun r _ => r = .ok (fileAt s)) connectDatabase s := by
  unfold connectDatabase
  refine (Peeks.step htrans hpeek (hp.peek ?_)).imp fun r _ _ hr => ?_
  · cases h : s.file with
    | none =>
      exact ⟨⟨rfl, rfl, rfl⟩, fun f hf => .inr ⟨h, .inl (Option.some.inj hf).symm⟩, fun _ => rfl⟩
    | some file => exact ⟨⟨rfl, rfl, rfl⟩, fun f hf => .inl ⟨f, h.trans hf, .inl rfl⟩, fun _ => rfl⟩
  · rw [hr, fileAt]
    cases s.file <;> rfl

theorem peeks_accountLifecycle (ho : OrderlyAccount s) :
    Peeks R (fun r _ => r = .ok s.lifecycleRecord) accountLifecycle s := by
  refine (Peeks.tryRead htrans hpeek).imp fun r _ _ hr => ?_
  have hexec := exec_accountLifecycle ho.ledger
  rw [accountLifecycle, Op.exec_tryRead] at hexec
  exact hr.trans (Prod.mk.inj hexec).1

theorem peeks_readDeletionRecord (ho : OrderlyAccount s) :
    Peeks R (fun r _ => r = .ok (tombstone s)) readDeletionRecord s := by
  refine (Peeks.tryRead htrans hpeek).imp fun r _ _ hr => ?_
  have hexec := exec_readDeletionRecord ho.ledger
  rw [readDeletionRecord, Op.exec_tryRead] at hexec
  exact hr.trans (Prod.mk.inj hexec).1

/-- An open finds the file that is there, or makes one. -/
theorem peeks_openDatabase (ho : OrderlyAccount s) (hp : Present s) :
    Peeks R (fun r _ => r = .ok (fileAt s).migrate) openDatabase s := by
  refine (peeks_connectDatabase htrans hpeek hp).bind htrans (fun db t _ hdb => ?_)
    fun e _ _ h => by cases h
  obtain rfl := Except.ok.inj hdb
  have hsupported : (fileAt s).schemaVersion ≤ currentSchemaVersion := ho.fileAt.supported
  rw [migrateDatabase, Peeks, meets_bind, meets_require]
  simp only [hsupported, decide_true, if_true]
  have hmigrate : Peek t (t.updateFile (fileAt s).inode DatabaseFile.migrate) := by
    refine peek_of_file (quiet_updateFile_migrate t _) fun file' hfile' => ?_
    simp only [AccountDisk.updateFile, Option.map_eq_some_iff] at hfile'
    obtain ⟨file, hfile, rfl⟩ := hfile'
    refine ⟨file, hfile, ?_⟩
    split
    · exact .inr rfl
    · exact .inl rfl
  exact ⟨hmigrate, fun _ hu => ⟨htrans _ _ _ (hpeek _ _ hmigrate) hu, rfl⟩⟩

include hrefl

theorem peeks_readStoredAccountGeneration (ho : OrderlyAccount s) (hp : Present s) :
    Peeks R (fun r _ => r = .ok (storedGeneration (fileAt s))) readStoredAccountGeneration s := by
  refine (peeks_openDatabase htrans hpeek ho hp).bind htrans (fun db t _ hdb => ?_)
    fun e _ _ h => by cases h
  obtain rfl := Except.ok.inj hdb
  refine (peeks_closeDatabase htrans hpeek _).bind htrans (fun _ u _ _ => ?_)
    fun e _ _ h => by cases h
  rw [ho.fileAt.accountGeneration.1]
  exact ⟨hrefl u, rfl⟩

/-- The file read at `u` is above `deleted`, and the ledger at `v` does not bind it. -/
def Unbound (R : AccountDisk → AccountDisk → Prop) (deleted : Nat) (s : AccountDisk) : Prop :=
  ∃ u v, R s u ∧ R u v ∧ Present u ∧ deleted < storedGeneration (fileAt u) ∧
    bindsActive v.lifecycleRecord (storedGeneration (fileAt u)) = false

include hon

theorem peeks_validateStoredAccountLifecycle (deleted : Nat) (ho : OrderlyAccount s) :
    Peeks R (fun r _ => r = .ok () ∨ (∃ message, r = .error (.failure message)) ∧
      Unbound R deleted s) (validateStoredAccountLifecycle deleted) s := by
  refine (peeks_present htrans hpeek).bind htrans (fun present t hst hpresent => ?_)
    fun e _ _ h => by cases h
  obtain rfl := Except.ok.inj hpresent
  cases hfile : s.file with
  | none => exact ⟨hrefl t, .inl rfl⟩
  | some file =>
    have hp : Present s := fun _ => by rw [hfile]; rfl
    have ho' := (hon _ _ hst).orderly ho
    have hp' := (hon _ _ hst).present hp
    refine (peeks_readStoredAccountGeneration hrefl htrans hpeek ho' hp').bind htrans
      (fun generation u htu hg => ?_) fun e _ _ h => by cases h
    obtain rfl := Except.ok.inj hg
    by_cases hle : storedGeneration (fileAt t) ≤ deleted
    · rw [if_pos hle]
      exact ⟨hrefl u, .inl rfl⟩
    · rw [if_neg hle]
      refine (peeks_accountLifecycle htrans hpeek ((hon _ _ htu).orderly ho')).bind htrans
        (fun lifecycle v _ hl => ?_) fun e _ _ h => by cases h
      obtain rfl := Except.ok.inj hl
      rw [Peeks, meets_require]
      by_cases hb : bindsActive u.lifecycleRecord (storedGeneration (fileAt t)) = true
      · rw [if_pos hb]
        exact ⟨hrefl v, .inl rfl⟩
      · rw [if_neg hb]
        exact ⟨hrefl v, .inr ⟨⟨_, rfl⟩, t, u, hst, htu, hp', by omega, by simpa using hb⟩⟩

/-- The ledger read returns the tombstone it began with, unless a live file is
not bound to the ledger. -/
theorem peeks_deletedGeneration (ho : OrderlyAccount s) :
    Peeks R (fun r _ => r = .ok (tombstone s) ∨ (∃ message, r = .error (.failure message)) ∧
      Unbound R (tombstone s) s) deletedGeneration s := by
  refine (peeks_readDeletionRecord htrans hpeek ho).bind htrans (fun deleted t hst hd => ?_)
    fun e _ _ h => by cases h
  obtain rfl := Except.ok.inj hd
  refine (peeks_validateStoredAccountLifecycle hrefl htrans hpeek hon _
    ((hon _ _ hst).orderly ho)).bind htrans (fun _ u _ _ => ⟨hrefl u, .inl rfl⟩) fun e u _ h => ?_
  rcases h with h | ⟨⟨message, h⟩, v, w, htv, hvw, hunbound⟩
  · cases h
  · cases h
    exact .inr ⟨⟨message, rfl⟩, v, w, htrans _ _ _ hst htv, hvw, hunbound⟩

/-- The file of an open was at the path, or was made there. -/
theorem peeks_openStoredAccount (ho : OrderlyAccount s) :
    Peeks R (fun r t => s.file = none ∧ r = .error .notFound ∨
      ∃ u, R s u ∧ R u t ∧ Present u ∧
        r = .ok ((fileAt u).migrate, storedGeneration (fileAt u))) openStoredAccount s := by
  refine (peeks_present htrans hpeek).bind htrans (fun present t hst hpresent => ?_)
    fun e _ _ h => by cases h
  obtain rfl := Except.ok.inj hpresent
  cases hfile : s.file with
  | none => exact ⟨hrefl t, .inl ⟨rfl, rfl⟩⟩
  | some file =>
    have hp : Present s := fun _ => by rw [hfile]; rfl
    have ho' := (hon _ _ hst).orderly ho
    have hp' := (hon _ _ hst).present hp
    refine (peeks_openDatabase htrans hpeek ho' hp').bind htrans (fun db u htu hdb => ?_)
      fun e _ _ h => by cases h
    obtain rfl := Except.ok.inj hdb
    rw [ho'.fileAt.accountGeneration.1]
    exact ⟨hrefl u, .inr ⟨t, hst, htu, hp', rfl⟩⟩

omit hrefl hon in
theorem peeks_readDeletionReceipt (credential : DeletionCredential) (ho : OrderlyAccount s) :
    Peeks R (fun r _ => r = .ok (s.receipts.lookup credential))
      (readDeletionReceipt credential) s := by
  refine (Peeks.tryRead htrans hpeek).imp fun r _ _ hr => ?_
  cases hlookup : s.receipts.lookup credential with
  | none => simpa only [hlookup] using hr
  | some receipt => simpa only [hlookup, ho.receipt hlookup, if_true] using hr

/-- What `CommittedDeletionReceipt` answers: the stored receipt, once the
tombstone covers it, or none. -/
inductive CommittedReceipt (R : AccountDisk → AccountDisk → Prop) (s t : AccountDisk)
    (credential : DeletionCredential) : Except StoreError (Option DeletionReceipt) → Prop where
  | unauthorized (h : credential.tokenHash = 0) : CommittedReceipt R s t credential (.error .unauthorized)
  | committed {receipt} (hhash : credential.tokenHash ≠ 0)
      (hstored : s.receipts.lookup credential = some receipt)
      (hvalid : validDeletionReceipt receipt credential.method = true)
      (hle : receipt.generation ≤ tombstone t) : CommittedReceipt R s t credential (.ok (some receipt))
  | none (hhash : credential.tokenHash ≠ 0) : CommittedReceipt R s t credential (.ok none)
  | unbound {message u} (hhash : credential.tokenHash ≠ 0) (hu : R s u)
      (h : Unbound R (tombstone u) u) : CommittedReceipt R s t credential (.error (.failure message))

theorem peeks_committedDeletionReceipt (credential : DeletionCredential) (ho : OrderlyAccount s) :
    Peeks R (fun r t => CommittedReceipt R s t credential r)
      (committedDeletionReceipt credential) s := by
  rw [committedDeletionReceipt, Peeks, meets_bind, meets_lift, deletionReceiptPath]
  by_cases hzero : credential.tokenHash = 0
  · rw [if_pos hzero]
    exact ⟨hrefl s, .unauthorized hzero⟩
  rw [if_neg hzero]
  refine (peeks_readDeletionReceipt htrans hpeek credential ho).bind htrans
    (fun found t hst hfound => ?_) fun e _ _ h => by cases h
  obtain rfl := Except.ok.inj hfound
  cases hstored : s.receipts.lookup credential with
  | none => exact ⟨hrefl t, .none hzero⟩
  | some receipt =>
    refine (peeks_deletedGeneration hrefl htrans hpeek hon ((hon _ _ hst).orderly ho)).bind htrans
      (fun deleted u htu hd => ?_) fun e u htu h => ?_
    · rcases hd with hd | ⟨⟨_, h⟩, -⟩
      · obtain rfl := Except.ok.inj hd
        have hmono := (hon _ _ htu).tombstone
        by_cases hlt : tombstone t < receipt.generation
        · rw [if_pos hlt]
          exact ⟨hrefl u, .none hzero⟩
        · rw [if_neg hlt]
          exact ⟨hrefl u, .committed hzero hstored (ho.receipt hstored) (by omega)⟩
      · cases h
    · rcases h with h | ⟨⟨message, h⟩, hunbound⟩
      · cases h
      · cases h
        exact .unbound hzero hst hunbound

end

end Peeks

section
variable {s t : AccountDisk}

theorem foreign_trans (a b c : AccountDisk) : Foreign a b → Foreign b c → Foreign a c := .trans

theorem foreign_of_peek (a b : AccountDisk) (h : Peek a b) : Foreign a b := h.foreign

theorem onward_of_foreign (a b : AccountDisk) (h : Foreign a b) : Onward a b := h.onward

theorem foreign_ledger (a b : AccountDisk) (h : Foreign a b) : SameLedger a b := h.ledger

/-- Only the first generation of an account can be unbound. -/
theorem Unbound.first (ho : OrderlyAccount s) (h : Unbound Foreign (tombstone s) s) :
    tombstone s = 0 ∧ s.file.isSome = true := by
  obtain ⟨u, v, hsu, huv, hp, hlt, hunbound⟩ := h
  have htomb := hsu.ledger.tombstone
  cases hu : u.file with
  | none =>
    rw [fileAt, hu, Option.getD_none, storedGeneration_empty] at hlt
    have hsome := hp (by omega)
    rw [hu] at hsome
    cases hsome
  | some file =>
    rw [fileAt, hu, Option.getD_some] at hlt hunbound
    rw [huv.ledger.lifecycleRecord] at hunbound
    have hzero : tombstone s = 0 := by
      by_contra hpos
      have hbound := (hsu.onward.orderly ho).bound file hu (by omega) (by omega)
      rw [hbound] at hunbound
      cases hunbound
    obtain ⟨file₀, hfile₀, -⟩ := hsu.live hu (by omega)
    exact ⟨hzero, by rw [hfile₀]; rfl⟩

theorem Foreign.unbound (h : Foreign s t) (ho : OrderlyAccount s)
    (hu : Unbound Foreign (tombstone t) t) : tombstone s = 0 ∧ s.file.isSome = true := by
  obtain ⟨u, v, htu, huv, hrest⟩ := hu
  rw [h.ledger.tombstone] at hrest
  exact Unbound.first ho ⟨u, v, h.trans htu, huv, hrest⟩

end

/-! ## Opening without the lock -/

section Unlocked
variable {s : AccountDisk}

theorem onward_trans (a b c : AccountDisk) : Onward a b → Onward b c → Onward a c := .trans

theorem onward_of_peek (a b : AccountDisk) (h : Peek a b) : Onward a b := h.foreign.onward

theorem Peeks.unlocked {α : Type} {Q : Except StoreError α → AccountDisk → Prop} {x : DiskOp α}
    (h : Peeks Onward Q x s) : Meets Onward Foreign (fun r t => Onward s t ∧ Q r t) x s :=
  Meets.mono h (fun _ _ => id) (fun _ _ hp => hp.foreign) fun _ _ => id

theorem foreign_trim {wal shm : Bool} : Foreign s { s with wal, shm } :=
  ⟨⟨rfl, rfl, rfl⟩, fun file h => .inl ⟨file, h, .inl rfl⟩, id⟩

/-- Only an account that has been deleted once loses its file. -/
theorem foreign_remove (hpos : 1 ≤ tombstone s) : Foreign s { s with file := none } := by
  refine ⟨⟨rfl, rfl, rfl⟩, fun file h => (by cases h), fun _ hzero => ?_⟩
  rw [show tombstone { s with file := none } = tombstone s from rfl] at hzero
  omega

theorem unlocked_removeUserFiles (hpos : 1 ≤ tombstone s) :
    Meets Onward Foreign (fun _ t => Onward s t) removeUserFiles s := by
  refine Meets.bind (Q := fun _ t => Onward s t)
    ⟨foreign_trim, fun t ht => foreign_trim.onward.trans ht⟩ (fun _ t ht => ?_) fun _ _ ht => ht
  refine Meets.bind (Q := fun _ u => Onward s u)
    ⟨foreign_trim, fun u hu => (ht.trans foreign_trim.onward).trans hu⟩ (fun _ u hu => ?_)
    fun _ _ hu => hu
  have hremove := foreign_remove (hpos.trans hu.tombstone)
  exact ⟨hremove, fun v hv => (hu.trans hremove.onward).trans hv⟩

/-- An open without the lock, whatever the others do meanwhile. -/
theorem unlocked_openExistingUser (ho : OrderlyAccount s) :
    Meets Onward Foreign (fun r t => Onward s t ∧ ∀ db, r = .ok db →
      ∃ generation, db.generation = some generation ∧ 1 ≤ generation ∧
        generation ≤ tombstone t + 1) openExistingUser s := by
  refine Meets.bind (peeks_openStoredAccount Onward.refl onward_trans
    onward_of_peek (fun _ _ => id) ho).unlocked (fun found t ⟨hst, hfound⟩ => ?_)
    fun e t ht => ⟨ht.1, fun _ h => by cases h⟩
  rcases hfound with ⟨-, h⟩ | ⟨u, hsu, hut, -, hr⟩
  · cases h
  obtain rfl := Except.ok.inj hr
  have hfile := (hsu.orderly ho).fileAt
  obtain ⟨hgen, hvalid, hle⟩ := hfile.accountGeneration
  refine Meets.bind (peeks_deletedGeneration Onward.refl onward_trans
    onward_of_peek (fun _ _ => id) (hst.orderly ho)).unlocked (fun deleted v ⟨htv, hd⟩ => ?_)
    fun e v hv => ⟨hst.trans hv.1, fun _ h => by cases h⟩
  have hdeleted : deleted = tombstone t := by
    rcases hd with hd | ⟨⟨_, h⟩, -⟩
    · exact Except.ok.inj hd
    · cases h
  by_cases hlt : deleted < storedGeneration (fileAt u)
  · rw [if_pos hlt]
    refine ⟨hst.trans htv, fun db h => ?_⟩
    cases h
    have hmono := (hut.trans htv).tombstone
    exact ⟨_, (accountGeneration_ok hgen).1, hfile.pos, by omega⟩
  · rw [if_neg hlt]
    have hpos := hfile.pos
    have hpos' : 1 ≤ tombstone v := by
      have hmono := htv.tombstone
      omega
    refine Meets.bind (peeks_closeDatabase onward_trans onward_of_peek _).unlocked
      (fun _ w ⟨hvw, _⟩ => ?_) fun e w hw => ⟨(hst.trans htv).trans hw.1, fun _ h => by cases h⟩
    refine Meets.bind (unlocked_removeUserFiles (hpos'.trans hvw.tombstone)) (fun _ x hx => ?_)
      fun e x hx => ⟨((hst.trans htv).trans hvw).trans hx, fun _ h => by cases h⟩
    exact ⟨((hst.trans htv).trans hvw).trans hx, fun _ h => by cases h⟩

end Unlocked

end Pomodorough.Store.Orderly
