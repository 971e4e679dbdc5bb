import Pomodorough.Library.Serialized
import Pomodorough.Store.LedgerSpec

/-! # Opening an existing account without its lock

`authenticateCredential` opens the account before any handler takes its lock.
The open reads the file's generation, then the ledger, and removes the files at
the path when the ledger calls that generation deleted; deletions and
recreations of the account, which do hold the lock, run in between. -/
namespace Pomodorough.Store.UnlockedOpen
open Pomodorough.Library.AtomicSteps Pomodorough.Library.Serialized
open Pomodorough.Store.Records Pomodorough.Store.DeletionLedger Pomodorough.Store.Accounts
open Pomodorough.Store.LedgerSpec

/-! ## What either side does to the other -/

/-- What unlocked opens do to an account: files are migrated or removed. -/
structure Unlocked (s t : AccountDisk) : Prop where
  ledger : SameLedger s t
  file : ∀ file', t.file = some file' → ∃ file, s.file = some file ∧ OpenedAs file file'

/-- What a call that holds the lock does: a deletion leaves no live file, and
only a deleted file is removed. -/
structure Guarded (s t : AccountDisk) : Prop where
  tombstone : tombstone s ≤ tombstone t
  deletes : LedgerSpec.tombstone s < LedgerSpec.tombstone t → ¬ Live t
  removes : t.file = none → s.file.isSome → ¬ Live s

/-- The file at the path is of this generation at most. -/
def Below (generation : Nat) (disk : AccountDisk) : Prop :=
  ∀ file, disk.file = some file → storedGeneration file ≤ generation

section
variable {s t u : AccountDisk} {generation : Nat}

theorem OpenedAs.trans {a b c : DatabaseFile} (h : OpenedAs a b) (h' : OpenedAs b c) :
    OpenedAs a c := by
  rcases h with rfl | rfl
  · exact h'
  · rcases h' with rfl | rfl
    · exact .inr rfl
    · exact .inr (migrate_migrate a)

theorem Unlocked.refl (s : AccountDisk) : Unlocked s s :=
  ⟨.refl s, fun file h => ⟨file, h, .inl rfl⟩⟩

theorem Unlocked.trans (h : Unlocked s t) (h' : Unlocked t u) : Unlocked s u := by
  refine ⟨h.ledger.trans h'.ledger, fun file'' hfile'' => ?_⟩
  obtain ⟨file', hfile', hopen'⟩ := h'.file file'' hfile''
  obtain ⟨file, hfile, hopen⟩ := h.file file' hfile'
  exact ⟨file, hfile, OpenedAs.trans hopen hopen'⟩

/-- Nothing unlocked makes an account live. -/
theorem Unlocked.live (h : Unlocked s t) (ht : Live t) : Live s := by
  obtain ⟨file', hfile', hlt⟩ := ht
  obtain ⟨file, hfile, hopen⟩ := h.file file' hfile'
  rw [h.ledger.tombstone, hopen.storedGeneration] at hlt
  exact ⟨file, hfile, hlt⟩

theorem Unlocked.below (h : Unlocked s t) (hs : Below generation s) : Below generation t := by
  intro file' hfile'
  obtain ⟨file, hfile, hopen⟩ := h.file file' hfile'
  rw [hopen.storedGeneration]
  exact hs file hfile

theorem Unlocked.missing (h : Unlocked s t) (hs : s.file = none) : t.file = none := by
  cases ht : t.file with
  | none => rfl
  | some file' =>
    obtain ⟨file, hfile, -⟩ := h.file file' ht
    rw [hs] at hfile
    cases hfile

theorem below_quiet (hpos : 1 ≤ generation) (h : Quiet s t) (hs : Below generation s) :
    Below generation t := by
  intro file' hfile'
  rcases h.file file' hfile' with ⟨file, hfile, hopen⟩ | ⟨-, hopen⟩
  · rw [hopen.storedGeneration]
    exact hs file hfile
  · rw [hopen.storedGeneration, storedGeneration_empty]
    exact hpos

theorem not_live_of_below (hs : Below generation s) (hle : generation ≤ tombstone s) :
    ¬ Live s := by
  rintro ⟨file, hfile, hlt⟩
  have hgen := hs file hfile
  omega

/-- Steps that raise no tombstone and remove no file are always allowed. -/
theorem guarded_of_kept (htomb : tombstone t = tombstone s)
    (hfile : t.file = none → s.file = none) : Guarded s t where
  tombstone := htomb.ge
  deletes hlt := absurd hlt (by omega)
  removes hnone hsome := by
    rw [hfile hnone] at hsome
    cases hsome

theorem guarded_of_quiet (s t : AccountDisk) (h : Quiet s t) : Guarded s t := by
  refine guarded_of_kept h.ledger.tombstone fun hnone => ?_
  by_contra hsome
  have hkept := h.kept (Option.isSome_iff_ne_none.mpr hsome)
  rw [hnone] at hkept
  cases hkept

end

/-! ## Calls that hold the lock -/

section Locked
variable {α β : Type} {s : AccountDisk} {generation : Nat}

/-- A reading program under the lock; what it says of the disk at its end. -/
def Looks (Q : α → AccountDisk → Prop) (x : DiskOp α) (s : AccountDisk) : Prop :=
  Meets Unlocked Quiet (fun r t => SameLedger s t ∧ ∀ a, r = .ok a → Q a t) x s

theorem Looks.of_reads {Q : α → Prop} {P : AccountDisk → Prop} {x : DiskOp α}
    (h : Reads Unlocked Q x s) (hPR : ∀ a b, Unlocked a b → P a → P b)
    (hPQ : ∀ a b, Quiet a b → P a → P b) (hs : P s) :
    Looks (fun a t => Q a ∧ P t) x s :=
  Meets.imp (h.keep (fun _ _ => id) hPR hPQ hs) fun _ _ hr =>
    ⟨hr.1, fun a ha => ⟨hr.2.2 a ha, hr.2.1⟩⟩

theorem Looks.bind {Q : α → AccountDisk → Prop} {T : β → AccountDisk → Prop} {x : DiskOp α}
    {k : α → DiskOp β} (h : Looks Q x s)
    (hk : ∀ a t, SameLedger s t → Q a t → Looks T (k a) t) : Looks T (x >>= k) s :=
  Meets.bind h
    (fun a t hr => Meets.imp (hk a t hr.1 (hr.2 a rfl)) fun _ _ hu => ⟨hr.1.trans hu.1, hu.2⟩)
    (fun _ _ hr => ⟨hr.1, fun _ hb => by cases hb⟩)

/-- A reading program before the rest of a call. -/
theorem Looks.guarded {Q : α → AccountDisk → Prop} {T : Except StoreError β → AccountDisk → Prop}
    {x : DiskOp α} {k : α → DiskOp β} (h : Looks Q x s)
    (hk : ∀ a t, SameLedger s t → Q a t → Meets Unlocked Guarded T (k a) t)
    (herr : ∀ e t, SameLedger s t → T (.error e) t) : Meets Unlocked Guarded T (x >>= k) s :=
  Meets.bind (Meets.mono h (fun _ _ => id) guarded_of_quiet fun _ _ => id)
    (fun a t hr => hk a t hr.1 (hr.2 a rfl)) (fun e t hr => herr e t hr.1)

theorem unlocked_ledger (a b : AccountDisk) (h : Unlocked a b) : SameLedger a b := h.ledger

theorem looks_present :
    Looks (fun present t => present = false → t.file = none)
      (Op.read fun disk => disk.file.isSome) s := by
  refine ⟨Quiet.refl s, fun t ht => ⟨ht.ledger, fun present h hfalse => ?_⟩⟩
  cases h
  exact ht.missing (Option.not_isSome_iff_eq_none.mp (Bool.not_eq_true _ ▸ hfalse))

/-- While a call holds the lock, the file at the path stays the one it opened. -/
theorem looks_openDatabase :
    Looks (fun db t => db.migrate = db ∧ Below (storedGeneration db) t) openDatabase s := by
  have hbelow : Meets Unlocked (fun _ _ => True)
      (fun r t => ∀ db, r = .ok db → Below (storedGeneration db) t) openDatabase s := by
    refine Meets.bind (Q := fun r t => ∀ db, r = .ok db → Below (storedGeneration db) t) ?_
      (fun db t hdb => ?_) fun _ _ _ _ h => by cases h
    · refine ⟨trivial, fun t ht db h => ht.below ?_⟩
      cases h
      intro file hfile
      cases hs : s.file with
      | none => simp_all
      | some file' => simp_all
    · rw [migrateDatabase, meets_bind, meets_require]
      split
      case isFalse => exact fun _ h => by cases h
      case isTrue =>
      refine ⟨trivial, fun u hu db' h => hu.below ?_⟩
      cases h
      intro file' hfile'
      rw [storedGeneration_migrate]
      simp only [AccountDisk.updateFile, Option.map_eq_some_iff] at hfile'
      obtain ⟨file, hfile, rfl⟩ := hfile'
      split
      · rw [storedGeneration_migrate]
        exact hdb db rfl file hfile
      · exact hdb db rfl file hfile
  refine Meets.mono (Meets.and (reads_openDatabase unlocked_ledger s) hbelow) (fun _ _ => id)
    (fun _ _ h => h.1) fun r t h => ⟨h.1.1, fun db hdb => ⟨h.1.2 db hdb, h.2 db hdb⟩⟩

theorem storedGeneration_of_ok {db : DatabaseFile} (hdb : db.migrate = db)
    (h : accountGeneration db = .ok generation) :
    storedGeneration db = generation ∧ 1 ≤ generation := by
  obtain ⟨hgen, hpos, -⟩ := accountGeneration_ok h
  rw [storedGeneration, hdb, hgen]
  exact ⟨rfl, hpos⟩

theorem looks_closeDatabase (db : DatabaseFile) (hpos : 1 ≤ generation)
    (hs : Below generation s) : Looks (fun _ t => True ∧ Below generation t) (closeDatabase db) s :=
  .of_reads (reads_closeDatabase unlocked_ledger db s) (fun _ _ => Unlocked.below)
    (fun _ _ => below_quiet hpos) hs

theorem looks_deletedGeneration (hpos : 1 ≤ generation) (hs : Below generation s) :
    Looks (fun d t => d = tombstone s ∧ Below generation t) deletedGeneration s :=
  .of_reads (reads_deletedGeneration unlocked_ledger s) (fun _ _ => Unlocked.below)
    (fun _ _ => below_quiet hpos) hs

theorem looks_lift {r : Except StoreError α} {Q : α → AccountDisk → Prop}
    (h : ∀ a, r = .ok a → Q a s) : Looks Q (Op.lift r) s := ⟨.refl s, h⟩

theorem looks_pure {a : α} {Q : α → AccountDisk → Prop} (h : Q a s) : Looks Q (pure a) s :=
  ⟨.refl s, fun _ hb => by cases hb; exact h⟩

/-- One step that at most removes files, while they are of a deleted generation. -/
theorem guarded_trim {f : AccountDisk → AccountDisk} (hf : Unlocked s (f s))
    (hs : Below generation s) (hle : generation ≤ tombstone s) :
    Meets Unlocked Guarded (fun _ t => SameLedger s t ∧ Below generation t)
      (Op.modify f : DiskOp Unit) s := by
  refine ⟨⟨hf.ledger.tombstone.ge, fun hlt => ?_, fun _ _ => not_live_of_below hs hle⟩,
    fun t ht => ⟨(hf.trans ht).ledger, (hf.trans ht).below hs⟩⟩
  exact absurd hlt (by rw [hf.ledger.tombstone]; exact lt_irrefl _)

/-- Only a file at or below the tombstone is removed. -/
theorem guarded_removeUserFiles (hs : Below generation s) (hle : generation ≤ tombstone s) :
    Meets Unlocked Guarded (fun _ t => SameLedger s t) removeUserFiles s := by
  have hkeep : ∀ u : AccountDisk, ∀ wal shm, Unlocked u { u with wal, shm } :=
    fun u _ _ => ⟨⟨rfl, rfl, rfl⟩, fun file h => ⟨file, h, .inl rfl⟩⟩
  refine Meets.bind (guarded_trim (hkeep s false s.shm) hs hle) (fun _ t ht => ?_)
    fun _ _ ht => ht.1
  have hle' : generation ≤ tombstone t := by rw [ht.1.tombstone]; exact hle
  refine Meets.bind (guarded_trim (hkeep t t.wal false) ht.2 hle') (fun _ u hu => ?_)
    fun _ _ hu => ht.1.trans hu.1
  have hle'' : generation ≤ tombstone u := by rw [hu.1.tombstone]; exact hle'
  have hnone : Unlocked u { u with file := none } :=
    ⟨⟨rfl, rfl, rfl⟩, fun file h => by cases h⟩
  exact Meets.imp (guarded_trim hnone hu.2 hle'') fun _ _ hv => (ht.1.trans hu.1).trans hv.1

theorem guarded_recordDeletion (now : WallClock) (hpos : 1 ≤ generation)
    (hs : Below generation s) :
    Meets Unlocked Guarded (fun r t => r = .ok () → Below generation t ∧ generation ≤ tombstone t)
      (recordDeletion generation now) s := by
  refine Meets.imp (meets_recordDeletion (P := Below generation) unlocked_ledger guarded_of_quiet
    (fun _ _ => Unlocked.below) (fun _ _ => below_quiet hpos) hs (fun u hu hP => ?_)
    fun u _ _ _ hP _ => ⟨guarded_of_kept rfl id, hP⟩) fun r t ht hr => ⟨ht.1, ?_⟩
  · have htomb : tombstone (u.publishDeletionRecord (max (tombstone s) generation) now) =
        max (tombstone s) generation := rfl
    refine ⟨⟨?_, fun _ => ?_, ?_⟩, hP⟩
    · rw [htomb, hu.tombstone]
      exact le_max_left _ _
    · exact not_live_of_below hP (by rw [htomb]; exact le_max_right _ _)
    · intro hnone hsome
      rw [show u.file = none from hnone] at hsome
      cases hsome
  · rw [(ht.2.2 hr).1]
    exact le_max_right _ _

theorem looks_openStoredAccount :
    Looks (fun p t => accountGeneration p.1 = .ok p.2 ∧ 1 ≤ p.2 ∧ Below p.2 t)
      openStoredAccount s := by
  refine looks_present.bind fun present t _ _ => ?_
  cases present with
  | false => exact ⟨.refl t, fun _ h => by cases h⟩
  | true =>
    refine looks_openDatabase.bind fun db u _ ⟨hdb, hbelow⟩ => ?_
    cases hg : accountGeneration db with
    | error e =>
      have hclose : Looks (fun _ _ => True) (closeDatabase db) u :=
        Meets.imp (reads_closeDatabase unlocked_ledger db u) fun _ _ h => ⟨h.1, fun _ _ => trivial⟩
      exact hclose.bind fun _ v _ _ => ⟨.refl v, fun _ h => by cases h⟩
    | ok generation =>
      obtain ⟨heq, hpos⟩ := storedGeneration_of_ok hdb hg
      rw [heq] at hbelow
      exact looks_pure ⟨hg, hpos, hbelow⟩

/-- An open under the lock: the file it returns is the one at the path. -/
theorem guarded_openExistingUser :
    Meets Unlocked Guarded (fun r t => SameLedger s t ∧ ∀ db, r = .ok db →
        ∃ generation, accountGeneration db = .ok generation ∧ 1 ≤ generation ∧
          Below generation t)
      openExistingUser s := by
  refine looks_openStoredAccount.guarded (fun ⟨db, generation⟩ t ht ⟨hg, hpos, hbelow⟩ => ?_)
    fun e t ht => ⟨ht, fun _ h => by cases h⟩
  refine (looks_deletedGeneration hpos hbelow).guarded (fun deleted u hu ⟨hd, hbelow'⟩ => ?_)
    fun e u hu => ⟨ht.trans hu, fun _ h => by cases h⟩
  dsimp only at hg hpos hbelow' ⊢
  by_cases hlt : deleted < generation
  · rw [if_pos hlt]
    refine ⟨ht.trans hu, fun db' h => ?_⟩
    cases h
    exact ⟨generation, hg, hpos, hbelow'⟩
  · rw [if_neg hlt]
    refine (looks_closeDatabase db hpos hbelow').guarded (fun _ v hv ⟨_, hbelow''⟩ => ?_)
      fun e v hv => ⟨(ht.trans hu).trans hv, fun _ h => by cases h⟩
    have hle : generation ≤ tombstone v := by
      rw [hv.tombstone, hu.tombstone]
      omega
    refine Meets.bind (guarded_removeUserFiles hbelow'' hle) (fun _ w hw => ?_) fun e w hw => ?_
    · exact ⟨((ht.trans hu).trans hv).trans hw, fun _ h => by cases h⟩
    · exact ⟨((ht.trans hu).trans hv).trans hw, fun _ h => by cases h⟩

theorem looks_currentOrNextAccountGeneration :
    Looks (fun g t => 1 ≤ g ∧ Below g t) currentOrNextAccountGeneration s := by
  have hdeleted : Looks (fun _ _ => True) deletedGeneration s :=
    Meets.imp (reads_deletedGeneration unlocked_ledger s) fun _ _ h => ⟨h.1, fun _ _ => trivial⟩
  refine hdeleted.bind fun deleted t _ _ => ?_
  refine looks_present.bind fun present u _ hmissing => ?_
  cases present with
  | false =>
    refine looks_pure ⟨?_, fun file hfile => ?_⟩
    · split <;> omega
    · rw [hmissing rfl] at hfile
      cases hfile
  | true =>
    refine looks_openDatabase.bind fun db v _ ⟨hdb, hbelow⟩ => ?_
    cases hg : accountGeneration db with
    | error e =>
      have hclose : Looks (fun _ _ => True) (closeDatabase db) v :=
        Meets.imp (reads_closeDatabase unlocked_ledger db v) fun _ _ h => ⟨h.1, fun _ _ => trivial⟩
      exact hclose.bind fun _ w _ _ => ⟨.refl w, fun _ h => by cases h⟩
    | ok generation =>
      obtain ⟨heq, hpos⟩ := storedGeneration_of_ok hdb hg
      rw [heq] at hbelow
      refine (looks_closeDatabase db hpos hbelow).bind fun _ w _ ⟨_, hbelow'⟩ => ?_
      refine looks_pure ⟨by omega, fun file hfile => ?_⟩
      exact (hbelow' file hfile).trans (le_max_right _ _)

theorem guarded_deleteUser (now : WallClock) :
    Meets Unlocked Guarded (fun _ _ => True) (deleteUser now) s := by
  refine looks_currentOrNextAccountGeneration.guarded (fun generation t _ ⟨hpos, hbelow⟩ => ?_)
    fun _ _ _ => trivial
  refine Meets.bind (guarded_recordDeletion now hpos hbelow) (fun _ u hu => ?_) fun _ _ _ => trivial
  exact Meets.imp (guarded_removeUserFiles (hu rfl).1 (hu rfl).2) fun _ _ _ => trivial

theorem guarded_deleteUserForGeneration (requested : Nat) (now : WallClock) :
    Meets Unlocked Guarded (fun _ _ => True) (deleteUserForGeneration requested now) s := by
  refine Meets.bind guarded_openExistingUser (fun db t ht => ?_) fun _ _ _ => trivial
  obtain ⟨generation, hg, hpos, hbelow⟩ := ht.2 db rfl
  refine (looks_closeDatabase db hpos hbelow).guarded (fun _ u _ ⟨_, hbelow'⟩ => ?_)
    fun _ _ _ => trivial
  rw [hg, meets_bind, meets_lift]
  dsimp only
  rw [meets_bind, meets_require]
  split
  case isFalse => trivial
  case isTrue =>
  refine Meets.bind (guarded_recordDeletion now hpos hbelow') (fun _ v hv => ?_) fun _ _ _ => trivial
  exact Meets.imp (guarded_removeUserFiles (hv rfl).1 (hv rfl).2) fun _ _ _ => trivial

/-- A receipted deletion removes the files of its own generation, once that has
its tombstone, and of none above it. -/
theorem guarded_purgeReceiptedGeneration (hle : generation ≤ tombstone s) :
    Meets Unlocked Guarded (fun _ _ => True) (purgeReceiptedGeneration generation) s := by
  refine looks_present.guarded (fun present t ht hmissing => ?_) fun _ _ _ => trivial
  have hle' : generation ≤ tombstone t := by rw [ht.tombstone]; exact hle
  cases present with
  | false =>
    have hbelow : Below generation t := fun file hfile => by
      rw [hmissing rfl] at hfile
      cases hfile
    exact Meets.imp (guarded_removeUserFiles hbelow hle') fun _ _ _ => trivial
  | true =>
    refine looks_openDatabase.guarded (fun db u hu ⟨hdb, hbelow⟩ => ?_) fun _ _ _ => trivial
    have hle'' : generation ≤ tombstone u := by rw [hu.tombstone]; exact hle'
    cases hg : accountGeneration db with
    | error e =>
      have hclose : Looks (fun _ _ => True) (closeDatabase db) u :=
        Meets.imp (reads_closeDatabase unlocked_ledger db u) fun _ _ h => ⟨h.1, fun _ _ => trivial⟩
      exact hclose.guarded (fun _ _ _ _ => trivial) fun _ _ _ => trivial
    | ok current =>
      obtain ⟨heq, hpos⟩ := storedGeneration_of_ok hdb hg
      rw [heq] at hbelow
      refine (looks_closeDatabase db hpos hbelow).guarded (fun _ v hv ⟨_, hbelow'⟩ => ?_)
        fun _ _ _ => trivial
      rw [meets_bind, meets_lift]
      dsimp only
      by_cases hlt : generation < current
      · rw [if_pos hlt]
        trivial
      · rw [if_neg hlt]
        have hle''' : current ≤ tombstone v := by
          rw [hv.tombstone]
          omega
        exact Meets.imp (guarded_removeUserFiles hbelow' hle''') fun _ _ _ => trivial

theorem guarded_writeDeletionReceipt (credential : DeletionCredential) (receipt : DeletionReceipt)
    (hs : Below generation s) :
    Meets Unlocked Guarded (fun _ t => Below generation t)
      (writeDeletionReceipt credential receipt) s := by
  rw [writeDeletionReceipt, meets_bind, meets_require]
  split
  case isFalse => exact hs
  case isTrue =>
  dsimp only
  rw [meets_bind, meets_lift]
  cases deletionReceiptPath credential with
  | error e => exact hs
  | ok path => exact ⟨guarded_of_kept rfl id, fun t ht => ht.below hs⟩

theorem guarded_deleteUserWithReceipt (requested : Nat) (credential : DeletionCredential)
    (csrfHash : Option Hash) (sessionID : Option String) (now : WallClock) :
    Meets Unlocked Guarded (fun _ _ => True)
      (deleteUserWithReceipt requested credential csrfHash sessionID now) s := by
  have hread : Looks (fun r _ => ∀ receipt, r = some receipt → receipt.generation ≤ tombstone s)
      (committedDeletionReceipt credential) s :=
    Meets.imp (reads_committedDeletionReceipt unlocked_ledger credential s) fun _ _ h =>
      ⟨h.1, fun r hr receipt hrec => (h.2 r hr receipt hrec).2.1⟩
  refine hread.guarded (fun receipt t ht hcommitted => ?_) fun _ _ _ => trivial
  cases receipt with
  | some receipt =>
    rw [meets_bind, meets_require]
    split
    case isFalse => trivial
    case isTrue hguard =>
    have heq : receipt.generation = requested := by
      simp only [Bool.not_eq_true', Bool.or_eq_false_iff, bne_eq_false_iff_eq] at hguard
      exact hguard.1
    have hle := hcommitted receipt rfl
    rw [heq, ← ht.tombstone] at hle
    exact guarded_purgeReceiptedGeneration hle
  | none =>
    refine Meets.bind guarded_openExistingUser (fun db u hu => ?_) fun _ _ _ => trivial
    obtain ⟨generation, hg, hpos, hbelow⟩ := hu.2 db rfl
    refine (looks_closeDatabase db hpos hbelow).guarded (fun _ v _ ⟨_, hbelow'⟩ => ?_)
      fun _ _ _ => trivial
    rw [hg, meets_bind, meets_lift]
    dsimp only
    rw [meets_bind, meets_require]
    split
    case isFalse => trivial
    case isTrue heq =>
    obtain rfl := of_decide_eq_true heq
    dsimp only
    rw [meets_bind, meets_require]
    split
    case isFalse => trivial
    case isTrue =>
    refine Meets.bind (guarded_writeDeletionReceipt credential _ hbelow') (fun _ w hw => ?_)
      fun _ _ _ => trivial
    refine Meets.bind (guarded_recordDeletion now hpos hw) (fun _ x hx => ?_) fun _ _ _ => trivial
    exact guarded_purgeReceiptedGeneration (hx rfl).2

theorem guarded_openReusableAccount {deleted : Nat} (hdeleted : deleted = tombstone s) :
    Meets Unlocked Guarded (fun _ _ => True) (openReusableAccount deleted) s := by
  refine looks_present.guarded (fun present t ht _ => ?_) fun _ _ _ => trivial
  cases present with
  | false => trivial
  | true =>
    refine looks_openDatabase.guarded (fun db u hu ⟨hdb, hbelow⟩ => ?_) fun _ _ _ => trivial
    cases hg : accountGeneration db with
    | error e =>
      have hclose : Looks (fun _ _ => True) (closeDatabase db) u :=
        Meets.imp (reads_closeDatabase unlocked_ledger db u) fun _ _ h => ⟨h.1, fun _ _ => trivial⟩
      exact hclose.guarded (fun _ _ _ _ => trivial) fun _ _ _ => trivial
    | ok generation =>
      obtain ⟨heq, hpos⟩ := storedGeneration_of_ok hdb hg
      rw [heq] at hbelow
      dsimp only
      by_cases hlt : deleted < generation
      · rw [if_pos hlt]
        trivial
      · rw [if_neg hlt]
        refine (looks_closeDatabase db hpos hbelow).guarded (fun _ v hv ⟨_, hbelow'⟩ => ?_)
          fun _ _ _ => trivial
        have hle : generation ≤ tombstone v := by
          rw [hv.tombstone, hu.tombstone, ht.tombstone]
          omega
        exact Meets.bind (guarded_removeUserFiles hbelow' hle) (fun _ _ _ => trivial)
          fun _ _ _ => trivial

theorem guarded_setAccountGeneration (db : DatabaseFile) (requested : Nat) (now : WallClock) :
    Meets Unlocked Guarded (fun _ _ => True) (setAccountGeneration db requested now) s := by
  rw [setAccountGeneration, meets_bind, meets_require]
  split
  case isFalse => trivial
  case isTrue =>
  refine Meets.bind (meets_recordAccountLifecycle (P := fun _ => True) unlocked_ledger
    guarded_of_quiet (fun _ _ _ _ => trivial) (fun _ _ _ _ => trivial) trivial
    fun u _ _ _ => ⟨guarded_of_kept rfl id, trivial⟩) (fun _ t _ => ?_) fun _ _ _ => trivial
  refine ⟨guarded_of_kept rfl fun hnone => ?_, fun _ _ => trivial⟩
  simpa [AccountDisk.updateFile] using hnone

theorem guarded_openUser (now : WallClock) :
    Meets Unlocked Guarded (fun _ _ => True) (openUser now) s := by
  have hdeleted : Looks (fun d _ => d = tombstone s) deletedGeneration s :=
    Meets.imp (reads_deletedGeneration unlocked_ledger s) fun _ _ h => ⟨h.1, fun d hd => h.2 d hd⟩
  refine hdeleted.guarded (fun deleted t ht hd => ?_) fun _ _ _ => trivial
  refine Meets.bind (guarded_openReusableAccount (hd.trans ht.tombstone.symm)) (fun reusable u _ => ?_)
    fun _ _ _ => trivial
  cases reusable with
  | some db => trivial
  | none =>
    have hcreate : Meets Unlocked Guarded (fun _ _ => True) createFile u := by
      refine ⟨guarded_of_kept ?_ ?_, fun _ _ => trivial⟩
      · cases hf : u.file <;> simp [hf, tombstone]
      · cases hf : u.file <;> simp [hf]
    refine Meets.bind hcreate (fun _ v _ => ?_) fun _ _ _ => trivial
    refine looks_openDatabase.guarded (fun db w _ _ => ?_) fun _ _ _ => trivial
    split
    · have hclose : Looks (fun _ _ => True) (closeDatabase db) w :=
        Meets.imp (reads_closeDatabase unlocked_ledger db w) fun _ _ h => ⟨h.1, fun _ _ => trivial⟩
      exact hclose.guarded (fun _ _ _ _ => trivial) fun _ _ _ => trivial
    · exact guarded_setAccountGeneration db _ now

end Locked

/-! ## Unlocked opens among the calls -/

/-- An unlocked `OpenExistingUser`, between its steps: it has read the file's
generation, or has found it deleted and is about to remove the files. -/
inductive OpenPhase where
  | opened (generation : Nat)
  | condemned
  deriving DecidableEq

/-- The steps of unlocked opens. Any of them may fail or be given up. -/
inductive Opens : AccountDisk × List OpenPhase → AccountDisk × List OpenPhase → Prop where
  | openFile {disk disk' opens db generation}
      (h : openStoredAccount.exec disk = (.ok (db, generation), disk')) :
      Opens (disk, opens) (disk', .opened generation :: opens)
  | openFails {disk disk' opens e} (h : openStoredAccount.exec disk = (.error e, disk')) :
      Opens (disk, opens) (disk', opens)
  | returned {disk disk' opens generation deleted} (hmem : .opened generation ∈ opens)
      (h : deletedGeneration.exec disk = (.ok deleted, disk')) (hlt : deleted < generation) :
      Opens (disk, opens) (disk', opens.erase (.opened generation))
  | condemned {disk disk' opens generation deleted} (hmem : .opened generation ∈ opens)
      (h : deletedGeneration.exec disk = (.ok deleted, disk')) (hle : generation ≤ deleted) :
      Opens (disk, opens) (disk', .condemned :: opens.erase (.opened generation))
  | readFails {disk disk' opens generation e} (hmem : .opened generation ∈ opens)
      (h : deletedGeneration.exec disk = (.error e, disk')) :
      Opens (disk, opens) (disk', opens.erase (.opened generation))
  | removeFiles {disk opens} (hmem : .condemned ∈ opens) :
      Opens (disk, opens) ((removeUserFiles.exec disk).2, opens.erase .condemned)
  | giveUp {disk opens phase} : Opens (disk, opens) (disk, opens.erase phase)

/-- The calls that take the account's lock; a restart has no opens beside it. -/
def Call.takesLock : Call → Prop
  | .restart _ => False
  | _ => True

/-- One account with locked calls and unlocked opens in any order. -/
def account : Machine AccountDisk (List OpenPhase) Call
    (Except StoreError (Option DatabaseFile)) where
  body call := ExceptT.run call.body
  others := Opens
  start call opens opens' := Call.takesLock call ∧ opens' = opens
  finish _ _ opens opens' := opens' = opens

abbrev AccountConfig := Config AccountDisk (List OpenPhase) Call
  (Except StoreError (Option DatabaseFile))

def AccountConfig.initial : AccountConfig := ⟨.blank, [], none⟩

/-- The open has read a generation the ledger calls deleted. -/
def OpenPhase.Stale (phase : OpenPhase) (disk : AccountDisk) : Prop :=
  match phase with
  | .opened generation => generation ≤ tombstone disk
  | .condemned => True

/-- No stale open is in flight when the account becomes live again. -/
def NoStaleRecreation (c c' : AccountConfig) : Prop :=
  ¬ Live c.shared → Live c'.shared → ∀ phase ∈ c.parties, ¬ phase.Stale c.shared

section Opens
variable {s t : AccountDisk} {opens opens' : List OpenPhase}

theorem unlocked_of_quiet (h : Quiet s t) (hs : s.file.isSome) : Unlocked s t := by
  refine ⟨h.ledger, fun file' hfile' => ?_⟩
  rcases h.file file' hfile' with hfile | ⟨hnone, -⟩
  · exact hfile
  · rw [hnone] at hs
    cases hs

/-- What a reading step of an unlocked open does: it removes nothing either. -/
def Kept (s t : AccountDisk) : Prop := Unlocked s t ∧ (s.file.isSome → t.file.isSome)

theorem Kept.refl (s : AccountDisk) : Kept s s := ⟨.refl s, id⟩

/-- A reading program that runs alone on an existing file. -/
theorem kept_exec {α : Type} {Q : α → Prop} {x : DiskOp α} (h : Reads Eq Q x s)
    (hs : s.file.isSome) : Kept s (x.exec s).2 := by
  have hsteps := Sat.states h (fun _ => rfl) _ (Prog.run_mem_states _ s)
  have hboth : Unlocked s (x.exec s).2 ∧ (x.exec s).2.file.isSome := by
    refine Relation.ReflTransGen.rec (motive := fun t _ => Unlocked s t ∧ t.file.isSome)
      ⟨.refl s, hs⟩ (fun {t u} _ hq ih => ?_) hsteps
    exact ⟨ih.1.trans (unlocked_of_quiet hq ih.2), hq.kept ih.2⟩
  exact ⟨hboth.1, fun _ => hboth.2⟩

theorem eq_sameLedger (a b : AccountDisk) (h : a = b) : SameLedger a b := h ▸ .refl a

/-- The ledger read of an open touches no ledger and creates no file. -/
theorem kept_deletedGeneration {r : Except StoreError Nat}
    (h : deletedGeneration.exec s = (r, t)) : Kept s t := by
  have hkept : Kept s (deletedGeneration.exec s).2 := by
    cases hs : s.file with
    | some file => exact kept_exec (reads_deletedGeneration eq_sameLedger s) (by rw [hs]; rfl)
    | none =>
      have hsame : (deletedGeneration.exec s).2 = s := by
        rw [deletedGeneration, Op.exec_bind, readDeletionRecord, Op.exec_tryRead]
        split
        · rename_i deleted u heq
          obtain ⟨-, rfl⟩ := Prod.mk.inj heq
          simp [validateStoredAccountLifecycle, hs]
        · rename_i e u heq
          exact (Prod.mk.inj heq).2.symm
      rw [hsame]
      exact .refl s
  rwa [h] at hkept

theorem kept_openStoredAccount {r : Except StoreError (DatabaseFile × Nat)}
    (h : openStoredAccount.exec s = (r, t)) : Kept s t := by
  have hkept : Kept s (openStoredAccount.exec s).2 := by
    cases hs : s.file with
    | some file => exact kept_exec (reads_openStoredAccount eq_sameLedger s) (by rw [hs]; rfl)
    | none =>
      have hsame : (openStoredAccount.exec s).2 = s := by simp [openStoredAccount, hs]
      rw [hsame]
      exact .refl s
  rwa [h] at hkept

/-- The generation an open has read is the one stored at the path. -/
theorem opened_generation {db : DatabaseFile} {generation : Nat}
    (h : openStoredAccount.exec s = (.ok (db, generation), t)) :
    Below generation t := by
  have hlooks := looks_openStoredAccount (s := s)
  have hexec := (Meets.exec hlooks Unlocked.refl).2 (db, generation)
  rw [h] at hexec
  exact (hexec rfl).2.2

theorem opened_deleted {deleted : Nat} (h : deletedGeneration.exec s = (.ok deleted, t)) :
    deleted = tombstone s := by
  have hexec := (Meets.exec (reads_deletedGeneration eq_sameLedger s) fun _ => rfl).2 deleted
  rw [h] at hexec
  exact hexec rfl

/-- While a stale open is in flight the account is not live. -/
def StaleBlocks (disk : AccountDisk) (opens : List OpenPhase) : Prop :=
  ∀ phase ∈ opens, phase.Stale disk → ¬ Live disk

theorem OpenPhase.stale_congr {phase : OpenPhase} (h : tombstone t = tombstone s) :
    phase.Stale t ↔ phase.Stale s := by
  cases phase with
  | opened generation => simp only [OpenPhase.Stale, h]
  | condemned => exact Iff.rfl

theorem StaleBlocks.unlocked (hs : StaleBlocks s opens) (h : Unlocked s t)
    (hsub : ∀ phase ∈ opens', phase ∈ opens) : StaleBlocks t opens' := by
  intro phase hmem hstale hlive
  rw [OpenPhase.stale_congr h.ledger.tombstone] at hstale
  exact hs phase (hsub phase hmem) hstale (h.live hlive)

theorem StaleBlocks.cons {phase : OpenPhase} (hs : StaleBlocks s opens)
    (h : phase.Stale s → ¬ Live s) : StaleBlocks s (phase :: opens) := by
  intro other hmem hstale
  rcases List.mem_cons.mp hmem with rfl | hmem
  · exact h hstale
  · exact hs other hmem hstale

theorem unlocked_removeUserFiles : Unlocked s (removeUserFiles.exec s).2 := by
  refine ⟨⟨by simp [removeUserFiles], by simp [removeUserFiles], by simp [removeUserFiles]⟩, ?_⟩
  intro file h
  simp [removeUserFiles] at h

/-- A step of the unlocked opens keeps the stale ones away from live files. -/
theorem StaleBlocks.step {a b : AccountDisk × List OpenPhase} (ha : StaleBlocks a.1 a.2)
    (h : Opens a b) : StaleBlocks b.1 b.2 ∧ Unlocked a.1 b.1 := by
  cases h with
  | openFile h =>
    have hun := (kept_openStoredAccount h).1
    exact ⟨(ha.unlocked hun fun _ => id).cons (not_live_of_below (opened_generation h)), hun⟩
  | openFails h =>
    have hun := (kept_openStoredAccount h).1
    exact ⟨ha.unlocked hun fun _ => id, hun⟩
  | returned _ h _ =>
    have hun := (kept_deletedGeneration h).1
    exact ⟨ha.unlocked hun fun _ => List.mem_of_mem_erase, hun⟩
  | @condemned disk disk' opens generation deleted hmem h hle =>
    have hun := (kept_deletedGeneration h).1
    refine ⟨(ha.unlocked hun fun _ => List.mem_of_mem_erase).cons fun _ hlive => ?_, hun⟩
    -- the open was already stale when it read the ledger
    have hstale : OpenPhase.Stale (.opened generation) disk := by
      rw [OpenPhase.Stale, ← opened_deleted h]
      exact hle
    exact ha _ hmem hstale (hun.live hlive)
  | readFails _ h =>
    have hun := (kept_deletedGeneration h).1
    exact ⟨ha.unlocked hun fun _ => List.mem_of_mem_erase, hun⟩
  | removeFiles _ =>
    exact ⟨ha.unlocked unlocked_removeUserFiles fun _ => List.mem_of_mem_erase,
      unlocked_removeUserFiles⟩
  | @giveUp disk opens phase =>
    exact ⟨ha.unlocked (.refl disk) fun _ => List.mem_of_mem_erase, .refl disk⟩

/-- Only an open that found its generation deleted removes files. -/
theorem Opens.removes {a b : AccountDisk × List OpenPhase} (h : Opens a b)
    (hfile : a.1.file.isSome) (hgone : b.1.file = none) : .condemned ∈ a.2 := by
  have hkeeps : ¬ Kept a.1 b.1 := fun hkept => by
    have hsome := hkept.2 hfile
    rw [hgone] at hsome
    cases hsome
  cases h with
  | openFile h | openFails h => exact absurd (kept_openStoredAccount h) hkeeps
  | returned _ h _ | condemned _ h _ | readFails _ h =>
    exact absurd (kept_deletedGeneration h) hkeeps
  | removeFiles hmem => exact hmem
  | giveUp => exact absurd (Kept.refl _) hkeeps

/-- A step under the lock does too, unless it makes the account live again. -/
theorem StaleBlocks.guarded (hs : StaleBlocks s opens) (h : Guarded s t)
    (hok : ¬ Live s → Live t → ∀ phase ∈ opens, ¬ phase.Stale s) : StaleBlocks t opens := by
  intro phase hmem hstale hlive
  rcases h.tombstone.lt_or_eq with hlt | heq
  · exact h.deletes hlt hlive
  · rw [OpenPhase.stale_congr heq.symm] at hstale
    exact hok (hs phase hmem hstale) hlive phase hmem hstale

end Opens

theorem guarded_call (call : Call) (s : AccountDisk) (hlock : Call.takesLock call) :
    Meets Unlocked Guarded (fun _ _ => True) call.body s := by
  cases call with
  | openUser now =>
    exact Meets.bind (guarded_openUser now) (fun _ _ _ => trivial) fun _ _ _ => trivial
  | openExistingUser =>
    exact Meets.bind guarded_openExistingUser (fun _ _ _ => trivial) fun _ _ _ => trivial
  | deleteUser now =>
    exact Meets.bind (guarded_deleteUser now) (fun _ _ _ => trivial) fun _ _ _ => trivial
  | deleteUserForGeneration generation now =>
    exact Meets.bind (guarded_deleteUserForGeneration generation now) (fun _ _ _ => trivial)
      fun _ _ _ => trivial
  | deleteUserWithReceipt generation credential csrfHash sessionID now =>
    exact Meets.bind (guarded_deleteUserWithReceipt generation credential csrfHash sessionID now)
      (fun _ _ _ => trivial) fun _ _ _ => trivial
  | restart now => exact hlock.elim

theorem account_rules : Rules account NoStaleRecreation Unlocked Guarded (fun _ _ _ => True)
    StaleBlocks where
  refl := .refl
  trans _ _ _ := .trans
  others hJ h := StaleBlocks.step hJ h
  start hJ h := ⟨h.2 ▸ hJ, fun s _ => guarded_call _ s h.1⟩
  act hJ hG hok := StaleBlocks.guarded hJ hG hok
  finish hJ _ h := h ▸ hJ

/-- Files are removed only below the tombstone, in every run that never makes
the account live again under a stale open. -/
theorem removed_files_are_deleted {c c' : AccountConfig} {file : DatabaseFile}
    (hrun : Runs account NoStaleRecreation AccountConfig.initial c) (hs : Step account c c')
    (hfile : c.shared.file = some file) (hgone : c'.shared.file = none) :
    storedGeneration file ≤ tombstone c.shared := by
  have hinit : Holds Unlocked Guarded (fun _ _ _ => True) StaleBlocks AccountConfig.initial :=
    .idle fun _ h => by cases h
  have hc := account_rules.runs hinit hrun
  suffices hlive : ¬ Live c.shared by
    by_contra hlt
    exact hlive ⟨file, hfile, by omega⟩
  have hsome : c.shared.file.isSome := by
    rw [hfile]
    rfl
  cases hs with
  | act => exact (account_rules.guarantee hc).removes hgone hsome
  | other h => exact hc.inv _ (h.removes hsome hgone) trivial
  | start _ | done _ | abandon _ =>
    rw [hgone] at hsome
    cases hsome

/-- A whole locked call that no open interferes with. -/
theorem account_call {ok : AccountConfig → AccountConfig → Prop} {opens : List OpenPhase}
    (call : Call) {s : AccountDisk} {r : Except StoreError (Option DatabaseFile) × AccountDisk}
    (hlock : Call.takesLock call) (h : call.body.exec s = r)
    (hok : ∀ c c', c.parties = opens → ok c c') :
    Runs account ok ⟨s, opens, none⟩ ⟨r.2, opens, none⟩ :=
  Runs.call h ⟨hlock, rfl⟩ rfl (hok _ _ rfl) (fun _ _ _ _ => hok _ _ rfl) (hok _ _ rfl)

/-- The deletion of the first generation, about to remove the database file. -/
def firstDeletion : AccountConfig :=
  let call := Call.deleteUser firstClock
  let rest := Prog.after 22 (ExceptT.run call.body) firstCreated
  ⟨rest.2, [], some (call, rest.1)⟩

theorem removed_files_are_deleted_first :
    storedGeneration firstFile ≤ tombstone firstDeletion.shared := by
  have hok : ∀ c c' : AccountConfig, c.parties = [] → NoStaleRecreation c c' := by
    intro c c' hnone _ _ phase hmem
    rw [hnone] at hmem
    cases hmem
  have hcreate : Runs account NoStaleRecreation AccountConfig.initial ⟨firstCreated, [], none⟩ :=
    account_call (.openUser firstClock) (r := (.ok (some firstFile), firstCreated)) trivial rfl hok
  have hstart : Step account ⟨firstCreated, [], none⟩
      ⟨firstCreated, [], some (.deleteUser firstClock, account.body (.deleteUser firstClock))⟩ :=
    .start ⟨trivial, rfl⟩
  have hdelete : Runs account NoStaleRecreation ⟨firstCreated, [], none⟩ firstDeletion :=
    .head ⟨hstart, hok _ _ rfl⟩ (Runs.after (fun _ _ _ _ => hok _ _ rfl) 22 _ _)
  exact removed_files_are_deleted (hcreate.trans hdelete) .act rfl rfl

/-- A stale open removes the account created after the deletion it observed. -/
theorem removed_files_not_always_deleted : ¬ ∀ (c c' : AccountConfig) (file : DatabaseFile),
    Runs account (fun _ _ => True) AccountConfig.initial c → Step account c c' →
    c.shared.file = some file → c'.shared.file = none →
    storedGeneration file ≤ tombstone c.shared := by
  intro hall
  have hok : ∀ opens : List OpenPhase, ∀ c c' : AccountConfig, c.parties = opens → True :=
    fun _ _ _ _ => trivial
  have hcreate : Runs account (fun _ _ => True) AccountConfig.initial ⟨firstCreated, [], none⟩ :=
    account_call (.openUser firstClock) (r := (.ok (some firstFile), firstCreated)) trivial rfl
      (hok [])
  have hopen : Runs account (fun _ _ => True) ⟨firstCreated, [], none⟩
      ⟨firstCreated, [.opened 1], none⟩ :=
    Runs.single (.other (@Opens.openFile _ _ _ firstFile _ rfl)) trivial
  have hdelete : Runs account (fun _ _ => True) ⟨firstCreated, [.opened 1], none⟩
      ⟨firstDeleted, [.opened 1], none⟩ :=
    account_call (.deleteUser firstClock) (r := (.ok none, firstDeleted)) trivial rfl (hok _)
  have hcondemn : Runs account (fun _ _ => True) ⟨firstDeleted, [.opened 1], none⟩
      ⟨firstDeleted, [.condemned], none⟩ :=
    Runs.single (.other (Opens.condemned (List.mem_singleton.mpr rfl) rfl le_rfl)) trivial
  have hrecreate : Runs account (fun _ _ => True) ⟨firstDeleted, [.condemned], none⟩
      ⟨secondCreated, [.condemned], none⟩ :=
    account_call (.openUser firstClock) (r := (.ok (some secondFile), secondCreated)) trivial rfl
      (hok _)
  have hremove : Step account ⟨secondCreated, [.condemned], none⟩
      ⟨(removeUserFiles.exec secondCreated).2, [], none⟩ :=
    .other (Opens.removeFiles (List.mem_singleton.mpr rfl))
  have hle := hall _ _ secondFile
    ((((hcreate.trans hopen).trans hdelete).trans hcondemn).trans hrecreate) hremove rfl rfl
  exact absurd hle (by decide)

end Pomodorough.Store.UnlockedOpen
