import Pomodorough.Store.Orderly

/-! # What calls that hold the lock do to an account

A call is described for a set `mine` of generations: it may write and delete
those, and it leaves a live file of any other as it is. Calls of a request have
one generation, the others all of them. -/
namespace Pomodorough.Store.LockedCalls
open Pomodorough.Library.AtomicSteps
open Pomodorough.Store.Records Pomodorough.Store.DeletionLedger Pomodorough.Store.Accounts
open Pomodorough.Store.LedgerSpec Pomodorough.Store.Sequential Pomodorough.Store.Orderly
open Pomodorough.Store.UnlockedOpen (Below)

/-- A step of a call that holds the lock. -/
structure Moves (mine : Nat → Prop) (s t : AccountDisk) : Prop where
  onward : Onward s t
  spared : ∀ file, s.file = some file → tombstone s < storedGeneration file →
    ¬ mine (storedGeneration file) → SameLedger s t ∧ ∃ file', t.file = some file' ∧ OpenedAs file file'
  deletes : tombstone t = tombstone s ∨ mine (tombstone t)
  receipts : ∀ entry ∈ t.receipts, entry ∈ s.receipts ∨ mine entry.2.generation

/-- A live file is of a generation the call may write. -/
structure Own (mine : Nat → Prop) (s : AccountDisk) : Prop where
  orderly : OrderlyAccount s
  live : ∀ file, s.file = some file → tombstone s < storedGeneration file →
    mine (storedGeneration file)
  first : tombstone s = 0 → mine 1

section
variable {mine : Nat → Prop} {s t u : AccountDisk} {file : DatabaseFile} {generation : Nat}
  {now : WallClock}

theorem moves_of_quiet (s t : AccountDisk) (h : Quiet s t) : Moves mine s t where
  onward := onward_of_quiet h
  spared file hfile _ _ := by
    refine ⟨h.ledger, ?_⟩
    obtain ⟨file', hfile'⟩ := Option.isSome_iff_exists.mp (h.kept (by rw [hfile]; rfl))
    rcases h.file file' hfile' with ⟨before, hbefore, hopen⟩ | ⟨hnone, -⟩
    · rw [hfile] at hbefore
      cases hbefore
      exact ⟨file', hfile', hopen⟩
    · rw [hfile] at hnone
      cases hnone
  deletes := .inl h.ledger.tombstone
  receipts entry hentry := .inl (h.ledger.receipts ▸ hentry)

theorem Own.any (h : OrderlyAccount s) : Own (fun _ => True) s := ⟨h, fun _ _ _ => trivial, fun _ => trivial⟩

/-- The account is fit for a call of one generation it may have. -/
theorem Own.foreign (hs : Own mine s) (h : Foreign s t) : Own mine t where
  orderly := h.onward.orderly hs.orderly
  live file' hfile' hlt := by
    obtain ⟨file, hfile, hopen⟩ := h.live hfile' hlt
    rw [h.ledger.tombstone] at hlt
    rw [hopen.storedGeneration] at hlt ⊢
    exact hs.live file hfile hlt
  first hzero := hs.first (h.ledger.tombstone ▸ hzero)

theorem Own.quiet (hs : Own mine s) (h : Quiet s t) : Own mine t where
  orderly := hs.orderly.quiet h
  live file' hfile' hlt := by
    rw [h.ledger.tombstone] at hlt
    rcases h.file file' hfile' with ⟨file, hfile, hopen⟩ | ⟨-, hopen⟩
    · rw [hopen.storedGeneration] at hlt ⊢
      exact hs.live file hfile hlt
    · rw [hopen.storedGeneration, storedGeneration_empty] at hlt ⊢
      exact hs.first (by omega)
  first hzero := hs.first (h.ledger.tombstone ▸ hzero)

/-! ## Writes -/

/-- A write where every live file is the call's own. -/
theorem Own.moves (hs : Own mine s) (h : Onward s t)
    (hdeletes : tombstone t = tombstone s ∨ mine (tombstone t))
    (hreceipts : ∀ entry ∈ t.receipts, entry ∈ s.receipts ∨ mine entry.2.generation) :
    Moves mine s t :=
  ⟨h, fun file hfile hlt hmine => absurd (hs.live file hfile hlt) hmine, hdeletes, hreceipts⟩

/-- The tombstone rises. -/
theorem Own.publishDeletion (now : WallClock) (hs : Own mine s) (hvalid : validGeneration generation = true)
    (hle : tombstone s ≤ generation) (hmine : generation = tombstone s ∨ mine generation) :
    Moves mine s (s.publishDeletionRecord generation now) ∧
      Own mine (s.publishDeletionRecord generation now) := by
  have htomb : tombstone (s.publishDeletionRecord generation now) = generation := rfl
  have hpos := (validGeneration_iff.mp hvalid).1
  have hcurrent : ∀ file, s.file = some file → generation < storedGeneration file →
      tombstone s = generation := by
    intro file hfile hlt
    have hbound := (hs.orderly.file file hfile).accountGeneration.2.2
    omega
  have horderly : OrderlyAccount (s.publishDeletionRecord generation now) := by
    refine ⟨⟨fun record hr => ?_, hs.orderly.ledger.lifecycle⟩, fun file hfile => ?_,
      fun file hfile _ hlt => ?_, hs.orderly.receipts⟩
    · cases hr
      have hclock := now.positive
      simp [DeletionRecord.valid, hvalid, hclock]
    · exact (hs.orderly.file file hfile).mono hle
    · rw [htomb] at hlt
      have heq := hcurrent file hfile hlt
      exact hs.orderly.bound file hfile (by omega) (by omega)
  have honward : Onward s (s.publishDeletionRecord generation now) := by
    refine ⟨fun _ => horderly, hle, fun _ hzero => ?_⟩
    rw [htomb] at hzero
    omega
  refine ⟨hs.moves honward ?_ fun _ h => .inl h, horderly, fun file hfile hlt => ?_, fun hzero => ?_⟩
  · rcases hmine with h | h
    · exact .inl (htomb.trans h)
    · exact .inr h
  · exact hs.live file hfile (lt_of_le_of_lt hle hlt)
  · rw [htomb] at hzero
    omega

theorem Own.publishLifecycle {state : AccountState} (now : WallClock) (hs : Own mine s)
    (hvalid : validGeneration generation = true)
    (hbound : ∀ file, s.file = some file → 1 ≤ tombstone s → tombstone s < storedGeneration file →
      state = .active ∧ generation = storedGeneration file) :
    Moves mine s (s.publishLifecycleRecord generation state now) ∧
      Own mine (s.publishLifecycleRecord generation state now) := by
  have horderly : OrderlyAccount (s.publishLifecycleRecord generation state now) := by
    refine ⟨⟨hs.orderly.ledger.deletion, fun record hr => ?_⟩, hs.orderly.file,
      fun file hfile hpos hlt => ?_, hs.orderly.receipts⟩
    · cases hr
      have hclock := now.positive
      simp [AccountLifecycleRecord.valid, hvalid, hclock]
    · obtain ⟨rfl, rfl⟩ := hbound file hfile hpos hlt
      simp [AccountDisk.publishLifecycleRecord, bindsActive]
  have honward : Onward s (s.publishLifecycleRecord generation state now) :=
    ⟨fun _ => horderly, le_refl _, id⟩
  exact ⟨hs.moves honward (.inl rfl) fun _ h => .inl h, horderly, hs.live, hs.first⟩

/-- A deleted lifecycle is published for a generation with a tombstone. -/
theorem Own.publishDeleted (now : WallClock) (hs : Own mine s) (hvalid : validGeneration generation = true)
    (hle : generation ≤ tombstone s)
    (hallow : LifecycleAllows s.lifecycleRecord generation .deleted) :
    Moves mine s (s.publishLifecycleRecord generation .deleted now) ∧
      Own mine (s.publishLifecycleRecord generation .deleted now) := by
  refine hs.publishLifecycle now hvalid fun file hfile hpos hlt => ?_
  -- a live file would be bound to a lifecycle above the tombstone
  have hbinds := hs.orderly.bound file hfile hpos hlt
  have hlife := hallow.1
  cases hrec : s.lifecycleRecord with
  | none =>
    rw [hrec] at hbinds
    cases hbinds
  | some record =>
    rw [hrec] at hbinds hlife
    simp only [bindsActive, Bool.and_eq_true, beq_iff_eq] at hbinds
    simp only [lifecycleGeneration] at hlife
    omega

/-- The lifecycle of the next generation is published. -/
theorem Own.publishActive (now : WallClock) (hs : Own mine s)
    (hvalid : validGeneration (tombstone s + 1) = true) :
    Moves mine s (s.publishLifecycleRecord (tombstone s + 1) .active now) ∧
      Own mine (s.publishLifecycleRecord (tombstone s + 1) .active now) := by
  refine hs.publishLifecycle now hvalid fun file hfile _ hlt => ⟨rfl, ?_⟩
  have hle := (hs.orderly.file file hfile).accountGeneration.2.2
  omega

/-- The receipt a credential has, replaced. -/
def withReceipt (s : AccountDisk) (credential : DeletionCredential) (receipt : DeletionReceipt) :
    AccountDisk :=
  { s with
    receipts := (credential, receipt) :: s.receipts.filter fun entry => entry.1 ≠ credential }

theorem Own.writeReceipt {credential : DeletionCredential} {receipt : DeletionReceipt}
    (hs : Own mine s) (hvalid : validDeletionReceipt receipt credential.method = true)
    (hmine : mine receipt.generation) :
    Moves mine s (withReceipt s credential receipt) ∧ Own mine (withReceipt s credential receipt) := by
  have hentry : ∀ entry ∈ (withReceipt s credential receipt).receipts,
      entry = (credential, receipt) ∨ entry ∈ s.receipts := by
    intro entry h
    rcases List.mem_cons.mp h with h | h
    · exact .inl h
    · exact .inr (List.mem_filter.mp h).1
  have horderly : OrderlyAccount (withReceipt s credential receipt) := by
    refine ⟨⟨hs.orderly.ledger.deletion, hs.orderly.ledger.lifecycle⟩, hs.orderly.file,
      hs.orderly.bound, fun entry h => ?_⟩
    rcases hentry entry h with rfl | h
    · exact hvalid
    · exact hs.orderly.receipts entry h
  refine ⟨hs.moves ⟨fun _ => horderly, le_refl _, id⟩ (.inl rfl) fun entry h => ?_, horderly,
    hs.live, hs.first⟩
  rcases hentry entry h with rfl | h
  · exact .inr hmine
  · exact .inl h

/-- The contents of the file at the path change. -/
theorem Own.updateFile (inode : Nat) (change : DatabaseFile → DatabaseFile) (hs : Own mine s)
    (hchange : ∀ file, s.file = some file → OrderlyFile (tombstone s) (change file) ∧
      (tombstone s < storedGeneration (change file) → mine (storedGeneration (change file)) ∧
        (1 ≤ tombstone s → bindsActive s.lifecycleRecord (storedGeneration (change file)) = true))) :
    Moves mine s (s.updateFile inode change) ∧ Own mine (s.updateFile inode change) := by
  have hfile : ∀ file', (s.updateFile inode change).file = some file' →
      ∃ file, s.file = some file ∧ (file' = file ∨ file' = change file) := by
    intro file' h
    simp only [AccountDisk.updateFile, Option.map_eq_some_iff] at h
    obtain ⟨file, hfile, rfl⟩ := h
    refine ⟨file, hfile, ?_⟩
    split
    · exact .inr rfl
    · exact .inl rfl
  have horderly : OrderlyAccount (s.updateFile inode change) := by
    refine ⟨⟨hs.orderly.ledger.deletion, hs.orderly.ledger.lifecycle⟩, fun file' h => ?_,
      fun file' h hpos hlt => ?_, hs.orderly.receipts⟩
    · obtain ⟨file, hs', rfl | rfl⟩ := hfile file' h
      · exact hs.orderly.file _ hs'
      · exact (hchange file hs').1
    · obtain ⟨file, hs', rfl | rfl⟩ := hfile file' h
      · exact hs.orderly.bound _ hs' hpos hlt
      · exact ((hchange file hs').2 hlt).2 hpos
  have honward : Onward s (s.updateFile inode change) := by
    refine ⟨fun _ => horderly, le_refl _, fun hp hzero => ?_⟩
    simpa [AccountDisk.updateFile] using hp hzero
  refine ⟨hs.moves honward (.inl rfl) fun _ h => .inl h, horderly, fun file' h hlt => ?_, hs.first⟩
  obtain ⟨file, hs', rfl | rfl⟩ := hfile file' h
  · exact hs.live _ hs' hlt
  · exact ((hchange file hs').2 hlt).1

end

/-! ## Reading and opening under the lock -/

section
variable {mine : Nat → Prop} {α : Type} {s t : AccountDisk} {generation : Nat} {now : WallClock}

theorem locked_of_peeks {Q : Except StoreError α → AccountDisk → Prop} {x : DiskOp α}
    (h : Peeks Foreign Q x s) : Meets Foreign (Moves mine) (fun r t => Foreign s t ∧ Q r t) x s :=
  Meets.mono h (fun _ _ => id) (fun a b hp => moves_of_quiet a b hp.quiet) fun _ _ => id

theorem locked_openStoredAccount (ho : OrderlyAccount s) :
    Meets Foreign (Moves mine) (fun r t => Foreign s t ∧ (s.file = none ∧ r = .error .notFound ∨
      ∃ u, Foreign s u ∧ Foreign u t ∧ Present u ∧
        r = .ok ((fileAt u).migrate, storedGeneration (fileAt u)))) openStoredAccount s :=
  locked_of_peeks
    (peeks_openStoredAccount Foreign.refl foreign_trans foreign_of_peek onward_of_foreign ho)

theorem locked_deletedGeneration (ho : OrderlyAccount s) :
    Meets Foreign (Moves mine) (fun r t => Foreign s t ∧ (r = .ok (tombstone s) ∨
      (∃ message, r = .error (.failure message)) ∧ Unbound Foreign (tombstone s) s))
      deletedGeneration s :=
  locked_of_peeks
    (peeks_deletedGeneration Foreign.refl foreign_trans foreign_of_peek onward_of_foreign ho)

theorem locked_openDatabase (ho : OrderlyAccount s) (hp : Present s) :
    Meets Foreign (Moves mine) (fun r t => Foreign s t ∧ r = .ok (fileAt s).migrate)
      openDatabase s :=
  locked_of_peeks (peeks_openDatabase foreign_trans foreign_of_peek ho hp)

theorem locked_closeDatabase (db : DatabaseFile) :
    Meets Foreign (Moves mine) (fun r t => Foreign s t ∧ r = .ok ()) (closeDatabase db) s :=
  locked_of_peeks (peeks_closeDatabase foreign_trans foreign_of_peek db)

theorem locked_present :
    Meets Foreign (Moves mine) (fun r t => Foreign s t ∧ r = .ok s.file.isSome)
      (Op.read fun disk => disk.file.isSome : DiskOp Bool) s :=
  locked_of_peeks (peeks_present foreign_trans foreign_of_peek)

theorem locked_accountLifecycle (ho : OrderlyAccount s) :
    Meets Foreign (Moves mine) (fun r t => Foreign s t ∧ r = .ok s.lifecycleRecord)
      accountLifecycle s :=
  locked_of_peeks (peeks_accountLifecycle foreign_trans foreign_of_peek ho)

/-- A write of the lock's holder, after which the others go on. -/
theorem locked_step {f : AccountDisk → α × AccountDisk} {s : AccountDisk}
    (h : Moves mine s (f s).2) :
    Meets Foreign (Moves mine) (fun r t => Foreign (f s).2 t ∧ r = .ok (f s).1)
      (Op.step f : DiskOp α) s :=
  ⟨h, fun _ ht => ⟨ht, rfl⟩⟩

theorem moves_trim {wal shm : Bool} : Moves mine s { s with wal, shm } where
  onward := foreign_trim.onward
  spared file hfile _ _ := ⟨⟨rfl, rfl, rfl⟩, file, hfile, .inl rfl⟩
  deletes := .inl rfl
  receipts _ h := .inl h

/-- A dead file is removed. -/
theorem moves_remove (hdead : ¬ Live s) (hpos : 1 ≤ tombstone s) :
    Moves mine s { s with file := none } where
  onward := (foreign_remove hpos).onward
  spared file hfile hlt _ := absurd ⟨file, hfile, hlt⟩ hdead
  deletes := .inl rfl
  receipts _ h := .inl h

theorem locked_removeUserFiles (hdead : ¬ Live s) (hpos : 1 ≤ tombstone s) :
    Meets Foreign (Moves mine) (fun r t => Foreign s t ∧ r = .ok ()) removeUserFiles s := by
  refine Meets.bind (locked_step moves_trim) (fun _ t ⟨ht, _⟩ => ?_)
    fun _ _ h => by cases h.2
  have hst := foreign_trim.trans ht
  refine Meets.bind (locked_step moves_trim) (fun _ u ⟨hu, _⟩ => ?_) fun _ _ h => by cases h.2
  have hsu := hst.trans (foreign_trim.trans hu)
  have hpos' : 1 ≤ tombstone u := by rw [hsu.ledger.tombstone]; exact hpos
  exact ⟨moves_remove (hsu.dead hdead) hpos', fun v hv =>
    ⟨hsu.trans ((foreign_remove hpos').trans hv), rfl⟩⟩

/-- What `OpenExistingUser` answers under the lock. -/
inductive ExistingUser (s : AccountDisk) : Except StoreError DatabaseFile → Prop where
  | opened {file db} (hfile : s.file = some file) (hlt : tombstone s < storedGeneration file)
      (htables : db.tables = file.tables)
      (hgen : accountGeneration db = .ok (storedGeneration file)) : ExistingUser s (.ok db)
  | notFound : ExistingUser s (.error .notFound)
  | accountDeleted : ExistingUser s (.error .accountDeleted)
  | unbound {message} (hzero : tombstone s = 0) (hfile : s.file.isSome = true) :
      ExistingUser s (.error (.failure message))

theorem locked_openExistingUser (ho : OrderlyAccount s) :
    Meets Foreign (Moves mine) (fun r t => Foreign s t ∧ ExistingUser s r) openExistingUser s := by
  refine Meets.bind (locked_openStoredAccount ho) (fun found t hopened => ?_)
    fun e t hrefused => ?_
  case refine_2 =>
    rcases hrefused with ⟨hst, ⟨-, h⟩ | ⟨u, -, -, -, h⟩⟩
    · cases h
      exact ⟨hst, .notFound⟩
    · cases h
  obtain ⟨hst, hfound⟩ := hopened
  rcases hfound with ⟨-, h⟩ | ⟨u, hsu, hut, hp, hr⟩
  · cases h
  obtain rfl := Except.ok.inj hr
  have hfile := (hsu.onward.orderly ho).fileAt
  refine Meets.bind (locked_deletedGeneration (hst.onward.orderly ho)) (fun deleted v hread => ?_)
    fun e v hrefused => ?_
  case refine_2 =>
    rcases hrefused with ⟨htv, h | ⟨⟨message, h⟩, hunbound⟩⟩
    · cases h
    · cases h
      obtain ⟨hzero, hsome⟩ := hst.unbound ho hunbound
      exact ⟨hst.trans htv, .unbound hzero hsome⟩
  obtain ⟨htv, hd⟩ := hread
  have hdeleted : deleted = tombstone s := by
    rcases hd with hd | ⟨⟨_, h⟩, -⟩
    · exact (Except.ok.inj hd).trans hst.ledger.tombstone
    · cases h
  have hsv := hst.trans htv
  by_cases hlt : deleted < storedGeneration (fileAt u)
  · rw [if_pos hlt]
    refine ⟨hsv, ?_⟩
    rw [hdeleted, ← hsu.ledger.tombstone] at hlt
    cases hu : u.file with
    | none =>
      rw [fileAt, hu, Option.getD_none, storedGeneration_empty] at hlt
      have hsome := hp (by omega)
      rw [hu] at hsome
      cases hsome
    | some file' =>
      rw [fileAt, hu, Option.getD_some] at hlt hfile ⊢
      obtain ⟨file, hfile₀, hopen⟩ := hsu.live hu hlt
      rw [hsu.ledger.tombstone, hopen.storedGeneration] at hlt
      refine .opened hfile₀ hlt ?_ ?_
      · rw [migrate_tables, OpenedAs.tables hopen]
      · rw [hfile.accountGeneration.1, hopen.storedGeneration]
  · rw [if_neg hlt]
    have hpos := hfile.pos
    have hdead : ¬ Live u := by
      rintro ⟨file, hu, hlive⟩
      rw [fileAt, hu, Option.getD_some, hdeleted, ← hsu.ledger.tombstone] at hlt
      exact hlt hlive
    refine Meets.bind (locked_closeDatabase _) (fun _ w hclosed => ?_) fun e w h => by cases h.2
    have huw := (hut.trans htv).trans hclosed.1
    have hpos' : 1 ≤ tombstone w := by
      rw [huw.ledger.tombstone, hsu.ledger.tombstone]
      omega
    refine Meets.bind (locked_removeUserFiles (huw.dead hdead) hpos') (fun _ x hremoved => ?_)
      fun e x h => by cases h.2
    exact ⟨(hsu.trans huw).trans hremoved.1, .accountDeleted⟩

end

/-! ## Deletions -/

/-- A live file of this generation is at the path. -/
structure LiveAt (generation : Nat) (s : AccountDisk) (file : DatabaseFile) : Prop where
  path : s.file = some file
  stored : storedGeneration file = generation
  live : tombstone s < generation

section
variable {mine : Nat → Prop} {α : Type} {s t : AccountDisk} {file : DatabaseFile}
  {generation : Nat} {now : WallClock}

/-- A live file is of the one generation an account can have then. -/
theorem LiveAt.own (h : LiveAt generation s file) (ho : OrderlyAccount s) (hmine : mine generation) :
    Own mine s where
  orderly := ho
  live file' hfile' _ := by
    rw [h.path] at hfile'
    cases hfile'
    rw [h.stored]
    exact hmine
  first hzero := by
    obtain ⟨-, -, hle⟩ := (ho.file file h.path).accountGeneration
    have hpos := (ho.file file h.path).pos
    have hone : generation = 1 := by
      rw [h.stored] at hle hpos
      omega
    exact hone ▸ hmine

theorem LiveAt.below (h : LiveAt generation s file) : Below generation s := by
  intro file' hfile'
  rw [h.path] at hfile'
  cases hfile'
  exact h.stored.le

theorem not_live (hbelow : Below generation s) (hle : generation ≤ tombstone s) : ¬ Live s := by
  rintro ⟨file, hfile, hlt⟩
  have hgen := hbelow file hfile
  omega

theorem locked_recordDeletion (hs : Own mine s) (hbelow : Below generation s)
    (hvalid : validGeneration generation = true) (hmine : generation ≤ tombstone s ∨ mine generation) :
    Meets Foreign (Moves mine) (fun r t => Own mine t ∧
      (r = .ok () → ¬ Live t ∧ generation ≤ tombstone t)) (recordDeletion generation now) s := by
  have hpos := (validGeneration_iff.mp hvalid).1
  have hmax : validGeneration (max (tombstone s) generation) = true := by
    rcases le_total (tombstone s) generation with hle | hle
    · rw [max_eq_right hle]
      exact hvalid
    · rw [max_eq_left hle]
      exact hs.orderly.tombstone_valid (hpos.trans hle)
  refine Meets.imp (meets_recordDeletion (P := fun u => Own mine u ∧ Below generation u)
    foreign_ledger moves_of_quiet (fun _ _ h hP => ⟨hP.1.foreign h, h.below hpos hP.2⟩)
    (fun _ _ h hP => ⟨hP.1.quiet h, UnlockedOpen.below_quiet hpos h hP.2⟩) ⟨hs, hbelow⟩
    (fun u hu hP => ?_) (fun u htomb hlife _ hP hallow => ?_)) fun r t ht => ⟨ht.1.1, fun hr => ?_⟩
  · have hwrite := hP.1.publishDeletion now hmax
      (by rw [hu.tombstone]; exact le_max_left _ _) (by
        rcases hmine with hle | hm
        · exact .inl (by rw [hu.tombstone, max_eq_left hle])
        · rcases le_total generation (tombstone s) with hle | hle
          · exact .inl (by rw [hu.tombstone, max_eq_left hle])
          · exact .inr (by rw [max_eq_right hle]; exact hm))
    exact ⟨hwrite.1, hwrite.2, hP.2⟩
  · rw [← hlife] at hallow
    have hwrite := hP.1.publishDeleted now hmax htomb.ge hallow
    exact ⟨hwrite.1, hwrite.2, hP.2⟩
  · have htomb := (ht.2.2 hr).1
    have hle : generation ≤ tombstone t := by rw [htomb]; exact le_max_right _ _
    exact ⟨not_live ht.1.2 hle, hle⟩

/-- A receipted deletion removes nothing above its own tombstone. -/
theorem locked_purgeReceiptedGeneration (ho : OrderlyAccount s) (hpos : 1 ≤ generation)
    (hle : generation ≤ tombstone s) :
    Meets Foreign (Moves mine) (fun r t => Foreign s t ∧ r = .ok ())
      (purgeReceiptedGeneration generation) s := by
  refine Meets.bind locked_present (fun present t ⟨hst, hpresent⟩ => ?_) fun e t h => by cases h.2
  obtain rfl := Except.ok.inj hpresent
  have hle' : generation ≤ tombstone t := by rw [hst.ledger.tombstone]; exact hle
  cases hfile : s.file with
  | none =>
    have hdead : ¬ Live s := by
      rintro ⟨file, h, -⟩
      rw [hfile] at h
      cases h
    exact Meets.imp (locked_removeUserFiles (hst.dead hdead) (hpos.trans hle')) fun _ _ h =>
      ⟨hst.trans h.1, h.2⟩
  | some file =>
    have hp : Present t := hst.present fun _ => by rw [hfile]; rfl
    have ho' := hst.onward.orderly ho
    refine Meets.bind (locked_openDatabase ho' hp) (fun db u ⟨htu, hdb⟩ => ?_)
      fun e u h => by cases h.2
    obtain rfl := Except.ok.inj hdb
    refine Meets.bind (locked_closeDatabase _) (fun _ v ⟨huv, _⟩ => ?_) fun e v h => by cases h.2
    have htv := htu.trans huv
    rw [ho'.fileAt.accountGeneration.1, meets_bind, meets_lift]
    by_cases hlt : generation < storedGeneration (fileAt t)
    · simp only [if_pos hlt]
      exact ⟨hst.trans htv, rfl⟩
    · simp only [if_neg hlt]
      have hdead : ¬ Live t := by
        rintro ⟨file', hfile', hlive⟩
        rw [fileAt, hfile', Option.getD_some] at hlt
        omega
      have hle'' : generation ≤ tombstone v := by rw [htv.ledger.tombstone]; exact hle'
      exact Meets.imp (locked_removeUserFiles (htv.dead hdead) (hpos.trans hle'')) fun _ _ h =>
        ⟨(hst.trans htv).trans h.1, h.2⟩

/-- The errors of a call that meets another generation than its own. -/
inductive Refused : StoreError → Prop where
  | notFound : Refused .notFound
  | accountDeleted : Refused .accountDeleted
  | accountGenerationChanged : Refused .accountGenerationChanged

/-- A file of the first generation, bound to the ledger or not. -/
theorem liveAt_first (ho : OrderlyAccount s) (hpos : 1 ≤ generation)
    (hle : generation ≤ tombstone s + 1) (hzero : tombstone s = 0) (hfile : s.file.isSome = true) :
    ∃ file, LiveAt generation s file := by
  obtain ⟨file, hfile⟩ := Option.isSome_iff_exists.mp hfile
  have hbound := (ho.file file hfile).accountGeneration.2.2
  have hfirst := (ho.file file hfile).pos
  exact ⟨file, hfile, by omega, by omega⟩

/-- Without a live file of the generation, an open leads nowhere. -/
theorem ExistingUser.refused {r : Except StoreError DatabaseFile} (h : ExistingUser s r)
    (ho : OrderlyAccount s) (hpos : 1 ≤ generation) (hle : generation ≤ tombstone s + 1) :
    (∃ file, LiveAt generation s file) ∨
      (∃ e, r = .error e ∧ Refused e) ∨
      ∃ db current, r = .ok db ∧ accountGeneration db = .ok current ∧ current ≠ generation := by
  cases h with
  | @opened file db hfile hlt htables hgen =>
    by_cases heq : storedGeneration file = generation
    · exact .inl ⟨file, hfile, heq, heq ▸ hlt⟩
    · exact .inr (.inr ⟨db, _, rfl, hgen, heq⟩)
  | notFound => exact .inr (.inl ⟨_, rfl, .notFound⟩)
  | accountDeleted => exact .inr (.inl ⟨_, rfl, .accountDeleted⟩)
  | unbound hzero hfile => exact .inl (liveAt_first ho hpos hle hzero hfile)

/-- The generation a call found live is its own to delete. -/
theorem LiveAt.valid (h : LiveAt generation s file) (ho : OrderlyAccount s) :
    validGeneration generation = true := by
  have hvalid := (ho.file file h.path).accountGeneration.2.1
  rwa [h.stored] at hvalid

/-- What a deletion does once it has found its generation live. -/
theorem locked_finishDeletion (hs : Own mine s) (hbelow : Below generation s)
    (hvalid : validGeneration generation = true) (hmine : mine generation) :
    Meets Foreign (Moves mine) (fun _ _ => True)
      ((do
        recordDeletion generation now
        removeUserFiles) : DiskOp Unit) s := by
  refine Meets.bind (locked_recordDeletion hs hbelow hvalid (.inr hmine))
    (fun _ t ht => ?_) fun _ _ _ => trivial
  obtain ⟨hdead, hle⟩ := ht.2 rfl
  have hpos := (validGeneration_iff.mp hvalid).1
  exact Meets.imp (locked_removeUserFiles hdead (hpos.trans hle)) fun _ _ _ => trivial

theorem locked_deleteUserForGeneration (ho : OrderlyAccount s) (hpos : 1 ≤ generation)
    (hle : generation ≤ tombstone s + 1) (hmine : mine generation) :
    Meets Foreign (Moves mine) (fun r _ => (∃ file, LiveAt generation s file) ∨
      ∃ e, r = .error e ∧ Refused e) (deleteUserForGeneration generation now) s := by
  refine Meets.bind (locked_openExistingUser ho) (fun db t ⟨hst, hopened⟩ => ?_)
    fun e t ⟨_, hopened⟩ => ?_
  case refine_2 =>
    rcases hopened.refused ho hpos hle with hlive | ⟨e', he, hrefused⟩ | ⟨_, _, he, -⟩
    · exact .inl hlive
    · cases he
      exact .inr ⟨e, rfl, hrefused⟩
    · cases he
  refine Meets.bind (locked_closeDatabase _) (fun _ u ⟨htu, _⟩ => ?_) fun e u h => by cases h.2
  have hsu := hst.trans htu
  rw [meets_bind, meets_lift]
  rcases hopened.refused ho hpos hle with ⟨file, hlive⟩ | ⟨_, he, -⟩ | ⟨db', current, hdb, hgen, hne⟩
  · cases hg : accountGeneration db with
    | error e => exact .inl ⟨file, hlive⟩
    | ok current =>
      dsimp only
      rw [meets_bind, meets_require]
      split
      case isFalse => exact .inl ⟨file, hlive⟩
      case isTrue heq =>
      obtain rfl := of_decide_eq_true heq
      have hown := (hlive.own ho hmine).foreign hsu
      have hbelow := hsu.below hpos hlive.below
      exact Meets.imp (locked_finishDeletion hown hbelow (hlive.valid ho) hmine) fun _ _ _ =>
        .inl ⟨file, hlive⟩
  · cases he
  · cases hdb
    simp only [hgen]
    rw [meets_bind, meets_require]
    simp only [hne, decide_false, Bool.false_eq_true, if_false]
    exact .inr ⟨_, rfl, .accountGenerationChanged⟩

end

/-! ## Deletions with a receipt -/

section
variable {mine : Nat → Prop} {s t : AccountDisk} {file : DatabaseFile} {generation : Nat}
  {credential : DeletionCredential} {csrfHash : Option Hash} {sessionID : Option String}
  {now : WallClock}

theorem locked_committedDeletionReceipt (ho : OrderlyAccount s) :
    Meets Foreign (Moves mine) (fun r t => Foreign s t ∧ CommittedReceipt Foreign s t credential r)
      (committedDeletionReceipt credential) s :=
  locked_of_peeks (peeks_committedDeletionReceipt Foreign.refl foreign_trans foreign_of_peek
    onward_of_foreign credential ho)

/-- A deletion answered from the committed receipt of its credential. -/
inductive Receipted (generation : Nat) (credential : DeletionCredential)
    (csrfHash : Option Hash) (s : AccountDisk) : Except StoreError Unit → Prop where
  | confirmed {receipt} (hstored : s.receipts.lookup credential = some receipt)
      (hgeneration : receipt.generation = generation) (hle : generation ≤ tombstone s)
      (hcsrf : credential.method = .cookie → receipt.csrfHash = csrfHash) :
      Receipted generation credential csrfHash s (.ok ())
  | refused {receipt} (hstored : s.receipts.lookup credential = some receipt)
      (hle : receipt.generation ≤ tombstone s)
      (hmismatch : receipt.generation ≠ generation ∨
        credential.method = .cookie ∧ receipt.csrfHash ≠ csrfHash) :
      Receipted generation credential csrfHash s (.error .unauthorized)

/-- The outcome of a receipted deletion: it meets its own generation live, with
the session it was admitted for, or the receipt answers, or it is refused. -/
inductive ReceiptDeletion (generation : Nat) (credential : DeletionCredential)
    (csrfHash : Option Hash) (sessionID : Option String) (s : AccountDisk) :
    Except StoreError Unit → Prop where
  | live {file r} (hlive : LiveAt generation s file)
      (hsession : r = .ok () → sessionID.all (liveDeletionSession file.tables credential) = true) :
      ReceiptDeletion generation credential csrfHash sessionID s r
  | receipted {r} (h : Receipted generation credential csrfHash s r) :
      ReceiptDeletion generation credential csrfHash sessionID s r
  | zero (h : credential.tokenHash = 0) :
      ReceiptDeletion generation credential csrfHash sessionID s (.error .unauthorized)
  | refused {e} (h : Refused e) :
      ReceiptDeletion generation credential csrfHash sessionID s (.error e)

theorem locked_writeDeletionReceipt {receipt : DeletionReceipt} (hs : Own mine s)
    (hbelow : Below generation s) (hpos : 1 ≤ generation) (hmine : mine receipt.generation) :
    Meets Foreign (Moves mine) (fun _ t => Own mine t ∧ Below generation t)
      (writeDeletionReceipt credential receipt) s := by
  rw [writeDeletionReceipt, meets_bind, meets_require]
  split
  case isFalse => exact ⟨hs, hbelow⟩
  case isTrue hvalid =>
  dsimp only
  rw [meets_bind, meets_lift, deletionReceiptPath]
  by_cases hzero : credential.tokenHash = 0
  · rw [if_pos hzero]
    exact ⟨hs, hbelow⟩
  · rw [if_neg hzero]
    have hwrite := hs.writeReceipt hvalid hmine
    have hwritten : Below generation (withReceipt s credential receipt) := hbelow
    exact ⟨hwrite.1, fun t ht => ⟨hwrite.2.foreign ht, Foreign.below hpos ht hwritten⟩⟩

/-- The live file a later read finds was there before. -/
theorem LiveAt.origin {file' : DatabaseFile} (h : LiveAt generation t file') (hst : Foreign s t) :
    ∃ file, LiveAt generation s file ∧ file'.tables = file.tables := by
  have hlt : tombstone t < storedGeneration file' := by
    rw [h.stored]
    exact h.live
  obtain ⟨file, hfile, hopen⟩ := hst.live h.path hlt
  refine ⟨file, ⟨hfile, ?_, ?_⟩, OpenedAs.tables hopen⟩
  · rw [← hopen.storedGeneration]
    exact h.stored
  · rw [← hst.ledger.tombstone]
    exact h.live

/-- A deletion writes only what it may once it has found the session live, and
leaves its tombstone when it succeeds. -/
theorem locked_deleteUserWithReceipt (ho : OrderlyAccount s) (hpos : 1 ≤ generation)
    (hle : generation ≤ tombstone s + 1)
    (hmine : ∀ file, LiveAt generation s file →
      sessionID.all (liveDeletionSession file.tables credential) = true → mine generation) :
    Meets Foreign (Moves mine)
      (fun r t => ReceiptDeletion generation credential csrfHash sessionID s r ∧
        (r = .ok () → generation ≤ tombstone t))
      (deleteUserWithReceipt generation credential csrfHash sessionID now) s := by
  refine Meets.bind (locked_committedDeletionReceipt ho) (fun found t ⟨hst, hfound⟩ => ?_)
    fun e t ⟨hst, hfound⟩ => ?_
  case refine_2 =>
    cases hfound with
    | unauthorized hzero => exact ⟨.zero hzero, fun h => by cases h⟩
    | unbound _ hu hunbound =>
      obtain ⟨hzero, hsome⟩ := hu.unbound ho hunbound
      obtain ⟨file, hlive⟩ := liveAt_first ho hpos hle hzero hsome
      exact ⟨.live hlive fun h => (by cases h), fun h => by cases h⟩
  have ho' := hst.onward.orderly ho
  have htomb := hst.ledger.tombstone
  cases hfound with
  | @committed receipt _ hstored hvalid hcovered =>
    rw [htomb] at hcovered
    rw [meets_bind, meets_require]
    split
    case isFalse hguard =>
      refine ⟨.receipted (.refused hstored hcovered (or_iff_not_imp_left.mpr fun heq => ?_)),
        fun h => by cases h⟩
      simp only [ne_eq, not_not] at heq
      simpa [heq] using hguard
    case isTrue hguard =>
    have hmatch : receipt.generation = generation ∧
        (credential.method = .cookie → receipt.csrfHash = csrfHash) := by
      simpa [imp_iff_not_or] using hguard
    rw [hmatch.1] at hcovered
    have hcovered' : generation ≤ tombstone t := by rw [htomb]; exact hcovered
    refine Meets.imp (locked_purgeReceiptedGeneration ho' hpos hcovered') fun r u hr => ?_
    rw [hr.2, hr.1.ledger.tombstone]
    exact ⟨.receipted (.confirmed hstored hmatch.1 hcovered hmatch.2), fun _ => hcovered'⟩
  | none =>
    refine Meets.bind (locked_openExistingUser ho') (fun db u ⟨htu, hopened⟩ => ?_)
      fun e u ⟨htu, hopened⟩ => ?_
    case refine_2 =>
      cases hopened with
      | notFound => exact ⟨.refused .notFound, fun h => by cases h⟩
      | accountDeleted => exact ⟨.refused .accountDeleted, fun h => by cases h⟩
      | unbound hzero hsome =>
        obtain ⟨file, hlive⟩ := liveAt_first ho' hpos (by omega) hzero hsome
        obtain ⟨file₀, hlive₀, -⟩ := hlive.origin hst
        exact ⟨.live hlive₀ fun h => (by cases h), fun h => by cases h⟩
    cases hopened with
    | @opened file' _ hfile hlt htables hgen =>
      refine Meets.bind (locked_closeDatabase _) (fun _ v ⟨huv, _⟩ => ?_) fun e v h => by cases h.2
      rw [meets_bind, meets_lift, hgen]
      dsimp only
      rw [meets_bind, meets_require]
      split
      case isFalse => exact ⟨.refused .accountGenerationChanged, fun h => by cases h⟩
      case isTrue heq =>
      have heq := of_decide_eq_true heq
      have hlive : LiveAt generation t file' := ⟨hfile, heq, heq ▸ hlt⟩
      obtain ⟨file, hlive₀, hsame⟩ := hlive.origin hst
      dsimp only
      rw [meets_bind, meets_require]
      split
      case isFalse => exact ⟨.live hlive₀ fun h => (by cases h), fun h => by cases h⟩
      case isTrue hsession =>
      have hsession₀ : sessionID.all (liveDeletionSession file.tables credential) = true := by
        rw [← hsame, ← htables]
        exact hsession
      have hmine := hmine file hlive₀ hsession₀
      have hdone : ∀ r : Except StoreError Unit,
          ReceiptDeletion generation credential csrfHash sessionID s r := fun r =>
        .live hlive₀ fun _ => hsession₀
      have htv := htu.trans huv
      have hown := (hlive.own ho' hmine).foreign htv
      have hbelow := htv.below hpos hlive.below
      refine Meets.bind (locked_writeDeletionReceipt hown hbelow hpos hmine)
        (fun _ w hw => ?_) fun e _ _ => ⟨hdone _, fun h => by cases h⟩
      refine Meets.bind (locked_recordDeletion hw.1 hw.2 (hlive.valid ho') (.inr hmine))
        (fun _ x hx => ?_) fun e _ _ => ⟨hdone _, fun h => by cases h⟩
      refine Meets.imp (locked_purgeReceiptedGeneration hx.1.orderly hpos (hx.2 rfl).2)
        fun r y hr => ⟨hdone r, fun _ => ?_⟩
      rw [hr.1.ledger.tombstone]
      exact (hx.2 rfl).2

end

/-! ## Calls for any generation -/

/-- A call may write whatever is live. -/
abbrev Anything : Nat → Prop := fun _ => True

section
variable {s t : AccountDisk} {deleted generation : Nat} {now : WallClock}

theorem locked_currentOrNextAccountGeneration (ho : OrderlyAccount s) :
    Meets Foreign (Moves Anything) (fun r t => Foreign s t ∧ ∀ generation, r = .ok generation →
      validGeneration generation = true ∧ Below generation t) currentOrNextAccountGeneration s := by
  refine Meets.bind (locked_deletedGeneration ho) (fun deleted t hread => ?_)
    fun e t h => ⟨h.1, fun _ h => by cases h⟩
  obtain ⟨hst, hd⟩ := hread
  have hdeleted : deleted = tombstone t := by
    rcases hd with hd | ⟨⟨_, h⟩, -⟩
    · exact (Except.ok.inj hd).trans hst.ledger.tombstone.symm
    · cases h
  subst hdeleted
  have ho' := hst.onward.orderly ho
  refine Meets.bind locked_present (fun present u hread => ?_) fun e u h => by cases h.2
  obtain ⟨htu, hpresent⟩ := hread
  obtain rfl := Except.ok.inj hpresent
  cases hfile : t.file with
  | none =>
    refine ⟨hst.trans htu, fun generation h => ?_⟩
    cases h
    have hbelow : Below (if 0 < tombstone t then tombstone t else 1) t := fun file h => by
      rw [hfile] at h
      cases h
    by_cases hpos : 0 < tombstone t
    · rw [if_pos hpos] at hbelow ⊢
      exact ⟨ho'.tombstone_valid hpos, htu.below hpos hbelow⟩
    · rw [if_neg hpos] at hbelow ⊢
      exact ⟨rfl, htu.below (le_refl 1) hbelow⟩
  | some file =>
    have hp : Present u := htu.present fun _ => by rw [hfile]; rfl
    have ho'' := htu.onward.orderly ho'
    obtain ⟨hgen, hvalid, hle⟩ := ho''.fileAt.accountGeneration
    have hpos := ho''.fileAt.pos
    have hbelow : Below (storedGeneration (fileAt u)) u := fun file h => by
      rw [fileAt, h, Option.getD_some]
    refine Meets.bind (locked_openDatabase ho'' hp) (fun db v hopened => ?_)
      fun e v h => by cases h.2
    obtain ⟨huv, hdb⟩ := hopened
    obtain rfl := Except.ok.inj hdb
    refine Meets.bind (locked_closeDatabase _) (fun _ w hclosed => ?_) fun e w h => by cases h.2
    have hvw := hclosed.1
    rw [hgen, meets_bind, meets_lift]
    have huw := huv.trans hvw
    refine ⟨(hst.trans htu).trans huw, fun generation h => ?_⟩
    cases h
    have hbelow' := huw.below hpos hbelow
    refine ⟨?_, fun file h => (hbelow' file h).trans (le_max_right _ _)⟩
    rcases le_total (tombstone t) (storedGeneration (fileAt u)) with h | h
    · rw [max_eq_right h]
      exact hvalid
    · rw [max_eq_left h]
      exact ho'.tombstone_valid (hpos.trans h)

theorem locked_deleteUser (ho : OrderlyAccount s) :
    Meets Foreign (Moves Anything) (fun _ _ => True) (deleteUser now) s := by
  refine Meets.bind (locked_currentOrNextAccountGeneration ho) (fun generation t ht => ?_)
    fun _ _ _ => trivial
  obtain ⟨hvalid, hbelow⟩ := ht.2 generation rfl
  exact locked_finishDeletion (.any (ht.1.onward.orderly ho)) hbelow hvalid trivial

/-- A file the ledger calls deleted is cleared away for a new account. -/
theorem locked_openReusableAccount (ho : OrderlyAccount s) :
    Meets Foreign (Moves Anything) (fun r t => Foreign s t ∧ ∃ reusable, r = .ok reusable)
      (openReusableAccount (tombstone s)) s := by
  refine Meets.bind locked_present (fun present t hread => ?_) fun e t h => by cases h.2
  obtain ⟨hst, hpresent⟩ := hread
  obtain rfl := Except.ok.inj hpresent
  cases hfile : s.file with
  | none => exact ⟨hst, none, rfl⟩
  | some file =>
    have hp : Present t := hst.present fun _ => by rw [hfile]; rfl
    have ho' := hst.onward.orderly ho
    refine Meets.bind (locked_openDatabase ho' hp) (fun db u hopened => ?_)
      fun e u h => by cases h.2
    obtain ⟨htu, hdb⟩ := hopened
    obtain rfl := Except.ok.inj hdb
    rw [ho'.fileAt.accountGeneration.1]
    dsimp only
    by_cases hlt : tombstone s < storedGeneration (fileAt t)
    · rw [if_pos hlt]
      exact ⟨hst.trans htu, _, rfl⟩
    · rw [if_neg hlt]
      have hdead : ¬ Live t := by
        rintro ⟨file', hfile', hlive⟩
        rw [fileAt, hfile', Option.getD_some, ← hst.ledger.tombstone] at hlt
        exact hlt hlive
      refine Meets.bind (locked_closeDatabase _) (fun _ v hclosed => ?_) fun e v h => by cases h.2
      have htv := htu.trans hclosed.1
      have hpos : 1 ≤ tombstone v := by
        rw [(hst.trans htv).ledger.tombstone]
        have := ho'.fileAt.pos
        omega
      refine Meets.bind (locked_removeUserFiles (htv.dead hdead) hpos) (fun _ w hremoved => ?_)
        fun e w h => by cases h.2
      exact ⟨(hst.trans htv).trans hremoved.1, none, rfl⟩

theorem locked_setAccountGeneration (db : DatabaseFile) (ho : OrderlyAccount s) :
    Meets Foreign (Moves Anything) (fun _ t => OrderlyAccount t)
      (setAccountGeneration db (tombstone s + 1) now) s := by
  rw [setAccountGeneration, meets_bind, meets_require]
  split
  case isFalse => exact ho
  case isTrue hvalid =>
  have hactive : ∀ u, SameLedger s u → Own Anything u →
      Moves Anything u (u.publishLifecycleRecord (tombstone s + 1) .active now) ∧
        Own Anything (u.publishLifecycleRecord (tombstone s + 1) .active now) := by
    intro u hu hP
    have hwrite := hP.publishActive now (by rw [hu.tombstone]; exact hvalid)
    rwa [hu.tombstone] at hwrite
  refine Meets.bind (meets_recordAccountLifecycle (P := Own Anything) foreign_ledger moves_of_quiet
    (fun _ _ h hP => hP.foreign h) (fun _ _ h hP => hP.quiet h) (Own.any ho)
    fun u hu hP _ => hactive u hu hP) (fun _ t ht => ?_) fun _ _ h => h.1.orderly
  obtain ⟨hown, -, hok⟩ := ht
  obtain ⟨hsame, -, -⟩ := hok rfl
  have htomb : tombstone t = tombstone s := hsame.tombstone
  have hlife : t.lifecycleRecord = some ⟨1, tombstone s + 1, .active, now.unixMilli⟩ :=
    hsame.lifecycleRecord
  have hwrite := hown.updateFile db.inode
    (fun file => { file with generation := some (tombstone s + 1) }) fun file hfile => ?_
  · exact ⟨hwrite.1, fun u hu => hu.onward.orderly hwrite.2.orderly⟩
  · have hold := hown.orderly.file file hfile
    refine ⟨⟨hold.supported, fun _ => rfl, fun g hg => ?_⟩, fun hlt => ⟨trivial, fun hpos => ?_⟩⟩
    · cases hg
      exact ⟨hvalid, by rw [htomb]⟩
    · by_cases hversion : file.schemaVersion < currentSchemaVersion
      · -- migrated again, the file would be of the first generation
        rw [storedGeneration, DatabaseFile.migrate, if_pos hversion] at hlt
        simp only [Option.getD_some] at hlt
        omega
      · rw [storedGeneration, DatabaseFile.migrate, if_neg hversion]
        simp [hlife, bindsActive]

theorem quiet_createFile : Quiet s (createFile.exec s).2 := by
  unfold createFile
  rw [Op.exec_modify]
  cases h : s.file with
  | some file => exact .refl s
  | none => exact ⟨⟨rfl, rfl, rfl⟩, fun f hf => .inr ⟨h, .inl (Option.some.inj hf).symm⟩, fun _ => rfl⟩

theorem present_createFile : (createFile.exec s).2.file.isSome = true := by
  unfold createFile
  rw [Op.exec_modify]
  cases h : s.file with
  | some file => rw [h]; rfl
  | none => rfl

theorem locked_openUser (ho : OrderlyAccount s) :
    Meets Foreign (Moves Anything) (fun _ t => OrderlyAccount t) (openUser now) s := by
  refine Meets.bind (locked_deletedGeneration ho) (fun deleted t ⟨hst, hd⟩ => ?_)
    fun e t h => h.1.onward.orderly ho
  have hdeleted : deleted = tombstone t := by
    rcases hd with hd | ⟨⟨_, h⟩, -⟩
    · exact (Except.ok.inj hd).trans hst.ledger.tombstone.symm
    · cases h
  subst hdeleted
  have ho' := hst.onward.orderly ho
  refine Meets.bind (locked_openReusableAccount ho') (fun reusable u ⟨htu, _⟩ => ?_)
    fun e u h => h.1.onward.orderly ho'
  have ho'' := htu.onward.orderly ho'
  cases reusable with
  | some db => exact ho''
  | none =>
    have hown := (Own.any ho'').quiet quiet_createFile
    rw [createAccountDatabase, meets_bind, createFile, meets_modify]
    refine ⟨moves_of_quiet _ _ quiet_createFile, fun v hv => ?_⟩
    have hownv := hown.foreign hv
    have hp : Present v := hv.present fun _ => present_createFile
    have htomb : tombstone v = tombstone t :=
      (hv.ledger.tombstone.trans quiet_createFile.ledger.tombstone).trans htu.ledger.tombstone
    refine Meets.bind (locked_openDatabase hownv.orderly hp) (fun db w ⟨hvw, _⟩ => ?_)
      fun e w h => by cases h.2
    have how := hvw.onward.orderly hownv.orderly
    rw [← htomb, ← hvw.ledger.tombstone]
    by_cases hmax : tombstone w = maxSafeRevision
    · rw [if_pos hmax]
      exact Meets.bind (locked_closeDatabase db) (fun _ x h => h.1.onward.orderly how)
        fun e x h => h.1.onward.orderly how
    · rw [if_neg hmax]
      exact locked_setAccountGeneration db how

/-! ## Starting -/

/-- The lifecycle of a generation with a tombstone is recorded as deleted, and
its files go. -/
theorem locked_finishObligation (ho : OrderlyAccount s) (hvalid : validGeneration generation = true)
    (hle : generation ≤ tombstone s) (hbelow : Below generation s) :
    Meets Foreign (Moves Anything) (fun _ _ => True)
      ((do
        recordDeletedAccountLifecycle generation now
        removeUserFiles) : DiskOp Unit) s := by
  have hpos := (validGeneration_iff.mp hvalid).1
  refine Meets.bind (meets_recordDeletedAccountLifecycle
    (P := fun u => Own Anything u ∧ Below generation u ∧ tombstone u = tombstone s)
    foreign_ledger moves_of_quiet
    (fun _ _ h hP => ⟨hP.1.foreign h, h.below hpos hP.2.1, h.ledger.tombstone.trans hP.2.2⟩)
    (fun _ _ h hP => ⟨hP.1.quiet h, UnlockedOpen.below_quiet hpos h hP.2.1,
      h.ledger.tombstone.trans hP.2.2⟩) ⟨.any ho, hbelow, rfl⟩ (fun u hu hP hallow => ?_))
    (fun _ t ht => ?_) fun _ _ _ => trivial
  · rw [← hu.lifecycleRecord] at hallow
    have hwrite := hP.1.publishDeleted now hvalid (by rw [hP.2.2]; exact hle) hallow
    exact ⟨hwrite.1, hwrite.2, hP.2.1, hP.2.2⟩
  · obtain ⟨⟨-, hbelow', htomb⟩, -⟩ := ht
    have hle' : generation ≤ tombstone t := by rw [htomb]; exact hle
    exact Meets.imp (locked_removeUserFiles (not_live hbelow' hle') (hpos.trans hle'))
      fun _ _ _ => trivial

theorem locked_applyAccountDeletionObligation (ho : OrderlyAccount s) :
    Meets Foreign (Moves Anything) (fun _ _ => True) (applyAccountDeletionObligation now) s := by
  refine Meets.bind (locked_deletedGeneration ho) (fun deleted t ⟨hst, hd⟩ => ?_) fun _ _ _ => trivial
  have hdeleted : deleted = tombstone s := by
    rcases hd with hd | ⟨⟨_, h⟩, -⟩
    · exact Except.ok.inj hd
    · cases h
  have ho' := hst.onward.orderly ho
  refine Meets.bind (locked_accountLifecycle ho') (fun lifecycle u ⟨htu, _⟩ => ?_) fun _ _ _ => trivial
  refine Meets.bind locked_present (fun present v ⟨huv, hpresent⟩ => ?_) fun _ _ _ => trivial
  obtain rfl := Except.ok.inj hpresent
  have hou := htu.onward.orderly ho'
  have hov := huv.onward.orderly hou
  have hsv := (hst.trans htu).trans huv
  cases hfile : u.file with
  | none =>
    simp only [Option.isSome_none, Bool.false_eq_true, if_false]
    split
    case isFalse => trivial
    case isTrue hguard =>
    simp only [Bool.and_eq_true, decide_eq_true_eq] at hguard
    obtain ⟨-, hpos⟩ := hguard
    have hbelow : Below deleted u := fun file h => by
      rw [hfile] at h
      cases h
    have htomb : tombstone v = deleted := hsv.ledger.tombstone.trans hdeleted.symm
    exact locked_finishObligation hov (by rw [← htomb]; exact hov.tombstone_valid (by omega))
      htomb.ge (huv.below hpos hbelow)
  | some file =>
    have hp : Present v := huv.present fun _ => by rw [hfile]; rfl
    obtain ⟨-, hvalid, -⟩ := hov.fileAt.accountGeneration
    refine Meets.bind (locked_of_peeks (peeks_readStoredAccountGeneration Foreign.refl foreign_trans
      foreign_of_peek hov hp)) (fun generation w ⟨hvw, hg⟩ => ?_) fun _ _ _ => trivial
    obtain rfl := Except.ok.inj hg
    split
    case isTrue hle =>
      have hbelow : Below (storedGeneration (fileAt v)) v := fun file h => by
        rw [fileAt, h, Option.getD_some]
      refine locked_finishObligation (hvw.onward.orderly hov) hvalid ?_
        (hvw.below hov.fileAt.pos hbelow)
      rw [hvw.ledger.tombstone, hsv.ledger.tombstone, ← hdeleted]
      exact hle
    case isFalse =>
      rw [meets_require]
      split <;> trivial

theorem locked_startAccount (ho : OrderlyAccount s) :
    Meets Foreign (Moves Anything) (fun _ _ => True) (startAccount now) s := by
  have hentry : Peeks Foreign (fun _ _ => True) validateAccountLifecycleEntry s := by
    refine (Peeks.step foreign_trans foreign_of_peek (.refl s)).bind foreign_trans
      (fun recorded t hst _ => ?_) fun _ _ _ _ => trivial
    cases recorded with
    | none => exact ⟨.refl t, trivial⟩
    | some lifecycle =>
      dsimp only
      rw [Peeks, meets_bind, meets_require]
      split
      case isFalse => exact ⟨.refl t, trivial⟩
      case isTrue =>
      refine (peeks_readDeletionRecord foreign_trans foreign_of_peek
        (hst.onward.orderly ho)).bind foreign_trans (fun deleted u _ _ => ?_) fun _ _ _ _ => trivial
      rw [Peeks, meets_require]
      split <;> exact ⟨.refl u, trivial⟩
  refine Meets.bind (locked_of_peeks hentry) (fun _ t hchecked => ?_) fun _ _ _ => trivial
  refine Meets.bind (locked_of_peeks (Peeks.step foreign_trans foreign_of_peek (.refl t)))
    (fun stored u hread => ?_) fun _ _ _ => trivial
  cases stored with
  | false => trivial
  | true =>
    have hsu := hchecked.1.trans hread.1
    exact locked_applyAccountDeletionObligation (hsu.onward.orderly ho)

end

end Pomodorough.Store.LockedCalls
