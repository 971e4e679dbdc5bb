import Pomodorough.Store.Resurrection
import Pomodorough.Store.Sequential

/-! # What a successful deletion covers

The generation to tombstone comes from the file, the tombstone or the lifecycle
record, whichever is there; the file may be missing or an older copy. -/
namespace Pomodorough.Store.Coverage
open Pomodorough.Library.AtomicSteps Pomodorough.Library.Serialized
open Pomodorough.Store.Records Pomodorough.Store.DeletionLedger Pomodorough.Store.Accounts
open Pomodorough.Store.LedgerSpec Pomodorough.Store.Resurrection Pomodorough.Store.Sequential

/-- The run so far has recorded an activation of this generation. -/
def Activated (c : AccountConfig) (generation : Nat) : Prop :=
  ∃ past record, Account .initial past ∧ Account past c ∧
    past.shared.lifecycleRecord = some record ∧ record.state = .active ∧
    record.generation = generation

/-- The deletion that ended in `t` covers the account's whole past. -/
structure Covers (c : AccountConfig) (t : AccountDisk) : Prop where
  activations : ∀ generation, Activated c generation → generation ≤ tombstone t
  deleted : ∃ record, t.lifecycleRecord = some record ∧ record.state = .deleted
  /-- No copy of the account's file will open again. -/
  copies : ∀ file, c.shared.file = some file ∨ file ∈ c.parties →
    storedGeneration file ≤ tombstone t

/-- The deletion that ended in `t` covers the past up to this generation, and
touched nothing above it. -/
structure CoversUpTo (c : AccountConfig) (generation : Nat) (t : AccountDisk) : Prop where
  tombstone : generation ≤ LedgerSpec.tombstone t
  activations : ∀ past, Activated c past → past ≤ generation → past ≤ LedgerSpec.tombstone t
  ledger : SameLedger c.shared t

section
variable {c : AccountConfig} {s t : AccountDisk} {generation : Nat}

theorem consistent_of_run (hc : Account .initial c) : Consistent c.shared c.parties :=
  (account_rules.runs holds_initial hc).inv

theorem activated_le (h : Activated c generation) :
    generation ≤ lifecycleGeneration c.shared.lifecycleRecord := by
  obtain ⟨past, record, hpast, hc, hrec, -, rfl⟩ := h
  have hres := (account_noResurrection hpast hc).generation
  rw [hrec] at hres
  exact hres

/-- Past the ledger's generation, a tombstone covers everything. -/
theorem covers_of_tombstone (hc : Account .initial c) (hpos : 1 ≤ tombstone t)
    (hle : lifecycleGeneration c.shared.lifecycleRecord ≤ tombstone t)
    (hdel : ∃ record, t.lifecycleRecord = some record ∧ record.state = .deleted) :
    Covers c t where
  activations _ h := (activated_le h).trans hle
  deleted := hdel
  copies file hfile := by
    have hcons := consistent_of_run hc
    have hbound : storedGeneration file ≤ max 1 (lifecycleGeneration c.shared.lifecycleRecord) :=
      hfile.elim (hcons.file file) (hcons.backups file)
    omega

/-- Recording a deletion at or above the ledger's generation. -/
theorem recordDeletion_covers {now : WallClock}
    (h : (recordDeletion generation now).exec s = (.ok (), t)) (hpos : 1 ≤ generation)
    (hle : lifecycleGeneration s.lifecycleRecord ≤ max (tombstone s) generation) :
    1 ≤ tombstone t ∧ lifecycleGeneration s.lifecycleRecord ≤ tombstone t ∧
      ∃ record, t.lifecycleRecord = some record ∧ record.state = .deleted := by
  have hmeets : Meets SameLedger (fun _ _ => True) _ (recordDeletion generation now) s :=
    meets_recordDeletion (P := fun _ => True) (fun _ _ => id) (fun _ _ _ => trivial)
      (fun _ _ _ _ => trivial) (fun _ _ _ _ => trivial) trivial
      (fun _ _ _ => ⟨trivial, trivial⟩) (fun _ _ _ _ _ _ => ⟨trivial, trivial⟩)
  have hrecord := hmeets.exec .refl
  rw [h] at hrecord
  obtain ⟨htomb, hlife, -, -⟩ := hrecord.2.2 rfl
  rw [htomb] at hlife ⊢
  refine ⟨by omega, hle, ?_⟩
  rcases hlife with ⟨hlt, -⟩ | ⟨-, hrec⟩
  · omega
  · exact ⟨_, hrec, rfl⟩

theorem Neutral.exec {α : Type} {Q : α → Prop} {x : DiskOp α} {r : Except StoreError α}
    (h : Neutral Q x s) (hx : x.exec s = (r, t)) : SameLedger s t := by
  have hmeets := (Meets.exec h .refl).1
  rw [hx] at hmeets
  exact hmeets

/-- A deletion recorded at or above the ledger's generation covers the account,
whatever is done to the files around it. -/
theorem covers_of_recordDeletion {u v : AccountDisk} {now : WallClock} (hc : Account .initial c)
    (htomb : tombstone u = tombstone c.shared)
    (hlife : u.lifecycleRecord = c.shared.lifecycleRecord) (hpos : 1 ≤ generation)
    (hle : lifecycleGeneration c.shared.lifecycleRecord ≤ max (tombstone c.shared) generation)
    (h : (recordDeletion generation now).exec u = (.ok (), v)) (hv : SameLedger v t) :
    Covers c t := by
  rw [← hlife, ← htomb] at hle
  obtain ⟨hone, hgen, record, hrec, hdel⟩ := recordDeletion_covers h hpos hle
  rw [hlife] at hgen
  rw [← hv.tombstone] at hone hgen
  exact covers_of_tombstone hc hone hgen ⟨record, hv.lifecycleRecord.trans hrec, hdel⟩

/-! ## The entry points -/

theorem deleteUserForGeneration_covers (hc : Account .initial c) {now : WallClock}
    (h : (deleteUserForGeneration generation now).exec c.shared = (.ok (), t)) : Covers c t := by
  obtain ⟨db, u, ho, h₁⟩ := Op.exec_bind_ok.mp h
  obtain ⟨file, generation', -, rfl, hg, -, hbind, rfl⟩ := exec_openExistingUser_ok ho
  obtain ⟨_, v, hclose, h₂⟩ := Op.exec_bind_ok.mp h₁
  obtain ⟨current, _, hcur, h₃⟩ := Op.exec_bind_ok.mp h₂
  obtain ⟨hcur, rfl⟩ := Op.exec_lift_ok.mp hcur
  rw [hg] at hcur
  cases hcur
  obtain ⟨_, _, hreq, h₄⟩ := Op.exec_bind_ok.mp h₃
  obtain ⟨-, rfl⟩ := Op.exec_require_ok.mp hreq
  obtain ⟨_, w, hrecord, hremove⟩ := Op.exec_bind_ok.mp h₄
  have hv : SameLedger c.shared v :=
    closed_sameLedger.trans (Neutral.exec (neutral_closeDatabase _) hclose)
  refine covers_of_recordDeletion hc hv.tombstone hv.lifecycleRecord (accountGeneration_ok hg).2.1
    ?_ hrecord (Neutral.exec neutral_removeUserFiles hremove)
  rw [lifecycleGeneration_of_bindsActive hbind]
  exact le_max_right _ _

/-- What `DeleteUser` can tell the account's generation from: its own file, or
a tombstone that is up to date or was never written. -/
def DeleteUserKnows (s : AccountDisk) : Prop :=
  (∃ file, s.file = some file ∧
    storedGeneration file = lifecycleGeneration s.lifecycleRecord) ∨
  lifecycleGeneration s.lifecycleRecord ≤ tombstone s ∨ tombstone s = 0

theorem deleteUser_covers (hc : Account .initial c) (hknows : DeleteUserKnows c.shared)
    {now : WallClock} (h : (deleteUser now).exec c.shared = (.ok (), t)) : Covers c t := by
  have hnext := (consistent_of_run hc).next
  obtain ⟨generation, u, hcur, h₁⟩ := Op.exec_bind_ok.mp h
  obtain ⟨_, v, hrecord, hremove⟩ := Op.exec_bind_ok.mp h₁
  have hv := Neutral.exec neutral_removeUserFiles hremove
  rcases exec_currentOrNextAccountGeneration_ok hcur with
    ⟨hnone, hgen, hu⟩ | ⟨file, stored, hfile, hg, -, hgen, hu⟩
  · subst hu
    have hpos : 1 ≤ generation := by
      rw [hgen]
      split <;> omega
    refine covers_of_recordDeletion hc rfl rfl hpos ?_ hrecord hv
    rcases hknows with ⟨file, hfile, -⟩ | hle | hzero
    · rw [hnone] at hfile
      cases hfile
    · omega
    · omega
  · subst hu
    obtain ⟨hstored, hpos, -⟩ := accountGeneration_ok hg
    refine covers_of_recordDeletion (u := closed c.shared file) hc rfl rfl (by omega) ?_ hrecord hv
    rcases hknows with ⟨file', hfile', heq⟩ | hle | hzero
    · rw [hfile] at hfile'
      cases hfile'
      simp only [storedGeneration, hstored, Option.getD_some] at heq
      omega
    · omega
    · omega

section Receipts
variable {credential : DeletionCredential} {csrfHash : Option Hash} {sessionID : Option String}
  {now : WallClock}

theorem deleteUserWithReceipt_live (hc : Account .initial c) {u : AccountDisk}
    (hread : (committedDeletionReceipt credential).exec c.shared = (.ok none, u))
    (h : (deleteUserWithReceipt generation credential csrfHash sessionID now).exec c.shared =
      (.ok (), t)) : Covers c t := by
  have hneutral : Neutral _ (committedDeletionReceipt credential) c.shared :=
    .of_reads (reads_committedDeletionReceipt (fun _ _ => id) credential c.shared)
  have hu := Neutral.exec hneutral hread
  rw [deleteUserWithReceipt, Op.exec_bind, hread] at h
  obtain ⟨db, v, ho, h₁⟩ := Op.exec_bind_ok.mp h
  obtain ⟨file, generation', -, rfl, hg, -, hbind, rfl⟩ := exec_openExistingUser_ok ho
  obtain ⟨_, w, hclose, h₂⟩ := Op.exec_bind_ok.mp h₁
  obtain ⟨current, _, hcur, h₃⟩ := Op.exec_bind_ok.mp h₂
  obtain ⟨hcur, rfl⟩ := Op.exec_lift_ok.mp hcur
  rw [hg] at hcur
  cases hcur
  obtain ⟨_, _, hreq, h₄⟩ := Op.exec_bind_ok.mp h₃
  obtain ⟨heq, rfl⟩ := Op.exec_require_ok.mp hreq
  obtain rfl := of_decide_eq_true heq
  obtain ⟨_, _, hreq', h₅⟩ := Op.exec_bind_ok.mp h₄
  obtain ⟨-, rfl⟩ := Op.exec_require_ok.mp hreq'
  obtain ⟨_, x, hwrite, h₆⟩ := Op.exec_bind_ok.mp h₅
  obtain ⟨_, y, hrecord, hpurge⟩ := Op.exec_bind_ok.mp h₆
  obtain ⟨receipts, rfl⟩ := exec_writeDeletionReceipt_ok hwrite
  have hw : SameLedger c.shared w :=
    (hu.trans closed_sameLedger).trans (Neutral.exec (neutral_closeDatabase _) hclose)
  refine covers_of_recordDeletion (u := { w with receipts }) hc hw.tombstone hw.lifecycleRecord
    (accountGeneration_ok hg).2.1 ?_ hrecord
    (Neutral.exec (neutral_purgeReceiptedGeneration _) hpurge)
  rw [← hu.lifecycleRecord, lifecycleGeneration_of_bindsActive hbind]
  exact le_max_right _ _

/-- A credential with a committed receipt only confirms what it deleted. -/
theorem deleteUserWithReceipt_receipted {u : AccountDisk} {receipt : DeletionReceipt}
    (hread : (committedDeletionReceipt credential).exec c.shared = (.ok (some receipt), u))
    (h : (deleteUserWithReceipt generation credential csrfHash sessionID now).exec c.shared =
      (.ok (), t)) : CoversUpTo c generation t := by
  have hreads := reads_committedDeletionReceipt (R := SameLedger) (fun _ _ => id) credential c.shared
  have hu := Neutral.exec (.of_reads hreads) hread
  have hcommitted := (Meets.exec hreads .refl).2
  rw [hread] at hcommitted
  obtain ⟨-, hle, -⟩ := hcommitted _ rfl _ rfl
  rw [deleteUserWithReceipt, Op.exec_bind, hread] at h
  obtain ⟨_, _, hreq, hpurge⟩ := Op.exec_bind_ok.mp h
  obtain ⟨hguard, rfl⟩ := Op.exec_require_ok.mp hreq
  have heq : receipt.generation = generation := by
    simp only [Bool.not_eq_true', Bool.or_eq_false_iff, bne_eq_false_iff_eq] at hguard
    exact hguard.1
  have ht := hu.trans (Neutral.exec (neutral_purgeReceiptedGeneration _) hpurge)
  rw [heq, ← ht.tombstone] at hle
  exact ⟨hle, fun _ _ hpast => hpast.trans hle, ht⟩

end Receipts

/-! ## Every deletion -/

/-- What a successful deletion promises of the run before it. -/
def Promises (c : AccountConfig) (t : AccountDisk) : Call → Prop
  | .deleteUser _ => DeleteUserKnows c.shared → Covers c t
  | .deleteUserForGeneration _ _ => Covers c t
  | .deleteUserWithReceipt generation credential _ _ _ =>
    match ((committedDeletionReceipt credential).exec c.shared).1 with
    | .ok (some _) => CoversUpTo c generation t
    | _ => Covers c t
  | .openUser _ | .openExistingUser | .restart _ => True

theorem deletion_promises (hc : Account .initial c) {call : Call}
    (h : call.body.exec c.shared = (.ok none, t)) : Promises c t call := by
  cases call with
  | openUser _ | openExistingUser | restart _ => trivial
  | deleteUser now =>
    obtain ⟨_, _, h, hpure⟩ := Op.exec_bind_ok.mp h
    cases hpure
    exact fun hknows => deleteUser_covers hc hknows h
  | deleteUserForGeneration generation now =>
    obtain ⟨_, _, h, hpure⟩ := Op.exec_bind_ok.mp h
    cases hpure
    exact deleteUserForGeneration_covers hc h
  | deleteUserWithReceipt generation credential csrfHash sessionID now =>
    obtain ⟨_, _, h, hpure⟩ := Op.exec_bind_ok.mp h
    cases hpure
    simp only [Promises]
    rcases hread : (committedDeletionReceipt credential).exec c.shared with ⟨r, u⟩
    match r with
    | .ok (some receipt) => exact deleteUserWithReceipt_receipted hread h
    | .ok none => exact deleteUserWithReceipt_live hc hread h
    | .error e =>
      rw [deleteUserWithReceipt, Op.exec_bind, hread] at h
      cases h

end

/-! ## A receipt met again after the account was recreated -/

def firstCredential : DeletionCredential := ⟨1, .bearer⟩

/-- Deleted with a receipt and created again. -/
def recreated : AccountDisk :=
  { secondCreated with receipts := [(firstCredential, ⟨1, 1, none⟩)] }

/-- The second time the receipt answers for the first deletion alone. -/
def retryFirstDeletion : Call := .deleteUserWithReceipt 1 firstCredential none none firstClock

theorem recreated_reachable : Account .initial ⟨recreated, [], none⟩ := by
  have hcreate : Account .initial ⟨firstCreated, [], none⟩ :=
    Account.call (.openUser firstClock) rfl
  have hdelete : Account ⟨firstCreated, [], none⟩
      ⟨(retryFirstDeletion.body.exec firstCreated).2, [], none⟩ :=
    Account.call retryFirstDeletion rfl
  have hrecreate : Account ⟨(retryFirstDeletion.body.exec firstCreated).2, [], none⟩
      ⟨recreated, [], none⟩ := Account.call (.openUser firstClock) rfl
  exact (hcreate.trans hdelete).trans hrecreate

/-- The recreated account with its database lost. -/
def recreatedLost : AccountDisk :=
  { recreated with file := none, wal := false, shm := false }

/-- Not every successful deletion covers the account's past: a replayed receipt
leaves the generation created since active, and so does `DeleteUser` when only
the older tombstone is left to tell the generation from. -/
theorem not_every_deletion_covers :
    (¬ ∀ (c : AccountConfig) (generation : Nat) (credential : DeletionCredential)
      (csrfHash : Option Hash) (sessionID : Option String) (now : WallClock) (t : AccountDisk),
      Account .initial c →
      (deleteUserWithReceipt generation credential csrfHash sessionID now).exec c.shared =
        (.ok (), t) → Covers c t) ∧
    ¬ ∀ (c : AccountConfig) (now : WallClock) (t : AccountDisk), Account .initial c →
      (deleteUser now).exec c.shared = (.ok (), t) → Covers c t := by
  constructor
  · intro hall
    have hcovers := hall ⟨recreated, [], none⟩ 1 firstCredential none none firstClock _
      recreated_reachable rfl
    obtain ⟨record, hrec, hdel⟩ := hcovers.deleted
    cases hrec
    cases hdel
  · intro hall
    have hlost : Account .initial ⟨recreatedLost, [], none⟩ :=
      recreated_reachable.trans (Runs.single (.other Restores.lose) trivial)
    obtain ⟨record, hrec, hdel⟩ := (hall _ firstClock _ hlost rfl).deleted
    cases hrec
    cases hdel

theorem deletion_promises_second : Promises ⟨recreated, [], none⟩
    ((Call.deleteUserForGeneration 2 firstClock).body.exec recreated).2
    (.deleteUserForGeneration 2 firstClock) :=
  deletion_promises recreated_reachable rfl

end Pomodorough.Store.Coverage
