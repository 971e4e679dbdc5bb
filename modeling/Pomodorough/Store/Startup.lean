import Pomodorough.Store.Creation

/-! # The registry, after an interrupted creation

All accounts of one data directory, and the startup that must accept every one
of them before any can be opened. -/
namespace Pomodorough.Store.Startup
open Pomodorough.Library.AtomicSteps Pomodorough.Store.Records Pomodorough.Store.DeletionLedger
open Pomodorough.Store.Accounts Pomodorough.Store.LedgerSpec Pomodorough.Store.Sequential
open Pomodorough.Store.Creation

/-! ## One account from any stage of its creation -/

/-- `OpenUser` succeeds, with the ledger's active generation. -/
def Reopens (disk : AccountDisk) : Prop :=
  ∀ now, ∃ db after generation, (openUser now).exec disk = (.ok db, after) ∧
    accountGeneration db = .ok generation ∧
    bindsActive after.lifecycleRecord generation = true

/-- Startup accepts the account: its ledger entry, and its files if it has any. -/
structure Starts (disk : AccountDisk) : Prop where
  inventory : validateAccountLifecycleEntry.exec disk = (.ok (), disk)
  obligations : disk.hasStorage = true →
    ∀ now, ((applyAccountDeletionObligation now).exec disk).1 = .ok ()

/-- A creation stopped at `disk` can be finished: a generation is left, and the
account was deleted before, or no file exists yet, or the ledger has recorded
the first generation. -/
def CanFinish (disk : AccountDisk) : Prop :=
  tombstone disk < maxSafeRevision ∧ (1 ≤ tombstone disk ∨ disk.file = none ∨
    bindsActive disk.lifecycleRecord 1 = true)

section Stages
variable {s t : AccountDisk} {now : WallClock}

theorem stage_tombstone (h : Stage s now t) : tombstone t = tombstone s := by
  cases h <;> rfl

theorem reopens_missing (h : s.file = none) (hcan : CanActivate s) : Reopens s := by
  intro now'
  refine ⟨_, _, tombstone s + 1, exec_openUser_missing h hcan, ?_, ?_⟩
  · simp only [accountGeneration]
    exact if_pos (validGeneration_next hcan.2.1)
  · simp [bindsActive, createdAccount, AccountDisk.publishLifecycleRecord, tombstone, withNewFile]

/-- A file of a deleted generation is no obstacle. -/
theorem reopens_deleted {file : DatabaseFile} {generation : Nat} (h : s.file = some file)
    (hs : Supported file) (hg : accountGeneration file.migrate = .ok generation)
    (hle : generation ≤ tombstone s) (hcan : CanActivate s) : Reopens s := by
  intro now'
  have hcan' : CanActivate (removed s) := ⟨⟨hcan.1.deletion, hcan.1.lifecycle⟩, hcan.2⟩
  obtain ⟨db, after, gen, hexec, hgen, hbind⟩ := reopens_missing (s := removed s) rfl hcan' now'
  rw [exec_openUser_create hcan'.1 rfl] at hexec
  exact ⟨db, after, gen, (exec_openUser_deleted hcan.1 h hs hg hle).trans hexec, hgen, hbind⟩

theorem reopens_bound {file : DatabaseFile} {generation : Nat} (hv : ValidLedger s)
    (h : s.file = some file) (hs : Supported file)
    (hg : accountGeneration file.migrate = .ok generation) (hlt : tombstone s < generation)
    (hb : bindsActive s.lifecycleRecord generation = true) : Reopens s :=
  fun _ => ⟨_, _, generation, exec_openUser_bound hv h hs hg hlt hb, hg, hb⟩

theorem newFile_opens (s : AccountDisk) : accountGeneration (newFile s).migrate = .ok 1 := rfl

/-- What the file of a creation holds before its generation is stored. -/
theorem created_file {file : DatabaseFile} (h : OpenedAs (.empty s.nextInode) file) :
    Supported file ∧ accountGeneration file.migrate = .ok 1 := by
  have hmigrate : file.migrate = newFile s := by
    rcases h with rfl | rfl
    · rfl
    · rw [migrate_migrate]
      rfl
  refine ⟨?_, by rw [hmigrate]; rfl⟩
  rcases h with rfl | rfl
  · exact Nat.zero_le 7
  · exact le_refl 7

theorem stage_validLedger (h : Settled s) (ht : Stage s now t) : ValidLedger t := by
  have hrecord : tombstone s < maxSafeRevision → ∀ record : AccountLifecycleRecord,
      some (⟨1, tombstone s + 1, .active, now.unixMilli⟩ : AccountLifecycleRecord) = some record →
      record.valid = true := by
    intro hlt record hrec
    cases hrec
    have hnow := now.positive
    simp [AccountLifecycleRecord.valid, validGeneration_next hlt, hnow]
  cases ht with
  | unstarted => exact h.ledger
  | created _ => exact ⟨h.ledger.deletion, h.ledger.lifecycle⟩
  | activated hlt => exact ⟨h.ledger.deletion, hrecord hlt⟩
  | stored hlt => exact ⟨h.ledger.deletion, hrecord hlt⟩

theorem stage_canActivate (h : Settled s) (hfile : s.file = none) (ht : Stage s now t)
    (hlt : tombstone s < maxSafeRevision) : CanActivate t := by
  have hcan := h.canActivate hfile hlt
  have hactive : LifecycleAllows (some ⟨1, tombstone s + 1, .active, now.unixMilli⟩)
      (tombstone s + 1) .active :=
    ⟨le_rfl, fun record hrec _ hdel => by cases hrec; cases hdel⟩
  refine ⟨stage_validLedger h ht, by rw [stage_tombstone ht]; exact hlt, ?_⟩
  rw [stage_tombstone ht]
  cases ht with
  | unstarted => exact hcan.2.2
  | created _ => exact hcan.2.2
  | activated _ => exact hactive
  | stored _ => exact hactive

/-- Before the ledger has the first generation, no record of it exists. -/
theorem not_bound_before (h : Settled s) (hfile : s.file = none) (generation : Nat) :
    ¬ bindsActive s.lifecycleRecord generation = true := by
  intro hb
  obtain ⟨-, -, -, hdel⟩ := h.missing hfile
  cases hrec : s.lifecycleRecord with
  | none =>
    rw [hrec] at hb
    cases hb
  | some record =>
    rw [hrec] at hb
    simp [bindsActive, hdel record hrec] at hb

/-- A finishable creation is finished by the next open. -/
theorem reopens_of_canFinish (h : Settled s) (hfile : s.file = none) (ht : Stage s now t)
    (hfin : CanFinish t) : Reopens t := by
  obtain ⟨hlt, hwhere⟩ := hfin
  have htomb := stage_tombstone ht
  rw [htomb] at hlt hwhere
  have hcan := stage_canActivate h hfile ht hlt
  have hv := stage_validLedger h ht
  cases ht with
  | unstarted => exact reopens_missing hfile hcan
  | created hopen =>
    obtain ⟨hs, hg⟩ := created_file hopen
    rcases hwhere with hpos | hnone | hb
    · exact reopens_deleted rfl hs hg hpos hcan
    · cases hnone
    · exact absurd hb (not_bound_before h hfile 1)
  | activated _ =>
    have hs : Supported (newFile s) := le_refl 7
    by_cases hpos : 1 ≤ tombstone s
    · exact reopens_deleted rfl hs (newFile_opens s) hpos hcan
    · have hzero : tombstone s = 0 := by omega
      refine reopens_bound hv rfl hs (newFile_opens s) ?_ ?_
      · rw [htomb]
        omega
      · simp [bindsActive, AccountDisk.publishLifecycleRecord, hzero]
  | stored _ =>
    have hgen : accountGeneration { newFile s with generation := some (tombstone s + 1) } =
        .ok (tombstone s + 1) := by
      simp only [accountGeneration]
      exact if_pos (validGeneration_next hlt)
    refine reopens_bound hv rfl (le_refl 7) hgen ?_ ?_
    · rw [htomb]
      omega
    · simp [bindsActive, createdAccount, AccountDisk.publishLifecycleRecord]

/-- No open brings an unfinishable creation back. -/
theorem canFinish_of_reopens (h : Settled s) (hfile : s.file = none) (ht : Stage s now t)
    (hopen : Reopens t) : CanFinish t := by
  have htomb := stage_tombstone ht
  have hv := stage_validLedger h ht
  obtain ⟨db, after, generation, hexec, -, -⟩ := hopen now
  by_cases hlt : tombstone t < maxSafeRevision
  · refine ⟨hlt, ?_⟩
    cases ht with
    | unstarted => exact .inr (.inl hfile)
    | @created file wal shm hopened =>
      by_contra hnot
      obtain ⟨hs, hg⟩ := created_file hopened
      -- the first file is neither deleted nor bound, so the ledger read fails
      have hadm : ¬ Admitted { s with file := some file, wal, shm, nextInode := s.nextInode + 1 } 1 :=
        fun hadm => hnot (hadm.imp id .inr)
      rw [openUser, Op.exec_bind, exec_deletedGeneration_present hv rfl hs hg, if_neg hadm] at hexec
      cases hexec
    | activated _ =>
      by_cases hpos : 1 ≤ tombstone s
      · exact .inl hpos
      · have hzero : tombstone s = 0 := by omega
        exact .inr (.inr (by simp [bindsActive, AccountDisk.publishLifecycleRecord, hzero]))
    | stored _ =>
      by_cases hpos : 1 ≤ tombstone s
      · exact .inl hpos
      · have hzero : tombstone s = 0 := by omega
        exact .inr (.inr (by simp [bindsActive, createdAccount,
          AccountDisk.publishLifecycleRecord, hzero]))
  · have hle := tombstone_le hv
    have hmax : tombstone t = maxSafeRevision := by omega
    have hnone : ∀ u : AccountDisk, u.file = none → tombstone u = tombstone t →
        (createAccountDatabase (tombstone t) now).exec u ≠ (.ok db, after) := by
      intro u hu heq hcreate
      have herr : ((createAccountDatabase (tombstone u) now).exec u).1 = _ :=
        exec_createAccountDatabase_exhausted hu (heq.trans hmax)
      rw [heq, hcreate] at herr
      cases herr
    cases ht with
    | unstarted =>
      rw [exec_openUser_create h.ledger hfile] at hexec
      exact absurd hexec (hnone s hfile rfl)
    | created hopened =>
      obtain ⟨hs, hg⟩ := created_file hopened
      rw [exec_openUser_deleted hv rfl hs hg (by rw [hmax]; decide)] at hexec
      exact absurd hexec (hnone _ rfl rfl)
    | activated hlt' | stored hlt' => exact absurd hlt' (by rw [← htomb]; exact hlt)

/-- Startup accepts a finishable creation. -/
theorem starts_of_canFinish (h : Settled s) (hfile : s.file = none) (ht : Stage s now t)
    (hfin : CanFinish t) : Starts t := by
  obtain ⟨hlt, hwhere⟩ := hfin
  have htomb := stage_tombstone ht
  rw [htomb] at hlt hwhere
  have hv := stage_validLedger h ht
  cases ht with
  | unstarted =>
    refine ⟨exec_validateAccountLifecycleEntry h.ledger h.coherent, fun hstored => ?_⟩
    obtain ⟨hwal, hshm, -, -⟩ := h.missing hfile
    simp [AccountDisk.hasStorage, hfile, hwal, hshm] at hstored
  | created hopen =>
    refine ⟨exec_validateAccountLifecycleEntry hv h.coherent, fun _ now' => ?_⟩
    obtain ⟨hs, hg⟩ := created_file hopen
    rcases hwhere with hpos | hnone | hb
    · exact exec_applyObligation_deleted hv rfl hs hg hpos
    · cases hnone
    · exact absurd hb (not_bound_before h hfile 1)
  | activated _ =>
    refine ⟨exec_validateAccountLifecycleEntry hv ?_, fun _ now' => ?_⟩
    · intro record hrec hdel
      cases hrec
      cases hdel
    have hs : Supported (newFile s) := le_refl 7
    by_cases hpos : 1 ≤ tombstone s
    · exact exec_applyObligation_deleted hv rfl hs (newFile_opens s) hpos
    · have hzero : tombstone s = 0 := by omega
      rw [exec_applyObligation_bound hv rfl hs (newFile_opens s)]
      · rw [htomb]
        omega
      · simp [bindsActive, AccountDisk.publishLifecycleRecord, hzero]
  | stored _ =>
    refine ⟨exec_validateAccountLifecycleEntry hv ?_, fun _ now' => ?_⟩
    · intro record hrec hdel
      cases hrec
      cases hdel
    have hgen : accountGeneration { newFile s with generation := some (tombstone s + 1) } =
        .ok (tombstone s + 1) := by
      simp only [accountGeneration]
      exact if_pos (validGeneration_next hlt)
    rw [exec_applyObligation_bound hv rfl (le_refl 7) hgen]
    · rw [htomb]
      omega
    · simp [bindsActive, createdAccount, AccountDisk.publishLifecycleRecord]

theorem starts_settled (h : Settled s) : Starts s := by
  refine ⟨exec_validateAccountLifecycleEntry h.ledger h.coherent, fun hstored now => ?_⟩
  cases hfile : s.file with
  | none =>
    obtain ⟨hwal, hshm, -, -⟩ := h.missing hfile
    simp [AccountDisk.hasStorage, hfile, hwal, hshm] at hstored
  | some file =>
    obtain ⟨hschema, hactive, hb⟩ := h.active file hfile
    rw [exec_applyObligation_bound h.ledger hfile hschema.le
      ((migrate_current hschema).symm ▸ hactive) (Nat.lt_succ_self _) hb]

end Stages

/-! ## All accounts -/

/-- The accounts of one data directory and its ledger. A user with no entry in
either has a blank account. -/
structure Registry where
  users : List String
  nodup : users.Nodup
  account : String → AccountDisk

def Registry.empty : Registry := ⟨[], List.nodup_nil, fun _ => .blank⟩

/-- One user's files change. -/
def Registry.set (registry : Registry) (user : String) (disk : AccountDisk) : Registry where
  users := if user ∈ registry.users then registry.users else user :: registry.users
  nodup := by
    split
    · exact registry.nodup
    · exact List.nodup_cons.mpr ⟨by assumption, registry.nodup⟩
  account := Function.update registry.account user disk

/-- `validateAccountLifecycleInventory`, over the ledger's entries. -/
def validateAccountLifecycleInventory (registry : Registry) : List String → Except StoreError Unit
  | [] => .ok ()
  | user :: rest => do
    (validateAccountLifecycleEntry.exec (registry.account user)).1
    validateAccountLifecycleInventory registry rest

/-- `accountStorageUserIDs`. -/
def accountStorageUserIDs (registry : Registry) : List String :=
  registry.users.filter fun user => (registry.account user).hasStorage

def applyDeletionObligations (now : WallClock) :
    List String → Registry → Except StoreError Unit × Registry
  | [], registry => (.ok (), registry)
  | user :: rest, registry =>
    match (applyAccountDeletionObligation now).exec (registry.account user) with
    | (.ok _, disk) => applyDeletionObligations now rest (registry.set user disk)
    | (.error e, disk) => (.error e, registry.set user disk)

/-- `NewWithDeletionLedger`, on directories that exist. -/
def newWithDeletionLedger (now : WallClock) (registry : Registry) :
    Except StoreError Unit × Registry :=
  match validateAccountLifecycleInventory registry registry.users with
  | .error e => (.error e, registry)
  | .ok _ => applyDeletionObligations now (accountStorageUserIDs registry) registry

/-- The registries successful calls and restarts lead to. -/
inductive Reachable : Registry → Prop where
  | empty : Reachable .empty
  | call {registry user answer disk} {call : Call} (h : Reachable registry)
      (hrun : call.body.exec (registry.account user) = (.ok answer, disk)) :
      Reachable (registry.set user disk)
  | restart {registry now after} (h : Reachable registry)
      (hrun : newWithDeletionLedger now registry = (.ok (), after)) : Reachable after

section Registry
variable {registry : Registry} {user other : String} {disk : AccountDisk}

@[simp] theorem set_account_self : (registry.set user disk).account user = disk :=
  Function.update_self ..

theorem set_account_other (h : other ≠ user) :
    (registry.set user disk).account other = registry.account other :=
  Function.update_of_ne h ..

theorem set_settled (hall : ∀ user, Settled (registry.account user)) (h : Settled disk) :
    ∀ other, Settled ((registry.set user disk).account other) := by
  intro other
  by_cases heq : other = user
  · subst heq
    rwa [set_account_self]
  · rw [set_account_other heq]
    exact hall other

theorem inventory_ok {users : List String} (hall : ∀ user ∈ users, Starts (registry.account user)) :
    validateAccountLifecycleInventory registry users = .ok () := by
  induction users with
  | nil => rfl
  | cons user rest ih =>
    rw [validateAccountLifecycleInventory, (hall user List.mem_cons_self).inventory]
    exact ih fun other hmem => hall other (List.mem_cons_of_mem _ hmem)

/-- The obligations of distinct users do not interfere. -/
theorem obligations_ok {now : WallClock} {users : List String} (hnodup : users.Nodup)
    (hall : ∀ user ∈ users,
      ((applyAccountDeletionObligation now).exec (registry.account user)).1 = .ok ()) :
    (applyDeletionObligations now users registry).1 = .ok () := by
  induction users generalizing registry with
  | nil => rfl
  | cons user rest ih =>
    obtain ⟨hnot, hrest⟩ := List.nodup_cons.mp hnodup
    have hfirst := hall user List.mem_cons_self
    rcases hexec : (applyAccountDeletionObligation now).exec (registry.account user) with ⟨r, disk⟩
    rw [hexec] at hfirst
    simp only at hfirst
    subst hfirst
    simp only [applyDeletionObligations, hexec]
    refine ih hrest fun other hmem => ?_
    have hne : other ≠ user := fun heq => hnot (heq ▸ hmem)
    rw [set_account_other hne]
    exact hall other (List.mem_cons_of_mem _ hmem)

/-- Startup succeeds when it accepts every account. -/
theorem newWithDeletionLedger_ok {now : WallClock}
    (hall : ∀ user ∈ registry.users, Starts (registry.account user)) :
    (newWithDeletionLedger now registry).1 = .ok () := by
  rw [newWithDeletionLedger, inventory_ok hall]
  refine obligations_ok (registry.nodup.filter _) fun user hmem => ?_
  obtain ⟨hmem, hstored⟩ := List.mem_filter.mp hmem
  exact (hall user hmem).obligations hstored now

theorem obligations_settled {now : WallClock} {users : List String} {after : Registry}
    (hall : ∀ user, Settled (registry.account user))
    (hstored : ∀ user ∈ users, (registry.account user).hasStorage = true) (hnodup : users.Nodup)
    (hrun : applyDeletionObligations now users registry = (.ok (), after)) :
    ∀ user, Settled (after.account user) := by
  induction users generalizing registry with
  | nil =>
    cases hrun
    exact hall
  | cons user rest ih =>
    obtain ⟨hnot, hrest⟩ := List.nodup_cons.mp hnodup
    have hs := hall user
    have hstore := hstored user List.mem_cons_self
    simp only [applyDeletionObligations] at hrun
    cases hfile : (registry.account user).file with
    | none =>
      obtain ⟨hwal, hshm, -, -⟩ := hs.missing hfile
      simp [AccountDisk.hasStorage, hfile, hwal, hshm] at hstore
    | some file =>
      obtain ⟨hschema, hactive, hb⟩ := hs.active file hfile
      rw [exec_applyObligation_bound hs.ledger hfile hschema.le
        ((migrate_current hschema).symm ▸ hactive) (Nat.lt_succ_self _) hb] at hrun
      refine ih (set_settled hall (hs.closed_eq hfile ▸ hs.quiet)) (fun other hmem => ?_) hrest hrun
      have hne : other ≠ user := fun heq => hnot (heq ▸ hmem)
      rw [set_account_other hne]
      exact hstored other (List.mem_cons_of_mem _ hmem)

theorem reachable_settled (h : Reachable registry) : ∀ user, Settled (registry.account user) := by
  induction h with
  | empty => exact fun _ => settled_blank
  | call _ hrun ih => exact set_settled ih (settled_call (ih _) hrun)
  | @restart registry now after _ hrun ih =>
    rw [newWithDeletionLedger, inventory_ok fun user _ => starts_settled (ih user)] at hrun
    exact obligations_settled ih (fun user hmem => (List.mem_filter.mp hmem).2)
      (registry.nodup.filter _) hrun

end Registry

/-! ## An interrupted creation -/

/-- Where `OpenUser` of a missing account stopped: the process at one of its
steps, or with an error there, which closes the handle. -/
def StopsAt (now : WallClock) (start disk : AccountDisk) : Prop :=
  ∃ reached ∈ (openUser now).states start,
    disk = reached ∨ disk = { reached with wal := false, shm := false }

/-- The account reopens and the whole registry starts. -/
structure Recoverable (registry : Registry) (user : String) : Prop where
  reopens : Reopens (registry.account user)
  starts : ∀ now, (newWithDeletionLedger now registry).1 = .ok ()

theorem stage_of_stop {s t : AccountDisk} {now : WallClock} (h : Settled s)
    (hfile : s.file = none) (hstop : StopsAt now s t) : Stage s now t := by
  obtain ⟨reached, hmem, ht⟩ := hstop
  have hstage := stage_of_states h hfile hmem
  rcases ht with rfl | rfl
  · exact hstage
  · cases hstage with
    | unstarted =>
      obtain ⟨hwal, hshm, -, -⟩ := h.missing hfile
      have hsame : ({ s with wal := false, shm := false } : AccountDisk) = s := by
        obtain ⟨file, wal, shm⟩ := s
        simp_all
      rw [hsame]
      exact .unstarted
    | created hopen => exact .created hopen
    | activated hlt => exact .activated hlt
    | stored hlt => exact .stored hlt

/-- An interrupted creation is recoverable exactly when it can be finished. -/
theorem creation_recoverable_iff {registry : Registry} {user : String} {now : WallClock}
    {stopped : AccountDisk} (hreach : Reachable registry)
    (hmissing : (registry.account user).file = none)
    (hstop : StopsAt now (registry.account user) stopped) :
    Recoverable (registry.set user stopped) user ↔ CanFinish stopped := by
  have hall := reachable_settled hreach
  have hstage := stage_of_stop (hall user) hmissing hstop
  constructor
  · intro h
    have hopen := h.reopens
    rw [set_account_self] at hopen
    exact canFinish_of_reopens (hall user) hmissing hstage hopen
  · intro hfin
    refine ⟨?_, fun now' => newWithDeletionLedger_ok fun other _ => ?_⟩
    · rw [set_account_self]
      exact reopens_of_canFinish (hall user) hmissing hstage hfin
    · by_cases heq : other = user
      · subst heq
        rw [set_account_self]
        exact starts_of_canFinish (hall other) hmissing hstage hfin
      · rw [set_account_other heq]
        exact starts_settled (hall other)

/-- The first creation of an account, stopped when its file exists. -/
def firstFileOnly : AccountDisk :=
  { AccountDisk.blank with file := some (.empty 0), nextInode := 1 }

theorem creation_recoverable_iff_first :
    Recoverable (Registry.empty.set "account" firstFileOnly) "account" ↔
      CanFinish firstFileOnly :=
  creation_recoverable_iff .empty rfl
    ⟨firstFileOnly, List.mem_iff_getElem?.mpr ⟨4, (rfl :
      ((openUser firstClock).states .blank)[4]? = some firstFileOnly)⟩, .inl rfl⟩

/-- The first creation is not recoverable at every step. -/
theorem creation_not_always_recoverable : ¬ ∀ (registry : Registry) (user : String)
    (now : WallClock) (stopped : AccountDisk), Reachable registry →
    (registry.account user).file = none → StopsAt now (registry.account user) stopped →
    Recoverable (registry.set user stopped) user := by
  intro hall
  have hstop : firstFileOnly ∈ (openUser firstClock).states .blank :=
    List.mem_iff_getElem?.mpr ⟨4, rfl⟩
  have hrecover := hall .empty "account" firstClock firstFileOnly .empty rfl
    ⟨firstFileOnly, hstop, .inl rfl⟩
  have hopen := hrecover.reopens firstClock
  rw [set_account_self] at hopen
  obtain ⟨db, after, generation, hexec, -, -⟩ := hopen
  have herr : ((openUser firstClock).exec firstFileOnly).1 =
      .error (.failure "account database is not bound to current ledger lifecycle") := rfl
  rw [hexec] at herr
  cases herr

end Pomodorough.Store.Startup
