import Pomodorough.Library.OrderedMaps
import Pomodorough.Store.Readiness

/-! # What is ready starts

Readiness asks of every stored account that its database is of the current
schema and bound to the ledger. Startup opens such an account and leaves it as
it is. -/
namespace Pomodorough.Store.ReadyStarts
open Pomodorough.Library Pomodorough.Library.Fallible Pomodorough.Library.AtomicSteps
open Pomodorough.Library.KeyedLog
open Pomodorough.Store.Records Pomodorough.Store.DeletionLedger Pomodorough.Store.Accounts
open Pomodorough.Store.LedgerSpec Pomodorough.Store.Sequential Pomodorough.Store.Creation
open Pomodorough.Store.Startup Pomodorough.Store.Readiness

/-! ## Names -/

theorem hasSuffix_iff {suffix name : String} :
    hasSuffix suffix name = true ↔ ∃ base, name = base ++ suffix := by
  unfold hasSuffix
  rw [List.isSuffixOf_iff_suffix]
  constructor
  · intro h
    obtain ⟨base, hbase⟩ := h
    refine ⟨String.ofList base, ?_⟩
    apply String.toList_injective
    simp [← hbase]
  · intro h
    obtain ⟨base, rfl⟩ := h
    simp

theorem trimSuffix_append {base suffix : String} : trimSuffix suffix (base ++ suffix) = base := by
  unfold trimSuffix
  rw [if_pos (hasSuffix_iff.mpr ⟨base, rfl⟩)]
  apply String.toList_injective
  have hlength : (base ++ suffix).length - suffix.length = base.toList.length := by
    rw [String.length_append, Nat.add_sub_cancel, String.length_toList]
  rw [String.toList_ofList, String.toList_append, hlength, List.take_left]

/-- The suffixes end in different letters. -/
theorem hasSuffix_append_iff {base suffix ending : String} (hs : suffix ∈ storageSuffixes)
    (he : ending ∈ storageSuffixes) : hasSuffix ending (base ++ suffix) = true ↔ ending = suffix := by
  constructor
  · intro h
    obtain ⟨other, hother⟩ := hasSuffix_iff.mp h
    have hletter : ∀ ending ∈ storageSuffixes, ∀ base : String,
        (base ++ ending).toList.getLast? = ending.toList.getLast? := by
      intro ending hmem base
      rw [String.toList_append, List.getLast?_append_of_ne_nil]
      simp only [storageSuffixes, List.mem_cons, List.not_mem_nil, or_false] at hmem
      rcases hmem with rfl | rfl | rfl <;> decide
    have hlast : suffix.toList.getLast? = ending.toList.getLast? := by
      rw [← hletter suffix hs base, hother, hletter ending he other]
    simp only [storageSuffixes, List.mem_cons, List.not_mem_nil, or_false] at hs he
    rcases hs with rfl | rfl | rfl <;> rcases he with rfl | rfl | rfl <;>
      first | rfl | exact absurd hlast (by decide)
  · intro h
    rw [h]
    exact hasSuffix_iff.mpr ⟨base, rfl⟩

theorem accountStorageUserID_append {userID suffix : String} (hvalid : validateUserID userID = true)
    (hs : suffix ∈ storageSuffixes) : accountStorageUserID (userID ++ suffix) = some userID := by
  have hfind : ∀ ending ∈ storageSuffixes,
      (if hasSuffix ending (userID ++ suffix) then
        if validateUserID (trimSuffix ending (userID ++ suffix)) then
          some (trimSuffix ending (userID ++ suffix)) else none
      else none) = if ending = suffix then some userID else none := by
    intro ending he
    by_cases heq : ending = suffix
    · subst heq
      rw [if_pos ((hasSuffix_append_iff hs hs).mpr rfl), trimSuffix_append, if_pos hvalid,
        if_pos rfl]
    · rw [if_neg (fun h => heq ((hasSuffix_append_iff hs he).mp h)), if_neg heq]
  unfold accountStorageUserID
  cases hfound : storageSuffixes.findSome? _ with
  | none =>
    rw [List.findSome?_eq_none_iff] at hfound
    have hnone := (hfind suffix hs).symm.trans (hfound suffix hs)
    rw [if_pos rfl] at hnone
    cases hnone
  | some found =>
    obtain ⟨ending, he, hsome⟩ := List.exists_of_findSome?_eq_some hfound
    have hvalue := (hfind ending he).symm.trans hsome
    split at hvalue
    · exact hvalue.symm
    · cases hvalue

theorem accountStorageUserID_some {name userID : String}
    (h : accountStorageUserID name = some userID) :
    validateUserID userID = true ∧ ∃ suffix ∈ storageSuffixes, name = userID ++ suffix := by
  obtain ⟨suffix, hs, hsome⟩ := List.exists_of_findSome?_eq_some h
  split at hsome
  next hsuffix =>
    obtain ⟨base, rfl⟩ := hasSuffix_iff.mp hsuffix
    rw [trimSuffix_append] at hsome
    dsimp only at hsome
    split at hsome
    next hvalid =>
      cases hsome
      exact ⟨hvalid, suffix, hs, rfl⟩
    next => cases hsome
  next => cases hsome

/-! ## Records -/

section
variable {d : Directories} {sha256 : HexDigest} {name userID : String} {now : WallClock}

theorem readRecord_ok {α : Type} {what : String} {decode : LedgerFile → Option α}
    {record : Option α} (h : readRecord what decode d name = .ok record) :
    record = (d.ledgerFile name).bind decode ∧
      ∀ file, d.ledgerFile name = some file →
        file.info.isPrivate = true ∧ (decode file).isSome = true := by
  unfold readRecord at h
  split at h
  next hnone =>
    cases h
    rw [hnone]
    exact ⟨rfl, fun file hfile => nomatch hfile⟩
  next file hfile =>
    obtain ⟨_, hprivate, h⟩ := bind_ok_iff.mp h
    rw [check_ok_iff] at hprivate
    split at h
    next => cases h
    next record hrecord =>
      cases h
      rw [hfile]
      refine ⟨hrecord.symm, fun other hother => ?_⟩
      cases hother
      exact ⟨hprivate, Option.isSome_of_eq_some hrecord⟩

/-- A record that is read is the one that stands in the account. -/
theorem recordView {α : Type} {what : String} {decode : LedgerFile → Option α}
    {record : Option α} {refused : α} (h : readRecord what decode d name = .ok record) :
    (d.ledgerFile name).map (fun file =>
      ((decode file).filter fun _ => file.info.isPrivate).getD refused) = record := by
  obtain ⟨rfl, hread⟩ := readRecord_ok h
  cases hfile : d.ledgerFile name with
  | none => rfl
  | some file =>
    obtain ⟨hprivate, hsome⟩ := hread file hfile
    obtain ⟨record, hrecord⟩ := Option.isSome_iff_exists.mp hsome
    have hread : (some file).bind decode = some record := hrecord
    rw [hread, Option.map_some, hrecord, hprivate]
    rfl

theorem readDeletionRecord_ok {deleted : Nat} (h : Readiness.readDeletionRecord d name = .ok deleted) :
    (∀ record, d.deletionRecord name = some record → record.valid = true) ∧
      deleted = match d.deletionRecord name with
        | none => 0
        | some record => record.deletedGeneration := by
  obtain ⟨record, hread, h⟩ := bind_ok_iff.mp h
  have hview : d.deletionRecord name = record := recordView hread
  rw [hview]
  cases record with
  | none =>
    cases h
    exact ⟨fun record hrecord => (nomatch hrecord), rfl⟩
  | some record =>
    obtain ⟨_, hvalid, h⟩ := bind_ok_iff.mp h
    cases h
    refine ⟨fun other hother => ?_, rfl⟩
    cases hother
    exact check_ok_iff.mp hvalid

theorem accountLifecycle_ok {lifecycle : Option AccountLifecycleRecord}
    (h : Readiness.accountLifecycle sha256 d userID = .ok lifecycle) :
    lifecycle = d.lifecycleRecord (accountLifecycleName sha256 userID) ∧
      ∀ record, lifecycle = some record → record.valid = true := by
  obtain ⟨record, hread, h⟩ := bind_ok_iff.mp h
  have hview : d.lifecycleRecord (accountLifecycleName sha256 userID) = record := recordView hread
  rw [hview]
  cases record with
  | none =>
    cases h
    exact ⟨rfl, fun record hrecord => nomatch hrecord⟩
  | some record =>
    obtain ⟨_, hvalid, h⟩ := bind_ok_iff.mp h
    cases h
    refine ⟨rfl, fun other hother => ?_⟩
    cases hother
    exact check_ok_iff.mp hvalid

end

/-! ## A bound account -/

/-- The account's database is of the current schema, above the tombstone, and of
the generation that the ledger has as the active one. -/
structure Bound (s : AccountDisk) (file : DatabaseFile) (generation : Nat) : Prop where
  ledger : ValidLedger s
  stored : s.file = some file
  schema : file.schemaVersion = currentSchemaVersion
  reads : accountGeneration file = .ok generation
  above : tombstone s < generation
  active : bindsActive s.lifecycleRecord generation = true

section
variable {s : AccountDisk} {file : DatabaseFile} {generation : Nat} {now : WallClock}

theorem Bound.migrated (h : Bound s file generation) :
    accountGeneration file.migrate = .ok generation := by
  rw [migrate_current h.schema]
  exact h.reads

theorem Bound.closed (h : Bound s file generation) : Bound (closed s file) file generation where
  ledger := ⟨h.ledger.deletion, h.ledger.lifecycle⟩
  stored := by rw [closed_file, migrate_current h.schema]
  schema := h.schema
  reads := h.reads
  above := h.above
  active := h.active

theorem Bound.obligation (h : Bound s file generation) :
    (applyAccountDeletionObligation now).exec s = (.ok (), Sequential.closed s file) :=
  exec_applyObligation_bound h.ledger h.stored h.schema.le h.migrated h.above h.active

/-- `OpenExistingUser` returns a handle on its database. -/
theorem Bound.openExistingUser (h : Bound s file generation) :
    Accounts.openExistingUser.exec s = (.ok file, Sequential.closed s file) := by
  have hv : ValidLedger (opened s file) := ⟨h.ledger.deletion, h.ledger.lifecycle⟩
  have hstored : openStoredAccount.exec s = (.ok (file, generation), opened s file) := by
    rw [openStoredAccount]
    simp only [Op.exec_bind, Op.exec_read, h.stored, Option.isSome_some, if_true,
      exec_openDatabase h.stored h.schema.le, h.migrated, Op.exec_pure]
    rw [migrate_current h.schema]
  have hdeleted : deletedGeneration.exec (opened s file) =
      (.ok (tombstone s), Sequential.closed s file) := by
    have hfile : (opened s file).file = some file := by
      rw [opened_file, migrate_current h.schema]
    have hadmitted : Admitted (opened s file) generation := .inr h.active
    rw [exec_deletedGeneration_present hv hfile h.schema.le h.migrated, if_pos hadmitted]
    rfl
  rw [Accounts.openExistingUser, Op.exec_bind, hstored]
  simp only [Op.exec_bind, hdeleted, h.above, if_true, Op.exec_pure]

/-- Startup opens the bound accounts it is given and closes them again. -/
theorem obligations_bound {users : List String} {registry : Registry}
    (hbound : ∀ user ∈ users, ∃ file generation, Bound (registry.account user) file generation)
    (hnodup : users.Nodup) :
    ∃ after, applyDeletionObligations now users registry = (.ok (), after) ∧
      ∀ user, (after.account user).file = (registry.account user).file ∧
        ∀ file generation, Bound (registry.account user) file generation →
          Bound (after.account user) file generation := by
  induction users generalizing registry with
  | nil => exact ⟨registry, rfl, fun user => ⟨rfl, fun _ _ h => h⟩⟩
  | cons user rest ih =>
    obtain ⟨hnot, hrest⟩ := List.nodup_cons.mp hnodup
    obtain ⟨file, generation, hfirst⟩ := hbound user List.mem_cons_self
    have hothers : ∀ other ∈ rest, ∃ file' generation', Bound
        ((registry.set user (Sequential.closed (registry.account user) file)).account other) file'
        generation' := by
      intro other hmem
      have hne : other ≠ user := fun heq => hnot (heq ▸ hmem)
      rw [set_account_other hne]
      exact hbound other (List.mem_cons_of_mem _ hmem)
    obtain ⟨after, hexec, hafter⟩ := ih hothers hrest
    refine ⟨after, ?_, fun other => ?_⟩
    · simp only [applyDeletionObligations, hfirst.obligation]
      exact hexec
    · obtain ⟨hfile, hkept⟩ := hafter other
      by_cases heq : other = user
      · subst heq
        rw [set_account_self] at hfile hkept
        refine ⟨?_, fun file' generation' h => ?_⟩
        · rw [hfile, hfirst.stored, closed_file, migrate_current hfirst.schema]
        · have hsame : file' = file := Option.some.inj (h.stored.symm.trans hfirst.stored)
          subst hsame
          exact hkept _ _ h.closed
      · rw [set_account_other heq] at hfile hkept
        exact ⟨hfile, hkept⟩

end

/-! ## What readiness has checked -/

section
variable {d : Directories} {sha256 : HexDigest} {now : WallClock} {user : String}
  {accounts collected : ReadinessAccounts}

/-- An account that readiness accepts is bound. -/
theorem validateReadinessAccount_ok (h : validateReadinessAccount sha256 d user = .ok ()) :
    ∃ file generation, Bound (d.account sha256 user) file generation := by
  obtain ⟨file, hfile, h⟩ := bind_ok_iff.mp h
  obtain ⟨db, hdb, h⟩ := bind_ok_iff.mp h
  obtain ⟨generation, hgeneration, h⟩ := bind_ok_iff.mp h
  rw [readinessError_ok_iff] at hfile hdb hgeneration h
  have hstored : (d.account sha256 user).file = some db := by
    unfold validateReadinessDatabaseFile at hfile
    split at hfile
    next => cases hfile
    next found hfound =>
      obtain ⟨_, -, hfile⟩ := bind_ok_iff.mp hfile
      cases hfile
      obtain ⟨_, -, hdb⟩ := bind_ok_iff.mp hdb
      obtain ⟨_, -, hdb⟩ := bind_ok_iff.mp hdb
      obtain ⟨_, -, hdb⟩ := bind_ok_iff.mp hdb
      split at hdb
      next => cases hdb
      next read hread =>
        cases hdb
        simp [Directories.account, hfound, hread]
  obtain ⟨_, hschema, hgeneration⟩ := bind_ok_iff.mp hgeneration
  obtain ⟨_, -, hgeneration⟩ := bind_ok_iff.mp hgeneration
  obtain ⟨deleted, hdeleted, h⟩ := bind_ok_iff.mp h
  obtain ⟨lifecycle, hlifecycle, h⟩ := bind_ok_iff.mp h
  rw [check_ok_iff] at hschema h
  rw [not_or, not_le, not_not] at h
  obtain ⟨hvalidDeletion, hdeletedGeneration⟩ := readDeletionRecord_ok hdeleted
  obtain ⟨hrecord, hvalidLifecycle⟩ := accountLifecycle_ok hlifecycle
  refine ⟨db, generation, ⟨hvalidDeletion, ?_⟩, hstored, hschema, hgeneration, ?_, ?_⟩
  · intro record hsome
    exact hvalidLifecycle record (hrecord.trans hsome)
  · have htombstone : tombstone (d.account sha256 user) = deleted := hdeletedGeneration.symm
    rw [htombstone]
    exact h.1
  · have hlifecycleRecord : (d.account sha256 user).lifecycleRecord = lifecycle := hrecord.symm
    rw [hlifecycleRecord]
    exact h.2

/-- The entry is that of a user with the property, or is no storage. -/
structure Owned (P : String → Prop) (name : String) : Prop where
  user : ∀ userID, accountStorageUserID name = some userID → P userID
  nobody : accountStorageUserID name = none → hasAccountStorageSuffix name = false

theorem Owned.imp {P Q : String → Prop} {name : String} (h : Owned P name)
    (hPQ : ∀ userID, P userID → Q userID) : Owned Q name :=
  ⟨fun userID huser => hPQ userID (h.user userID huser), h.nobody⟩

theorem collectReadinessAccount_ok {name : String}
    (h : collectReadinessAccount d name accounts = .ok collected) :
    (∀ key ∈ accounts.keys, key ∈ collected.keys) ∧ Owned (· ∈ collected.keys) name := by
  unfold collectReadinessAccount at h
  split at h
  next hnone =>
    obtain ⟨_, hsuffix, h⟩ := bind_ok_iff.mp h
    cases h
    rw [check_ok_iff] at hsuffix
    refine ⟨fun key hkey => hkey, fun userID huser => ?_, fun _ => Bool.not_eq_true _ ▸ hsuffix⟩
    rw [hnone] at huser
    cases huser
  next userID hsome =>
    have howned : ∀ after : ReadinessAccounts, userID ∈ after.keys →
        Owned (· ∈ after.keys) name := by
      intro after hmem
      constructor
      · intro other hother
        rw [hsome] at hother
        cases hother
        exact hmem
      · intro hnone
        rw [hsome] at hnone
        cases hnone
    have hinserted : ∀ b, (∀ key ∈ accounts.keys, key ∈ (accounts.insert userID b).keys) ∧
        userID ∈ (accounts.insert userID b).keys := by
      intro b
      simp only [← AList.mem_keys, AList.mem_insert]
      exact ⟨fun key hkey => .inr hkey, .inl trivial⟩
    obtain ⟨_, -, h⟩ := bind_ok_iff.mp h
    split at h
    next =>
      cases h
      exact ⟨(hinserted true).1, howned _ (hinserted true).2⟩
    next =>
      split at h
      next hpresent =>
        cases h
        exact ⟨fun key hkey => hkey,
          howned _ (AList.mem_keys.mp (AList.lookup_isSome.mp hpresent))⟩
      next =>
        cases h
        exact ⟨(hinserted false).1, howned _ (hinserted false).2⟩

theorem collectReadinessAccounts_ok {entries : List (String × UserFile)}
    (h : collectReadinessAccounts d entries accounts = .ok collected) :
    (∀ key ∈ accounts.keys, key ∈ collected.keys) ∧
      ∀ entry ∈ entries, Owned (· ∈ collected.keys) entry.1 := by
  induction entries generalizing accounts with
  | nil =>
    cases h
    exact ⟨fun key hkey => hkey, fun entry hentry => nomatch hentry⟩
  | cons entry entries ih =>
    obtain ⟨next, hone, h⟩ := bind_ok_iff.mp h
    obtain ⟨hkept, hentry⟩ := collectReadinessAccount_ok hone
    obtain ⟨hrest, hentries⟩ := ih h
    exact ⟨fun key hkey => hrest key (hkept key hkey),
      List.forall_mem_cons.mpr ⟨hentry.imp hrest, hentries⟩⟩

/-- What is ready: directories that startup can use, lifecycle records that it
accepts, and an account bound for each entry that belongs to a user. -/
structure Checked (sha256 : HexDigest) (d : Directories) : Prop where
  users : d.usersInfo.isDirectory = true
  ledger : d.ledgerInfo.isDirectory = true ∧ ¬ d.ledgerInfo.symbolicLink = true
  independent : d.independent = true
  inventory : ∀ entry ∈ d.ledger, hasPrefix "account-" entry.1 = true →
    Readiness.validateAccountLifecycleEntry d entry.1 = .ok ()
  accounts : ∀ entry ∈ d.users, Owned
    (fun userID => ∃ file generation, Bound (d.account sha256 userID) file generation) entry.1

theorem readinessEntries_ok {α : Type} {entries sorted : List (String × α)}
    (h : readinessEntries entries = .ok sorted) : sorted = sortBy Prod.fst entries := by
  obtain ⟨_, -, h⟩ := bind_ok_iff.mp h
  cases h
  rfl

theorem ready_ok (h : ready sha256 d = .ok ()) : Checked sha256 d := by
  obtain ⟨_, husers, h⟩ := bind_ok_iff.mp h
  obtain ⟨_, hledger, h⟩ := bind_ok_iff.mp h
  obtain ⟨_, hindependent, h⟩ := bind_ok_iff.mp h
  obtain ⟨ledgerEntries, hledgerEntries, h⟩ := bind_ok_iff.mp h
  obtain ⟨_, hrecords, h⟩ := bind_ok_iff.mp h
  obtain ⟨accountEntries, haccountEntries, h⟩ := bind_ok_iff.mp h
  obtain ⟨collected, hcollected, h⟩ := bind_ok_iff.mp h
  rw [readinessError_ok_iff] at husers hledger hindependent hledgerEntries hrecords
  rw [readinessError_ok_iff] at haccountEntries hcollected
  obtain ⟨_, husers, -⟩ := bind_ok_iff.mp husers
  obtain ⟨_, hledger, -⟩ := bind_ok_iff.mp hledger
  rw [check_ok_iff] at husers hledger
  rw [checkAll_ok_iff] at hrecords
  rw [readinessEntries_ok hledgerEntries] at hrecords
  rw [readinessEntries_ok haccountEntries] at hcollected
  refine ⟨husers.1, hledger, check_ok_iff.mp hindependent, fun entry hentry haccount => ?_,
    fun entry hentry => ?_⟩
  · have hrecord := hrecords entry (mem_sortBy.mpr hentry)
    rw [validateReadinessLedgerEntry, if_pos haccount] at hrecord
    obtain ⟨_, -, hrecord⟩ := bind_ok_iff.mp hrecord
    exact hrecord
  · have howned := (collectReadinessAccounts_ok hcollected).2 entry (mem_sortBy.mpr hentry)
    refine howned.imp fun userID hmem => ?_
    have hall := checkAll_ok_iff.mp h userID (mem_sortBy.mpr hmem)
    obtain ⟨_, -, haccount⟩ := bind_ok_iff.mp hall
    exact validateReadinessAccount_ok haccount

/-- A stored database is one that readiness has found bound. -/
theorem Checked.bound (h : Checked sha256 d) (hstored : (d.account sha256 user).file ≠ none) :
    validateUserID user = true ∧
      ∃ file generation, Bound (d.account sha256 user) file generation := by
  have hsqlite : ".sqlite" ∈ storageSuffixes := by simp [storageSuffixes]
  have hfound : ∃ file, d.userFile (user ++ ".sqlite") = some file := by
    refine Option.ne_none_iff_exists'.mp fun hnone => hstored ?_
    simp [Directories.account, hnone]
  obtain ⟨file, hfile⟩ := hfound
  have hentry : (user ++ ".sqlite", file) ∈ d.users := OrderedMaps.mem_of_lookup hfile
  have hchecked := h.accounts _ hentry
  have hstorage : hasAccountStorageSuffix (user ++ ".sqlite") = true :=
    List.any_eq_true.mpr ⟨".sqlite", hsqlite, hasSuffix_iff.mpr ⟨user, rfl⟩⟩
  cases hname : accountStorageUserID (user ++ ".sqlite") with
  | none =>
    rw [hchecked.nobody hname] at hstorage
    cases hstorage
  | some userID =>
    obtain ⟨hvalid, suffix, hs, heq⟩ := accountStorageUserID_some hname
    have hsame : suffix = ".sqlite" :=
      (hasSuffix_append_iff hsqlite hs).mp (hasSuffix_iff.mpr ⟨userID, heq⟩)
    rw [hsame] at heq
    have huser : trimSuffix ".sqlite" (user ++ ".sqlite") = userID := by
      rw [heq, trimSuffix_append]
    rw [trimSuffix_append] at huser
    rw [huser]
    exact ⟨hvalid, hchecked.user userID hname⟩

theorem prepareDirectories_succeeds (h : Checked sha256 d) : prepareDirectories d = .ok () := by
  have hindependent : independentLedger d = .ok () := check_ok_iff.mpr h.independent
  have hinventory : Readiness.validateAccountLifecycleInventory d = .ok () := by
    refine checkAll_ok_iff.mpr fun entry hentry => ?_
    obtain ⟨hentry, haccount⟩ := List.mem_filter.mp hentry
    exact h.inventory entry hentry haccount
  refine bind_ok_iff.mpr ⟨(), hindependent, bind_ok_iff.mpr ⟨(), check_ok_iff.mpr h.users, ?_⟩⟩
  exact bind_ok_iff.mpr ⟨(), check_ok_iff.mpr h.ledger,
    bind_ok_iff.mpr ⟨(), hindependent, hinventory⟩⟩

theorem mem_storageUserIDs : user ∈ d.storageUserIDs ↔
    ∃ entry ∈ d.users, accountStorageUserID entry.1 = some user := by
  rw [Directories.storageUserIDs, List.mem_dedup, List.mem_filterMap]

end

/-- What startup leaves of directories that are ready: every database as it is,
and each of them can be opened. -/
structure Started (sha256 : HexDigest) (d : Directories) (after : Registry) : Prop where
  kept : ∀ user, (after.account user).file = (d.account sha256 user).file
  opens : ∀ user, (d.account sha256 user).file ≠ none → validateUserID user = true ∧
    ∃ db closing, Accounts.openExistingUser.exec (after.account user) = (.ok db, closing)

/-- Directories that are ready start, whatever order the accounts are gone
through in. -/
theorem ready_starts (sha256 : HexDigest) (d : Directories) (now : WallClock) (order : List String)
    (horder : order.Perm d.storageUserIDs) (hready : ready sha256 d = .ok ()) :
    ∃ after, Readiness.newWithDeletionLedger sha256 d now order = (.ok (), after) ∧
      Started sha256 d after := by
  have hchecked := ready_ok hready
  have hnodup : order.Nodup := horder.nodup_iff.mpr (List.nodup_dedup _)
  have hbound : ∀ user ∈ order, ∃ file generation,
      Bound ((d.registry sha256).account user) file generation := by
    intro user hmem
    obtain ⟨entry, hentry, huser⟩ := mem_storageUserIDs.mp (horder.mem_iff.mp hmem)
    exact (hchecked.accounts entry hentry).user user huser
  obtain ⟨after, hexec, hafter⟩ :
      ∃ after, applyDeletionObligations now order (d.registry sha256) = (.ok (), after) ∧ _ :=
    obligations_bound hbound hnodup
  refine ⟨after, ?_, fun user => (hafter user).1, fun user hstored => ?_⟩
  · unfold Readiness.newWithDeletionLedger
    rw [prepareDirectories_succeeds hchecked]
    exact hexec
  · obtain ⟨hvalid, file, generation, haccount⟩ := hchecked.bound hstored
    exact ⟨hvalid, file, _, ((hafter user).2 file generation haccount).openExistingUser⟩

/-! ## One account -/

def oneUserID : String := "1234567890abcdef1234567890abcdef"

/-- A digest that serves for one user. -/
def oneDigest : HexDigest := fun userID => userID ++ userID

/-- The directories of a server with one account, of the second generation. -/
def oneAccount : Directories where
  usersInfo := ⟨true, false, 0o700⟩
  ledgerInfo := ⟨true, false, 0o700⟩
  independent := true
  users := [(oneUserID ++ ".sqlite",
    ⟨⟨true, 0o600, 4096⟩, some ⟨0, currentSchemaVersion, some 2, UserTables.initial⟩, true⟩)]
  ledger := [(accountLifecycleName oneDigest oneUserID,
      ⟨⟨true, 0o600, 80⟩, none, some ⟨1, 2, .active, 2000⟩, none⟩),
    (deletionRecordName oneDigest oneUserID,
      ⟨⟨true, 0o600, 60⟩, some ⟨1, 1, 1000⟩, none, none⟩)]
  users_nodup := by decide
  ledger_nodup := by decide +kernel

theorem ready_starts_one : ∃ after,
    Readiness.newWithDeletionLedger oneDigest oneAccount firstClock [oneUserID] = (.ok (), after) ∧
      Started oneDigest oneAccount after :=
  ready_starts _ _ _ _ (List.Perm.of_eq (by decide +kernel)) (by decide +kernel)

end Pomodorough.Store.ReadyStarts
