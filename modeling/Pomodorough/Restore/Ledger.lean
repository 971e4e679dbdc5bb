import Pomodorough.Restore.Trees

/-! # The deletion ledger, as the restore tool reads it

`restore_drill.py`: lifecycle records and tombstones, the high watermark they
give each account, the account storage in a data directory and the check of the
one against the other. -/
namespace Pomodorough.Restore.Ledger
open Pomodorough.Library.Fallible Pomodorough.Library.OrderedMaps
open Pomodorough.Library.JsonText Pomodorough.Library.TextBytes
open Pomodorough.Restore.Trees

/-! ## File names -/

/-- `TOMBSTONE_FILE`: a digest and `.json`. -/
def tombstoneFile (name : Str) : Option Str :=
  if isDigest (name.take 64) = true ∧ name.drop 64 = text ".json" then some (name.take 64) else none

/-- `LIFECYCLE_FILE`. -/
def lifecycleFile (name : Str) : Option Str :=
  ((text "account-").isPrefixOf? name).bind tombstoneFile

inductive Sidecar where
  | wal | shm
  deriving DecidableEq

/-- `ACCOUNT_FILE`: the user and the sidecar. -/
def accountFile (name : Str) : Option (Str × Option Sidecar) :=
  let userID := name.take 32
  if userID.length = 32 ∧ userID.all isHexDigit = true then
    if name.drop 32 = text ".sqlite" then some (userID, none)
    else if name.drop 32 = text ".sqlite-wal" then some (userID, some .wal)
    else if name.drop 32 = text ".sqlite-shm" then some (userID, some .shm)
    else none
  else none

/-! ## Records -/

inductive LifecycleState where
  | active | deleted
  deriving DecidableEq

structure Lifecycle where
  generation : Nat
  state : LifecycleState
  updatedAtMs : Nat
  deriving DecidableEq

structure Tombstone where
  deletedGeneration : Nat
  deletedAtMs : Nat
  deriving DecidableEq

def lifecycleState (value : Json) : Option LifecycleState :=
  if equalsStr value (text "active") then some .active
  else if equalsStr value (text "deleted") then some .deleted
  else none

def parseLifecycle (host : Host) (ledger : Tree) (path : Str) : Except Failure Lifecycle := do
  let fields ← strictJson host ledger path
  check (hasKeys fields ["version", "generation", "state", "updatedAtMs"] = true)
    (.valueError "invalid account lifecycle fields")
  match equalsInt (field fields "version") 1, validGeneration (field fields "generation") with
  | true, some generation =>
    match lifecycleState (field fields "state"), validGeneration (field fields "updatedAtMs") with
    | some state, some updatedAtMs => .ok { generation, state, updatedAtMs }
    | _, _ => .error (.valueError "invalid account lifecycle state")
  | _, _ => .error (.valueError "invalid account lifecycle generation")

def parseTombstone (host : Host) (ledger : Tree) (path : Str) : Except Failure Tombstone := do
  let fields ← strictJson host ledger path
  check (hasKeys fields ["version", "deletedGeneration", "deletedAtMs"] = true)
    (.valueError "invalid deletion tombstone fields")
  match equalsInt (field fields "version") 1, validGeneration (field fields "deletedGeneration") with
  | true, some deletedGeneration =>
    match validGeneration (field fields "deletedAtMs") with
    | some deletedAtMs => .ok { deletedGeneration, deletedAtMs }
    | none => .error (.valueError "invalid deletion tombstone timestamp")
  | _, _ => .error (.valueError "invalid deletion tombstone generation")

/-! ## The high watermark -/

/-- The records found of one account. -/
structure AccountRecords where
  lifecycle : Option Lifecycle
  tombstone : Option Tombstone
  deriving DecidableEq

def AccountRecords.none : AccountRecords := ⟨.none, .none⟩

structure HighWatermark where
  generation : Nat
  state : LifecycleState
  lifecycleGeneration : Nat
  deletedGeneration : Nat
  deriving DecidableEq

/-- By the digest of the user. -/
abbrev Watermark := List (Str × HighWatermark)

def AccountRecords.lifecycleGeneration (value : AccountRecords) : Nat :=
  (value.lifecycle.map Lifecycle.generation).getD 0

def AccountRecords.deletedGeneration (value : AccountRecords) : Nat :=
  (value.tombstone.map Tombstone.deletedGeneration).getD 0

/-- Without a record at all there is no state to read. -/
def normalizeHighWatermark (value : AccountRecords) : Except Failure HighWatermark := do
  let lifecycleGeneration := value.lifecycleGeneration
  let deletedGeneration := value.deletedGeneration
  check (¬ (value.lifecycle.any (·.state = .deleted) ∧ deletedGeneration < lifecycleGeneration))
    (.valueError "deleted lifecycle lacks tombstone")
  let state ← if lifecycleGeneration ≤ deletedGeneration ∧ deletedGeneration ≠ 0 then .ok .deleted
    else match value.lifecycle with
      | some lifecycle => .ok lifecycle.state
      | none => .error .osError
  .ok {
    generation := max lifecycleGeneration deletedGeneration
    state, lifecycleGeneration, deletedGeneration }

/-- One step of the loop in `ledger_high_watermark`. -/
def recordEntry (host : Host) (ledger : Tree) (records : List (Str × AccountRecords)) (name : Str) :
    Except Failure (List (Str × AccountRecords)) :=
  match lifecycleFile name with
  | some digest => do
    let lifecycle ← parseLifecycle host ledger name
    .ok (upsert digest .none (fun value => { value with lifecycle := some lifecycle }) records)
  | none =>
    match tombstoneFile name with
    | some digest => do
      let tombstone ← parseTombstone host ledger name
      .ok (upsert digest .none (fun value => { value with tombstone := some tombstone }) records)
    | none => do
      check ((text "account-").isPrefixOf name = false)
        (.valueError "invalid account lifecycle filename")
      .ok records

def recordEntries (host : Host) (ledger : Tree) (records : List (Str × AccountRecords)) :
    List Str → Except Failure (List (Str × AccountRecords))
  | [] => .ok records
  | name :: names => do
    let records ← recordEntry host ledger records name
    recordEntries host ledger records names

def ledgerHighWatermark (host : Host) (ledger : Tree) : Except Failure Watermark := do
  let records ← recordEntries host ledger [] ((children ledger).map Prod.fst)
  mapAll (fun (digest, value) => do
    let highWatermark ← normalizeHighWatermark value
    .ok (digest, highWatermark)) records

/-! ## Account storage -/

/-- The files found of one account; the database by its name. -/
structure AccountStorage where
  main : Option Str
  sidecars : List Str
  deriving DecidableEq

def AccountStorage.none : AccountStorage := ⟨.none, []⟩

def users : Str := text "users"

/-- One step of the loop in `account_storage`. -/
def storeEntry (accounts : List (Str × AccountStorage)) (name : Str) : List (Str × AccountStorage) :=
  match accountFile name with
  | none => accounts
  | some (userID, some _) =>
    upsert userID .none (fun account => { account with sidecars := account.sidecars ++ [name] }) accounts
  | some (userID, none) =>
    upsert userID .none (fun account => { account with main := some name }) accounts

def accountStorage (data : Tree) : Except Failure (List (Str × AccountStorage)) :=
  match data.find? users with
  | none => .ok []
  | some (.directory _) => .ok ((childNames data users).foldl storeEntry [])
  | some _ => .error .osError

def storedGeneration (host : Host) (data : Tree) (name : Str) : Except Failure Nat := do
  let row ← host.generationRow data (users ++ slash :: name)
  match row.bind fun generation => validGeneration (.int generation) with
  | some generation => .ok generation
  | none => .error (.valueError "invalid account generation")

def userDigest (host : Host) (userID : Str) : Str := host.sha256 (encode userID)

/-- One step of the loop in `validate_data_against_ledger`. -/
def validateAccount (host : Host) (data : Tree) (watermark : Watermark) :
    Str × AccountStorage → Except Failure Unit
  | (userID, storage) =>
    match watermark.lookup (userDigest host userID) with
    | none => .error (.valueError "account storage lacks lifecycle ledger")
    | some record =>
      match storage.main with
      | none => check (record.state = .deleted ∧ 1 ≤ record.deletedGeneration)
          (.valueError "sidecar-only account lacks deletion obligation")
      | some main => do
        let generation ← storedGeneration host data main
        check (generation ≤ record.deletedGeneration ∨
            record.state = .active ∧ record.lifecycleGeneration = generation)
          (.valueError "account database exceeds ledger lifecycle")

def validateDataAgainstLedger (host : Host) (data ledger : Tree) : Except Failure Watermark := do
  let watermark ← ledgerHighWatermark host ledger
  let accounts ← accountStorage data
  checkAll (validateAccount host data watermark) accounts
  .ok watermark

/-! ## What the watermark of a ledger says of one account -/

def lifecycleName (digest : Str) : Str := text "account-" ++ digest ++ text ".json"

def tombstoneName (digest : Str) : Str := digest ++ text ".json"

section Names
variable {name digest other : Str}

theorem isDigest_length (h : isDigest digest = true) : digest.length = 64 := by
  simp only [isDigest, Bool.and_eq_true, beq_iff_eq] at h
  exact h.1

theorem isDigest_hex (h : isDigest digest = true) {c : Nat} (hc : c ∈ digest) :
    isHexDigit c = true := by
  simp only [isDigest, Bool.and_eq_true, List.all_eq_true] at h
  exact h.2 c hc

theorem tombstoneFile_iff :
    tombstoneFile name = some digest ↔ name = tombstoneName digest ∧ isDigest digest = true := by
  unfold tombstoneFile tombstoneName
  constructor
  · intro h
    split at h
    · next hname =>
      cases h
      refine ⟨?_, hname.1⟩
      rw [← hname.2, List.take_append_drop]
    · cases h
  · rintro ⟨rfl, hdigest⟩
    have hlength := isDigest_length hdigest
    rw [List.take_left' hlength, List.drop_left' hlength, if_pos ⟨hdigest, rfl⟩]

theorem lifecycleFile_iff :
    lifecycleFile name = some digest ↔ name = lifecycleName digest ∧ isDigest digest = true := by
  unfold lifecycleFile lifecycleName
  constructor
  · intro h
    obtain ⟨rest, hrest, htombstone⟩ := Option.bind_eq_some_iff.mp h
    obtain ⟨rfl, hdigest⟩ := tombstoneFile_iff.mp htombstone
    rw [List.isPrefixOf?_eq_some_iff_append_eq] at hrest
    rw [← hrest, List.append_assoc]
    exact ⟨rfl, hdigest⟩
  · rintro ⟨rfl, hdigest⟩
    rw [List.append_assoc, List.isPrefixOf?_eq_some_iff_append_eq.mpr rfl, Option.bind_some]
    exact tombstoneFile_iff.mpr ⟨rfl, hdigest⟩

/-- A digest does not start like the name of a lifecycle record. -/
theorem lifecycleName_ne_tombstoneName (hother : isDigest other = true) :
    lifecycleName digest ≠ tombstoneName other := by
  intro heq
  have hlength := isDigest_length hother
  have hchar : (tombstoneName other)[7]? = other[7]? :=
    List.getElem?_append_left (by omega)
  have hdash : (lifecycleName digest)[7]? = some 0x2d := rfl
  rw [heq, hchar] at hdash
  have := isDigest_hex hother (List.mem_of_getElem? hdash)
  cases this

theorem lifecycleName_inj (h : lifecycleName digest = lifecycleName other) : digest = other := by
  unfold lifecycleName at h
  rw [List.append_assoc, List.append_assoc] at h
  exact List.append_cancel_right (List.append_cancel_left h)

theorem tombstoneName_inj (h : tombstoneName digest = tombstoneName other) : digest = other :=
  List.append_cancel_right h

end Names

/-- The records a ledger holds of one account, where they can be read. -/
def accountRecords (host : Host) (ledger : Tree) (digest : Str) : AccountRecords where
  lifecycle := (parseLifecycle host ledger (lifecycleName digest)).toOption
  tombstone := (parseTombstone host ledger (tombstoneName digest)).toOption

/-- The same, of the files with some names. -/
def recordsIn (host : Host) (ledger : Tree) (names : List Str) (digest : Str) : AccountRecords where
  lifecycle := if lifecycleName digest ∈ names then (accountRecords host ledger digest).lifecycle
    else none
  tombstone := if tombstoneName digest ∈ names then (accountRecords host ledger digest).tombstone
    else none

/-- The loop has collected the records with some names. -/
structure Collected (host : Host) (ledger : Tree) (names : List Str)
    (records : List (Str × AccountRecords)) : Prop where
  value : ∀ digest, isDigest digest = true →
    (records.lookup digest).getD .none = recordsIn host ledger names digest
  key : ∀ digest value, records.lookup digest = some value →
    isDigest digest = true ∧ value ≠ .none

section Watermark
variable {host : Host} {ledger : Tree} {names : List Str} {name digest : Str}
  {records records' : List (Str × AccountRecords)} {watermark : Watermark}

theorem collected_nil : Collected host ledger [] [] where
  value digest _ := rfl
  key digest value h := by cases h

/-- The records of an account no name of which was added. -/
theorem recordsIn_other (hl : name ≠ lifecycleName digest) (ht : name ≠ tombstoneName digest) :
    recordsIn host ledger (name :: names) digest = recordsIn host ledger names digest := by
  simp [recordsIn, hl.symm, ht.symm]

theorem Collected.lifecycle (h : Collected host ledger names records)
    (hdigest : isDigest digest = true) {lifecycle : Lifecycle}
    (hparse : parseLifecycle host ledger (lifecycleName digest) = .ok lifecycle) :
    Collected host ledger (lifecycleName digest :: names)
      (upsert digest .none (fun value => { value with lifecycle := some lifecycle }) records) where
  value other hother := by
    by_cases heq : other = digest
    · subst heq
      rw [lookup_upsert_self, Option.getD_some, h.value other hother]
      have hne : tombstoneName other ≠ lifecycleName other :=
        (lifecycleName_ne_tombstoneName hother).symm
      simp [recordsIn, accountRecords, hparse, hne, Except.toOption]
    · rw [lookup_upsert_of_ne heq, h.value other hother, recordsIn_other
        (fun hname => heq (lifecycleName_inj hname).symm) (lifecycleName_ne_tombstoneName hother)]
  key other value hlookup := by
    by_cases heq : other = digest
    · subst heq
      rw [lookup_upsert_self] at hlookup
      cases hlookup
      refine ⟨hdigest, fun hnone => ?_⟩
      cases congrArg AccountRecords.lifecycle hnone
    · rw [lookup_upsert_of_ne heq] at hlookup
      exact h.key other value hlookup

theorem Collected.tombstone (h : Collected host ledger names records)
    (hdigest : isDigest digest = true) {tombstone : Tombstone}
    (hparse : parseTombstone host ledger (tombstoneName digest) = .ok tombstone) :
    Collected host ledger (tombstoneName digest :: names)
      (upsert digest .none (fun value => { value with tombstone := some tombstone }) records) where
  value other hother := by
    by_cases heq : other = digest
    · subst heq
      rw [lookup_upsert_self, Option.getD_some, h.value other hother]
      have hne : lifecycleName other ≠ tombstoneName other := lifecycleName_ne_tombstoneName hother
      simp [recordsIn, accountRecords, hparse, hne, Except.toOption]
    · rw [lookup_upsert_of_ne heq, h.value other hother, recordsIn_other
        (lifecycleName_ne_tombstoneName hdigest).symm fun hname => heq (tombstoneName_inj hname).symm]
  key other value hlookup := by
    by_cases heq : other = digest
    · subst heq
      rw [lookup_upsert_self] at hlookup
      cases hlookup
      refine ⟨hdigest, fun hnone => ?_⟩
      cases congrArg AccountRecords.tombstone hnone
    · rw [lookup_upsert_of_ne heq] at hlookup
      exact h.key other value hlookup

theorem Collected.step (h : Collected host ledger names records)
    (hrun : recordEntry host ledger records name = .ok records') :
    Collected host ledger (name :: names) records' := by
  unfold recordEntry at hrun
  cases hlifecycle : lifecycleFile name with
  | some digest =>
    rw [hlifecycle] at hrun
    obtain ⟨rfl, hdigest⟩ := lifecycleFile_iff.mp hlifecycle
    obtain ⟨lifecycle, hparse, hrun⟩ := bind_ok_iff.mp hrun
    cases hrun
    exact h.lifecycle hdigest hparse
  | none =>
    rw [hlifecycle] at hrun
    cases htombstone : tombstoneFile name with
    | some digest =>
      rw [htombstone] at hrun
      obtain ⟨rfl, hdigest⟩ := tombstoneFile_iff.mp htombstone
      obtain ⟨tombstone, hparse, hrun⟩ := bind_ok_iff.mp hrun
      cases hrun
      exact h.tombstone hdigest hparse
    | none =>
      rw [htombstone] at hrun
      obtain ⟨-, -, hrun⟩ := bind_ok_iff.mp hrun
      cases hrun
      refine ⟨fun other hother => ?_, h.key⟩
      rw [h.value other hother, recordsIn_other]
      · rintro rfl
        rw [lifecycleFile_iff.mpr ⟨rfl, hother⟩] at hlifecycle
        cases hlifecycle
      · rintro rfl
        rw [tombstoneFile_iff.mpr ⟨rfl, hother⟩] at htombstone
        cases htombstone

theorem Collected.run {done : List Str} (h : Collected host ledger done records)
    (hrun : recordEntries host ledger records names = .ok records') :
    Collected host ledger (names.reverse ++ done) records' := by
  induction names generalizing done records with
  | nil =>
    cases hrun
    exact h
  | cons name names ih =>
    obtain ⟨middle, hstep, hrun⟩ := bind_ok_iff.mp hrun
    rw [List.reverse_cons, List.append_assoc]
    exact ih (h.step hstep) hrun

theorem parse_missing (h : ledger.find? name = none) :
    (parseLifecycle host ledger name).toOption = none ∧
      (parseTombstone host ledger name).toOption = none := by
  simp [parseLifecycle, parseTombstone, strictJson, readRegular, h, bind, Except.bind,
    Except.toOption]

theorem digest_noSlash (h : isDigest digest = true) : slash ∉ digest := by
  intro hmem
  cases isDigest_hex h hmem

theorem lifecycleName_noSlash (h : isDigest digest = true) : slash ∉ lifecycleName digest := by
  have := digest_noSlash h
  unfold lifecycleName
  simp only [List.mem_append, not_or]
  exact ⟨⟨by decide, this⟩, by decide⟩

theorem tombstoneName_noSlash (h : isDigest digest = true) : slash ∉ tombstoneName digest := by
  have := digest_noSlash h
  unfold tombstoneName
  simp only [List.mem_append, not_or]
  exact ⟨this, by decide⟩

theorem recordsIn_children (h : isDigest digest = true) :
    recordsIn host ledger ((children ledger).map Prod.fst) digest =
      accountRecords host ledger digest := by
  unfold recordsIn
  congr 1
  · split
    · rfl
    · next hnot =>
      rw [mem_children, not_and_not_right] at hnot
      exact (parse_missing (hnot (lifecycleName_noSlash h))).1.symm
  · split
    · rfl
    · next hnot =>
      rw [mem_children, not_and_not_right] at hnot
      exact (parse_missing (hnot (tombstoneName_noSlash h))).2.symm

end Watermark

end Pomodorough.Restore.Ledger
