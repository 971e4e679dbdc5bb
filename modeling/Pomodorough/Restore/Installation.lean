import Pomodorough.Restore.Snapshots

/-! # Restores that are stopped

`restore_snapshot` of `restore_drill.py`, step by step, with an exception of the host at
any of its steps, and what it leaves at its two destinations and its two temporary
directories. -/
namespace Pomodorough.Restore.Installation
open Pomodorough.Library.Fallible
open Pomodorough.Library.JsonText Pomodorough.Library.TextBytes
open Pomodorough.Restore.Trees Pomodorough.Restore.Ledger Pomodorough.Restore.Lineage
open Pomodorough.Restore.Snapshots

/-- The steps of a restore, in their order. -/
inductive Step where
  | verifyData
  | verifyLedger
  | requireDominates
  | makeParents
  | makeTemporaryLedger
  | makeTemporaryData
  | emptyTemporaryLedger
  | emptyTemporaryData
  | copyLedger
  | copyData
  | validateData
  | validateLineage
  | inventoryData
  | inventoryLedger
  | verifyDataAgain
  | verifyLedgerAgain
  | syncLedger
  | syncData
  | renameLedger
  | syncLedgerParent
  | renameData
  | syncDataParent
  | report
  deriving DecidableEq

/-- Whether the temporary directories of the call exist, and what the destinations hold. -/
structure Disk where
  temporaryLedger : Bool
  temporaryData : Bool
  ledgerDestination : Option Tree
  dataDestination : Option Tree
  deriving DecidableEq

/-- No directory of the call, and nothing at its destinations. -/
def Disk.clear : Disk := ⟨false, false, none, none⟩

def Disk.installed (restored : Restored) : Disk :=
  ⟨false, false, some restored.ledger, some restored.data⟩

/-- `shutil.rmtree` of both temporary directories. -/
def Disk.removeTemporaries (disk : Disk) : Disk :=
  { disk with temporaryLedger := false, temporaryData := false }

/-- A step, which an exception of the host may stop. -/
def attempt {α : Type} (fault : Option Step) (step : Step) (result : Except Failure α) :
    Except Failure α :=
  if fault = some step then .error .osError else result

section Restore
variable (host : Host) (umask : Mode) (snapshot ledgerSnapshot : RestoreReading)
  (dataDigest ledgerDigest : Str)

/-- Before any directory is made: the verified manifests, of the data and of the ledger. -/
def verified (fault : Option Step) : Except Failure (Manifest × Manifest) := do
  let manifest ← attempt fault .verifyData
    (verifySnapshot host umask snapshot.verified (some dataDigest))
  let ledgerManifest ← attempt fault .verifyLedger
    (verifySnapshot host umask ledgerSnapshot.verified (some ledgerDigest))
  attempt fault .requireDominates (requireLedgerDominates ledgerManifest manifest)
  .ok (manifest, ledgerManifest)

/-- The guarded steps before the first rename. -/
def prepared (fault : Option Step) (manifest ledgerManifest : Manifest) :
    Except Failure Restored := do
  attempt fault .emptyTemporaryLedger (.ok ())
  attempt fault .emptyTemporaryData (.ok ())
  let ledger ← attempt fault .copyLedger
    (copyInventory host umask ledgerSnapshot.copied.ledger ledgerManifest.ledgerInventory)
  let data ← attempt fault .copyData
    (copyInventory host umask snapshot.copied.data manifest.dataInventory)
  let _ ← attempt fault .validateData (validateDataAgainstLedger host data ledger)
  let lineage ← attempt fault .validateLineage (validateRecoveryLineage host data ledger)
  check (lineage = manifest.lineage)
    (.valueError "selected data is not linked to trusted ledger recovery sequence")
  let dataNow ← attempt fault .inventoryData (inventory host data)
  check (dataNow = manifest.dataInventory)
    (.runtimeError "restored data changed during validation")
  let ledgerNow ← attempt fault .inventoryLedger (inventory host ledger)
  check (ledgerNow = ledgerManifest.ledgerInventory)
    (.runtimeError "restored ledger changed during validation")
  let _ ← attempt fault .verifyDataAgain
    (verifySnapshot host umask snapshot.verifiedAgain (some dataDigest))
  let _ ← attempt fault .verifyLedgerAgain
    (verifySnapshot host umask ledgerSnapshot.verifiedAgain (some ledgerDigest))
  attempt fault .syncLedger (.ok ())
  attempt fault .syncData (.ok ())
  .ok { data, ledger }

/-- The two renames, each with the sync of the directory it was made in. A rename that is
stopped has moved nothing. -/
def published (fault : Option Step) (restored : Restored) (disk : Disk) :
    Except Failure Unit × Disk :=
  if fault = some .renameLedger then (.error .osError, disk)
  else
    let disk := { disk with temporaryLedger := false, ledgerDestination := some restored.ledger }
    if fault = some .syncLedgerParent ∨ fault = some .renameData then (.error .osError, disk)
    else
      let disk := { disk with temporaryData := false, dataDestination := some restored.data }
      if fault = some .syncDataParent then (.error .osError, disk) else (.ok (), disk)

/-- The `try` statement, which removes both temporary directories as an exception passes. -/
def guarded (fault : Option Step) (manifest ledgerManifest : Manifest) (disk : Disk) :
    Except Failure Unit × Disk :=
  let run : Except Failure Unit × Disk :=
    match prepared host umask snapshot ledgerSnapshot dataDigest ledgerDigest fault manifest
        ledgerManifest with
    | .error e => (.error e, disk)
    | .ok restored => published fault restored disk
  match run with
  | (.error e, disk) => (.error e, disk.removeTemporaries)
  | (.ok (), disk) => (.ok (), disk)

def restore (fault : Option Step) (disk : Disk) : Except Failure Unit × Disk :=
  match verified host umask snapshot ledgerSnapshot dataDigest ledgerDigest fault with
  | .error e => (.error e, disk)
  | .ok (manifest, ledgerManifest) =>
    if disk.dataDestination.isSome ∨ disk.ledgerDestination.isSome then
      (.error (.valueError "restore destinations must not exist"), disk)
    else if fault = some .makeParents ∨ fault = some .makeTemporaryLedger then
      (.error .osError, disk)
    else
      let disk := { disk with temporaryLedger := true }
      if fault = some .makeTemporaryData then (.error .osError, disk)
      else
        let disk := { disk with temporaryData := true }
        match guarded host umask snapshot ledgerSnapshot dataDigest ledgerDigest fault manifest
            ledgerManifest disk with
        | (.error e, disk) => (.error e, disk)
        | (.ok (), disk) => if fault = some .report then (.error .osError, disk) else (.ok (), disk)

/-- What the snapshots make of a restore that no exception of the host stops. -/
def accepted : Except Failure Restored :=
  restoreSnapshot host umask snapshot ledgerSnapshot dataDigest ledgerDigest

/-- If a call raises it leaves nothing, and the same call then installs both directories
unless the snapshots are refused. -/
def AllOrNothing (fault : Option Step) (disk : Disk) : Prop :=
  ∀ e after, restore host umask snapshot ledgerSnapshot dataDigest ledgerDigest fault disk =
      (.error e, after) →
    after = .clear ∧
    ∀ restored, accepted host umask snapshot ledgerSnapshot dataDigest ledgerDigest = .ok restored →
      restore host umask snapshot ledgerSnapshot dataDigest ledgerDigest none after =
        (.ok (), .installed restored)

end Restore

/-! ## What a fault stops -/

section Attempt
variable {α : Type} {fault : Option Step} {step : Step} {result : Except Failure α} {a : α}

theorem attempt_ok_iff : attempt fault step result = .ok a ↔ fault ≠ some step ∧ result = .ok a := by
  unfold attempt
  split <;> simp_all

@[simp] theorem attempt_none : attempt none step result = result := rfl

theorem attempt_of_ne (h : fault ≠ some step) : attempt fault step result = result := if_neg h

end Attempt

section Restore
variable {host : Host} {umask : Mode} {snapshot ledgerSnapshot : RestoreReading}
  {dataDigest ledgerDigest : Str} {fault : Option Step}

/-- The steps of `verified`. -/
def verifying : List Step := [.verifyData, .verifyLedger, .requireDominates]

/-- The steps of `prepared`. -/
def preparing : List Step :=
  [.emptyTemporaryLedger, .emptyTemporaryData, .copyLedger, .copyData, .validateData,
    .validateLineage, .inventoryData, .inventoryLedger, .verifyDataAgain, .verifyLedgerAgain,
    .syncLedger, .syncData]

theorem verified_eq (h : ∀ step ∈ verifying, fault ≠ some step) :
    verified host umask snapshot ledgerSnapshot dataDigest ledgerDigest fault =
      verified host umask snapshot ledgerSnapshot dataDigest ledgerDigest none := by
  simp only [verifying, List.forall_mem_cons] at h
  simp only [verified, attempt_of_ne h.1, attempt_of_ne h.2.1, attempt_of_ne h.2.2.1]
  rfl

theorem verified_steps {manifests : Manifest × Manifest}
    (h : verified host umask snapshot ledgerSnapshot dataDigest ledgerDigest fault =
      .ok manifests) : ∀ step ∈ verifying, fault ≠ some step := by
  simp only [verified, bind_ok_iff, attempt_ok_iff] at h
  obtain ⟨_, ⟨hdata, _⟩, _, ⟨hledger, _⟩, _, ⟨hdominates, _⟩, _⟩ := h
  simp only [verifying, List.forall_mem_cons]
  exact ⟨hdata, hledger, hdominates, nofun⟩

theorem prepared_eq (h : ∀ step ∈ preparing, fault ≠ some step) (manifest ledgerManifest : Manifest) :
    prepared host umask snapshot ledgerSnapshot dataDigest ledgerDigest fault manifest
        ledgerManifest =
      prepared host umask snapshot ledgerSnapshot dataDigest ledgerDigest none manifest
        ledgerManifest := by
  have hattempt (α : Type) (step : Step) (hstep : step ∈ preparing) (result : Except Failure α) :
      attempt fault step result = attempt none step result := attempt_of_ne (h step hstep)
  simp only [prepared]
  rw [hattempt _ .emptyTemporaryLedger (by decide), hattempt _ .emptyTemporaryData (by decide),
    hattempt _ .copyLedger (by decide), hattempt _ .copyData (by decide)]
  simp only [hattempt _ .validateData (by decide), hattempt _ .validateLineage (by decide),
    hattempt _ .inventoryData (by decide), hattempt _ .inventoryLedger (by decide),
    hattempt _ .verifyDataAgain (by decide), hattempt _ .verifyLedgerAgain (by decide),
    hattempt _ .syncLedger (by decide), hattempt _ .syncData (by decide)]

theorem prepared_steps {manifest ledgerManifest : Manifest} {restored : Restored}
    (h : prepared host umask snapshot ledgerSnapshot dataDigest ledgerDigest fault manifest
      ledgerManifest = .ok restored) : ∀ step ∈ preparing, fault ≠ some step := by
  simp only [prepared, bind_ok_iff, attempt_ok_iff] at h
  obtain ⟨_, ⟨h1, _⟩, _, ⟨h2, _⟩, _, ⟨h3, _⟩, _, ⟨h4, _⟩, _, ⟨h5, _⟩, _, ⟨h6, _⟩, _, _, _, ⟨h7, _⟩,
    _, _, _, ⟨h8, _⟩, _, _, _, ⟨h9, _⟩, _, ⟨h10, _⟩, _, ⟨h11, _⟩, _, ⟨h12, _⟩, _⟩ := h
  simp only [preparing, List.forall_mem_cons]
  exact ⟨h1, h2, h3, h4, h5, h6, h7, h8, h9, h10, h11, h12, nofun⟩

/-- A restore is accepted if its snapshots are verified and its directories prepared. -/
theorem accepted_eq :
    accepted host umask snapshot ledgerSnapshot dataDigest ledgerDigest =
      (verified host umask snapshot ledgerSnapshot dataDigest ledgerDigest none).bind
        fun manifests => prepared host umask snapshot ledgerSnapshot dataDigest ledgerDigest none
          manifests.1 manifests.2 := by
  unfold accepted restoreSnapshot verified
  cases hdata : verifySnapshot host umask snapshot.verified (some dataDigest) with
  | error e => rfl
  | ok manifest =>
    cases hledger : verifySnapshot host umask ledgerSnapshot.verified (some ledgerDigest) with
    | error e => rfl
    | ok ledgerManifest =>
      simp only [Bind.bind, Except.bind, attempt_none]
      cases hdominates : requireLedgerDominates ledgerManifest manifest with
      | error e => rfl
      | ok => rfl

theorem accepted_ok {restored : Restored}
    (h : accepted host umask snapshot ledgerSnapshot dataDigest ledgerDigest = .ok restored) :
    ∃ manifests, verified host umask snapshot ledgerSnapshot dataDigest ledgerDigest none =
        .ok manifests ∧
      prepared host umask snapshot ledgerSnapshot dataDigest ledgerDigest none manifests.1
        manifests.2 = .ok restored := by
  rw [accepted_eq] at h
  exact bind_ok_iff.mp h

/-! ## What a stopped call leaves -/

theorem restore_occupied (ledger data : Option Tree)
    (h : data.isSome = true ∨ ledger.isSome = true) :
    ∃ e, restore host umask snapshot ledgerSnapshot dataDigest ledgerDigest fault
      ⟨false, false, ledger, data⟩ = (.error e, ⟨false, false, ledger, data⟩) := by
  unfold restore
  split
  · exact ⟨_, rfl⟩
  · exact ⟨_, if_pos h⟩

/-- The second temporary directory is made outside the `try` statement. -/
theorem restore_makeTemporaryData {manifests : Manifest × Manifest}
    (h : verified host umask snapshot ledgerSnapshot dataDigest ledgerDigest none =
      .ok manifests) :
    restore host umask snapshot ledgerSnapshot dataDigest ledgerDigest (some .makeTemporaryData)
      .clear = (.error .osError, ⟨true, false, none, none⟩) := by
  have hfault : ∀ step ∈ verifying, some Step.makeTemporaryData ≠ some step := by decide
  simp [restore, (verified_eq hfault).trans h, Disk.clear]

/-- What is left once both directories are prepared. -/
theorem restore_prepared {restored : Restored}
    (h : accepted host umask snapshot ledgerSnapshot dataDigest ledgerDigest = .ok restored)
    (hverifying : ∀ step ∈ verifying, fault ≠ some step)
    (hpreparing : ∀ step ∈ preparing, fault ≠ some step)
    (hparents : fault ≠ some .makeParents) (hledger : fault ≠ some .makeTemporaryLedger)
    (hdata : fault ≠ some .makeTemporaryData) :
    restore host umask snapshot ledgerSnapshot dataDigest ledgerDigest fault .clear =
      if fault = some .renameLedger then (.error .osError, .clear)
      else if fault = some .syncLedgerParent ∨ fault = some .renameData then
        (.error .osError, ⟨false, false, some restored.ledger, none⟩)
      else if fault = some .syncDataParent ∨ fault = some .report then
        (.error .osError, .installed restored)
      else (.ok (), .installed restored) := by
  obtain ⟨⟨manifest, ledgerManifest⟩, hverified, hprepared⟩ := accepted_ok h
  rw [← verified_eq hverifying] at hverified
  rw [← prepared_eq hpreparing] at hprepared
  simp only [restore, hverified, Disk.clear, Option.isSome_none, Bool.false_eq_true, or_self,
    if_false, hparents, hledger, hdata, guarded, hprepared, published]
  by_cases hrename : fault = some .renameLedger
  · simp [hrename, Disk.removeTemporaries]
  · simp only [hrename, if_false]
    by_cases hsecond : fault = some .syncLedgerParent ∨ fault = some .renameData
    · simp [hsecond, Disk.removeTemporaries]
    · simp only [hsecond, if_false]
      by_cases hsync : fault = some .syncDataParent
      · simp [hsync, Disk.removeTemporaries, Disk.installed]
      · simp only [hsync, if_false, false_or]
        rfl

theorem restore_unstopped {restored : Restored}
    (h : accepted host umask snapshot ledgerSnapshot dataDigest ledgerDigest = .ok restored) :
    restore host umask snapshot ledgerSnapshot dataDigest ledgerDigest none .clear =
      (.ok (), .installed restored) := by
  have hverifying : ∀ step ∈ verifying, (none : Option Step) ≠ some step := fun _ _ => nofun
  have hpreparing : ∀ step ∈ preparing, (none : Option Step) ≠ some step := fun _ _ => nofun
  rw [restore_prepared h hverifying hpreparing nofun nofun nofun]
  rfl

/-- The steps after the first rename. -/
def unguarded : List (Option Step) :=
  [some .syncLedgerParent, some .renameData, some .syncDataParent, some .report]

/-- A call that is stopped after the first rename leaves the ledger. -/
theorem restore_unguarded {restored : Restored}
    (h : accepted host umask snapshot ledgerSnapshot dataDigest ledgerDigest = .ok restored)
    (hfault : fault ∈ unguarded) :
    ∃ after, restore host umask snapshot ledgerSnapshot dataDigest ledgerDigest fault .clear =
        (.error .osError, after) ∧ after.ledgerDestination.isSome = true := by
  have hall : ∀ late ∈ unguarded, (∀ step ∈ verifying, late ≠ some step) ∧
      (∀ step ∈ preparing, late ≠ some step) ∧ late ≠ some .makeParents ∧
      late ≠ some .makeTemporaryLedger ∧ late ≠ some .makeTemporaryData ∧
      late ≠ some .renameLedger := by decide
  obtain ⟨hverifying, hpreparing, hparents, hledger, hdata, hrename⟩ := hall fault hfault
  rw [restore_prepared h hverifying hpreparing hparents hledger hdata, if_neg hrename]
  split
  · exact ⟨_, rfl, rfl⟩
  · rename_i hsecond
    have hlast : fault = some .syncDataParent ∨ fault = some .report := by
      simp only [unguarded, List.mem_cons, List.not_mem_nil, or_false] at hfault
      tauto
    rw [if_pos hlast]
    exact ⟨_, rfl, rfl⟩

/-- A call that is stopped at no unguarded step leaves nothing. -/
theorem restore_error {e : Failure} {after : Disk}
    (hdata : (verified host umask snapshot ledgerSnapshot dataDigest ledgerDigest none).isOk = true →
      fault ≠ some .makeTemporaryData)
    (hunguarded : (accepted host umask snapshot ledgerSnapshot dataDigest ledgerDigest).isOk = true →
      fault ∉ unguarded)
    (h : restore host umask snapshot ledgerSnapshot dataDigest ledgerDigest fault .clear =
      (.error e, after)) : after = .clear := by
  cases hverified : verified host umask snapshot ledgerSnapshot dataDigest ledgerDigest fault with
  | error e =>
    simp only [restore, hverified, Prod.mk.injEq] at h
    exact h.2.symm
  | ok manifests =>
    have hverifying := verified_steps hverified
    have hnone := (verified_eq hverifying).symm.trans hverified
    have hsecond : fault ≠ some .makeTemporaryData := hdata (by rw [hnone]; rfl)
    by_cases hmade : fault = some .makeParents ∨ fault = some .makeTemporaryLedger
    · simp only [restore, hverified, Disk.clear, Option.isSome_none, Bool.false_eq_true, or_self,
        if_false, hmade, if_true, Prod.mk.injEq] at h
      exact h.2.symm
    · cases hprepared : prepared host umask snapshot ledgerSnapshot dataDigest ledgerDigest fault
          manifests.1 manifests.2 with
      | error e =>
        simp only [restore, hverified, Disk.clear, Option.isSome_none, Bool.false_eq_true, or_self,
          if_false, hmade, hsecond, guarded, hprepared, Prod.mk.injEq] at h
        exact h.2.symm
      | ok restored =>
        have hpreparing := prepared_steps hprepared
        have haccepted : accepted host umask snapshot ledgerSnapshot dataDigest ledgerDigest =
            .ok restored := by
          rw [accepted_eq, hnone]
          exact (prepared_eq hpreparing _ _).symm.trans hprepared
        have hlate := hunguarded (by rw [haccepted]; rfl)
        rw [restore_prepared haccepted hverifying hpreparing (fun h => hmade (.inl h))
          (fun h => hmade (.inr h)) hsecond] at h
        simp only [unguarded, List.mem_cons, List.not_mem_nil, or_false, not_or] at hlate
        obtain ⟨hparent, hrename, hsync, hreport⟩ := hlate
        simp only [hparent, hrename, hsync, hreport, or_self, if_false] at h
        split at h
        · exact (Prod.mk.inj h).2.symm
        · cases h

/-- A restore is all or nothing exactly if its destinations are new, its second temporary
directory can be made and nothing stops it after its first rename. -/
theorem restore_all_or_nothing_iff (host : Host) (umask : Mode)
    (snapshot ledgerSnapshot : RestoreReading) (dataDigest ledgerDigest : Str)
    (fault : Option Step) (ledger data : Option Tree) :
    AllOrNothing host umask snapshot ledgerSnapshot dataDigest ledgerDigest fault
        ⟨false, false, ledger, data⟩ ↔
      (ledger = none ∧ data = none) ∧
      ((verified host umask snapshot ledgerSnapshot dataDigest ledgerDigest none).isOk = true →
        fault ≠ some .makeTemporaryData) ∧
      ((accepted host umask snapshot ledgerSnapshot dataDigest ledgerDigest).isOk = true →
        fault ∉ unguarded) := by
  constructor
  · intro h
    have hnew : ledger = none ∧ data = none := by
      by_contra hold
      have hoccupied : data.isSome = true ∨ ledger.isSome = true := by
        cases data <;> cases ledger <;> simp_all
      obtain ⟨e, hrun⟩ : ∃ e, restore host umask snapshot ledgerSnapshot dataDigest ledgerDigest
          fault ⟨false, false, ledger, data⟩ = (.error e, ⟨false, false, ledger, data⟩) :=
        restore_occupied ledger data hoccupied
      obtain ⟨hclear, -⟩ := h e _ hrun
      simp only [Disk.clear, Disk.mk.injEq] at hclear
      exact hold ⟨hclear.2.2.1, hclear.2.2.2⟩
    obtain ⟨rfl, rfl⟩ := hnew
    refine ⟨⟨rfl, rfl⟩, fun hverified hfault => ?_, fun haccepted hfault => ?_⟩
    · obtain ⟨manifests, hmanifests⟩ := exists_of_isOk hverified
      rw [hfault] at h
      obtain ⟨hclear, -⟩ := h _ _ (restore_makeTemporaryData hmanifests)
      cases hclear
    · obtain ⟨restored, hrestored⟩ := exists_of_isOk haccepted
      obtain ⟨after, hrun, hledger⟩ := restore_unguarded hrestored hfault
      obtain ⟨hclear, -⟩ := h _ _ hrun
      rw [hclear] at hledger
      cases hledger
  · intro h
    obtain ⟨⟨rfl, rfl⟩, hdata, hunguarded⟩ := h
    intro e after hrun
    have hclear := restore_error hdata hunguarded hrun
    rw [hclear]
    exact ⟨rfl, fun restored haccepted => restore_unstopped haccepted⟩

end Restore

/-- A host for which everything has one digest and one tag. -/
def plainHost : Host where
  sha256 _ := zeroDigest
  hmacSha256 _ _ := zeroDigest
  parseFloat _ := ⟨[], none⟩
  generationRow _ _ := .ok none

/-- The snapshot of two empty directories, under the given domain. -/
def firstSnapshot : Snapshot :=
  match createSnapshot plainHost 0o077 1 ⟨zeroDigest, zeroDigest⟩ .empty .empty with
  | .ok created => created.snapshot
  | .error _ => ⟨[], [], .empty, .empty⟩

theorem firstSnapshot_accepted :
    (accepted plainHost 0o077 firstSnapshot.stillRestored firstSnapshot.stillRestored zeroDigest
      zeroDigest).isOk = true := by
  decide +kernel

/-- A sync that fails after the first rename leaves the ledger installed, and the same call
is refused then. -/
theorem restore_leaves_ledger :
    ¬ AllOrNothing plainHost 0o077 firstSnapshot.stillRestored firstSnapshot.stillRestored
      zeroDigest zeroDigest (some .syncLedgerParent) .clear := by
  intro h
  obtain ⟨restored, haccepted⟩ := exists_of_isOk firstSnapshot_accepted
  have hfault : some Step.syncLedgerParent ∈ unguarded := by decide
  obtain ⟨after, hrun, hledger⟩ := restore_unguarded haccepted hfault
  obtain ⟨hclear, -⟩ := h _ _ hrun
  rw [hclear] at hledger
  cases hledger

end Pomodorough.Restore.Installation
