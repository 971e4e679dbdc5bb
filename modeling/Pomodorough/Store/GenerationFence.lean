import Pomodorough.Store.Bootstrap
import Pomodorough.Store.LockedCalls
import Pomodorough.Store.Sessions

/-! # Operations for one account generation

`account_generation.go`: an operation opens the account under its lock and runs
only on the generation it was authenticated for. -/
namespace Pomodorough.Store.GenerationFence
open Pomodorough.Library.AtomicSteps
open Pomodorough.Store.Records Pomodorough.Store.SharedCoreValidation Pomodorough.Store.SharedCore
open Pomodorough.Store.DeletionLedger Pomodorough.Store.Accounts Pomodorough.Store.LedgerSpec
open Pomodorough.Store.OperationLogs Pomodorough.Store.Sync Pomodorough.Store.Bootstrap
open Pomodorough.Store.Orderly Pomodorough.Store.LockedCalls

variable {α : Type}

/-- A transaction through a handle: it commits what it computes, or nothing. -/
def transaction (db : DatabaseFile) (operation : UserTables → Fallible (UserTables × α)) :
    DiskOp (Fallible α) := Op.step fun disk =>
  match operation db.tables with
  | .ok (tables, a) => (.ok a, disk.updateFile db.inode fun file => { file with tables })
  | .error e => (.error e, disk)

def withAccountGeneration (generation : Nat)
    (operation : UserTables → Fallible (UserTables × α)) : DiskOp α := do
  let db ← openExistingUser
  match accountGeneration db with
  | .error e =>
    closeDatabase db
    throw e
  | .ok currentGeneration =>
    if currentGeneration ≠ generation then
      closeDatabase db
      throw .accountGenerationChanged
    else
      let result ← transaction db operation
      closeDatabase db
      Op.lift result

/-! ## The operations -/

/-- `SyncForGeneration`: a repeated id is refused before the account is opened. -/
def syncForGeneration (core : Core) (generation : Nat) (request : SyncRequest) (now : Time) :
    DiskOp SyncResult := do
  Op.lift (validateUniqueOperationIDs request)
  withAccountGeneration generation fun t => syncLocked core t request now

/-- `materializeProjectionForGeneration`. -/
def bootstrapForGeneration (core : Core) (generation : Nat) (now : Time) : DiskOp SyncResult :=
  withAccountGeneration generation fun t => materializeProjection core t now

def historyForGeneration (core : Core) (generation : Nat) (now : Time) :
    DiskOp (List HistoryItem × Int × Bool) := do
  let result ← bootstrapForGeneration core generation now
  pure (result.history, result.revision, result.changed)

def resolveBootstrapForGeneration (core : Core) (sha256 : Sha256) (generation : Nat)
    (request : BootstrapResolutionRequest) (now : Time) : DiskOp SyncResult :=
  withAccountGeneration generation fun t => resolveBootstrap core sha256 t request now

def updateCSRFForGeneration (generation : Nat) (sessionID : String) (csrfHash : Hash) :
    DiskOp Unit :=
  withAccountGeneration generation fun t => Sessions.updateCSRF t sessionID csrfHash

def revokeSessionForGeneration (generation : Nat) (sessionID : String) (now : Time) :
    DiskOp Unit :=
  withAccountGeneration generation fun t => Sessions.revokeSession t sessionID now

def revokeDeviceForGeneration (generation : Nat) (deviceID : String) (now : Time) : DiskOp Unit :=
  withAccountGeneration generation fun t => Sessions.revokeDevice t deviceID now

/-! ## What an operation reads and writes -/

/-- What an operation answers when it commits, or fails. -/
def answer (operation : UserTables → Fallible (UserTables × α)) (t : UserTables) : Fallible α :=
  match operation t with
  | .ok (_, a) => .ok a
  | .error e => .error e

/-- The outcome of an operation: computed from the live file of its generation,
or an error that says there is none. The first generation of an account can be
live before the ledger knows of it. -/
inductive FenceOutcome (generation : Nat) (operation : UserTables → Fallible (UserTables × α))
    (s : AccountDisk) : Except StoreError α → Prop where
  | answered {file} (hlive : LiveAt generation s file) :
      FenceOutcome generation operation s (answer operation file.tables)
  | unbound {file message} (hlive : LiveAt generation s file) :
      FenceOutcome generation operation s (.error (.failure message))
  | refused {e} (h : Refused e) : FenceOutcome generation operation s (.error e)

section
variable {mine : Nat → Prop} {s t : AccountDisk} {generation : Nat}
  {operation : UserTables → Fallible (UserTables × α)}

theorem Own.transaction (db : DatabaseFile) (hs : Own mine s)
    (operation : UserTables → Fallible (UserTables × α)) :
    Meets Foreign (Moves mine) (fun r t => Own mine t ∧ r = .ok (answer operation db.tables))
      (GenerationFence.transaction db operation) s := by
  unfold GenerationFence.transaction answer
  cases h : operation db.tables with
  | error e => exact ⟨moves_of_quiet s s (.refl s), fun t ht => ⟨hs.foreign ht, rfl⟩⟩
  | ok result =>
    obtain ⟨tables, a⟩ := result
    have hwrite := hs.updateFile db.inode (fun file => { file with tables }) fun file hfile => by
      have hold := hs.orderly.file file hfile
      have hstored : storedGeneration { file with tables } = storedGeneration file := by
        unfold storedGeneration DatabaseFile.migrate
        split <;> rfl
      refine ⟨⟨hold.supported, hold.numbered, hold.generation⟩, fun hlt => ?_⟩
      rw [hstored] at hlt ⊢
      exact ⟨hs.live file hfile hlt, fun hpos => hs.orderly.bound file hfile hpos hlt⟩
    exact ⟨hwrite.1, fun t ht => ⟨hwrite.2.foreign ht, rfl⟩⟩

theorem locked_withAccountGeneration (ho : OrderlyAccount s) (hpos : 1 ≤ generation)
    (hle : generation ≤ tombstone s + 1) (hmine : mine generation) :
    Meets Foreign (Moves mine) (fun r _ => FenceOutcome generation operation s r)
      (withAccountGeneration generation operation) s := by
  refine Meets.bind (locked_openExistingUser ho) (fun db t ⟨hst, hopened⟩ => ?_)
    fun e t ⟨_, hopened⟩ => ?_
  case refine_2 =>
    cases hopened with
    | notFound => exact .refused .notFound
    | accountDeleted => exact .refused .accountDeleted
    | unbound hzero hfile =>
      obtain ⟨file, hlive⟩ := liveAt_first ho hpos hle hzero hfile
      exact .unbound hlive
  cases hopened with
  | @opened file _ hfile hlt htables hgen =>
    rw [hgen]
    dsimp only
    by_cases heq : storedGeneration file = generation
    · rw [if_neg (not_not.mpr heq)]
      have hlive : LiveAt generation s file := ⟨hfile, heq, heq ▸ hlt⟩
      refine Meets.bind (Own.transaction db ((hlive.own ho hmine).foreign hst) operation)
        (fun result u ⟨_, hr⟩ => ?_) fun e u h => by cases h.2
      obtain rfl := Except.ok.inj hr
      refine Meets.bind (locked_closeDatabase db) (fun _ v _ => ?_) fun e v h => by cases h.2
      rw [meets_lift, htables]
      exact .answered hlive
    · rw [if_pos heq]
      exact Meets.bind (locked_closeDatabase db)
        (fun _ v _ => .refused .accountGenerationChanged) fun e v h => by cases h.2

end

end Pomodorough.Store.GenerationFence
