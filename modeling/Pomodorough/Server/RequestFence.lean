import Pomodorough.Library.Serialized
import Pomodorough.Server.Hub
import Pomodorough.Server.Principals
import Pomodorough.Store.AccountRuns
import Pomodorough.Store.GenerationFence

/-! # Requests between deletions and recreations

A request authenticates without the account's lock and runs its operation under
it. In between, the account may be deleted and created again any number of
times. Here the requests of one account run among sign-ins, refreshes, deletions
and restarts, each abandoned wherever it may be. -/
namespace Pomodorough.Server.RequestFence
open Pomodorough.Library.AtomicSteps Pomodorough.Library.Serialized
open Pomodorough.Store.Records Pomodorough.Store.SharedCoreValidation Pomodorough.Store.SharedCore
open Pomodorough.Store.DeletionLedger Pomodorough.Store.Accounts Pomodorough.Store.LedgerSpec
open Pomodorough.Store.OperationLogs Pomodorough.Store.Sync Pomodorough.Store.Bootstrap
open Pomodorough.Store.Orderly Pomodorough.Store.LockedCalls Pomodorough.Store.GenerationFence
open Pomodorough.Store
open Pomodorough.Store.AccountRuns (absentTimerCore)
open Pomodorough.Server.Hub Pomodorough.Server.Principals

/-! ## Operations -/

/-- What an authenticated request asks of its account. -/
inductive Operation where
  | sync (request : SyncRequest)
  | bootstrap
  | history
  | stream
  | resolveBootstrap (request : BootstrapResolutionRequest)
  | updateCSRF (csrfHash : Hash)
  | revokeSession
  | revokeDevice (deviceID : String)
  | deleteUser
  | deleteAccount

inductive Answer where
  | snapshot (result : SyncResult)
  | history (history : List HistoryItem) (revision : Int) (changed : Bool)
  | done
  deriving DecidableEq

/-- The store call of a handler. -/
def Operation.perform (core : Core) (sha256 : Sha256) (operation : Operation)
    (identity : Principal) (now : Time) (clock : WallClock) : DiskOp Answer :=
  match operation with
  | .sync request => do
    let result ← syncForGeneration core identity.generation request now
    pure (.snapshot result)
  | .bootstrap => do
    let result ← bootstrapForGeneration core identity.generation now
    pure (.snapshot result)
  | .history | .stream => do
    let (items, revision, changed) ← historyForGeneration core identity.generation now
    pure (.history items revision changed)
  | .resolveBootstrap request => do
    let result ← resolveBootstrapForGeneration core sha256 identity.generation request now
    pure (.snapshot result)
  | .updateCSRF csrfHash => do
    updateCSRFForGeneration identity.generation identity.sessionID csrfHash
    pure .done
  | .revokeSession => do
    revokeSessionForGeneration identity.generation identity.sessionID now
    pure .done
  | .revokeDevice deviceID => do
    revokeDeviceForGeneration identity.generation deviceID now
    pure .done
  | .deleteUser => do
    deleteUserForGeneration identity.generation clock
    pure .done
  | .deleteAccount => do
    deleteUserWithReceipt identity.generation identity.credential identity.csrfHash
      (some identity.sessionID) clock
    pure .done

/-- What a handler does in the hub once its store call has succeeded. -/
def Operation.hubCalls (operation : Operation) (identity : Principal) (answer : Answer) :
    List HubCall :=
  match operation, answer with
  | _, .snapshot result => if result.changed then [.publish result.revision] else []
  | _, .history _ revision changed => if changed then [.publish revision] else []
  | .revokeSession, .done => [.disconnectSession identity.sessionID]
  | .revokeDevice deviceID, .done => [.disconnectDevice deviceID]
  | .deleteAccount, .done => [.disconnect]
  | _, .done => []

/-! ## Traffic of one account -/

structure Request where
  operation : Operation
  credential : DeletionCredential
  removed : UserTables
  now : Time

/-- What a request does before its handler runs. -/
def Request.identify (request : Request) (userID : String) : DiskOp Principal :=
  match request.operation with
  | .deleteAccount =>
    requireAccountDeletion userID request.credential request.removed request.now
  | _ => authenticateCredential userID request.credential request.removed request.now

/-- The requests on an account outside of its lock. -/
structure Traffic where
  admissions : List (Request × Prog AccountDisk (Except StoreError Principal))
  admitted : List (Request × Principal)
  pending : List (Principal × HubCall)
  streams : List (Principal × Nat)
  hub : RevisionHub

def Traffic.initial : Traffic where
  admissions := []
  admitted := []
  pending := []
  streams := []
  hub := .empty

/-- What the requests of one principal do in the hub. -/
inductive HubStep (userID : String) (identity : Principal) : Traffic → Traffic → Prop where
  | subscribe {w request} (hmem : (request, identity) ∈ w.admitted)
      (hstream : request.operation = .stream) :
      HubStep userID identity w { w with
        streams := (identity, w.hub.nextID + 1) :: w.streams
        hub := HubCall.perform (.subscribe identity.sessionID identity.deviceID) userID
          identity.generation w.hub }
  | unsubscribe {w id before after} (h : w.streams = before ++ (identity, id) :: after) :
      HubStep userID identity w { w with
        streams := before ++ after
        hub := HubCall.perform (.unsubscribe id) userID identity.generation w.hub }
  | call {w call before after} (h : w.pending = before ++ (identity, call) :: after) :
      HubStep userID identity w { w with
        pending := before ++ after
        hub := call.perform userID identity.generation w.hub }

/-- What happens without the account's lock. -/
inductive Beside (userID : String) : AccountDisk × Traffic → AccountDisk × Traffic → Prop where
  | arrive {s w} (request : Request) : Beside userID (s, w) (s, { w with
      admissions := (request, ExceptT.run (request.identify userID)) :: w.admissions })
  | act {s w request u n before after}
      (h : w.admissions = before ++ (request, .act u n) :: after) :
      Beside userID (s, w) (u s, { w with admissions := before ++ (request, n s) :: after })
  | admitted {s w request identity before after}
      (h : w.admissions = before ++ (request, .ret (.ok identity)) :: after) :
      Beside userID (s, w) (s, { w with
        admissions := before ++ after
        admitted := (request, identity) :: w.admitted })
  | giveUp {s w entry before after} (h : w.admissions = before ++ entry :: after) :
      Beside userID (s, w) (s, { w with admissions := before ++ after })
  | leave {s w entry before after} (h : w.admitted = before ++ entry :: after) :
      Beside userID (s, w) (s, { w with admitted := before ++ after })
  | hub {s w w' identity} (h : HubStep userID identity w w') : Beside userID (s, w) (s, w')
  | outside {s w} (call : HubCall) (other : RevisionScope) : Beside userID (s, w) (s, { w with
      hub := call.perform other.userID other.generation w.hub })
  | shutdown {s w} : Beside userID (s, w) (s, { w with hub := w.hub.shutdown })

/-- The calls that hold the account's lock. A sign-in and a refresh change the
tables in ways that do not matter here. -/
inductive LockedCall where
  | signIn (change : UserTables → UserTables) (clock : WallClock)
  | refresh (change : UserTables → UserTables)
  | deleteUser (clock : WallClock)
  | restart (clock : WallClock)
  | operate (request : Request) (identity : Principal) (now : Time) (clock : WallClock)

/-- A change of the tables through a handle, which is then closed. -/
def changeTables (db : DatabaseFile) (change : UserTables → UserTables) : DiskOp Answer := do
  let result ← transaction db fun t => .ok (change t, Answer.done)
  closeDatabase db
  Op.lift result

def LockedCall.body (core : Core) (sha256 : Sha256) : LockedCall → DiskOp Answer
  | .signIn change clock => do
    let db ← openUser clock
    changeTables db change
  | .refresh change => do
    let db ← openExistingUser
    changeTables db change
  | .deleteUser clock => do
    Accounts.deleteUser clock
    pure .done
  | .restart clock => do
    startAccount clock
    pure .done
  | .operate request identity now clock =>
    request.operation.perform core sha256 identity now clock

/-- A request takes the lock once; a restart ends whatever went on. -/
def LockedCall.start : LockedCall → Traffic → Traffic → Prop
  | .operate request identity _ _, w, w' => ∃ before after,
    w.admitted = before ++ (request, identity) :: after ∧ w' = { w with admitted := before ++ after }
  | .restart _, _, w' => w' = .initial
  | _, w, w' => w' = w

def LockedCall.finish : LockedCall → Option (Except StoreError Answer) → Traffic → Traffic → Prop
  | .operate request identity _ _, some (.ok answer), w, w' => w' = { w with
      pending := w.pending ++ (request.operation.hubCalls identity answer).map (identity, ·) }
  | _, _, w, w' => w' = w

/-- One account of the server. -/
def server (core : Core) (sha256 : Sha256) (userID : String) :
    Machine AccountDisk Traffic LockedCall (Except StoreError Answer) where
  body call := ExceptT.run (call.body core sha256)
  others := Beside userID
  start := LockedCall.start
  finish := LockedCall.finish

abbrev ServerConfig := Config AccountDisk Traffic LockedCall (Except StoreError Answer)

def ServerConfig.initial : ServerConfig := ⟨.blank, .initial, none⟩

/-! ## What an operation answers -/

/-- What an operation computes from the tables of its account. -/
def Operation.compute (core : Core) (sha256 : Sha256) (operation : Operation)
    (identity : Principal) (now : Time) (t : UserTables) : Fallible Answer :=
  match operation with
  | .sync request => (answer (fun t => syncLocked core t request now) t).map .snapshot
  | .bootstrap => (answer (fun t => materializeProjection core t now) t).map .snapshot
  | .history | .stream => (answer (fun t => materializeProjection core t now) t).map fun result =>
      .history result.history result.revision result.changed
  | .resolveBootstrap request =>
    (answer (fun t => Bootstrap.resolveBootstrap core sha256 t request now) t).map .snapshot
  | .updateCSRF csrfHash =>
    (answer (fun t => Sessions.updateCSRF t identity.sessionID csrfHash) t).map fun _ => .done
  | .revokeSession =>
    (answer (fun t => Sessions.revokeSession t identity.sessionID now) t).map fun _ => .done
  | .revokeDevice deviceID =>
    (answer (fun t => Sessions.revokeDevice t deviceID now) t).map fun _ => .done
  | .deleteUser | .deleteAccount => .ok .done

/-- The outcome of an operation of a request: computed from the live file of the
request's generation, a deletion of that file, an answer of the credential's own
receipt, or an error. -/
inductive OperationOutcome (core : Core) (sha256 : Sha256) (operation : Operation)
    (identity : Principal) (now : Time) (s : AccountDisk) : Except StoreError Answer → Prop where
  | answered {file} (hlive : LiveAt identity.generation s file) :
      OperationOutcome core sha256 operation identity now s
        (operation.compute core sha256 identity now file.tables)
  | failed {file e} (hlive : LiveAt identity.generation s file) :
      OperationOutcome core sha256 operation identity now s (.error e)
  | receipted {r} (hop : operation = .deleteAccount)
      (h : Receipted identity.generation identity.credential identity.csrfHash s r) :
      OperationOutcome core sha256 operation identity now s (r.map fun _ => .done)
  | repeated {request e} (hop : operation = .sync request)
      (h : validateUniqueOperationIDs request = .error e) :
      OperationOutcome core sha256 operation identity now s (.error e)
  | refused {e} (h : Refused e) : OperationOutcome core sha256 operation identity now s (.error e)

theorem Receipted.origin {generation : Nat} {credential : DeletionCredential}
    {csrfHash : Option Hash} {s t : AccountDisk} {r : Except StoreError Unit}
    (h : Receipted generation credential csrfHash t r) (hst : Foreign s t) :
    Receipted generation credential csrfHash s r := by
  have htomb := hst.ledger.tombstone
  have hreceipts := hst.ledger.receipts
  cases h with
  | confirmed hstored hgeneration hle hcsrf =>
    exact .confirmed (hreceipts ▸ hstored) hgeneration (htomb ▸ hle) hcsrf
  | refused hstored hle hmismatch => exact .refused (hreceipts ▸ hstored) (htomb ▸ hle) hmismatch

/-- What an operation answers later on is an answer for the account it found. -/
theorem OperationOutcome.origin {core : Core} {sha256 : Sha256} {operation : Operation}
    {identity : Principal} {now : Time} {s t : AccountDisk} {r : Except StoreError Answer}
    (h : OperationOutcome core sha256 operation identity now t r) (hst : Foreign s t) :
    OperationOutcome core sha256 operation identity now s r := by
  cases h with
  | answered hlive =>
    obtain ⟨file, hlive, hsame⟩ := hlive.origin hst
    rw [hsame]
    exact .answered hlive
  | failed hlive =>
    obtain ⟨file, hlive, -⟩ := hlive.origin hst
    exact .failed hlive
  | receipted hop h => exact .receipted hop (Receipted.origin h hst)
  | repeated hop h => exact .repeated hop h
  | refused h => exact .refused h

section
variable {α : Type} {core : Core} {sha256 : Sha256} {operation : Operation} {identity : Principal}
  {now : Time} {clock : WallClock} {s t : AccountDisk} {mine : Nat → Prop}

theorem operation_outcome {f : UserTables → Fallible (UserTables × α)} {k : α → Answer}
    {r : Except StoreError α}
    (hcompute : ∀ t, operation.compute core sha256 identity now t = (answer f t).map k)
    (h : FenceOutcome identity.generation f s r) :
    OperationOutcome core sha256 operation identity now s (r.map k) := by
  cases h with
  | answered hlive => exact hcompute _ ▸ .answered hlive
  | unbound hlive => exact .failed hlive
  | refused h => exact .refused h

/-- An operation that only runs on the account's tables. -/
theorem locked_operation {f : UserTables → Fallible (UserTables × α)} {k : α → Answer}
    (ho : OrderlyAccount s) (hid : Possible s identity) (hmine : mine identity.generation)
    (hcompute : ∀ t, operation.compute core sha256 identity now t = (answer f t).map k) :
    Meets Foreign (Moves mine)
      (fun r _ => OperationOutcome core sha256 operation identity now s r)
      ((do
        let a ← withAccountGeneration identity.generation f
        pure (k a)) : DiskOp Answer) s :=
  Meets.bind (locked_withAccountGeneration ho hid.1 hid.2 hmine)
    (fun _ _ h => operation_outcome hcompute h) fun _ _ h => operation_outcome hcompute h

/-- `HistoryForGeneration`, in a request for the history and in a stream. -/
theorem locked_history (ho : OrderlyAccount s) (hid : Possible s identity)
    (hmine : mine identity.generation)
    (hcompute : ∀ t, operation.compute core sha256 identity now t =
      (answer (fun t => materializeProjection core t now) t).map fun result =>
        .history result.history result.revision result.changed) :
    Meets Foreign (Moves mine)
      (fun r _ => OperationOutcome core sha256 operation identity now s r)
      ((do
        let (items, revision, changed) ← historyForGeneration core identity.generation now
        pure (.history items revision changed)) : DiskOp Answer) s := by
  have hfence : ∀ r : Except StoreError SyncResult,
      FenceOutcome identity.generation (fun t => materializeProjection core t now) s r →
        OperationOutcome core sha256 operation identity now s
          (r.map fun result => .history result.history result.revision result.changed) :=
    fun _ h => operation_outcome hcompute h
  refine Meets.bind (Q := fun r _ => OperationOutcome core sha256 operation identity now s
    (r.map fun found : List HistoryItem × Int × Bool => .history found.1 found.2.1 found.2.2)) ?_
    (fun _ _ h => h) fun _ _ h => h
  exact Meets.bind (locked_withAccountGeneration ho hid.1 hid.2 hmine)
    (fun result _ h => hfence (.ok result) h) fun e _ h => hfence (.error e) h

theorem locked_perform (ho : OrderlyAccount s) (hid : Possible s identity)
    (hmine : mine identity.generation)
    (hhash : operation = .deleteAccount → identity.credential.tokenHash ≠ 0) :
    Meets Foreign (Moves mine)
      (fun r _ => OperationOutcome core sha256 operation identity now s r)
      (operation.perform core sha256 identity now clock) s := by
  cases operation with
  | sync request =>
    refine Meets.bind (Q := fun r _ => OperationOutcome core sha256 (.sync request) identity now s
      (r.map .snapshot)) ?_ (fun _ _ h => h) fun _ _ h => h
    rw [syncForGeneration, meets_bind, meets_lift]
    cases hunique : validateUniqueOperationIDs request with
    | error e => exact .repeated rfl hunique
    | ok _ =>
      exact Meets.imp (locked_withAccountGeneration ho hid.1 hid.2 hmine) fun _ _ h =>
        operation_outcome (fun _ => rfl) h
  | bootstrap => exact locked_operation ho hid hmine fun _ => rfl
  | history => exact locked_history ho hid hmine fun _ => rfl
  | stream => exact locked_history ho hid hmine fun _ => rfl
  | resolveBootstrap request => exact locked_operation ho hid hmine fun _ => rfl
  | updateCSRF csrfHash => exact locked_operation ho hid hmine fun _ => rfl
  | revokeSession => exact locked_operation ho hid hmine fun _ => rfl
  | revokeDevice deviceID => exact locked_operation ho hid hmine fun _ => rfl
  | deleteUser =>
    refine Meets.bind (locked_deleteUserForGeneration ho hid.1 hid.2 hmine) (fun _ _ h => ?_)
      fun e _ h => ?_
    · rcases h with ⟨file, hlive⟩ | ⟨_, h, -⟩
      · exact .answered hlive
      · cases h
    · rcases h with ⟨file, hlive⟩ | ⟨_, h, hrefused⟩
      · exact .failed hlive
      · cases h
        exact .refused hrefused
  | deleteAccount =>
    refine Meets.bind (locked_deleteUserWithReceipt ho hid.1 hid.2 fun _ _ _ => hmine)
      (fun _ _ ⟨h, _⟩ => ?_) fun e _ ⟨h, _⟩ => ?_
    · cases h with
      | live hlive _ => exact .answered hlive
      | receipted h => exact .receipted rfl h
    · cases h with
      | live hlive _ => exact .failed hlive
      | receipted h => exact .receipted rfl h
      | zero h => exact absurd h (hhash rfl)
      | refused h => exact .refused h

end

/-! ## Every interleaving -/

/-- What a request has found out about itself when it is admitted. -/
def Admitted (request : Request) (r : Except StoreError Principal) (s : AccountDisk) : Prop :=
  ∀ identity, r = .ok identity → Possible s identity ∧
    (request.operation = .deleteAccount → identity.credential.tokenHash ≠ 0)

structure InOrder (s : AccountDisk) (w : Traffic) : Prop where
  account : OrderlyAccount s
  admissions : ∀ entry ∈ w.admissions, Safe Onward Foreign (Admitted entry.1) entry.2 s
  admitted : ∀ entry ∈ w.admitted, Admitted entry.1 (.ok entry.2) s

section
variable {core : Core} {sha256 : Sha256} {userID : String} {s t : AccountDisk} {w w' : Traffic}

theorem Admitted.onward {request : Request} {r : Except StoreError Principal}
    (h : Admitted request r s) (hst : Onward s t) : Admitted request r t := fun identity hr =>
  ⟨(h identity hr).1.onward hst, (h identity hr).2⟩

theorem InOrder.onward (h : InOrder s w) (hst : Onward s t) : InOrder t w where
  account := hst.orderly h.account
  admissions entry hmem := (h.admissions entry hmem).env hst onward_trans
  admitted entry hmem := (h.admitted entry hmem).onward hst

/-- A request may be admitted at any time. -/
theorem identify_safe (request : Request) (ho : OrderlyAccount s) :
    Safe Onward Foreign (Admitted request) (ExceptT.run (request.identify userID)) s := by
  intro t hst
  have ho' := hst.orderly ho
  have hlive : ∀ credential, request.operation ≠ .deleteAccount →
      Meets Onward Foreign (Admitted request)
        (authenticateCredential userID credential request.removed request.now) t :=
    fun credential hop => Meets.imp (unlocked_authenticateCredential ho') fun r u hr identity h =>
      ⟨(hr identity h).1, fun hdelete => absurd hdelete hop⟩
  cases hop : request.operation with
  | deleteAccount =>
    rw [Request.identify, hop]
    refine Meets.imp (unlocked_requireAccountDeletion ho') fun r u hr identity h => ?_
    obtain ⟨hpossible, hcredential, hhash⟩ := hr identity h
    exact ⟨hpossible, fun _ => hcredential ▸ hhash⟩
  | _ =>
    rw [Request.identify, hop]
    exact hlive _ (by rw [hop]; simp)

theorem InOrder.beside (h : InOrder s w) (hstep : Beside userID (s, w) (t, w')) :
    InOrder t w' ∧ Foreign s t := by
  cases hstep with
  | arrive request =>
    refine ⟨⟨h.account, fun entry hmem => ?_, h.admitted⟩, .refl s⟩
    rcases List.mem_cons.mp hmem with rfl | hmem
    · exact identify_safe request h.account
    · exact h.admissions entry hmem
  | @act _ _ request u n before after hsplit =>
    have hmem : (request, Prog.act u n) ∈ w.admissions := by rw [hsplit]; simp
    obtain ⟨hforeign, hsafe⟩ := (h.admissions _ hmem).act Onward.refl
    have hnext := h.onward hforeign.onward
    refine ⟨⟨hnext.account, fun entry hentry => ?_, hnext.admitted⟩, hforeign⟩
    rcases List.mem_append.mp hentry with hold | hnew
    · exact hnext.admissions entry (by rw [hsplit]; simp [hold])
    · rcases List.mem_cons.mp hnew with rfl | hold
      · exact hsafe
      · exact hnext.admissions entry (by rw [hsplit]; simp [hold])
  | @admitted _ _ request identity before after hsplit =>
    refine ⟨⟨h.account, fun entry hentry => ?_, fun entry hentry => ?_⟩, .refl s⟩
    · refine h.admissions entry ?_
      rw [hsplit]
      rcases List.mem_append.mp hentry with hold | hold <;> simp [hold]
    · rcases List.mem_cons.mp hentry with rfl | hold
      · exact (h.admissions (request, .ret (.ok identity)) (by rw [hsplit]; simp)).ret Onward.refl
      · exact h.admitted entry hold
  | @giveUp _ _ entry before after hsplit =>
    refine ⟨⟨h.account, fun other hother => h.admissions other ?_, h.admitted⟩, .refl s⟩
    rw [hsplit]
    rcases List.mem_append.mp hother with hold | hold <;> simp [hold]
  | @leave _ _ entry before after hsplit =>
    refine ⟨⟨h.account, h.admissions, fun other hother => h.admitted other ?_⟩, .refl s⟩
    rw [hsplit]
    rcases List.mem_append.mp hother with hold | hold <;> simp [hold]
  | hub hhub =>
    refine ⟨?_, .refl s⟩
    cases hhub <;> exact ⟨h.account, h.admissions, h.admitted⟩
  | outside _ _ => exact ⟨⟨h.account, h.admissions, h.admitted⟩, .refl s⟩
  | shutdown => exact ⟨⟨h.account, h.admissions, h.admitted⟩, .refl s⟩

/-- A change of the tables by whoever holds the lock. -/
theorem locked_changeTables (db : DatabaseFile) (change : UserTables → UserTables)
    (ho : OrderlyAccount s) :
    Meets Foreign (Moves Anything) (fun _ _ => True) (changeTables db change) s := by
  refine Meets.bind (Own.transaction db (.any ho) _) (fun result t ht => ?_) fun _ _ _ => trivial
  refine Meets.bind (locked_closeDatabase db) (fun _ u _ => ?_) fun _ _ _ => trivial
  trivial

theorem InOrder.start {call : LockedCall} (h : InOrder s w) (hstart : call.start w w') :
    InOrder s w' ∧ Safe Foreign Onward (fun _ _ => True) (ExceptT.run (call.body core sha256)) s := by
  have honward : ∀ (mine : Nat → Prop) {Q : Except StoreError Answer → AccountDisk → Prop}
      {x : DiskOp Answer} {t}, Meets Foreign (Moves mine) Q x t →
      Sat Foreign Onward (fun _ _ => True) (ExceptT.run x) t := fun _ _ _ _ hx =>
    Meets.mono hx (fun _ _ => id) (fun _ _ hm => hm.onward) fun _ _ _ => trivial
  cases call with
  | signIn change clock =>
    obtain rfl : w' = w := hstart
    refine ⟨h, fun t hst => honward Anything (Q := fun _ _ => True) ?_⟩
    exact Meets.bind (locked_openUser (hst.onward.orderly h.account))
      (fun db u hu => locked_changeTables db change hu) fun _ _ _ => trivial
  | refresh change =>
    obtain rfl : w' = w := hstart
    refine ⟨h, fun t hst => honward Anything (Q := fun _ _ => True) ?_⟩
    have ho := hst.onward.orderly h.account
    exact Meets.bind (locked_openExistingUser ho)
      (fun db u hu => locked_changeTables db change (hu.1.onward.orderly ho)) fun _ _ _ => trivial
  | deleteUser clock =>
    obtain rfl : w' = w := hstart
    refine ⟨h, fun t hst => honward Anything (Q := fun _ _ => True) ?_⟩
    exact Meets.bind (locked_deleteUser (hst.onward.orderly h.account)) (fun _ _ _ => trivial)
      fun _ _ _ => trivial
  | restart clock =>
    obtain rfl : w' = .initial := hstart
    refine ⟨⟨h.account, fun _ hmem => (by cases hmem), fun _ hmem => (by cases hmem)⟩,
      fun t hst => honward Anything (Q := fun _ _ => True) ?_⟩
    exact Meets.bind (locked_startAccount (hst.onward.orderly h.account)) (fun _ _ _ => trivial)
      fun _ _ _ => trivial
  | operate request identity now clock =>
    obtain ⟨before, after, hsplit, rfl⟩ := hstart
    have hentry := h.admitted (request, identity) (by rw [hsplit]; simp)
    refine ⟨⟨h.account, h.admissions, fun other hother => h.admitted other ?_⟩, fun t hst => ?_⟩
    · rw [hsplit]
      rcases List.mem_append.mp hother with hold | hold <;> simp [hold]
    · obtain ⟨hpossible, hhash⟩ := hentry.onward hst.onward identity rfl
      exact honward (fun g => g = identity.generation) (locked_perform
        (hst.onward.orderly h.account) hpossible rfl hhash)

theorem server_rules : Rules (server core sha256 userID) (fun _ _ => True) Foreign Onward
    (fun _ _ _ => True) InOrder where
  refl := .refl
  trans := foreign_trans
  others hJ h := hJ.beside h
  start hJ h := hJ.start h
  act hJ hG _ := hJ.onward hG
  finish {s w w' k r} hJ _ h := by
    cases k with
    | operate request identity now clock =>
      cases r with
      | none => obtain rfl : w' = w := h; exact hJ
      | some r =>
        cases r with
        | error e => obtain rfl : w' = w := h; exact hJ
        | ok a =>
          cases h
          exact ⟨hJ.account, hJ.admissions, hJ.admitted⟩
    | _ => obtain rfl : w' = w := h; exact hJ

theorem initial_inOrder : InOrder AccountDisk.blank Traffic.initial where
  account := by
    refine ⟨⟨fun _ h => ?_, fun _ h => ?_⟩, fun _ h => ?_, fun _ h => ?_, fun _ h => ?_⟩ <;> cases h
  admissions _ h := by cases h
  admitted _ h := by cases h

end

/-- Generation fence: between taking the lock and returning, in any run of the
server, an operation leaves a live file of any other generation than its
request's as it is, answers only from the live file of that generation, from the
receipt of its own credential, or with an error; and the request reaches only
its own streams. -/
theorem requests_are_fenced {core : Core} {sha256 : Sha256} {userID : String} {s₀ : AccountDisk}
    {w₀ w₁ : Traffic} {request : Request} {identity : Principal} {now : Time} {clock : WallClock}
    {c : ServerConfig}
    (hrun : Runs (server core sha256 userID) (fun _ _ => True) ServerConfig.initial ⟨s₀, w₀, none⟩)
    (hstart : (server core sha256 userID).start (.operate request identity now clock) w₀ w₁)
    (hheld : Runs (server core sha256 userID) (fun _ c' => c'.current.isSome)
      ⟨s₀, w₁, some (.operate request identity now clock,
        (server core sha256 userID).body (.operate request identity now clock))⟩ c) :
    (∀ u n, c.current = some (.operate request identity now clock, .act u n) →
      Moves (fun g => g = identity.generation) c.shared (u c.shared)) ∧
    (∀ r, c.current = some (.operate request identity now clock, .ret r) →
      OperationOutcome core sha256 request.operation identity now s₀ r) ∧
    ∀ w w', HubStep userID identity w w' →
      OnlyScope ⟨userID, identity.generation⟩ w.hub w'.hub := by
  have hinitial : Holds Foreign Onward (fun _ _ _ => True) InOrder ServerConfig.initial :=
    .idle initial_inOrder
  have hJ : InOrder s₀ w₀ := (server_rules.runs hinitial hrun).inv
  obtain ⟨before, after, hsplit, -⟩ := id hstart
  have hentry := hJ.admitted (request, identity) (by rw [hsplit]; simp)
  have hsafe : Safe Foreign (Moves fun g => g = identity.generation)
      (fun r _ => OperationOutcome core sha256 request.operation identity now s₀ r)
      ((server core sha256 userID).body (.operate request identity now clock)) s₀ := by
    intro t hst
    obtain ⟨hpossible, hhash⟩ := hentry.onward hst.onward identity rfl
    exact Meets.imp (locked_perform (hst.onward.orderly hJ.account) hpossible rfl hhash)
      fun r _ hr => hr.origin hst
  have hholds : Holds Foreign Onward (fun _ _ _ => True) InOrder
      (⟨s₀, w₁, some (.operate request identity now clock,
        (server core sha256 userID).body (.operate request identity now clock))⟩ : ServerConfig) :=
    server_rules.step (.idle hJ) (.start hstart) trivial
  obtain ⟨-, p, hcur, hp⟩ := server_rules.during hholds hsafe
    (hheld.mono fun _ _ h => ⟨trivial, h⟩)
  refine ⟨fun u n h => ?_, fun r h => ?_, fun w w' h => ?_⟩
  · rw [hcur] at h
    cases h
    exact (hp.act Foreign.refl).1
  · rw [hcur] at h
    cases h
    exact hp.ret Foreign.refl
  · cases h with
    | subscribe _ _ =>
      exact HubCall.onlyScope (.subscribe identity.sessionID identity.deviceID) _ _ w.hub
    | @unsubscribe id _ _ _ => exact HubCall.onlyScope (.unsubscribe id) _ _ w.hub
    | @call call _ _ _ => exact call.onlyScope _ _ w.hub

/-! ## Runs of two generations -/

section
variable {core : Core} {sha256 : Sha256} {userID : String}

section
variable {M : Machine AccountDisk Traffic LockedCall (Except StoreError Answer)}
  (hM : M.others = Beside userID)
include hM

/-- Without interference an admission runs to its end. -/
theorem runs_admission (request : Request) (p : Prog AccountDisk (Except StoreError Principal))
    (s : AccountDisk) (w : Traffic) :
    Runs M (fun _ _ => True)
      ⟨s, { w with admissions := (request, p) :: w.admissions }, none⟩
      ⟨(p.run s).2, { w with admissions := (request, .ret (p.run s).1) :: w.admissions }, none⟩ := by
  induction p generalizing s with
  | ret r => exact .refl
  | act u n ih =>
    refine .head ⟨.other ?_, trivial⟩ (ih s (u s))
    rw [hM]
    exact @Beside.act userID s _ request u n [] w.admissions rfl

theorem runs_admitted {request : Request} {s t : AccountDisk} {w : Traffic} {identity : Principal}
    (h : (request.identify userID).exec s = (.ok identity, t)) :
    Runs M (fun _ _ => True) ⟨s, w, none⟩
      ⟨t, { w with admitted := (request, identity) :: w.admitted }, none⟩ := by
  have hrun := runs_admission hM request (ExceptT.run (request.identify userID)) s w
  have hresult : Prog.run (ExceptT.run (request.identify userID)) s = (.ok identity, t) := h
  rw [hresult] at hrun
  refine .head ⟨.other ?_, trivial⟩ (.tail hrun ⟨.other ?_, trivial⟩)
  · rw [hM]
    exact .arrive request
  · rw [hM]
    exact @Beside.admitted userID t _ request identity [] w.admissions rfl

end

theorem runs_call {call : LockedCall} {s : AccountDisk} {w w₁ w₂ : Traffic}
    {r : Except StoreError Answer × AccountDisk} (h : (call.body core sha256).exec s = r)
    (hstart : call.start w w₁) (hfinish : call.finish (some r.1) w₁ w₂) :
    Runs (server core sha256 userID) (fun _ _ => True) ⟨s, w, none⟩ ⟨r.2, w₂, none⟩ :=
  Runs.call (M := server core sha256 userID) h hstart hfinish trivial (fun _ _ _ _ => trivial) trivial

end

/-- A native session with its access token. -/
def signedIn : UserTables :=
  { UserTables.initial with
    profile := some ⟨"user", "issuer", "subject", "mail", "name", ""⟩
    authSessions := [⟨"session", .native, none, "ios", none, 0, 10, none, none⟩]
    authTokens := [⟨1, "session", .access, 0, 10, none, none⟩] }

def signIn : LockedCall := .signIn (fun _ => signedIn) firstClock

/-- After the first sign-in. -/
def signedInDisk : AccountDisk :=
  { firstCreated with
    file := some { firstFile with tables := signedIn }
    wal := false
    shm := false }

/-- A request of the session, at the epoch. -/
def sessionRequest (operation : Operation) : Request where
  operation
  credential := ⟨1, .bearer⟩
  removed := .initial
  now := ⟨0, 0⟩

def sessionPrincipal : Principal where
  userID := "user"
  profile := ⟨"user", "issuer", "subject", "mail", "name", ""⟩
  sessionID := "session"
  deviceID := ""
  method := .bearer
  csrfHash := none
  generation := 1
  credential := ⟨1, .bearer⟩

/-- After the sign-in that follows the deletion of the first account. -/
def signedInAgain : AccountDisk :=
  { secondCreated with
    file := some { secondFile with tables := signedIn }
    wal := false
    shm := false }

/-- Traffic with one admitted request of the first account. -/
def oneAdmitted (operation : Operation) : Traffic :=
  { Traffic.initial with admitted := [(sessionRequest operation, sessionPrincipal)] }

theorem runs_signedIn (core : Core) (sha256 : Sha256) (operation : Operation)
    (h : ((sessionRequest operation).identify "user").exec signedInDisk =
      (.ok sessionPrincipal, signedInDisk)) :
    Runs (server core sha256 "user") (fun _ _ => True) ServerConfig.initial
      ⟨signedInDisk, oneAdmitted operation, none⟩ := by
  have hsignIn : (signIn.body core sha256).exec .blank = (.ok .done, signedInDisk) := rfl
  exact (runs_call hsignIn rfl rfl).trans (runs_admitted rfl h)

/-- An operation of the first session. -/
def sessionCall (operation : Operation) (identity : Principal) : LockedCall :=
  .operate (sessionRequest operation) identity ⟨0, 0⟩ firstClock

def noHash : Sha256 := fun _ => 0

/-- The server of the examples. -/
abbrev exampleServer : Machine AccountDisk Traffic LockedCall (Except StoreError Answer) :=
  server absentTimerCore noHash "user"

/-- The first session is revoked. -/
theorem revocation_is_fenced :
    OperationOutcome absentTimerCore noHash .revokeSession sessionPrincipal ⟨0, 0⟩ signedInDisk
      (.ok .done) := by
  have hheld : Runs exampleServer (fun _ c' => c'.current.isSome)
      ⟨signedInDisk, .initial, some (sessionCall .revokeSession sessionPrincipal,
        exampleServer.body (sessionCall .revokeSession sessionPrincipal))⟩
      ⟨_, .initial, some (sessionCall .revokeSession sessionPrincipal, .ret _)⟩ :=
    Runs.rest (fun _ _ _ _ => rfl) _ _
  exact (requests_are_fenced (runs_signedIn absentTimerCore noHash .revokeSession rfl)
    ⟨[], [], rfl, rfl⟩ hheld).2.1 _ rfl

/-! ## What a request may do beyond its generation -/

/-- The second deletion, stopped once its tombstone stands. -/
def interruptedDisk : AccountDisk :=
  { signedInAgain with deletionRecord := some ⟨1, 2, 1⟩ }

/-- The second account, after a receipted deletion of the first. -/
def receiptedAgain : AccountDisk :=
  { signedInAgain with receipts := [(⟨1, .bearer⟩, ⟨1, 1, none⟩)] }

theorem runs_interrupted :
    Runs exampleServer (fun _ _ => True) ServerConfig.initial
      ⟨interruptedDisk, oneAdmitted .bootstrap, none⟩ := by
  have hdelete : ((LockedCall.deleteUser firstClock).body absentTimerCore noHash).exec signedInDisk =
      (.ok .done, firstDeleted) := rfl
  have hsignIn : (signIn.body absentTimerCore noHash).exec firstDeleted =
      (.ok .done, signedInAgain) := rfl
  have hstart : Step exampleServer ⟨signedInAgain, oneAdmitted .bootstrap, none⟩
      ⟨signedInAgain, oneAdmitted .bootstrap, some (.deleteUser firstClock,
        exampleServer.body (.deleteUser firstClock))⟩ := .start rfl
  have hafter : Runs exampleServer (fun _ _ => True) ⟨signedInAgain, oneAdmitted .bootstrap,
      some (.deleteUser firstClock, exampleServer.body (.deleteUser firstClock))⟩ _ :=
    Runs.after (fun _ _ _ _ => trivial) 17 _ _
  have hcreated : Runs exampleServer (fun _ _ => True) ⟨signedInDisk, oneAdmitted .bootstrap, none⟩
      ⟨signedInAgain, oneAdmitted .bootstrap, none⟩ :=
    (runs_call hdelete rfl rfl).trans (runs_call hsignIn rfl rfl)
  refine ((runs_signedIn absentTimerCore noHash .bootstrap rfl).trans hcreated).trans ?_
  exact (Runs.single hstart trivial).trans (.tail hafter ⟨.abandon rfl, trivial⟩)

/-- The traffic of a deletion retried with the receipt of the first. -/
def deletionRetried : Traffic :=
  { Traffic.initial with
    admitted := [(sessionRequest .deleteAccount,
      receiptPrincipal "user" ⟨1, .bearer⟩ ⟨1, 1, none⟩)]
    pending := [(sessionPrincipal, .disconnect)] }

theorem runs_retried :
    Runs exampleServer (fun _ _ => True) ServerConfig.initial
      ⟨receiptedAgain, deletionRetried, none⟩ := by
  have hdelete : ((sessionCall .deleteAccount sessionPrincipal).body absentTimerCore noHash).exec
      signedInDisk = (.ok .done, { firstDeleted with receipts := receiptedAgain.receipts }) := rfl
  have hsignIn : (signIn.body absentTimerCore noHash).exec
      { firstDeleted with receipts := receiptedAgain.receipts } = (.ok .done, receiptedAgain) := rfl
  have hretry : ((sessionRequest .deleteAccount).identify "user").exec receiptedAgain =
      (.ok (receiptPrincipal "user" ⟨1, .bearer⟩ ⟨1, 1, none⟩), receiptedAgain) := rfl
  have hpending : Runs exampleServer (fun _ _ => True)
      ⟨signedInDisk, oneAdmitted .deleteAccount, none⟩
      ⟨receiptedAgain, { Traffic.initial with pending := [(sessionPrincipal, .disconnect)] }, none⟩ :=
    (runs_call hdelete ⟨[], [], rfl, rfl⟩ rfl).trans (runs_call hsignIn rfl rfl)
  exact ((runs_signedIn absentTimerCore noHash .deleteAccount rfl).trans hpending).trans
    (runs_admitted rfl hretry)

/-- A file of another generation may go, and a deletion may be confirmed: an
open clears away what the ledger calls deleted, and a receipt confirms its
deletion whatever account there is now. -/
theorem requests_not_isolated :
    (¬ ∀ (s₀ : AccountDisk) (w₀ w₁ : Traffic) (request : Request) (identity : Principal) (now : Time)
      (clock : WallClock) (c : ServerConfig) u n (file : DatabaseFile),
      Runs exampleServer (fun _ _ => True) ServerConfig.initial ⟨s₀, w₀, none⟩ →
      exampleServer.start (.operate request identity now clock) w₀ w₁ →
      Runs exampleServer (fun _ c' => c'.current.isSome) ⟨s₀, w₁,
        some (.operate request identity now clock,
          exampleServer.body (.operate request identity now clock))⟩ c →
      c.current = some (.operate request identity now clock, .act u n) →
      c.shared.file = some file → storedGeneration file ≠ identity.generation →
      ∃ file', (u c.shared).file = some file' ∧ OpenedAs file file') ∧
    ¬ ∀ (s₀ : AccountDisk) (w₀ w₁ : Traffic) (request : Request) (identity : Principal) (now : Time)
      (clock : WallClock) (c : ServerConfig) r (file : DatabaseFile),
      Runs exampleServer (fun _ _ => True) ServerConfig.initial ⟨s₀, w₀, none⟩ →
      exampleServer.start (.operate request identity now clock) w₀ w₁ →
      Runs exampleServer (fun _ c' => c'.current.isSome) ⟨s₀, w₁,
        some (.operate request identity now clock,
          exampleServer.body (.operate request identity now clock))⟩ c →
      c.current = some (.operate request identity now clock, .ret r) →
      s₀.file = some file → storedGeneration file ≠ identity.generation →
      ∃ e, r = .error e ∧ Refused e := by
  refine ⟨fun hall => ?_, fun hall => ?_⟩
  · let call := sessionCall .bootstrap sessionPrincipal
    have hheld : Runs exampleServer (fun _ c' => c'.current.isSome)
        ⟨interruptedDisk, .initial, some (call, exampleServer.body call)⟩ _ :=
      Runs.after (fun _ _ _ _ => rfl) 11 _ _
    obtain ⟨file', hfile', -⟩ := hall _ _ _ _ _ _ _ _ _ _ { secondFile with tables := signedIn }
      runs_interrupted ⟨[], [], rfl, rfl⟩ hheld rfl rfl (by decide)
    cases hfile'
  · let identity := receiptPrincipal "user" ⟨1, .bearer⟩ ⟨1, 1, none⟩
    let call := sessionCall .deleteAccount identity
    have hheld : Runs exampleServer (fun _ c' => c'.current.isSome)
        ⟨receiptedAgain, { deletionRetried with admitted := [] }, some (call, exampleServer.body call)⟩
        ⟨_, _, some (call, .ret _)⟩ :=
      Runs.rest (fun _ _ _ _ => rfl) _ _
    obtain ⟨e, h, -⟩ := hall _ _ _ _ _ _ _ _ _ { secondFile with tables := signedIn }
      runs_retried ⟨[], [], rfl, rfl⟩ hheld rfl rfl (by decide)
    cases h

end Pomodorough.Server.RequestFence
