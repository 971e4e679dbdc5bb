import Pomodorough.Library.Serialized
import Pomodorough.Store.SessionFamilies

/-! # Native challenges

`auth.go`: a native sign-in spends a challenge of the registry. What it spent is
recorded in the database of its account, and in memory until the challenge
expires. The registry's lock orders the consumptions of all users, each with the
time it read before it waited for the lock; accounts come and go beside it. -/
namespace Pomodorough.Store.NativeChallenges
open Pomodorough.Library.AtomicSteps Pomodorough.Library.Fallible Pomodorough.Library.Serialized
open Pomodorough.Store.Records Pomodorough.Store.SharedCoreValidation
open Pomodorough.Store.SessionFamilies

/-! ## The registry and the accounts -/

/-- A row of `native_auth_challenges`. -/
structure NativeChallenge where
  digest : Hash
  domain : String
  issuedAtMs : Int
  expiresAtMs : Int
  processEpoch : Nat
  deriving DecidableEq, Repr

/-- A row of `native_challenge_consumptions`. -/
structure NativeChallengeReceipt where
  digest : Hash
  domain : String
  issuedAtMs : Int
  expiresAtMs : Int
  consumedAtMs : Int
  deriving DecidableEq, Repr

/-- An account's database; before the first native sign-in it has no receipts
table. -/
structure Account where
  tables : UserTables
  receipts : List NativeChallengeReceipt

structure NativeChallengeConsumption where
  digest : Hash
  domain : String
  now : Time
  profile : Profile
  session : Session
  tokens : List TokenRecord

structure NativeChallengeIssuance where
  issuedAtMs : Int
  expiresAtMs : Int
  deriving DecidableEq, Repr

/-- A session that a consumption has committed: history. `deleted` says that its
account is gone, and `outlived` that a consumption has looked at what was spent
at the expiry of its challenge or later. -/
structure Creation where
  digest : Hash
  userID : String
  sessionID : String
  expiresAtMs : Int
  processEpoch : Nat
  deleted : Bool
  outlived : Bool
  deriving DecidableEq, Repr

/-- `spent` is `nativeChallengeSpent.expiresAt`, and `epoch` the random epoch of
the process, a new one after every restart. -/
structure System where
  registry : List NativeChallenge
  epoch : Nat
  spent : Hash → Option Int
  accounts : List (String × Account)
  created : List Creation

def System.initial : System where
  registry := []
  epoch := 0
  spent := fun _ => none
  accounts := []
  created := []

def putAccount (accounts : List (String × Account)) (userID : String) (account : Account) :
    List (String × Account) :=
  (userID, account) :: accounts.filter fun entry => entry.1 ≠ userID

def dropAccount (accounts : List (String × Account)) (userID : String) :
    List (String × Account) :=
  accounts.filter fun entry => entry.1 ≠ userID

/-! ## Consumption -/

abbrev RegistryOp := Op System StoreError

def loadNativeChallengeIssuance (s : System) (consumption : NativeChallengeConsumption) :
    Fallible NativeChallengeIssuance :=
  let nowMs := consumption.now.unixMilli
  match s.registry.find? fun row => row.digest = consumption.digest &&
      row.domain = consumption.domain && row.processEpoch = s.epoch &&
      row.issuedAtMs ≤ nowMs && nowMs < row.expiresAtMs with
  | some row => .ok ⟨row.issuedAtMs, row.expiresAtMs⟩
  | none => .error .unauthorized

/-- Expired entries are dropped first. -/
def pruneSpent (spent : Hash → Option Int) (nowMs : Int) : Hash → Option Int := fun digest =>
  (spent digest).filter fun expiresAt => nowMs < expiresAt

def nativeChallengeWasSpent (s : System) (digest : Hash) (now : Time) : Bool × System :=
  let nowMs := now.unixMilli
  let spent := pruneSpent s.spent nowMs
  ((spent digest).any fun expiresAt => nowMs < expiresAt,
    { s with
      spent
      created := s.created.map fun creation =>
        { creation with outlived := creation.outlived || creation.expiresAtMs ≤ nowMs } })

def nativeChallengeConsumedInDatabase (account : Account) (digest : Hash) : Bool :=
  account.receipts.any fun receipt => receipt.digest = digest

/-- `mode=ro`: an account that is gone cannot be read. -/
def nativeChallengeConsumedByUser (userID : String) (digest : Hash) : RegistryOp Bool :=
  .tryRead fun s => match s.accounts.lookup userID with
    | some account => .ok (nativeChallengeConsumedInDatabase account digest)
    | none => .error (fail "read native challenge account receipt")

def nativeChallengeConsumedByUsers (digest : Hash) : List String → RegistryOp Bool
  | [] => pure false
  | userID :: userIDs => do
    let consumed ← nativeChallengeConsumedByUser userID digest
    if consumed then pure true else nativeChallengeConsumedByUsers digest userIDs

def nativeChallengeConsumed (targetUserID : String) (digest : Hash) : RegistryOp Bool := do
  let consumed ← nativeChallengeConsumedByUser targetUserID digest
  if consumed then pure true
  else
    let userIDs ← .read fun s => s.accounts.map Prod.fst
    nativeChallengeConsumedByUsers digest (userIDs.filter fun userID => userID ≠ targetUserID)

def writeNativeChallengeAccount (account : Account) (consumption : NativeChallengeConsumption)
    (issuance : NativeChallengeIssuance) : Fallible Account :=
  if account.receipts.any fun receipt => receipt.digest = consumption.digest then
    .error (fail "record native challenge consumption")
  else do
    let tables ← insertSession (upsertProfile account.tables consumption.profile)
      consumption.session consumption.tokens
    pure {
      tables
      receipts := account.receipts ++ [⟨consumption.digest, consumption.domain,
        issuance.issuedAtMs, issuance.expiresAtMs, consumption.now.unixMilli⟩] }

/-- The transaction of the account, and `rememberNativeChallengeSpent` after it:
nothing reads `spent` before the registry is unlocked. -/
def commitNativeChallengeAccount (s : System) (consumption : NativeChallengeConsumption)
    (issuance : NativeChallengeIssuance) : Fallible Unit × System :=
  match s.accounts.lookup consumption.profile.id with
  | none => (.error (fail "begin native challenge account commit"), s)
  | some account =>
    match writeNativeChallengeAccount account consumption issuance with
    | .error e => (.error e, s)
    | .ok account => (.ok (), { s with
        accounts := putAccount s.accounts consumption.profile.id account
        spent := Function.update s.spent consumption.digest (some issuance.expiresAtMs)
        created := {
          digest := consumption.digest
          userID := consumption.profile.id
          sessionID := consumption.session.id
          expiresAtMs := issuance.expiresAtMs
          processEpoch := s.epoch
          deleted := false
          outlived := false } :: s.created })

def consumeNativeChallengeAndCreateSession (consumption : NativeChallengeConsumption) :
    RegistryOp Unit := do
  let issuance ← .tryRead fun s => loadNativeChallengeIssuance s consumption
  let spent ← .step fun s => nativeChallengeWasSpent s consumption.digest consumption.now
  Op.require (!spent) .unauthorized
  let consumed ← nativeChallengeConsumed consumption.profile.id consumption.digest
  Op.require (!consumed) .unauthorized
  .tryStep fun s => commitNativeChallengeAccount s consumption issuance

/-- `CreateNativeChallenge`: expired challenges make room. -/
def createNativeChallenge (s : System) (digest : Hash) (domain : String)
    (issuedAt expiresAt : Time) : Fallible Unit × System :=
  if domain = "" || !(issuedAt.unixNano < expiresAt.unixNano) then
    (.error (fail "invalid native challenge record"), s)
  else
    let registry := s.registry.filter fun row => issuedAt.unixMilli < row.expiresAtMs
    -- the checks of the table and its primary key
    if 128 < domain.length || !(issuedAt.unixMilli < expiresAt.unixMilli) ||
        registry.any fun row => row.digest = digest then
      (.error (fail "persist native challenge"), s)
    else (.ok (), { s with
      registry := registry ++
        [⟨digest, domain, issuedAt.unixMilli, expiresAt.unixMilli, s.epoch⟩] })

/-! ## The server -/

/-- The requests that wait for the registry, the users whose account is locked,
and the digests drawn so far. -/
structure Waiting where
  consumptions : List NativeChallengeConsumption
  locked : List String
  drawn : List Hash

/-- What happens without the registry's lock; whoever deletes or writes an
account holds the account's own. -/
inductive Beside : System × Waiting → System × Waiting → Prop where
  /-- The account is locked and opened, and the time is read. -/
  | arrive {s : System} {w : Waiting} (consumption : NativeChallengeConsumption)
      (hfree : consumption.profile.id ∉ w.locked) (account : Account)
      (hopen : s.accounts.lookup consumption.profile.id = some account ∨
        s.accounts.lookup consumption.profile.id = none ∧ account.receipts = []) :
      Beside (s, w) ({ s with accounts := putAccount s.accounts consumption.profile.id account },
        { w with
          consumptions := consumption :: w.consumptions
          locked := consumption.profile.id :: w.locked })
  | giveUp {s : System} {w : Waiting} {consumption before after}
      (h : w.consumptions = before ++ consumption :: after) :
      Beside (s, w) (s, { w with
        consumptions := before ++ after
        locked := w.locked.erase consumption.profile.id })
  /-- Any other request on an account, the first one included. -/
  | write {s : System} {w : Waiting} (userID : String) (hfree : userID ∉ w.locked)
      (account : Account)
      (hreceipts : account.receipts =
        ((s.accounts.lookup userID).map Account.receipts).getD []) :
      Beside (s, w) ({ s with accounts := putAccount s.accounts userID account }, w)
  | delete {s : System} {w : Waiting} (userID : String) (hfree : userID ∉ w.locked) :
      Beside (s, w) ({ s with
        accounts := dropAccount s.accounts userID
        created := s.created.map fun creation =>
          { creation with deleted := creation.deleted || creation.userID = userID } }, w)

/-- The calls that hold the registry's lock; a restart comes when nobody does. -/
inductive RegistryCall where
  | create (digest : Hash) (domain : String) (issuedAt expiresAt : Time)
  | consume (consumption : NativeChallengeConsumption)
  | restart

def RegistryCall.body : RegistryCall → RegistryOp Unit
  | .create digest domain issuedAt expiresAt =>
    .tryStep fun s => createNativeChallenge s digest domain issuedAt expiresAt
  | .consume consumption => consumeNativeChallengeAndCreateSession consumption
  | .restart => .modify fun s => { s with epoch := s.epoch + 1, spent := fun _ => none }

/-- A digest is the hash of a fresh random challenge. -/
def RegistryCall.start : RegistryCall → Waiting → Waiting → Prop
  | .create digest _ _ _, w, w' => digest ∉ w.drawn ∧ w' = { w with drawn := digest :: w.drawn }
  | .consume consumption, w, w' => ∃ before after,
    w.consumptions = before ++ consumption :: after ∧
      w' = { w with consumptions := before ++ after }
  | .restart, w, w' => w' = { w with consumptions := [], locked := [] }

def RegistryCall.finish : RegistryCall → Waiting → Waiting → Prop
  | .consume consumption, w, w' => w' = { w with locked := w.locked.erase consumption.profile.id }
  | _, w, w' => w' = w

/-- The challenges of one server. -/
def challengeServer : Machine System Waiting RegistryCall (Except StoreError Unit) where
  body call := ExceptT.run call.body
  others := Beside
  start := RegistryCall.start
  finish call _ := call.finish

abbrev ChallengeConfig := Config System Waiting RegistryCall (Except StoreError Unit)

def ChallengeConfig.initial : ChallengeConfig := ⟨.initial, ⟨[], [], []⟩, none⟩

/-- The registry has the challenge, and it had not expired at the consumption's
time. -/
def Unexpired (s : System) (consumption : NativeChallengeConsumption) : Prop :=
  ∃ row ∈ s.registry, row.digest = consumption.digest ∧ row.domain = consumption.domain ∧
    row.processEpoch = s.epoch ∧ row.issuedAtMs ≤ consumption.now.unixMilli ∧
    consumption.now.unixMilli < row.expiresAtMs

/-- No session of an unexpired challenge has lost both its account and its mark
while a consumption of the challenge goes on. -/
def InOrder (c _ : ChallengeConfig) : Prop :=
  ∀ consumption u n, c.current = some (.consume consumption, .act u n) →
    Unexpired c.shared consumption →
    ∀ creation ∈ c.shared.created, creation.digest = consumption.digest →
      ¬ (creation.deleted = true ∧ creation.outlived = true)

end Pomodorough.Store.NativeChallenges
