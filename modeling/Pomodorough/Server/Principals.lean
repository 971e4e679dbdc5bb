import Pomodorough.Store.Sessions
import Pomodorough.Store.Orderly

/-! # Who a request is

`server.go` and `account_deletion.go`: a request opens the account without its
lock, authenticates its credential there, and carries what it found as its
principal. A deletion is answered for a committed receipt first. -/
namespace Pomodorough.Server.Principals
open Pomodorough.Library.AtomicSteps
open Pomodorough.Store.Records Pomodorough.Store.DeletionLedger Pomodorough.Store.Accounts
open Pomodorough.Store.LedgerSpec Pomodorough.Store.Sessions Pomodorough.Store.Orderly

/-- `principal`. -/
structure Principal where
  userID : String
  profile : Profile
  sessionID : String
  deviceID : String
  method : CredentialMethod
  csrfHash : Option Hash
  generation : Nat
  credential : DeletionCredential
  deriving DecidableEq, Repr

def expectedKind : CredentialMethod → TokenKind
  | .bearer => .access
  | .cookie => .web

/-- What a handle reads: the file while the path still names it. Of a file that
was removed meanwhile it reads the tables that file had last. -/
def contents (disk : AccountDisk) (db : DatabaseFile) (removed : UserTables) : DatabaseFile :=
  match disk.file with
  | some file => if file.inode = db.inode then file else { db with tables := removed }
  | none => { db with tables := removed }

def authenticateCredential (userID : String) (credential : DeletionCredential)
    (removed : UserTables) (now : Time) : DiskOp Principal := do
  let db ← openExistingUser
  let file ← Op.read fun disk => contents disk db removed
  closeDatabase db
  let info ← Op.lift (authenticate file credential.tokenHash (expectedKind credential.method) now)
  Op.require (info.profile.id = userID) .unauthorized
  pure {
    userID
    profile := info.profile
    sessionID := info.sessionID
    deviceID := info.deviceID
    method := credential.method
    csrfHash := info.csrfHash
    generation := info.generation
    credential }

def emptyProfile : Profile := ⟨"", "", "", "", "", ""⟩

/-- The principal of a committed receipt. -/
def receiptPrincipal (userID : String) (credential : DeletionCredential)
    (receipt : DeletionReceipt) : Principal where
  userID
  profile := emptyProfile
  sessionID := ""
  deviceID := ""
  method := credential.method
  csrfHash := receipt.csrfHash
  generation := receipt.generation
  credential

/-- `requireAccountDeletion`, up to the check of the CSRF proof. -/
def requireAccountDeletion (userID : String) (credential : DeletionCredential)
    (removed : UserTables) (now : Time) : DiskOp Principal := do
  let receipt ← committedDeletionReceipt credential
  match receipt with
  | none => authenticateCredential userID credential removed now
  | some receipt => pure (receiptPrincipal userID credential receipt)

/-- The headers a browser proves its session with. -/
structure CSRFHeaders where
  origin : String
  cookie : Option String
  token : String
  deriving DecidableEq, Repr

def validCSRF (publicURL : String) (hashString : String → Hash) (headers : CSRFHeaders)
    (identity : Principal) : Bool :=
  headers.origin = publicURL && headers.cookie.any (fun value => value ≠ "" && headers.token = value) &&
    identity.csrfHash = some (hashString headers.token)

/-! ## The generation of a principal -/

section
variable {userID : String} {credential : DeletionCredential} {removed : UserTables} {now : Time}
  {s t : AccountDisk}

/-- The account could have this generation. -/
def Possible (s : AccountDisk) (identity : Principal) : Prop :=
  1 ≤ identity.generation ∧ identity.generation ≤ tombstone s + 1

theorem Possible.onward {identity : Principal} (h : Possible s identity) (hst : Onward s t) :
    Possible t identity := by
  have hmono := hst.tombstone
  exact ⟨h.1, h.2.trans (by omega)⟩

theorem unlocked_authenticateCredential (ho : OrderlyAccount s) :
    Meets Onward Foreign (fun r t => ∀ identity, r = .ok identity →
      Possible t identity ∧ identity.credential = credential)
      (authenticateCredential userID credential removed now) s := by
  refine Meets.bind (unlocked_openExistingUser ho) (fun db t ht => ?_)
    fun _ _ _ _ h => by cases h
  obtain ⟨hst, hgenerations⟩ := ht
  obtain ⟨generation, hgen, hpos, hle⟩ := hgenerations db rfl
  have ho' := hst.orderly ho
  have hread : ∀ g, (contents t db removed).generation = some g → 1 ≤ g ∧ g ≤ tombstone t + 1 := by
    intro g hg
    unfold contents at hg
    have hdb : db.generation = some g → 1 ≤ g ∧ g ≤ tombstone t + 1 := by
      intro h
      rw [hgen] at h
      cases h
      exact ⟨hpos, hle⟩
    split at hg
    · rename_i file hfile
      split at hg
      · obtain ⟨hvalid, hbound⟩ := (ho'.file file hfile).generation g hg
        exact ⟨(validGeneration_iff.mp hvalid).1, hbound⟩
      · exact hdb hg
    · exact hdb hg
  refine ⟨.refl t, fun u htu => ?_⟩
  refine Meets.bind (peeks_closeDatabase onward_trans onward_of_peek db).unlocked
    (fun _ v ⟨huv, _⟩ => ?_) fun e v h => by cases h.2
  rw [meets_bind, meets_lift]
  cases hinfo : authenticate (contents t db removed) credential.tokenHash
      (expectedKind credential.method) now with
  | error e => exact fun _ h => by cases h
  | ok info =>
    dsimp only
    rw [meets_bind, meets_require]
    split
    case isFalse => exact fun _ h => by cases h
    case isTrue =>
    intro identity h
    cases h
    obtain ⟨hpos', hle'⟩ := hread _ (authenticate_generation hinfo)
    have hmono : tombstone t ≤ tombstone v := (htu.trans huv).tombstone
    exact ⟨⟨hpos', hle'.trans (by omega)⟩, rfl⟩

theorem unlocked_requireAccountDeletion (ho : OrderlyAccount s) :
    Meets Onward Foreign (fun r t => ∀ identity, r = .ok identity →
      Possible t identity ∧ identity.credential = credential ∧ credential.tokenHash ≠ 0)
      (requireAccountDeletion userID credential removed now) s := by
  refine Meets.bind (peeks_committedDeletionReceipt Onward.refl onward_trans onward_of_peek
    (fun _ _ => id) credential ho).unlocked (fun found t ⟨hst, hfound⟩ => ?_)
    fun _ _ _ _ h => by cases h
  cases hfound with
  | none hhash =>
    exact Meets.imp (unlocked_authenticateCredential (hst.orderly ho)) fun r u hr identity h =>
      ⟨(hr identity h).1, (hr identity h).2, hhash⟩
  | @committed receipt hhash _ hvalid hle =>
    intro identity h
    cases h
    simp only [validDeletionReceipt, Bool.and_eq_true] at hvalid
    exact ⟨⟨(validGeneration_iff.mp hvalid.1.2).1, Nat.le_succ_of_le hle⟩, rfl, hhash⟩

end

end Pomodorough.Server.Principals
