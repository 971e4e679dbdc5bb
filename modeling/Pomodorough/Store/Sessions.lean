import Pomodorough.Store.DeletionLedger
import Pomodorough.Store.SharedCoreValidation

/-! # Sessions of an account

`auth.go`, what authenticated requests read and change of an account's sessions:
the token a request presents, the CSRF proof of a session, and revocation. -/
namespace Pomodorough.Store.Sessions
open Pomodorough.Store.Records Pomodorough.Store.DeletionLedger
open Pomodorough.Store.SharedCoreValidation

structure AuthInfo where
  profile : Profile
  sessionID : String
  kind : SessionKind
  deviceID : String
  csrfHash : Option Hash
  generation : Nat
  deriving DecidableEq, Repr

/-- The row of the query of `Authenticate`: a token, its session, and the rows
of `profile` and `account_metadata`. -/
def authenticationRow (file : DatabaseFile) (tokenHash : Hash) :
    Option (AuthToken × AuthSession × Profile × Nat) := do
  let token ← file.tables.authTokens.find? fun token => token.tokenHash = tokenHash
  let session ← file.tables.authSessions.find? fun session => session.id = token.sessionID
  let profile ← file.tables.profile
  let generation ← file.generation
  pure (token, session, profile, generation)

/-- `Authenticate`. -/
def authenticate (file : DatabaseFile) (tokenHash : Hash) (expectedKind : TokenKind) (now : Time) :
    Fallible AuthInfo :=
  match authenticationRow file tokenHash with
  | none => .error .unauthorized
  | some (token, session, profile, generation) =>
    if token.kind ≠ expectedKind || token.revokedAtMs.isSome || session.revokedAtMs.isSome ||
        token.expiresAtMs ≤ now.unixMilli || session.expiresAtMs ≤ now.unixMilli then
      .error .unauthorized
    else .ok {
      profile
      sessionID := session.id
      kind := session.kind
      deviceID := session.deviceID.getD ""
      csrfHash := session.csrfHash
      generation }

/-- Whoever is authenticated by a file is of its generation. -/
theorem authenticate_generation {file : DatabaseFile} {tokenHash : Hash} {kind : TokenKind}
    {now : Time} {info : AuthInfo} (h : authenticate file tokenHash kind now = .ok info) :
    file.generation = some info.generation := by
  unfold authenticate at h
  split at h
  · cases h
  · rename_i token session profile generation hrow
    split at h
    · cases h
    · cases h
      simp only [authenticationRow, Option.bind_eq_bind, Option.bind_eq_some_iff,
        Option.pure_def, Option.some.injEq, Prod.mk.injEq] at hrow
      obtain ⟨-, -, -, -, -, -, _, hgeneration, -, -, -, rfl⟩ := hrow
      exact hgeneration

/-! ## Changes -/

/-- `COALESCE(revoked_at_ms, ?)`. -/
def revokedAt (revoked : Option Int) (now : Time) : Option Int := some (revoked.getD now.unixMilli)

/-- `UpdateCSRF`: only a session that is not revoked has its proof replaced. -/
def updateCSRF (t : UserTables) (sessionID : String) (csrfHash : Hash) :
    Fallible (UserTables × Unit) :=
  if t.authSessions.any fun session => session.id = sessionID && session.revokedAtMs.isNone then
    .ok ({ t with
      authSessions := t.authSessions.map fun session =>
        if session.id = sessionID && session.revokedAtMs.isNone then
          { session with csrfHash := some csrfHash }
        else session }, ())
  else .error .unauthorized

/-- The tokens of these sessions, revoked. -/
def revokeTokens (t : UserTables) (sessions : String → Bool) (now : Time) : UserTables :=
  { t with
    authTokens := t.authTokens.map fun token =>
      if sessions token.sessionID then { token with revokedAtMs := revokedAt token.revokedAtMs now }
      else token }

/-- `RevokeSession`: the session and its tokens. -/
def revokeSession (t : UserTables) (sessionID : String) (now : Time) :
    Fallible (UserTables × Unit) :=
  let revoked := { t with
    authSessions := t.authSessions.map fun session =>
      if session.id = sessionID then { session with revokedAtMs := revokedAt session.revokedAtMs now }
      else session }
  .ok (revokeTokens revoked (fun id => id = sessionID) now, ())

/-- `RevokeDevice`: the device, its sessions and their tokens. -/
def revokeDevice (t : UserTables) (deviceID : String) (now : Time) : Fallible (UserTables × Unit) :=
  let revoked := { t with
    devices := t.devices.map fun device =>
      if device.id = deviceID then { device with revokedAtMs := revokedAt device.revokedAtMs now }
      else device
    authSessions := t.authSessions.map fun session =>
      if session.deviceID = some deviceID then
        { session with revokedAtMs := revokedAt session.revokedAtMs now }
      else session }
  let ofDevice := fun id => revoked.authSessions.any fun session =>
    session.id = id && session.deviceID = some deviceID
  .ok (revokeTokens revoked ofDevice now, ())

end Pomodorough.Store.Sessions
