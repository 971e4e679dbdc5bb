import Pomodorough.Server.OpaqueTokens
import Pomodorough.Server.Principals
import Pomodorough.Store.RefreshRotation

/-! # Standing sessions

`server.go` and `auth.go`, over every run of an account's sessions: which calls end
a session, and until when a token of it authenticates a request. -/
namespace Pomodorough.Server.StandingSessions
open Pomodorough.Library.Fallible Pomodorough.Library.Base64
open Pomodorough.Store.Records Pomodorough.Store.DeletionLedger Pomodorough.Store.Sessions
open Pomodorough.Store.SharedCoreValidation
open Pomodorough.Store
open Pomodorough.Store.SessionFamilies Pomodorough.Store.RefreshRotation
open Pomodorough.Server.OpaqueTokens
open Pomodorough.Server.Principals (expectedKind)
open Pomodorough.Store.Readiness (validateUserID)
open Relation (ReflTransGen)

/-- `authenticate` of `server.go`, where `files` are the accounts that can be opened. -/
def authenticateRequest (sha256 : Bytes → Hash) (files : String → Option DatabaseFile)
    (headers : CredentialHeaders) (now : Time) : Fallible AuthInfo :=
  match requestCredential sha256 headers with
  | none => .error .unauthorized
  | some (userID, credential) =>
    match files userID with
    | none => .error .unauthorized
    | some file => do
      let info ← authenticate file credential.tokenHash (expectedKind credential.method) now
      check (info.profile.id = userID) .unauthorized
      pure info

/-! ## What ends a session, and what extends it -/

/-- The call, once it has committed, has ended the session. -/
def ends (file : DatabaseFile) (sessionID : String) : SessionCall → Bool
  | .revokeSession id _ => sessionID = id
  | .revokeDevice deviceID _ => file.tables.authSessions.any fun session =>
      session.id = sessionID && session.deviceID = some deviceID
  | .provision _ _ _ _ => file.tables.authSessions.any fun session =>
      session.id = sessionID && session.kind = .native
  | .refresh oldHash _ _ _ => file.tables.authTokens.any fun token =>
      token.tokenHash = oldHash && (token.sessionID = sessionID && token.usedAtMs.isSome)
  | _ => false

/-- The expiry that the call gives the session. -/
def extendedTo (file : DatabaseFile) (sessionID : String) : SessionCall → Option Int
  | .refresh oldHash now _ _ =>
    if file.tables.authTokens.any fun token =>
        token.tokenHash = oldHash && (token.sessionID = sessionID && token.usedAtMs.isNone) then
      some (add now refreshTokenLifetime).unixMilli
    else none
  | _ => none

/-- The profile that the call writes. -/
def writtenProfile : SessionCall → Option Profile
  | .upsertProfile profile => some profile
  | .createNativeSession profile _ _ _ _ _ _ => some profile
  | .provision profile _ _ _ => some profile
  | _ => none

/-- A call that has committed, with the database it found. -/
structure Committed where
  file : DatabaseFile
  call : SessionCall

def endedBy (sessionID : String) (steps : List Committed) : Bool :=
  steps.any fun step => ends step.file sessionID step.call

def expiryAfter (sessionID : String) (expiry : Int) (steps : List Committed) : Int :=
  steps.foldl (fun expiry step => (extendedTo step.file sessionID step.call).getD expiry) expiry

/-- A run of the calls of one account, with those that have committed. Its profile
stays the user's own. -/
inductive History (userID : String) (file : DatabaseFile) : List Committed → DatabaseFile → Prop where
  | start : History userID file [] file
  | commit {steps mid call tables reply} (h : History userID file steps mid)
      (hcommit : SessionCall.perform call mid = .ok (tables, reply))
      (hprofile : ∀ profile, writtenProfile call = some profile → profile.id = userID) :
      History userID file (steps ++ [⟨mid, call⟩]) { mid with tables }
  | aside {steps mid mid'} (h : History userID file steps mid)
      (hsessions : mid'.tables.authSessions = mid.tables.authSessions)
      (htokens : mid'.tables.authTokens = mid.tables.authTokens)
      (hprofile : mid'.tables.profile = mid.tables.profile)
      (hgeneration : mid'.generation = mid.generation) : History userID file steps mid'

/-! ## What one call does to the rows -/

/-- The row of a session after a call. -/
structure NextSession (ended : Bool) (extended : Option Int) (session session' : AuthSession) :
    Prop where
  id : session'.id = session.id
  expires : session'.expiresAtMs = extended.getD session.expiresAtMs
  revoked : session'.revokedAtMs.isSome = (session.revokedAtMs.isSome || ended)

structure NextToken (ended : Bool) (token token' : AuthToken) : Prop where
  tokenHash : token'.tokenHash = token.tokenHash
  sessionID : token'.sessionID = token.sessionID
  kind : token'.kind = token.kind
  expires : token'.expiresAtMs = token.expiresAtMs
  revoked : token'.revokedAtMs.isSome = (token.revokedAtMs.isSome || ended)

/-- Every row is still there, ended and extended as said. -/
structure Follows (ended : String → Bool) (extended : String → Option Int) (t t' : UserTables) :
    Prop where
  sessions : ∀ session ∈ t.authSessions, ∃ session' ∈ t'.authSessions,
    NextSession (ended session.id) (extended session.id) session session'
  tokens : ∀ token ∈ t.authTokens, ∃ token' ∈ t'.authTokens,
    NextToken (ended token.sessionID) token token'

/-- Rows are added only. -/
structure Kept (t t' : UserTables) : Prop where
  sessions : ∀ session ∈ t.authSessions, session ∈ t'.authSessions
  tokens : ∀ token ∈ t.authTokens, token ∈ t'.authTokens
  profile : t'.profile = t.profile

def never (_ : String) : Bool := false

def unextended (_ : String) : Option Int := none

section Rows
variable {t u t' : UserTables} {ended : String → Bool} {extended : String → Option Int}
  {session : AuthSession} {token : AuthToken}

theorem NextSession.refl (session : AuthSession) : NextSession false none session session :=
  ⟨rfl, rfl, (Bool.or_false _).symm⟩

theorem NextToken.refl (token : AuthToken) : NextToken false token token :=
  ⟨rfl, rfl, rfl, rfl, (Bool.or_false _).symm⟩

theorem Kept.refl (t : UserTables) : Kept t t := ⟨fun _ h => h, fun _ h => h, rfl⟩

theorem Kept.trans (h : Kept t u) (h' : Kept u t') : Kept t t' :=
  ⟨fun session hs => h'.sessions session (h.sessions session hs),
    fun token ht => h'.tokens token (h.tokens token ht), h'.profile.trans h.profile⟩

theorem follows_of_eq (hsessions : t'.authSessions = t.authSessions)
    (htokens : t'.authTokens = t.authTokens) : Follows never unextended t t' :=
  ⟨fun session hs => ⟨session, hsessions ▸ hs, .refl session⟩,
    fun token ht => ⟨token, htokens ▸ ht, .refl token⟩⟩

theorem Kept.follows (h : Kept t t') : Follows never unextended t t' :=
  ⟨fun session hs => ⟨session, h.sessions session hs, .refl session⟩,
    fun token ht => ⟨token, h.tokens token ht, .refl token⟩⟩

theorem NextSession.after {session session' session'' : AuthSession} {e : Bool} {x : Option Int}
    (h : NextSession false none session session') (h' : NextSession e x session' session'') :
    NextSession e x session session'' where
  id := h'.id.trans h.id
  expires := by rw [h'.expires, h.expires, Option.getD_none]
  revoked := by rw [h'.revoked, h.revoked, Bool.or_false]

theorem NextToken.after {token token' token'' : AuthToken} {e : Bool}
    (h : NextToken false token token') (h' : NextToken e token' token'') :
    NextToken e token token'' where
  tokenHash := h'.tokenHash.trans h.tokenHash
  sessionID := h'.sessionID.trans h.sessionID
  kind := h'.kind.trans h.kind
  expires := h'.expires.trans h.expires
  revoked := by rw [h'.revoked, h.revoked, Bool.or_false]

/-- What ends and extends nothing can come first. -/
theorem Follows.after (h : Follows never unextended t u) (h' : Follows ended extended u t') :
    Follows ended extended t t' := by
  refine ⟨fun session hs => ?_, fun token ht => ?_⟩
  · obtain ⟨session', hmem, hnext⟩ := h.sessions session hs
    obtain ⟨session'', hmem', hnext'⟩ := h'.sessions session' hmem
    exact ⟨session'', hmem', hnext.after (hnext.id ▸ hnext')⟩
  · obtain ⟨token', hmem, hnext⟩ := h.tokens token ht
    obtain ⟨token'', hmem', hnext'⟩ := h'.tokens token' hmem
    exact ⟨token'', hmem', hnext.after (hnext.sessionID ▸ hnext')⟩

theorem Follows.trans_kept (h : Follows ended extended t u) (h' : Kept u t') :
    Follows ended extended t t' := by
  refine ⟨fun session hs => ?_, fun token ht => ?_⟩
  · obtain ⟨session', hmem, hnext⟩ := h.sessions session hs
    exact ⟨session', h'.sessions session' hmem, hnext⟩
  · obtain ⟨token', hmem, hnext⟩ := h.tokens token ht
    exact ⟨token', h'.tokens token' hmem, hnext⟩

/-- Of the rows with a key there is only one. -/
theorem any_key {α β : Type} [DecidableEq β] {key : α → β} {rows : List α} {row : α}
    (hnodup : (rows.map key).Nodup) (hmem : row ∈ rows) (p : α → Bool) :
    (rows.any fun other => key other = key row && p other) = p row := by
  rw [Bool.eq_iff_iff, List.any_eq_true]
  constructor
  · intro h
    obtain ⟨other, hother, h⟩ := h
    simp only [Bool.and_eq_true, decide_eq_true_eq] at h
    rw [← List.inj_on_of_nodup_map hnodup hother hmem h.1]
    exact h.2
  · intro h
    exact ⟨row, hmem, by simp [h]⟩

/-- Sessions are revoked, and with them their tokens. -/
theorem follows_revoke (now : Time) {f : AuthSession → AuthSession}
    (hsessions : t'.authSessions = t.authSessions.map f)
    (htokens : t'.authTokens = (revokeTokens t ended now).authTokens)
    (hf : ∀ session ∈ t.authSessions, NextSession (ended session.id) none session (f session)) :
    Follows ended unextended t t' := by
  refine ⟨fun session hs => ⟨f session, hsessions ▸ List.mem_map_of_mem hs, hf session hs⟩,
    fun token ht => ?_⟩
  have hmem := List.mem_map_of_mem (f := fun token => if ended token.sessionID then
    { token with revokedAtMs := revokedAt token.revokedAtMs now } else token) ht
  refine ⟨_, (congrArg (_ ∈ ·) htokens).mpr hmem, ?_⟩
  cases h : ended token.sessionID with
  | false => exact .refl token
  | true => exact ⟨rfl, rfl, rfl, rfl, by simp [revokedAt]⟩

/-- The row of a session that is revoked where a condition holds. -/
theorem nextSession_ite {session session' : AuthSession} (now : Time) (c : Prop) [Decidable c]
    (hid : session'.id = session.id) (hexpires : session'.expiresAtMs = session.expiresAtMs)
    (hrevoked : session'.revokedAtMs = revokedAt session.revokedAtMs now) :
    NextSession (decide c) none session (if c then session' else session) := by
  split
  case isTrue h =>
    rw [decide_eq_true h]
    exact ⟨hid, hexpires, by simp [hrevoked, revokedAt]⟩
  case isFalse h =>
    rw [decide_eq_false h]
    exact .refl session

/-! ## Each call -/

theorem kept_insertToken {context sessionID : String} {token : TokenRecord}
    (h : insertToken context t sessionID token = .ok t') : Kept t t' := by
  unfold insertToken at h
  split at h
  case isTrue => cases h
  case isFalse =>
  cases h
  exact ⟨fun _ hs => hs, fun _ ht => List.mem_append_left _ ht, rfl⟩

theorem kept_insertTokens {context sessionID : String} {tokens : List TokenRecord}
    (h : insertTokens context sessionID t tokens = .ok t') : Kept t t' := by
  induction tokens generalizing t with
  | nil =>
    cases h
    exact .refl _
  | cons token tokens ih =>
    obtain ⟨u, hu, h⟩ := bind_ok_iff.mp h
    exact (kept_insertToken hu).trans (ih h)

theorem kept_insertSession {session : Session} {tokens : List TokenRecord}
    (h : insertSession t session tokens = .ok t') : Kept t t' := by
  obtain ⟨u, hu, h⟩ := bind_ok_iff.mp h
  have hdevice : Kept t (upsertDevice t session) := by
    unfold upsertDevice
    split
    · exact .refl t
    · split
      · exact ⟨fun _ hs => hs, fun _ ht => ht, rfl⟩
      · exact ⟨fun _ hs => hs, fun _ ht => ht, rfl⟩
  unfold insertSessionRow at hu
  split at hu
  case isTrue => cases hu
  case isFalse =>
  cases hu
  have hrow : Kept (upsertDevice t session) { upsertDevice t session with
      authSessions := (upsertDevice t session).authSessions ++ [sessionRow session] } :=
    ⟨fun _ hs => List.mem_append_left _ hs, fun _ ht => ht, rfl⟩
  exact (hdevice.trans hrow).trans (kept_insertTokens h)

theorem kept_insertSessions {sessions : List (Session × List TokenRecord)}
    (h : insertSessions t sessions = .ok t') : Kept t t' := by
  induction sessions generalizing t with
  | nil =>
    cases h
    exact .refl _
  | cons entry sessions ih =>
    obtain ⟨u, hu, h⟩ := bind_ok_iff.mp h
    exact (kept_insertSession hu).trans (ih h)

theorem follows_revokeSession {sessionID : String} {now : Time} {reply : Unit}
    (h : Sessions.revokeSession t sessionID now = .ok (t', reply)) :
    Follows (fun id => id = sessionID) unextended t t' := by
  cases h
  exact follows_revoke now rfl rfl fun session _ => nextSession_ite now _ rfl rfl rfl

theorem follows_revokeDevice (ht : (t.authSessions.map AuthSession.id).Nodup) {deviceID : String}
    {now : Time} {reply : Unit} (h : Sessions.revokeDevice t deviceID now = .ok (t', reply)) :
    Follows (fun id => t.authSessions.any fun session =>
      session.id = id && session.deviceID = some deviceID) unextended t t' := by
  cases h
  refine follows_revoke now rfl ?_ fun session hs => ?_
  · refine List.map_congr_left fun token _ => ?_
    simp only [List.any_map, Function.comp_def]
    have hsame (session : AuthSession) :
        (decide ((if session.deviceID = some deviceID then
          { session with revokedAtMs := revokedAt session.revokedAtMs now } else session).id =
            token.sessionID) &&
          decide ((if session.deviceID = some deviceID then
            { session with revokedAtMs := revokedAt session.revokedAtMs now } else session).deviceID =
              some deviceID)) =
        (decide (session.id = token.sessionID) && decide (session.deviceID = some deviceID)) := by
      split <;> rfl
    simp only [hsame]
  · rw [any_key ht hs]
    exact nextSession_ite now _ rfl rfl rfl

theorem follows_revokeNative (ht : (t.authSessions.map AuthSession.id).Nodup) (now : Time) :
    Follows (fun id => t.authSessions.any fun session =>
      session.id = id && session.kind = .native) unextended t (revokeNative t now) := by
  refine follows_revoke now rfl rfl fun session hs => ?_
  rw [any_key ht hs]
  exact nextSession_ite now _ rfl rfl rfl

theorem follows_revokeReusedRefresh (sessionID : String) (now : Time) :
    Follows (fun id => id = sessionID) unextended t (revokeReusedRefresh t sessionID now) :=
  follows_revoke now rfl rfl fun _ _ => nextSession_ite now _ rfl rfl rfl

theorem follows_useToken (oldHash : Hash) (now : Time) :
    Follows never unextended t (useToken t oldHash now) := by
  refine ⟨fun session hs => ⟨session, hs, .refl session⟩, fun token ht => ⟨_,
    List.mem_map_of_mem ht, ?_⟩⟩
  split
  · exact ⟨rfl, rfl, rfl, rfl, (Bool.or_false _).symm⟩
  · exact .refl token

theorem follows_extendSession (sessionID : String) (expiresAt : Time) :
    Follows never (fun id => if sessionID = id then some expiresAt.unixMilli else none) t
      (extendSession t sessionID expiresAt) := by
  refine ⟨fun session hs => ⟨_, List.mem_map_of_mem hs, ?_⟩, fun token ht => ⟨token, ht, .refl token⟩⟩
  split
  case isTrue h =>
    rw [if_pos h.symm]
    exact ⟨rfl, rfl, (Bool.or_false _).symm⟩
  case isFalse h =>
    rw [if_neg fun heq => h heq.symm]
    exact .refl session

end Rows

section Calls
variable {file : DatabaseFile} {call : SessionCall} {tables : UserTables} {reply : SessionReply}

/-- A rotation or a reuse, in terms of the token that is presented. -/
theorem follows_refresh (ht : Families file.tables) {oldHash accessHash refreshHash : Hash}
    {access refresh : TokenRecord} {now : Time}
    (hexpires : refresh.expiresAt = add now refreshTokenLifetime)
    (h : RotationOutcome file oldHash access refresh now tables reply) :
    Follows (fun id => ends file id (.refresh oldHash now accessHash refreshHash))
      (fun id => extendedTo file id (.refresh oldHash now accessHash refreshHash))
      file.tables tables := by
  cases h with
  | @reused stored token session hrow hkind hused =>
    obtain rfl := hrow.hash
    have hends (id : String) : ends file id (.refresh token.tokenHash now accessHash refreshHash) =
        decide (id = token.sessionID) := by
      rw [ends, any_key ht.hashes hrow.issued, hused, Bool.and_true, decide_eq_decide, eq_comm]
    have hextended (id : String) :
        extendedTo file id (.refresh token.tokenHash now accessHash refreshHash) = none := by
      have hnone : token.usedAtMs.isNone = false := by
        rw [← Option.not_isSome, hused, Bool.not_true]
      rw [extendedTo, any_key ht.hashes hrow.issued, hnone, Bool.and_false]
      rfl
    simp only [hends, hextended]
    exact follows_revokeReusedRefresh token.sessionID now
  | @rotated stored token session tables hrow hlive hsession hwrite =>
    obtain rfl := hrow.hash
    obtain ⟨u, hu, hwrite⟩ := bind_ok_iff.mp hwrite
    cases hwrite
    simp only [liveRefresh, Bool.and_eq_true] at hlive
    have hends (id : String) : ends file id (.refresh token.tokenHash now accessHash refreshHash) =
        false := by
      have hsome : token.usedAtMs.isSome = false := by
        rw [← Option.not_isNone, hlive.1.2, Bool.not_true]
      rw [ends, any_key ht.hashes hrow.issued, hsome, Bool.and_false]
    have hextended (id : String) :
        extendedTo file id (.refresh token.tokenHash now accessHash refreshHash) =
          if token.sessionID = id then some refresh.expiresAt.unixMilli else none := by
      rw [extendedTo, any_key ht.hashes hrow.issued, hlive.1.2, Bool.and_true, hexpires]
      simp only [decide_eq_true_eq]
    simp only [hends, hextended]
    exact (follows_useToken token.tokenHash now).after
      ((kept_insertTokens hu).follows.after (follows_extendSession token.sessionID refresh.expiresAt))

/-- Whatever a call commits, the rows follow what it says. -/
theorem follows_perform (ht : Families file.tables) (h : call.perform file = .ok (tables, reply)) :
    Follows (fun id => ends file id call) (fun id => extendedTo file id call) file.tables tables := by
  cases call with
  | upsertProfile profile =>
    cases h
    exact follows_of_eq rfl rfl
  | createWebSession now sessionID csrfHash sessionHash =>
    obtain ⟨t, hinsert, h⟩ := bind_ok_iff.mp h
    cases h
    exact (kept_insertSession hinsert).follows
  | createNativeSession profile deviceID platform now sessionID accessHash refreshHash =>
    obtain ⟨t, hinsert, h⟩ := bind_ok_iff.mp h
    cases h
    have hprofile : Follows never unextended file.tables
        (SessionFamilies.upsertProfile file.tables profile) := follows_of_eq rfl rfl
    exact hprofile.after (kept_insertSession hinsert).follows
  | provision profile now ttl devices =>
    obtain ⟨t, hinsert, h⟩ := bind_ok_iff.mp h
    cases h
    have hprofile : Follows never unextended file.tables
        (SessionFamilies.upsertProfile file.tables profile) := follows_of_eq rfl rfl
    have hrevoked := follows_revokeNative
      (t := SessionFamilies.upsertProfile file.tables profile) ht.ids now
    exact hprofile.after (hrevoked.trans_kept (kept_insertSessions hinsert))
  | refresh oldHash now accessHash refreshHash =>
    exact follows_refresh ht rfl (rotateRefresh_outcome h)
  | revokeSession sessionID now =>
    obtain ⟨⟨t, _⟩, hrevoke, h⟩ := bind_ok_iff.mp h
    cases h
    exact follows_revokeSession hrevoke
  | revokeDevice deviceID now =>
    obtain ⟨⟨t, _⟩, hrevoke, h⟩ := bind_ok_iff.mp h
    cases h
    exact follows_revokeDevice ht.ids hrevoke
  | updateCSRF sessionID csrfHash =>
    obtain ⟨⟨t, _⟩, hupdate, h⟩ := bind_ok_iff.mp h
    cases h
    unfold Sessions.updateCSRF at hupdate
    split at hupdate
    case isFalse => cases hupdate
    case isTrue =>
    cases hupdate
    refine ⟨fun session hs => ⟨_, List.mem_map_of_mem hs, ?_⟩,
      fun token ht => ⟨token, ht, .refl token⟩⟩
    split
    · exact ⟨rfl, rfl, (Bool.or_false _).symm⟩
    · exact .refl session

/-- The profile that the account has after a call. -/
theorem profile_perform (h : call.perform file = .ok (tables, reply)) :
    tables.profile = (writtenProfile call).or file.tables.profile := by
  cases call with
  | upsertProfile profile =>
    cases h
    rfl
  | createWebSession now sessionID csrfHash sessionHash =>
    obtain ⟨t, hinsert, h⟩ := bind_ok_iff.mp h
    cases h
    exact (kept_insertSession hinsert).profile
  | createNativeSession profile deviceID platform now sessionID accessHash refreshHash =>
    obtain ⟨t, hinsert, h⟩ := bind_ok_iff.mp h
    cases h
    exact (kept_insertSession hinsert).profile
  | provision profile now ttl devices =>
    obtain ⟨t, hinsert, h⟩ := bind_ok_iff.mp h
    cases h
    exact (kept_insertSessions hinsert).profile
  | refresh oldHash now accessHash refreshHash =>
    have houtcome := rotateRefresh_outcome h
    cases houtcome with
    | reused => rfl
    | rotated hrow hlive hsession hwrite =>
      obtain ⟨u, hu, hwrite⟩ := bind_ok_iff.mp hwrite
      cases hwrite
      exact (kept_insertTokens hu).profile
  | revokeSession sessionID now =>
    cases h
    rfl
  | revokeDevice deviceID now =>
    cases h
    rfl
  | updateCSRF sessionID csrfHash =>
    obtain ⟨⟨t, _⟩, hupdate, h⟩ := bind_ok_iff.mp h
    cases h
    unfold Sessions.updateCSRF at hupdate
    split at hupdate
    case isFalse => cases hupdate
    case isTrue =>
    cases hupdate
    rfl

end Calls

/-! ## Runs -/

section Runs
variable {userID : String} {file later : DatabaseFile} {steps : List Committed}

theorem History.run (h : History userID file steps later) (hgeneration : file.generation.isSome) :
    SessionRun file later ∧ later.generation.isSome := by
  induction h with
  | start => exact ⟨.refl, hgeneration⟩
  | commit _ hcommit _ ih => exact ⟨ih.1.tail (.commit hcommit), ih.2⟩
  | aside _ hsessions htokens _ hsame ih =>
    exact ⟨ih.1.tail (.aside hsessions htokens fun h => hsame ▸ h), hsame ▸ ih.2⟩

/-- The account belongs to the user. -/
def BelongsTo (userID : String) (file : DatabaseFile) : Prop :=
  ∃ profile, file.tables.profile = some profile ∧ profile.id = userID

theorem History.belongs (h : History userID file steps later) (hfile : BelongsTo userID file) :
    BelongsTo userID later := by
  induction h with
  | start => exact hfile
  | commit _ hcommit hprofile ih =>
    obtain ⟨profile, hsome, hid⟩ := ih
    unfold BelongsTo
    rw [profile_perform hcommit, hsome]
    cases hwritten : writtenProfile _ with
    | none => exact ⟨profile, rfl, hid⟩
    | some written => exact ⟨written, rfl, hprofile written hwritten⟩
  | aside _ _ _ hsame _ ih =>
    obtain ⟨profile, hsome, hid⟩ := ih
    exact ⟨profile, hsame.trans hsome, hid⟩

/-- A session's row after a run. -/
theorem History.session (h : History userID file steps later) (ht : Families file.tables)
    (hgeneration : file.generation.isSome) {session : AuthSession}
    (hsession : session ∈ file.tables.authSessions) :
    ∃ session' ∈ later.tables.authSessions, session'.id = session.id ∧
      session'.expiresAtMs = expiryAfter session.id session.expiresAtMs steps ∧
      session'.revokedAtMs.isSome = (session.revokedAtMs.isSome || endedBy session.id steps) := by
  induction h with
  | start => exact ⟨session, hsession, rfl, rfl, (Bool.or_false _).symm⟩
  | commit hmid hcommit _ ih =>
    obtain ⟨session', hmem, hid, hexpires, hrevoked⟩ := ih
    have hfamilies := (run_effects ht (hmid.run hgeneration).1).families ht
    obtain ⟨next, hnext, hrow⟩ := (follows_perform hfamilies hcommit).sessions session' hmem
    refine ⟨next, hnext, hrow.id.trans hid, ?_, ?_⟩
    · rw [hrow.expires, hid, hexpires, expiryAfter, expiryAfter, List.foldl_append]
      rfl
    · rw [hrow.revoked, hid, hrevoked, endedBy, endedBy, List.any_append, Bool.or_assoc]
      simp
  | aside _ hsessions _ _ _ ih =>
    rw [hsessions]
    exact ih

/-- A token's row after a run. -/
theorem History.token (h : History userID file steps later) (ht : Families file.tables)
    (hgeneration : file.generation.isSome) {token : AuthToken}
    (htoken : token ∈ file.tables.authTokens) :
    ∃ token' ∈ later.tables.authTokens,
      NextToken (endedBy token.sessionID steps) token token' := by
  induction h with
  | start => exact ⟨token, htoken, .refl token⟩
  | commit hmid hcommit _ ih =>
    obtain ⟨token', hmem, hnext⟩ := ih
    have hfamilies := (run_effects ht (hmid.run hgeneration).1).families ht
    obtain ⟨next, hnextmem, hrow⟩ := (follows_perform hfamilies hcommit).tokens token' hmem
    refine ⟨next, hnextmem, hrow.tokenHash.trans hnext.tokenHash,
      hrow.sessionID.trans hnext.sessionID, hrow.kind.trans hnext.kind,
      hrow.expires.trans hnext.expires, ?_⟩
    rw [hrow.revoked, hnext.revoked, hnext.sessionID, endedBy, endedBy, List.any_append,
      Bool.or_assoc]
    simp
  | aside _ _ htokens _ _ ih =>
    rw [htokens]
    exact ih

/-- The row that `Authenticate` finds of a token. -/
theorem authenticationRow_issued (ht : Families file.tables) {token : AuthToken}
    {session : AuthSession} {profile : Profile} {generation : Nat}
    (htoken : token ∈ file.tables.authTokens) (hsession : session ∈ file.tables.authSessions)
    (hid : session.id = token.sessionID) (hprofile : file.tables.profile = some profile)
    (hgeneration : file.generation = some generation) :
    authenticationRow file token.tokenHash = some (token, session, profile, generation) := by
  unfold authenticationRow
  rw [find_key ht.hashes htoken rfl, Option.bind_eq_bind, Option.bind_some,
    find_key ht.ids hsession hid, Option.bind_eq_bind, Option.bind_some, hprofile, hgeneration]
  rfl

/-- The text is that of a token of this session of the account. -/
structure Issued (sha256 : Bytes → Hash) (userID : String) (file : DatabaseFile) (text : Bytes)
    (token : AuthToken) (session : AuthSession) : Prop where
  issued : token ∈ file.tables.authTokens
  owned : session ∈ file.tables.authSessions
  owner : session.id = token.sessionID
  text : ∃ random : Bytes, random.length = 32 ∧
    newOpaqueToken sha256 userID random = some (text, token.tokenHash)

/-- From any state of an account on, whatever is called, a request with a token of the
account is answered for its session and its user, exactly until a call ends that
session or the token or the session expires. -/
theorem authenticates_iff {sha256 : Bytes → Hash} {files : String → Option DatabaseFile}
    {inode : Nat} {text : Bytes} {token : AuthToken} {session : AuthSession}
    {method : CredentialMethod}
    (hfile : SessionRun (newDatabase inode) file) (hbelongs : BelongsTo userID file)
    (hissued : Issued sha256 userID file text token session)
    (hkind : token.kind = expectedKind method) (h : History userID file steps later)
    (hlater : files userID = some later) (now : Time) :
    ((∃ info, authenticateRequest sha256 files (headersFor text method) now = .ok info) ↔
      session.revokedAtMs = none ∧ token.revokedAtMs = none ∧ endedBy session.id steps = false ∧
        now.unixMilli < token.expiresAtMs ∧
        now.unixMilli < expiryAfter session.id session.expiresAtMs steps) ∧
    ∀ info, authenticateRequest sha256 files (headersFor text method) now = .ok info →
      info.sessionID = session.id ∧ info.profile.id = userID := by
  obtain ⟨htoken, hsession, howner, random, hlength, htext⟩ := hissued
  have hfamilies := run_families hfile
  have hgeneration := run_numbered rfl hfile
  obtain ⟨hrun, hnumbered⟩ := h.run hgeneration
  obtain ⟨generation, hgeneration'⟩ := Option.isSome_iff_exists.mp hnumbered
  obtain ⟨profile, hprofile, hid⟩ := h.belongs hbelongs
  obtain ⟨session', hsession', hid', hexpires', hrevoked'⟩ := h.session hfamilies hgeneration hsession
  obtain ⟨token', htoken', hnext⟩ := h.token hfamilies hgeneration htoken
  have hrow := authenticationRow_issued ((run_effects hfamilies hrun).families hfamilies) htoken'
    hsession' (hid'.trans (howner.trans hnext.sessionID.symm)) hprofile hgeneration'
  rw [hnext.tokenHash] at hrow
  have hresult : authenticateRequest sha256 files (headersFor text method) now =
      if token'.kind ≠ expectedKind method || token'.revokedAtMs.isSome ||
          session'.revokedAtMs.isSome || token'.expiresAtMs ≤ now.unixMilli ||
          session'.expiresAtMs ≤ now.unixMilli then .error .unauthorized
      else .ok ⟨profile, session'.id, session'.kind, session'.deviceID.getD "", session'.csrfHash,
        generation⟩ := by
    simp only [authenticateRequest, requestCredential_issued hlength htext, hlater, authenticate,
      hrow]
    split
    · rfl
    · exact bind_ok_iff.mpr ⟨_, rfl, bind_ok_iff.mpr ⟨(), check_ok_iff.mpr hid, rfl⟩⟩
  have hrefused : (token'.kind ≠ expectedKind method || token'.revokedAtMs.isSome ||
      session'.revokedAtMs.isSome || token'.expiresAtMs ≤ now.unixMilli ||
      session'.expiresAtMs ≤ now.unixMilli) = true ↔
        ¬ (session.revokedAtMs = none ∧ token.revokedAtMs = none ∧
          endedBy session.id steps = false ∧ now.unixMilli < token.expiresAtMs ∧
          now.unixMilli < expiryAfter session.id session.expiresAtMs steps) := by
    rw [hnext.kind, hnext.expires, hnext.revoked, hexpires', hrevoked', ← howner, hkind]
    cases session.revokedAtMs <;> cases token.revokedAtMs <;> cases endedBy session.id steps <;>
      (simp; try omega)
  rw [hresult]
  split
  case isTrue hcond =>
    refine ⟨⟨fun hok => ?_, fun hstands => absurd hstands (hrefused.mp hcond)⟩, fun info hok => ?_⟩
    · obtain ⟨_, hok⟩ := hok
      cases hok
    · cases hok
  case isFalse hcond =>
    refine ⟨⟨fun _ => not_not.mp (hrefused.not.mp hcond), fun _ => ⟨_, rfl⟩⟩, fun info hok => ?_⟩
    cases hok
    exact ⟨hid', hid⟩

end Runs

def signedInUser : String := "abcdefghijklmnopqrstuvwxyz-_0123"

def signedInProfile : Profile := ⟨signedInUser, "issuer", "subject", "mail", "name", ""⟩

def signedInToken : AuthToken := ⟨1, "session", .web, 0, 2592000000, none, none⟩

def signedInSession : AuthSession := ⟨"session", .web, none, "web", some 7, 0, 2592000000, none, none⟩

def signedInSecret : Bytes := List.replicate 32 0

/-- A sign-in of a browser. -/
def signedIn : DatabaseFile :=
  afterCall (.createWebSession ⟨0, 0⟩ "session" 7 1)
    (afterCall (.upsertProfile signedInProfile) (newDatabase 0))

/-- It stands while another session is ended. -/
theorem authenticates_signedIn : ∃ info, authenticateRequest (fun _ => 1)
    (fun _ => some (afterCall (.revokeSession "other" ⟨1, 0⟩) signedIn))
    (headersFor (bytesOf signedInUser ++ dot :: encodeToString signedInSecret) .cookie) ⟨5, 0⟩ =
      .ok info := by
  have hissued : newOpaqueToken (fun _ => 1) signedInUser signedInSecret =
      some (bytesOf signedInUser ++ dot :: encodeToString signedInSecret, 1) :=
    newOpaqueToken_iff.mpr ⟨by decide, rfl, rfl⟩
  have hkind : signedInToken.kind = expectedKind .cookie := rfl
  have hstands : Issued (fun _ => 1) signedInUser signedIn _ signedInToken signedInSession :=
    ⟨by decide, by decide, rfl, signedInSecret, rfl, hissued⟩
  have hhistory : History signedInUser signedIn [⟨signedIn, .revokeSession "other" ⟨1, 0⟩⟩]
      (afterCall (.revokeSession "other" ⟨1, 0⟩) signedIn) :=
    .commit .start rfl fun _ h => by cases h
  exact (authenticates_iff ((run_afterCall _ _).trans (run_afterCall _ _)) ⟨signedInProfile, rfl, rfl⟩
    hstands hkind hhistory rfl ⟨5, 0⟩).1.mpr ⟨rfl, rfl, rfl, by decide, by decide⟩

end Pomodorough.Server.StandingSessions
