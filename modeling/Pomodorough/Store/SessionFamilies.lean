import Mathlib.Logic.Relation
import Pomodorough.Store.Sessions

/-! # Session families

`auth.go` and its callers: a session and the tokens issued for it, from the
sign-in through every rotation to the revocation of them all. Every call here is
one transaction, so any interleaving of requests is a sequence of calls. -/
namespace Pomodorough.Store.SessionFamilies
open Pomodorough.Library.Fallible
open Pomodorough.Store.Records Pomodorough.Store.DeletionLedger
open Pomodorough.Store.SharedCoreValidation Pomodorough.Store.Sessions
open Relation (ReflTransGen)

/-! ## Creating sessions -/

/-- `Session`; the empty `deviceID` is the column's NULL. -/
structure Session where
  id : String
  kind : SessionKind
  deviceID : String
  platform : String
  csrfHash : Option Hash
  createdAt : Time
  expiresAt : Time
  deriving DecidableEq, Repr

structure TokenRecord where
  hash : Hash
  kind : TokenKind
  createdAt : Time
  expiresAt : Time
  deriving DecidableEq, Repr

/-- `ON CONFLICT(singleton) DO UPDATE`. -/
def upsertProfile (t : UserTables) (profile : Profile) : UserTables := { t with profile := some profile }

/-- The device of a session, no longer revoked. -/
def upsertDevice (t : UserTables) (session : Session) : UserTables :=
  let seen := session.createdAt.unixMilli
  if session.deviceID = "" then t
  else if t.devices.any fun device => device.id = session.deviceID then
    { t with
      devices := t.devices.map fun device =>
        if device.id = session.deviceID then
          { device with platform := session.platform, lastSeenAtMs := seen, revokedAtMs := none }
        else device }
  else
    { t with devices := t.devices ++ [⟨session.deviceID, session.platform, seen, seen, none⟩] }

def sessionRow (session : Session) : AuthSession where
  id := session.id
  kind := session.kind
  deviceID := if session.deviceID = "" then none else some session.deviceID
  platform := session.platform
  csrfHash := session.csrfHash
  createdAtMs := session.createdAt.unixMilli
  expiresAtMs := session.expiresAt.unixMilli
  revokedAtMs := none
  reuseDetectedAtMs := none

def tokenRow (sessionID : String) (token : TokenRecord) : AuthToken where
  tokenHash := token.hash
  sessionID
  kind := token.kind
  createdAtMs := token.createdAt.unixMilli
  expiresAtMs := token.expiresAt.unixMilli
  usedAtMs := none
  revokedAtMs := none

def insertSessionRow (t : UserTables) (session : Session) : Fallible UserTables :=
  if t.authSessions.any fun row => row.id = session.id then .error (fail "insert session")
  else .ok { t with authSessions := t.authSessions ++ [sessionRow session] }

/-- `token_hash` is the primary key; the session's row is there already. -/
def insertToken (context : String) (t : UserTables) (sessionID : String) (token : TokenRecord) :
    Fallible UserTables :=
  if t.authTokens.any fun row => row.tokenHash = token.hash then .error (fail context)
  else .ok { t with authTokens := t.authTokens ++ [tokenRow sessionID token] }

def insertTokens (context : String) (sessionID : String) :
    UserTables → List TokenRecord → Fallible UserTables
  | t, [] => .ok t
  | t, token :: tokens => do
    let t ← insertToken context t sessionID token
    insertTokens context sessionID t tokens

def insertSession (t : UserTables) (session : Session) (tokens : List TokenRecord) :
    Fallible UserTables := do
  let t ← insertSessionRow (upsertDevice t session) session
  insertTokens "insert auth token" session.id t tokens

def insertSessions : UserTables → List (Session × List TokenRecord) → Fallible UserTables
  | t, [] => .ok t
  | t, (session, tokens) :: sessions => do
    let t ← insertSession t session tokens
    insertSessions t sessions

/-- The native sessions that a provisioning replaces. -/
def revokeNative (t : UserTables) (now : Time) : UserTables :=
  let isNative := fun id => t.authSessions.any fun session =>
    session.id = id && session.kind = .native
  { revokeTokens t isNative now with
    authSessions := t.authSessions.map fun session =>
      if session.kind = .native then
        { session with revokedAtMs := revokedAt session.revokedAtMs now }
      else session }

/-- `ProvisionProfileAndSessions`. -/
def provisionProfileAndSessions (t : UserTables) (profile : Profile) (now : Time)
    (sessions : List (Session × List TokenRecord)) : Fallible UserTables :=
  insertSessions (revokeNative (upsertProfile t profile) now) sessions

/-! ## Rotation -/

/-- `storedRefreshToken`. -/
structure StoredRefreshToken where
  sessionID : String
  kind : TokenKind
  expiresAt : Int
  sessionExpires : Int
  usedAt : Option Int
  revokedAt : Option Int
  sessionRevoked : Option Int
  generation : Nat
  deriving DecidableEq, Repr

def refreshTokenRow (file : DatabaseFile) (oldHash : Hash) : Option StoredRefreshToken := do
  let token ← file.tables.authTokens.find? fun token => token.tokenHash = oldHash
  let session ← file.tables.authSessions.find? fun session => session.id = token.sessionID
  let generation ← file.generation
  pure {
    sessionID := token.sessionID
    kind := token.kind
    expiresAt := token.expiresAtMs
    sessionExpires := session.expiresAtMs
    usedAt := token.usedAtMs
    revokedAt := token.revokedAtMs
    sessionRevoked := session.revokedAtMs
    generation }

def refreshTokenForRotation (file : DatabaseFile) (oldHash : Hash) : Fallible StoredRefreshToken :=
  match refreshTokenRow file oldHash with
  | none => .error .unauthorized
  | some stored => .ok stored

/-- What a committed call tells its caller. A reused token is reported as an
error although its transaction has committed. -/
inductive SessionReply where
  | done
  | rotated
  | reused (sessionID : String) (generation : Nat)
  deriving DecidableEq, Repr

/-- `revokeReusedRefresh`: the token's session and every token of it. -/
def revokeReusedRefresh (t : UserTables) (sessionID : String) (now : Time) : UserTables :=
  let revoked := { t with
    authSessions := t.authSessions.map fun session =>
      if session.id = sessionID then
        { session with
          revokedAtMs := revokedAt session.revokedAtMs now
          reuseDetectedAtMs := some now.unixMilli }
      else session }
  revokeTokens revoked (fun id => id = sessionID) now

def useToken (t : UserTables) (oldHash : Hash) (now : Time) : UserTables :=
  { t with
    authTokens := t.authTokens.map fun token =>
      if token.tokenHash = oldHash && token.usedAtMs.isNone then
        { token with usedAtMs := some now.unixMilli }
      else token }

def extendSession (t : UserTables) (sessionID : String) (expiresAt : Time) : UserTables :=
  { t with
    authSessions := t.authSessions.map fun session =>
      if session.id = sessionID then { session with expiresAtMs := expiresAt.unixMilli }
      else session }

def writeRefreshRotation (t : UserTables) (oldHash : Hash) (sessionID : String)
    (access refresh : TokenRecord) (now : Time) : Fallible UserTables := do
  let t ← insertTokens "insert rotated token" sessionID (useToken t oldHash now) [access, refresh]
  pure (extendSession t sessionID refresh.expiresAt)

def rotateRefresh (file : DatabaseFile) (oldHash : Hash) (access refresh : TokenRecord)
    (now : Time) : Fallible (UserTables × SessionReply) := do
  let stored ← refreshTokenForRotation file oldHash
  if stored.kind ≠ .refresh then throw .unauthorized
  else if stored.usedAt.isSome then
    pure (revokeReusedRefresh file.tables stored.sessionID now,
      .reused stored.sessionID stored.generation)
  else if stored.revokedAt.isSome || stored.sessionRevoked.isSome ||
      stored.expiresAt ≤ now.unixMilli || stored.sessionExpires ≤ now.unixMilli then
    throw .unauthorized
  else
    let t ← writeRefreshRotation file.tables oldHash stored.sessionID access refresh now
    pure (t, .rotated)

/-! ## The callers -/

/-- `now.Add(duration)`. -/
def add (now : Time) (duration : Int) : Time := { now with unixNano := now.unixNano + duration }

def webSessionLifetime : Int := 30 * 24 * 3600 * 1000000000
def accessTokenLifetime : Int := 15 * 60 * 1000000000
def refreshTokenLifetime : Int := 30 * 24 * 3600 * 1000000000

/-- The session of `persistWebAccount`. -/
def newWebSession (now : Time) (sessionID : String) (csrfHash sessionHash : Hash) :
    Session × List TokenRecord :=
  let expiresAt := add now webSessionLifetime
  (⟨sessionID, .web, "", "web", some csrfHash, now, expiresAt⟩, [⟨sessionHash, .web, now, expiresAt⟩])

def newNativeSession (deviceID platform : String) (now : Time) (sessionID : String)
    (accessHash refreshHash : Hash) : Session × List TokenRecord :=
  let accessExpires := add now accessTokenLifetime
  let refreshExpires := add now refreshTokenLifetime
  (⟨sessionID, .native, deviceID, platform, none, now, refreshExpires⟩,
    [⟨accessHash, .access, now, accessExpires⟩, ⟨refreshHash, .refresh, now, refreshExpires⟩])

/-- A device to provision, and what is drawn for it. -/
structure ProvisionedDevice where
  deviceID : String
  platform : String
  sessionID : String
  accessHash : Hash
  refreshHash : Hash
  deriving DecidableEq, Repr

/-- `provisionDeviceSessions`. -/
def provisionDeviceSessions (devices : List ProvisionedDevice) (now : Time) (ttl : Int) :
    List (Session × List TokenRecord) :=
  let sessionExpiresAt := add now ttl
  let accessExpiresAt := add now (min ttl accessTokenLifetime)
  devices.map fun device =>
    (⟨device.sessionID, .native, device.deviceID, device.platform, none, now, sessionExpiresAt⟩,
      [⟨device.accessHash, .access, now, accessExpiresAt⟩,
        ⟨device.refreshHash, .refresh, now, sessionExpiresAt⟩])

/-- The calls that change an account's sessions. -/
inductive SessionCall where
  | upsertProfile (profile : Profile)
  | createWebSession (now : Time) (sessionID : String) (csrfHash sessionHash : Hash)
  | createNativeSession (profile : Profile) (deviceID platform : String) (now : Time)
      (sessionID : String) (accessHash refreshHash : Hash)
  | provision (profile : Profile) (now : Time) (ttl : Int) (devices : List ProvisionedDevice)
  | refresh (oldHash : Hash) (now : Time) (accessHash refreshHash : Hash)
  | revokeSession (sessionID : String) (now : Time)
  | revokeDevice (deviceID : String) (now : Time)
  | updateCSRF (sessionID : String) (csrfHash : Hash)
  deriving DecidableEq, Repr

/-- The transaction of a call; an error leaves the tables as they were. -/
def SessionCall.perform (call : SessionCall) (file : DatabaseFile) :
    Fallible (UserTables × SessionReply) :=
  match call with
  | .upsertProfile profile => .ok (SessionFamilies.upsertProfile file.tables profile, .done)
  | .createWebSession now sessionID csrfHash sessionHash => do
    let (session, tokens) := newWebSession now sessionID csrfHash sessionHash
    let t ← insertSession file.tables session tokens
    pure (t, .done)
  | .createNativeSession profile deviceID platform now sessionID accessHash refreshHash => do
    let (session, tokens) :=
      newNativeSession deviceID platform now sessionID accessHash refreshHash
    let t ← insertSession (SessionFamilies.upsertProfile file.tables profile) session tokens
    pure (t, .done)
  | .provision profile now ttl devices => do
    let t ← provisionProfileAndSessions file.tables profile now
      (provisionDeviceSessions devices now ttl)
    pure (t, .done)
  | .refresh oldHash now accessHash refreshHash =>
    rotateRefresh file oldHash ⟨accessHash, .access, now, add now accessTokenLifetime⟩
      ⟨refreshHash, .refresh, now, add now refreshTokenLifetime⟩ now
  | .revokeSession sessionID now => do
    let (t, _) ← Sessions.revokeSession file.tables sessionID now
    pure (t, .done)
  | .revokeDevice deviceID now => do
    let (t, _) ← Sessions.revokeDevice file.tables deviceID now
    pure (t, .done)
  | .updateCSRF sessionID csrfHash => do
    let (t, _) ← Sessions.updateCSRF file.tables sessionID csrfHash
    pure (t, .done)

/-- What happens to an account's database: a call commits, or something else
changes that is not its sessions'. -/
inductive SessionStep (file : DatabaseFile) : DatabaseFile → Prop where
  | commit {call : SessionCall} {tables reply} (h : call.perform file = .ok (tables, reply)) :
      SessionStep file { file with tables }
  | aside {file'} (hsessions : file'.tables.authSessions = file.tables.authSessions)
      (htokens : file'.tables.authTokens = file.tables.authTokens)
      (hgeneration : file.generation.isSome → file'.generation.isSome) : SessionStep file file'

abbrev SessionRun : DatabaseFile → DatabaseFile → Prop := ReflTransGen SessionStep

/-! ## What a call does to the families -/

/-- A refresh token that can still be exchanged. -/
def liveRefresh (token : AuthToken) : Bool :=
  token.kind = .refresh && token.usedAtMs.isNone && token.revokedAtMs.isNone

/-- A session's row is the same session, and stays revoked. -/
structure SameSession (session session' : AuthSession) : Prop where
  id : session'.id = session.id
  revoked : session.revokedAtMs.isSome → session'.revokedAtMs.isSome

/-- A token's row is the same token, and stays used and revoked. -/
structure SameToken (token token' : AuthToken) : Prop where
  tokenHash : token'.tokenHash = token.tokenHash
  sessionID : token'.sessionID = token.sessionID
  kind : token'.kind = token.kind
  used : token.usedAtMs.isSome → token'.usedAtMs.isSome
  revoked : token.revokedAtMs.isSome → token'.revokedAtMs.isSome

theorem SameSession.refl (session : AuthSession) : SameSession session session :=
  ⟨rfl, fun h => h⟩

theorem SameSession.trans {a b c : AuthSession} (h : SameSession a b) (h' : SameSession b c) :
    SameSession a c := ⟨h'.id.trans h.id, fun hr => h'.revoked (h.revoked hr)⟩

theorem SameToken.refl (token : AuthToken) : SameToken token token := ⟨rfl, rfl, rfl, id, id⟩

theorem SameToken.trans {a b c : AuthToken} (h : SameToken a b) (h' : SameToken b c) :
    SameToken a c :=
  ⟨h'.tokenHash.trans h.tokenHash, h'.sessionID.trans h.sessionID, h'.kind.trans h.kind,
    fun hu => h'.used (h.used hu), fun hr => h'.revoked (h.revoked hr)⟩

theorem SameToken.liveRefresh {token token' : AuthToken} (h : SameToken token token')
    (hlive : liveRefresh token' = true) : liveRefresh token = true := by
  have hused := h.used
  have hrevoked := h.revoked
  simp only [SessionFamilies.liveRefresh, h.kind, Bool.and_eq_true, decide_eq_true_eq,
    Option.isNone_iff_eq_none, Option.isSome_iff_ne_none] at *
  exact ⟨⟨hlive.1.1, not_not.mp fun hne => hused hne hlive.1.2⟩,
    not_not.mp fun hne => hrevoked hne hlive.2⟩

/-- The three ways in which the tables of sessions change. -/
inductive Effect (t : UserTables) : UserTables → Prop where
  /-- Rows are updated; whoever revokes a session revokes its tokens. -/
  | update {t'} (f : AuthSession → AuthSession) (g : AuthToken → AuthToken)
      (hsessions : t'.authSessions = t.authSessions.map f)
      (htokens : t'.authTokens = t.authTokens.map g)
      (hf : ∀ session, SameSession session (f session)) (hg : ∀ token, SameToken token (g token))
      (hrevoked : ∀ session ∈ t.authSessions, (f session).revokedAtMs.isSome →
        session.revokedAtMs.isSome ∨
          ∀ token, token.sessionID = session.id → (g token).revokedAtMs.isSome) : Effect t t'
  | session {t'} (row : AuthSession) (hsessions : t'.authSessions = t.authSessions ++ [row])
      (htokens : t'.authTokens = t.authTokens) (hfresh : ∀ other ∈ t.authSessions, other.id ≠ row.id)
      (hlive : row.revokedAtMs = none) : Effect t t'
  | token {t'} (row : AuthToken) (hsessions : t'.authSessions = t.authSessions)
      (htokens : t'.authTokens = t.authTokens ++ [row])
      (hfresh : ∀ other ∈ t.authTokens, other.tokenHash ≠ row.tokenHash)
      (howner : ∃ session ∈ t.authSessions, session.id = row.sessionID ∧ session.revokedAtMs = none)
      (hsingle : liveRefresh row = true → ∀ other ∈ t.authTokens,
        other.sessionID = row.sessionID → liveRefresh other = false) : Effect t t'

/-- The invariant of the tables of sessions. -/
structure Families (t : UserTables) : Prop where
  ids : (t.authSessions.map AuthSession.id).Nodup
  hashes : (t.authTokens.map AuthToken.tokenHash).Nodup
  owned : ∀ token ∈ t.authTokens, ∃ session ∈ t.authSessions, session.id = token.sessionID
  revoked : ∀ session ∈ t.authSessions, session.revokedAtMs.isSome → ∀ token ∈ t.authTokens,
    token.sessionID = session.id → token.revokedAtMs.isSome
  single : ∀ a ∈ t.authTokens, ∀ b ∈ t.authTokens, liveRefresh a = true → liveRefresh b = true →
    a.sessionID = b.sessionID → a = b

/-- Every row of before is still there, no less used or revoked. -/
structure Later (t t' : UserTables) : Prop where
  sessions : ∀ session ∈ t.authSessions, ∃ session' ∈ t'.authSessions, SameSession session session'
  tokens : ∀ token ∈ t.authTokens, ∃ token' ∈ t'.authTokens, SameToken token token'

section
variable {t t' u : UserTables}

theorem Later.refl (t : UserTables) : Later t t :=
  ⟨fun session h => ⟨session, h, .refl session⟩, fun token h => ⟨token, h, .refl token⟩⟩

theorem Later.trans (h : Later t t') (h' : Later t' u) : Later t u := by
  refine ⟨fun session hs => ?_, fun token ht => ?_⟩
  · obtain ⟨session', hs', hsame⟩ := h.sessions session hs
    obtain ⟨session'', hs'', hsame'⟩ := h'.sessions session' hs'
    exact ⟨session'', hs'', hsame.trans hsame'⟩
  · obtain ⟨token', ht', hsame⟩ := h.tokens token ht
    obtain ⟨token'', ht'', hsame'⟩ := h'.tokens token' ht'
    exact ⟨token'', ht'', hsame.trans hsame'⟩

theorem Effect.later (h : Effect t t') : Later t t' := by
  cases h with
  | update f g hsessions htokens hf hg hrevoked =>
    refine ⟨fun session hs => ⟨f session, ?_, hf session⟩, fun token ht => ⟨g token, ?_, hg token⟩⟩
    · rw [hsessions]
      exact List.mem_map_of_mem hs
    · rw [htokens]
      exact List.mem_map_of_mem ht
  | session row hsessions htokens hfresh hlive =>
    refine ⟨fun session hs => ⟨session, ?_, .refl session⟩, fun token ht => ⟨token, ?_, .refl token⟩⟩
    · rw [hsessions]
      exact List.mem_append_left _ hs
    · rw [htokens]
      exact ht
  | token row hsessions htokens hfresh howner hsingle =>
    refine ⟨fun session hs => ⟨session, ?_, .refl session⟩, fun token ht => ⟨token, ?_, .refl token⟩⟩
    · rw [hsessions]
      exact hs
    · rw [htokens]
      exact List.mem_append_left _ ht

theorem families_initial : Families .initial where
  ids := List.nodup_nil
  hashes := List.nodup_nil
  owned _ h := by cases h
  revoked _ h := by cases h
  single _ h := by cases h

theorem nodup_append_fresh {α β : Type} {key : α → β} {rows : List α} {row : α}
    (h : (rows.map key).Nodup) (hfresh : ∀ other ∈ rows, key other ≠ key row) :
    ((rows ++ [row]).map key).Nodup := by
  rw [List.map_append, List.nodup_append]
  refine ⟨h, by simp, ?_⟩
  intro k hk k' hk' heq
  obtain ⟨other, hother, rfl⟩ := List.mem_map.mp hk
  simp only [List.map_cons, List.map_nil, List.mem_singleton] at hk'
  exact hfresh other hother (heq.trans hk')

theorem Effect.families (h : Effect t t') (ht : Families t) : Families t' := by
  cases h with
  | update f g hsessions htokens hf hg hrevoked =>
    refine ⟨?_, ?_, ?_, ?_, ?_⟩
    · rw [hsessions, List.map_map]
      simpa only [Function.comp_def, (hf _).id] using ht.ids
    · rw [htokens, List.map_map]
      simpa only [Function.comp_def, (hg _).tokenHash] using ht.hashes
    · intro token hmem
      rw [htokens] at hmem
      obtain ⟨before, hbefore, rfl⟩ := List.mem_map.mp hmem
      obtain ⟨session, hsession, hid⟩ := ht.owned before hbefore
      refine ⟨f session, ?_, ?_⟩
      · rw [hsessions]
        exact List.mem_map_of_mem hsession
      · rw [(hf session).id, (hg before).sessionID, hid]
    · intro session hmem hrev token htoken hid
      rw [hsessions] at hmem
      rw [htokens] at htoken
      obtain ⟨before, hbefore, rfl⟩ := List.mem_map.mp hmem
      obtain ⟨owned, howned, rfl⟩ := List.mem_map.mp htoken
      rw [(hf before).id, (hg owned).sessionID] at hid
      rcases hrevoked before hbefore hrev with hold | hall
      · exact (hg owned).revoked (ht.revoked before hbefore hold owned howned hid)
      · exact hall owned hid
    · intro a ha b hb hlivea hliveb hid
      rw [htokens] at ha hb
      obtain ⟨a, hamem, rfl⟩ := List.mem_map.mp ha
      obtain ⟨b, hbmem, rfl⟩ := List.mem_map.mp hb
      rw [(hg a).sessionID, (hg b).sessionID] at hid
      rw [ht.single a hamem b hbmem ((hg a).liveRefresh hlivea) ((hg b).liveRefresh hliveb) hid]
  | session row hsessions htokens hfresh hlive =>
    refine ⟨hsessions ▸ nodup_append_fresh ht.ids hfresh, htokens ▸ ht.hashes, ?_, ?_, htokens ▸ ht.single⟩
    · intro token hmem
      rw [htokens] at hmem
      obtain ⟨session, hsession, hid⟩ := ht.owned token hmem
      exact ⟨session, hsessions ▸ List.mem_append_left _ hsession, hid⟩
    · intro session hmem hrev token htoken hid
      rw [htokens] at htoken
      rw [hsessions, List.mem_append, List.mem_singleton] at hmem
      rcases hmem with hold | rfl
      · exact ht.revoked session hold hrev token htoken hid
      · rw [hlive] at hrev
        cases hrev
  | token row hsessions htokens hfresh howner hsingle =>
    obtain ⟨owner, howner, hid, hlive⟩ := howner
    refine ⟨hsessions ▸ ht.ids, htokens ▸ nodup_append_fresh ht.hashes hfresh, ?_, ?_, ?_⟩
    · intro token hmem
      rw [htokens, List.mem_append, List.mem_singleton] at hmem
      rw [hsessions]
      rcases hmem with hold | rfl
      · exact ht.owned token hold
      · exact ⟨owner, howner, hid⟩
    · intro session hmem hrev token htoken hsame
      rw [hsessions] at hmem
      rw [htokens, List.mem_append, List.mem_singleton] at htoken
      rcases htoken with hold | rfl
      · exact ht.revoked session hmem hrev token hold hsame
      · -- the session of a new token is not revoked
        have heq : session = owner :=
          List.inj_on_of_nodup_map ht.ids hmem howner (hsame.symm.trans hid.symm)
        rw [heq, hlive] at hrev
        cases hrev
    · intro a ha b hb hlivea hliveb hsame
      rw [htokens, List.mem_append, List.mem_singleton] at ha hb
      rcases ha with ha | rfl <;> rcases hb with hb | rfl
      · exact ht.single a ha b hb hlivea hliveb hsame
      · rw [hsingle hliveb a ha hsame] at hlivea
        cases hlivea
      · rw [hsingle hlivea b hb hsame.symm] at hliveb
        cases hliveb
      · rfl

abbrev Effects : UserTables → UserTables → Prop := ReflTransGen Effect

theorem Effects.later (h : Effects t t') : Later t t' := by
  induction h with
  | refl => exact .refl _
  | tail _ hstep ih => exact ih.trans hstep.later

theorem Effects.families (h : Effects t t') (ht : Families t) : Families t' := by
  induction h with
  | refl => exact ht
  | tail _ hstep ih => exact hstep.families ih

/-- Whatever leaves both tables alone. -/
theorem Effect.aside (hsessions : t'.authSessions = t.authSessions)
    (htokens : t'.authTokens = t.authTokens) : Effect t t' := by
  refine .update id id ?_ ?_ .refl .refl fun _ _ h => .inl h
  · rw [hsessions, List.map_id]
  · rw [htokens, List.map_id]

/-! ## The effects of each call -/

/-- Sessions are revoked, and with them the tokens of some sessions. -/
theorem effect_revoke {u : UserTables} {f : AuthSession → AuthSession} (sessions : String → Bool)
    {now : Time} (hsessions : t'.authSessions = t.authSessions.map f)
    (htokens : t'.authTokens = (revokeTokens u sessions now).authTokens)
    (hu : u.authTokens = t.authTokens) (hf : ∀ session, SameSession session (f session))
    (hrevoked : ∀ session ∈ t.authSessions, (f session).revokedAtMs.isSome →
      session.revokedAtMs.isSome ∨ sessions session.id = true) : Effect t t' := by
  refine .update f (fun token =>
    if sessions token.sessionID then { token with revokedAtMs := revokedAt token.revokedAtMs now }
    else token) hsessions (by rw [htokens, revokeTokens, hu]) hf (fun token => ?_)
    fun session hmem hrev => (hrevoked session hmem hrev).imp_right fun hsome token hid => ?_
  · split
    · exact ⟨rfl, rfl, rfl, fun h => h, fun _ => rfl⟩
    · exact .refl token
  · rw [if_pos (hid ▸ hsome)]
    rfl

/-- A conditional revocation of a row. -/
theorem sameSession_ite {c : Prop} [Decidable c] {session session' : AuthSession}
    (h : SameSession session session') : SameSession session (if c then session' else session) := by
  split
  · exact h
  · exact .refl session

theorem effect_revokeSession {sessionID : String} {now : Time} {reply : Unit}
    (h : Sessions.revokeSession t sessionID now = .ok (t', reply)) : Effect t t' := by
  cases h
  refine effect_revoke _ rfl rfl rfl (fun session => sameSession_ite ⟨rfl, fun _ => rfl⟩) ?_
  intro session _ hrev
  split at hrev
  case isTrue hid => exact .inr (decide_eq_true hid)
  case isFalse => exact .inl hrev

theorem effect_revokeDevice {deviceID : String} {now : Time} {reply : Unit}
    (h : Sessions.revokeDevice t deviceID now = .ok (t', reply)) : Effect t t' := by
  cases h
  refine effect_revoke _ rfl rfl rfl (fun session => sameSession_ite ⟨rfl, fun _ => rfl⟩) ?_
  intro session hmem hrev
  split at hrev
  case isFalse => exact .inl hrev
  case isTrue hdevice =>
  refine .inr (List.any_eq_true.mpr ⟨_, List.mem_map_of_mem hmem, ?_⟩)
  simp [hdevice]

theorem effect_revokeNative (now : Time) : Effect t (revokeNative t now) := by
  refine effect_revoke (fun id => t.authSessions.any fun session =>
    session.id = id && session.kind = .native) rfl rfl rfl (fun session => sameSession_ite ⟨rfl, fun _ => rfl⟩) ?_
  intro session hmem hrev
  split at hrev
  case isFalse => exact .inl hrev
  case isTrue hkind =>
  refine .inr (List.any_eq_true.mpr ⟨session, hmem, ?_⟩)
  simp [hkind]

theorem effect_revokeReusedRefresh (sessionID : String) (now : Time) :
    Effect t (revokeReusedRefresh t sessionID now) := by
  refine effect_revoke _ rfl rfl rfl (fun session => sameSession_ite ⟨rfl, fun _ => rfl⟩) ?_
  intro session _ hrev
  split at hrev
  case isTrue hid => exact .inr (decide_eq_true hid)
  case isFalse => exact .inl hrev

theorem effect_updateCSRF {sessionID : String} {csrfHash : Hash} {reply : Unit}
    (h : Sessions.updateCSRF t sessionID csrfHash = .ok (t', reply)) : Effect t t' := by
  unfold Sessions.updateCSRF at h
  split at h
  case isFalse => cases h
  case isTrue =>
  cases h
  refine .update _ id rfl (List.map_id _).symm
    (fun session => sameSession_ite ⟨rfl, fun hrev => hrev⟩) .refl fun session _ hrev => .inl ?_
  split at hrev <;> exact hrev

theorem effect_useToken (oldHash : Hash) (now : Time) : Effect t (useToken t oldHash now) := by
  refine .update id _ (List.map_id _).symm rfl .refl (fun token => ?_) fun _ _ hrev => .inl hrev
  split
  · exact ⟨rfl, rfl, rfl, fun _ => rfl, fun h => h⟩
  · exact .refl token

theorem effect_extendSession (sessionID : String) (expiresAt : Time) :
    Effect t (extendSession t sessionID expiresAt) := by
  refine .update _ id rfl (List.map_id _).symm
    (fun session => sameSession_ite ⟨rfl, fun hrev => hrev⟩) .refl fun session _ hrev => .inl ?_
  split at hrev <;> exact hrev

/-- The session has no token to exchange. -/
def NoLive (t : UserTables) (sessionID : String) : Prop :=
  ∀ token ∈ t.authTokens, token.sessionID = sessionID → liveRefresh token = false

/-- The session is there, and not revoked. -/
def Open (t : UserTables) (sessionID : String) : Prop :=
  ∃ session ∈ t.authSessions, session.id = sessionID ∧ session.revokedAtMs = none

/-- Of the tokens for one session, at most one can be exchanged. -/
def OneRefresh (tokens : List TokenRecord) : Prop :=
  tokens.Pairwise fun a b => a.kind = .refresh → b.kind ≠ .refresh

theorem insertToken_effect {context sessionID : String} {token : TokenRecord}
    (hopen : Open t sessionID) (hlive : token.kind = .refresh → NoLive t sessionID)
    (h : insertToken context t sessionID token = .ok t') :
    Effect t t' ∧ t'.authSessions = t.authSessions ∧
      t'.authTokens = t.authTokens ++ [tokenRow sessionID token] := by
  unfold insertToken at h
  split at h
  case isTrue => cases h
  case isFalse hfresh =>
  cases h
  refine ⟨.token (tokenRow sessionID token) rfl rfl ?_ hopen fun hrow => ?_, rfl, rfl⟩
  · intro other hother heq
    exact hfresh (List.any_eq_true.mpr ⟨other, hother, decide_eq_true heq⟩)
  · simp only [liveRefresh, Bool.and_eq_true, decide_eq_true_eq] at hrow
    exact hlive hrow.1.1

theorem insertTokens_effects {context sessionID : String} {tokens : List TokenRecord}
    (hopen : Open t sessionID)
    (hlive : (∃ token ∈ tokens, token.kind = .refresh) → NoLive t sessionID)
    (hone : OneRefresh tokens) (h : insertTokens context sessionID t tokens = .ok t') :
    Effects t t' := by
  induction tokens generalizing t with
  | nil =>
    cases h
    exact .refl
  | cons token tokens ih =>
    obtain ⟨u, hu, h⟩ := bind_ok_iff.mp h
    obtain ⟨hfirst, hrest⟩ := List.pairwise_cons.mp hone
    obtain ⟨heffect, hsessions, htokens⟩ :=
      insertToken_effect hopen (fun hkind => hlive ⟨token, List.mem_cons_self, hkind⟩) hu
    refine .head heffect (ih ?_ ?_ hrest h)
    · unfold Open
      rw [hsessions]
      exact hopen
    · rintro ⟨next, hnext, hkind⟩ other hother hid
      have hkind' : token.kind ≠ .refresh := fun hrefresh => hfirst next hnext hrefresh hkind
      rw [htokens, List.mem_append, List.mem_singleton] at hother
      rcases hother with hold | rfl
      · exact hlive ⟨next, List.mem_cons_of_mem _ hnext, hkind⟩ other hold hid
      · simp [liveRefresh, tokenRow, hkind']

theorem insertSession_effects {session : Session} {tokens : List TokenRecord} (ht : Families t)
    (hone : OneRefresh tokens) (h : insertSession t session tokens = .ok t') : Effects t t' := by
  obtain ⟨u, hu, h⟩ := bind_ok_iff.mp h
  have hsessions : (upsertDevice t session).authSessions = t.authSessions := by
    unfold upsertDevice
    split
    · rfl
    · split <;> rfl
  have htokens : (upsertDevice t session).authTokens = t.authTokens := by
    unfold upsertDevice
    split
    · rfl
    · split <;> rfl
  unfold insertSessionRow at hu
  split at hu
  case isTrue => cases hu
  case isFalse hfresh =>
  have hnew : ∀ other ∈ t.authSessions, other.id ≠ session.id := by
    intro other hother heq
    refine hfresh (List.any_eq_true.mpr ⟨other, ?_, decide_eq_true heq⟩)
    rw [hsessions]
    exact hother
  have hrow : Effect (upsertDevice t session) u := by
    cases hu
    exact .session (sessionRow session) rfl rfl (hsessions ▸ hnew) rfl
  refine .head (.aside hsessions htokens) (.head hrow (insertTokens_effects ?_ ?_ hone h))
  · cases hu
    exact ⟨sessionRow session, List.mem_append_right _ (List.mem_singleton.mpr rfl), rfl, rfl⟩
  · -- no token can belong to a session that was not there
    cases hu
    intro _ token htoken hid
    obtain ⟨owner, howner, hid'⟩ := ht.owned token (htokens ▸ htoken)
    exact absurd (hid'.trans hid) (hnew owner howner)

theorem insertSessions_effects {sessions : List (Session × List TokenRecord)} (ht : Families t)
    (hone : ∀ entry ∈ sessions, OneRefresh entry.2) (h : insertSessions t sessions = .ok t') :
    Effects t t' := by
  induction sessions generalizing t with
  | nil =>
    cases h
    exact .refl
  | cons entry sessions ih =>
    obtain ⟨u, hu, h⟩ := bind_ok_iff.mp h
    have heffects := insertSession_effects ht (hone entry List.mem_cons_self) hu
    exact heffects.trans
      (ih (heffects.families ht) (fun e he => hone e (List.mem_cons_of_mem _ he)) h)

theorem oneRefresh_pair (access refresh : TokenRecord) (h : access.kind = .access) :
    OneRefresh [access, refresh] := by
  simp [OneRefresh, h]

end

end Pomodorough.Store.SessionFamilies
