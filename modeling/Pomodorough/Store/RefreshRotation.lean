import Pomodorough.Store.SessionFamilies

/-! # Refresh rotation

`RotateRefresh`, over every run of an account's sessions: a refresh token is
exchanged once, and whoever presents it again ends its session. -/
namespace Pomodorough.Store.RefreshRotation
open Pomodorough.Library.Fallible
open Pomodorough.Store.Records Pomodorough.Store.DeletionLedger
open Pomodorough.Store.SharedCoreValidation Pomodorough.Store.Sessions
open Pomodorough.Store.SessionFamilies
open Relation (ReflTransGen)

/-! ## Rotation, branch by branch -/

section
variable {file : DatabaseFile} {oldHash : Hash} {access refresh : TokenRecord} {now : Time}
  {tables : UserTables} {reply : SessionReply}

/-- The rows a rotation is about. -/
structure RefreshRow (file : DatabaseFile) (oldHash : Hash) (stored : StoredRefreshToken)
    (token : AuthToken) (session : AuthSession) : Prop where
  issued : token ∈ file.tables.authTokens
  hash : token.tokenHash = oldHash
  owner : session ∈ file.tables.authSessions
  id : session.id = token.sessionID
  generation : file.generation = some stored.generation
  stored : stored = ⟨token.sessionID, token.kind, token.expiresAtMs, session.expiresAtMs,
    token.usedAtMs, token.revokedAtMs, session.revokedAtMs, stored.generation⟩

theorem refreshTokenForRotation_row {stored : StoredRefreshToken}
    (h : refreshTokenForRotation file oldHash = .ok stored) :
    ∃ token session, RefreshRow file oldHash stored token session := by
  unfold refreshTokenForRotation at h
  split at h
  · cases h
  · rename_i row hrow
    cases h
    simp only [refreshTokenRow, Option.bind_eq_bind, Option.bind_eq_some_iff, Option.pure_def,
      Option.some.injEq] at hrow
    obtain ⟨token, htoken, session, hsession, generation, hgeneration, rfl⟩ := hrow
    exact ⟨token, session, List.mem_of_find?_eq_some htoken,
      by simpa using List.find?_some htoken, List.mem_of_find?_eq_some hsession,
      by simpa using List.find?_some hsession, hgeneration, rfl⟩

/-- The first row with a key, where keys are unique. -/
theorem find_key {α β : Type} [DecidableEq β] {key : α → β} {rows : List α} {row : α} {k : β}
    (hnodup : (rows.map key).Nodup) (hmem : row ∈ rows) (hkey : key row = k) :
    rows.find? (fun other => key other = k) = some row := by
  cases hfind : rows.find? fun other => key other = k with
  | none => simpa [hkey] using List.find?_eq_none.mp hfind row hmem
  | some found =>
    have hfound := List.find?_some hfind
    rw [List.inj_on_of_nodup_map hnodup (List.mem_of_find?_eq_some hfind) hmem
      ((of_decide_eq_true hfound).trans hkey.symm)]

/-- The stored token of a hash that was issued. -/
theorem refreshTokenForRotation_issued (ht : Families file.tables) {token : AuthToken}
    {generation : Nat} (hgeneration : file.generation = some generation)
    (htoken : token ∈ file.tables.authTokens) :
    ∃ session, RefreshRow file token.tokenHash
        ⟨token.sessionID, token.kind, token.expiresAtMs, session.expiresAtMs, token.usedAtMs,
          token.revokedAtMs, session.revokedAtMs, generation⟩ token session ∧
      refreshTokenForRotation file token.tokenHash = .ok
        ⟨token.sessionID, token.kind, token.expiresAtMs, session.expiresAtMs, token.usedAtMs,
          token.revokedAtMs, session.revokedAtMs, generation⟩ := by
  obtain ⟨session, hsession, hid⟩ := ht.owned token htoken
  refine ⟨session, ⟨htoken, rfl, hsession, hid, hgeneration, rfl⟩, ?_⟩
  unfold refreshTokenForRotation refreshTokenRow
  rw [find_key ht.hashes htoken rfl, Option.bind_eq_bind, Option.bind_some,
    find_key ht.ids hsession hid, Option.bind_eq_bind, Option.bind_some, hgeneration]
  rfl

/-- A rotation that commits has exchanged a live token, or found a used one. -/
inductive RotationOutcome (file : DatabaseFile) (oldHash : Hash) (access refresh : TokenRecord)
    (now : Time) : UserTables → SessionReply → Prop where
  | reused {stored token session} (hrow : RefreshRow file oldHash stored token session)
      (hkind : token.kind = .refresh) (hused : token.usedAtMs.isSome) :
      RotationOutcome file oldHash access refresh now
        (revokeReusedRefresh file.tables token.sessionID now)
        (.reused token.sessionID stored.generation)
  | rotated {stored token session tables} (hrow : RefreshRow file oldHash stored token session)
      (hlive : liveRefresh token = true) (hsession : session.revokedAtMs = none)
      (hwrite : writeRefreshRotation file.tables oldHash token.sessionID access refresh now =
        .ok tables) :
      RotationOutcome file oldHash access refresh now tables .rotated

theorem rotateRefresh_outcome
    (h : rotateRefresh file oldHash access refresh now = .ok (tables, reply)) :
    RotationOutcome file oldHash access refresh now tables reply := by
  obtain ⟨stored, hstored, h⟩ := bind_ok_iff.mp h
  obtain ⟨token, session, hrow⟩ := refreshTokenForRotation_row hstored
  have heq := hrow.stored
  split at h
  case isTrue => cases h
  case isFalse hkind =>
  have hkind' : token.kind = .refresh := by
    rw [heq] at hkind
    exact not_not.mp hkind
  split at h
  case isTrue hused =>
    rw [heq] at h hused
    cases h
    exact @RotationOutcome.reused file oldHash access refresh now stored token session hrow hkind'
      hused
  case isFalse hunused =>
  split at h
  case isTrue => cases h
  case isFalse hvalid =>
  obtain ⟨t, hwrite, h⟩ := bind_ok_iff.mp h
  cases h
  rw [heq] at hwrite hunused hvalid
  simp only [Bool.or_eq_true, not_or, Bool.not_eq_true, Option.isSome_eq_false_iff,
    Option.isNone_iff_eq_none] at hvalid hunused
  obtain ⟨⟨⟨hrevoked, hsession⟩, -⟩, -⟩ := hvalid
  refine .rotated hrow ?_ hsession hwrite
  simp [liveRefresh, hkind', hunused, hrevoked]

end

/-! ## Every call -/

section
variable {file file' later : DatabaseFile} {call : SessionCall} {tables : UserTables}
  {reply : SessionReply}

/-- A token that has been used can no longer be exchanged. -/
theorem noLive_useToken {t : UserTables} (ht : Families t) {token : AuthToken}
    (htoken : token ∈ t.authTokens) (hlive : liveRefresh token = true) (now : Time) :
    NoLive (useToken t token.tokenHash now) token.sessionID := by
  intro other hother hid
  obtain ⟨before, hbefore, rfl⟩ := List.mem_map.mp hother
  by_contra hne
  have hlive' : liveRefresh before = true := by
    refine SameToken.liveRefresh ?_ (Bool.not_eq_false _ ▸ hne)
    split
    · exact ⟨rfl, rfl, rfl, fun _ => rfl, fun h => h⟩
    · exact .refl before
  have hid' : before.sessionID = token.sessionID := by
    rw [← hid]
    split <;> rfl
  obtain rfl := ht.single before hbefore token htoken hlive' hlive hid'
  simp only [liveRefresh, Bool.and_eq_true] at hlive
  simp [liveRefresh, hlive.1.2] at hne

theorem rotation_effects {oldHash : Hash} {access refresh : TokenRecord} {now : Time}
    (ht : Families file.tables) (haccess : access.kind = .access)
    (h : RotationOutcome file oldHash access refresh now tables reply) :
    Effects file.tables tables := by
  cases h with
  | reused hrow hkind hused => exact .single (effect_revokeReusedRefresh _ _)
  | @rotated stored token session tables hrow hlive hsession hwrite =>
    obtain ⟨u, hu, hwrite⟩ := bind_ok_iff.mp hwrite
    cases hwrite
    obtain rfl := hrow.hash
    refine .head (effect_useToken token.tokenHash now) (.tail
      (insertTokens_effects ⟨session, hrow.owner, hrow.id, hsession⟩ (fun _ => ?_)
        (oneRefresh_pair _ _ haccess) hu) (effect_extendSession _ _))
    exact noLive_useToken ht hrow.issued hlive now

/-- Whatever a call commits, it changes the sessions in the known ways. -/
theorem perform_effects (ht : Families file.tables) (h : call.perform file = .ok (tables, reply)) :
    Effects file.tables tables := by
  cases call with
  | upsertProfile profile =>
    cases h
    exact .single (.aside rfl rfl)
  | createWebSession now sessionID csrfHash sessionHash =>
    obtain ⟨t, hinsert, h⟩ := bind_ok_iff.mp h
    cases h
    exact insertSession_effects ht (List.pairwise_singleton _ _) hinsert
  | createNativeSession profile deviceID platform now sessionID accessHash refreshHash =>
    obtain ⟨t, hinsert, h⟩ := bind_ok_iff.mp h
    cases h
    have hprofile : Effect file.tables (SessionFamilies.upsertProfile file.tables profile) :=
      .aside rfl rfl
    exact .head hprofile
      (insertSession_effects (hprofile.families ht) (oneRefresh_pair _ _ rfl) hinsert)
  | provision profile now ttl devices =>
    obtain ⟨t, hinsert, h⟩ := bind_ok_iff.mp h
    cases h
    have hprofile : Effect file.tables (SessionFamilies.upsertProfile file.tables profile) :=
      .aside rfl rfl
    have hrevoked : Effects file.tables
        (revokeNative (SessionFamilies.upsertProfile file.tables profile) now) :=
      ReflTransGen.head hprofile (.single (effect_revokeNative now))
    refine hrevoked.trans (insertSessions_effects (hrevoked.families ht) ?_ hinsert)
    intro entry hentry
    obtain ⟨device, _, rfl⟩ := List.mem_map.mp hentry
    exact oneRefresh_pair _ _ rfl
  | refresh oldHash now accessHash refreshHash =>
    exact rotation_effects ht rfl (rotateRefresh_outcome h)
  | revokeSession sessionID now =>
    obtain ⟨⟨t, _⟩, hrevoke, h⟩ := bind_ok_iff.mp h
    cases h
    exact .single (effect_revokeSession hrevoke)
  | revokeDevice deviceID now =>
    obtain ⟨⟨t, _⟩, hrevoke, h⟩ := bind_ok_iff.mp h
    cases h
    exact .single (effect_revokeDevice hrevoke)
  | updateCSRF sessionID csrfHash =>
    obtain ⟨⟨t, _⟩, hupdate, h⟩ := bind_ok_iff.mp h
    cases h
    exact .single (effect_updateCSRF hupdate)

theorem step_effects (ht : Families file.tables) (h : SessionStep file file') :
    Effects file.tables file'.tables := by
  cases h with
  | commit h => exact perform_effects ht h
  | aside hsessions htokens _ => exact .single (.aside hsessions htokens)

theorem run_effects (ht : Families file.tables) (h : SessionRun file file') :
    Effects file.tables file'.tables := by
  induction h with
  | refl => exact .refl
  | tail _ hstep ih => exact ih.trans (step_effects (ih.families ht) hstep)

theorem run_numbered (hgeneration : file.generation.isSome) (h : SessionRun file file') :
    file'.generation.isSome := by
  induction h with
  | refl => exact hgeneration
  | tail _ hstep ih =>
    cases hstep with
    | commit h => exact ih
    | aside _ _ hkept => exact hkept ih

/-- The database of a new account. -/
def newDatabase (inode : Nat) : DatabaseFile := (DatabaseFile.empty inode).migrate

theorem run_families {inode : Nat} (h : SessionRun (newDatabase inode) file) :
    Families file.tables :=
  (run_effects families_initial h).families families_initial

theorem run_generation {inode : Nat} (h : SessionRun (newDatabase inode) file) :
    ∃ generation, file.generation = some generation :=
  Option.isSome_iff_exists.mp (run_numbered rfl h)

/-! ## A token that has been used -/

/-- A session has ended, with all its tokens, and nothing else has changed. -/
structure OnlyRevoked (sessionID : String) (t t' : UserTables) : Prop where
  sessions : ∀ session ∈ t'.authSessions, session.id = sessionID → session.revokedAtMs.isSome
  tokens : ∀ token ∈ t'.authTokens, token.sessionID = sessionID → token.revokedAtMs.isSome
  sessionIDs : t'.authSessions.map AuthSession.id = t.authSessions.map AuthSession.id
  tokenHashes : t'.authTokens.map AuthToken.tokenHash = t.authTokens.map AuthToken.tokenHash
  otherSessions : t'.authSessions.filter (fun session => session.id ≠ sessionID) =
    t.authSessions.filter fun session => session.id ≠ sessionID
  otherTokens : t'.authTokens.filter (fun token => token.sessionID ≠ sessionID) =
    t.authTokens.filter fun token => token.sessionID ≠ sessionID
  rest : t' = { t with authSessions := t'.authSessions, authTokens := t'.authTokens }

/-- Rows updated where a key has one value, seen from the other values. -/
theorem filter_map_ite {α β : Type} [DecidableEq β] (key : α → β) (f : α → α) (k : β)
    (hkey : ∀ row, key (f row) = key row) (rows : List α) :
    (rows.map fun row => if key row = k then f row else row).filter (fun row => key row ≠ k) =
      rows.filter fun row => key row ≠ k := by
  induction rows with
  | nil => rfl
  | cons row rows ih =>
    by_cases h : key row = k
    · simpa [h, hkey] using ih
    · simpa [h] using ih

theorem onlyRevoked_revokeReusedRefresh (t : UserTables) (sessionID : String) (now : Time) :
    OnlyRevoked sessionID t (revokeReusedRefresh t sessionID now) where
  sessions session hmem hid := by
    obtain ⟨before, _, rfl⟩ := List.mem_map.mp hmem
    split
    · rfl
    · rename_i hne
      rw [if_neg hne] at hid
      exact absurd hid hne
  tokens token hmem hid := by
    obtain ⟨before, _, rfl⟩ := List.mem_map.mp hmem
    simp only [decide_eq_true_eq] at hid ⊢
    split
    · rfl
    · rename_i hne
      rw [if_neg hne] at hid
      exact absurd hid hne
  sessionIDs := by
    unfold revokeReusedRefresh revokeTokens
    rw [List.map_map]
    refine List.map_congr_left fun session _ => ?_
    simp only [Function.comp_apply]
    split <;> rfl
  tokenHashes := by
    unfold revokeReusedRefresh revokeTokens
    rw [List.map_map]
    refine List.map_congr_left fun token _ => ?_
    simp only [Function.comp_apply]
    split <;> rfl
  otherSessions := filter_map_ite AuthSession.id (fun session => { session with
    revokedAtMs := revokedAt session.revokedAtMs now
    reuseDetectedAtMs := some now.unixMilli }) sessionID (fun _ => rfl) t.authSessions
  otherTokens := by
    have h := filter_map_ite AuthToken.sessionID (fun token =>
      { token with revokedAtMs := revokedAt token.revokedAtMs now }) sessionID (fun _ => rfl) t.authTokens
    simpa only [revokeReusedRefresh, revokeTokens, decide_eq_true_eq] using h
  rest := rfl

/-- A token already used ends its session, whoever presents it. -/
theorem perform_reused (ht : Families file.tables) {generation : Nat}
    (hgeneration : file.generation = some generation) {token : AuthToken}
    (htoken : token ∈ file.tables.authTokens) (hkind : token.kind = .refresh)
    (hused : token.usedAtMs.isSome) (now : Time) (accessHash refreshHash : Hash) :
    (SessionCall.refresh token.tokenHash now accessHash refreshHash).perform file =
      .ok (revokeReusedRefresh file.tables token.sessionID now,
        .reused token.sessionID generation) := by
  obtain ⟨session, hrow, hstored⟩ := refreshTokenForRotation_issued ht hgeneration htoken
  unfold SessionCall.perform
  dsimp only
  rw [rotateRefresh, hstored]
  show (if token.kind ≠ .refresh then _ else _) = _
  rw [if_neg (not_not.mpr hkind)]
  exact if_pos hused

/-- A token that was exchanged is used from then on. -/
theorem perform_rotated {oldHash accessHash refreshHash : Hash} {now : Time}
    (ht : Families file.tables)
    (h : (SessionCall.refresh oldHash now accessHash refreshHash).perform file =
      .ok (tables, .rotated)) :
    ∃ token ∈ tables.authTokens, token.tokenHash = oldHash ∧ token.kind = .refresh ∧
      token.usedAtMs.isSome := by
  have houtcome := rotateRefresh_outcome h
  cases houtcome with
  | @rotated stored token session _ hrow hlive hsession hwrite =>
    obtain ⟨u, hu, hwrite⟩ := bind_ok_iff.mp hwrite
    cases hwrite
    obtain rfl := hrow.hash
    simp only [liveRefresh, Bool.and_eq_true, decide_eq_true_eq] at hlive
    have hlater := (insertTokens_effects (t := useToken file.tables token.tokenHash now)
      ⟨session, hrow.owner, hrow.id, hsession⟩
      (fun _ => noLive_useToken ht hrow.issued (by simpa [liveRefresh] using hlive) now)
      (oneRefresh_pair _ _ rfl) hu).later
    have hmem : { token with usedAtMs := some now.unixMilli } ∈
        (useToken file.tables token.tokenHash now).authTokens := by
      refine List.mem_map.mpr ⟨token, hrow.issued, ?_⟩
      simp [hlive.1.2]
    obtain ⟨token', htoken', hsame⟩ := hlater.tokens _ hmem
    exact ⟨token', htoken', hsame.tokenHash, hsame.kind.trans hlive.1.1, hsame.used rfl⟩

/-- Wherever a used token is presented later, its session ends. -/
theorem reuse_later {inode : Nat} (h : SessionRun (newDatabase inode) file) {token : AuthToken}
    (htoken : token ∈ file.tables.authTokens) (hkind : token.kind = .refresh)
    (hused : token.usedAtMs.isSome) (hlater : SessionRun file later) (now : Time)
    (accessHash refreshHash : Hash) :
    ∃ tables generation,
      (SessionCall.refresh token.tokenHash now accessHash refreshHash).perform later =
        .ok (tables, .reused token.sessionID generation) ∧
      OnlyRevoked token.sessionID later.tables tables := by
  have hrun : SessionRun (newDatabase inode) later := h.trans hlater
  obtain ⟨token', htoken', hsame⟩ := (run_effects (run_families h) hlater).later.tokens token htoken
  obtain ⟨generation, hgeneration⟩ := run_generation hrun
  have hperform := perform_reused (run_families hrun) hgeneration htoken' (hsame.kind.trans hkind)
    (hsame.used hused) now accessHash refreshHash
  rw [hsame.tokenHash, hsame.sessionID] at hperform
  exact ⟨_, generation, hperform, onlyRevoked_revokeReusedRefresh _ _ _⟩

/-! ## Rotation over every run -/

/-- A property of one element at most. -/
theorem length_filter_le_one {α : Type} {l : List α} {p : α → Bool} (hnodup : l.Nodup)
    (hunique : ∀ a ∈ l, ∀ b ∈ l, p a = true → p b = true → a = b) : (l.filter p).length ≤ 1 := by
  have hfilter := hnodup.filter p
  match hl : l.filter p with
  | [] => simp
  | [a] => simp
  | a :: b :: rest =>
    have ha := List.mem_filter.mp (hl ▸ List.mem_cons_self : a ∈ l.filter p)
    have hb := List.mem_filter.mp (hl ▸ List.mem_cons_of_mem _ List.mem_cons_self : b ∈ l.filter p)
    rw [hl, hunique a ha.1 b hb.1 ha.2 hb.2] at hfilter
    simp at hfilter

/-- In every run of an account's sessions a session has at most one refresh
token left to exchange, a token is exchanged at most once, and presenting a used
token at any later time ends its session and nothing else. -/
theorem refresh_rotation {inode : Nat} {file : DatabaseFile}
    (h : SessionRun (newDatabase inode) file) :
    (∀ session ∈ file.tables.authSessions, session.revokedAtMs = none →
      (file.tables.authTokens.filter fun token =>
        token.sessionID = session.id && liveRefresh token).length ≤ 1) ∧
    (∀ oldHash now accessHash refreshHash tables,
      (SessionCall.refresh oldHash now accessHash refreshHash).perform file =
        .ok (tables, .rotated) →
      ∀ later, SessionRun { file with tables } later → ∀ now' accessHash' refreshHash' tables',
        (SessionCall.refresh oldHash now' accessHash' refreshHash').perform later ≠
          .ok (tables', .rotated)) ∧
    (∀ token ∈ file.tables.authTokens, token.kind = .refresh → token.usedAtMs.isSome →
      ∀ later, SessionRun file later → ∀ now accessHash refreshHash, ∃ tables generation,
        (SessionCall.refresh token.tokenHash now accessHash refreshHash).perform later =
          .ok (tables, .reused token.sessionID generation) ∧
        OnlyRevoked token.sessionID later.tables tables) := by
  refine ⟨fun session _ _ => ?_, ?_, fun token htoken hkind hused later hlater now accessHash
    refreshHash => reuse_later h htoken hkind hused hlater now accessHash refreshHash⟩
  · have hfamilies := run_families h
    refine length_filter_le_one hfamilies.hashes.of_map fun a ha b hb hlivea hliveb => ?_
    simp only [Bool.and_eq_true, decide_eq_true_eq] at hlivea hliveb
    exact hfamilies.single a ha b hb hlivea.2 hliveb.2 (hlivea.1.trans hliveb.1.symm)
  · intro oldHash now accessHash refreshHash tables hrotated later hlater now' accessHash'
      refreshHash' tables' hagain
    obtain ⟨token, htoken, rfl, hkind, hused⟩ := perform_rotated (run_families h) hrotated
    have hrun : SessionRun (newDatabase inode) { file with tables } :=
      h.tail (.commit hrotated)
    obtain ⟨_, _, hreused, -⟩ := reuse_later hrun htoken hkind hused hlater now' accessHash' refreshHash'
    rw [hagain] at hreused
    cases hreused

end

/-- The database after a call. -/
def afterCall (call : SessionCall) (file : DatabaseFile) : DatabaseFile :=
  match call.perform file with
  | .ok (tables, _) => { file with tables }
  | .error _ => file

theorem run_afterCall (call : SessionCall) (file : DatabaseFile) :
    SessionRun file (afterCall call file) := by
  unfold afterCall
  split
  · rename_i h
    exact .single (.commit h)
  · exact .refl

/-- A native sign-in whose refresh token has been exchanged. -/
def exchanged : DatabaseFile :=
  afterCall (.refresh 2 ⟨0, 0⟩ 3 4) <| afterCall
    (.createNativeSession ⟨"user", "issuer", "subject", "mail", "name", ""⟩ "device" "ios" ⟨0, 0⟩
      "session" 1 2) (newDatabase 0)

theorem refresh_rotation_exchanged : ∃ tables generation,
    (SessionCall.refresh 2 ⟨5, 0⟩ 5 6).perform exchanged =
        .ok (tables, .reused "session" generation) ∧
      OnlyRevoked "session" exchanged.tables tables :=
  (refresh_rotation ((run_afterCall _ _).trans (run_afterCall _ _))).2.2
    ⟨2, "session", .refresh, 0, 2592000000, some 0, none⟩ (by decide +kernel) rfl rfl exchanged .refl
    ⟨5, 0⟩ 5 6

end Pomodorough.Store.RefreshRotation
