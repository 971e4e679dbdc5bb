import Pomodorough.Server.RequestFence
import Pomodorough.Store.RefreshRotation
import Pomodorough.Store.TrackedFiles

/-! # Revocation is final

The requests of one account, with the sessions its sign-ins, refreshes and
revocations leave in its databases. A session belongs to one database, which a
deletion or a new account takes off the path for good. -/
namespace Pomodorough.Server.Revocation
open Pomodorough.Library.AtomicSteps Pomodorough.Library.Fallible Pomodorough.Library.Serialized
open Pomodorough.Store.Records Pomodorough.Store.SharedCoreValidation Pomodorough.Store.SharedCore
open Pomodorough.Store.DeletionLedger Pomodorough.Store.Accounts Pomodorough.Store.LedgerSpec
open Pomodorough.Store.OperationLogs Pomodorough.Store.Sync Pomodorough.Store.Bootstrap
open Pomodorough.Store.Transactions
open Pomodorough.Store.Orderly Pomodorough.Store.LockedCalls Pomodorough.Store.GenerationFence
open Pomodorough.Store.Sessions Pomodorough.Store.SessionFamilies Pomodorough.Store.RefreshRotation
open Pomodorough.Store.TrackedFiles
open Pomodorough.Store
open Pomodorough.Store.AccountRuns (absentTimerCore)
open Pomodorough.Server.Principals Pomodorough.Server.RequestFence
open Relation (ReflTransGen)

/-! ## What the calls do to sessions -/

/-- The tables after a session call; one that fails leaves them. -/
def applyCall (generation : Option Nat) (t : UserTables) (call : SessionCall) : UserTables :=
  match call.perform ⟨0, currentSchemaVersion, generation, t⟩ with
  | .ok (tables, _) => tables
  | .error _ => t

/-- The session calls of one sign-in or refresh. -/
def applyCalls (generation : Option Nat) (calls : List SessionCall) (t : UserTables) : UserTables :=
  calls.foldl (applyCall generation) t

/-- A sign-in or a refresh changes the tables by session calls. -/
def ofSessions : LockedCall → Prop
  | .signIn change _ | .refresh change => ∃ generation calls, change = applyCalls generation calls
  | _ => True

/-- One account of the server, whose sign-ins and refreshes are those of
`auth.go`. -/
def sessionServer (core : Core) (sha256 : Sha256) (userID : String) :
    Machine AccountDisk Traffic LockedCall (Except StoreError Answer) :=
  { server core sha256 userID with
    start := fun call w w' => ofSessions call ∧ (server core sha256 userID).start call w w' }

theorem applyCall_effects (generation : Option Nat) {t : UserTables} (ht : Families t)
    (call : SessionCall) : Effects t (applyCall generation t call) := by
  unfold applyCall
  split
  · rename_i h
    exact perform_effects ht h
  · exact .refl

theorem applyCalls_effects {generation : Option Nat} {t : UserTables} (ht : Families t)
    (calls : List SessionCall) : Effects t (applyCalls generation calls t) := by
  induction calls generalizing t with
  | nil => exact .refl
  | cons call calls ih =>
    have hcall := applyCall_effects generation ht call
    exact hcall.trans (ih (hcall.families ht))

/-- Both tables of sessions as they were. -/
structure SameSessions (t t' : UserTables) : Prop where
  sessions : t'.authSessions = t.authSessions
  tokens : t'.authTokens = t.authTokens

section
variable {core : Core} {sha256 : Sha256} {t t' u : UserTables} {now : Time} {result : SyncResult}
  {reduction : AccountReduction}

theorem SameSessions.trans (h : SameSessions t t') (h' : SameSessions t' u) : SameSessions t u :=
  ⟨h'.sessions.trans h.sessions, h'.tokens.trans h.tokens⟩

theorem SameSessions.effects (h : SameSessions t t') : Effects t t' :=
  .single (.aside h.sessions h.tokens)

theorem sameSessions_applyOperations {request : SyncRequest} {applied : OperationApplication}
    (h : applyOperations t request = .ok (t', applied)) : SameSessions t t' := by
  obtain ⟨_, -, h⟩ := bind_ok_iff.mp h
  obtain ⟨_, -, h⟩ := bind_ok_iff.mp h
  obtain ⟨_, -, h⟩ := bind_ok_iff.mp h
  obtain ⟨_, -, h⟩ := bind_ok_iff.mp h
  obtain ⟨_, -, h⟩ := bind_ok_iff.mp h
  cases h
  exact ⟨rfl, rfl⟩

theorem sameSessions_persistReduction {revision : Int}
    (h : persistReduction t reduction revision = .ok t') : SameSessions t t' := by
  obtain ⟨-, rfl⟩ := persistReduction_ok h
  exact ⟨rfl, rfl⟩

theorem sameSessions_persistIfChanged {changed : Bool} {revision : Int}
    (h : persistIfChanged t reduction revision changed = .ok t') : SameSessions t t' := by
  unfold persistIfChanged at h
  split at h
  · exact sameSessions_persistReduction h
  · cases h
    exact ⟨rfl, rfl⟩

theorem sameSessions_syncLocked {request : SyncRequest}
    (h : syncLocked core t request now = .ok (t', result)) : SameSessions t t' := by
  obtain ⟨⟨u, applied⟩, happlied, h⟩ := bind_ok_iff.mp h
  obtain ⟨_, -, h⟩ := bind_ok_iff.mp h
  obtain ⟨_, -, h⟩ := bind_ok_iff.mp h
  obtain ⟨_, hpersist, h⟩ := bind_ok_iff.mp h
  obtain ⟨_, -, h⟩ := bind_ok_iff.mp h
  cases h
  have hdevice : SameSessions t (recordSyncDevice t request.deviceID now) := ⟨rfl, rfl⟩
  exact (hdevice.trans (sameSessions_applyOperations happlied)).trans
    (sameSessions_persistReduction hpersist)

theorem sameSessions_materializeProjection
    (h : materializeProjection core t now = .ok (t', result)) : SameSessions t t' := by
  obtain ⟨_, -, h⟩ := bind_ok_iff.mp h
  obtain ⟨_, -, h⟩ := bind_ok_iff.mp h
  obtain ⟨_, hpersist, h⟩ := bind_ok_iff.mp h
  obtain ⟨_, -, h⟩ := bind_ok_iff.mp h
  cases h
  exact sameSessions_persistIfChanged hpersist

theorem sameSessions_applyBootstrapStrategy {request : BootstrapResolutionRequest}
    {submitted : SyncRequest} {application : BootstrapStrategyApplication}
    (h : applyBootstrapStrategy core t request submitted now = .ok (t', application)) :
    SameSessions t t' := by
  unfold applyBootstrapStrategy at h
  split at h
  · obtain ⟨_, -, h⟩ := bind_ok_iff.mp h
    cases h
    exact ⟨rfl, rfl⟩
  · split at h
    · obtain ⟨_, -, h⟩ := bind_ok_iff.mp h
      obtain ⟨⟨u, _⟩, happlied, h⟩ := bind_ok_iff.mp h
      obtain ⟨_, -, h⟩ := bind_ok_iff.mp h
      cases h
      have hcleared : SameSessions t (clearForBootstrapReplacement t
          request.autoStartOperationsPresent request.selectedTaskOperationsPresent) := ⟨rfl, rfl⟩
      exact hcleared.trans (sameSessions_applyOperations happlied)
    · obtain ⟨⟨u, _⟩, happlied, h⟩ := bind_ok_iff.mp h
      obtain ⟨_, -, h⟩ := bind_ok_iff.mp h
      cases h
      exact sameSessions_applyOperations happlied

theorem sameSessions_resolveBootstrap {request : BootstrapResolutionRequest}
    (h : Bootstrap.resolveBootstrap core sha256 t request now = .ok (t', result)) :
    SameSessions t t' := by
  obtain ⟨⟨submitted, payloadHash⟩, -, h⟩ := bind_ok_iff.mp h
  obtain ⟨stored, -, h⟩ := bind_ok_iff.mp h
  cases stored with
  | some stored =>
    cases h
    exact ⟨rfl, rfl⟩
  | none =>
    obtain ⟨_, -, h⟩ := bind_ok_iff.mp h
    obtain ⟨⟨u, application⟩, hstrategy, h⟩ := bind_ok_iff.mp h
    obtain ⟨⟨v, _, _⟩, hpersist, h⟩ := bind_ok_iff.mp h
    obtain ⟨_, -, hpersist⟩ := bind_ok_iff.mp hpersist
    obtain ⟨_, hwritten, hpersist⟩ := bind_ok_iff.mp hpersist
    cases hpersist
    obtain ⟨_, -, h⟩ := bind_ok_iff.mp h
    cases h
    have hrecorded := sameSessions_persistIfChanged hwritten
    exact (sameSessions_applyBootstrapStrategy hstrategy).trans ⟨hrecorded.sessions, hrecorded.tokens⟩

end

/-! ## What the calls do to databases -/

/-- Of a database in good order, sessions change in the known ways. -/
abbrev Carries : AccountDisk → AccountDisk → Prop := Track fun t t' => Families t → Effects t t'

section
variable {α : Type} {s t : AccountDisk} {db : DatabaseFile}

theorem Carries.trans {a b c : AccountDisk} (h : Carries a b) (h' : Carries b c) : Carries a c :=
  Track.trans (fun _ _ _ h h' ht => (h ht).trans (h' ((h ht).families ht))) h h'

theorem Carries.refl (s : AccountDisk) : Carries s s := Track.refl (fun _ _ => .refl) s

theorem carries_of_idle {a b : AccountDisk} (h : Idle a b) : Carries a b :=
  h.mono fun _ _ heq _ => heq ▸ .refl

theorem always_carries {x : DiskOp α} (h : Always Idle x) :
    Meets Idle Carries (fun _ _ => True) x s :=
  Meets.mono h.meets (fun _ _ => id) (fun _ _ => carries_of_idle) fun _ _ => id

theorem Opens.carries {x : DiskOp DatabaseFile} (h : Opens x s) :
    Meets Idle Carries (fun r t => ∀ db, r = .ok db → Handle db t) x s :=
  Meets.mono h (fun _ _ => id) (fun _ _ => carries_of_idle) fun _ _ => id

/-- A transaction that knows its database changes its sessions as it says. -/
theorem carries_transaction {operation : UserTables → Fallible (UserTables × α)}
    (hop : ∀ t t' a, operation t = .ok (t', a) → Families t → Effects t t') (h : Handle db s) :
    Meets Idle Carries (fun _ _ => True) (transaction db operation) s := by
  rw [transaction, meets_step]
  refine ⟨?_, fun _ _ => trivial⟩
  cases hoperation : operation db.tables with
  | error e => exact .refl s
  | ok result =>
    obtain ⟨tables, a⟩ := result
    refine ⟨le_refl _, fun file' hfile' => .inl ?_⟩
    obtain ⟨file, hfile, rfl⟩ := Option.map_eq_some_iff.mp hfile'
    refine ⟨file, hfile, ?_, fun ht => ?_⟩
    · split <;> rfl
    · split
      case isFalse => exact .refl
      case isTrue hinode =>
      rw [h.tables file hfile hinode] at ht ⊢
      exact hop _ _ _ hoperation ht

theorem carries_changeTables {change : UserTables → UserTables}
    (hchange : ∀ t, Families t → Effects t (change t)) (h : Handle db s) :
    Meets Idle Carries (fun _ _ => True) (changeTables db change) s := by
  refine Meets.bind (carries_transaction (fun t t' a heq ht => ?_) h) (fun result t _ => ?_)
    fun _ _ _ => trivial
  · cases heq
    exact hchange t ht
  · exact always_carries ((idle_closeDatabase db).bind fun _ => always_lift _)

theorem carries_withAccountGeneration {operation : UserTables → Fallible (UserTables × α)}
    {generation : Nat} (hs : Numbered s)
    (hop : ∀ t t' a, operation t = .ok (t', a) → Families t → Effects t t') :
    Meets Idle Carries (fun _ _ => True) (withAccountGeneration generation operation) s := by
  refine Meets.bind (Opens.carries (opens_openExistingUser hs)) (fun db t hdb => ?_)
    fun _ _ _ => trivial
  split
  · exact always_carries ((idle_closeDatabase db).bind fun _ => always_throw _)
  · split
    · exact always_carries ((idle_closeDatabase db).bind fun _ => always_throw _)
    · refine Meets.bind (carries_transaction hop (hdb db rfl)) (fun result u _ => ?_)
        fun _ _ _ => trivial
      exact always_carries ((idle_closeDatabase db).bind fun _ => always_lift _)

theorem carries_perform (core : Core) (sha256 : Sha256) (operation : Operation)
    (identity : Principal) (now : Time) (clock : WallClock) (hs : Numbered s) :
    Meets Idle Carries (fun _ _ => True) (operation.perform core sha256 identity now clock) s := by
  have hhistory : Meets Idle Carries (fun _ _ => True)
      (historyForGeneration core identity.generation now) s :=
    Meets.bind (carries_withAccountGeneration hs fun t t' a h _ =>
      (sameSessions_materializeProjection h).effects) (fun _ _ _ => trivial) fun _ _ _ => trivial
  cases operation with
  | sync request =>
    refine Meets.bind (Q := fun _ _ => True) ?_ (fun _ _ _ => trivial) fun _ _ _ => trivial
    rw [syncForGeneration, meets_bind, meets_lift]
    cases validateUniqueOperationIDs request with
    | error e => trivial
    | ok _ =>
      exact carries_withAccountGeneration hs fun t t' a h _ => (sameSessions_syncLocked h).effects
  | bootstrap =>
    exact Meets.bind (carries_withAccountGeneration hs fun t t' a h _ =>
      (sameSessions_materializeProjection h).effects) (fun _ _ _ => trivial) fun _ _ _ => trivial
  | history => exact Meets.bind hhistory (fun _ _ _ => trivial) fun _ _ _ => trivial
  | stream => exact Meets.bind hhistory (fun _ _ _ => trivial) fun _ _ _ => trivial
  | resolveBootstrap request =>
    exact Meets.bind (carries_withAccountGeneration hs fun t t' a h _ =>
      (sameSessions_resolveBootstrap h).effects) (fun _ _ _ => trivial) fun _ _ _ => trivial
  | updateCSRF csrfHash =>
    exact Meets.bind (carries_withAccountGeneration hs fun t t' a h _ =>
      .single (effect_updateCSRF h)) (fun _ _ _ => trivial) fun _ _ _ => trivial
  | revokeSession =>
    exact Meets.bind (carries_withAccountGeneration hs fun t t' a h _ =>
      .single (effect_revokeSession h)) (fun _ _ _ => trivial) fun _ _ _ => trivial
  | revokeDevice deviceID =>
    exact Meets.bind (carries_withAccountGeneration hs fun t t' a h _ =>
      .single (effect_revokeDevice h)) (fun _ _ _ => trivial) fun _ _ _ => trivial
  | deleteUser =>
    exact always_carries ((idle_deleteUserForGeneration _ _).bind fun _ => always_pure _)
  | deleteAccount =>
    exact always_carries ((idle_deleteUserWithReceipt _ _ _ _ _).bind fun _ => always_pure _)

theorem carries_body {core : Core} {sha256 : Sha256} {call : LockedCall} (hcall : ofSessions call)
    (hs : Numbered s) : Meets Idle Carries (fun _ _ => True) (call.body core sha256) s := by
  have hchange : ∀ change : UserTables → UserTables,
      (∃ generation calls, change = applyCalls generation calls) →
      ∀ t, Families t → Effects t (change t) := by
    rintro change ⟨generation, calls, rfl⟩ t ht
    exact applyCalls_effects ht calls
  cases call with
  | signIn change clock =>
    exact Meets.bind (Opens.carries (opens_openUser hs clock))
      (fun db t hdb => carries_changeTables (hchange change hcall) (hdb db rfl)) fun _ _ _ => trivial
  | refresh change =>
    exact Meets.bind (Opens.carries (opens_openExistingUser hs))
      (fun db t hdb => carries_changeTables (hchange change hcall) (hdb db rfl)) fun _ _ _ => trivial
  | deleteUser clock => exact always_carries ((idle_deleteUser clock).bind fun _ => always_pure _)
  | restart clock => exact always_carries ((idle_startAccount clock).bind fun _ => always_pure _)
  | operate request identity now clock =>
    exact carries_perform core sha256 request.operation identity now clock hs

end

/-! ## Every interleaving -/

/-- A request only reads while it authenticates. -/
theorem idle_authenticateCredential (userID : String) (credential : DeletionCredential)
    (removed : UserTables) (now : Time) :
    Always Idle (authenticateCredential userID credential removed now) := by
  refine idle_openExistingUser.bind fun db => Always.bind ((always_read _).mpr Idle.refl) fun _ => ?_
  refine (idle_closeDatabase db).bind fun _ => (always_lift _).bind fun _ => ?_
  exact (always_require _ _).bind fun _ => always_pure _

theorem idle_identify (request : Request) (userID : String) :
    Always Idle (request.identify userID) := by
  unfold Request.identify
  split
  · refine (idle_committedDeletionReceipt _).bind fun receipt => ?_
    cases receipt with
    | none => exact idle_authenticateCredential _ _ _ _
    | some receipt => exact always_pure _
  · exact idle_authenticateCredential _ _ _ _

/-- The database at the path is in good order, and requests only read. -/
structure Tidy (s : AccountDisk) (w : Traffic) : Prop where
  numbered : Numbered s
  families : ∀ file, s.file = some file → Families file.tables
  admissions : ∀ entry ∈ w.admissions, Steps Idle entry.2

section
variable {core : Core} {sha256 : Sha256} {userID : String} {s t : AccountDisk} {w w' : Traffic}

theorem Tidy.carries (h : Tidy s w) (hst : Carries s t) : Tidy t w := by
  refine ⟨Track.numbered hst h.numbered, fun file' hfile' => ?_, h.admissions⟩
  rcases hst.file file' hfile' with ⟨file, hfile, -, heffects⟩ | ⟨-, -, heffects⟩
  · exact (heffects (h.families file hfile)).families (h.families file hfile)
  · exact (heffects families_initial).families families_initial

theorem Tidy.beside (h : Tidy s w) (hstep : Beside userID (s, w) (t, w')) :
    Tidy t w' ∧ Idle s t := by
  cases hstep with
  | arrive request =>
    refine ⟨⟨h.numbered, h.families, fun entry hmem => ?_⟩, .refl s⟩
    rcases List.mem_cons.mp hmem with rfl | hold
    · exact idle_identify request userID
    · exact h.admissions entry hold
  | @act _ _ request u n before after hsplit =>
    have hentry := h.admissions (request, .act u n) (by rw [hsplit]; simp)
    have hidle : Idle s (u s) := hentry.1 s
    have hcarried := h.carries (carries_of_idle hidle)
    refine ⟨⟨hcarried.numbered, hcarried.families, fun entry hmem => ?_⟩, hidle⟩
    rcases List.mem_append.mp hmem with hold | hmem
    · exact h.admissions entry (by rw [hsplit]; simp [hold])
    · rcases List.mem_cons.mp hmem with rfl | hold
      · exact hentry.2 s
      · exact h.admissions entry (by rw [hsplit]; simp [hold])
  | @admitted _ _ request identity before after hsplit =>
    refine ⟨⟨h.numbered, h.families, fun entry hmem => h.admissions entry ?_⟩, .refl s⟩
    rw [hsplit]
    rcases List.mem_append.mp hmem with hold | hold <;> simp [hold]
  | @giveUp _ _ entry before after hsplit =>
    refine ⟨⟨h.numbered, h.families, fun other hmem => h.admissions other ?_⟩, .refl s⟩
    rw [hsplit]
    rcases List.mem_append.mp hmem with hold | hold <;> simp [hold]
  | leave _ => exact ⟨⟨h.numbered, h.families, h.admissions⟩, .refl s⟩
  | hub hhub =>
    refine ⟨?_, .refl s⟩
    cases hhub <;> exact ⟨h.numbered, h.families, h.admissions⟩
  | outside _ _ => exact ⟨⟨h.numbered, h.families, h.admissions⟩, .refl s⟩
  | shutdown => exact ⟨⟨h.numbered, h.families, h.admissions⟩, .refl s⟩

theorem session_rules : Rules (sessionServer core sha256 userID) (fun _ _ => True) Idle Carries
    (fun _ _ _ => True) Tidy where
  refl := Idle.refl
  trans := idle_trans
  others hJ h := hJ.beside h
  start {s w w' call} hJ h := by
    refine ⟨?_, fun t hst => carries_body h.1 (Track.numbered hst hJ.numbered)⟩
    cases call with
    | operate _ _ _ _ =>
      obtain ⟨_, _, _, rfl⟩ := h.2
      exact ⟨hJ.numbered, hJ.families, hJ.admissions⟩
    | restart _ =>
      obtain rfl : w' = .initial := h.2
      exact ⟨hJ.numbered, hJ.families, fun _ hmem => by cases hmem⟩
    | _ =>
      obtain rfl : w' = w := h.2
      exact hJ
  act hJ hG _ := hJ.carries hG
  finish {s w w' call r} hJ _ h := by
    cases call with
    | operate request identity now clock =>
      cases r with
      | none => obtain rfl : w' = w := h; exact hJ
      | some r =>
        cases r with
        | error e => obtain rfl : w' = w := h; exact hJ
        | ok a =>
          cases h
          exact ⟨hJ.numbered, hJ.families, hJ.admissions⟩
    | _ => obtain rfl : w' = w := h; exact hJ

theorem initial_tidy : Tidy AccountDisk.blank Traffic.initial :=
  ⟨fun _ h => (by cases h), fun _ h => (by cases h), fun _ h => (by cases h)⟩

theorem run_tidy {c : ServerConfig}
    (hrun : Runs (sessionServer core sha256 userID) (fun _ _ => True) ServerConfig.initial c) :
    Holds Idle Carries (fun _ _ _ => True) Tidy c := session_rules.runs (.idle initial_tidy) hrun

theorem run_server {c c' : ServerConfig} {ok : ServerConfig → ServerConfig → Prop}
    (hrun : Runs (sessionServer core sha256 userID) ok c c') :
    Runs (server core sha256 userID) ok c c' :=
  Runs.weaken hrun rfl rfl (fun _ _ _ h => h.2) rfl

/-- While it is at the path, a database keeps every row it had. -/
theorem run_later {c₁ c₂ : ServerConfig} {file₁ file₂ : DatabaseFile}
    (hrun : Runs (sessionServer core sha256 userID) (fun _ _ => True) ServerConfig.initial c₁)
    (hlater : Runs (sessionServer core sha256 userID) (fun _ _ => True) c₁ c₂)
    (h₁ : c₁.shared.file = some file₁) (h₂ : c₂.shared.file = some file₂)
    (hsame : file₂.inode = file₁.inode) : Later file₁.tables file₂.tables := by
  have hholds := run_tidy hrun
  have hcarries : Carries c₁.shared c₂.shared :=
    session_rules.runs_shared id carries_of_idle Carries.trans hholds hlater
  rcases hcarries.file file₂ h₂ with ⟨file, hfile, -, heffects⟩ | ⟨hle, -, -⟩
  · rw [h₁] at hfile
    cases hfile
    exact (heffects (hholds.inv.families file₁ h₁)).later
  · -- a new database has an inode of its own
    have hlt := hholds.inv.numbered file₁ h₁
    omega

/-! ## Deletions -/

/-- A deletion raises the tombstone only for a session that is live in the
database at the path. -/
theorem deletion_needs_session {s₀ : AccountDisk} {w₀ w₁ : Traffic} {request : Request}
    {identity : Principal} {now : Time} {clock : WallClock} {c : ServerConfig}
    (hrun : Runs (server core sha256 userID) (fun _ _ => True) ServerConfig.initial ⟨s₀, w₀, none⟩)
    (hop : request.operation = .deleteAccount)
    (hstart : (server core sha256 userID).start (.operate request identity now clock) w₀ w₁)
    (hheld : Runs (server core sha256 userID) (fun _ c' => c'.current.isSome)
      ⟨s₀, w₁, some (.operate request identity now clock,
        (server core sha256 userID).body (.operate request identity now clock))⟩ c)
    (hdead : ∀ file, s₀.file = some file →
      liveDeletionSession file.tables identity.credential identity.sessionID = false) :
    tombstone c.shared = tombstone s₀ := by
  have hinitial : Holds Foreign Onward (fun _ _ _ => True) InOrder ServerConfig.initial :=
    .idle initial_inOrder
  have hJ : InOrder s₀ w₀ := (server_rules.runs hinitial hrun).inv
  obtain ⟨before, after, hsplit, -⟩ := id hstart
  have hentry := hJ.admitted (request, identity) (by rw [hsplit]; simp)
  have hsafe : Safe Foreign (Moves fun _ => False) (fun _ _ => True)
      ((server core sha256 userID).body (.operate request identity now clock)) s₀ := by
    intro t hst
    obtain ⟨hpossible, -⟩ := hentry.onward hst.onward identity rfl
    show Meets _ _ _ (request.operation.perform core sha256 identity now clock) t
    rw [hop]
    refine Meets.bind (locked_deleteUserWithReceipt (hst.onward.orderly hJ.account) hpossible.1
      hpossible.2 fun file' hlive hsession => ?_) (fun _ _ _ => trivial) fun _ _ _ => trivial
    obtain ⟨file, hlive₀, htables⟩ := hlive.origin hst
    rw [htables, Option.all_some, hdead file hlive₀.path] at hsession
    cases hsession
  have hholds : Holds Foreign Onward (fun _ _ _ => True) InOrder
      (⟨s₀, w₁, some (.operate request identity now clock,
        (server core sha256 userID).body (.operate request identity now clock))⟩ : ServerConfig) :=
    server_rules.step (.idle hJ) (.start hstart) trivial
  exact server_rules.during_shared (T := fun s t => tombstone t = tombstone s)
    (fun h => h.deletes.resolve_right id) (fun h => h.ledger.tombstone) (fun h h' => h'.trans h)
    hholds hsafe (hheld.mono fun _ _ h => ⟨trivial, h⟩)

/-! ## A revoked session -/

/-- No token of a revoked session is live. -/
structure Ended (sessionID : String) (t : UserTables) : Prop where
  session : ∃ session ∈ t.authSessions, session.id = sessionID ∧ session.revokedAtMs.isSome
  tokens : ∀ token ∈ t.authTokens, token.sessionID = sessionID → token.revokedAtMs.isSome

theorem Families.ended {t : UserTables} (ht : Families t) {session : AuthSession}
    (hsession : session ∈ t.authSessions) (hrevoked : session.revokedAtMs.isSome) :
    Ended session.id t :=
  ⟨⟨session, hsession, rfl, hrevoked⟩, ht.revoked session hsession hrevoked⟩

theorem ended_later {t t' : UserTables} {sessionID : String} (h : Ended sessionID t)
    (ht' : Families t') (hlater : Later t t') : Ended sessionID t' := by
  obtain ⟨session, hsession, rfl, hrevoked⟩ := h.session
  obtain ⟨session', hsession', hsame⟩ := hlater.sessions session hsession
  exact hsame.id ▸ Families.ended ht' hsession' (hsame.revoked hrevoked)

variable {file : DatabaseFile} {sessionID : String}

/-- Nobody is authenticated for a revoked session. -/
theorem Ended.authenticate (h : Ended sessionID file.tables) (ht : Families file.tables)
    {tokenHash : Hash} {kind : TokenKind} {now : Time} {info : AuthInfo}
    (hinfo : Sessions.authenticate file tokenHash kind now = .ok info) : info.sessionID ≠ sessionID := by
  unfold Sessions.authenticate at hinfo
  split at hinfo
  · cases hinfo
  · rename_i token session profile generation hrow
    split at hinfo
    · cases hinfo
    · rename_i hvalid
      cases hinfo
      simp only [authenticationRow, Option.bind_eq_bind, Option.bind_eq_some_iff,
        Option.pure_def, Option.some.injEq, Prod.mk.injEq] at hrow
      obtain ⟨_, -, found, hfound, _, -, _, -, rfl, rfl, -, -⟩ := hrow
      rintro rfl
      obtain ⟨revoked, hrevoked, hid, hsome⟩ := h.session
      have heq : revoked = found :=
        List.inj_on_of_nodup_map ht.ids hrevoked (List.mem_of_find?_eq_some hfound) hid
      simp [← heq, hsome] at hvalid

/-- A token of a revoked session authenticates nobody. -/
theorem Ended.token_unauthorized (h : Ended sessionID file.tables) (ht : Families file.tables)
    {token : AuthToken} (htoken : token ∈ file.tables.authTokens)
    (hid : token.sessionID = sessionID) (kind : TokenKind) (now : Time) :
    Sessions.authenticate file token.tokenHash kind now = .error .unauthorized := by
  have hrevoked := h.tokens token htoken hid
  unfold Sessions.authenticate
  split
  · rfl
  · rename_i found session profile generation hrow
    simp only [authenticationRow, find_key ht.hashes htoken rfl, Option.bind_eq_bind,
      Option.bind_some, Option.bind_eq_some_iff, Option.pure_def, Option.some.injEq,
      Prod.mk.injEq] at hrow
    obtain ⟨_, -, _, -, _, -, rfl, -, -, -⟩ := hrow
    rw [if_pos]
    simp [hrevoked]

/-- A token of a revoked session is not exchanged. -/
theorem Ended.not_rotated (h : Ended sessionID file.tables) (ht : Families file.tables)
    {token : AuthToken} (htoken : token ∈ file.tables.authTokens)
    (hid : token.sessionID = sessionID) {access refresh : TokenRecord} {now : Time}
    {tables : UserTables} :
    rotateRefresh file token.tokenHash access refresh now ≠ .ok (tables, .rotated) := by
  intro hrotated
  have houtcome := rotateRefresh_outcome hrotated
  cases houtcome with
  | @rotated stored token' session _ hrow hlive hsession hwrite =>
    have heq : token' = token :=
      List.inj_on_of_nodup_map ht.hashes hrow.issued htoken hrow.hash
    have hrevoked := h.tokens token htoken hid
    rw [heq, liveRefresh] at hlive
    simp only [Bool.and_eq_true, Option.isNone_iff_eq_none] at hlive
    rw [hlive.2] at hrevoked
    cases hrevoked

/-- A token of a revoked session, or a request admitted for it, deletes nothing. -/
theorem Ended.not_liveDeletion (h : Ended sessionID file.tables) (ht : Families file.tables)
    {credential : DeletionCredential} {admitted : String}
    (hof : admitted = sessionID ∨ ∃ token ∈ file.tables.authTokens,
      token.tokenHash = credential.tokenHash ∧ token.sessionID = sessionID) :
    liveDeletionSession file.tables credential admitted = false := by
  rw [Bool.eq_false_iff]
  intro hlive
  obtain ⟨token, htoken, hlive⟩ := List.any_eq_true.mp hlive
  simp only [Bool.and_eq_true, beq_iff_eq, Option.isNone_iff_eq_none] at hlive
  obtain ⟨⟨⟨⟨hhash, -⟩, hid⟩, hnone⟩, -⟩ := hlive
  have hsome : token.revokedAtMs.isSome := by
    rcases hof with rfl | ⟨other, hother, hotherHash, hotherID⟩
    · exact h.tokens token htoken hid
    · have heq : other = token :=
        List.inj_on_of_nodup_map ht.hashes hother htoken (hotherHash.trans hhash.symm)
      exact h.tokens token htoken (heq ▸ hotherID)
  rw [hnone] at hsome
  cases hsome

/-- Revocation is final: in every run, once a session is revoked, whenever its
database is at the path later, every token of the session is revoked, none of
them authenticates anybody or is exchanged, no request is admitted for the
session, and no deletion of a request it had admitted before, or with one of its
tokens, raises the tombstone. -/
theorem revocation_is_final {c₁ c₂ : ServerConfig} {file₁ file₂ : DatabaseFile}
    {session : AuthSession}
    (hrun : Runs (sessionServer core sha256 userID) (fun _ _ => True) ServerConfig.initial c₁)
    (hlater : Runs (sessionServer core sha256 userID) (fun _ _ => True) c₁ c₂)
    (h₁ : c₁.shared.file = some file₁) (h₂ : c₂.shared.file = some file₂)
    (hsame : file₂.inode = file₁.inode) (hsession : session ∈ file₁.tables.authSessions)
    (hrevoked : session.revokedAtMs.isSome) :
    (∀ token ∈ file₂.tables.authTokens, token.sessionID = session.id →
      token.revokedAtMs.isSome ∧
      (∀ kind now, authenticate file₂ token.tokenHash kind now = .error .unauthorized) ∧
      ∀ access refresh now tables,
        rotateRefresh file₂ token.tokenHash access refresh now ≠ .ok (tables, .rotated)) ∧
    (∀ tokenHash kind now info, authenticate file₂ tokenHash kind now = .ok info →
      info.sessionID ≠ session.id) ∧
    ∀ (request : Request) (identity : Principal) (now : Time) (clock : WallClock) (w : Traffic)
      (c : ServerConfig), request.operation = .deleteAccount →
      (identity.sessionID = session.id ∨ ∃ token ∈ file₂.tables.authTokens,
        token.tokenHash = identity.credential.tokenHash ∧ token.sessionID = session.id) →
      c₂.current = none →
      (sessionServer core sha256 userID).start (.operate request identity now clock) c₂.parties w →
      Runs (sessionServer core sha256 userID) (fun _ c' => c'.current.isSome)
        ⟨c₂.shared, w, some (.operate request identity now clock,
          (sessionServer core sha256 userID).body (.operate request identity now clock))⟩ c →
      tombstone c.shared = tombstone c₂.shared := by
  have hfamilies₁ := (run_tidy hrun).inv.families file₁ h₁
  have hfamilies₂ := (run_tidy (hrun.trans hlater)).inv.families file₂ h₂
  have hended : Ended session.id file₂.tables :=
    ended_later (Families.ended hfamilies₁ hsession hrevoked) hfamilies₂
      (run_later hrun hlater h₁ h₂ hsame)
  refine ⟨fun token htoken hid => ⟨hended.tokens token htoken hid, fun kind now =>
    hended.token_unauthorized hfamilies₂ htoken hid kind now, fun access refresh now tables =>
    hended.not_rotated hfamilies₂ htoken hid⟩, fun tokenHash kind now info hinfo =>
    hended.authenticate hfamilies₂ hinfo, ?_⟩
  intro request identity now clock w c hop hof hcurrent hstart hheld
  obtain ⟨s, w₂, cur⟩ := c₂
  obtain rfl : cur = none := hcurrent
  refine deletion_needs_session (run_server (hrun.trans hlater)) hop hstart.2 (run_server hheld)
    fun file hfile => ?_
  rw [h₂] at hfile
  cases hfile
  exact hended.not_liveDeletion hfamilies₂ hof

end

/-- A native sign-in. -/
def nativeSignIn : LockedCall :=
  .signIn (applyCalls (some 1) [.createNativeSession
    ⟨"user", "issuer", "subject", "mail", "name", ""⟩ "device" "ios" ⟨0, 0⟩ "session" 1 2]) firstClock

def nativePrincipal : Principal := { sessionPrincipal with deviceID := "device" }

def nativeDisk : AccountDisk := ((nativeSignIn.body absentTimerCore noHash).exec .blank).2

/-- After the logout of the session. -/
def loggedOutDisk : AccountDisk :=
  (((sessionCall .revokeSession nativePrincipal).body absentTimerCore noHash).exec nativeDisk).2

/-- The session was revoked while a deletion of it was on its way. -/
def loggedOutTraffic : Traffic :=
  { Traffic.initial with
    admitted := [(sessionRequest .deleteAccount, nativePrincipal)]
    pending := [(nativePrincipal, .disconnectSession "session")] }

abbrev exampleSessions : Machine AccountDisk Traffic LockedCall (Except StoreError Answer) :=
  sessionServer absentTimerCore noHash "user"

theorem runs_sessionCall {call : LockedCall} {s : AccountDisk} {w w₁ w₂ : Traffic}
    {r : Except StoreError Answer × AccountDisk} (h : (call.body absentTimerCore noHash).exec s = r)
    (hsessions : ofSessions call) (hstart : call.start w w₁) (hfinish : call.finish (some r.1) w₁ w₂) :
    Runs exampleSessions (fun _ _ => True) ⟨s, w, none⟩ ⟨r.2, w₂, none⟩ :=
  Runs.call (M := exampleSessions) h ⟨hsessions, hstart⟩ hfinish trivial (fun _ _ _ _ => trivial)
    trivial

theorem runs_loggedOut :
    Runs exampleSessions (fun _ _ => True) ServerConfig.initial
      ⟨loggedOutDisk, loggedOutTraffic, none⟩ := by
  have hsignIn : (nativeSignIn.body absentTimerCore noHash).exec .blank = (.ok .done, nativeDisk) :=
    rfl
  have hadmission : ∀ operation, operation = .revokeSession ∨ operation = .deleteAccount →
      ((sessionRequest operation).identify "user").exec nativeDisk =
        (.ok nativePrincipal, nativeDisk) := by
    rintro _ (rfl | rfl) <;> rfl
  have hlogout : ((sessionCall .revokeSession nativePrincipal).body absentTimerCore noHash).exec
      nativeDisk = (.ok .done, loggedOutDisk) := rfl
  have hcreated : Runs exampleSessions (fun _ _ => True) ServerConfig.initial
      ⟨nativeDisk, .initial, none⟩ := runs_sessionCall hsignIn ⟨_, _, rfl⟩ rfl rfl
  have hboth : Runs exampleSessions (fun _ _ => True) ⟨nativeDisk, .initial, none⟩ _ :=
    (runs_admitted rfl (hadmission _ (.inr rfl))).trans (runs_admitted rfl (hadmission _ (.inl rfl)))
  refine (hcreated.trans hboth).trans ?_
  exact runs_sessionCall hlogout trivial ⟨[], _, rfl, rfl⟩ rfl

/-- The session as the logout left it. -/
def loggedOutSession : AuthSession where
  id := "session"
  kind := .native
  deviceID := some "device"
  platform := "ios"
  csrfHash := none
  createdAtMs := 0
  expiresAtMs := 2592000000
  revokedAtMs := some 0
  reuseDetectedAtMs := none

/-- A deletion that the logout overtook. -/
theorem revocation_loggedOut : ∃ c : ServerConfig,
    c.current = some (sessionCall .deleteAccount nativePrincipal, .ret (.error .unauthorized)) ∧
      tombstone c.shared = tombstone loggedOutDisk := by
  have hsession : ∃ file, loggedOutDisk.file = some file ∧
      loggedOutSession ∈ file.tables.authSessions := ⟨_, rfl, by decide +kernel⟩
  obtain ⟨file, hfile, hsession⟩ := hsession
  have hheld : Runs exampleSessions (fun _ c' => c'.current.isSome)
      ⟨loggedOutDisk, { loggedOutTraffic with admitted := [] },
        some (sessionCall .deleteAccount nativePrincipal,
          exampleSessions.body (sessionCall .deleteAccount nativePrincipal))⟩
      ⟨_, _, some (sessionCall .deleteAccount nativePrincipal, .ret _)⟩ :=
    Runs.rest (fun _ _ _ _ => rfl) _ _
  exact ⟨_, rfl, (revocation_is_final runs_loggedOut .refl hfile hfile rfl hsession rfl).2.2 _ _ _ _
    _ _ rfl (.inl rfl) rfl ⟨trivial, [], [], rfl, rfl⟩ hheld⟩

end Pomodorough.Server.Revocation
