import Pomodorough.Web.ReferenceCore

/-! # The fence of the gate

A tab holds the gate for the time of its lease. The transactions on the gate and on
the resolution compare the tab's token before they write, except the one that marks
a resolution before it is sent: it compares the gate with the resolution, and then
writes a gate of its own tab. -/
namespace Pomodorough.Web
open Pomodorough.Library.Fallible
open Pomodorough.Library

/-- What one transaction makes of the gate and the resolution. -/
inductive GateStep (core : Core) (database written : Database) : Transaction → Prop where
  | kept {t} (gate : written.bootstrapGate = database.bootstrapGate)
      (resolution : written.bootstrapResolution = database.bootstrapResolution) :
      GateStep core database written t
  | acquired {input} (free : ¬ Fenced database input.token input.nowMs)
      (gate : written.bootstrapGate = some (boundBootstrapLease input))
      (resolution : written.bootstrapResolution =
        database.bootstrapResolution.map (Resolution.heldBy input.token)) :
      GateStep core database written (.acquireGate input)
  | invalidated {input binding} (free : ¬ Fenced database input.token input.nowMs)
      (gate : written.bootstrapGate = some (boundBootstrapLease input))
      (resolution : written.bootstrapResolution =
        (database.bootstrapResolution.filter (·.OfUser input.caller.currentUserId)).map
          (Resolution.heldBy input.token)) :
      GateStep core database written (.invalidate input binding)
  | released {token caller} (own : ¬ foreignGate database.bootstrapGate token)
      (unresolved : database.bootstrapResolution = none)
      (gate : written.bootstrapGate = none) (resolution : written.bootstrapResolution = none) :
      GateStep core database written (.clearGate token caller)
  | cleanedUp {tabId caller} (unresolved : database.bootstrapResolution = none)
      (gate : written.bootstrapGate =
        database.bootstrapGate.filter fun gate => gate.token ≠ tabId)
      (resolution : written.bootstrapResolution = none) :
      GateStep core database written (.confirmCleanup tabId caller)
  | captured {input} (pending : Resolution) (captured : Captured input database pending written)
      (gate : written.bootstrapGate = database.bootstrapGate)
      (resolution : written.bootstrapResolution = some pending) :
      GateStep core database written (.capture input)
  | sent {input pending} (admitted : SendAdmitted core input pending database)
      (gate : written.bootstrapGate = some (boundBootstrapLease input))
      (resolution : written.bootstrapResolution = some pending.claimed) :
      GateStep core database written (.send input pending)
  | rotated {input} (captured rotated : Resolution)
      (rotation : Rotated database input captured rotated)
      (gate : written.bootstrapGate = database.bootstrapGate)
      (resolution : written.bootstrapResolution = some rotated) :
      GateStep core database written (.normalize input)
  | applied {pending canonical} (gate : written.bootstrapGate = none)
      (resolution : written.bootstrapResolution = none)
      (applied : ResolutionApplied core pending canonical database written) :
      GateStep core database written (.resolution pending canonical)
  | cleared {caller} (empty : written = Database.empty) :
      GateStep core database written (.clear caller)

section
variable {core : Core} {database written : Database} {t : Transaction} {input : GateInput}
  {pending : Resolution}

theorem exec_gate (h : t.exec core database = .ok written) : GateStep core database written t := by
  cases t with
  | mutate input =>
    obtain ⟨plan, h⟩ := exec_outcome h
    have hkept := (planWorkspaceMutation_ok h).kept
    exact .kept hkept.gate hkept.resolution
  | claim input =>
    obtain ⟨outcome, h⟩ := exec_outcome h
    rcases (claimWorkspaceBatch_ok h).2 with ⟨_, _, rfl, _⟩ | ⟨_, hnew⟩
    · exact .kept rfl rfl
    · exact .kept (newClaim_ok hnew).1.gate (newClaim_ok hnew).1.resolution
  | discardClaim input =>
    obtain ⟨outcome, h⟩ := exec_outcome h
    obtain ⟨_, _, _, _, hnew⟩ := discardUnrecoverableSavedClaim_ok h
    exact .kept (newClaim_ok hnew).1.gate (newClaim_ok hnew).1.resolution
  | syncResponse input =>
    obtain ⟨plan, h⟩ := exec_outcome h
    cases (applySyncResponse_ok h).2 with
    | ignored hkept => exact .kept (by rw [hkept]) (by rw [hkept])
    | stale _ _ _ hkept => exact .kept hkept.gate hkept.resolution
    | apply _ hspec => exact .kept hspec.gate hspec.resolution
  | resolution pending canonical =>
    obtain ⟨outcome, h⟩ := exec_outcome h
    rcases (applyResolution_ok h).2 with ⟨_, _, hkept⟩ | ⟨_, hspec⟩
    · exact .kept hkept.gate hkept.resolution
    · exact .applied hspec.cleared.2.2 hspec.cleared.2.1 hspec
  | acquireGate input =>
    obtain ⟨outcome, h⟩ := exec_outcome h
    rcases acquireBootstrapGate_ok h with rfl | ⟨hfree, rfl⟩
    · exact .kept rfl rfl
    · exact .acquired hfree rfl rfl
  | clearGate token caller =>
    obtain ⟨hnone, hown, rfl⟩ := clearBootstrapGate_ok h
    exact .released hown hnone rfl hnone
  | invalidate input binding =>
    obtain ⟨outcome, h⟩ := exec_outcome h
    rcases invalidateForeignResolution_ok h with rfl | ⟨hfree, rfl⟩
    · exact .kept rfl rfl
    · exact .invalidated hfree rfl rfl
  | capture input =>
    obtain ⟨pending, h⟩ := exec_outcome h
    have hcaptured := captureResolution_ok h
    obtain ⟨encoded, _, hwritten⟩ := hcaptured.wrote
    exact .captured pending hcaptured (by rw [hwritten]) (by rw [hwritten])
  | send input pending =>
    obtain ⟨claimed, h⟩ := exec_outcome h
    obtain ⟨hadmitted, _, rfl⟩ := validatePendingForSend_iff.mp h
    exact .sent hadmitted rfl rfl
  | normalize input =>
    obtain ⟨result, h⟩ := exec_outcome h
    have hspec := normalizeLegacyDurationOperations_ok h
    rcases hspec.rotated with hkept | ⟨captured, rotated, hresult, hrotation⟩
    · exact .kept (by rw [hspec.wrote]) (by rw [hspec.wrote]; exact hkept)
    · exact .rotated captured rotated hrotation (by rw [hspec.wrote])
        (by rw [hspec.wrote]; exact hresult)
  | preferences input =>
    obtain ⟨plan, h⟩ := exec_outcome h
    have hkept := (migrateLegacyPreferences_ok h).kept
    exact .kept hkept.gate hkept.resolution
  | settingsDurations caller =>
    have hkept := (migrateDurationQueueFromSettings_ok h).1
    exact .kept hkept.gate hkept.resolution
  | clear caller => exact .cleared (clearLocalData_ok h)
  | confirmCleanup tabId caller =>
    obtain ⟨rfl, hnone⟩ := confirmCleanupAlreadyComplete_ok h
    exact .cleanedUp hnone rfl hnone
  | _ =>
    have hkept := exec_plain (by trivial) h
    exact .kept hkept.gate hkept.resolution

/-! ## The fence -/

/-- The transaction is one of the tab with this token, at this time where it reads
one. -/
def Transaction.By (token : String) (nowMs : Nat) : Transaction → Prop
  | .acquireGate input | .invalidate input _ | .send input _ =>
    input.token = token ∧ input.nowMs = nowMs
  | .clearGate held _ | .confirmCleanup held _ => held = token
  | .capture input => input.gateToken = token
  | .normalize input => ∀ held ∈ input.gateToken, held = token
  | _ => True

/-- The result of a resolution is applied, or all local data is cleared. -/
def Transaction.Resolves : Transaction → Prop
  | .resolution .. | .clear _ => True
  | _ => False

/-- While the gate is another token's and its lease is live, the transaction leaves
the gate and the resolution as they are. -/
def Fences (core : Core) (database : Database) (t : Transaction) : Prop :=
  ∀ token nowMs, t.By token nowMs → ¬ t.Resolves → Fenced database token nowMs →
    (step core database t).bootstrapGate = database.bootstrapGate ∧
      (step core database t).bootstrapResolution = database.bootstrapResolution

/-- The gate is that of the resolution's token, where both are stored. -/
def GateAgrees (database : Database) : Prop :=
  ∀ gate ∈ database.bootstrapGate, ∀ resolution ∈ database.bootstrapResolution,
    gate.token = resolution.gateToken

instance (database : Database) : Decidable (GateAgrees database) :=
  inferInstanceAs (Decidable (∀ gate ∈ database.bootstrapGate,
    ∀ resolution ∈ database.bootstrapResolution, _))

/-- A resolution is only sent by the tab whose token it has. -/
def SendsOwn (core : Core) (database : Database) : Transaction → Prop
  | .send input pending => SendAdmitted core input pending database →
      input.token = pending.gateToken
  | _ => True

theorem GateStep.agrees (hstep : GateStep core database written t) (hagrees : GateAgrees database)
    (hown : SendsOwn core database t) : GateAgrees written := by
  intro gate hgate resolution hresolution
  rw [Option.mem_def] at hgate hresolution
  cases hstep with
  | kept hkept hsame => exact hagrees gate (hkept ▸ hgate) resolution (hsame ▸ hresolution)
  | acquired _ hwritten hheld | invalidated _ hwritten hheld =>
    rw [hwritten, Option.some.injEq] at hgate
    rw [hheld, Option.map_eq_some_iff] at hresolution
    obtain ⟨stored, _, rfl⟩ := hresolution
    rw [← hgate]
    rfl
  | released _ _ hwritten _ | applied hwritten _ _ =>
    rw [hwritten] at hgate
    cases hgate
  | cleanedUp _ _ hnone =>
    rw [hnone] at hresolution
    cases hresolution
  | captured pending hcaptured hkept hwritten =>
    rw [hwritten, Option.some.injEq] at hresolution
    obtain ⟨held, hheld, htoken⟩ := not_foreignGate.mp hcaptured.gate
    rw [hkept, hheld, Option.some.injEq] at hgate
    rw [← hgate, ← hresolution, htoken, hcaptured.captured.2.1]
  | sent hadmitted hwritten hclaimed =>
    rw [hwritten, Option.some.injEq] at hgate
    rw [hclaimed, Option.some.injEq] at hresolution
    rw [← hgate, ← hresolution]
    exact hown hadmitted
  | rotated captured rotated hrotation hkept hwritten =>
    rw [hwritten, Option.some.injEq] at hresolution
    obtain ⟨token, _, hfree, hrotated, _⟩ := hrotation.gate
    obtain ⟨held, hheld, htoken⟩ := not_foreignGate.mp hfree
    rw [hkept, hheld, Option.some.injEq] at hgate
    rw [← hgate, ← hresolution, htoken, hrotated]
  | cleared hempty =>
    rw [hempty] at hgate
    cases hgate

theorem GateStep.fenced {token : String} {nowMs : Nat}
    (hstep : GateStep core database written t) (hown : SendsOwn core database t)
    (hby : t.By token nowMs) (hresolves : ¬ t.Resolves) (hfenced : Fenced database token nowMs) :
    written.bootstrapGate = database.bootstrapGate ∧
      written.bootstrapResolution = database.bootstrapResolution := by
  cases hstep with
  | kept hkept hsame => exact ⟨hkept, hsame⟩
  | acquired hfree _ _ | invalidated hfree _ _ =>
    obtain ⟨rfl, rfl⟩ := hby
    exact absurd hfenced hfree
  | released hheld _ _ _ =>
    rw [hby] at hheld
    exact absurd hfenced.1 hheld
  | cleanedUp hnone hwritten hresolution =>
    refine ⟨?_, hresolution.trans hnone.symm⟩
    obtain ⟨held, hheld, _⟩ := hfenced.2
    have hother : held.token ≠ token := fun htoken => hfenced.1 (by rw [hheld, ← htoken]; rfl)
    rw [← hby] at hother
    rw [hwritten, hheld]
    exact Option.filter_some_pos (decide_eq_true hother)
  | captured _ hcaptured _ _ =>
    rw [← hby] at hfenced
    exact absurd hfenced.1 hcaptured.gate
  | sent hadmitted _ _ =>
    obtain ⟨rfl, rfl⟩ := hby
    have hheld := (validateResolutionApply_ok hadmitted.held).2
    rw [← hown hadmitted] at hheld
    exact absurd hfenced.1 hheld
  | rotated _ _ hrotation _ _ =>
    obtain ⟨held, hgiven, hfree, _⟩ := hrotation.gate
    rw [hby held hgiven] at hfree
    exact absurd hfenced.1 hfree
  | applied | cleared => exact absurd trivial hresolves

/-- A step that is sent by the resolution's own tab, where it sends. -/
theorem fences_and_agrees (hagrees : GateAgrees database) (hown : SendsOwn core database t) :
    Fences core database t ∧ GateAgrees (step core database t) := by
  constructor
  · intro token nowMs hby hresolves hfenced
    exact step_induction (P := fun written => written.bootstrapGate = database.bootstrapGate ∧
      written.bootstrapResolution = database.bootstrapResolution) ⟨rfl, rfl⟩
      fun written h => (exec_gate h).fenced hown hby hresolves hfenced
  · exact step_induction (P := GateAgrees) hagrees fun written h => (exec_gate h).agrees hagrees hown

/-- A send by another tab leaves its own gate beside the resolution. -/
theorem sendsOwn_of_agrees (hagrees : GateAgrees (step core database t)) :
    SendsOwn core database t := by
  cases t with
  | send input pending =>
    intro hadmitted
    have hsent := validatePendingForSend_iff.mpr ⟨hadmitted, rfl, rfl⟩
    have hstep : step core database (.send input pending) = _ :=
      step_ok (map_ok_iff.mpr ⟨_, hsent, rfl⟩)
    rw [hstep] at hagrees
    exact hagrees _ rfl pending.claimed rfl
  | _ => trivial

/-- A resolution is applied only where the gate is that of its token. -/
theorem ResolutionApplied.agrees {canonical : ResponseInput}
    (h : ResolutionApplied core pending canonical database written) : GateAgrees database := by
  intro gate hgate resolution hresolution
  rw [Option.mem_def] at hgate hresolution
  obtain ⟨held, hheld, htoken⟩ := not_foreignGate.mp h.gate
  rw [hheld, Option.some.injEq] at hgate
  rw [h.stored, Option.some.injEq] at hresolution
  rw [← hgate, ← hresolution, htoken]

end

/-- The gate is a fence, and it is the stored resolution's gate, throughout a run
exactly where every resolution that is sent in it is sent by the tab whose token it
has. -/
theorem gate_fenced_iff (core : Core) (database : Database) (ts : List Transaction)
    (hagrees : GateAgrees database) :
    Traces.Meets (step core)
        (fun s t => Fences core s t ∧ GateAgrees (step core s t)) database ts ↔
      Traces.Meets (step core) (SendsOwn core) database ts := by
  constructor
  · intro h
    exact h.mono fun s t hst => sendsOwn_of_agrees hst.2
  · intro h
    induction ts generalizing database with
    | nil => trivial
    | cons t ts ih =>
      have hst := fences_and_agrees hagrees h.1
      exact ⟨hst, ih _ hst.2 h.2⟩

/-! ## Two tabs -/

/-- A signed-out database, and what a tab tells of itself once the user has signed
in. -/
def referenceSignedOut : Database :=
  { referenceDatabase with snapshot := some ⟨0, none, none, referenceBase⟩ }

def referenceSignedIn : Caller :=
  { referenceCaller with ownerId := none, expectedUserId := some none }

def referenceGate (token : String) (nowMs : Nat) : GateInput where
  caller := referenceSignedIn
  token := token
  nowMs := nowMs
  leaseMs := 15000

def referenceCapture (token : String) : CaptureInput where
  caller := referenceSignedIn
  userId := "account:v1:1"
  requestId := "request"
  deviceId := "device"
  expectedRevision := 5
  strategy := .merge
  autoStartOperationsPresent := true
  gateToken := token
  replaceExisting := false

/-- What `referenceCapture` captures of an empty database. -/
def referenceResolution (token : String) : Resolution where
  userId := "account:v1:1"
  payload := ⟨"request", "device", 5, .merge, fun _ => [], true⟩
  queueIds := fun _ => []
  deliveryState := .neverSent
  gateToken := token
  sourceOwnerId := some none

/-- A tab takes the gate and captures a resolution. -/
def referenceCaptured : Database :=
  run referenceCore referenceSignedOut
    [.acquireGate (referenceGate "owner" 1000), .capture (referenceCapture "owner")]

/-- The tab that captured the resolution sends it. -/
theorem reference_gate_fenced :
    Traces.Meets (step referenceCore)
      (fun s t => Fences referenceCore s t ∧ GateAgrees (step referenceCore s t))
      referenceCaptured
      [.send (referenceGate "owner" 2000) (referenceResolution "owner"),
        .acquireGate (referenceGate "other" 3000)] := by
  refine (gate_fenced_iff referenceCore referenceCaptured _ (by decide +kernel)).mpr ?_
  exact ⟨fun _ => rfl, trivial, trivial⟩

/-- Another tab sends the resolution that it has read: the gate becomes its own while
the lease is live, and no tab can apply a resolution. -/
theorem reference_gate_stolen :
    let send := Transaction.send (referenceGate "other" 2000) (referenceResolution "owner")
    let sent := step referenceCore referenceCaptured send
    ¬ Fences referenceCore referenceCaptured send ∧ GateAgrees referenceCaptured ∧
      ¬ GateAgrees sent ∧
      ∀ pending canonical written outcome,
        applyResolution referenceCore pending canonical sent = .ok (written, outcome) →
        outcome.applied = false := by
  intro send sent
  have hdisagrees : ¬ GateAgrees sent := by decide +kernel
  refine ⟨?_, by decide +kernel, hdisagrees, ?_⟩
  · intro hfences
    have hkept := (hfences "other" 2000 ⟨rfl, rfl⟩ id (by decide +kernel)).1
    revert hkept
    decide +kernel
  · intro pending canonical written outcome h
    rcases (applyResolution_ok h).2 with ⟨hskipped, _⟩ | ⟨_, hspec⟩
    · exact hskipped
    · exact absurd hspec.agrees hdisagrees

end Pomodorough.Web
