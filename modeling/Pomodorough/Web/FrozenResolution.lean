import Pomodorough.Web.QueueRetention
import Pomodorough.Web.SnapshotRevisions

/-! # What may have been delivered

A resolution that may have been delivered keeps its request until it is applied,
replaced by another account or cleared, and so does a queued duration until Core
settles it. The transactions that could rewrite them refuse. -/
namespace Pomodorough.Web
open Pomodorough.Library.Fallible
open Pomodorough.Library

/-- A resolution with this request is stored, and may have been delivered. -/
def MaybeDelivered (payload : ResolutionPayload) (userId : String) (database : Database) : Prop :=
  ∃ resolution ∈ database.bootstrapResolution, resolution.payload = payload ∧
    resolution.userId = userId ∧ resolution.deliveryState = .possiblyDelivered

/-- What takes such a resolution off the store. -/
inductive Unfreezes (core : Core) (database : Database) (userId : String) : Transaction → Prop where
  | applied {pending canonical outcome written}
      (applied : applyResolution core pending canonical database = .ok (written, outcome))
      (outcome : outcome.applied = true) : Unfreezes core database userId (.resolution pending canonical)
  | invalidated {input binding} (other : input.caller.currentUserId ≠ some userId) :
      Unfreezes core database userId (.invalidate input binding)
  | cleared {caller written} (cleared : clearLocalData core caller database = .ok written) :
      Unfreezes core database userId (.clear caller)

/-- The duration operation is not proven to be unsent, or is in the stored claim. -/
def PossiblySent (database : Database) (id : String) : Prop :=
  ¬ Proven database.deliveryProof .durationOperations id ∨
    ∃ claim ∈ database.outgoingSync, id ∈ ids (claim.sent .durationOperations)

/-- What settles a duration operation: a response or a result that is applied, Core
that retires it, or a clear. -/
inductive Settles (core : Core) (database : Database) (id : String) : Transaction → Prop where
  | answered {input written plan}
      (applied : applySyncResponse core input database = .ok (written, .apply plan)) :
      Settles core database id (.syncResponse input)
  | resolved {pending canonical outcome written}
      (applied : applyResolution core pending canonical database = .ok (written, outcome))
      (outcome : outcome.applied = true) : Settles core database id (.resolution pending canonical)
  | retired {input plan written}
      (planned : planWorkspaceMutation core input database = .ok (written, plan))
      (retired : id ∈ plan.retiredDurationOperationIds) : Settles core database id (.mutate input)
  | cleared {caller written} (cleared : clearLocalData core caller database = .ok written) :
      Settles core database id (.clear caller)

section
variable {core : Core} {database written : Database} {t : Transaction} {x : Operation}

/-! ## The resolution -/

theorem maybeDelivered_or_unfrozen {payload : ResolutionPayload} {userId : String}
    (hexec : t.exec core database = .ok written) (h : MaybeDelivered payload userId database) :
    MaybeDelivered payload userId written ∨ Unfreezes core database userId t := by
  obtain ⟨resolution, hstored, hpayload, huser, hstate⟩ := h
  rw [Option.mem_def] at hstored
  cases exec_gate hexec with
  | kept _ hkept => exact Or.inl ⟨resolution, hkept.trans hstored, hpayload, huser, hstate⟩
  | acquired _ _ hheld =>
    rw [hstored] at hheld
    exact Or.inl ⟨_, hheld, hpayload, huser, hstate⟩
  | @invalidated input binding _ _ hheld =>
    by_cases hother : input.caller.currentUserId = some userId
    · have hmine : resolution.OfUser input.caller.currentUserId := by
        unfold Resolution.OfUser
        rw [huser, hother]
      rw [hstored, Option.filter_some, if_pos (decide_eq_true hmine)] at hheld
      exact Or.inl ⟨_, hheld, hpayload, huser, hstate⟩
    · exact Or.inr (.invalidated hother)
  | released _ hnone _ _ | cleanedUp hnone _ _ =>
    rw [hnone] at hstored
    cases hstored
  | captured _ hcaptured _ _ =>
    rw [(hcaptured.replaced resolution hstored).1] at hstate
    cases hstate
  | sent hadmitted _ hclaimed =>
    have hsame := hadmitted.stored.2
    rw [hstored, Option.some.injEq] at hsame
    subst hsame
    exact Or.inl ⟨_, hclaimed, hpayload, huser, rfl⟩
  | rotated captured rotated hrotation _ _ =>
    have hsame := hrotation.stored
    rw [hstored, Option.some.injEq] at hsame
    rw [hsame, hrotation.neverSent.1] at hstate
    cases hstate
  | applied _ _ _ =>
    obtain ⟨outcome, h⟩ := exec_outcome hexec
    rcases (applyResolution_ok h).2 with ⟨_, hstale, _⟩ | ⟨houtcome, _⟩
    · rw [hstale.1] at hstored
      cases hstored
    · exact Or.inr (.applied h houtcome)
  | cleared _ => exact Or.inr (.cleared hexec)

/-! ## Queued durations -/

/-- An operation stays as it is where none of its id is recoded. -/
theorem mem_recodeQueue {queue encoded : List Operation} (hx : x ∈ queue)
    (hrecoded : ∀ operation ∈ encoded, recoded queue operation → operation.id ≠ x.id) :
    x ∈ recodeQueue queue encoded := by
  unfold recodeQueue
  suffices hstore : ∀ store, x ∈ store → x ∈ encoded.foldl _ store from hstore queue hx
  induction encoded with
  | nil => exact fun store hmem => hmem
  | cons operation encoded ih =>
    intro store hmem
    rw [List.foldl_cons]
    apply ih fun o ho => hrecoded o (List.mem_cons_of_mem _ ho)
    split
    next => exact hmem
    next original hfind =>
      split
      next hdiffers =>
        have hid : original.id = operation.id := by simpa using List.find?_some hfind
        have hother := hrecoded operation (List.mem_cons_self ..)
          ⟨original, List.mem_of_find?_eq_some hfind, hid, hdiffers⟩
        refine mem_put.mpr (Or.inr ⟨hmem, ?_⟩)
        show x.id ≠ original.id
        rw [hid]
        exact hother.symm
      next => exact hmem

theorem mem_canonicalizeLegacyDurationQueue {queue : List Operation} (hx : x ∈ queue)
    (hneeds : ∀ operation ∈ queue, needsLegacyDurationCanonicalization operation →
      operation.id ≠ x.id) : x ∈ canonicalizeLegacyDurationQueue queue := by
  unfold canonicalizeLegacyDurationQueue
  suffices hstore : ∀ (operations store : List Operation), operations ⊆ queue → x ∈ store →
      x ∈ operations.foldl _ store from hstore queue queue (List.Subset.refl _) hx
  intro operations
  induction operations with
  | nil => exact fun store _ hmem => hmem
  | cons operation operations ih =>
    intro store hsubset hmem
    rw [List.foldl_cons]
    refine ih _ (fun o ho => hsubset (List.mem_cons_of_mem _ ho)) ?_
    split
    next hcanonicalized =>
      have hother := hneeds operation (hsubset (List.mem_cons_self ..)) hcanonicalized
      refine mem_put.mpr (Or.inr ⟨hmem, ?_⟩)
      have hid : (canonicalizeLegacyDuration operation).id = operation.id := by
        unfold canonicalizeLegacyDuration
        split <;> rfl
      rw [hid]
      exact hother.symm
    next => exact hmem

/-- What may have been sent is not proven. -/
theorem PossiblySent.not_neverSent {id : String} (h : PossiblySent database id) :
    id ∉ neverSent database .durationOperations := by
  intro hid
  obtain ⟨⟨hproven, _⟩, _, hunsent⟩ := mem_neverSentFromProof.mp hid
  rcases h with hnot | ⟨claim, hclaim, hsent⟩
  · exact hnot hproven
  · rw [Option.mem_def] at hclaim
    rw [hclaim] at hunsent
    exact hunsent hsent

/-- A normalization leaves what may have been sent. -/
theorem Normalized.not_needed {input : NormalizeInput} {result : Option Resolution}
    (h : Normalized input database result written) {id : String} (hsent : PossiblySent database id)
    {operation : Operation} (hop : operation ∈ database.queues .durationOperations)
    (hneeds : needsLegacyDurationCanonicalization operation) : operation.id ≠ id := by
  rintro rfl
  obtain ⟨hproven, hunsent⟩ := h.proven operation hop hneeds
  rcases hsent with hnot | ⟨claim, hclaim, hmem⟩
  · exact hnot (mem_sanitizeDeliveryProof.mp hproven).1
  · exact hunsent claim hclaim hmem

theorem mem_set_durations (queues : Queues) {durations : List Operation} (h : x ∈ durations) :
    x ∈ queues.set .durationOperations durations .durationOperations := by
  rwa [Queues.set_self]

theorem exec_duration (hexec : t.exec core database = .ok written)
    (hx : x ∈ database.queues .durationOperations) (hsent : PossiblySent database x.id) :
    x ∈ written.queues .durationOperations ∨ Settles core database x.id t := by
  cases exec_effect hexec with
  | plain hkept =>
    rw [hkept.queues]
    exact Or.inl hx
  | gated _ _ hwrote =>
    subst hwrote
    exact Or.inl hx
  | @mutated input plan hdone =>
    rcases (planWorkspaceMutation_ok hdone).wrote with ⟨_, hkept⟩ | ⟨_, hwritten⟩
    · rw [hkept.queues]
      exact Or.inl hx
    · obtain ⟨added, hadded, hqueues⟩ := hwritten.queues
      by_cases hretired : x.id ∈ plan.retiredDurationOperationIds
      · exact Or.inr (.retired hdone hretired)
      · rw [hqueues]
        refine Or.inl (mem_set_durations _ (mem_deleteAll.mpr ⟨?_, hretired⟩))
        rw [(addQueues_ok hadded).1]
        exact List.mem_append_left _ hx
  | claimed _ _ hmade =>
    rw [hmade.kept.queues]
    exact Or.inl hx
  | dropped hdropped =>
    rw [hdropped.kept.queues]
    exact Or.inl hx
  | answered hdone _ => exact Or.inr (.answered hdone)
  | resolved hdone houtcome _ => exact Or.inr (.resolved hdone houtcome)
  | captured _ hcaptured =>
    obtain ⟨encoded, hproven, rfl⟩ := hcaptured.wrote
    refine Or.inl (mem_set_durations database.queues (mem_recodeQueue hx ?_))
    intro operation hop hrecoded hid
    have hnever := hproven operation hop hrecoded
    rw [hid] at hnever
    exact hsent.not_neverSent hnever
  | sent _ hwrote =>
    subst hwrote
    exact Or.inl hx
  | normalized _ hnormalized =>
    rw [hnormalized.wrote]
    exact Or.inl (mem_set_durations database.queues (mem_canonicalizeLegacyDurationQueue hx
      fun operation hop hneeds => hnormalized.not_needed hsent hop hneeds))
  | migrated hmigrated =>
    rcases hmigrated.wrote with ⟨hkept, _⟩ | ⟨_, hadded, _⟩
    · rw [hkept]
      exact Or.inl hx
    · rw [(addQueues_ok hadded).1]
      exact Or.inl (List.mem_append_left _ hx)
  | transferred _ _ hgrown => exact Or.inl (hgrown _ hx)
  | cleared hdone _ => exact Or.inr (.cleared hdone)

/-! ## Reconciled durations -/

/-- The operation apart from its device. -/
def Operation.undevised (operation : Operation) : Operation := { operation with deviceId := none }

@[simp] theorem Operation.undevised_withDevice (deviceId : String) (operation : Operation) :
    (operation.withDevice deviceId).undevised = operation.undevised := by
  unfold Operation.withDevice
  split <;> rfl

/-- Core's reconciliation retains operations as it was given them. -/
def Core.RetainsGiven (core : Core) : Prop :=
  ∀ request answer, core.reconcile request = .ok answer → ∀ d, answer.queues d ⊆ request.queues d

/-- Every operation of the queue was in the other one, apart from its device. -/
def NoneRewritten (before after : List Operation) : Prop :=
  ∀ y ∈ after, ∃ z ∈ before, y.undevised = z.undevised

theorem reconcileStored_retains {records : Database} {input : ReconciliationInput}
    {discarded : Option Ids} {answer : Reconciliation} (hcore : core.RetainsGiven)
    (h : reconcileStored core records input discarded = .ok answer) (d : Domain) :
    NoneRewritten (records.queues d) (answer.queues d) := by
  obtain ⟨dependencies, _, h⟩ := bind_ok_iff.mp h
  have hgiven : answer.queues d ⊆ projectionQueues records.queues input.deviceId d := by
    cases discarded with
    | none => exact hcore _ _ (call_ok_iff.mp h) d
    | some queueIds =>
      dsimp only at h
      split at h
      next =>
        obtain ⟨shaped, _, h⟩ := bind_ok_iff.mp h
        exact hcore _ _ (call_ok_iff.mp h) d
      next => exact hcore _ _ (call_ok_iff.mp h) d
  intro y hy
  obtain ⟨z, hz, rfl⟩ := List.mem_map.mp (hgiven hy)
  exact ⟨z, hz, Operation.undevised_withDevice _ z⟩

theorem mem_putAll {store operations : List Operation} (h : x ∈ putAll store operations) :
    x ∈ operations ∨ x ∈ store := by
  unfold putAll at h
  induction operations generalizing store with
  | nil => exact Or.inr h
  | cons operation operations ih =>
    rcases ih h with hmem | hmem
    · exact Or.inl (List.mem_cons_of_mem _ hmem)
    · rcases mem_put.mp hmem with rfl | ⟨hstore, _⟩
      · exact Or.inl (List.mem_cons_self ..)
      · exact Or.inr hstore

theorem responseTransactionRebase_retains {input : ResponseInput}
    {reconciliation : ReconciliationInput} {records : Database} {discarded : Option Ids}
    {rebased : Rebased} (hcore : core.RetainsGiven)
    (hreconciled : input.reconciliation = some reconciliation)
    (h : responseTransactionRebase core input records discarded = .ok rebased) (d : Domain) :
    NoneRewritten (records.queues d) ((rebased.queues.getD fun _ => []) d) := by
  unfold responseTransactionRebase at h
  rw [hreconciled] at h
  obtain ⟨answer, hanswer, h⟩ := bind_ok_iff.mp h
  cases h
  exact reconcileStored_retains hcore hanswer d

/-- With a Core that retains operations as given, a response rewrites no duration. -/
theorem answered_durations {input : ResponseInput} {plan : AppliedPlan} (hcore : core.RetainsGiven)
    (hreconciled : input.reconciliation ≠ none)
    (h : ResponseApplied core input database plan written) :
    NoneRewritten (database.queues .durationOperations) (written.queues .durationOperations) := by
  obtain ⟨reconciliation, hreconciliation⟩ := Option.ne_none_iff_exists'.mp hreconciled
  intro y hy
  rw [h.queues] at hy
  rcases mem_putAll hy with hretained | hstored
  · exact responseTransactionRebase_retains hcore hreconciliation h.rebased .durationOperations y
      hretained
  · exact ⟨y, (mem_deleteAll.mp hstored).1, rfl⟩

/-- Nor does the result of a resolution. -/
theorem resolved_durations {pending : Resolution} {canonical : ResponseInput}
    (hcore : core.RetainsGiven) (hreconciled : canonical.reconciliation ≠ none)
    (h : ResolutionApplied core pending canonical database written) :
    NoneRewritten (database.queues .durationOperations) (written.queues .durationOperations) := by
  obtain ⟨reconciliation, hreconciliation⟩ := Option.ne_none_iff_exists'.mp hreconciled
  obtain ⟨rebased, hrebased, hqueues, _⟩ := h.rebased
  intro y hy
  rw [hqueues] at hy
  unfold applyResolutionQueues at hy
  rw [hreconciliation] at hy
  rcases mem_putAll hy with hretained | hstored
  · exact responseTransactionRebase_retains hcore hreconciliation hrebased .durationOperations y
      hretained
  · cases hstored

/-! ## Refusals -/

/-- The transaction aborts, and leaves all stores as they are. -/
structure Refused (core : Core) (database : Database) (t : Transaction) : Prop where
  aborts : ∃ e, t.exec core database = .error e
  kept : step core database t = database

theorem refused_of_not_ok (h : ∀ written, t.exec core database ≠ .ok written) :
    Refused core database t := by
  cases hexec : t.exec core database with
  | ok written => exact absurd hexec (h written)
  | error e => exact ⟨⟨e, hexec⟩, step_error hexec⟩

/-- A resolution that may have been delivered is not captured over. -/
theorem capture_refused {payload : ResolutionPayload} {userId : String} {input : CaptureInput}
    (h : MaybeDelivered payload userId database) : Refused core database (.capture input) := by
  refine refused_of_not_ok fun written hexec => ?_
  obtain ⟨pending, hcapture⟩ := exec_outcome hexec
  obtain ⟨resolution, hstored, _, _, hstate⟩ := h
  rw [((captureResolution_ok hcapture).replaced resolution hstored).1] at hstate
  cases hstate

/-- A duration that may have been sent is not normalized. -/
theorem normalize_refused {input : NormalizeInput}
    (hx : x ∈ database.queues .durationOperations)
    (hneeds : needsLegacyDurationCanonicalization x) (hsent : PossiblySent database x.id) :
    Refused core database (.normalize input) := by
  refine refused_of_not_ok fun written hexec => ?_
  obtain ⟨result, h⟩ := exec_outcome hexec
  exact (normalizeLegacyDurationOperations_ok h).not_needed hsent hx hneeds rfl

/-- A resolution that may have been delivered is not given another request. -/
theorem rotate_refused {payload : ResolutionPayload} {userId token : String}
    {input : NormalizeInput} (h : MaybeDelivered payload userId database)
    (hneeds : ∃ operation ∈ payload.sent .durationOperations,
      needsLegacyDurationCanonicalization operation)
    (htoken : input.gateToken = some token) (hnonempty : token ≠ "") :
    Refused core database (.normalize input) := by
  refine refused_of_not_ok fun written hexec => ?_
  obtain ⟨result, h'⟩ := exec_outcome hexec
  obtain ⟨_, _, h'⟩ := bind_ok_iff.mp h'
  obtain ⟨_, _, h'⟩ := bind_ok_iff.mp h'
  obtain ⟨_, _, h'⟩ := bind_ok_iff.mp h'
  obtain ⟨_, hrotate, _⟩ := bind_ok_iff.mp h'
  obtain ⟨resolution, hstored, rfl, _, hstate⟩ := h
  rw [Option.mem_def] at hstored
  unfold rotateLegacyDurationResolution at hrotate
  rw [hstored] at hrotate
  dsimp only at hrotate
  rw [if_neg (by simp [hneeds, htoken, hnonempty])] at hrotate
  obtain ⟨_, hnever, _⟩ := bind_ok_iff.mp hrotate
  rw [check_ok_iff, hstate] at hnever
  cases hnever

end

/-- What may have been delivered is frozen. In any run, a resolution that may have been
delivered keeps its request and its state until its result is applied, another account
invalidates it or the local data are cleared; a queued duration that may have been sent
stays as it is until it is settled, and a Core that retains operations as given settles
none by rewriting it; and a capture over such a resolution, a normalization of such a
duration and a new request for such a resolution are refused, and change nothing. -/
theorem possibly_delivered_frozen (core : Core) :
    (∀ (database : Database) (ts : List Transaction) (payload : ResolutionPayload)
      (userId : String), MaybeDelivered payload userId database →
      ¬ MaybeDelivered payload userId (run core database ts) →
      ∃ pre t post, ts = pre ++ t :: post ∧ MaybeDelivered payload userId (run core database pre) ∧
        Unfreezes core (run core database pre) userId t) ∧
    (∀ (database : Database) (ts : List Transaction) (x : Operation),
      x ∈ database.queues .durationOperations →
      x ∉ (run core database ts).queues .durationOperations →
      ∃ pre t post, ts = pre ++ t :: post ∧
        x ∈ (run core database pre).queues .durationOperations ∧
        (PossiblySent (run core database pre) x.id →
          Settles core (run core database pre) x.id t)) ∧
    (core.RetainsGiven → ∀ (database written : Database),
      (∀ input plan, applySyncResponse core input database = .ok (written, .apply plan) →
        input.reconciliation ≠ none → NoneRewritten (database.queues .durationOperations)
          (written.queues .durationOperations)) ∧
      ∀ pending canonical outcome,
        applyResolution core pending canonical database = .ok (written, outcome) →
        canonical.reconciliation ≠ none → NoneRewritten (database.queues .durationOperations)
          (written.queues .durationOperations)) ∧
    (∀ (database : Database) (payload : ResolutionPayload) (userId : String)
      (input : CaptureInput), MaybeDelivered payload userId database →
      Refused core database (.capture input)) ∧
    (∀ (database : Database) (x : Operation) (input : NormalizeInput),
      x ∈ database.queues .durationOperations → needsLegacyDurationCanonicalization x →
      PossiblySent database x.id → Refused core database (.normalize input)) ∧
    ∀ (database : Database) (payload : ResolutionPayload) (userId token : String)
      (input : NormalizeInput), MaybeDelivered payload userId database →
      (∃ operation ∈ payload.sent .durationOperations,
        needsLegacyDurationCanonicalization operation) →
      input.gateToken = some token → token ≠ "" → Refused core database (.normalize input) := by
  refine ⟨?_, ?_, ?_, fun _ _ _ _ => capture_refused, fun _ _ _ => normalize_refused,
    fun _ _ _ _ _ => rotate_refused⟩
  · intro database ts payload userId hstored hgone
    obtain ⟨pre, t, post, hts, hbefore, _, hunfreezes⟩ := Traces.ended
      (P := MaybeDelivered payload userId) (Q := fun s t => Unfreezes core s userId t)
      (fun s t hs => step_induction (P := fun written =>
        MaybeDelivered payload userId written ∨ Unfreezes core s userId t) (Or.inl hs)
        fun written h => maybeDelivered_or_unfrozen h hs) hstored hgone
    exact ⟨pre, t, post, hts, hbefore, hunfreezes⟩
  · intro database ts x hqueued hgone
    obtain ⟨pre, t, post, hts, hbefore, _, hsettles⟩ := Traces.ended
      (P := fun s : Database => x ∈ s.queues .durationOperations)
      (Q := fun s t => PossiblySent s x.id → Settles core s x.id t)
      (fun s t hs => step_induction (P := fun written =>
        x ∈ written.queues .durationOperations ∨ (PossiblySent s x.id → Settles core s x.id t))
        (Or.inl hs) fun written h => or_iff_not_imp_left.mpr fun hnot hsent =>
          (exec_duration h hs hsent).resolve_left hnot) hqueued hgone
    exact ⟨pre, t, post, hts, hbefore, hsettles⟩
  · intro hcore database written
    constructor
    · intro input plan h hreconciled
      cases (applySyncResponse_ok h).2 with
      | apply _ happlied => exact answered_durations hcore hreconciled happlied
    · intro pending canonical outcome h hreconciled
      rcases (applyResolution_ok h).2 with ⟨_, _, hkept⟩ | ⟨_, happlied⟩
      · rw [hkept.queues]
        exact fun y hy => ⟨y, hy, rfl⟩
      · exact resolved_durations hcore hreconciled happlied

/-- A duration from before operations had clocks, that may have been sent. -/
def referenceLegacy : Operation :=
  ⟨"legacy", none, none, "2020-01-01T00:00:00.000Z", 0, 0, .duration "focus" 1500000⟩

def referenceLegacyDatabase : Database :=
  { referenceDatabase with
    queues := fun domain => if domain = .durationOperations then [referenceLegacy] else [] }

def referenceNormalize : NormalizeInput := ⟨referenceSignedIn, some "owner", "another"⟩

/-- The resolution is sent; another one was sent before durations were normalized. -/
def referenceSent : Database :=
  step referenceCore referenceCaptured (.send (referenceGate "owner" 2000) (referenceResolution "owner"))

def referenceLegacyPayload : ResolutionPayload :=
  { (referenceResolution "owner").payload with sent := referenceLegacyDatabase.queues }

def referenceLegacySent : Database :=
  { referenceCaptured with
    bootstrapResolution := some
      { (referenceResolution "owner").claimed with payload := referenceLegacyPayload } }

theorem referenceCore_retainsGiven : referenceCore.RetainsGiven := by
  intro request answer h d y hy
  cases h
  exact List.mem_of_mem_filter hy

theorem reference_sent_maybeDelivered :
    MaybeDelivered (referenceResolution "owner").payload "account:v1:1" referenceSent :=
  ⟨(referenceResolution "owner").claimed, by decide +kernel, rfl, rfl, rfl⟩

/-- A sent resolution is applied, and a legacy duration cleared; nothing else could
replace or rewrite them. -/
theorem reference_frozen :
    (∃ pre t post, [.resolution (referenceResolution "owner").claimed (referenceResult 6)] =
        pre ++ t :: post ∧
      MaybeDelivered (referenceResolution "owner").payload "account:v1:1"
        (run referenceCore referenceSent pre) ∧
      Unfreezes referenceCore (run referenceCore referenceSent pre) "account:v1:1" t) ∧
    (∃ pre t post, [.normalize referenceNormalize, .clear referenceCaller] = pre ++ t :: post ∧
      referenceLegacy ∈ (run referenceCore referenceLegacyDatabase pre).queues .durationOperations ∧
      (PossiblySent (run referenceCore referenceLegacyDatabase pre) "legacy" →
        Settles referenceCore (run referenceCore referenceLegacyDatabase pre) "legacy" t)) ∧
    (∃ written plan, applySyncResponse referenceCore (referenceResponse referenceSaved 6)
        referenceClaimed = .ok (written, .apply plan) ∧
      NoneRewritten (referenceClaimed.queues .durationOperations)
        (written.queues .durationOperations)) ∧
    Refused referenceCore referenceSent (.capture (referenceCapture "owner")) ∧
    Refused referenceCore referenceLegacyDatabase (.normalize referenceNormalize) ∧
    Refused referenceCore referenceLegacySent (.normalize referenceNormalize) := by
  have hfrozen := possibly_delivered_frozen referenceCore
  have hlegacy : referenceLegacy ∈ referenceLegacyDatabase.queues .durationOperations := by
    decide
  refine ⟨?_, ?_, ?_, ?_, ?_, ?_⟩
  · refine hfrozen.1 _ _ _ _ reference_sent_maybeDelivered ?_
    rintro ⟨resolution, hstored, _⟩
    have hnone : (run referenceCore referenceSent
        [.resolution (referenceResolution "owner").claimed
          (referenceResult 6)]).bootstrapResolution = none := by decide +kernel
    rw [hnone] at hstored
    cases hstored
  · exact hfrozen.2.1 _ _ referenceLegacy hlegacy (by decide +kernel)
  · obtain ⟨⟨written, plan⟩, happlied, hkind⟩ := exists_ok
      (x := applySyncResponse referenceCore (referenceResponse referenceSaved 6) referenceClaimed)
      (p := fun result => result.2.applies) (by decide +kernel)
    cases plan with
    | ignored => cases hkind
    | stale => cases hkind
    | apply plan =>
      exact ⟨written, plan, happlied, (hfrozen.2.2.1 referenceCore_retainsGiven _ written).1 _ plan
        happlied (by decide)⟩
  · exact hfrozen.2.2.2.1 _ _ _ _ reference_sent_maybeDelivered
  · refine hfrozen.2.2.2.2.1 _ _ _ hlegacy (by decide) (Or.inl ?_)
    rintro ⟨proof, hproof, _⟩
    cases hproof
  · exact hfrozen.2.2.2.2.2 _ referenceLegacyPayload "account:v1:1" "owner" _
      ⟨_, rfl, rfl, rfl, rfl⟩ ⟨referenceLegacy, hlegacy, by decide⟩ rfl (by decide)

end Pomodorough.Web
