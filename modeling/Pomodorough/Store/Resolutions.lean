import Pomodorough.Store.AccountRuns

/-! # A resolution takes effect once

A stored resolution is never written again, so a request id that was committed
is answered from there for good. The three encodings differ in their fields, so
what this version stored is matched by its own encoding only.

SHA-256 is assumed free of collisions on the payloads that meet in a run. -/
namespace Pomodorough.Store.Resolutions
open Pomodorough.Library.Fallible
open Pomodorough.Store.Records Pomodorough.Store.SharedCoreValidation
open Pomodorough.Store.SharedCore Pomodorough.Store.OperationLogs
open Pomodorough.Store.OperationDomains Pomodorough.Store.Sync Pomodorough.Store.Bootstrap
open Pomodorough.Store.Transactions Pomodorough.Store.AccountRuns

variable {core : Core} {sha256 : Sha256} {s t u v : UserTables} {now : Time} {call : Call}
  {request retry : BootstrapResolutionRequest} {events : List Event} {result : SyncResult}

/-! ## Encodings -/

theorem phase_text_injective {a b : Phase} (h : a.text = b.text) : a = b := by
  revert h
  cases a <;> cases b <;> decide

theorem commandTypeText_injective {a b : CommandType} (h : commandTypeText a = commandTypeText b) :
    a = b := by
  revert h
  cases a <;> cases b <;> decide

theorem taskOperationTypeText_injective {a b : TaskOperationType}
    (h : taskOperationTypeText a = taskOperationTypeText b) : a = b := by
  revert h
  cases a <;> cases b <;> decide

theorem commandJson_injective : Function.Injective commandJson := by
  intro a b h
  cases a
  cases b
  simp only [commandJson, Json.object.injEq, List.cons.injEq, Prod.mk.injEq, Json.string.injEq,
    Json.number.injEq, Json.time.injEq, true_and, and_true] at h
  obtain ⟨rfl, rfl, rfl, rfl, rfl, htype, hphase, rfl, rfl, rfl, rfl, rfl⟩ := h
  rw [commandTypeText_injective htype, phase_text_injective hphase]

theorem taskOperationJson_injective : Function.Injective taskOperationJson := by
  intro a b h
  cases a
  cases b
  simp only [taskOperationJson, Json.object.injEq, List.cons.injEq, Prod.mk.injEq,
    Json.string.injEq, Json.number.injEq, Json.time.injEq, true_and, and_true] at h
  obtain ⟨rfl, rfl, rfl, htype, rfl, rfl, rfl, rfl⟩ := h
  rw [taskOperationTypeText_injective htype]

theorem durationOperationJson_injective : Function.Injective durationOperationJson := by
  intro a b h
  cases a
  cases b
  simp only [durationOperationJson, Json.object.injEq, List.cons.injEq, Prod.mk.injEq,
    Json.string.injEq, Json.number.injEq, Json.time.injEq, true_and, and_true] at h
  obtain ⟨rfl, rfl, hphase, rfl, rfl, rfl, rfl⟩ := h
  rw [phase_text_injective hphase]

theorem autoStartOperationJson_injective : Function.Injective autoStartOperationJson := by
  intro a b h
  cases a
  cases b
  simp_all [autoStartOperationJson]

theorem selectedTaskOperationJson_injective : Function.Injective selectedTaskOperationJson := by
  intro a b h
  obtain ⟨_, _, taskA, _, _, _⟩ := a
  obtain ⟨_, _, taskB, _, _, _⟩ := b
  simp only [selectedTaskOperationJson, Json.object.injEq, List.cons.injEq, Prod.mk.injEq,
    Json.string.injEq, Json.number.injEq, Json.time.injEq, true_and, and_true] at h
  obtain ⟨rfl, rfl, htask, rfl, rfl, rfl⟩ := h
  cases taskA <;> cases taskB <;> simp_all

/-- The current encoding determines the normalized payload. -/
theorem normalizedBootstrap_of_payload
    (h : bootstrapPayload request = bootstrapPayload retry) :
    normalizedBootstrap request = normalizedBootstrap retry := by
  unfold bootstrapPayload at h
  generalize normalizedBootstrap request = a at h ⊢
  generalize normalizedBootstrap retry = b at h ⊢
  cases a
  cases b
  simp only [coreFields, autoStartFields, selectedTaskFields, List.cons_append, List.nil_append,
    Json.object.injEq, List.cons.injEq, Prod.mk.injEq, Json.string.injEq, Json.number.injEq,
    Json.array.injEq, Json.bool.injEq, true_and, and_true] at h
  obtain ⟨rfl, rfl, rfl, hcommands, htasks, hdurations, hautoStarts, rfl, hselectedTasks, rfl⟩ := h
  rw [commandJson_injective.list_map hcommands, taskOperationJson_injective.list_map htasks,
    durationOperationJson_injective.list_map hdurations,
    autoStartOperationJson_injective.list_map hautoStarts,
    selectedTaskOperationJson_injective.list_map hselectedTasks]

theorem bootstrapPayload_ne_previous :
    bootstrapPayload request ≠ previousBootstrapPayload retry := by
  intro h
  simp [bootstrapPayload, previousBootstrapPayload, coreFields, autoStartFields,
    selectedTaskFields] at h

theorem bootstrapPayload_ne_legacy : bootstrapPayload request ≠ legacyBootstrapPayload retry := by
  intro h
  simp [bootstrapPayload, legacyBootstrapPayload, coreFields, autoStartFields,
    selectedTaskFields] at h

/-- No two of the payloads under which the given requests are looked up have one
digest. -/
def CollisionFree (sha256 : Sha256) (requests : List BootstrapResolutionRequest) : Prop :=
  Set.InjOn sha256 {payload | ∃ request ∈ requests, payload = bootstrapPayload request ∨
    payload = previousBootstrapPayload request ∨ payload = legacyBootstrapPayload request}

theorem collisionFree_of_subset {requests fewer : List BootstrapResolutionRequest}
    (h : CollisionFree sha256 requests) (hsub : ∀ request ∈ fewer, request ∈ requests) :
    CollisionFree sha256 fewer := by
  refine Set.InjOn.mono ?_ h
  rintro payload ⟨request, hmem, hpayload⟩
  exact ⟨request, hsub request hmem, hpayload⟩

/-- What this version stored for a request answers only requests with its
payload. -/
theorem normalizedBootstrap_of_matches (hfree : CollisionFree sha256 [request, retry])
    (h : storedBootstrapPayloadMatches sha256 (bootstrapPayloadHash sha256 request)
      (bootstrapPayloadHash sha256 retry) retry = true) :
    normalizedBootstrap retry = normalizedBootstrap request := by
  have hrequest : bootstrapPayload request ∈ {payload | ∃ r ∈ [request, retry],
      payload = bootstrapPayload r ∨ payload = previousBootstrapPayload r ∨
        payload = legacyBootstrapPayload r} := ⟨request, by simp, .inl rfl⟩
  simp only [storedBootstrapPayloadMatches, Bool.or_eq_true, Bool.and_eq_true,
    decide_eq_true_eq] at h
  obtain (h | ⟨-, h⟩) | ⟨-, h⟩ := h
  · exact (normalizedBootstrap_of_payload
      (hfree hrequest ⟨retry, by simp, .inl rfl⟩ h)).symm
  · exact absurd (hfree hrequest ⟨retry, by simp, .inr (.inl rfl)⟩ h) bootstrapPayload_ne_previous
  · exact absurd (hfree hrequest ⟨retry, by simp, .inr (.inr rfl)⟩ h) bootstrapPayload_ne_legacy

/-! ## Stored resolutions stay -/

/-- No other call touches the stored resolutions. -/
theorem bootstrapResolutions_exec (hs : ValidLogs s)
    (h : call.exec core sha256 now s = .ok (t, result))
    (hcall : ∀ request, call ≠ .resolveBootstrap request) :
    t.bootstrapResolutions = s.bootstrapResolutions := by
  have hmaterialize : ∀ {t : UserTables} {result : SyncResult},
      materializeProjection core s now = .ok (t, result) →
        t.bootstrapResolutions = s.bootstrapResolutions := by
    intro t result h
    obtain ⟨reduction, hcommit⟩ := materializeProjection_ok h
    exact hcommit.commit.bootstrapResolutions
  cases call with
  | sync request =>
    obtain ⟨u, applied, reduction, hcommit⟩ := sync_ok h
    have hbase : ValidLogs (recordSyncDevice s request.deviceID now) := hs.ofLogs fun d => by simp
    have hbeside := (applyOperations_ok hbase.utc hcommit.operations).beside
    rw [hcommit.commit.bootstrapResolutions, hbeside.bootstrapResolutions]
    rfl
  | bootstrap => exact hmaterialize h
  | history => exact hmaterialize h
  | resolveBootstrap request => exact absurd rfl (hcall request)

/-- A first application stores under its own id only. -/
theorem resolveCommit_lookup {id : String} {application : BootstrapStrategyApplication}
    (hs : ValidLogs s)
    (h : ResolveCommit core sha256 s request now u application v t result)
    (hne : id ≠ request.requestID) :
    t.bootstrapResolutions.lookup id = s.bootstrapResolutions.lookup id := by
  have hbeside :=
    (applyOperations_ok (validLogs_strategyBase hs).utc h.applied.operations).beside
  have hbase : (strategyBase s request).bootstrapResolutions = s.bootstrapResolutions := by
    unfold strategyBase
    split <;> rfl
  rw [h.recorded]
  show (v.bootstrapResolutions.insert request.requestID _).lookup id = _
  rw [Finmap.lookup_insert_of_ne _ hne, h.commit.bootstrapResolutions,
    hbeside.bootstrapResolutions, hbase]

theorem lookup_exec {id : String} {stored : BootstrapResolution} (hs : ValidLogs s)
    (hstored : s.bootstrapResolutions.lookup id = some stored)
    (h : call.exec core sha256 now s = .ok (t, result)) :
    t.bootstrapResolutions.lookup id = some stored := by
  by_cases hcall : ∃ request, call = .resolveBootstrap request
  · obtain ⟨request, rfl⟩ := hcall
    obtain ⟨found, -, rfl⟩ | ⟨u, application, v, hcommit⟩ :=
      resolveBootstrap_ok (validLogs_strategyBase hs).utc h
    · exact hstored
    · have hne : id ≠ request.requestID := by
        rintro rfl
        rw [hcommit.fresh] at hstored
        cases hstored
      rw [resolveCommit_lookup hs hcommit hne, hstored]
  · rw [bootstrapResolutions_exec hs h fun request hr => hcall ⟨request, hr⟩, hstored]

theorem lookup_run {id : String} {stored : BootstrapResolution} (hs : ValidLogs s)
    (hstored : s.bootstrapResolutions.lookup id = some stored)
    (h : Run core sha256 s events t) : t.bootstrapResolutions.lookup id = some stored :=
  (h.preserves (P := fun s => ValidLogs s ∧ s.bootstrapResolutions.lookup id = some stored)
    (fun _ _ _ _ _ hp hexec => ⟨validLogs_exec hp.1 hexec, lookup_exec hp.1 hp.2 hexec⟩)
    ⟨hs, hstored⟩).2

/-- What is stored under an id was stored before, or committed by this call. -/
theorem exists_commit_of_stored {id : String} {stored : BootstrapResolution} {event : Event}
    (hs : ValidLogs s) (h : Step core sha256 s event t)
    (hstored : t.bootstrapResolutions.lookup id = some stored) :
    s.bootstrapResolutions.lookup id = some stored ∨
      ∃ request result u application v, event.call = .resolveBootstrap request ∧
        event.answer = .ok result ∧ request.requestID = id ∧
        stored = ⟨bootstrapPayloadHash sha256 request, result⟩ ∧
        ResolveCommit core sha256 s request event.now u application v t result := by
  obtain ⟨call, now, answer⟩ := event
  obtain ⟨result, hanswer, hexec⟩ | ⟨-, rfl⟩ := h.cases_answer
  · cases hanswer
    by_cases hcall : ∃ request, call = .resolveBootstrap request
    · obtain ⟨request, rfl⟩ := hcall
      obtain ⟨_, -, rfl⟩ | ⟨u, application, v, hcommit⟩ :=
        resolveBootstrap_ok (validLogs_strategyBase hs).utc hexec
      · exact .inl hstored
      · by_cases hid : id = request.requestID
        · have hinserted : t.bootstrapResolutions.lookup id =
              some ⟨bootstrapPayloadHash sha256 request, result⟩ := by
            rw [hcommit.recorded, hid]
            exact Finmap.lookup_insert _
          rw [hinserted] at hstored
          cases hstored
          exact .inr ⟨request, result, u, application, v, rfl, rfl, hid.symm, rfl, hcommit⟩
        · rw [resolveCommit_lookup hs hcommit hid] at hstored
          exact .inl hstored
    · rw [bootstrapResolutions_exec hs hexec fun request hr => hcall ⟨request, hr⟩] at hstored
      exact .inl hstored
  · exact .inl hstored

/-! ## Requests that reuse an id -/

/-- A request whose id is stored never gets past the lookup. -/
theorem resolveBootstrap_of_stored {stored : BootstrapResolution}
    (hstored : s.bootstrapResolutions.lookup request.requestID = some stored)
    (h : resolveBootstrap core sha256 s request now = .ok (t, result)) :
    t = s ∧ Replay sha256 s request stored result := by
  obtain ⟨⟨submitted, payloadHash⟩, hvalidate, h⟩ := bind_ok_iff.mp h
  obtain ⟨hvalid, rfl, rfl⟩ := validateBootstrapResolutionRequest_ok hvalidate
  obtain ⟨found, hlookup, h⟩ := bind_ok_iff.mp h
  obtain ⟨hnone, rfl⟩ | ⟨stored', replayed, hsome, hhash, hrevision, hresult, rfl⟩ :=
    lookupStoredBootstrapResponse_ok hlookup
  · rw [hstored] at hnone
    cases hnone
  · rw [hstored] at hsome
    cases hsome
    cases h
    exact ⟨rfl, hvalid, hstored, hhash, hrevision, hresult⟩

theorem validateBootstrapResolutionRequest_of_valid (h : ValidResolution request) :
    validateBootstrapResolutionRequest sha256 request =
      .ok (request.syncRequest, bootstrapPayloadHash sha256 request) := by
  have hkeep : request.strategy = bootstrapKeepRemote → request.commands = [] ∧
      request.taskOperations = [] ∧ request.durationOperations = [] ∧
      request.autoStartOperations = [] ∧ request.selectedTaskOperations = [] := fun hs =>
    ⟨h.keep hs .timer, h.keep hs .task, h.keep hs .duration, h.keep hs .autoStart,
      h.keep hs .selectedTask⟩
  exact bind_ok_iff.mpr ⟨(), h.unique, bind_ok_iff.mpr ⟨(), check_ok_iff.mpr h.strategy,
    bind_ok_iff.mpr ⟨(), check_ok_iff.mpr hkeep, rfl⟩⟩⟩

theorem resolveBootstrap_conflict {stored : BootstrapResolution} (hvalid : ValidResolution request)
    (hstored : s.bootstrapResolutions.lookup request.requestID = some stored)
    (hhash : storedBootstrapPayloadMatches sha256 stored.payloadHash
      (bootstrapPayloadHash sha256 request) request = false) :
    resolveBootstrap core sha256 s request now = .error .requestIDConflict := by
  have hlookup : lookupStoredBootstrapResponse sha256 s request
      (bootstrapPayloadHash sha256 request) = .error .requestIDConflict := by
    simp [lookupStoredBootstrapResponse, hstored, check, hhash, bind, Except.bind]
  simp [resolveBootstrap, validateBootstrapResolutionRequest_of_valid hvalid, hlookup, bind,
    Except.bind]

theorem resolveBootstrap_replay {stored : BootstrapResolution} {replayed : SyncResult}
    (h : Replay sha256 s request stored replayed) :
    resolveBootstrap core sha256 s request now = .ok (s, replayed) := by
  have hlookup : lookupStoredBootstrapResponse sha256 s request
      (bootstrapPayloadHash sha256 request) = .ok (some replayed) := by
    unfold lookupStoredBootstrapResponse
    rw [h.found]
    exact bind_ok_iff.mpr ⟨(), check_ok_iff.mpr h.hash, bind_ok_iff.mpr
      ⟨(), validateCanonicalRevision_ok.mpr h.revision, bind_ok_iff.mpr ⟨replayed, h.result, rfl⟩⟩⟩
  exact bind_ok_iff.mpr ⟨_, validateBootstrapResolutionRequest_of_valid h.valid,
    bind_ok_iff.mpr ⟨some replayed, hlookup, rfl⟩⟩

/-- What holds of a request id from the moment a resolution committed it. -/
structure Committed (core : Core) (sha256 : Sha256) (request : BootstrapResolutionRequest)
    (result : SyncResult) (v : UserTables) : Prop where
  stored : v.bootstrapResolutions.lookup request.requestID =
    some ⟨bootstrapPayloadHash sha256 request, result⟩
  /-- A later success changes nothing and returns the stored result as it is
  read back. -/
  success : ∀ retry now w answer, retry.requestID = request.requestID →
    resolveBootstrap core sha256 v retry now = .ok (w, answer) →
    w = v ∧ normalizeStoredSyncResult (decodeStoredResponse result) = .ok answer
  /-- A request with another payload fails, with a conflict where it is valid. -/
  conflict : ∀ retry now, retry.requestID = request.requestID →
    CollisionFree sha256 [request, retry] →
    normalizedBootstrap retry ≠ normalizedBootstrap request →
    ∃ e, resolveBootstrap core sha256 v retry now = .error e ∧
      (ValidResolution retry → e = .requestIDConflict)
  /-- The same request succeeds again. -/
  repeated : ∀ now answer, normalizeStoredSyncResult (decodeStoredResponse result) = .ok answer →
    resolveBootstrap core sha256 v request now = .ok (v, answer)

theorem committed_of_stored (hvalid : ValidResolution request)
    (hrevision : ValidRevision result.revision)
    (hstored : v.bootstrapResolutions.lookup request.requestID =
      some ⟨bootstrapPayloadHash sha256 request, result⟩) :
    Committed core sha256 request result v where
  stored := hstored
  success retry now w answer hid h := by
    obtain ⟨hw, hreplay⟩ := resolveBootstrap_of_stored (hid ▸ hstored) h
    exact ⟨hw, hreplay.result⟩
  conflict retry now hid hfree hne := by
    cases hanswer : resolveBootstrap core sha256 v retry now with
    | ok answer =>
      obtain ⟨-, hreplay⟩ := resolveBootstrap_of_stored (hid ▸ hstored) hanswer
      exact absurd (normalizedBootstrap_of_matches hfree hreplay.hash) hne
    | error e =>
      refine ⟨e, rfl, fun hretry => ?_⟩
      have hmismatch : storedBootstrapPayloadMatches sha256 (bootstrapPayloadHash sha256 request)
          (bootstrapPayloadHash sha256 retry) retry = false := by
        by_contra hmatch
        rw [Bool.not_eq_false] at hmatch
        exact hne (normalizedBootstrap_of_matches hfree hmatch)
      rw [resolveBootstrap_conflict hretry (hid ▸ hstored) hmismatch] at hanswer
      cases hanswer
      rfl
  repeated now answer h := by
    refine resolveBootstrap_replay ⟨hvalid, hstored, ?_, hrevision, h⟩
    simp [storedBootstrapPayloadMatches]

/-- A first application is stored. -/
theorem committed_of_resolve (hs : ValidLogs s)
    (hfresh : s.bootstrapResolutions.lookup request.requestID = none)
    (h : resolveBootstrap core sha256 s request now = .ok (t, result)) :
    s.revision = request.expectedRevision ∧
      t.bootstrapResolutions.lookup request.requestID =
        some ⟨bootstrapPayloadHash sha256 request, result⟩ ∧
      ∀ v : UserTables, v.bootstrapResolutions.lookup request.requestID =
        some ⟨bootstrapPayloadHash sha256 request, result⟩ →
        Committed core sha256 request result v := by
  obtain ⟨stored, hreplay, -⟩ | ⟨u, application, v, hcommit⟩ :=
    resolveBootstrap_ok (validLogs_strategyBase hs).utc h
  · have hfound := hreplay.found
    rw [hfresh] at hfound
    cases hfound
  · refine ⟨hcommit.expected, ?_, fun v => committed_of_stored hcommit.valid ?_⟩
    · rw [hcommit.recorded]
      exact Finmap.lookup_insert _
    · rw [hcommit.reported]
      exact hcommit.commit.valid

/-! ## Runs -/

/-- A resolution under this id that succeeded. -/
def Resolved (id : String) (event : Event) : Prop :=
  (∃ request, event.call = .resolveBootstrap request ∧ request.requestID = id) ∧
    ∃ result, event.answer = .ok result

/-- Only a resolution under an id stores one. -/
theorem lookup_step_of_not_resolved {id : String} {event : Event} (hs : ValidLogs s)
    (h : Step core sha256 s event t) (hevent : ¬ Resolved id event)
    (hnone : s.bootstrapResolutions.lookup id = none) : t.bootstrapResolutions.lookup id = none := by
  obtain ⟨result, hanswer, hexec⟩ | ⟨-, rfl⟩ := h.cases_answer
  · obtain ⟨call, now, answer⟩ := event
    cases hanswer
    by_cases hcall : ∃ request, call = .resolveBootstrap request
    · obtain ⟨request, rfl⟩ := hcall
      have hne : id ≠ request.requestID := by
        rintro rfl
        exact hevent ⟨⟨request, rfl, rfl⟩, result, rfl⟩
      obtain ⟨stored, -, rfl⟩ | ⟨u, application, v, hcommit⟩ :=
        resolveBootstrap_ok (validLogs_strategyBase hs).utc hexec
      · exact hnone
      · rw [resolveCommit_lookup hs hcommit hne, hnone]
    · rw [bootstrapResolutions_exec hs hexec fun request h => hcall ⟨request, h⟩, hnone]
  · exact hnone

theorem lookup_run_of_not_resolved {id : String} (hs : ValidLogs s)
    (h : Run core sha256 s events t) (hevents : ∀ event ∈ events, ¬ Resolved id event)
    (hnone : s.bootstrapResolutions.lookup id = none) : t.bootstrapResolutions.lookup id = none := by
  induction h with
  | nil => exact hnone
  | @cons s m t event events hstep hrest ih =>
    have hm : ValidLogs m := validLogs_run hs (.cons hstep .nil)
    refine ih hm (fun e he => hevents e (List.mem_cons_of_mem event he)) ?_
    exact lookup_step_of_not_resolved hs hstep (hevents event (by simp)) hnone

/-- A resolution takes effect exactly once. The first success under an id that
was not stored is a commit at the expected revision, and the id is committed
after it and after every later call. Under an id that was stored before, a
success never does more than return what is stored. -/
theorem resolution_exactlyOnce (hs : ValidLogs s) (h : Run core sha256 s events v) :
    (∀ before request now result after,
      events = before ++ ⟨.resolveBootstrap request, now, .ok result⟩ :: after →
      s.bootstrapResolutions.lookup request.requestID = none →
      (∀ event ∈ before, ¬ Resolved request.requestID event) →
      ∃ t u, Run core sha256 s before t ∧ Run core sha256 u after v ∧
        t.revision = request.expectedRevision ∧ Committed core sha256 request result u ∧
        Committed core sha256 request result v) ∧
      ∀ stored id, s.bootstrapResolutions.lookup id = some stored →
        v.bootstrapResolutions.lookup id = some stored ∧
        ∀ retry now w answer, retry.requestID = id →
          resolveBootstrap core sha256 v retry now = .ok (w, answer) →
          w = v ∧ normalizeStoredSyncResult (decodeStoredResponse stored.response) = .ok answer := by
  constructor
  · rintro before request now result after rfl hfresh hfirst
    obtain ⟨t, hbefore, hrest⟩ := h.split
    cases hrest with
    | @cons _ u _ _ _ hstep hafter =>
      have ht : ValidLogs t := validLogs_run hs hbefore
      have hexec : resolveBootstrap core sha256 t request now = .ok (u, result) := by
        cases hstep with
        | answered h => exact h
      obtain ⟨hrevision, hstored, hcommitted⟩ :=
        committed_of_resolve ht (lookup_run_of_not_resolved hs hbefore hfirst hfresh) hexec
      have hu : ValidLogs u := validLogs_run ht (.cons hstep .nil)
      exact ⟨t, u, hbefore, hafter, hrevision, hcommitted u hstored,
        hcommitted v (lookup_run hu hstored hafter)⟩
  · intro stored id hstored
    have hv := lookup_run hs hstored h
    refine ⟨hv, fun retry now w answer hid hexec => ?_⟩
    obtain ⟨hw, hreplay⟩ := resolveBootstrap_of_stored (hid ▸ hv) hexec
    exact ⟨hw, hreplay.result⟩

/-- A request that merges one such command. -/
def mergePause (requestID id deviceID : String) (expectedRevision wallMs : Int) :
    BootstrapResolutionRequest :=
  ⟨requestID, deviceID, expectedRevision, bootstrapMerge, [pauseAbsent id deviceID wallMs], [], [],
    [], false, [], false⟩

/-- A digest that tells encodings and devices apart. -/
def deviceSha256 : Sha256
  | .object ((_, .string deviceID) :: fields) => BitVec.ofNat 256 (deviceID.length * 16 + fields.length)
  | _ => 0

/-- A merge, its retry after a synchronization, and another device's request
under its id. -/
theorem resolution_exactlyOnce_merge :
    let first := mergePause "request-1" "command-1" "device-a" 0 1000
    let other := mergePause "request-1" "command-2" "device-bb" 1 1001
    let answer := pauseAnswer "command-1" 1 2000 true
    let now := Time.ofUnixMilli 2000
    let sync := Call.sync (pauseRequest "command-3" "device-c" 1002)
    ∃ v, Run absentTimerCore deviceSha256 .initial
        (performAll absentTimerCore deviceSha256 .initial
          [(.resolveBootstrap first, now), (sync, now)]).1 v ∧
      Committed absentTimerCore deviceSha256 first answer v ∧
      ∃ e, resolveBootstrap absentTimerCore deviceSha256 v other now = .error e ∧
        (ValidResolution other → e = .requestIDConflict) := by
  intro first other answer now sync
  have hevents : (performAll absentTimerCore deviceSha256 .initial
      [(.resolveBootstrap first, now), (sync, now)]).1 =
      [] ++ ⟨.resolveBootstrap first, now, .ok answer⟩ ::
        [⟨sync, now, .ok (pauseAnswer "command-3" 2 2000 true)⟩] := by rfl
  obtain ⟨t, u, -, -, -, -, hcommitted⟩ :=
    (resolution_exactlyOnce validLogs_initial run_performAll).1 [] first now answer _ hevents rfl
      (by simp)
  refine ⟨_, run_performAll, hcommitted, hcommitted.conflict other now rfl ?_ (by decide)⟩
  rintro a ⟨x, hx, ha⟩ b ⟨y, hy, hb⟩ hab
  simp only [List.mem_cons, List.not_mem_nil, or_false] at hx hy
  -- six payloads: two devices, three encodings
  obtain rfl | rfl := hx <;> obtain rfl | rfl := hy <;> obtain rfl | rfl | rfl := ha <;>
    obtain rfl | rfl | rfl := hb <;> first | rfl | exact absurd hab (by decide)

end Pomodorough.Store.Resolutions
