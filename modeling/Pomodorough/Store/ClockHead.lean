import Pomodorough.Store.Resolutions

/-! # The clock of a response

A response carries the latest of the server's time and of every clock the
reduction or the request knows. It is asked of the core in batches, each of
which begins with the head of those before. -/
namespace Pomodorough.Store.ClockHead
open Pomodorough.Library.Fallible Pomodorough.Library.KeyedLog
open Pomodorough.Store.Records Pomodorough.Store.SharedCoreValidation
open Pomodorough.Store.SharedCore Pomodorough.Store.OperationLogs
open Pomodorough.Store.OperationDomains Pomodorough.Store.Sync Pomodorough.Store.Bootstrap
open Pomodorough.Store.Transactions Pomodorough.Store.AccountRuns Pomodorough.Store.Resolutions

/-! ## The order of clocks -/

/-- The wall clock decides, and then the counter. -/
def clockKey (clock : HLC) : Int ×ₗ Int := toLex (clock.wallMs, clock.counter)

theorem wall_le_of_key_le {a b : HLC} (h : clockKey a ≤ clockKey b) : a.wallMs ≤ b.wallMs := by
  rcases Prod.Lex.toLex_le_toLex.mp h with hlt | ⟨heq, -⟩
  · exact hlt.le
  · exact heq.le

/-- `hlc.head.v1` answers with a clock that none of its input is after. -/
def HeadMaximal (core : Core) : Prop :=
  ∀ physicalNowMs observed wallMs counter,
    core.hlcHead physicalNowMs observed = .ok (some wallMs, some counter) →
    ∀ clock ∈ ⟨physicalNowMs, 0⟩ :: observed, clockKey clock ≤ clockKey ⟨wallMs, counter⟩

/-- None of the server's time and the observed clocks is after this one of them. -/
structure Latest (physicalNowMs : Int) (observed : List HLC) (head : HLC) : Prop where
  mem : head ∈ ⟨physicalNowMs, 0⟩ :: observed
  maximal : ∀ clock ∈ ⟨physicalNowMs, 0⟩ :: observed, clockKey clock ≤ clockKey head

/-- The latest of the server's time and the observed clocks. -/
structure IsHead (physicalNowMs : Int) (observed : List HLC) (head : HLC) : Prop where
  wall : 0 ≤ head.wallMs ∧ head.wallMs ≤ maxSafeRevision
  counter : 0 ≤ head.counter ∧ head.counter ≤ maxSafeRevision
  mem : head ∈ ⟨physicalNowMs, 0⟩ :: observed
  maximal : ∀ clock ∈ ⟨physicalNowMs, 0⟩ :: observed, clockKey clock ≤ clockKey head

section
variable {core : Core} {physicalNowMs : Int} {observed batch : List HLC} {head : HLC}

theorem hlcHeadPage_ok (hcore : HeadMaximal core)
    (h : hlcHeadPageWithCore core physicalNowMs observed = .ok head) :
    IsHead physicalNowMs observed head := by
  obtain ⟨⟨wallMs, counter⟩, hanswer, h⟩ := bind_ok_iff.mp h
  cases wallMs with
  | none => cases h
  | some wallMs =>
    cases counter with
    | none => cases h
    | some counter =>
      obtain ⟨_, hvalid, h⟩ := bind_ok_iff.mp h
      cases h
      obtain ⟨_, hbounds, hinput⟩ := bind_ok_iff.mp hvalid
      rw [check_ok_iff] at hbounds hinput
      exact ⟨⟨hbounds.1, hbounds.2.1⟩, hbounds.2.2, List.mem_cons.mpr hinput,
        hcore _ _ _ _ hanswer⟩

/-- A head stands for the clocks it was taken of. -/
theorem Latest.trans {first later : List HLC} {earlier : HLC}
    (hfirst : Latest physicalNowMs first earlier)
    (hlater : Latest physicalNowMs (earlier :: later) head) :
    Latest physicalNowMs (first ++ later) head := by
  refine ⟨?_, fun clock hclock => ?_⟩
  · rcases List.mem_cons.mp hlater.mem with rfl | hmem
    · exact List.mem_cons_self
    · rcases List.mem_cons.mp hmem with rfl | hmem
      · have hsub : ⟨physicalNowMs, 0⟩ :: first ⊆ ⟨physicalNowMs, 0⟩ :: (first ++ later) :=
          List.cons_subset_cons _ (List.subset_append_left _ _)
        exact hsub hfirst.mem
      · exact List.mem_cons_of_mem _ (List.mem_append_right _ hmem)
  · have hle := hlater.maximal earlier (List.mem_cons_of_mem _ List.mem_cons_self)
    rcases List.mem_cons.mp hclock with rfl | hmem
    · exact hlater.maximal _ List.mem_cons_self
    · rcases List.mem_append.mp hmem with hmem | hmem
      · exact (hfirst.maximal clock (List.mem_cons_of_mem _ hmem)).trans hle
      · exact hlater.maximal clock (List.mem_cons_of_mem _ (List.mem_cons_of_mem _ hmem))

theorem IsHead.latest (h : IsHead physicalNowMs observed head) :
    Latest physicalNowMs observed head := ⟨h.mem, h.maximal⟩

theorem IsHead.trans {first later : List HLC} {earlier : HLC}
    (hfirst : IsHead physicalNowMs first earlier)
    (hlater : IsHead physicalNowMs (earlier :: later) head) :
    IsHead physicalNowMs (first ++ later) head := by
  have hlatest := hfirst.latest.trans hlater.latest
  exact ⟨hlater.wall, hlater.counter, hlatest.mem, hlatest.maximal⟩

theorem hlcHeadSequenceFrom_ok (hcore : HeadMaximal core)
    (h : hlcHeadSequenceFrom core physicalNowMs batch observed = .ok head) :
    IsHead physicalNowMs (batch ++ observed) head := by
  induction observed generalizing batch with
  | nil =>
    rw [List.append_nil]
    exact hlcHeadPage_ok hcore h
  | cons clock observed ih =>
    unfold hlcHeadSequenceFrom at h
    split at h
    · obtain ⟨earlier, hpage, h⟩ := bind_ok_iff.mp h
      exact (hlcHeadPage_ok hcore hpage).trans (ih h)
    · have hrest := ih h
      rwa [List.append_assoc, List.singleton_append] at hrest

theorem hlcHeadSequence_ok (hcore : HeadMaximal core)
    (h : hlcHeadSequenceWithCore core physicalNowMs observed = .ok head) :
    IsHead physicalNowMs observed head := hlcHeadSequenceFrom_ok hcore h

end

/-! ## The head the small core answers -/

/-- `absentTimerCore` keeps the later of two clocks. -/
theorem foldl_maximal (observed : List HLC) (start : HLC) :
    ∀ clock ∈ start :: observed, clockKey clock ≤ clockKey (observed.foldl (fun head clock =>
      if head.wallMs < clock.wallMs ∨ head.wallMs = clock.wallMs ∧ head.counter < clock.counter
      then clock else head) start) := by
  induction observed generalizing start with
  | nil => simp
  | cons next observed ih =>
    intro clock hmem
    rw [List.foldl_cons]
    have hstart := ih (if start.wallMs < next.wallMs ∨
      start.wallMs = next.wallMs ∧ start.counter < next.counter then next else start)
    have hle := hstart _ List.mem_cons_self
    rcases List.mem_cons.mp hmem with rfl | hmem
    · refine le_trans ?_ hle
      split
      next hlater => exact (Prod.Lex.toLex_lt_toLex.mpr hlater).le
      next => exact le_refl _
    · rcases List.mem_cons.mp hmem with rfl | hmem
      · refine le_trans ?_ hle
        split
        next => exact le_refl _
        next hearlier =>
          refine not_lt.mp fun hlt => hearlier ?_
          exact Prod.Lex.toLex_lt_toLex.mp hlt
      · exact hstart clock (List.mem_cons_of_mem _ hmem)

theorem foldl_mem (observed : List HLC) (start : HLC) :
    (observed.foldl (fun head clock =>
      if head.wallMs < clock.wallMs ∨ head.wallMs = clock.wallMs ∧ head.counter < clock.counter
      then clock else head) start) ∈ start :: observed := by
  induction observed generalizing start with
  | nil => simp
  | cons next observed ih =>
    rw [List.foldl_cons]
    rcases List.mem_cons.mp (ih _) with heq | hmem
    · rw [heq]
      split <;> simp
    · exact List.mem_cons_of_mem _ (List.mem_cons_of_mem _ hmem)

/-! ## The clocks of an account -/

/-- The clock of an operation. -/
def clockOf : (d : Domain) → d.Operation → HLC
  | .timer => fun o : Command => ⟨o.hlcWallMs, o.hlcCounter⟩
  | .task => fun o : TaskOperation => ⟨o.hlcWallMs, o.hlcCounter⟩
  | .duration => fun o : DurationOperation => ⟨o.hlcWallMs, o.hlcCounter⟩
  | .autoStart => fun o : AutoStartOperation => ⟨o.hlcWallMs, o.hlcCounter⟩
  | .selectedTask => fun o : SelectedTaskOperation => ⟨o.hlcWallMs, o.hlcCounter⟩

/-- The clock of a stored operation. -/
def Stored (t : UserTables) (clock : HLC) : Prop :=
  ∃ d : Domain, ∃ operation ∈ d.log t, clockOf d operation = clock

/-- The clock of an operation of the request. -/
def Submitted (request : Option SyncRequest) (clock : HLC) : Prop :=
  ∃ asked ∈ request, ∃ d : Domain, ∃ operation ∈ d.submitted asked, clockOf d operation = clock

section
variable {t u : UserTables} {reduction : AccountReduction} {request : SyncRequest} {clock : HLC}

theorem clock_row (d : Domain) (deviceID : String) (operation : d.Operation) :
    clockOf d (d.row deviceID operation) = clockOf d operation := by
  cases d <;> rfl

theorem Stored.congr (h : ∀ d : Domain, d.log u = d.log t) : Stored u clock ↔ Stored t clock := by
  unfold Stored
  simp only [h]

theorem mem_operationClocks_loaded (h : Reduces t reduction) :
    clock ∈ operationClocks reduction.commands reduction.taskOperations
      reduction.durationOperations reduction.autoStartOperations
      reduction.selectedTaskOperations ↔ Stored t clock := by
  have hlog : ∀ d : Domain, (∃ operation ∈ d.log t, clockOf d operation = clock) ↔
      clock ∈ (d.loaded t).map (clockOf d) := by
    intro d
    rw [List.mem_map]
    exact exists_congr fun operation => and_congr_left' (d.loaded_perm.mem_iff).symm
  unfold Stored operationClocks
  simp only [hlog, Domain.exists_iff, List.mem_append, h.commands, h.taskOperations,
    h.durationOperations, h.autoStartOperations, h.selectedTaskOperations, or_assoc]
  exact Iff.rfl

theorem mem_operationClocks_submitted :
    clock ∈ operationClocks request.commands request.taskOperations request.durationOperations
      request.autoStartOperations request.selectedTaskOperations ↔
      Submitted (some request) clock := by
  have hsubmitted : ∀ d : Domain,
      (∃ operation ∈ d.submitted request, clockOf d operation = clock) ↔
        clock ∈ (d.submitted request).map (clockOf d) := fun d => List.mem_map.symm
  unfold Submitted operationClocks
  simp only [hsubmitted, Domain.exists_iff, List.mem_append, Option.mem_some_iff, or_assoc,
    exists_eq_left']
  exact Iff.rfl

theorem mem_hlcObservations (h : Reduces t reduction) (asked : Option SyncRequest) :
    clock ∈ hlcObservations reduction asked ↔ Stored t clock ∨ Submitted asked clock := by
  unfold hlcObservations
  rw [List.mem_append, mem_operationClocks_loaded h]
  refine or_congr_right ?_
  cases asked with
  | none => simp [Submitted]
  | some request => exact mem_operationClocks_submitted

/-- The stored clocks after a request are those before and its own, but for the
operations that were rejected. -/
theorem stored_offers {s : UserTables}
    (hlog : ∀ d : Domain, d.log t = offers d.keys (d.log s) (d.rows request)) :
    (Stored s clock → Stored t clock) ∧
      (Stored t clock → Stored s clock ∨ Submitted (some request) clock) := by
  constructor
  · rintro ⟨d, operation, hmem, hclock⟩
    refine ⟨d, operation, ?_, hclock⟩
    rw [hlog d]
    exact prefix_offers.subset hmem
  · rintro ⟨d, operation, hmem, hclock⟩
    rw [hlog d] at hmem
    rcases mem_of_mem_offers hmem with hold | hrow
    · exact .inl ⟨d, operation, hold, hclock⟩
    · obtain ⟨submitted, hsubmitted, rfl⟩ := List.mem_map.mp hrow
      exact .inr ⟨request, rfl, d, submitted, hsubmitted, (clock_row d _ _).symm.trans hclock⟩

end

/-! ## Responses -/

def headOf (result : SyncResult) : HLC := ⟨result.serverHLCWallMs, result.serverHLCCounter⟩

/-- A call that is answered with what is stored. -/
def Replayed (s : UserTables) (call : Call) : Prop :=
  ∃ request stored, call = .resolveBootstrap request ∧
    s.bootstrapResolutions.lookup request.requestID = some stored

/-- The tables whose logs a call keeps. -/
def kept (s : UserTables) : Call → UserTables
  | .resolveBootstrap request => strategyBase s request
  | _ => s

/-- The operations a call submits. -/
def asked : Call → Option SyncRequest
  | .sync request => some request
  | .resolveBootstrap request => some request.syncRequest
  | _ => none

/-- A response of the time `now` is headed by the clocks that are kept and
submitted, and those that are stored afterwards are among them. -/
structure Headed (now : Time) (base t : UserTables) (submitted : Option SyncRequest)
    (result : SyncResult) : Prop where
  serverTime : result.serverTime = now.utc
  head : ∃ observed, IsHead now.unixMilli observed (headOf result) ∧
    ∀ clock, clock ∈ observed ↔ Stored base clock ∨ Submitted submitted clock
  stored : ∀ clock, Stored t clock → Stored base clock ∨ Submitted submitted clock

section
variable {core : Core} {sha256 : Sha256} {s t u v : UserTables} {now : Time} {call : Call}
  {reduction : AccountReduction} {result : SyncResult} {submitted : Option SyncRequest}

theorem resultFromReduction_head (hcore : HeadMaximal core) {revision : Int}
    (h : resultFromReduction core reduction revision now submitted = .ok result) :
    result.serverTime = now.utc ∧
      IsHead now.unixMilli (hlcObservations reduction submitted) (headOf result) := by
  obtain ⟨head, hhead, h⟩ := bind_ok_iff.mp h
  cases h
  exact ⟨rfl, hlcHeadSequence_ok hcore hhead⟩

/-- The observed clocks are the reduced ones and the request's. -/
theorem headed_of_reduction {base : UserTables} (hreduces : Reduces u reduction)
    (htime : result.serverTime = now.utc)
    (hhead : IsHead now.unixMilli (hlcObservations reduction submitted) (headOf result))
    (hbase : ∀ clock, Stored base clock → Stored u clock)
    (hstored : ∀ clock, Stored u clock → Stored base clock ∨ Submitted submitted clock)
    (hlog : ∀ d : Domain, d.log t = d.log u) : Headed now base t submitted result := by
  refine ⟨htime, ⟨_, hhead, fun clock => ?_⟩, fun clock hclock => ?_⟩
  · rw [mem_hlcObservations hreduces]
    constructor
    · rintro (hclock | hclock)
      · exact hstored clock hclock
      · exact .inr hclock
    · rintro (hclock | hclock)
      · exact .inl (hbase clock hclock)
      · exact .inr hclock
  · exact hstored clock ((Stored.congr hlog).mp hclock)

theorem headed_materialize (hcore : HeadMaximal core)
    (h : materializeProjection core s now = .ok (t, result)) : Headed now s t none result := by
  obtain ⟨reduction, hcommit⟩ := materializeProjection_ok h
  obtain ⟨base, hbase, rfl⟩ := hcommit.result
  obtain ⟨htime, hhead⟩ := resultFromReduction_head hcore hbase
  exact headed_of_reduction hcommit.commit.reduces htime hhead (fun _ => id) (fun _ => .inl)
    hcommit.commit.log

theorem headed_sync (hcore : HeadMaximal core) (hs : ValidLogs s) {request : SyncRequest}
    (h : Sync.sync core s request now = .ok (t, result)) :
    Headed now s t (some request) result := by
  obtain ⟨u, applied, reduction, hcommit⟩ := sync_ok h
  obtain ⟨base, hbase, rfl⟩ := hcommit.result
  obtain ⟨htime, hhead⟩ := resultFromReduction_head hcore hbase
  have hlog : ∀ d : Domain, d.log u = offers d.keys (d.log s) (d.rows request) := fun d =>
    (hcommit.commit.log d).symm.trans (syncCommit_log hs hcommit d)
  exact headed_of_reduction hcommit.commit.reduces htime hhead
    (fun _ => (stored_offers hlog).1) (fun _ => (stored_offers hlog).2) hcommit.commit.log

theorem headed_resolve (hcore : HeadMaximal core) (hs : ValidLogs s)
    {request : BootstrapResolutionRequest} {application : BootstrapStrategyApplication}
    (h : ResolveCommit core sha256 s request now u application v t result) :
    Headed now (strategyBase s request) t (some request.syncRequest) result := by
  obtain ⟨base, hbase, hresult⟩ := h.result
  obtain ⟨htime, hhead⟩ := resultFromReduction_head hcore hbase
  have hrecorded : ∀ d : Domain, d.log t = d.log v := fun d => by
    rw [h.recorded]
    cases d <;> rfl
  have hlogs : ∀ d : Domain, d.log t = d.log u := fun d => (hrecorded d).trans (h.commit.log d)
  have hlog : ∀ d : Domain, d.log u =
      offers d.keys (d.log (strategyBase s request)) (d.rows request.syncRequest) := fun d =>
    (hlogs d).symm.trans (resolveCommit_log hs h d)
  have hsame : result.serverTime = base.serverTime ∧ headOf result = headOf base := by
    subst hresult
    unfold headOf
    dsimp only
    split <;> exact ⟨rfl, rfl⟩
  refine headed_of_reduction h.commit.reduces (hsame.1.trans htime) (hsame.2 ▸ hhead)
    (fun _ => (stored_offers hlog).1) (fun _ => (stored_offers hlog).2) hlogs

/-- Every answer that is not a replay is headed. -/
theorem headed_exec (hcore : HeadMaximal core) (hs : ValidLogs s) (hfresh : ¬ Replayed s call)
    (h : call.exec core sha256 now s = .ok (t, result)) :
    Headed now (kept s call) t (asked call) result := by
  cases call with
  | sync request => exact headed_sync hcore hs h
  | bootstrap => exact headed_materialize hcore h
  | history => exact headed_materialize hcore h
  | resolveBootstrap request =>
    rcases resolveBootstrap_ok (validLogs_strategyBase hs).utc h with
      ⟨stored, hreplay, -⟩ | ⟨u, application, v, hcommit⟩
    · exact absurd ⟨request, stored, rfl, hreplay.found⟩ hfresh
    · exact headed_resolve hcore hs hcommit

end

end Pomodorough.Store.ClockHead
