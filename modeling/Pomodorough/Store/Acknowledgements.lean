import Pomodorough.Store.Revisions
import Pomodorough.Web.SyncCore

/-! # Acknowledgements are exact

A stored operation stays as it is until a replacement, and a response answers
every submitted operation once: with the conflict it met, or with what became of
the stored operation. -/
namespace Pomodorough.Store.Acknowledgements
open Pomodorough.Library.Fallible Pomodorough.Library.KeyedLog
open Pomodorough.Store.Records Pomodorough.Store.SharedCoreValidation
open Pomodorough.Store.SharedCore Pomodorough.Store.OperationLogs
open Pomodorough.Store.OperationDomains Pomodorough.Store.Sync Pomodorough.Store.Bootstrap
open Pomodorough.Store.Transactions Pomodorough.Store.AccountRuns Pomodorough.Store.Resolutions
open Pomodorough.Store.Revisions

variable {core : Core} {sha256 : Sha256} {s t u v : UserTables} {now : Time} {call : Call}
  {reduction : AccountReduction} {event : Event} {events : List Event} {result : SyncResult}
  {request : SyncRequest} {applied : OperationApplication}

/-! ## Stored operations stay -/

/-- Only a replacement removes an operation from its log; the others append. -/
theorem log_prefix_exec (hs : ValidLogs s) (h : call.exec core sha256 now s = .ok (t, result))
    (hcall : replaces call = false) (d : Domain) : d.log s <+: d.log t := by
  have hmaterialize : ∀ {t : UserTables} {result : SyncResult},
      materializeProjection core s now = .ok (t, result) → d.log s <+: d.log t := by
    intro t result h
    obtain ⟨reduction, hcommit⟩ := materializeProjection_ok h
    rw [hcommit.commit.log d]
  cases call with
  | sync request =>
    obtain ⟨u, applied, reduction, hcommit⟩ := sync_ok h
    rw [syncCommit_log hs hcommit d]
    exact prefix_offers
  | bootstrap => exact hmaterialize h
  | history => exact hmaterialize h
  | resolveBootstrap request =>
    obtain ⟨stored, -, rfl⟩ | ⟨u, application, v, hcommit⟩ :=
      resolveBootstrap_ok (validLogs_strategyBase hs).utc h
    · exact List.prefix_refl _
    · have hstrategy : request.strategy ≠ bootstrapReplaceRemote := of_decide_eq_false hcall
      rw [resolveCommit_log hs hcommit d, strategyBase_other hstrategy]
      exact prefix_offers

/-- What a call that replaces nothing leaves of the stored operations. -/
structure Kept (s t : UserTables) : Prop where
  logs : ∀ d : Domain, d.log s <+: d.log t
  payloads : ∀ (d : Domain), ∀ x ∈ d.log s, ∀ y ∈ d.log t, d.id y = d.id x → y = x

theorem kept_step (hs : ValidLogs s) (h : Step core sha256 s event t)
    (hcall : replaces event.call = false) : Kept s t := by
  have ht : ValidLogs t := validLogs_run hs (.cons h .nil)
  have hlogs : ∀ d : Domain, d.log s <+: d.log t := by
    obtain ⟨result, -, hexec⟩ | ⟨-, rfl⟩ := h.cases_answer
    · exact log_prefix_exec hs hexec hcall
    · exact fun d => List.prefix_refl _
  refine ⟨hlogs, fun d x hx y hy hid => ?_⟩
  refine (ht.distinct d).eq_of_key hy ((hlogs d).subset hx) ?_
  rw [Lawful.mem_key, Lawful.mem_key, hid]

/-! ## Conflicts -/

/-- An operation of the log stands against a row: one with its id and another
payload, or, for a timer command with a new id, one with its device's sequence. -/
def Conflict : (d : Domain) → List d.Operation → d.Operation → Prop
  | .timer, log, row => (∃ x ∈ log, x.id = row.id ∧ x ≠ row) ∨
      (∀ x ∈ log, x.id ≠ row.id) ∧
        ∃ x ∈ log, x.deviceID = row.deviceID ∧ x.deviceSequence = row.deviceSequence
  | d, log, row => ∃ x ∈ log, d.id x = d.id row ∧ x ≠ row

theorem conflict_iff {d : Domain} {log : List d.Operation} {row : d.Operation}
    (hd : d.keys.Distinct log) : (verdict d.keys log row).IsConflict ↔ Conflict d log row := by
  unfold Verdict.IsConflict
  rw [verdict_keyTaken_iff hd, verdict_slotTaken_iff]
  cases d with
  | timer =>
    simp [Conflict, Domain.keys, commandKeys, Keys.SameSlot]
  | task => simp [Conflict, Domain.keys, keysByID, Keys.SameSlot, Domain.id]
  | duration => simp [Conflict, Domain.keys, keysByID, Keys.SameSlot, Domain.id]
  | autoStart => simp [Conflict, Domain.keys, keysByID, Keys.SameSlot, Domain.id]
  | selectedTask => simp [Conflict, Domain.keys, keysByID, Keys.SameSlot, Domain.id]

/-! ## Responses -/

def acknowledgement (id : String) (outcome : Outcome) : Web.SyncCore.Acknowledgement :=
  ⟨some id, some outcome.outcome, some outcome.reason⟩

/-- A response's acknowledgements of one kind, as the browser reads them. -/
def acknowledgements : Domain → SyncResult → List Web.SyncCore.Acknowledgement
  | .timer, result => result.acknowledgements.map fun a => acknowledgement a.commandID ⟨a.outcome, a.reason⟩
  | .task, result => result.taskAcknowledgements.map fun a => acknowledgement a.operationID ⟨a.outcome, a.reason⟩
  | .duration, result =>
    result.durationAcknowledgements.map fun a => acknowledgement a.operationID ⟨a.outcome, a.reason⟩
  | .autoStart, result =>
    result.autoStartAcknowledgements.map fun a => acknowledgement a.operationID ⟨a.outcome, a.reason⟩
  | .selectedTask, result =>
    result.selectedTaskAcknowledgements.map fun a => acknowledgement a.operationID ⟨a.outcome, a.reason⟩

/-- Whether the operation is the one that counts for what it sets. -/
def winning : (d : Domain) → AccountReduction → d.Operation → Bool
  | .timer, _, _ => false
  | .task, reduction, operation =>
    (reduction.winningTaskOperations.lookup operation.taskID).getD "" = operation.id
  | .duration, reduction, operation => operation.id ∈ reduction.winningDurationOperations
  | .autoStart, reduction, operation => reduction.winningAutoStartOperation = operation.id
  | .selectedTask, reduction, operation => reduction.winningSelectedTaskOperation = operation.id

def superseded : Domain → String
  | .timer => ""
  | .task => "superseded by newer task operation"
  | .duration => "superseded by newer duration operation"
  | .autoStart => "superseded by newer auto-start operation"
  | .selectedTask => "superseded by newer selected-task operation"

/-- What becomes of a stored operation. -/
def outcomeOf : (d : Domain) → AccountReduction → d.Operation → Outcome
  | .timer, reduction, command => (reduction.timer.outcomes.lookup command.id).getD ⟨"", ""⟩
  | d, reduction, operation =>
    if winning d reduction operation then ⟨"applied", ""⟩ else ⟨"ignored", superseded d⟩

/-- The rejection of an operation, or else what became of it. -/
def answerOf (d : Domain) (applied : OperationApplication) (reduction : AccountReduction)
    (operation : d.Operation) : Outcome :=
  ((d.rejections applied).lookup (d.id operation)).getD (outcomeOf d reduction operation)

theorem operationAcknowledgements_eq {α : Type} {id : α → String} {rejections : Rejections}
    {winning : α → Bool} {superseded : String} {operations : List α} :
    (operationAcknowledgements id rejections winning superseded operations).map
        (fun a => acknowledgement a.operationID ⟨a.outcome, a.reason⟩) =
      operations.map fun operation => acknowledgement (id operation)
        ((rejections.lookup (id operation)).getD
          (if winning operation then ⟨"applied", ""⟩ else ⟨"ignored", superseded⟩)) := by
  unfold operationAcknowledgements
  rw [List.map_map]
  refine List.map_congr_left fun operation _ => ?_
  show acknowledgement _ _ = _
  dsimp only [Function.comp_apply]
  cases rejections.lookup (id operation) with
  | some outcome => rfl
  | none => cases winning operation <;> rfl

/-- A response answers the submitted operations one by one. -/
theorem acknowledgements_eq {base : SyncResult} {changed : Bool} (d : Domain)
    (h : result = { addAcknowledgements base request applied reduction with changed := changed }) :
    acknowledgements d result = (d.submitted request).map fun operation =>
      acknowledgement (d.id operation) (answerOf d applied reduction operation) := by
  rw [h]
  cases d with
  | timer =>
    show List.map _ (timerAcknowledgements request.commands applied reduction) = _
    unfold timerAcknowledgements
    rw [List.map_map]
    rfl
  | task => exact operationAcknowledgements_eq
  | duration => exact operationAcknowledgements_eq
  | autoStart => exact operationAcknowledgements_eq
  | selectedTask => exact operationAcknowledgements_eq

/-- The response names the submitted operations, each once and in order, and the
browser accepts that. -/
structure Exact (request : SyncRequest) (result : SyncResult) : Prop where
  ids : ∀ d : Domain, (acknowledgements d result).map Web.SyncCore.Acknowledgement.id =
    (d.submitted request).map fun operation => some (d.id operation)
  outcomes : ∀ d : Domain, ∀ a ∈ acknowledgements d result,
    ∃ outcome ∈ ["applied", "ignored", "rejected"], a.outcome = some outcome
  accepted : ∀ (d : Domain) (field : String),
    Web.SyncCore.exactAcknowledgements (.array (acknowledgements d result)) field
      (some ((d.submitted request).map d.id)) =
      .ok (acknowledgements d result, (d.submitted request).map d.id)

/-- What a conflict is answered with. -/
def conflictReason (d : Domain) (log : List d.Operation) (row : d.Operation) : String :=
  if ∃ x ∈ log, d.id x = d.id row then d.idReason else "device sequence already used"

/-- What an operation is told that meets no conflict: the core's outcome of the
stored command, or whether the operation counts. -/
def Told (core : Core) (t : UserTables) (now : Time) :
    (d : Domain) → d.Operation → Web.SyncCore.Acknowledgement → Prop
  | .timer, command, a => ∃ timer outcome,
      reduceTimerWithSharedCore core (loadCommands t) now = .ok timer ∧
        timer.outcomes.lookup command.id = some outcome ∧ a = acknowledgement command.id outcome
  | _, _, a => a.outcome = some "applied" ∨ a.outcome = some "ignored"

/-- The answer to one operation, submitted after others of its kind. -/
structure Answer (core : Core) (base : UserTables) (request : SyncRequest) (now : Time)
    (t : UserTables) (d : Domain) (earlier later : List d.Operation) (operation : d.Operation)
    (a : Web.SyncCore.Acknowledgement) : Prop where
  /-- Rejected for a conflict with what is stored by then. -/
  conflict : ∀ log, log = offers d.keys (d.log base) (earlier.map (d.row request.deviceID)) →
    Conflict d log (d.row request.deviceID operation) →
      a = acknowledgement (d.id operation)
        ⟨"rejected", conflictReason d log (d.row request.deviceID operation)⟩
  /-- Without a conflict stored with exactly this payload. -/
  stored : ¬ Conflict d (offers d.keys (d.log base) (earlier.map (d.row request.deviceID)))
      (d.row request.deviceID operation) →
    d.row request.deviceID operation ∈ d.log t ∧ a.id = some (d.id operation) ∧
      Told core t now d operation a
  /-- Submitted again: as if it were not. -/
  known : d.row request.deviceID operation ∈ d.log base →
    ¬ Conflict d (offers d.keys (d.log base) (earlier.map (d.row request.deviceID)))
      (d.row request.deviceID operation) ∧
    d.log t = offers d.keys (d.log base)
      ((earlier ++ later).map (d.row request.deviceID))

/-- The answers of a transaction that applied a request. -/
structure Answers (core : Core) (base : UserTables) (request : SyncRequest) (now : Time)
    (t : UserTables) (result : SyncResult) : Prop where
  exact : Exact request result
  each : ∀ (d : Domain) (earlier later : List d.Operation) (operation : d.Operation),
    d.submitted request = earlier ++ operation :: later →
    ∃ before a after, acknowledgements d result = before ++ a :: after ∧
      before.length = earlier.length ∧
      Answer core base request now t d earlier later operation a

section
variable {base : UserTables} {d : Domain} {earlier later : List d.Operation}
  {operation : d.Operation}

theorem rejectionOf_eq_none {v : Verdict} {reason : String} :
    rejectionOf reason v = none ↔ ¬ v.IsConflict := by
  cases v <;> simp [rejectionOf, Verdict.IsConflict]

/-- The rejections are the conflicts. -/
theorem rejections_eq (hbase : ValidLogs base) (h : Applied base request u applied)
    (hunique : ((d.submitted request).map d.id).Nodup)
    (hsplit : d.submitted request = earlier ++ operation :: later) {log : List d.Operation}
    (hlog : log = offers d.keys (d.log base) (earlier.map (d.row request.deviceID))) :
    (Conflict d log (d.row request.deviceID operation) →
      (d.rejections applied).lookup (d.id operation) =
        some ⟨"rejected", conflictReason d log (d.row request.deviceID operation)⟩) ∧
    (¬ Conflict d log (d.row request.deviceID operation) →
      (d.rejections applied).lookup (d.id operation) = none) := by
  have hd : d.keys.Distinct log := hlog ▸ distinct_offers (hbase.distinct d)
  rw [h.rejections d earlier later operation hsplit hunique, ← hlog, ← conflict_iff hd]
  refine ⟨fun hconflict => ?_, fun hnot => rejectionOf_eq_none.mpr hnot⟩
  have hkey : ∀ x, d.keys.key x = d.id x := fun x => Lawful.mem_key
  unfold conflictReason
  obtain hv | hv := hconflict
  · obtain ⟨x, hx, hid, -⟩ := (verdict_keyTaken_iff hd).mp hv
    rw [hkey, hkey] at hid
    rw [hv, if_pos ⟨x, hx, hid⟩]
    rfl
  · obtain ⟨hids, -⟩ := verdict_slotTaken_iff.mp hv
    have hnone : ¬ ∃ x ∈ log, d.id x = d.id (d.row request.deviceID operation) := by
      rintro ⟨x, hx, hid⟩
      refine hids x hx ?_
      rw [hkey, hkey, hid]
    rw [hv, if_neg hnone]
    rfl

/-- A row that meets no conflict is stored. -/
theorem mem_log_of_not_conflict (hbase : ValidLogs base) (h : Applied base request u applied)
    (hsplit : d.submitted request = earlier ++ operation :: later)
    (hnot : ¬ Conflict d (offers d.keys (d.log base) (earlier.map (d.row request.deviceID)))
      (d.row request.deviceID operation)) :
    d.row request.deviceID operation ∈ d.log u := by
  rw [← conflict_iff (distinct_offers (hbase.distinct d))] at hnot
  rw [h.log d]
  unfold Domain.rows
  rw [hsplit, List.map_append, List.map_cons, offers_append, offers_cons]
  exact prefix_offers.subset (mem_offer_of_not_conflict hnot)

/-- A stored row that is submitted again meets no conflict and inserts nothing. -/
theorem known_of_mem (hbase : ValidLogs base) (h : Applied base request u applied)
    (hsplit : d.submitted request = earlier ++ operation :: later)
    (hmem : d.row request.deviceID operation ∈ d.log base) :
    ¬ Conflict d (offers d.keys (d.log base) (earlier.map (d.row request.deviceID)))
      (d.row request.deviceID operation) ∧
    d.log u = offers d.keys (d.log base)
      ((earlier ++ later).map (d.row request.deviceID)) := by
  have hd : d.keys.Distinct (offers d.keys (d.log base)
      (earlier.map (d.row request.deviceID))) := distinct_offers (hbase.distinct d)
  have hstored : d.row request.deviceID operation ∈
      offers d.keys (d.log base) (earlier.map (d.row request.deviceID)) := prefix_offers.subset hmem
  constructor
  · rw [← conflict_iff hd]
    rintro (hv | hv)
    · rw [(verdict_duplicate_iff hd).mpr hstored] at hv
      cases hv
    · rw [(verdict_duplicate_iff hd).mpr hstored] at hv
      cases hv
  · rw [h.log d]
    unfold Domain.rows
    rw [hsplit, List.map_append, List.map_cons, offers_append, offers_cons, offer_of_mem hd hstored,
      List.map_append, offers_append]

/-- A stored operation is told of by the reduction. -/
theorem told_outcomeOf (hreduced : reduceAccount core u now = .ok reduction)
    (ht : ∀ d : Domain, d.log t = d.log u) {deviceID : String}
    (hmem : d.row deviceID operation ∈ d.log u) :
    Told core t now d operation (acknowledgement (d.id operation) (outcomeOf d reduction operation)) ∧
      (outcomeOf d reduction operation).outcome ∈ ["applied", "ignored", "rejected"] := by
  have hothers : ∀ winning : Bool, ∀ superseded : String,
      ((if winning then (⟨"applied", ""⟩ : Outcome) else ⟨"ignored", superseded⟩).outcome =
          "applied" ∨
        (if winning then (⟨"applied", ""⟩ : Outcome) else ⟨"ignored", superseded⟩).outcome =
          "ignored") := by
    intro winning superseded
    cases winning
    · exact .inr rfl
    · exact .inl rfl
  have htold : d ≠ .timer → (outcomeOf d reduction operation).outcome = "applied" ∨
      (outcomeOf d reduction operation).outcome = "ignored" := by
    intro hd
    cases d with
    | timer => exact absurd rfl hd
    | task => exact hothers _ _
    | duration => exact hothers _ _
    | autoStart => exact hothers _ _
    | selectedTask => exact hothers _ _
  cases d with
  | timer =>
    have haccepted := (reduceAccount_ok hreduced).accepted
    have hid : operation.id ∈ reduction.timer.outcomes := by
      rw [haccepted.outcomes, List.mem_map]
      exact ⟨_, mem_sortBy.mpr hmem, rfl⟩
    obtain ⟨outcome, hlookup⟩ := Option.isSome_iff_exists.mp (AList.lookup_isSome.mpr hid)
    have houtcome : outcomeOf .timer reduction operation = outcome := by
      show (reduction.timer.outcomes.lookup operation.id).getD ⟨"", ""⟩ = outcome
      rw [hlookup]
      rfl
    have hload : loadCommands t = loadCommands u := Domain.loaded_congr .timer (ht .timer)
    rw [houtcome]
    refine ⟨⟨reduction.timer, outcome, ?_, hlookup, rfl⟩, ?_⟩
    · rw [hload]
      exact reduceAccount_timer hreduced
    · exact haccepted.kinds ⟨operation.id, outcome⟩ (AList.mem_lookup_iff.mp hlookup)
  | task =>
    obtain h | h := htold (by decide)
    · exact ⟨.inl (congrArg some h), by rw [h]; decide⟩
    · exact ⟨.inr (congrArg some h), by rw [h]; decide⟩
  | duration =>
    obtain h | h := htold (by decide)
    · exact ⟨.inl (congrArg some h), by rw [h]; decide⟩
    · exact ⟨.inr (congrArg some h), by rw [h]; decide⟩
  | autoStart =>
    obtain h | h := htold (by decide)
    · exact ⟨.inl (congrArg some h), by rw [h]; decide⟩
    · exact ⟨.inr (congrArg some h), by rw [h]; decide⟩
  | selectedTask =>
    obtain h | h := htold (by decide)
    · exact ⟨.inl (congrArg some h), by rw [h]; decide⟩
    · exact ⟨.inr (congrArg some h), by rw [h]; decide⟩

/-- The answer to one operation, whichever way it went. -/
theorem answer_of_applied (hbase : ValidLogs base) (h : Applied base request u applied)
    (hunique : ((d.submitted request).map d.id).Nodup)
    (hreduced : reduceAccount core u now = .ok reduction)
    (ht : ∀ d : Domain, d.log t = d.log u)
    (hsplit : d.submitted request = earlier ++ operation :: later) :
    Answer core base request now t d earlier later operation
        (acknowledgement (d.id operation) (answerOf d applied reduction operation)) ∧
      (answerOf d applied reduction operation).outcome ∈ ["applied", "ignored", "rejected"] := by
  obtain ⟨hconflict, hfree⟩ := rejections_eq hbase h hunique hsplit rfl
  refine ⟨⟨?_, fun hnot => ?_, fun hmem => ?_⟩, ?_⟩
  · rintro log rfl hc
    unfold answerOf
    rw [hconflict hc]
    rfl
  · have hstored := mem_log_of_not_conflict hbase h hsplit hnot
    unfold answerOf
    rw [hfree hnot, ht d]
    exact ⟨hstored, rfl, (told_outcomeOf hreduced ht hstored).1⟩
  · rw [ht d]
    exact known_of_mem hbase h hsplit hmem
  · unfold answerOf
    by_cases hc : Conflict d (offers d.keys (d.log base) (earlier.map (d.row request.deviceID)))
        (d.row request.deviceID operation)
    · rw [hconflict hc]
      simp
    · rw [hfree hc]
      exact (told_outcomeOf hreduced ht (mem_log_of_not_conflict hbase h hsplit hc)).2

end

/-- A transaction that applied a request answers it exactly. -/
theorem answers_of_applied {base : UserTables} (hbase : ValidLogs base)
    (h : Applied base request u applied)
    (hunique : validateUniqueOperationIDs request = .ok ())
    (hreduced : reduceAccount core u now = .ok reduction)
    (ht : ∀ d : Domain, d.log t = d.log u)
    (hresult : ∀ d : Domain, acknowledgements d result = (d.submitted request).map fun operation =>
      acknowledgement (d.id operation) (answerOf d applied reduction operation)) :
    Answers core base request now t result := by
  have hnodup := validateUniqueOperationIDs_ok hunique
  have hids : ∀ d : Domain, (acknowledgements d result).map Web.SyncCore.Acknowledgement.id =
      (d.submitted request).map fun operation => some (d.id operation) := by
    intro d
    rw [hresult d, List.map_map]
    rfl
  have houtcomes : ∀ d : Domain, ∀ a ∈ acknowledgements d result,
      (∃ outcome ∈ ["applied", "ignored", "rejected"], a.outcome = some outcome) ∧
        a.reason.isSome = true := by
    intro d a ha
    rw [hresult d, List.mem_map] at ha
    obtain ⟨operation, hmem, rfl⟩ := ha
    obtain ⟨earlier, later, hsplit⟩ := List.append_of_mem hmem
    exact ⟨⟨_, (answer_of_applied hbase h (hnodup d) hreduced ht hsplit).2, rfl⟩, rfl⟩
  refine ⟨⟨hids, fun d a ha => (houtcomes d a ha).1, fun d field => ?_⟩, ?_⟩
  · refine Web.SyncCore.exactAcknowledgements_ok ?_ (fun a ha => houtcomes d a ha) (hnodup d)
    rw [hids d, List.map_map]
    rfl
  · intro d earlier later operation hsplit
    have hanswer := (answer_of_applied hbase h (hnodup d) hreduced ht hsplit).1
    refine ⟨earlier.map fun operation => acknowledgement (d.id operation)
      (answerOf d applied reduction operation), _, later.map fun operation =>
      acknowledgement (d.id operation) (answerOf d applied reduction operation), ?_, ?_, hanswer⟩
    · rw [hresult d, hsplit, List.map_append, List.map_cons]
    · rw [List.length_map]

/-! ## Calls -/

theorem sync_answers {request : SyncRequest} (hs : ValidLogs s)
    (h : sync core s request now = .ok (t, result)) : Answers core s request now t result := by
  obtain ⟨u, applied, reduction, hcommit⟩ := sync_ok h
  have hbase : ValidLogs (recordSyncDevice s request.deviceID now) := hs.ofLogs fun d => by simp
  have happlied := applyOperations_ok hbase.utc hcommit.operations
  obtain ⟨base, -, hresult⟩ := hcommit.result
  have hanswers := answers_of_applied (t := t) hbase happlied hcommit.unique
    hcommit.commit.reduced hcommit.commit.log fun d => acknowledgements_eq d hresult
  -- recording the device leaves the logs alone
  refine ⟨hanswers.exact, fun d earlier later operation hsplit => ?_⟩
  obtain ⟨before, a, after, hsplit', hlength, hanswer⟩ := hanswers.each d earlier later operation hsplit
  have hconflict := hanswer.conflict
  have hstored := hanswer.stored
  have hknown := hanswer.known
  rw [log_recordSyncDevice] at hconflict hstored hknown
  exact ⟨before, a, after, hsplit', hlength, hconflict, hstored, hknown⟩

theorem resolve_answers {request : BootstrapResolutionRequest}
    {application : BootstrapStrategyApplication} (hs : ValidLogs s)
    (h : ResolveCommit core sha256 s request now u application v t result)
    (hstrategy : request.strategy ≠ bootstrapKeepRemote) :
    Answers core (Transactions.strategyBase s request) request.syncRequest now t result := by
  have hbase : ValidLogs (Transactions.strategyBase s request) := validLogs_strategyBase hs
  have happlied := applyOperations_ok hbase.utc h.applied.operations
  have ht : ∀ d : Domain, d.log t = d.log u := fun d => by
    rw [← h.commit.log d, h.recorded]
    cases d <;> rfl
  obtain ⟨base, -, hresult⟩ := h.result
  rw [if_neg hstrategy] at hresult
  exact answers_of_applied hbase happlied h.valid.unique h.commit.reduced ht fun d =>
    acknowledgements_eq d hresult

/-- The ids of the submitted operations are part of the normalized payload. -/
theorem ids_of_normalized {first retry : BootstrapResolutionRequest}
    (h : normalizedBootstrap retry = normalizedBootstrap first) (d : Domain) :
    (d.submitted retry.syncRequest).map d.id = (d.submitted first.syncRequest).map d.id := by
  have hrows : d.rows retry.syncRequest = d.rows first.syncRequest := by
    cases d
    · exact congrArg NormalizedPayload.commands h
    · exact congrArg NormalizedPayload.taskOperations h
    · exact congrArg NormalizedPayload.durationOperations h
    · exact congrArg NormalizedPayload.autoStartOperations h
    · exact congrArg NormalizedPayload.selectedTaskOperations h
  have hids : ∀ request : SyncRequest,
      (d.rows request).map d.id = (d.submitted request).map d.id := by
    intro request
    unfold Domain.rows
    rw [List.map_map]
    exact List.map_congr_left fun operation _ => d.lawful.id_row request.deviceID operation
  rw [← hids retry.syncRequest, hrows, hids first.syncRequest]

theorem Exact.congr {first retry : SyncRequest} {stored : SyncResult} (h : Exact first stored)
    (hids : ∀ d : Domain, (d.submitted retry).map d.id = (d.submitted first).map d.id)
    (hsame : ∀ d : Domain, acknowledgements d result = acknowledgements d stored) :
    Exact retry result := by
  refine ⟨fun d => ?_, fun d => ?_, fun d field => ?_⟩
  · have hsome := congrArg (List.map some) (hids d)
    rw [List.map_map, List.map_map] at hsome
    rw [hsame d, h.ids d]
    exact hsome.symm
  · rw [hsame d]
    exact h.outcomes d
  · rw [hsame d, hids d]
    exact h.accepted d field

theorem acknowledgements_replayed {stored : SyncResult}
    (h : normalizeStoredSyncResult (decodeStoredResponse stored) = .ok result) (d : Domain) :
    acknowledgements d result = acknowledgements d stored := by
  unfold normalizeStoredSyncResult at h
  split at h
  · cases h
    cases d <;> rfl
  · obtain ⟨_, -, h⟩ := bind_ok_iff.mp h
    cases h
    cases d <;> rfl

/-! ## Runs -/

/-- The resolutions a run asks for. -/
def resolutions : List Event → List BootstrapResolutionRequest
  | [] => []
  | ⟨.resolveBootstrap request, _, _⟩ :: events => request :: resolutions events
  | _ :: events => resolutions events

theorem resolutions_append {later : List Event} :
    resolutions (events ++ later) = resolutions events ++ resolutions later := by
  induction events with
  | nil => rfl
  | cons event events ih =>
    obtain ⟨call, now, answer⟩ := event
    cases call <;> simp [resolutions, ih]

theorem mem_resolutions {request : BootstrapResolutionRequest} (hmem : event ∈ events)
    (hcall : event.call = .resolveBootstrap request) : request ∈ resolutions events := by
  induction events with
  | nil => cases hmem
  | cons other events ih =>
    obtain ⟨call, now, answer⟩ := other
    obtain rfl | hlater := List.mem_cons.mp hmem
    · cases hcall
      exact List.mem_cons_self
    · have hrest := ih hlater
      cases call with
      | resolveBootstrap _ => exact List.mem_cons_of_mem _ hrest
      | sync _ => exact hrest
      | bootstrap => exact hrest
      | history => exact hrest

/-- What a run has stored under an id is the response to a request of the run. -/
def Originated (sha256 : Sha256) (events : List Event) (s : UserTables) : Prop :=
  ∀ id stored, s.bootstrapResolutions.lookup id = some stored → ∃ request ∈ resolutions events,
    stored.payloadHash = bootstrapPayloadHash sha256 request ∧
      (request.strategy ≠ bootstrapKeepRemote → Exact request.syncRequest stored.response)

theorem originated_run (h : Run core sha256 .initial events v) : Originated sha256 events v := by
  induction events using List.reverseRecOn generalizing v with
  | nil =>
    cases h
    intro id stored hstored
    rw [show UserTables.initial.bootstrapResolutions = ∅ from rfl, Finmap.lookup_empty] at hstored
    cases hstored
  | append_singleton events event ih =>
    obtain ⟨s, hbefore, hstep⟩ := h.last
    have hs : ValidLogs s := validLogs_run validLogs_initial hbefore
    have hsub : ∀ request ∈ resolutions events, request ∈ resolutions (events ++ [event]) := by
      intro request hmem
      exact resolutions_append ▸ List.mem_append_left _ hmem
    intro id stored hstored
    obtain hearlier | ⟨request, result, u, application, w, hcall, -, -, rfl, hcommit⟩ :=
      exists_commit_of_stored hs hstep hstored
    · obtain ⟨request, hmem, horigin⟩ := ih hbefore id stored hearlier
      exact ⟨request, hsub request hmem, horigin⟩
    · exact ⟨request, mem_resolutions (by simp) hcall, rfl, fun hstrategy =>
        (resolve_answers hs hcommit hstrategy).exact⟩

/-- What one call acknowledges. A retry repeats the acknowledgements of the call
that committed. -/
def StepAnswers (core : Core) (s : UserTables) (event : Event) (t : UserTables) : Prop :=
  match event.answer, event.call with
  | .ok result, .sync request => Answers core s request event.now t result
  | .ok result, .resolveBootstrap request => request.strategy ≠ bootstrapKeepRemote →
      Exact request.syncRequest result ∧
        (found s event.call = none → Answers core (Transactions.strategyBase s request)
          request.syncRequest event.now t result)
  | _, _ => True

theorem stepAnswers (hs : ValidLogs s) (horigin : Originated sha256 events s)
    (h : Step core sha256 s event t)
    (hfree : CollisionFree sha256 (resolutions (events ++ [event]))) :
    StepAnswers core s event t := by
  obtain ⟨call, now, answer⟩ := event
  obtain ⟨result, hanswer, hexec⟩ | ⟨⟨e, hanswer⟩, -⟩ := h.cases_answer
  · cases hanswer
    cases call with
    | sync request => exact sync_answers hs hexec
    | bootstrap => trivial
    | history => trivial
    | resolveBootstrap retry =>
      intro hstrategy
      obtain ⟨stored, hreplay, rfl⟩ | ⟨u, application, v, hcommit⟩ :=
        resolveBootstrap_ok (validLogs_strategyBase hs).utc hexec
      · obtain ⟨first, hmem, hhash, hexact⟩ := horigin retry.requestID stored hreplay.found
        have hpair : CollisionFree sha256 [first, retry] := by
          refine collisionFree_of_subset hfree fun request hrequest => ?_
          rw [resolutions_append, List.mem_append]
          obtain rfl | hrequest := List.mem_cons.mp hrequest
          · exact .inl hmem
          · rw [List.mem_singleton] at hrequest
            exact .inr (by simp [resolutions, hrequest])
        have hnormalized : normalizedBootstrap retry = normalizedBootstrap first := by
          refine normalizedBootstrap_of_matches hpair ?_
          rw [← hhash]
          exact hreplay.hash
        have hfirst : first.strategy ≠ bootstrapKeepRemote := by
          rw [show first.strategy = retry.strategy from
            (congrArg NormalizedPayload.strategy hnormalized).symm]
          exact hstrategy
        refine ⟨(hexact hfirst).congr (ids_of_normalized hnormalized)
          (acknowledgements_replayed hreplay.result), fun hnone => ?_⟩
        have hfound : t.bootstrapResolutions.lookup retry.requestID = none := hnone
        rw [hreplay.found] at hfound
        cases hfound
      · have hanswers := resolve_answers hs hcommit hstrategy
        exact ⟨hanswers.exact, fun _ => hanswers⟩
  · cases hanswer
    trivial

/-- In every run of a new account a stored operation stays as it is unless a
replacement removes it, and every call that submits operations acknowledges them
exactly. -/
theorem acknowledgements_exact (h : Run core sha256 .initial events v)
    (hfree : CollisionFree sha256 (resolutions events)) :
    ∀ before event after, events = before ++ event :: after → ∃ s t,
      Run core sha256 .initial before s ∧ Step core sha256 s event t ∧ Run core sha256 t after v ∧
        (replaces event.call = false → Kept s t) ∧ StepAnswers core s event t := by
  rintro before event after rfl
  obtain ⟨s, hbefore, hrest⟩ := h.split
  cases hrest with
  | @cons _ t _ _ _ hstep hafter =>
    have hs : ValidLogs s := validLogs_run validLogs_initial hbefore
    have hearlier : CollisionFree sha256 (resolutions (before ++ [event])) := by
      refine collisionFree_of_subset hfree fun request hmem => ?_
      rw [← List.singleton_append, ← List.append_assoc, resolutions_append]
      exact List.mem_append_left _ hmem
    exact ⟨s, t, hbefore, hstep, hafter, kept_step hs hstep,
      stepAnswers hs (originated_run hbefore) hstep hearlier⟩

/-- A merge and its retry. -/
theorem acknowledgements_exact_merge :
    let request := mergePause "request-1" "command-1" "device-a" 0 1000
    let now := Time.ofUnixMilli 2000
    let retry : Event := ⟨.resolveBootstrap request, now,
      .ok (pauseAnswer "command-1" 1 2000 false)⟩
    ∃ s t, Step absentTimerCore deviceSha256 s retry t ∧ Kept s t ∧
      StepAnswers absentTimerCore s retry t := by
  intro request now retry
  have hrun : Run absentTimerCore deviceSha256 .initial
      (performAll absentTimerCore deviceSha256 .initial
        [(.resolveBootstrap request, now), (.resolveBootstrap request, now)]).1 _ := run_performAll
  have hevents : (performAll absentTimerCore deviceSha256 .initial
      [(.resolveBootstrap request, now), (.resolveBootstrap request, now)]).1 =
      [⟨.resolveBootstrap request, now, .ok (pauseAnswer "command-1" 1 2000 true)⟩] ++ [retry] := by
    decide +kernel
  rw [hevents] at hrun
  have hfree : CollisionFree deviceSha256 (resolutions
      ([⟨.resolveBootstrap request, now, .ok (pauseAnswer "command-1" 1 2000 true)⟩] ++ [retry])) := by
    rintro a ⟨x, hx, ha⟩ b ⟨y, hy, hb⟩ hab
    have hrequest : ∀ x, x ∈ resolutions ([⟨.resolveBootstrap request, now,
        .ok (pauseAnswer "command-1" 1 2000 true)⟩] ++ [retry]) → x = request := by
      intro x hx
      simpa [resolutions, retry] using hx
    rw [hrequest x hx] at ha
    rw [hrequest y hy] at hb
    obtain rfl | rfl | rfl := ha <;> obtain rfl | rfl | rfl := hb <;>
      first | rfl | exact absurd hab (by decide)
  obtain ⟨s, t, -, hstep, -, hkept, hanswers⟩ :=
    acknowledgements_exact hrun hfree _ retry [] rfl
  exact ⟨s, t, hstep, hkept rfl, hanswers⟩

/-- A merged command that a replacement removed is acknowledged by a retry of
the merge. -/
theorem acknowledged_not_always_stored :
    ¬ ∀ (core : Core) (sha256 : Sha256) (events : List Event) (v : UserTables)
      (request : BootstrapResolutionRequest) (now : Time) (result : SyncResult),
      Run core sha256 .initial (events ++ [⟨.resolveBootstrap request, now, .ok result⟩]) v →
      ∀ command ∈ request.commands, ∀ a ∈ result.acknowledgements, a.commandID = command.id →
        a.outcome ≠ "rejected" → commandRow request.deviceID command ∈ v.timerCommands := by
  intro h
  let now := Time.ofUnixMilli 2000
  let merge := mergePause "request-1" "command-1" "device-a" 0 1000
  let replace : BootstrapResolutionRequest :=
    { mergePause "request-2" "command-2" "device-a" 1 1000 with strategy := bootstrapReplaceRemote }
  let calls : List (Call × Time) := [(.resolveBootstrap merge, now),
    (.resolveBootstrap replace, now), (.resolveBootstrap merge, now)]
  have hrun : Run absentTimerCore deviceSha256 .initial
      (performAll absentTimerCore deviceSha256 .initial calls).1
      (performAll absentTimerCore deviceSha256 .initial calls).2 := run_performAll
  obtain ⟨events, hevents⟩ : ∃ events, (performAll absentTimerCore deviceSha256 .initial calls).1 =
      events ++ [⟨.resolveBootstrap merge, now, .ok (pauseAnswer "command-1" 1 2000 false)⟩] :=
    ⟨(performAll absentTimerCore deviceSha256 .initial calls).1.take 2, by decide +kernel⟩
  rw [hevents] at hrun
  have hstored := h absentTimerCore deviceSha256 events _ merge now _ hrun
    (pauseAbsent "command-1" "device-a" 1000) (by simp [merge, mergePause])
    ⟨"command-1", "ignored", "timer is not the active running timer"⟩ (by simp [pauseAnswer]) rfl
    (by decide)
  have hcommands : (performAll absentTimerCore deviceSha256 .initial calls).2.timerCommands =
      [pauseAbsent "command-2" "device-a" 1000] := by decide +kernel
  rw [hcommands] at hstored
  revert hstored
  decide

end Pomodorough.Store.Acknowledgements
