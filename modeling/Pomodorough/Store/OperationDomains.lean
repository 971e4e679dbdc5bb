import Pomodorough.Store.OperationLogs

/-! # The loops as offers to keyed logs

Each of the five loops offers the rows of a request to a keyed log, one after
the other. Against stored rows, which are in UTC, comparing payloads column by
column is comparing with the row that would be inserted. -/
namespace Pomodorough.Store.OperationDomains
open Pomodorough.Library.Fallible Pomodorough.Library.KeyedLog
open Pomodorough.Store.Records Pomodorough.Store.SharedCoreValidation
open Pomodorough.Store.SharedCore Pomodorough.Store.OperationLogs

/-! ## One loop -/

/-- The keys of a log whose entries are told apart by id alone. -/
def keysByID {α : Type} (id : α → String) : Keys α String (String × Int) := ⟨id, fun _ => none⟩

/-- A timer command also occupies its device's sequence number. -/
def commandKeys : Keys Command String (String × Int) :=
  ⟨Command.id, fun command => some (command.deviceID, command.deviceSequence)⟩

/-- The decision that offering the row comes to. -/
def decisionOf {α : Type} (idReason : String) (row : α) : Verdict → Decision α
  | .inserted => .insert row
  | .duplicate => .known
  | .keyTaken => .rejected idReason
  | .slotTaken => .rejected "device sequence already used"

/-- What a conflict is answered with. -/
def rejectionOf (idReason : String) : Verdict → Option Outcome
  | .keyTaken => some ⟨"rejected", idReason⟩
  | .slotTaken => some ⟨"rejected", "device sequence already used"⟩
  | _ => none

/-- The decisions of a loop are verdicts on rows offered to the log. -/
structure Lawful {α : Type} [DecidableEq α] (id : α → String)
    (decision : String → List α → α → Decision α) (row : String → α → α)
    (K : Keys α String (String × Int)) (idReason : String) (occurredAt : α → Time) : Prop where
  key : ∀ a, K.key a = id a
  id_row : ∀ deviceID a, id (row deviceID a) = id a
  utc_row : ∀ deviceID a, (occurredAt (row deviceID a)).zone = 0
  decision_eq : ∀ deviceID log a, (∀ x ∈ log, (occurredAt x).zone = 0) →
    decision deviceID log a =
      decisionOf idReason (row deviceID a) (verdict K log (row deviceID a))

/-- A log's application after one more operation. -/
def offered {α : Type} [DecidableEq α] (id : α → String) (K : Keys α String (String × Int))
    (idReason : String) (a : LogApplication α) (operation row : α) : LogApplication α where
  log := offer K a.log row
  rejections := (rejectionOf idReason (verdict K a.log row)).elim a.rejections
    fun outcome => a.rejections.insert (id operation) outcome
  changed := a.changed || verdict K a.log row = .inserted

section
variable {α : Type} [DecidableEq α] {id : α → String}
  {decision : String → List α → α → Decision α} {row : String → α → α}
  {K : Keys α String (String × Int)} {idReason : String} {occurredAt : α → Time}
  {deviceID : String} {allowed : α → Bool} {insertError : String}
  {operation : α} {operations : List α} {a b : LogApplication α}

/-- One round of a loop. -/
theorem Lawful.applyEach_cons (L : Lawful id decision row K idReason occurredAt)
    (hutc : ∀ x ∈ a.log, (occurredAt x).zone = 0) :
    applyEach id (decision deviceID) allowed insertError (operation :: operations) a = (do
      check (verdict K a.log (row deviceID operation) = .inserted →
        allowed (row deviceID operation)) (fail insertError)
      applyEach id (decision deviceID) allowed insertError operations
        (offered id K idReason a operation (row deviceID operation))) := by
  simp only [applyEach, L.decision_eq deviceID a.log operation hutc, offered, offer]
  cases verdict K a.log (row deviceID operation) <;>
    simp [decisionOf, rejectionOf, check, bind, Except.bind]

theorem Lawful.utc_offered (L : Lawful id decision row K idReason occurredAt)
    (hutc : ∀ x ∈ a.log, (occurredAt x).zone = 0) :
    ∀ x ∈ (offered id K idReason a operation (row deviceID operation)).log,
      (occurredAt x).zone = 0 := by
  intro x hx
  obtain hx | rfl := mem_of_mem_offer hx
  · exact hutc x hx
  · exact L.utc_row deviceID operation

/-- A loop that succeeds has offered the rows. -/
theorem Lawful.applyEach_log (L : Lawful id decision row K idReason occurredAt)
    (hutc : ∀ x ∈ a.log, (occurredAt x).zone = 0)
    (h : applyEach id (decision deviceID) allowed insertError operations a = .ok b) :
    b.log = offers K a.log (operations.map (row deviceID)) ∧
      (∀ x ∈ b.log, (occurredAt x).zone = 0) := by
  induction operations generalizing a with
  | nil =>
    cases h
    exact ⟨rfl, hutc⟩
  | cons operation operations ih =>
    rw [L.applyEach_cons hutc] at h
    obtain ⟨_, -, h⟩ := bind_ok_iff.mp h
    exact ih (L.utc_offered hutc) h

/-- The flag is raised by the insertions. -/
theorem Lawful.applyEach_changed (L : Lawful id decision row K idReason occurredAt)
    (hutc : ∀ x ∈ a.log, (occurredAt x).zone = 0)
    (h : applyEach id (decision deviceID) allowed insertError operations a = .ok b) :
    b.changed = true ↔ a.changed = true ∨ b.log ≠ a.log := by
  induction operations generalizing a with
  | nil =>
    cases h
    simp
  | cons operation operations ih =>
    rw [L.applyEach_cons hutc] at h
    obtain ⟨_, -, h⟩ := bind_ok_iff.mp h
    have hlog := (L.applyEach_log (L.utc_offered hutc) h).1
    rw [ih (L.utc_offered hutc) h]
    by_cases hv : verdict K a.log (row deviceID operation) = .inserted
    · have hoff : (offered id K idReason a operation (row deviceID operation)).log =
          a.log ++ [row deviceID operation] := offer_of_inserted hv
      have hne : b.log ≠ a.log := by
        intro heq
        have hprefix : a.log ++ [row deviceID operation] <+: b.log := by
          rw [hlog, hoff]
          exact prefix_offers
        simpa [heq] using hprefix.length_le
      simp [offered, hv, hne]
    · have hoff : (offered id K idReason a operation (row deviceID operation)).log = a.log :=
        offer_of_not_inserted hv
      simp [offered, hv, offer_of_not_inserted]

/-- The rejection of an id is not touched by operations with other ids. -/
theorem Lawful.applyEach_rejections_of_not_mem (L : Lawful id decision row K idReason occurredAt)
    (hutc : ∀ x ∈ a.log, (occurredAt x).zone = 0)
    (h : applyEach id (decision deviceID) allowed insertError operations a = .ok b) {key : String}
    (hkey : key ∉ operations.map id) :
    b.rejections.lookup key = a.rejections.lookup key := by
  induction operations generalizing a with
  | nil =>
    cases h
    rfl
  | cons operation operations ih =>
    rw [List.map_cons, List.mem_cons, not_or] at hkey
    rw [L.applyEach_cons hutc] at h
    obtain ⟨_, -, h⟩ := bind_ok_iff.mp h
    rw [ih (L.utc_offered hutc) h hkey.2]
    show ((rejectionOf idReason _).elim a.rejections _).lookup key = _
    cases rejectionOf idReason (verdict K a.log (row deviceID operation)) with
    | none => rfl
    | some outcome => exact Finmap.lookup_insert_of_ne _ hkey.1

/-- What an operation of a request with distinct ids is answered: the rejection
of its verdict on the log as the operations before it left it. -/
theorem Lawful.applyEach_rejections (L : Lawful id decision row K idReason occurredAt)
    (hutc : ∀ x ∈ a.log, (occurredAt x).zone = 0)
    (h : applyEach id (decision deviceID) allowed insertError operations a = .ok b)
    {earlier later : List α} (hsplit : operations = earlier ++ operation :: later)
    (hids : (operations.map id).Nodup) (hnone : a.rejections.lookup (id operation) = none) :
    b.rejections.lookup (id operation) = rejectionOf idReason
      (verdict K (offers K a.log (earlier.map (row deviceID))) (row deviceID operation)) := by
  subst hsplit
  induction earlier generalizing a with
  | nil =>
    rw [List.nil_append, List.map_cons, List.nodup_cons] at hids
    rw [List.nil_append, L.applyEach_cons hutc] at h
    obtain ⟨_, -, h⟩ := bind_ok_iff.mp h
    rw [L.applyEach_rejections_of_not_mem (L.utc_offered hutc) h hids.1, List.map_nil, offers_nil]
    show ((rejectionOf idReason _).elim a.rejections _).lookup (id operation) = _
    cases rejectionOf idReason (verdict K a.log (row deviceID operation)) with
    | none => exact hnone
    | some outcome => exact Finmap.lookup_insert _
  | cons first earlier ih =>
    rw [List.cons_append, List.map_cons, List.nodup_cons] at hids
    have hne : id operation ≠ id first := by
      intro heq
      exact hids.1 (heq ▸ List.mem_map_of_mem (by simp))
    rw [List.cons_append, L.applyEach_cons hutc] at h
    obtain ⟨_, -, h⟩ := bind_ok_iff.mp h
    refine ih (L.utc_offered hutc) ?_ h hids.2
    show ((rejectionOf idReason _).elim a.rejections _).lookup (id operation) = none
    cases rejectionOf idReason (verdict K a.log (row deviceID first)) with
    | none => exact hnone
    | some outcome => exact (Finmap.lookup_insert_of_ne _ hne).trans hnone

/-- A loop whose rows pass the checks of their table succeeds. -/
theorem Lawful.applyEach_succeeds (L : Lawful id decision row K idReason occurredAt)
    (hutc : ∀ x ∈ a.log, (occurredAt x).zone = 0)
    (hallowed : ∀ operation ∈ operations, allowed (row deviceID operation) = true) :
    ∃ b, applyEach id (decision deviceID) allowed insertError operations a = .ok b := by
  induction operations generalizing a with
  | nil => exact ⟨a, rfl⟩
  | cons operation operations ih =>
    obtain ⟨b, hb⟩ := ih (a := offered id K idReason a operation (row deviceID operation))
      (L.utc_offered hutc) fun o ho => hallowed o (List.mem_cons_of_mem operation ho)
    refine ⟨b, ?_⟩
    rw [L.applyEach_cons hutc, bind_ok_iff]
    exact ⟨(), check_ok_iff.mpr fun _ => hallowed operation (by simp), hb⟩

/-- On the log that a loop has left, an offer that was taken is a duplicate, and
any other has the verdict it had. -/
theorem Lawful.rejection_again (L : Lawful id decision row K idReason occurredAt)
    (hdistinct : K.Distinct a.log) (hutc : ∀ x ∈ a.log, (occurredAt x).zone = 0)
    (h : applyEach id (decision deviceID) allowed insertError (operation :: operations) a = .ok b)
    (hids : ((operation :: operations).map id).Nodup) :
    verdict K b.log (row deviceID operation) ≠ .inserted ∧
      rejectionOf idReason (verdict K b.log (row deviceID operation)) =
        rejectionOf idReason (verdict K a.log (row deviceID operation)) := by
  have hlog : b.log = offers K (offer K a.log (row deviceID operation))
      (operations.map (row deviceID)) := (L.applyEach_log hutc h).1
  have hkept : offer K a.log (row deviceID operation) <+: b.log := hlog ▸ prefix_offers
  have hbdistinct : K.Distinct b.log := hlog ▸ distinct_offers (distinct_offer hdistinct)
  obtain hinserted | hduplicate | hkey | hslot :
      verdict K a.log (row deviceID operation) = .inserted ∨
        verdict K a.log (row deviceID operation) = .duplicate ∨
          (verdict K a.log (row deviceID operation)).IsConflict := verdict_cases _ _
  · have hmem : row deviceID operation ∈ b.log :=
      hkept.subset (mem_offer_of_not_conflict (by simp [hinserted, Verdict.IsConflict]))
    rw [(verdict_duplicate_iff hbdistinct).mpr hmem, hinserted]
    exact ⟨by simp, rfl⟩
  · have hmem : row deviceID operation ∈ b.log :=
      hkept.subset (mem_offer_of_not_conflict (by simp [hduplicate, Verdict.IsConflict]))
    rw [(verdict_duplicate_iff hbdistinct).mpr hmem, hduplicate]
    exact ⟨by simp, rfl⟩
  · obtain ⟨x, hx, hxkey, hne⟩ := exists_of_verdict_keyTaken hkey
    have hmem : x ∈ b.log := hkept.subset (prefix_offer.subset hx)
    rw [(verdict_keyTaken_iff hbdistinct).mpr ⟨x, hmem, hxkey, hne⟩, hkey]
    exact ⟨by simp, rfl⟩
  · -- no later operation has the id either
    obtain ⟨hkeys, x, hx, hxslot⟩ := verdict_slotTaken_iff.mp hslot
    have hnone : ∀ y ∈ b.log, K.key y ≠ K.key (row deviceID operation) := by
      intro y hy heq
      rw [hlog, offer_of_not_inserted (by simp [hslot])] at hy
      obtain hy | hy := mem_of_mem_offers hy
      · exact hkeys y hy heq
      · obtain ⟨later, hlater, rfl⟩ := List.mem_map.mp hy
        rw [L.key, L.key, L.id_row, L.id_row] at heq
        rw [List.map_cons, List.nodup_cons] at hids
        exact hids.1 (heq ▸ List.mem_map_of_mem hlater)
    have hmem : x ∈ b.log := hkept.subset (prefix_offer.subset hx)
    rw [verdict_slotTaken_iff.mpr ⟨hnone, x, hmem, hxslot⟩, hslot]
    exact ⟨by simp, rfl⟩

/-- A loop that is gone through again on its own log leaves the log as it is and
rejects what it rejected. -/
theorem Lawful.applyEach_again (L : Lawful id decision row K idReason occurredAt)
    (hdistinct : K.Distinct a.log) (hutc : ∀ x ∈ a.log, (occurredAt x).zone = 0)
    (h : applyEach id (decision deviceID) allowed insertError operations a = .ok b)
    (hids : (operations.map id).Nodup) (changed : Bool) :
    applyEach id (decision deviceID) allowed insertError operations
      { a with log := b.log, changed := changed } = .ok { b with changed := changed } := by
  induction operations generalizing a with
  | nil =>
    cases h
    rfl
  | cons operation operations ih =>
    have hbutc : ∀ x ∈ b.log, (occurredAt x).zone = 0 := (L.applyEach_log hutc h).2
    obtain ⟨hnew, hrejection⟩ := L.rejection_again hdistinct hutc h hids
    rw [L.applyEach_cons hutc] at h
    obtain ⟨_, -, h⟩ := bind_ok_iff.mp h
    have hround : offered id K idReason { a with log := b.log, changed := changed } operation
        (row deviceID operation) =
        { offered id K idReason a operation (row deviceID operation) with
          log := b.log, changed := changed } := by
      unfold offered
      simp only [offer_of_not_inserted hnew, hrejection, hnew, decide_false, Bool.or_false]
    have hagain : applyEach id (decision deviceID) allowed insertError (operation :: operations)
        { a with log := b.log, changed := changed } = _ := L.applyEach_cons hbutc
    rw [hagain, bind_ok_iff]
    refine ⟨(), check_ok_iff.mpr fun hinserted => absurd hinserted hnew, ?_⟩
    rw [hround]
    exact ih (distinct_offer hdistinct) (L.utc_offered hutc) h (List.nodup_cons.mp hids).2

end

/-! ## Payloads -/

section
variable {deviceID : String}

theorem sameCommand_iff {stored submitted : Command} (hid : stored.id = submitted.id)
    (hutc : stored.occurredAt.zone = 0) :
    sameCommand stored submitted deviceID = true ↔ stored = commandRow deviceID submitted := by
  cases stored
  cases submitted
  simp_all [sameCommand, commandRow, Time.equal_iff_eq_utc hutc, and_assoc]

theorem sameTaskOperation_iff {stored submitted : TaskOperation} (hid : stored.id = submitted.id)
    (hutc : stored.occurredAt.zone = 0) :
    sameTaskOperation stored submitted deviceID = true ↔
      stored = taskOperationRow deviceID submitted := by
  cases stored
  cases submitted
  simp_all [sameTaskOperation, taskOperationRow, Time.equal_iff_eq_utc hutc, and_assoc]

theorem sameDurationOperation_iff {stored submitted : DurationOperation}
    (hid : stored.id = submitted.id) (hutc : stored.occurredAt.zone = 0) :
    sameDurationOperation stored submitted deviceID = true ↔
      stored = durationOperationRow deviceID submitted := by
  cases stored
  cases submitted
  simp_all [sameDurationOperation, durationOperationRow, Time.equal_iff_eq_utc hutc, and_assoc]

theorem sameAutoStartOperation_iff {stored submitted : AutoStartOperation}
    (hid : stored.id = submitted.id) (hutc : stored.occurredAt.zone = 0) :
    sameAutoStartOperation stored submitted deviceID = true ↔
      stored = autoStartOperationRow deviceID submitted := by
  cases stored
  cases submitted
  simp_all [sameAutoStartOperation, autoStartOperationRow, Time.equal_iff_eq_utc hutc, and_assoc]

theorem sameSelectedTaskOperation_iff {stored submitted : SelectedTaskOperation}
    (hid : stored.id = submitted.id) (hutc : stored.occurredAt.zone = 0) :
    sameSelectedTaskOperation stored submitted deviceID = true ↔
      stored = selectedTaskOperationRow deviceID submitted := by
  cases stored
  cases submitted
  simp_all [sameSelectedTaskOperation, selectedTaskOperationRow, Time.equal_iff_eq_utc hutc,
    and_assoc]

end

/-- The loops that compare ids and payloads only. -/
theorem lawful_byID {α : Type} [DecidableEq α] {id : α → String} {same : α → α → String → Bool}
    {row : String → α → α} {occurredAt : α → Time}
    (hid : ∀ deviceID a, id (row deviceID a) = id a)
    (hutc : ∀ deviceID a, (occurredAt (row deviceID a)).zone = 0)
    (hsame : ∀ deviceID stored a, id stored = id a → (occurredAt stored).zone = 0 →
      (same stored a deviceID = true ↔ stored = row deviceID a)) :
    Lawful id (decideByID id same row) row (keysByID id)
      "operation ID already used with different payload" occurredAt where
  key _ := rfl
  id_row := hid
  utc_row := hutc
  decision_eq deviceID log a hlog := by
    have hslot : ∀ x, ¬ (keysByID id).SameSlot x (row deviceID a) := fun x h => h.1 rfl
    unfold decideByID verdict
    simp only [keysByID, hid] at hslot ⊢
    cases hfind : log.find? (fun stored => decide (id stored = id a)) with
    | some existing =>
      have hmem := List.mem_of_find?_eq_some hfind
      have heq : id existing = id a := by simpa using List.find?_some hfind
      simp only [hsame deviceID existing a heq (hlog existing hmem)]
      split <;> rfl
    | none => simp [hslot, decisionOf]

theorem lawful_commands :
    Lawful Command.id decideCommand commandRow commandKeys
      "command ID already used with different payload" Command.occurredAt where
  key _ := rfl
  id_row _ _ := rfl
  utc_row _ _ := rfl
  decision_eq deviceID log a hlog := by
    have hslot : ∀ x, commandKeys.SameSlot x (commandRow deviceID a) ↔
        x.deviceID = deviceID ∧ x.deviceSequence = a.deviceSequence := by
      intro x
      simp [Keys.SameSlot, commandKeys, commandRow]
    have hkey : ∀ x, commandKeys.key x = commandKeys.key (commandRow deviceID a) ↔ x.id = a.id :=
      fun _ => Iff.rfl
    unfold decideCommand verdict
    simp only [hslot, hkey]
    cases hfind : log.find? (fun stored => decide (stored.id = a.id)) with
    | some existing =>
      have hmem := List.mem_of_find?_eq_some hfind
      have heq : existing.id = a.id := by simpa using List.find?_some hfind
      simp only [sameCommand_iff heq (hlog existing hmem)]
      split <;> rfl
    | none =>
      dsimp only
      split <;> rfl

/-! ## The domains -/

/-- The five kinds of operation. -/
inductive Domain where
  | timer | task | duration | autoStart | selectedTask
  deriving DecidableEq, Repr

namespace Domain

abbrev Operation : Domain → Type
  | timer => Command
  | task => TaskOperation
  | duration => DurationOperation
  | autoStart => AutoStartOperation
  | selectedTask => SelectedTaskOperation

instance (d : Domain) : DecidableEq d.Operation :=
  match d with
  | timer => inferInstanceAs (DecidableEq Command)
  | task => inferInstanceAs (DecidableEq TaskOperation)
  | duration => inferInstanceAs (DecidableEq DurationOperation)
  | autoStart => inferInstanceAs (DecidableEq AutoStartOperation)
  | selectedTask => inferInstanceAs (DecidableEq SelectedTaskOperation)

def id : (d : Domain) → d.Operation → String
  | timer => Command.id
  | task => TaskOperation.id
  | duration => DurationOperation.id
  | autoStart => AutoStartOperation.id
  | selectedTask => SelectedTaskOperation.id

def occurredAt : (d : Domain) → d.Operation → Time
  | timer => Command.occurredAt
  | task => TaskOperation.occurredAt
  | duration => DurationOperation.occurredAt
  | autoStart => AutoStartOperation.occurredAt
  | selectedTask => SelectedTaskOperation.occurredAt

/-- The row an operation is stored as. -/
def row : (d : Domain) → String → d.Operation → d.Operation
  | timer => commandRow
  | task => taskOperationRow
  | duration => durationOperationRow
  | autoStart => autoStartOperationRow
  | selectedTask => selectedTaskOperationRow

def keys : (d : Domain) → Keys d.Operation String (String × Int)
  | timer => commandKeys
  | task => keysByID TaskOperation.id
  | duration => keysByID DurationOperation.id
  | autoStart => keysByID AutoStartOperation.id
  | selectedTask => keysByID SelectedTaskOperation.id

def decision : (d : Domain) → String → List d.Operation → d.Operation → Decision d.Operation
  | timer => decideCommand
  | task => decideByID TaskOperation.id sameTaskOperation taskOperationRow
  | duration => decideByID DurationOperation.id sameDurationOperation durationOperationRow
  | autoStart => decideByID AutoStartOperation.id sameAutoStartOperation autoStartOperationRow
  | selectedTask =>
    decideByID SelectedTaskOperation.id sameSelectedTaskOperation selectedTaskOperationRow

/-- The checks of the log's table. -/
def allowed : (d : Domain) → d.Operation → Bool
  | timer => commandAllowed
  | task => taskOperationAllowed
  | duration => durationOperationAllowed
  | autoStart => autoStartOperationAllowed
  | selectedTask => selectedTaskOperationAllowed

def idReason : Domain → String
  | timer => "command ID already used with different payload"
  | _ => "operation ID already used with different payload"

theorem lawful (d : Domain) : Lawful d.id d.decision d.row d.keys d.idReason d.occurredAt :=
  match d with
  | timer => lawful_commands
  | task => lawful_byID (fun _ _ => rfl) (fun _ _ => rfl) fun _ _ _ => sameTaskOperation_iff
  | duration => lawful_byID (fun _ _ => rfl) (fun _ _ => rfl) fun _ _ _ => sameDurationOperation_iff
  | autoStart => lawful_byID (fun _ _ => rfl) (fun _ _ => rfl) fun _ _ _ => sameAutoStartOperation_iff
  | selectedTask =>
    lawful_byID (fun _ _ => rfl) (fun _ _ => rfl) fun _ _ _ => sameSelectedTaskOperation_iff

/-- The stored log, in order of arrival. -/
def log : (d : Domain) → UserTables → List d.Operation
  | timer => UserTables.timerCommands
  | task => UserTables.taskOperations
  | duration => UserTables.durationOperations
  | autoStart => UserTables.autoStartOperations
  | selectedTask => UserTables.selectedTaskOperations

/-- The log as it is loaded. -/
def loaded : (d : Domain) → UserTables → List d.Operation
  | timer => loadCommands
  | task => loadTaskOperations
  | duration => loadDurationOperations
  | autoStart => loadAutoStartOperations
  | selectedTask => loadSelectedTaskOperations

def submitted : (d : Domain) → SyncRequest → List d.Operation
  | timer => SyncRequest.commands
  | task => SyncRequest.taskOperations
  | duration => SyncRequest.durationOperations
  | autoStart => SyncRequest.autoStartOperations
  | selectedTask => SyncRequest.selectedTaskOperations

/-- The rows a request offers. -/
def rows (d : Domain) (request : SyncRequest) : List d.Operation :=
  (d.submitted request).map (d.row request.deviceID)

def rejections : Domain → OperationApplication → Rejections
  | timer => OperationApplication.commandRejections
  | task => OperationApplication.taskRejections
  | duration => OperationApplication.durationRejections
  | autoStart => OperationApplication.autoStartRejections
  | selectedTask => OperationApplication.selectedTaskRejections

theorem exists_iff {P : Domain → Prop} :
    (∃ d, P d) ↔ P timer ∨ P task ∨ P duration ∨ P autoStart ∨ P selectedTask := by
  constructor
  · rintro ⟨d, hd⟩
    cases d <;> simp [hd]
  · rintro (h | h | h | h | h) <;> exact ⟨_, h⟩

end Domain

/-! ## The tables -/

/-- The logs as the code leaves them: ids are distinct and times are in UTC. -/
structure ValidLogs (t : UserTables) : Prop where
  distinct : ∀ d : Domain, d.keys.Distinct (d.log t)
  utc : ∀ d : Domain, ∀ x ∈ d.log t, (d.occurredAt x).zone = 0

theorem ValidLogs.ofLogs {s t : UserTables} (hs : ValidLogs s)
    (h : ∀ d : Domain, d.log t = d.log s) : ValidLogs t where
  distinct d := by
    rw [h d]
    exact hs.distinct d
  utc d := by
    rw [h d]
    exact hs.utc d

/-- The two states differ in their operation logs only. -/
structure SameBesideLogs (t u : UserTables) : Prop where
  devices : u.devices = t.devices
  commandOutcomes : u.commandOutcomes = t.commandOutcomes
  revision : u.revision = t.revision
  currentTimerID : u.currentTimerID = t.currentTimerID
  timerSessions : u.timerSessions = t.timerSessions
  bootstrapResolutions : u.bootstrapResolutions = t.bootstrapResolutions

theorem Lawful.mem_key {d : Domain} {x : d.Operation} : d.keys.key x = d.id x := d.lawful.key x

section
variable {t u : UserTables} {request : SyncRequest} {applied : OperationApplication}

/-- What applying a request does to each log. -/
structure Applied (t : UserTables) (request : SyncRequest) (u : UserTables)
    (applied : OperationApplication) : Prop where
  log : ∀ d : Domain, d.log u = offers d.keys (d.log t) (d.rows request)
  utc : ∀ d : Domain, ∀ x ∈ d.log u, (d.occurredAt x).zone = 0
  changed : applied.changed = true ↔ ∃ d : Domain, d.log u ≠ d.log t
  rejections : ∀ (d : Domain) (earlier later : List d.Operation) (operation : d.Operation),
    d.submitted request = earlier ++ operation :: later →
    ((d.submitted request).map d.id).Nodup →
    (d.rejections applied).lookup (d.id operation) = rejectionOf d.idReason
      (verdict d.keys (offers d.keys (d.log t) (earlier.map (d.row request.deviceID)))
        (d.row request.deviceID operation))
  beside : SameBesideLogs t u

/-- Applying a request runs the loop of each domain on its log. -/
theorem applyOperations_loop (h : applyOperations t request = .ok (u, applied)) (d : Domain) :
    ∃ insertError changed done,
      applyEach d.id (d.decision request.deviceID) d.allowed insertError (d.submitted request)
          { log := d.log t, changed := changed } = .ok done ∧
        done.log = d.log u ∧ done.rejections = d.rejections applied := by
  obtain ⟨commands, hcommands, h⟩ := bind_ok_iff.mp h
  obtain ⟨tasks, htasks, h⟩ := bind_ok_iff.mp h
  obtain ⟨durations, hdurations, h⟩ := bind_ok_iff.mp h
  obtain ⟨autoStarts, hautoStarts, h⟩ := bind_ok_iff.mp h
  obtain ⟨selectedTasks, hselectedTasks, h⟩ := bind_ok_iff.mp h
  cases h
  cases d with
  | timer => exact ⟨_, _, commands, hcommands, rfl, rfl⟩
  | task => exact ⟨_, _, tasks, htasks, rfl, rfl⟩
  | duration => exact ⟨_, _, durations, hdurations, rfl, rfl⟩
  | autoStart => exact ⟨_, _, autoStarts, hautoStarts, rfl, rfl⟩
  | selectedTask => exact ⟨_, _, selectedTasks, hselectedTasks, rfl, rfl⟩

theorem applyOperations_beside (h : applyOperations t request = .ok (u, applied)) :
    SameBesideLogs t u := by
  obtain ⟨_, -, h⟩ := bind_ok_iff.mp h
  obtain ⟨_, -, h⟩ := bind_ok_iff.mp h
  obtain ⟨_, -, h⟩ := bind_ok_iff.mp h
  obtain ⟨_, -, h⟩ := bind_ok_iff.mp h
  obtain ⟨_, -, h⟩ := bind_ok_iff.mp h
  cases h
  exact ⟨rfl, rfl, rfl, rfl, rfl, rfl⟩

theorem applyOperations_changed (hutc : ∀ d : Domain, ∀ x ∈ d.log t, (d.occurredAt x).zone = 0)
    (h : applyOperations t request = .ok (u, applied)) :
    applied.changed = true ↔ ∃ d : Domain, d.log u ≠ d.log t := by
  obtain ⟨commands, hcommands, h⟩ := bind_ok_iff.mp h
  obtain ⟨tasks, htasks, h⟩ := bind_ok_iff.mp h
  obtain ⟨durations, hdurations, h⟩ := bind_ok_iff.mp h
  obtain ⟨autoStarts, hautoStarts, h⟩ := bind_ok_iff.mp h
  obtain ⟨selectedTasks, hselectedTasks, h⟩ := bind_ok_iff.mp h
  cases h
  -- the flag is handed from one loop to the next
  have ctimer := Domain.timer.lawful.applyEach_changed (hutc .timer) hcommands
  have ctask := Domain.task.lawful.applyEach_changed (hutc .task) htasks
  have cduration := Domain.duration.lawful.applyEach_changed (hutc .duration) hdurations
  have cautoStart := Domain.autoStart.lawful.applyEach_changed (hutc .autoStart) hautoStarts
  have cselectedTask :=
    Domain.selectedTask.lawful.applyEach_changed (hutc .selectedTask) hselectedTasks
  rw [Domain.exists_iff, cselectedTask]
  simp only [cautoStart, cduration, ctask, ctimer, Domain.log, Bool.false_eq_true, false_or,
    or_assoc]

/-- A log that is submitted to holds times in UTC for its rows to be compared. -/
theorem applyOperations_log (h : applyOperations t request = .ok (u, applied)) (d : Domain)
    (hutc : d.submitted request = [] ∨ ∀ x ∈ d.log t, (d.occurredAt x).zone = 0) :
    d.log u = offers d.keys (d.log t) (d.rows request) := by
  obtain ⟨insertError, changed, done, hloop, hlog, -⟩ := applyOperations_loop h d
  rcases hutc with hnone | hutc
  · rw [hnone] at hloop
    cases hloop
    rw [← hlog, Domain.rows, hnone]
    rfl
  · rw [← hlog]
    exact (d.lawful.applyEach_log hutc hloop).1

theorem applyOperations_ok (hutc : ∀ d : Domain, ∀ x ∈ d.log t, (d.occurredAt x).zone = 0)
    (h : applyOperations t request = .ok (u, applied)) : Applied t request u applied where
  log d := applyOperations_log h d (.inr (hutc d))
  utc d := by
    obtain ⟨insertError, changed, done, hloop, hlog, -⟩ := applyOperations_loop h d
    rw [← hlog]
    exact (d.lawful.applyEach_log (hutc d) hloop).2
  changed := applyOperations_changed hutc h
  rejections d earlier later operation hsplit hids := by
    obtain ⟨insertError, changed, done, hloop, -, hrejections⟩ := applyOperations_loop h d
    rw [← hrejections]
    exact d.lawful.applyEach_rejections (hutc d) hloop hsplit hids (Finmap.lookup_empty _)
  beside := applyOperations_beside h

/-- Rows that pass the checks of their tables are inserted without error. -/
theorem applyOperations_succeeds (hutc : ∀ d : Domain, ∀ x ∈ d.log t, (d.occurredAt x).zone = 0)
    (hallowed : ∀ d : Domain, ∀ row ∈ d.rows request, d.allowed row = true) :
    ∃ u applied, applyOperations t request = .ok (u, applied) := by
  have hrow : ∀ d : Domain, ∀ operation ∈ d.submitted request,
      d.allowed (d.row request.deviceID operation) = true := fun d operation hmem =>
    hallowed d _ (List.mem_map_of_mem hmem)
  obtain ⟨commands, hcommands⟩ : ∃ b, applyTimerOperations request.deviceID request.commands
      { log := t.timerCommands } = .ok b :=
    Domain.timer.lawful.applyEach_succeeds (hutc .timer) (hrow .timer)
  obtain ⟨tasks, htasks⟩ : ∃ b, applyTaskOperations request.deviceID request.taskOperations
      { log := t.taskOperations, changed := commands.changed } = .ok b :=
    Domain.task.lawful.applyEach_succeeds (hutc .task) (hrow .task)
  obtain ⟨durations, hdurations⟩ : ∃ b,
      applyDurationOperations request.deviceID request.durationOperations
        { log := t.durationOperations, changed := tasks.changed } = .ok b :=
    Domain.duration.lawful.applyEach_succeeds (hutc .duration) (hrow .duration)
  obtain ⟨autoStarts, hautoStarts⟩ : ∃ b,
      applyAutoStartOperations request.deviceID request.autoStartOperations
        { log := t.autoStartOperations, changed := durations.changed } = .ok b :=
    Domain.autoStart.lawful.applyEach_succeeds (hutc .autoStart) (hrow .autoStart)
  obtain ⟨selectedTasks, hselectedTasks⟩ : ∃ b,
      applySelectedTaskOperations request.deviceID request.selectedTaskOperations
        { log := t.selectedTaskOperations, changed := autoStarts.changed } = .ok b :=
    Domain.selectedTask.lawful.applyEach_succeeds (hutc .selectedTask) (hrow .selectedTask)
  exact ⟨_, _, bind_ok_iff.mpr ⟨commands, hcommands, bind_ok_iff.mpr ⟨tasks, htasks,
    bind_ok_iff.mpr ⟨durations, hdurations, bind_ok_iff.mpr ⟨autoStarts, hautoStarts,
      bind_ok_iff.mpr ⟨selectedTasks, hselectedTasks, rfl⟩⟩⟩⟩⟩⟩

theorem Applied.valid (h : Applied t request u applied) (ht : ValidLogs t) : ValidLogs u where
  distinct d := by
    rw [h.log d]
    exact distinct_offers (ht.distinct d)
  utc := h.utc

theorem uniqueIDs_ok {α : Type} {id : α → String} {label : String} {seen : List String}
    {operations : List α} (h : uniqueIDs id label seen operations = .ok ()) :
    (operations.map id).Nodup ∧ ∀ operation ∈ operations, id operation ∉ seen := by
  induction operations generalizing seen with
  | nil => simp
  | cons operation operations ih =>
    obtain ⟨_, hnew, h⟩ := bind_ok_iff.mp h
    rw [check_ok_iff] at hnew
    obtain ⟨hnodup, hrest⟩ := ih h
    simp only [List.mem_cons, not_or] at hrest
    constructor
    · rw [List.map_cons, List.nodup_cons]
      refine ⟨?_, hnodup⟩
      rw [List.mem_map]
      rintro ⟨other, hmem, heq⟩
      exact (hrest other hmem).1 heq
    · intro other hother
      obtain rfl | hother := List.mem_cons.mp hother
      · exact hnew
      · exact (hrest other hother).2

/-- A validated request names each operation once. -/
theorem validateUniqueOperationIDs_ok (h : validateUniqueOperationIDs request = .ok ())
    (d : Domain) : ((d.submitted request).map d.id).Nodup := by
  obtain ⟨_, hcommands, h⟩ := bind_ok_iff.mp h
  obtain ⟨_, htasks, h⟩ := bind_ok_iff.mp h
  obtain ⟨_, hdurations, h⟩ := bind_ok_iff.mp h
  obtain ⟨_, hautoStarts, hselectedTasks⟩ := bind_ok_iff.mp h
  cases d
  · exact (uniqueIDs_ok hcommands).1
  · exact (uniqueIDs_ok htasks).1
  · exact (uniqueIDs_ok hdurations).1
  · exact (uniqueIDs_ok hautoStarts).1
  · exact (uniqueIDs_ok hselectedTasks).1

/-- Loading sorts a log by a key that ends in the id. -/
theorem Domain.loaded_perm (d : Domain) : (d.loaded t).Perm (d.log t) := by
  cases d <;> exact sortBy_perm

/-- What is loaded is a function of the stored log. -/
theorem Domain.loaded_congr (d : Domain) (h : d.log t = d.log u) : d.loaded t = d.loaded u := by
  cases d <;> exact congrArg (sortBy _) h

/-- The sort keys are total on a log with distinct ids: what is loaded does not
depend on the order of arrival. -/
theorem Domain.loaded_eq_of_perm (d : Domain) (hd : d.keys.Distinct (d.log t))
    (h : (d.log t).Perm (d.log u)) : d.loaded t = d.loaded u := by
  have hkey : ∀ a ∈ d.log t, ∀ b ∈ d.log t, d.id a = d.id b → a = b := fun a ha b hb hab =>
    hd.eq_of_key ha hb (by rw [Lawful.mem_key, Lawful.mem_key, hab])
  cases d with
  | timer =>
    refine sortBy_eq_of_perm (fun a ha b hb hab => hkey a ha b hb ?_) h
    simp only [commandKey, logKey, EmbeddingLike.apply_eq_iff_eq, Prod.mk.injEq] at hab
    exact hab.2.2.2
  | task =>
    refine sortBy_eq_of_perm (fun a ha b hb hab => hkey a ha b hb ?_) h
    simp only [taskOperationKey, logKey, EmbeddingLike.apply_eq_iff_eq, Prod.mk.injEq] at hab
    exact hab.2.2.2
  | duration =>
    refine sortBy_eq_of_perm (fun a ha b hb hab => hkey a ha b hb ?_) h
    simp only [durationOperationKey, logKey, EmbeddingLike.apply_eq_iff_eq, Prod.mk.injEq] at hab
    exact hab.2.2.2.2
  | autoStart =>
    refine sortBy_eq_of_perm (fun a ha b hb hab => hkey a ha b hb ?_) h
    simp only [autoStartOperationKey, logKey, EmbeddingLike.apply_eq_iff_eq, Prod.mk.injEq] at hab
    exact hab.2.2.2
  | selectedTask =>
    refine sortBy_eq_of_perm (fun a ha b hb hab => hkey a ha b hb ?_) h
    simp only [selectedTaskOperationKey, logKey, EmbeddingLike.apply_eq_iff_eq,
      Prod.mk.injEq] at hab
    exact hab.2.2.2

end

end Pomodorough.Store.OperationDomains
