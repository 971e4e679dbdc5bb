import Pomodorough.Server.AcceptedBatches
import Pomodorough.Server.Requests
import Pomodorough.Store.Acknowledgements
import Pomodorough.Web.QueueRetention

/-! # Operations on their way to the account

A browser keeps an operation in its queue until the server has answered for it. Requests
and answers are lost, delayed and repeated, other devices use the account meanwhile, and
the browser's tabs run what they like; an operation is then still queued, or it was let go
for a reason of the browser's own, or the server has stored it, once, or rejected it. -/
namespace Pomodorough.Server.DeliveredOperations
open Pomodorough.Library Pomodorough.Library.Fallible Pomodorough.Library.KeyedLog
open Pomodorough.Server.OperationParser Pomodorough.Server.Requests
open Pomodorough.Server.AcceptedBatches
open Pomodorough.Store.Records Pomodorough.Store.OperationDomains
open Pomodorough.Store.Bootstrap (Sha256)
open Pomodorough.Store.AccountRuns (Call Event Run validLogs_run validLogs_initial absentTimerCore
  pauseRequest pauseAnswer)
open Pomodorough.Store.Revisions (replaces)
open Pomodorough.Store.Acknowledgements
open Pomodorough.Web (Database Queues RequestBody ResponseInput ResponsePayload Transaction Queued)

/-! ## The wire -/

/-- The server's kind of operation. -/
def kind : Web.Domain → Domain
  | .commands => .timer
  | .taskOperations => .task
  | .durationOperations => .duration
  | .autoStartOperations => .autoStart
  | .selectedTaskOperations => .selectedTask

/-- A field of another kind of operation is none of the request's. -/
def writeCommand (operation : Web.Operation) : SyncCommandJSON :=
  let command : SyncCommandJSON :=
    { id := operation.id
      deviceSequence := operation.deviceSequence.map Int.ofNat
      timerID := ""
      taskID := ""
      taskIDExplicitNull := false
      taskIDPresent := false
      type := ""
      phase := ""
      plannedDurationMs := none
      occurredAt := operation.occurredAt
      hlcWallMs := some operation.hlcWallMs
      hlcCounter := some operation.hlcCounter
      observedElapsedMs := none }
  match operation.fields with
  | .timer timerId type phase plannedDurationMs observedElapsedMs taskId =>
    { command with
      timerID := timerId
      taskID := (taskId.getD none).getD ""
      taskIDExplicitNull := taskId = some none
      taskIDPresent := taskId.isSome
      type := type
      phase := phase
      plannedDurationMs := some plannedDurationMs
      observedElapsedMs := some observedElapsedMs }
  | _ => command

theorem writeCommand_id (operation : Web.Operation) : (writeCommand operation).id = operation.id := by
  unfold writeCommand
  split <;> rfl

def writeTaskOperation (operation : Web.Operation) : SyncTaskOperationJSON :=
  let (taskID, type, title) := match operation.fields with
    | .task taskId type title => (taskId, type, title.getD "")
    | _ => ("", "", "")
  { id := operation.id
    taskID := taskID
    type := type
    title := title
    deviceID := operation.deviceId
    occurredAt := operation.occurredAt
    hlcWallMs := some operation.hlcWallMs
    hlcCounter := some operation.hlcCounter }

def writeDurationOperation (operation : Web.Operation) : SyncDurationOperationJSON :=
  let (phase, durationMs) := match operation.fields with
    | .duration phase durationMs => (phase, some (durationMs : Int))
    | _ => ("", none)
  { id := operation.id
    phase := phase
    durationMs := durationMs
    occurredAt := operation.occurredAt
    hlcWallMs := some operation.hlcWallMs
    hlcCounter := some operation.hlcCounter }

def writeAutoStartOperation (operation : Web.Operation) : SyncAutoStartOperationJSON where
  id := operation.id
  enabled := match operation.fields with
    | .autoStart enabled => some enabled
    | _ => none
  occurredAt := operation.occurredAt
  hlcWallMs := some operation.hlcWallMs
  hlcCounter := some operation.hlcCounter

def writeSelectedTaskOperation (operation : Web.Operation) : SyncSelectedTaskOperationJSON where
  id := operation.id
  taskID := match operation.fields with
    | .selectedTask (some taskId) => .string taskId
    | .selectedTask none => .null
    | _ => .absent
  occurredAt := operation.occurredAt
  hlcWallMs := some operation.hlcWallMs
  hlcCounter := some operation.hlcCounter

/-- The body of a claim, as the server decodes it. -/
def writeBody (body : RequestBody) : SyncRequestJSON where
  deviceID := body.deviceId.getD ""
  lastRevision := some body.lastRevision
  commands := some ((body.sent .commands).map writeCommand)
  taskOperations := (body.sent .taskOperations).map writeTaskOperation
  durationOperations := (body.sent .durationOperations).map writeDurationOperation
  autoStartOperations := (body.sent .autoStartOperations).map writeAutoStartOperation
  selectedTaskOperations := (body.sent .selectedTaskOperations).map writeSelectedTaskOperation

/-- An answer as a tab reads it. What it keeps of the base and the incarnation does not
bear on the operations. -/
def readAnswer (incarnation : Option String) (base : Web.Base) (result : SyncResult) :
    ResponsePayload where
  acknowledgements d := .array (acknowledgements (kind d) result)
  revision := result.revision.toNat
  serverTime := String.ofList (Rfc3339.format result.serverTime.unixNano)
  serverHlc := ⟨result.serverHLCWallMs.toNat, result.serverHLCCounter.toNat⟩
  base := base
  accountIncarnation := incarnation

/-! ## The system -/

/-- A browser, an account with the calls it has had, and what was sent either way. What
was sent may arrive late, more than once, or never. -/
structure System where
  database : Database
  tables : UserTables
  events : List Event
  requests : List RequestBody
  responses : List (RequestBody × SyncResult)

inductive Label where
  | transaction (t : Transaction)
  | send (body : RequestBody)
  | serve (body : RequestBody) (event : Event)
  | other (event : Event)
  | respond (input : ResponseInput)

section
variable (core : Web.Core) (store : Store.SharedCore.Core) (sha256 : Sha256)
  (sharedIdentities : SharedIdentities)

inductive Step (s : System) : Label → System → Prop where
  /-- A tab runs a transaction of its own. -/
  | transaction {t : Transaction} (h : ∀ input, t ≠ .syncResponse input) :
      Step s (.transaction t) { s with database := Web.step core s.database t }
  /-- A tab sends the body of the stored claim. -/
  | send {claim : Web.Claim} {body : RequestBody} (hstored : s.database.outgoingSync = some claim)
      (hbody : claim.body = some body) :
      Step s (.send body) { s with requests := body :: s.requests }
  /-- The server is called with a body it was sent. -/
  | serve {body : RequestBody} {request : SyncRequest} {parsedAt : Time} {event : Event}
      {tables : UserTables} (harrived : body ∈ s.requests)
      (hparsed : parseSyncRequest sharedIdentities (writeBody body) parsedAt = .ok request)
      (hcall : event.call = .sync request)
      (h : Store.AccountRuns.Step store sha256 s.tables event tables) :
      Step s (.serve body event)
        { s with
          tables := tables
          events := s.events ++ [event]
          responses := (event.answer.toOption.map (body, ·)).toList ++ s.responses }
  /-- Any other call, of this device or another. -/
  | other {event : Event} {tables : UserTables}
      (h : Store.AccountRuns.Step store sha256 s.tables event tables) :
      Step s (.other event) { s with tables := tables, events := s.events ++ [event] }
  /-- A tab applies an answer that it accepts. -/
  | respond {body : RequestBody} {result : SyncResult} {input : ResponseInput}
      {tab incarnation base expectedUserId clockOffset hlc serverTimeMs capturedClaim}
      (harrived : (body, result) ∈ s.responses)
      (h : Web.acceptSyncResponse core tab (readAnswer incarnation base result) body.sent
        expectedUserId clockOffset hlc serverTimeMs capturedClaim = .ok input) :
      Step s (.respond input)
        { s with database := Web.step core s.database (.syncResponse input) }

inductive Runs : System → List Label → System → Prop where
  | nil {s} : Runs s [] s
  | cons {s t u label labels} (h : Step core store sha256 sharedIdentities s label t)
      (rest : Runs t labels u) : Runs s (label :: labels) u

end

/-- A new account, and nothing on its way. -/
structure Fresh (s : System) : Prop where
  tables : s.tables = .initial
  events : s.events = []
  requests : s.requests = []
  responses : s.responses = []

/-- What a tab takes off a queue without an answer: a command that Core drops, a duration
that a later one retires, what a resolution settles, and everything where the local data
are cleared. -/
inductive LetGo (core : Web.Core) (database : Database) (d : Web.Domain) (id : String) :
    Label → Prop where
  | dropped {input plan written}
      (applied : Web.applySyncResponse core input database = .ok (written, .apply plan))
      (dropped : Web.Drops core input database d id) : LetGo core database d id (.respond input)
  | retired {input plan written}
      (planned : Web.planWorkspaceMutation core input database = .ok (written, plan))
      (domain : d = .durationOperations) (retired : id ∈ plan.retiredDurationOperationIds) :
      LetGo core database d id (.transaction (.mutate input))
  | resolved {pending canonical outcome written}
      (resolved : Web.applyResolution core pending canonical database = .ok (written, outcome))
      (applied : outcome.applied = true) :
      LetGo core database d id (.transaction (.resolution pending canonical))
  | cleared {caller written} (cleared : Web.clearLocalData core caller database = .ok written) :
      LetGo core database d id (.transaction (.clear caller))

/-- What the server reads where the browser wrote the operation. -/
def Reads (deviceID : String) (queued : Web.Operation) :
    (d : Web.Domain) → (kind d).Operation → Prop
  | .commands, command => ParsedCommand deviceID (writeCommand queued) command
  | .taskOperations, operation =>
    ∃ title, ParsedTaskOperation deviceID title (writeTaskOperation queued) operation
  | .durationOperations, operation =>
    ParsedDurationOperation deviceID (writeDurationOperation queued) operation
  | .autoStartOperations, operation =>
    ParsedAutoStartOperation deviceID (writeAutoStartOperation queued) operation
  | .selectedTaskOperations, operation =>
    ParsedSelectedTaskOperation deviceID (writeSelectedTaskOperation queued) operation

/-- The server was called with a body that was sent, and has answered for an operation of
it. It rejected the operation, or stored it as it read it, and keeps it but for a
replacement. -/
structure Answered (sharedIdentities : SharedIdentities) (s : System) (d : Web.Domain)
    (body : RequestBody) (before after : List Event) (event : Event) (request : SyncRequest)
    (queued : Web.Operation) (operation : (kind d).Operation) (a : Web.SyncCore.Acknowledgement) :
    Prop where
  sent : body ∈ s.requests
  events : s.events = before ++ event :: after
  parsed : ∃ parsedAt, parseSyncRequest sharedIdentities (writeBody body) parsedAt = .ok request
  call : event.call = .sync request
  carried : queued ∈ body.sent d
  reads : Reads request.deviceID queued d operation
  submitted : operation ∈ (kind d).submitted request
  acknowledged : ∃ result, event.answer = .ok result ∧ a ∈ acknowledgements (kind d) result
  id : a.id = some queued.id
  kept : a.outcome = some "rejected" ∨ (∃ later ∈ after, replaces later.call = true) ∨
    (kind d).row request.deviceID operation ∈ (kind d).log s.tables

def Settled (sharedIdentities : SharedIdentities) (s : System) (d : Web.Domain) (id : String) :
    Prop :=
  ∃ body before after event request queued operation a, queued.id = id ∧
    Answered sharedIdentities s d body before after event request queued operation a

/-! ## What the server has -/

section Server
variable {core : Web.Core} {store : Store.SharedCore.Core} {sha256 : Sha256}
  {sharedIdentities : SharedIdentities} {s t u : System} {label : Label} {labels : List Label}
  {d : Web.Domain} {id : String} {body : RequestBody} {result : SyncResult}

/-- An answer on its way is one of the account's, to a request that was sent. -/
structure Honest (store : Store.SharedCore.Core) (sha256 : Sha256)
    (sharedIdentities : SharedIdentities) (s : System) : Prop where
  run : Run store sha256 .initial s.events s.tables
  responses : ∀ body result, (body, result) ∈ s.responses → body ∈ s.requests ∧
    ∃ before event after request parsedAt, s.events = before ++ event :: after ∧
      parseSyncRequest sharedIdentities (writeBody body) parsedAt = .ok request ∧
      event.call = .sync request ∧ event.answer = .ok result

theorem Fresh.honest (h : Fresh s) : Honest store sha256 sharedIdentities s := by
  refine ⟨?_, fun body result hmem => ?_⟩
  · rw [h.tables, h.events]
    exact .nil
  · rw [h.responses] at hmem
    cases hmem

theorem Honest.step (h : Honest store sha256 sharedIdentities s)
    (hstep : Step core store sha256 sharedIdentities s label t) :
    Honest store sha256 sharedIdentities t := by
  have hlater : ∀ event body result, (body, result) ∈ s.responses → body ∈ s.requests ∧
      ∃ before first after request parsedAt, s.events ++ [event] = before ++ first :: after ∧
        parseSyncRequest sharedIdentities (writeBody body) parsedAt = .ok request ∧
        first.call = .sync request ∧ first.answer = .ok result := by
    intro event body result hmem
    obtain ⟨hsent, before, first, after, request, parsedAt, hevents, hrest⟩ :=
      h.responses body result hmem
    exact ⟨hsent, before, first, after ++ [event], request, parsedAt, by rw [hevents]; simp, hrest⟩
  cases hstep with
  | transaction => exact ⟨h.run, h.responses⟩
  | send =>
    refine ⟨h.run, fun body result hmem => ?_⟩
    obtain ⟨hsent, hanswered⟩ := h.responses body result hmem
    exact ⟨List.mem_cons_of_mem _ hsent, hanswered⟩
  | @serve body request parsedAt event tables harrived hparsed hcall hserved =>
    refine ⟨h.run.append (.cons hserved .nil), fun other result hmem => ?_⟩
    obtain hnew | hold := List.mem_append.mp hmem
    · cases hanswer : event.answer with
      | error e =>
        rw [hanswer] at hnew
        cases hnew
      | ok answer =>
        rw [hanswer] at hnew
        obtain ⟨rfl, rfl⟩ := Prod.mk.inj (List.mem_singleton.mp hnew)
        exact ⟨harrived, s.events, event, [], request, parsedAt, rfl, hparsed, hcall, hanswer⟩
    · exact hlater event other result hold
  | other hserved =>
    exact ⟨h.run.append (.cons hserved .nil), fun other result hmem => hlater _ other result hmem⟩
  | respond => exact ⟨h.run, h.responses⟩

/-- What the server parsed, the browser wrote. -/
theorem read_of_submitted {request : SyncRequest} {parsedAt : Time}
    {operation : (kind d).Operation}
    (hparsed : parseSyncRequest sharedIdentities (writeBody body) parsedAt = .ok request)
    (hmem : operation ∈ (kind d).submitted request) :
    ∃ queued ∈ body.sent d, Reads request.deviceID queued d operation ∧
      (kind d).id operation = queued.id := by
  obtain ⟨operations, -, hoperations, rfl⟩ := parseSyncRequest_ok hparsed
  have hbatch := parseOperationBatch_ok hoperations
  cases d with
  | commands =>
    obtain ⟨_, hinput, -, hread⟩ := hbatch.commands.parsed operation hmem
    obtain ⟨queued, hqueued, rfl⟩ := List.mem_map.mp hinput
    have hid := hread.id.trans (writeCommand_id queued)
    exact ⟨queued, hqueued, by rwa [← hbatch.device] at hread, hid⟩
  | taskOperations =>
    obtain ⟨_, hinput, title, hread⟩ := hbatch.taskOperations.parsed operation hmem
    obtain ⟨queued, hqueued, rfl⟩ := List.mem_map.mp hinput
    exact ⟨queued, hqueued, ⟨title, by rwa [← hbatch.device] at hread⟩, hread.id⟩
  | durationOperations =>
    obtain ⟨_, hinput, -, hread⟩ := hbatch.durationOperations.parsed operation hmem
    obtain ⟨queued, hqueued, rfl⟩ := List.mem_map.mp hinput
    exact ⟨queued, hqueued, by rwa [← hbatch.device] at hread, hread.id⟩
  | autoStartOperations =>
    obtain ⟨_, hinput, -, hread⟩ := hbatch.autoStartOperations.parsed operation hmem
    obtain ⟨queued, hqueued, rfl⟩ := List.mem_map.mp hinput
    exact ⟨queued, hqueued, by rwa [← hbatch.device] at hread, hread.id⟩
  | selectedTaskOperations =>
    obtain ⟨_, hinput, -, hread⟩ := hbatch.selectedTaskOperations.parsed operation hmem
    obtain ⟨queued, hqueued, rfl⟩ := List.mem_map.mp hinput
    exact ⟨queued, hqueued, by rwa [← hbatch.device] at hread, hread.id⟩

/-- What is stored stays, as long as nothing is replaced. -/
theorem log_kept {tables tables' : UserTables} {events : List Event} (hs : ValidLogs tables)
    (h : Run store sha256 tables events tables')
    (hkept : ∀ event ∈ events, replaces event.call = false) (k : Domain) :
    k.log tables ⊆ k.log tables' := by
  induction h with
  | nil => exact List.Subset.refl _
  | cons hstep _ ih =>
    obtain ⟨hfirst, hrest⟩ := List.forall_mem_cons.mp hkept
    have hlog := ((kept_step hs hstep hfirst).logs k).subset
    exact List.Subset.trans hlog (ih (validLogs_run hs (.cons hstep .nil)) hrest)

/-- What an answer acknowledges, the call it answers has settled. -/
theorem Honest.settled (h : Honest store sha256 sharedIdentities s)
    (hmem : (body, result) ∈ s.responses)
    (hack : ∃ a ∈ acknowledgements (kind d) result, a.id = some id) :
    Settled sharedIdentities s d id := by
  obtain ⟨hsent, before, event, after, request, parsedAt, hevents, hparsed, hcall, hanswer⟩ :=
    h.responses body result hmem
  obtain ⟨a, ha, haid⟩ := hack
  have hrun := h.run
  rw [hevents] at hrun
  obtain ⟨tables, hbefore, hrest⟩ := hrun.split
  cases hrest with
  | @cons _ tables' _ _ _ hstep hafter =>
    have hs : ValidLogs tables := validLogs_run validLogs_initial hbefore
    have hs' : ValidLogs tables' := validLogs_run hs (.cons hstep .nil)
    obtain ⟨_, hok, hexec⟩ | ⟨⟨_, herror⟩, -⟩ := hstep.cases_answer
    · cases hanswer.symm.trans hok
      rw [hcall] at hexec
      have hanswers := sync_answers hs hexec
      -- the acknowledgement stands where the operation was submitted
      obtain ⟨b, c, hsplit⟩ := List.append_of_mem ha
      have hids := hanswers.exact.ids (kind d)
      rw [hsplit, List.map_append, List.map_cons] at hids
      obtain ⟨earlier, rest, hsubmitted, hearlier, hrest⟩ := List.map_eq_append_iff.mp hids.symm
      obtain ⟨operation, later, rfl, hid, -⟩ := List.map_eq_cons_iff.mp hrest
      obtain ⟨b', a', c', hsplit', hlength, hanswered⟩ :=
        hanswers.each (kind d) earlier later operation hsubmitted
      have hlengths : b.length = b'.length := by
        have hmapped := congrArg List.length hearlier
        simp only [List.length_map] at hmapped
        omega
      obtain ⟨-, htail⟩ := List.append_inj (hsplit.symm.trans hsplit') hlengths
      obtain ⟨rfl, -⟩ := List.cons.inj htail
      have hmem : operation ∈ (kind d).submitted request := by
        rw [hsubmitted]
        exact List.mem_append_right _ List.mem_cons_self
      obtain ⟨queued, hcarried, hreads, hqueued⟩ := read_of_submitted hparsed hmem
      have hid' : some queued.id = some id := by rw [← hqueued, ← haid, hid]
      refine ⟨body, before, after, event, request, queued, operation, a, Option.some.inj hid',
        hsent, hevents, ⟨parsedAt, hparsed⟩, hcall, hcarried, hreads, hmem, ⟨result, hanswer, ha⟩,
        haid.trans hid'.symm, ?_⟩
      · by_cases hconflict : Conflict (kind d) (offers (kind d).keys ((kind d).log tables)
            (earlier.map ((kind d).row request.deviceID))) ((kind d).row request.deviceID operation)
        · rw [hanswered.conflict _ rfl hconflict]
          exact .inl rfl
        · have hstored := (hanswered.stored hconflict).1
          by_cases hreplaced : ∃ later ∈ after, replaces later.call = true
          · exact .inr (.inl hreplaced)
          · have hnone : ∀ later ∈ after, replaces later.call = false := by
              simpa using hreplaced
            exact .inr (.inr (log_kept hs' hafter hnone (kind d) hstored))
    · cases hanswer.symm.trans herror

/-- What is settled stays so. -/
theorem Settled.step (hs : Honest store sha256 sharedIdentities s)
    (h : Settled sharedIdentities s d id)
    (hstep : Step core store sha256 sharedIdentities s label t) :
    Settled sharedIdentities t d id := by
  obtain ⟨body, before, after, event, request, queued, operation, a, hid, hanswered⟩ := h
  have hlater : ∀ (t : System) (later : List Event), s.requests ⊆ t.requests →
      t.events = s.events ++ later →
      ((∃ event ∈ later, replaces event.call = true) ∨
        (kind d).log s.tables ⊆ (kind d).log t.tables) → Settled sharedIdentities t d id := by
    intro t later hrequests hevents hlogs
    refine ⟨body, before, after ++ later, event, request, queued, operation, a, hid,
      { hanswered with
        sent := hrequests hanswered.sent
        events := by rw [hevents, hanswered.events, List.append_assoc, List.cons_append]
        kept := ?_ }⟩
    obtain hrejected | ⟨other, hother, hreplaced⟩ | hstored := hanswered.kept
    · exact .inl hrejected
    · exact .inr (.inl ⟨other, List.mem_append_left _ hother, hreplaced⟩)
    · obtain ⟨other, hother, hreplaced⟩ | hsubset := hlogs
      · exact .inr (.inl ⟨other, List.mem_append_right _ hother, hreplaced⟩)
      · exact .inr (.inr (hsubset hstored))
  have hcalled : ∀ (later : Event) (tables : UserTables),
      Store.AccountRuns.Step store sha256 s.tables later tables →
      (∃ event ∈ [later], replaces event.call = true) ∨
        (kind d).log s.tables ⊆ (kind d).log tables := by
    intro later tables hcall
    cases hreplaced : replaces later.call with
    | true => exact .inl ⟨later, List.mem_singleton_self _, hreplaced⟩
    | false =>
      have hlogs : ValidLogs s.tables := validLogs_run validLogs_initial hs.run
      exact .inr ((kept_step hlogs hcall hreplaced).logs (kind d)).subset
  have hsame : (kind d).log s.tables ⊆ (kind d).log s.tables := List.Subset.refl _
  cases hstep with
  | transaction =>
    exact hlater _ [] (List.Subset.refl _) (List.append_nil _).symm (.inr hsame)
  | send =>
    exact hlater _ [] (List.subset_cons_self _ _) (List.append_nil _).symm (.inr hsame)
  | serve _ _ _ hcall => exact hlater _ [_] (List.Subset.refl _) rfl (hcalled _ _ hcall)
  | other hcall => exact hlater _ [_] (List.Subset.refl _) rfl (hcalled _ _ hcall)
  | respond => exact hlater _ [] (List.Subset.refl _) (List.append_nil _).symm (.inr hsame)

end Server

/-! ## What the browser has -/

section Browser
variable {core : Web.Core} {store : Store.SharedCore.Core} {sha256 : Sha256}
  {sharedIdentities : SharedIdentities} {s t u : System} {label : Label} {labels : List Label}
  {d : Web.Domain} {id : String} {body : RequestBody} {result : SyncResult}
  {database : Database} {input : ResponseInput}

/-- What a tab takes for acknowledged, the answer acknowledges. -/
theorem acknowledged_of_accepted {tab incarnation base expectedUserId clockOffset hlc serverTimeMs}
    {capturedClaim : Web.Claim}
    (h : Web.acceptSyncResponse core tab (readAnswer incarnation base result) body.sent
      expectedUserId clockOffset hlc serverTimeMs capturedClaim = .ok input)
    (hack : Web.Acknowledged input database d id) :
    ∃ a ∈ acknowledgements (kind d) result, a.id = some id := by
  obtain ⟨_, _, h⟩ := bind_ok_iff.mp h
  obtain ⟨_, _, h⟩ := bind_ok_iff.mp h
  obtain ⟨_, _, h⟩ := bind_ok_iff.mp h
  obtain ⟨_, _, h⟩ := bind_ok_iff.mp h
  obtain ⟨_, _, h⟩ := bind_ok_iff.mp h
  obtain ⟨_, _, h⟩ := bind_ok_iff.mp h
  obtain ⟨_, _, h⟩ := bind_ok_iff.mp h
  cases h
  obtain ⟨_, _, _, _, hreconciliation, _, answered, harray, a, ha, hid⟩ := hack
  cases hreconciliation
  cases harray
  exact ⟨a, ha, hid⟩

/-- One step keeps an operation queued, lets it go, or has the answer for it. -/
theorem queued_step (hs : Honest store sha256 sharedIdentities s)
    (hstep : Step core store sha256 sharedIdentities s label t) (hqueued : Queued s.database d id) :
    Queued t.database d id ∨ LetGo core s.database d id label ∨
      Settled sharedIdentities s d id := by
  cases hstep with
  | send => exact .inl hqueued
  | serve => exact .inl hqueued
  | other => exact .inl hqueued
  | @transaction transaction htab =>
    have htab' : transaction.FromTab core := by
      cases transaction with
      | syncResponse input => exact absurd rfl (htab input)
      | _ => trivial
    obtain hkept | hreleased := Web.queued_or_released htab' hqueued
    · exact .inl hkept
    · refine .inr (.inl ?_)
      cases hreleased with
      | acknowledged => exact absurd rfl (htab _)
      | dropped => exact absurd rfl (htab _)
      | retired planned domain retired => exact .retired planned domain retired
      | resolved resolved applied => exact .resolved resolved applied
      | cleared cleared => exact .cleared cleared
  | @respond body result input tab incarnation base user offset hlc ms claim harrived haccepted =>
    have htab : (Web.Transaction.syncResponse input).FromTab core :=
      ⟨tab, readAnswer incarnation base result, body.sent, user, offset, hlc, ms, claim, haccepted⟩
    obtain hkept | hreleased := Web.queued_or_released htab hqueued
    · exact .inl hkept
    · refine .inr ?_
      cases hreleased with
      | acknowledged applied hack =>
        exact .inr (hs.settled harrived (acknowledged_of_accepted haccepted hack))
      | dropped applied hdrop => exact .inl (.dropped applied hdrop)

theorem Honest.runs (hs : Honest store sha256 sharedIdentities s)
    (h : Runs core store sha256 sharedIdentities s labels t) :
    Honest store sha256 sharedIdentities t := by
  induction h with
  | nil => exact hs
  | cons hstep _ ih => exact ih (hs.step hstep)

theorem Settled.runs (hs : Honest store sha256 sharedIdentities s)
    (hsettled : Settled sharedIdentities s d id)
    (h : Runs core store sha256 sharedIdentities s labels t) :
    Settled sharedIdentities t d id := by
  induction h with
  | nil => exact hsettled
  | cons hstep _ ih => exact ih (hs.step hstep) (hsettled.step hs hstep)

/-- Over a run, an operation is still queued, or some step of it lets the operation go, or
the server has settled it. -/
theorem queued_runs (hs : Honest store sha256 sharedIdentities s)
    (h : Runs core store sha256 sharedIdentities s labels t) (hqueued : Queued s.database d id) :
    Queued t.database d id ∨
      (∃ pre label post u, labels = pre ++ label :: post ∧
        Runs core store sha256 sharedIdentities s pre u ∧ Queued u.database d id ∧
        LetGo core u.database d id label) ∨
      Settled sharedIdentities t d id := by
  induction h with
  | nil => exact .inl hqueued
  | @cons s t u label labels hstep hrest ih =>
    obtain hkept | hletgo | hsettled := queued_step hs hstep hqueued
    · obtain hend | ⟨pre, last, post, v, rfl, hpre, hletgo⟩ | hsettled := ih (hs.step hstep) hkept
      · exact .inl hend
      · exact .inr (.inl ⟨label :: pre, last, post, v, rfl, .cons hstep hpre, hletgo⟩)
      · exact .inr (.inr hsettled)
    · exact .inr (.inl ⟨[], label, labels, s, rfl, .nil, hqueued, hletgo⟩)
    · exact .inr (.inr ((hsettled.step hs hstep).runs (hs.step hstep) hrest))

end Browser

/-- No operation is lost on its way, and none is stored twice. Whatever is queued at some
time is later still queued, or a tab let it go without an answer, or the server was called
with it and answered: it rejected it, or stored it under the device of the request and
keeps it but for a replacement. In every log no id stands twice. -/
theorem operations_are_delivered (core : Web.Core) (store : Store.SharedCore.Core)
    (sha256 : Sha256) (sharedIdentities : SharedIdentities) {start s t : System}
    {earlier labels : List Label} (hstart : Fresh start)
    (hs : Runs core store sha256 sharedIdentities start earlier s)
    (h : Runs core store sha256 sharedIdentities s labels t) :
    (∀ d id, Queued s.database d id →
      Queued t.database d id ∨
        (∃ pre label post u, labels = pre ++ label :: post ∧
          Runs core store sha256 sharedIdentities s pre u ∧ Queued u.database d id ∧
          LetGo core u.database d id label) ∨
        Settled sharedIdentities t d id) ∧
      ∀ k : Domain, ((k.log t.tables).map k.id).Nodup := by
  have hhonest : Honest store sha256 sharedIdentities s := hstart.honest.runs hs
  refine ⟨fun d id hqueued => queued_runs hhonest h hqueued, fun k => ?_⟩
  have hdistinct := (validLogs_run validLogs_initial (hhonest.runs h).run).distinct k
  have hkey : k.keys.key = k.id := funext fun _ => Lawful.mem_key
  unfold Keys.Distinct at hdistinct
  rwa [hkey] at hdistinct

/-! ## A pause on its way -/

def queuedPause : Web.Operation where
  id := "command-1"
  deviceId := some "device-a"
  deviceSequence := some 1
  occurredAt := "1970-01-01T00:00:01Z"
  hlcWallMs := 1000
  hlcCounter := 0
  fields := .timer "timer-01" "pause" "focus" 1500000 0 none

def pauseCaller : Web.Caller := { Web.referenceCaller with deviceId := some "device-a" }

/-- A browser that has queued the pause, and an account nobody has used. -/
def pauseQueued : System where
  database :=
    { Web.referenceDatabase with
      snapshot := some ⟨0, some "account:v1:1", some "2026-01-01T00:00:00.000Z", Web.referenceBase⟩
      deviceId := some "device-a"
      queues := fun d => if d = .commands then [queuedPause] else [] }
  tables := .initial
  events := []
  requests := []
  responses := []

def pauseSent : Queues := fun d =>
  if d = .commands then [{ queuedPause with deviceId := none }] else []

def pauseBody : RequestBody := ⟨some "device-a", 0, pauseSent⟩

def pauseClaim : Web.Claim :=
  ⟨some "claim", pauseSent, some "account:v1:1", "2026-01-01T00:00:00.000Z", some pauseBody⟩

def claimPause : Transaction := .claim { Web.referenceClaim with caller := pauseCaller }

def pauseServed : Event :=
  ⟨.sync (pauseRequest "command-1" "device-a" 1000), Time.ofUnixMilli 2000,
    .ok (pauseAnswer "command-1" 1 2000 true)⟩

/-- What the reference Core reconciles, it drops nothing of. -/
theorem referenceCore_drops {database : Database} {input : ResponseInput} {d : Web.Domain}
    {id : String} : ¬ Web.Drops Web.referenceCore input database d id := by
  intro h
  obtain ⟨-, _, _, -, hanswer, hdropped⟩ := h
  obtain ⟨_, -, hanswer⟩ := bind_ok_iff.mp hanswer
  cases hanswer
  cases hdropped

/-- The pause is claimed, sent, stored and acknowledged. -/
theorem operations_are_delivered_pause :
    ∃ labels t, Runs Web.referenceCore absentTimerCore (fun _ => 0) (fun _ => .ok []) pauseQueued
        labels t ∧
      Queued pauseQueued.database .commands "command-1" ∧
      ¬ Queued t.database .commands "command-1" ∧
      Settled (fun _ => .ok []) t .commands "command-1" := by
  let claimed := Web.step Web.referenceCore pauseQueued.database claimPause
  have hstored : claimed.outgoingSync = some pauseClaim := by decide +kernel
  have haccepted : (Web.acceptSyncResponse Web.referenceCore
      { Web.referenceTab with caller := pauseCaller, deviceId := "device-a" }
      (readAnswer (some "1") Web.referenceBase (pauseAnswer "command-1" 1 2000 true)) pauseSent
      "account:v1:1" none ⟨1000, 0⟩ 2000 pauseClaim).toOption.any (fun input =>
        ¬ Queued (Web.step Web.referenceCore claimed (.syncResponse input)) .commands
          "command-1") = true := by decide +kernel
  obtain ⟨input, haccepted, hgone⟩ := exists_ok haccepted
  have hexec : (Call.exec absentTimerCore (fun _ => 0)
      (.sync (pauseRequest "command-1" "device-a" 1000)) (Time.ofUnixMilli 2000)
      .initial).toOption.any (fun answered =>
        answered.2 = pauseAnswer "command-1" 1 2000 true) = true := by decide +kernel
  obtain ⟨⟨tables, answer⟩, hexec, hanswer⟩ := exists_ok hexec
  obtain rfl : answer = pauseAnswer "command-1" 1 2000 true := of_decide_eq_true hanswer
  have hserved : Store.AccountRuns.Step absentTimerCore (fun _ => 0) .initial pauseServed tables :=
    .answered hexec
  have hparsed : parseSyncRequest (fun _ => .ok []) (writeBody pauseBody) (Time.ofUnixMilli 2000) =
      .ok (pauseRequest "command-1" "device-a" 1000) := by decide +kernel
  have hrun : Runs Web.referenceCore absentTimerCore (fun _ => 0) (fun _ => .ok []) pauseQueued
      [.transaction claimPause, .send pauseBody, .serve pauseBody pauseServed, .respond input]
      { database := Web.step Web.referenceCore claimed (.syncResponse input)
        tables := tables
        events := [pauseServed]
        requests := [pauseBody]
        responses := [(pauseBody, pauseAnswer "command-1" 1 2000 true)] } := by
    refine .cons (.transaction fun input h => by cases h) ?_
    refine .cons (.send hstored rfl) ?_
    refine .cons (.serve List.mem_cons_self hparsed rfl hserved) ?_
    exact .cons (.respond List.mem_cons_self haccepted) .nil
  have hqueued : Queued pauseQueued.database .commands "command-1" := by decide +kernel
  refine ⟨_, _, hrun, hqueued, of_decide_eq_true hgone, ?_⟩
  have hfresh : Fresh pauseQueued := ⟨rfl, rfl, rfl, rfl⟩
  obtain hkept | ⟨pre, label, post, u, hlabels, -, -, hletgo⟩ | hsettled :=
    (operations_are_delivered _ _ _ _ hfresh .nil hrun).1 .commands "command-1" hqueued
  · exact absurd hkept (of_decide_eq_true hgone)
  · have hlabel : label ∈ pre ++ label :: post := by simp
    rw [← hlabels] at hlabel
    simp only [List.mem_cons, List.not_mem_nil, or_false] at hlabel
    obtain rfl | rfl | rfl | rfl := hlabel
    · cases hletgo
    · cases hletgo
    · cases hletgo
    · cases hletgo with
      | dropped _ hdropped => exact absurd hdropped referenceCore_drops
  · exact hsettled

end Pomodorough.Server.DeliveredOperations
