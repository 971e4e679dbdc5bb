import Pomodorough.Server.OperationParser

/-! # What the parser accepts

An accepted operation has the fields of its input, checked, and a clock within
bounds. The server's time only decides whether it is accepted. -/
namespace Pomodorough.Server.AcceptedBatches
open Pomodorough.Library.Fallible Pomodorough.Store.Records Pomodorough.Server.OperationParser

/-! ## Accepted operations -/

/-- An accepted clock: the instant the text stands for, not far from a hybrid
clock within the safe integers. -/
structure ParsedClock (value : String) (wallMs counter : Option Int) (occurredAt : Time)
    (hlcWallMs hlcCounter : Int) : Prop where
  parsed : parseTime value = some occurredAt
  wall : wallMs = some hlcWallMs
  count : counter = some hlcCounter
  wall_range : 0 ≤ hlcWallMs ∧ hlcWallMs ≤ maxSafeInteger
  count_range : 0 ≤ hlcCounter ∧ hlcCounter ≤ maxSafeInteger
  near : -maxClockSkew ≤ occurredAt.unixNano - hlcWallMs * 1000000 ∧
    occurredAt.unixNano - hlcWallMs * 1000000 ≤ maxClockSkew

theorem parseOperationClock_ok {value : String} {wallMs counter : Option Int} {allowLegacy : Bool}
    {now occurredAt : Time}
    (h : parseOperationClock value wallMs counter allowLegacy now = .ok occurredAt) :
    ParsedClock value wallMs counter occurredAt (wallMs.getD 0) (counter.getD 0) := by
  unfold parseOperationClock at h
  split at h
  next wall count =>
    obtain ⟨_, hrange, h⟩ := bind_ok_iff.mp h
    rw [check_ok_iff] at hrange
    split at h
    next => cases h
    next parsed hparsed =>
      split at h
      next hzero =>
        obtain ⟨_, hlegacy, h⟩ := bind_ok_iff.mp h
        rw [check_ok_iff] at hlegacy
        cases h
        have hepoch : occurredAt.unixNano = 0 := by simpa [Time.equal] using hlegacy.2.2
        refine ⟨hparsed, rfl, rfl, ⟨hrange.1, hrange.2.1⟩, hrange.2.2, ?_⟩
        show -maxClockSkew ≤ _ - wall * 1000000 ∧ _ - wall * 1000000 ≤ maxClockSkew
        rw [hzero, hepoch]
        decide
      next =>
        obtain ⟨_, -, h⟩ := bind_ok_iff.mp h
        obtain ⟨_, hdelta, h⟩ := bind_ok_iff.mp h
        rw [check_ok_iff] at hdelta
        cases h
        refine ⟨hparsed, rfl, rfl, ⟨hrange.1, hrange.2.1⟩, hrange.2.2, ?_⟩
        show -maxClockSkew ≤ _ - wall * 1000000 ∧ _ - wall * 1000000 ≤ maxClockSkew
        simp only [durationSince, Time.ofUnixMilli, maxClockSkew] at hdelta ⊢
        omega
  next => cases h

section
variable {ι α : Type} {id : ι → String} {identity : ι → Parsed Unit} {duplicate : String}
  {parse : ι → Parsed α} {seen : List String} {inputs : List ι} {operations : List α}

/-- The operations correspond to the inputs, whose ids are distinct. -/
theorem parseEach_ok (h : parseEach id identity duplicate parse seen inputs = .ok operations) :
    List.Forall₂ (fun input operation => identity input = .ok () ∧ parse input = .ok operation)
        inputs operations ∧
      (inputs.map id).Nodup ∧ ∀ input ∈ inputs, id input ∉ seen := by
  induction inputs generalizing seen operations with
  | nil =>
    cases h
    exact ⟨.nil, List.nodup_nil, by simp⟩
  | cons input inputs ih =>
    obtain ⟨_, hidentity, h⟩ := bind_ok_iff.mp h
    obtain ⟨_, hnew, h⟩ := bind_ok_iff.mp h
    obtain ⟨operation, hparse, h⟩ := bind_ok_iff.mp h
    obtain ⟨rest, hrest, h⟩ := bind_ok_iff.mp h
    cases h
    obtain ⟨hall, hnodup, hseen⟩ := ih hrest
    rw [check_ok_iff] at hnew
    refine ⟨.cons ⟨hidentity, hparse⟩ hall, ?_, ?_⟩
    · rw [List.map_cons, List.nodup_cons]
      refine ⟨fun hmem => ?_, hnodup⟩
      obtain ⟨later, hlater, heq⟩ := List.mem_map.mp hmem
      exact hseen later hlater (heq ▸ by simp)
    · intro other hother
      obtain rfl | hother := List.mem_cons.mp hother
      · exact hnew
      · exact fun hmem => hseen other hother (List.mem_cons_of_mem _ hmem)

end

/-- A command as its input has it. -/
structure ParsedCommand (deviceID : String) (input : SyncCommandJSON) (command : Command) :
    Prop where
  id : command.id = input.id
  device : command.deviceID = deviceID
  sequence : command.deviceSequence = input.deviceSequence.getD 0
  timer : command.timerID = input.timerID
  task : command.taskID = input.taskID
  type : validTypes.find? (fun type => type.text = input.type) = some command.type
  phase : validPhases.find? (fun phase => phase.text = input.phase) = some command.phase
  planned : retargetDefault input input.plannedDurationMs defaultRetargetPlannedDurationMs =
    some command.plannedDurationMs
  planned_range : 60000 ≤ command.plannedDurationMs ∧ command.plannedDurationMs ≤ 14400000
  observed : retargetDefault input input.observedElapsedMs 0 = some command.observedElapsedMs
  observed_range : -maxSafeInteger ≤ command.observedElapsedMs ∧
    command.observedElapsedMs ≤ maxSafeInteger
  clock : ParsedClock input.occurredAt input.hlcWallMs input.hlcCounter command.occurredAt
    command.hlcWallMs command.hlcCounter

theorem parseCommand_ok {deviceID : String} {input : SyncCommandJSON} {now : Time}
    {command : Command} (h : parseCommand deviceID input now = .ok command) :
    ParsedCommand deviceID input command := by
  unfold parseCommand at h
  split at h
  next => cases h
  next type htype =>
    obtain ⟨_, -, h⟩ := bind_ok_iff.mp h
    split at h
    next => cases h
    next phase hphase =>
      split at h
      next => cases h
      next planned hplanned =>
        obtain ⟨_, hrange, h⟩ := bind_ok_iff.mp h
        obtain ⟨occurredAt, hclock, h⟩ := bind_ok_iff.mp h
        rw [check_ok_iff] at hrange
        rw [within_ok_iff] at hclock
        split at h
        next => cases h
        next observed hobserved =>
          obtain ⟨_, hsafe, h⟩ := bind_ok_iff.mp h
          rw [check_ok_iff] at hsafe
          cases h
          exact ⟨rfl, rfl, rfl, rfl, rfl, htype, hphase, hplanned, hrange, hobserved, hsafe,
            parseOperationClock_ok hclock⟩

structure ParsedTaskOperation (deviceID title : String) (input : SyncTaskOperationJSON)
    (operation : TaskOperation) : Prop where
  id : operation.id = input.id
  device : operation.deviceID = deviceID
  task : operation.taskID = input.taskID
  type : validTaskOperationTypes.find? (fun type => type.text = input.type) = some operation.type
  title : operation.title = title
  clock : ParsedClock input.occurredAt input.hlcWallMs input.hlcCounter operation.occurredAt
    operation.hlcWallMs operation.hlcCounter

theorem parseTaskOperation_ok {deviceID title : String} {input : SyncTaskOperationJSON}
    {now : Time} {operation : TaskOperation}
    (h : parseTaskOperation deviceID input title now = .ok operation) :
    ParsedTaskOperation deviceID title input operation := by
  obtain ⟨occurredAt, hclock, h⟩ := bind_ok_iff.mp h
  rw [within_ok_iff] at hclock
  split at h
  next => cases h
  next type htype =>
    cases h
    exact ⟨rfl, rfl, rfl, htype, rfl, parseOperationClock_ok hclock⟩

structure ParsedDurationOperation (deviceID : String) (input : SyncDurationOperationJSON)
    (operation : DurationOperation) : Prop where
  id : operation.id = input.id
  device : operation.deviceID = deviceID
  phase : validPhases.find? (fun phase => phase.text = input.phase) = some operation.phase
  duration : input.durationMs = some operation.durationMs
  duration_grid : 60000 ≤ operation.durationMs ∧ operation.durationMs ≤ 10800000 ∧
    operation.durationMs % 60000 = 0
  clock : ParsedClock input.occurredAt input.hlcWallMs input.hlcCounter operation.occurredAt
    operation.hlcWallMs operation.hlcCounter

theorem parseDurationOperation_ok {deviceID : String} {input : SyncDurationOperationJSON}
    {now : Time} {operation : DurationOperation}
    (h : parseDurationOperation deviceID input now = .ok operation) :
    ParsedDurationOperation deviceID input operation := by
  unfold parseDurationOperation at h
  split at h
  next => cases h
  next phase hphase =>
    split at h
    next => cases h
    next duration hduration =>
      obtain ⟨_, hgrid, h⟩ := bind_ok_iff.mp h
      obtain ⟨occurredAt, hclock, h⟩ := bind_ok_iff.mp h
      rw [check_ok_iff] at hgrid
      rw [within_ok_iff] at hclock
      cases h
      exact ⟨rfl, rfl, hphase, hduration, hgrid, parseOperationClock_ok hclock⟩

structure ParsedAutoStartOperation (deviceID : String) (input : SyncAutoStartOperationJSON)
    (operation : AutoStartOperation) : Prop where
  id : operation.id = input.id
  device : operation.deviceID = deviceID
  enabled : input.enabled = some operation.enabled
  clock : ParsedClock input.occurredAt input.hlcWallMs input.hlcCounter operation.occurredAt
    operation.hlcWallMs operation.hlcCounter

theorem parseAutoStartOperation_ok {deviceID : String} {input : SyncAutoStartOperationJSON}
    {now : Time} {operation : AutoStartOperation}
    (h : parseAutoStartOperation deviceID input now = .ok operation) :
    ParsedAutoStartOperation deviceID input operation := by
  unfold parseAutoStartOperation at h
  split at h
  next => cases h
  next enabled henabled =>
    obtain ⟨occurredAt, hclock, h⟩ := bind_ok_iff.mp h
    rw [within_ok_iff] at hclock
    cases h
    exact ⟨rfl, rfl, henabled, parseOperationClock_ok hclock⟩

structure ParsedSelectedTaskOperation (deviceID : String) (input : SyncSelectedTaskOperationJSON)
    (operation : SelectedTaskOperation) : Prop where
  id : operation.id = input.id
  device : operation.deviceID = deviceID
  task : parseNullableTaskID input.taskID = .ok operation.taskID
  clock : ParsedClock input.occurredAt input.hlcWallMs input.hlcCounter operation.occurredAt
    operation.hlcWallMs operation.hlcCounter

theorem parseSelectedTaskOperation_ok {deviceID : String} {input : SyncSelectedTaskOperationJSON}
    {now : Time} {operation : SelectedTaskOperation}
    (h : parseSelectedTaskOperation deviceID input now = .ok operation) :
    ParsedSelectedTaskOperation deviceID input operation := by
  obtain ⟨taskID, htask, h⟩ := bind_ok_iff.mp h
  obtain ⟨occurredAt, hclock, h⟩ := bind_ok_iff.mp h
  rw [within_ok_iff] at hclock
  cases h
  exact ⟨rfl, rfl, htask, parseOperationClock_ok hclock⟩

/-! ## The same bytes at another time

The server's clock decides whether an operation is accepted, not what is made of
it. -/

section
variable {deviceID title value : String} {wallMs counter : Option Int} {t u : Time}
  {wall wall' count count' : Int}

theorem ParsedClock.unique (h : ParsedClock value wallMs counter t wall count)
    (h' : ParsedClock value wallMs counter u wall' count') :
    t = u ∧ wall = wall' ∧ count = count' :=
  ⟨Option.some.inj (h.parsed.symm.trans h'.parsed), Option.some.inj (h.wall.symm.trans h'.wall),
    Option.some.inj (h.count.symm.trans h'.count)⟩

theorem ParsedCommand.unique {input : SyncCommandJSON} {a b : Command}
    (h : ParsedCommand deviceID input a) (h' : ParsedCommand deviceID input b) : a = b := by
  obtain ⟨htime, hwall, hcount⟩ := h.clock.unique h'.clock
  have htype := Option.some.inj (h.type.symm.trans h'.type)
  have hphase := Option.some.inj (h.phase.symm.trans h'.phase)
  have hplanned := Option.some.inj (h.planned.symm.trans h'.planned)
  have hobserved := Option.some.inj (h.observed.symm.trans h'.observed)
  cases a
  cases b
  simp only [Command.mk.injEq]
  exact ⟨h.id.trans h'.id.symm, h.device.trans h'.device.symm, h.sequence.trans h'.sequence.symm,
    h.timer.trans h'.timer.symm, h.task.trans h'.task.symm, htype, hphase, hplanned, htime, hwall,
    hcount, hobserved⟩

theorem ParsedTaskOperation.unique {input : SyncTaskOperationJSON} {a b : TaskOperation}
    (h : ParsedTaskOperation deviceID title input a)
    (h' : ParsedTaskOperation deviceID title input b) : a = b := by
  obtain ⟨htime, hwall, hcount⟩ := h.clock.unique h'.clock
  have htype := Option.some.inj (h.type.symm.trans h'.type)
  cases a
  cases b
  simp only [TaskOperation.mk.injEq]
  exact ⟨h.id.trans h'.id.symm, h.device.trans h'.device.symm, h.task.trans h'.task.symm, htype,
    h.title.trans h'.title.symm, htime, hwall, hcount⟩

theorem ParsedDurationOperation.unique {input : SyncDurationOperationJSON}
    {a b : DurationOperation} (h : ParsedDurationOperation deviceID input a)
    (h' : ParsedDurationOperation deviceID input b) : a = b := by
  obtain ⟨htime, hwall, hcount⟩ := h.clock.unique h'.clock
  have hphase := Option.some.inj (h.phase.symm.trans h'.phase)
  have hduration := Option.some.inj (h.duration.symm.trans h'.duration)
  cases a
  cases b
  simp only [DurationOperation.mk.injEq]
  exact ⟨h.id.trans h'.id.symm, h.device.trans h'.device.symm, hphase, hduration, htime, hwall,
    hcount⟩

theorem ParsedAutoStartOperation.unique {input : SyncAutoStartOperationJSON}
    {a b : AutoStartOperation} (h : ParsedAutoStartOperation deviceID input a)
    (h' : ParsedAutoStartOperation deviceID input b) : a = b := by
  obtain ⟨htime, hwall, hcount⟩ := h.clock.unique h'.clock
  have henabled := Option.some.inj (h.enabled.symm.trans h'.enabled)
  cases a
  cases b
  simp only [AutoStartOperation.mk.injEq]
  exact ⟨h.id.trans h'.id.symm, h.device.trans h'.device.symm, henabled, htime, hwall, hcount⟩

theorem ParsedSelectedTaskOperation.unique {input : SyncSelectedTaskOperationJSON}
    {a b : SelectedTaskOperation} (h : ParsedSelectedTaskOperation deviceID input a)
    (h' : ParsedSelectedTaskOperation deviceID input b) : a = b := by
  obtain ⟨htime, hwall, hcount⟩ := h.clock.unique h'.clock
  have htask := Except.ok.inj (h.task.symm.trans h'.task)
  cases a
  cases b
  simp only [SelectedTaskOperation.mk.injEq]
  exact ⟨h.id.trans h'.id.symm, h.device.trans h'.device.symm, htask, htime, hwall, hcount⟩

end

section
variable {ι α : Type} {id : ι → String} {identity : ι → Parsed Unit} {duplicate : String}
  {parse parse' : ι → Parsed α} {seen seen' : List String} {inputs : List ι}
  {as bs : List α}

theorem parseEach_unique (h : parseEach id identity duplicate parse seen inputs = .ok as)
    (h' : parseEach id identity duplicate parse' seen' inputs = .ok bs)
    (hunique : ∀ input a b, parse input = .ok a → parse' input = .ok b → a = b) : as = bs := by
  induction inputs generalizing seen seen' as bs with
  | nil =>
    cases h
    cases h'
    rfl
  | cons input inputs ih =>
    obtain ⟨_, -, h⟩ := bind_ok_iff.mp h
    obtain ⟨_, -, h⟩ := bind_ok_iff.mp h
    obtain ⟨a, ha, h⟩ := bind_ok_iff.mp h
    obtain ⟨_, hrest, h⟩ := bind_ok_iff.mp h
    obtain ⟨_, -, h'⟩ := bind_ok_iff.mp h'
    obtain ⟨_, -, h'⟩ := bind_ok_iff.mp h'
    obtain ⟨b, hb, h'⟩ := bind_ok_iff.mp h'
    obtain ⟨_, hrest', h'⟩ := bind_ok_iff.mp h'
    cases h
    cases h'
    rw [hunique input a b ha hb, ih hrest hrest']

end

theorem parseTitledOperations_unique {deviceID : String} {now now' : Time}
    {identities : List Task} {inputs : List SyncTaskOperationJSON} {as bs : List TaskOperation}
    (h : parseTitledOperations deviceID now identities inputs = .ok as)
    (h' : parseTitledOperations deviceID now' identities inputs = .ok bs) : as = bs := by
  induction inputs generalizing identities as bs with
  | nil =>
    cases h
    cases h'
    rfl
  | cons input inputs ih =>
    unfold parseTitledOperations at h h'
    by_cases htype : input.type = "upsert"
    · rw [if_pos htype] at h h'
      cases identities with
      | nil => cases h
      | cons identity identities =>
        obtain ⟨_, -, h⟩ := bind_ok_iff.mp h
        obtain ⟨a, ha, h⟩ := bind_ok_iff.mp h
        obtain ⟨_, hrest, h⟩ := bind_ok_iff.mp h
        obtain ⟨_, -, h'⟩ := bind_ok_iff.mp h'
        obtain ⟨b, hb, h'⟩ := bind_ok_iff.mp h'
        obtain ⟨_, hrest', h'⟩ := bind_ok_iff.mp h'
        cases h
        cases h'
        rw [(parseTaskOperation_ok ha).unique (parseTaskOperation_ok hb), ih hrest hrest']
    · rw [if_neg htype] at h h'
      obtain ⟨a, ha, h⟩ := bind_ok_iff.mp h
      obtain ⟨_, hrest, h⟩ := bind_ok_iff.mp h
      obtain ⟨b, hb, h'⟩ := bind_ok_iff.mp h'
      obtain ⟨_, hrest', h'⟩ := bind_ok_iff.mp h'
      cases h
      cases h'
      rw [(parseTaskOperation_ok ha).unique (parseTaskOperation_ok hb), ih hrest hrest']

theorem parseTaskOperations_ok {sharedIdentities : SharedIdentities} {deviceID : String}
    {inputs : List SyncTaskOperationJSON} {now : Time} {operations : List TaskOperation}
    (h : parseTaskOperations sharedIdentities deviceID inputs now = .ok operations) :
    ∃ titles identities, validateTaskOperationInputs deviceID inputs = .ok titles ∧
      sharedIdentities titles = .ok identities ∧
      parseTitledOperations deviceID now identities inputs = .ok operations := by
  obtain ⟨titles, htitles, h⟩ := bind_ok_iff.mp h
  split at h
  next => cases h
  next => cases h
  next identities hidentities => exact ⟨titles, identities, htitles, hidentities, h⟩

/-- What a batch is parsed to does not depend on when it is. -/
theorem parseOperationBatch_unique {sharedIdentities : SharedIdentities} {batch : OperationBatch}
    {now now' : Time} {request request' : SyncRequest}
    (h : parseOperationBatch sharedIdentities batch now = .ok request)
    (h' : parseOperationBatch sharedIdentities batch now' = .ok request') :
    request = request' := by
  obtain ⟨_, -, h⟩ := bind_ok_iff.mp h
  obtain ⟨commands, hcommands, h⟩ := bind_ok_iff.mp h
  obtain ⟨tasks, htasks, h⟩ := bind_ok_iff.mp h
  obtain ⟨durations, hdurations, h⟩ := bind_ok_iff.mp h
  obtain ⟨autoStarts, hautoStarts, h⟩ := bind_ok_iff.mp h
  obtain ⟨selectedTasks, hselectedTasks, h⟩ := bind_ok_iff.mp h
  obtain ⟨_, -, h'⟩ := bind_ok_iff.mp h'
  obtain ⟨commands', hcommands', h'⟩ := bind_ok_iff.mp h'
  obtain ⟨tasks', htasks', h'⟩ := bind_ok_iff.mp h'
  obtain ⟨durations', hdurations', h'⟩ := bind_ok_iff.mp h'
  obtain ⟨autoStarts', hautoStarts', h'⟩ := bind_ok_iff.mp h'
  obtain ⟨selectedTasks', hselectedTasks', h'⟩ := bind_ok_iff.mp h'
  cases h
  cases h'
  obtain ⟨titles, identities, htitles, hidentities, htasks⟩ := parseTaskOperations_ok htasks
  obtain ⟨titles', identities', htitles', hidentities', htasks'⟩ := parseTaskOperations_ok htasks'
  obtain rfl := Except.ok.inj (htitles.symm.trans htitles')
  obtain rfl := Except.ok.inj (hidentities.symm.trans hidentities')
  obtain rfl := parseTitledOperations_unique htasks htasks'
  obtain rfl := parseEach_unique hcommands hcommands' fun input a b ha hb =>
    (parseCommand_ok ha).unique (parseCommand_ok hb)
  obtain rfl := parseEach_unique hdurations hdurations' fun input a b ha hb =>
    (parseDurationOperation_ok ha).unique (parseDurationOperation_ok hb)
  obtain rfl := parseEach_unique hautoStarts hautoStarts' fun input a b ha hb =>
    (parseAutoStartOperation_ok ha).unique (parseAutoStartOperation_ok hb)
  obtain rfl := parseEach_unique hselectedTasks hselectedTasks' fun input a b ha hb =>
    (parseSelectedTaskOperation_ok ha).unique (parseSelectedTaskOperation_ok hb)
  rfl

/-! ## Accepted batches -/

/-- Each operation is parsed from its input under some title. -/
theorem parseTitledOperations_parsed {deviceID : String} {now : Time} {identities : List Task}
    {inputs : List SyncTaskOperationJSON} {operations : List TaskOperation}
    (h : parseTitledOperations deviceID now identities inputs = .ok operations) :
    List.Forall₂ (fun input operation => ∃ title,
      parseTaskOperation deviceID input title now = .ok operation) inputs operations := by
  induction inputs generalizing identities operations with
  | nil =>
    cases h
    exact .nil
  | cons input inputs ih =>
    unfold parseTitledOperations at h
    by_cases htype : input.type = "upsert"
    · rw [if_pos htype] at h
      cases identities with
      | nil => cases h
      | cons identity identities =>
        obtain ⟨_, -, h⟩ := bind_ok_iff.mp h
        obtain ⟨operation, hoperation, h⟩ := bind_ok_iff.mp h
        obtain ⟨_, hrest, h⟩ := bind_ok_iff.mp h
        cases h
        exact .cons ⟨_, hoperation⟩ (ih hrest)
    · rw [if_neg htype] at h
      obtain ⟨operation, hoperation, h⟩ := bind_ok_iff.mp h
      obtain ⟨_, hrest, h⟩ := bind_ok_iff.mp h
      cases h
      exact .cons ⟨_, hoperation⟩ (ih hrest)

theorem parseTitledOperations_ok {deviceID : String} {now : Time} {identities : List Task}
    {inputs : List SyncTaskOperationJSON} {operations : List TaskOperation}
    (h : parseTitledOperations deviceID now identities inputs = .ok operations) :
    List.Forall₂ (fun input operation => ∃ title, ParsedTaskOperation deviceID title input operation)
      inputs operations :=
  (parseTitledOperations_parsed h).imp fun _ _ ⟨title, hparse⟩ => ⟨title, parseTaskOperation_ok hparse⟩

/-- What the operations of an accepted batch have in common: an id of their own,
and fields that come from a checked input. -/
structure Accepted {α ι : Type} (id : α → String) (parsed : ι → α → Prop) (inputs : List ι)
    (operations : List α) : Prop where
  distinct : (operations.map id).Nodup
  parsed : ∀ operation ∈ operations, ∃ input ∈ inputs, parsed input operation

theorem Accepted.ofForall₂ {α ι : Type} {id : α → String} {inputID : ι → String}
    {parsed : ι → α → Prop} {inputs : List ι} {operations : List α}
    (hall : List.Forall₂ parsed inputs operations) (hnodup : (inputs.map inputID).Nodup)
    (hid : ∀ input operation, parsed input operation → id operation = inputID input) :
    Accepted id parsed inputs operations where
  distinct := by
    have hids : inputs.map inputID = operations.map id := by
      rw [← List.forall₂_eq_eq_eq, List.forall₂_map_left_iff, List.forall₂_map_right_iff]
      exact hall.imp fun input operation h => (hid input operation h).symm
    exact hids ▸ hnodup
  parsed := by
    clear hnodup
    induction hall with
    | nil => simp
    | cons hfirst _ ih =>
      intro operation hmem
      obtain rfl | hmem := List.mem_cons.mp hmem
      · exact ⟨_, by simp, hfirst⟩
      · obtain ⟨input, hinput, h⟩ := ih operation hmem
        exact ⟨input, List.mem_cons_of_mem _ hinput, h⟩

/-- A request made of a batch. -/
structure AcceptedBatch (batch : OperationBatch) (request : SyncRequest) : Prop where
  device : request.deviceID = batch.deviceID
  commands : Accepted Command.id
    (fun input command => validCommandIdentity input = .ok () ∧
      ParsedCommand batch.deviceID input command) batch.commands request.commands
  taskOperations : Accepted TaskOperation.id
    (fun input operation => ∃ title, ParsedTaskOperation batch.deviceID title input operation)
    batch.taskOperations request.taskOperations
  durationOperations : Accepted DurationOperation.id
    (fun input operation => validID input.id ∧
      ParsedDurationOperation batch.deviceID input operation)
    batch.durationOperations request.durationOperations
  autoStartOperations : Accepted AutoStartOperation.id
    (fun input operation => validID input.id ∧
      ParsedAutoStartOperation batch.deviceID input operation)
    batch.autoStartOperations request.autoStartOperations
  selectedTaskOperations : Accepted SelectedTaskOperation.id
    (fun input operation => validID input.id ∧
      ParsedSelectedTaskOperation batch.deviceID input operation)
    batch.selectedTaskOperations request.selectedTaskOperations

theorem parseOperationBatch_ok {sharedIdentities : SharedIdentities} {batch : OperationBatch}
    {now : Time} {request : SyncRequest}
    (h : parseOperationBatch sharedIdentities batch now = .ok request) :
    AcceptedBatch batch request := by
  obtain ⟨_, -, h⟩ := bind_ok_iff.mp h
  obtain ⟨commands, hcommands, h⟩ := bind_ok_iff.mp h
  obtain ⟨tasks, htasks, h⟩ := bind_ok_iff.mp h
  obtain ⟨durations, hdurations, h⟩ := bind_ok_iff.mp h
  obtain ⟨autoStarts, hautoStarts, h⟩ := bind_ok_iff.mp h
  obtain ⟨selectedTasks, hselectedTasks, h⟩ := bind_ok_iff.mp h
  cases h
  obtain ⟨titles, identities, htitles, -, htasks⟩ := parseTaskOperations_ok htasks
  obtain ⟨_, htitles, -⟩ := bind_ok_iff.mp htitles
  have hcommand := parseEach_ok hcommands
  have hduration := parseEach_ok hdurations
  have hautoStart := parseEach_ok hautoStarts
  have hselectedTask := parseEach_ok hselectedTasks
  refine ⟨rfl, ?_, ?_, ?_, ?_, ?_⟩
  · exact .ofForall₂ (hcommand.1.imp fun _ _ h => ⟨h.1, parseCommand_ok h.2⟩) hcommand.2.1
      fun _ _ h => h.2.id
  · exact .ofForall₂ (parseTitledOperations_ok htasks) (parseEach_ok htitles).2.1
      fun _ _ ⟨_, h⟩ => h.id
  · exact .ofForall₂ (hduration.1.imp fun _ _ h =>
      ⟨check_ok_iff.mp h.1, parseDurationOperation_ok h.2⟩) hduration.2.1 fun _ _ h => h.2.id
  · exact .ofForall₂ (hautoStart.1.imp fun _ _ h =>
      ⟨check_ok_iff.mp h.1, parseAutoStartOperation_ok h.2⟩) hautoStart.2.1 fun _ _ h => h.2.id
  · exact .ofForall₂ (hselectedTask.1.imp fun _ _ h =>
      ⟨check_ok_iff.mp h.1, parseSelectedTaskOperation_ok h.2⟩) hselectedTask.2.1
      fun _ _ h => h.2.id

end Pomodorough.Server.AcceptedBatches
