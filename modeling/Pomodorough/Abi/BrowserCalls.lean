import Mathlib.Algebra.Ring.Int.Defs
import Mathlib.Algebra.Ring.Nat
import Pomodorough.Library.OwnedResources

/-! # Calls of the shared core in the browser

`SharedCore.call` of `shared-core.js` and the private methods it uses. The instance's
exports may answer every call as they like, or throw. -/
namespace Pomodorough.Abi.BrowserCalls
open Pomodorough.Library.OwnedResources

abbrev Bytes := List UInt8

/-- An error object that an export or a function of the browser throws. -/
abbrev Cause := String

/-- What an exported function returns: nothing, an `i32` or an `i64`. -/
inductive JsValue where
  | undefined
  | number (value : Int)
  | bigint (value : Int)
  deriving DecidableEq

def JsValue.truthy : JsValue → Bool
  | .undefined => false
  | .number value => value ≠ 0
  | .bigint value => value ≠ 0

abbrev Answer := Except Cause JsValue

inductive Failure where
  | thrown (cause : Cause)
  | unusable (cause : Failure)
  | operationNotText
  | operationTooLarge
  | inputNotJson
  | inputSize
  | memoryLimit
  | allocationFailed
  | outsideMemory (label : String)
  | notBigint
  | emptyResult
  | resultTooLarge
  | envelope (cause : Cause)
  | rejectedFree (status : JsValue)
  | cleanupFailed (cause : Failure)

/-- An error with the errors of the cleanup after it. -/
structure Thrown where
  failure : Failure
  cleanupErrors : List Failure

def maxOperationBytes : Nat := 256
def maxInputBytes : Nat := 16 * 1024 * 1024
def maxOutputBytes : Nat := 16 * 1024 * 1024
def maxMemoryBytes : Int := 256 * 1024 * 1024

def maxSafeInteger : Int := 2 ^ 53 - 1

/-- A call of an export, or a use of its memory, with its answer. -/
inductive Event where
  | allocate (length : Nat) (answer : Answer)
  | write (pointer : JsValue) (bytes : Bytes) (answer : Except Cause Unit)
  | dispatch (operationPointer : JsValue) (operationLength : Nat) (inputPointer : JsValue)
      (inputLength : Nat) (answer : Answer)
  | read (pointer length : Nat) (answer : Except Cause Bytes)
  | free (pointer : JsValue) (length : Nat) (answer : Answer)

structure Exports (σ : Type) where
  alloc : Nat → σ → Answer × σ
  free : JsValue → Nat → σ → Answer × σ
  dispatch : JsValue → Nat → JsValue → Nat → σ → Answer × σ
  byteLength : σ → JsValue
  write : JsValue → Bytes → σ → Except Cause Unit × σ
  read : Nat → Nat → σ → Except Cause Bytes × σ

/-- A `SharedCore`: the state of its exports and why it is unusable. -/
structure Instance (σ : Type) where
  exports : σ
  unusableCause : Option Failure

def onExports {σ α : Type} (f : σ → α × σ) (core : Instance σ) : α × Instance σ :=
  let (answer, exports) := f core.exports
  (answer, { core with exports })

/-- What `call` is given: the operation as UTF-8 if it is a string, and the JSON of the
input as UTF-8 if it has any. -/
structure Request where
  operation : Option Bytes
  input : Option Bytes

def checkRequest (request : Request) : Except Failure (Bytes × Bytes) :=
  match request.operation with
  | none => .error .operationNotText
  | some operation =>
    if operation = [] then .error .operationNotText
    else if operation.length > maxOperationBytes then .error .operationTooLarge
    else
      match request.input with
      | none => .error .inputNotJson
      | some input =>
        if input = [] ∨ input.length > maxInputBytes then .error .inputSize
        else .ok (operation, input)

/-- `BigInt.asUintN(64, packed)`, which only takes a `bigint`. -/
def asUintN64 : JsValue → Option Nat
  | .bigint value => some (value % 2 ^ 64).toNat
  | _ => none

section Calls
variable {σ α : Type} (abi : Exports σ)

def checkMemory : Host (Instance σ) Event (Option Failure) := do
  match ← Host.read fun core : Instance σ => abi.byteLength core.exports with
  | .number byteLength =>
    if -maxSafeInteger ≤ byteLength ∧ byteLength ≤ maxSafeInteger ∧ byteLength ≤ maxMemoryBytes then
      return none
    else return some .memoryLimit
  | _ => return some .memoryLimit

def requireRange (pointer : JsValue) (length : Nat) (label : String) :
    Host (Instance σ) Event (Option Failure) := do
  match ← checkMemory abi with
  | some failure => return some failure
  | none =>
    let byteLength ← Host.read fun core : Instance σ => abi.byteLength core.exports
    match pointer, byteLength with
    | .number pointer, .number byteLength =>
      if pointer ≤ maxSafeInteger ∧ length ≤ maxSafeInteger ∧ 0 < pointer ∧ 0 < length ∧
          pointer ≤ byteLength ∧ length ≤ byteLength - pointer then return none
      else return some (.outsideMemory label)
    | _, _ => return some (.outsideMemory label)

def release (pointer : JsValue) (length : Nat) : Host (Instance σ) Event (Option Failure) := do
  match ← Host.call (onExports (abi.free pointer length)) (.free pointer length) with
  | .error cause => return some (.thrown cause)
  | .ok status =>
    if status = .number 1 then return none
    else return some (.rejectedFree status)

def releaseAll : List (JsValue × Nat) → Host (Instance σ) Event (List Failure)
  | [] => return []
  | (pointer, length) :: buffers => do
    if ¬ pointer.truthy ∨ length = 0 then releaseAll buffers
    else
      let failure ← release abi pointer length
      let failures ← releaseAll buffers
      return failure.toList ++ failures

/-- The writing of what was allocated. -/
def writeAllocated (pointer : JsValue) (bytes : Bytes) :
    Host (Instance σ) Event (Option Failure) := do
  match ← requireRange abi pointer bytes.length "allocated input" with
  | some failure => return some failure
  | none =>
    match ← Host.call (onExports (abi.write pointer bytes)) (.write pointer bytes) with
    | .error cause => return some (.thrown cause)
    | .ok _ => return none

def markUnusable (cause : Failure) : Host (Instance σ) Event Unit :=
  Host.update fun core => { core with unusableCause := some cause }

def allocateAndWrite (bytes : Bytes) : Host (Instance σ) Event (Except Thrown JsValue) := do
  match ← Host.call (onExports (abi.alloc bytes.length)) (.allocate bytes.length) with
  | .error cause => return .error ⟨.thrown cause, []⟩
  | .ok pointer =>
    if ¬ pointer.truthy then return .error ⟨.allocationFailed, []⟩
    else
      match ← writeAllocated abi pointer bytes with
      | none => return .ok pointer
      | some primary =>
        match ← release abi pointer bytes.length with
        | none => return .error ⟨primary, []⟩
        | some cleanup =>
          markUnusable cleanup
          return .error ⟨primary, [cleanup]⟩

/-- What is made of the result's range. -/
def readResult (parse : Bytes → Except Cause α) (pointer length : Nat) :
    Host (Instance σ) Event (Except Thrown α) := do
  if pointer = 0 ∨ length = 0 then return .error ⟨.emptyResult, []⟩
  else if length > maxOutputBytes then return .error ⟨.resultTooLarge, []⟩
  else
    match ← requireRange abi (.number pointer) length "dispatch result" with
    | some failure => return .error ⟨failure, []⟩
    | none =>
      match ← Host.call (onExports (abi.read pointer length)) (.read pointer length) with
      | .error cause => return .error ⟨.thrown cause, []⟩
      | .ok resultBytes =>
        match parse resultBytes with
        | .error cause => return .error ⟨.envelope cause, []⟩
        | .ok value => return .ok value

/-- The guarded part of `call`, with the buffers it owns as it ends. -/
def callOwned (parse : Bytes → Except Cause α) (operationBytes inputBytes : Bytes) :
    Host (Instance σ) Event (List (JsValue × Nat) × Except Thrown α) := do
  match ← checkMemory abi with
  | some failure => return ([], .error ⟨failure, []⟩)
  | none =>
    match ← allocateAndWrite abi operationBytes with
    | .error thrown => return ([], .error thrown)
    | .ok operationPointer =>
      let operationBuffer := (operationPointer, operationBytes.length)
      match ← allocateAndWrite abi inputBytes with
      | .error thrown => return ([operationBuffer], .error thrown)
      | .ok inputPointer =>
        let ownedBuffers := [operationBuffer, (inputPointer, inputBytes.length)]
        match ← Host.call
          (onExports (abi.dispatch operationPointer operationBytes.length inputPointer
            inputBytes.length))
          (.dispatch operationPointer operationBytes.length inputPointer inputBytes.length) with
        | .error cause => return (ownedBuffers, .error ⟨.thrown cause, []⟩)
        | .ok packed =>
          match asUintN64 packed with
          | none => return (ownedBuffers, .error ⟨.notBigint, []⟩)
          | some packedResult =>
            let resultPointer : Nat := packedResult % 2 ^ 32
            let resultLength : Nat := packedResult / 2 ^ 32
            let ownedBuffers := if resultPointer ≠ 0 ∧ resultLength ≠ 0 then
              ownedBuffers ++ [(JsValue.number resultPointer, resultLength)] else ownedBuffers
            let result ← readResult abi parse resultPointer resultLength
            return (ownedBuffers, result)

/-- `parse` is the decoding, the JSON parsing and the envelope check of the operation. -/
def call (parse : Bytes → Bytes → Except Cause α) (request : Request) :
    Host (Instance σ) Event (Except Thrown α) := do
  match ← Host.read fun core : Instance σ => core.unusableCause with
  | some cause => return .error ⟨.unusable cause, []⟩
  | none =>
    match checkRequest request with
    | .error failure => return .error ⟨failure, []⟩
    | .ok (operationBytes, inputBytes) =>
      let (ownedBuffers, result) ← callOwned abi (parse operationBytes) operationBytes inputBytes
      let cleanupErrors ← releaseAll abi ownedBuffers.reverse
      match cleanupErrors with
      | [] => return result
      | first :: _ =>
        markUnusable first
        match result with
        | .error primary =>
          return .error ⟨primary.failure, primary.cleanupErrors ++ cleanupErrors⟩
        | .ok _ => return .error ⟨.cleanupFailed first, cleanupErrors⟩

/-- Calls made one after another. -/
def callEach (parse : Bytes → Bytes → Except Cause α) :
    List Request → Host (Instance σ) Event (List (Except Thrown α))
  | [] => return []
  | request :: requests => do
    let result ← call abi parse request
    let results ← callEach parse requests
    return result :: results

end Calls

/-! ## What a call obtains and frees -/

abbrev Buffer := JsValue × Nat

/-- A null pointer and an empty range are no buffers. -/
def bufferOf (pointer : JsValue) (length : Nat) : Option Buffer :=
  if pointer.truthy ∧ length ≠ 0 then some (pointer, length) else none

def obtains : Event → Option Buffer
  | .allocate length (.ok pointer) => bufferOf pointer length
  | .dispatch _ _ _ _ (.ok packed) =>
    (asUintN64 packed).bind fun packedResult =>
      bufferOf (.number (packedResult % 2 ^ 32 : Nat)) (packedResult / 2 ^ 32)
  | _ => none

def frees : Event → Option Buffer
  | .free pointer length _ => some (pointer, length)
  | _ => none

/-- Whether a call did what it was made for. -/
def Event.succeeded : Event → Bool
  | .allocate _ answer => answer.toOption.any JsValue.truthy
  | .write _ _ answer => answer.isOk
  | .dispatch _ _ _ _ (.ok packed) =>
    (asUintN64 packed).any fun packedResult =>
      packedResult % 2 ^ 32 ≠ 0 ∧ packedResult / 2 ^ 32 ≠ 0
  | .dispatch _ _ _ _ (.error _) => false
  | .read _ _ answer => answer.isOk
  | .free _ _ answer => answer.toOption = some (.number 1)

def Event.isFree : Event → Bool
  | .free _ _ _ => true
  | _ => false

def FailedFree (event : Event) : Prop := event.isFree = true ∧ event.succeeded = false

def Clean (events : List Event) : Prop := ∀ event ∈ events, event.succeeded = true

theorem Clean.append {before after : List Event} (h : Clean before) (h' : Clean after) :
    Clean (before ++ after) :=
  List.forall_mem_append.mpr ⟨h, h'⟩

theorem clean_nil : Clean [] := fun _ h => nomatch h

theorem clean_singleton {event : Event} (h : event.succeeded = true) : Clean [event] := by
  simpa [Clean] using h

section Calls
variable {σ α : Type}

/-- A failed free leaves the instance unusable, and it stays so. -/
structure Marked (core : Instance σ) (events : List Event) (last : Instance σ) : Prop where
  stays : core.unusableCause.isSome → last.unusableCause.isSome
  marks : ∀ event ∈ events, FailedFree event → last.unusableCause.isSome

theorem Marked.append {core middle last : Instance σ} {before after : List Event}
    (h : Marked core before middle) (h' : Marked middle after last) :
    Marked core (before ++ after) last where
  stays hcore := h'.stays (h.stays hcore)
  marks event hevent hfailed := by
    rcases List.mem_append.mp hevent with hevent | hevent
    · exact h'.stays (h.marks event hevent hfailed)
    · exact h'.marks event hevent hfailed

theorem Clean.marked {core last : Instance σ} {events : List Event} (h : Clean events)
    (hsame : last.unusableCause = core.unusableCause) : Marked core events last where
  stays hcore := by rwa [hsame]
  marks event hevent hfailed := absurd (h event hevent) (by rw [hfailed.2]; decide)

theorem marked_of_isSome {core last : Instance σ} {events : List Event}
    (h : last.unusableCause.isSome) : Marked core events last :=
  ⟨fun _ => h, fun _ _ _ => h⟩

theorem marked_of_not_isFree {core last : Instance σ} {events : List Event}
    (hsame : last.unusableCause = core.unusableCause)
    (h : ∀ event ∈ events, event.isFree = false) : Marked core events last where
  stays hcore := by rwa [hsame]
  marks event hevent hfailed := absurd hfailed.1 (by rw [h event hevent]; decide)

/-- Calls that neither obtain nor free. -/
structure Quiet (core : Instance σ) (events : List Event) (last : Instance σ) : Prop where
  same : last.unusableCause = core.unusableCause
  quiet : ∀ event ∈ events, obtains event = none ∧ event.isFree = false

theorem frees_of_not_isFree {event : Event} (h : event.isFree = false) : frees event = none := by
  cases event <;> first | rfl | cases h

theorem Quiet.transfers {core last : Instance σ} {events : List Event} (h : Quiet core events last) :
    Transfers obtains frees [] events [] :=
  Transfers.others fun event hevent =>
    ⟨(h.quiet event hevent).1, frees_of_not_isFree (h.quiet event hevent).2⟩

theorem Quiet.marked {core last : Instance σ} {events : List Event} (h : Quiet core events last) :
    Marked core events last :=
  marked_of_not_isFree h.same fun event hevent => (h.quiet event hevent).2

theorem quiet_nil (core : Instance σ) : Quiet core [] core := ⟨rfl, fun _ h => nomatch h⟩

variable (abi : Exports σ)

/-! ## Ranges -/

theorem checkMemory_after (core : Instance σ) :
    Host.After (checkMemory abi) core fun _ events last => events = [] ∧ last = core := by
  refine Host.After.bind (Host.After.read (Q := fun _ events last => events = [] ∧ last = core)
    ⟨rfl, rfl⟩) ?_
  intro byteLength before middle hmiddle
  obtain ⟨rfl, rfl⟩ := hmiddle
  split
  · split <;> exact Host.After.pure ⟨rfl, rfl⟩
  · exact Host.After.pure ⟨rfl, rfl⟩

theorem requireRange_after (pointer : JsValue) (length : Nat) (label : String)
    (core : Instance σ) :
    Host.After (requireRange abi pointer length label) core
      fun _ events last => events = [] ∧ last = core := by
  refine Host.After.bind (checkMemory_after abi core) ?_
  intro failure before middle hmiddle
  obtain ⟨rfl, rfl⟩ := hmiddle
  cases failure with
  | some failure => exact Host.After.pure ⟨rfl, rfl⟩
  | none =>
    refine Host.After.bind (Host.After.read (Q := fun _ events last => events = [] ∧ last = middle)
      ⟨rfl, rfl⟩) ?_
    intro byteLength before last hlast
    obtain ⟨rfl, rfl⟩ := hlast
    split
    · split <;> exact Host.After.pure ⟨rfl, rfl⟩
    · exact Host.After.pure ⟨rfl, rfl⟩

theorem writeAllocated_after (pointer : JsValue) (bytes : Bytes) (core : Instance σ) :
    Host.After (writeAllocated abi pointer bytes) core fun failure events last =>
      Quiet core events last ∧ (failure = none → Clean events) := by
  refine Host.After.bind (requireRange_after abi pointer bytes.length _ core) ?_
  intro failure before middle hmiddle
  obtain ⟨rfl, rfl⟩ := hmiddle
  cases failure with
  | some failure => exact Host.After.pure ⟨quiet_nil _, nofun⟩
  | none =>
    refine Host.After.bind (Host.After.call (Q := fun answer events last =>
      events = [.write pointer bytes answer] ∧ last.unusableCause = middle.unusableCause)
      ⟨rfl, rfl⟩) ?_
    intro answer written last hwritten
    obtain ⟨rfl, hsame⟩ := hwritten
    have hquiet : Quiet middle [.write pointer bytes answer] last :=
      ⟨hsame, List.forall_mem_singleton.mpr ⟨rfl, rfl⟩⟩
    cases answer with
    | error cause => exact Host.After.pure ⟨hquiet, nofun⟩
    | ok => exact Host.After.pure ⟨hquiet, fun _ => clean_singleton rfl⟩

theorem readResult_after (parse : Bytes → Except Cause α) (pointer length : Nat)
    (core : Instance σ) :
    Host.After (readResult abi parse pointer length) core fun result events last =>
      Quiet core events last ∧
        ∀ value, result = .ok value → Clean events ∧ pointer ≠ 0 ∧ length ≠ 0 := by
  unfold readResult
  split
  · exact Host.After.pure ⟨quiet_nil _, nofun⟩
  rename_i hbuffer
  push Not at hbuffer
  split
  · exact Host.After.pure ⟨quiet_nil _, nofun⟩
  refine Host.After.bind (requireRange_after abi _ _ _ core) ?_
  intro failure before middle hmiddle
  obtain ⟨rfl, rfl⟩ := hmiddle
  cases failure with
  | some failure => exact Host.After.pure ⟨quiet_nil _, nofun⟩
  | none =>
    refine Host.After.bind (Host.After.call (Q := fun answer events last =>
      events = [.read pointer length answer] ∧ last.unusableCause = middle.unusableCause)
      ⟨rfl, rfl⟩) ?_
    intro answer read last hread
    obtain ⟨rfl, hsame⟩ := hread
    have hquiet : Quiet middle [.read pointer length answer] last :=
      ⟨hsame, List.forall_mem_singleton.mpr ⟨rfl, rfl⟩⟩
    cases answer with
    | error cause => exact Host.After.pure ⟨hquiet, nofun⟩
    | ok resultBytes =>
      simp only
      split
      · exact Host.After.pure ⟨hquiet, nofun⟩
      · exact Host.After.pure ⟨hquiet, fun _ _ => ⟨clean_singleton rfl, hbuffer⟩⟩

/-! ## Cleanup -/

theorem release_after (pointer : JsValue) (length : Nat) (core : Instance σ) :
    Host.After (release abi pointer length) core fun failure events last =>
      last.unusableCause = core.unusableCause ∧
        Transfers obtains frees [(pointer, length)] events [] ∧
        (failure = none → Clean events) := by
  refine Host.After.bind (Host.After.call (Q := fun answer events last =>
    events = [.free pointer length answer] ∧ last.unusableCause = core.unusableCause)
    ⟨rfl, rfl⟩) ?_
  intro answer before last hbefore
  obtain ⟨rfl, hsame⟩ := hbefore
  have htransfers : Transfers obtains frees [(pointer, length)] [.free pointer length answer] [] :=
    Transfers.release rfl rfl
  cases answer with
  | error cause => exact Host.After.pure ⟨hsame, htransfers, nofun⟩
  | ok status =>
    simp only
    split
    · rename_i hstatus
      refine Host.After.pure ⟨hsame, htransfers, fun _ => clean_singleton ?_⟩
      rw [hstatus]
      rfl
    · exact Host.After.pure ⟨hsame, htransfers, nofun⟩

/-- A buffer that cleanup does not pass over. -/
def IsBuffer (buffer : JsValue × Nat) : Prop := buffer.1.truthy = true ∧ buffer.2 ≠ 0

theorem releaseAll_after {buffers : List (JsValue × Nat)} (h : ∀ buffer ∈ buffers, IsBuffer buffer)
    (core : Instance σ) :
    Host.After (releaseAll abi buffers) core fun failures events last =>
      last.unusableCause = core.unusableCause ∧ Transfers obtains frees buffers events [] ∧
        (failures = [] → Clean events) := by
  induction buffers generalizing core with
  | nil => exact Host.After.pure ⟨rfl, .nil (.refl _), fun _ => clean_nil⟩
  | cons buffer buffers ih =>
    obtain ⟨hbuffer, hbuffers⟩ := List.forall_mem_cons.mp h
    rw [releaseAll, if_neg (by simp [hbuffer.1, hbuffer.2])]
    refine Host.After.bind (release_after abi buffer.1 buffer.2 core) ?_
    intro failure before middle hbefore
    refine Host.After.bind (ih hbuffers middle) ?_
    intro failures after last hafter
    refine Host.After.pure ⟨hafter.1.trans hbefore.1, ?_, fun hnone => ?_⟩
    · rw [List.append_nil]
      have hperm : (buffer :: buffers).Perm (buffers ++ [buffer]) :=
        List.perm_append_singleton buffer buffers |>.symm
      have hframe := (hbefore.2.1.frame buffers).perm_taken hperm
      rw [List.append_nil] at hframe
      exact hframe.trans hafter.2.1
    · obtain ⟨hfailure, hfailures⟩ := List.append_eq_nil_iff.mp hnone
      rw [List.append_nil]
      exact (hbefore.2.2 (Option.toList_eq_nil_iff.mp hfailure)).append (hafter.2.2 hfailures)

/-! ## A call -/

/-- What `#allocateAndWrite` returns is owned; what it throws with it has freed. -/
theorem allocateAndWrite_after {bytes : Bytes} (hbytes : bytes ≠ []) (core : Instance σ) :
    Host.After (allocateAndWrite abi bytes) core fun result events last =>
      Marked core events last ∧
        match result with
        | .error _ => Transfers obtains frees [] events []
        | .ok pointer => Transfers obtains frees [] events [(pointer, bytes.length)] ∧
            pointer.truthy = true ∧ Clean events := by
  have hlength : bytes.length ≠ 0 := fun hzero => hbytes (List.length_eq_zero_iff.mp hzero)
  refine Host.After.bind (Host.After.call (Q := fun answer events last =>
    events = [.allocate bytes.length answer] ∧ last.unusableCause = core.unusableCause)
    ⟨rfl, rfl⟩) ?_
  intro answer before middle hbefore
  obtain ⟨rfl, hsame⟩ := hbefore
  have hquiet (hnone : obtains (.allocate bytes.length answer) = none) :
      Quiet core [.allocate bytes.length answer] middle :=
    ⟨hsame, List.forall_mem_singleton.mpr ⟨hnone, rfl⟩⟩
  cases answer with
  | error cause => exact Host.After.pure ⟨(hquiet rfl).marked, (hquiet rfl).transfers⟩
  | ok pointer =>
    simp only
    split
    · rename_i hnull
      have hnone : obtains (.allocate bytes.length (.ok pointer)) = none := by
        simp [obtains, bufferOf, hnull]
      exact Host.After.pure ⟨(hquiet hnone).marked, (hquiet hnone).transfers⟩
    · rename_i hpointer
      rw [Bool.not_eq_true, Bool.not_eq_false] at hpointer
      have hobtained : Transfers obtains frees [] [.allocate bytes.length (.ok pointer)]
          [(pointer, bytes.length)] :=
        Transfers.obtain (by simp [obtains, bufferOf, hpointer, hlength]) rfl
      have hclean : Clean [.allocate bytes.length (.ok pointer)] :=
        clean_singleton (by simpa [Event.succeeded, Except.toOption] using hpointer)
      refine Host.After.bind (writeAllocated_after abi pointer bytes middle) ?_
      intro failure written later hwritten
      obtain ⟨hwrite, hwriteClean⟩ := hwritten
      have hkept : Transfers obtains frees [] ([.allocate bytes.length (.ok pointer)] ++ written)
          [(pointer, bytes.length)] :=
        hobtained.trans (hwrite.transfers.keep _)
      have hmarked := (hclean.marked hsame).append hwrite.marked
      cases failure with
      | none =>
        refine Host.After.pure ?_
        rw [List.append_nil]
        exact ⟨hmarked, hkept, hpointer, hclean.append (hwriteClean rfl)⟩
      | some primary =>
        refine Host.After.bind (release_after abi pointer bytes.length later) ?_
        intro cleanup freed last hfreed
        obtain ⟨hkeep, hfree, hfreeClean⟩ := hfreed
        have hall := hkept.trans hfree
        cases cleanup with
        | none =>
          refine Host.After.pure ?_
          rw [List.append_nil, ← List.append_assoc]
          exact ⟨hmarked.append ((hfreeClean rfl).marked hkeep), hall⟩
        | some cleanup =>
          refine Host.After.bind (Host.After.update (Q := fun _ events last =>
            events = [] ∧ last.unusableCause = some cleanup) ⟨rfl, rfl⟩) ?_
          intro _ marked last hlast
          obtain ⟨rfl, hcause⟩ := hlast
          refine Host.After.pure ?_
          rw [List.append_nil, List.append_nil, ← List.append_assoc]
          exact ⟨marked_of_isSome (by rw [hcause]; rfl), hall⟩

theorem truthy_number (n : Nat) : (JsValue.number n).truthy = true ↔ n ≠ 0 := by
  simp [JsValue.truthy]

/-- The result's buffer, if there is one. -/
def resultBuffers (packed : Nat) : List (JsValue × Nat) :=
  if packed % 2 ^ 32 ≠ 0 ∧ packed / 2 ^ 32 ≠ 0 then
    [(.number (packed % 2 ^ 32 : Nat), packed / 2 ^ 32)] else []

theorem isBuffer_resultBuffers (packed : Nat) : ∀ buffer ∈ resultBuffers packed, IsBuffer buffer := by
  intro buffer hbuffer
  unfold resultBuffers at hbuffer
  split at hbuffer
  · rename_i hboth
    rw [List.mem_singleton] at hbuffer
    rw [hbuffer]
    exact ⟨(truthy_number _).mpr hboth.1, hboth.2⟩
  · cases hbuffer

theorem dispatch_transfers {operationPointer inputPointer answer : JsValue}
    {operationLength inputLength packed : Nat} (h : asUintN64 answer = some packed) :
    Transfers obtains frees []
      [.dispatch operationPointer operationLength inputPointer inputLength (.ok answer)]
      (resultBuffers packed) := by
  have hobtains : (obtains (.dispatch operationPointer operationLength inputPointer inputLength
      (.ok answer))).toList = resultBuffers packed := by
    simp only [obtains, h, Option.bind_some, bufferOf, truthy_number, resultBuffers]
    split <;> rfl
  rw [← hobtains]
  exact Transfers.event rfl

theorem callOwned_after (parse : Bytes → Except Cause α) {operationBytes inputBytes : Bytes}
    (hoperation : operationBytes ≠ []) (hinput : inputBytes ≠ []) (core : Instance σ) :
    Host.After (callOwned abi parse operationBytes inputBytes) core fun returned events last =>
      Marked core events last ∧ Transfers obtains frees [] events returned.1 ∧
        (∀ buffer ∈ returned.1, IsBuffer buffer) ∧
        ∀ value, returned.2 = .ok value → Clean events := by
  refine Host.After.bind (checkMemory_after abi core) ?_
  intro failure before middle hmiddle
  obtain ⟨rfl, rfl⟩ := hmiddle
  cases failure with
  | some failure =>
    exact Host.After.pure ⟨(quiet_nil _).marked, .nil (.refl _), nofun, nofun⟩
  | none =>
    refine Host.After.bind (allocateAndWrite_after abi hoperation middle) ?_
    intro first before second hfirst
    obtain ⟨hmarked, hfirst⟩ := hfirst
    cases first with
    | error thrown =>
      refine Host.After.pure ?_
      rw [List.append_nil, List.nil_append]
      exact ⟨hmarked, hfirst, nofun, nofun⟩
    | ok operationPointer =>
      obtain ⟨hobtained, htruthy, hclean⟩ := hfirst
      have hbuffer : IsBuffer (operationPointer, operationBytes.length) :=
        ⟨htruthy, fun hzero => hoperation (List.length_eq_zero_iff.mp hzero)⟩
      refine Host.After.bind (allocateAndWrite_after abi hinput second) ?_
      intro answer after third hthird
      obtain ⟨hmarked', hthird⟩ := hthird
      cases answer with
      | error thrown =>
        refine Host.After.pure ?_
        rw [List.append_nil, List.nil_append]
        exact ⟨hmarked.append hmarked',
          hobtained.trans (hthird.keep _),
          List.forall_mem_singleton.mpr hbuffer, nofun⟩
      | ok inputPointer =>
        obtain ⟨hobtained', htruthy', hclean'⟩ := hthird
        have hbuffers : ∀ buffer ∈ [(operationPointer, operationBytes.length),
            (inputPointer, inputBytes.length)], IsBuffer buffer :=
          List.forall_mem_cons.mpr ⟨hbuffer, List.forall_mem_singleton.mpr
            ⟨htruthy', fun hzero => hinput (List.length_eq_zero_iff.mp hzero)⟩⟩
        have hboth : Transfers obtains frees [] (before ++ after)
            [(operationPointer, operationBytes.length), (inputPointer, inputBytes.length)] :=
          hobtained.trans (hobtained'.beside _)
        refine Host.After.bind (Host.After.call (Q := fun answer events last => events =
          [.dispatch operationPointer operationBytes.length inputPointer inputBytes.length answer] ∧
            last.unusableCause = third.unusableCause) ⟨rfl, rfl⟩) ?_
        intro answer dispatched fourth hfourth
        obtain ⟨rfl, hsame⟩ := hfourth
        have hfailed (hnone : obtains (.dispatch operationPointer operationBytes.length inputPointer
            inputBytes.length answer) = none) :
            Marked middle (before ++ (after ++ [.dispatch operationPointer operationBytes.length
              inputPointer inputBytes.length answer])) fourth ∧
            Transfers obtains frees [] (before ++ (after ++ [.dispatch operationPointer
              operationBytes.length inputPointer inputBytes.length answer]))
              [(operationPointer, operationBytes.length), (inputPointer, inputBytes.length)] := by
          have hquiet : Quiet third [.dispatch operationPointer operationBytes.length inputPointer
              inputBytes.length answer] fourth :=
            ⟨hsame, List.forall_mem_singleton.mpr ⟨hnone, rfl⟩⟩
          rw [← List.append_assoc]
          exact ⟨(hmarked.append hmarked').append hquiet.marked,
            hboth.trans (hquiet.transfers.keep _)⟩
        cases answer with
        | error cause =>
          obtain ⟨hmarked, htransfers⟩ := hfailed rfl
          exact Host.After.pure ⟨hmarked, htransfers, hbuffers, nofun⟩
        | ok answer =>
          simp only
          cases hpacked : asUintN64 answer with
          | none =>
            obtain ⟨hmarked, htransfers⟩ := hfailed (by simp [obtains, hpacked])
            exact Host.After.pure ⟨hmarked, htransfers, hbuffers, nofun⟩
          | some packed =>
            have howned : (if packed % 2 ^ 32 ≠ 0 ∧ packed / 2 ^ 32 ≠ 0 then
                [(operationPointer, operationBytes.length), (inputPointer, inputBytes.length)] ++
                  [(JsValue.number (packed % 2 ^ 32 : Nat), packed / 2 ^ 32)]
                else [(operationPointer, operationBytes.length), (inputPointer, inputBytes.length)]) =
                [(operationPointer, operationBytes.length), (inputPointer, inputBytes.length)] ++
                  resultBuffers packed := by
              unfold resultBuffers
              split <;> simp
            refine Host.After.bind (readResult_after abi parse _ _ fourth) ?_
            intro result read last hread
            obtain ⟨hquiet, hclean''⟩ := hread
            refine Host.After.pure ?_
            simp only [howned, List.nil_append, List.append_nil]
            have hdispatched : Marked third [.dispatch operationPointer operationBytes.length
                inputPointer inputBytes.length (.ok answer)] fourth :=
              marked_of_not_isFree hsame (List.forall_mem_singleton.mpr rfl)
            have hresult : Transfers obtains frees [] [.dispatch operationPointer
                operationBytes.length inputPointer inputBytes.length (.ok answer)]
                (resultBuffers packed) := dispatch_transfers hpacked
            have hobtained'' := hboth.trans (hresult.beside _)
            have hall := hobtained''.trans (hquiet.transfers.keep _)
            rw [List.append_assoc, List.append_assoc] at hall
            refine ⟨hmarked.append (hmarked'.append (hdispatched.append hquiet.marked)), hall,
              List.forall_mem_append.mpr ⟨hbuffers, isBuffer_resultBuffers packed⟩, ?_⟩
            intro value hvalue
            obtain ⟨hread, hpointer, hlength⟩ := hclean'' value hvalue
            have hsucceeded : (Event.dispatch operationPointer operationBytes.length inputPointer
                inputBytes.length (.ok answer)).succeeded = true := by
              simp only [Event.succeeded, hpacked, Option.any_some, decide_eq_true_eq]
              exact ⟨hpointer, hlength⟩
            exact hclean.append (hclean'.append ((clean_singleton hsucceeded).append hread))

theorem checkRequest_ok {request : Request} {operationBytes inputBytes : Bytes}
    (h : checkRequest request = .ok (operationBytes, inputBytes)) :
    operationBytes ≠ [] ∧ inputBytes ≠ [] := by
  unfold checkRequest at h
  split at h
  · cases h
  split at h
  · cases h
  rename_i hoperation
  split at h
  · cases h
  split at h
  · cases h
  split at h
  · cases h
  rename_i hinput
  cases h
  exact ⟨hoperation, fun hempty => hinput (.inl hempty)⟩

/-- A call frees what it obtains, leaves the instance unusable if a free failed, and
returns a value only if everything that it asked for succeeded. -/
theorem call_after (parse : Bytes → Bytes → Except Cause α) (request : Request)
    (core : Instance σ) :
    Host.After (call abi parse request) core fun result events last =>
      Marked core events last ∧ Transfers obtains frees [] events [] ∧
        ∀ value, result = .ok value → Clean events := by
  have hrefused (thrown : Thrown) :
      Host.After (pure (.error thrown) : Host (Instance σ) Event (Except Thrown α)) core
        fun result events last =>
          Marked core events last ∧ Transfers obtains frees [] events [] ∧
            ∀ value, result = .ok value → Clean events :=
    Host.After.pure ⟨(quiet_nil _).marked, .nil (.refl _), nofun⟩
  refine Host.After.bind (Host.After.read (Q := fun _ events last => events = [] ∧ last = core)
    ⟨rfl, rfl⟩) ?_
  intro cause before same hsame
  obtain ⟨rfl, rfl⟩ := hsame
  cases cause with
  | some cause => exact hrefused _
  | none =>
    cases hrequest : checkRequest request with
    | error failure => exact hrefused _
    | ok pair =>
      obtain ⟨operationBytes, inputBytes⟩ := pair
      obtain ⟨hoperation, hinput⟩ := checkRequest_ok hrequest
      refine Host.After.bind (callOwned_after abi (parse operationBytes) hoperation hinput same) ?_
      intro returned events middle hreturned
      obtain ⟨ownedBuffers, result⟩ := returned
      obtain ⟨hmarked, hobtained, hbuffers, hclean⟩ := hreturned
      have hreversed : ∀ buffer ∈ ownedBuffers.reverse, IsBuffer buffer :=
        fun buffer hbuffer => hbuffers buffer (List.mem_reverse.mp hbuffer)
      refine Host.After.bind (releaseAll_after abi hreversed middle) ?_
      intro cleanupErrors freed last hfreed
      obtain ⟨hsame, hfree, hfreeClean⟩ := hfreed
      have hall : Transfers obtains frees [] (events ++ freed) [] :=
        hobtained.trans (hfree.perm_taken (List.reverse_perm ownedBuffers).symm)
      cases cleanupErrors with
      | nil =>
        refine Host.After.pure ?_
        rw [List.append_nil, List.nil_append]
        exact ⟨hmarked.append ((hfreeClean rfl).marked hsame), hall,
          fun value hvalue => (hclean value hvalue).append (hfreeClean rfl)⟩
      | cons first later =>
        refine Host.After.bind (Host.After.update (Q := fun _ events last =>
          events = [] ∧ last.unusableCause = some first) ⟨rfl, rfl⟩) ?_
        intro _ marked last hlast
        obtain ⟨rfl, hcause⟩ := hlast
        have hunusable : last.unusableCause.isSome = true := by
          rw [hcause]
          rfl
        cases result with
        | error primary =>
          refine Host.After.pure ?_
          simp only [List.append_nil, List.nil_append]
          exact ⟨marked_of_isSome hunusable, hall, nofun⟩
        | ok value =>
          refine Host.After.pure ?_
          simp only [List.append_nil, List.nil_append]
          exact ⟨marked_of_isSome hunusable, hall, nofun⟩

/-! ## Calls after a failed free -/

theorem callEach_marked (parse : Bytes → Bytes → Except Cause α) (requests : List Request)
    (core : Instance σ) :
    Host.After (callEach abi parse requests) core fun _ events last => Marked core events last := by
  induction requests generalizing core with
  | nil => exact Host.After.pure (quiet_nil _).marked
  | cons request requests ih =>
    refine Host.After.bind (call_after abi parse request core) ?_
    intro result before middle hbefore
    refine Host.After.bind (ih middle) ?_
    intro results after last hafter
    refine Host.After.pure ?_
    rw [List.append_nil]
    exact hbefore.1.append hafter

/-- An unusable instance asks its exports nothing. -/
theorem call_unusable (parse : Bytes → Bytes → Except Cause α) (request : Request)
    {core : Instance σ} {cause : Failure} (h : core.unusableCause = some cause) :
    call abi parse request core = (.error ⟨.unusable cause, []⟩, [], core) := by
  simp only [call, Bind.bind, Host.read, h]
  rfl

theorem callEach_unusable (parse : Bytes → Bytes → Except Cause α) (requests : List Request)
    {core : Instance σ} {cause : Failure} (h : core.unusableCause = some cause) :
    callEach abi parse requests core =
      (requests.map fun _ => .error ⟨.unusable cause, []⟩, [], core) := by
  induction requests with
  | nil => rfl
  | cons request requests ih =>
    simp only [callEach, Bind.bind, call_unusable abi parse request h, ih]
    rfl

/-- Once a free has failed every later call is refused. -/
theorem refused_after_failed_free (parse : Bytes → Bytes → Except Cause α)
    (earlier later : List Request) (core : Instance σ) {event : Event}
    (hevent : event ∈ (callEach abi parse earlier core).2.1) (hfailed : FailedFree event) :
    ∃ cause, callEach abi parse later (callEach abi parse earlier core).2.2 =
      (later.map fun _ => .error ⟨.unusable cause, []⟩, [],
        (callEach abi parse earlier core).2.2) := by
  have hmarked := callEach_marked abi parse earlier core
  obtain ⟨cause, hcause⟩ := Option.isSome_iff_exists.mp (hmarked.marks event hevent hfailed)
  exact ⟨cause, callEach_unusable abi parse later hcause⟩

end Calls

end Pomodorough.Abi.BrowserCalls
