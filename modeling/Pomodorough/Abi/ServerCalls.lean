import Mathlib.Algebra.Ring.Nat
import Pomodorough.Library.OwnedResources

/-! # Calls of the shared core from the server

`CallBatch`, `callABI` and what they call, of `internal/sharedcore/core.go`. The runtime
and the module may answer every call as they like. -/
namespace Pomodorough.Abi.ServerCalls
open Pomodorough.Library.OwnedResources

abbrev Bytes := List UInt8

/-- An error of the runtime. -/
abbrev Cause := String

/-- What an exported function returns. -/
abbrev Answer := Except Cause (List UInt64)

inductive Failure where
  | emptyBatch
  | context (cause : Cause)
  | emptyCall
  | inputTooLarge
  | closed
  | instantiate (cause : Cause)
  | incompleteExports
  | allocate (cause : Cause)
  | allocatorValues (count : Nat)
  | nullPointer
  | outsideMemory
  | free (pointer length : UInt32) (cause : Cause)
  | rejectedFree (pointer length : UInt32) (values : List UInt64)
  | dispatch (operation : Bytes) (cause : Cause)
  | dispatchValues (count : Nat)
  | emptyResult
  | outputTooLarge
  | resultOutsideMemory
  | closeModule (cause : Cause)
  deriving DecidableEq

def maxOperationBytes : Nat := 256
def maxInputBytes : Nat := 16 * 1024 * 1024
def maxOutputBytes : UInt32 := 16 * 1024 * 1024

structure OwnedBuffer where
  pointer : UInt32
  length : UInt32
  deriving DecidableEq

/-- A call of a module, with its answer. -/
inductive Event where
  | allocate (length : UInt64) (answer : Answer)
  | write (pointer : UInt32) (value : Bytes) (ok : Bool)
  | dispatch (operationPointer operationLength inputPointer inputLength : UInt64)
      (answer : Answer)
  | read (pointer length : UInt32) (view : Option Bytes)
  | free (pointer length : UInt64) (answer : Answer)

structure AbiCalls (σ : Type) where
  allocate : UInt64 → σ → Answer × σ
  free : UInt64 → UInt64 → σ → Answer × σ
  dispatch : UInt64 → UInt64 → UInt64 → UInt64 → σ → Answer × σ
  read : UInt32 → UInt32 → σ → Option Bytes × σ
  write : UInt32 → Bytes → σ → Bool × σ

section Calls
variable {σ : Type} (abi : AbiCalls σ)

def freeBuffer (buffer : OwnedBuffer) : Host σ Event (Option Failure) := do
  let answer ← Host.call (abi.free buffer.pointer.toUInt64 buffer.length.toUInt64)
    (.free buffer.pointer.toUInt64 buffer.length.toUInt64)
  match answer with
  | .error cause => return some (.free buffer.pointer buffer.length cause)
  | .ok values =>
    if values = [1] then return none
    else return some (.rejectedFree buffer.pointer buffer.length values)

/-- Frees buffers in order, going on after one that fails. -/
def freeEach : List OwnedBuffer → Host σ Event (List Failure)
  | [] => return []
  | buffer :: buffers => do
    if buffer.pointer = 0 ∨ buffer.length = 0 then freeEach buffers
    else
      let failure ← freeBuffer abi buffer
      let failures ← freeEach buffers
      return failure.toList ++ failures

def freeOwnedBuffers (owned : List OwnedBuffer) : Host σ Event (List Failure) :=
  freeEach abi owned.reverse

def copyABIResult (buffer : OwnedBuffer) : Host σ Event (Except (List Failure) Bytes) := do
  if buffer.pointer = 0 ∨ buffer.length = 0 then return .error [.emptyResult]
  else if buffer.length > maxOutputBytes then return .error [.outputTooLarge]
  else
    match ← Host.call (abi.read buffer.pointer buffer.length)
      (.read buffer.pointer buffer.length) with
    | none => return .error [.resultOutsideMemory]
    | some view => return .ok view

def allocateAndWrite (value : Bytes) : Host σ Event (Except (List Failure) UInt32) := do
  let answer ← Host.call (abi.allocate (.ofNat value.length)) (.allocate (.ofNat value.length))
  match answer with
  | .error cause => return .error [.allocate cause]
  | .ok [first] =>
    let pointer := first.toUInt32
    if value.length > 0 ∧ pointer = 0 then return .error [.nullPointer]
    else if value.length > 0 then
      if ← Host.call (abi.write pointer value) (.write pointer value) then return .ok pointer
      else
        let failure ← freeBuffer abi ⟨pointer, .ofNat value.length⟩
        return .error (.outsideMemory :: failure.toList)
    else return .ok pointer
  | .ok values => return .error [.allocatorValues values.length]

/-- `callABI` before its deferred cleanup, with the buffers it owns as it returns. -/
def callOwned (operation input : Bytes) :
    Host σ Event (List OwnedBuffer × Except (List Failure) Bytes) := do
  match ← allocateAndWrite abi operation with
  | .error failures => return ([], .error failures)
  | .ok operationPointer =>
    let operationBuffer : OwnedBuffer := ⟨operationPointer, .ofNat operation.length⟩
    match ← allocateAndWrite abi input with
    | .error failures => return ([operationBuffer], .error failures)
    | .ok inputPointer =>
      let owned := [operationBuffer, ⟨inputPointer, .ofNat input.length⟩]
      let answer ← Host.call
        (abi.dispatch operationPointer.toUInt64 (.ofNat operation.length) inputPointer.toUInt64
          (.ofNat input.length))
        (.dispatch operationPointer.toUInt64 (.ofNat operation.length) inputPointer.toUInt64
          (.ofNat input.length))
      match answer with
      | .error cause => return (owned, .error [.dispatch operation cause])
      | .ok [first] =>
        let resultBuffer : OwnedBuffer := ⟨first.toUInt32, (first >>> 32).toUInt32⟩
        let owned := if resultBuffer.pointer ≠ 0 ∧ resultBuffer.length ≠ 0 then
          owned ++ [resultBuffer] else owned
        let result ← copyABIResult abi resultBuffer
        return (owned, result)
      | .ok values => return (owned, .error [.dispatchValues values.length])

/-- A result to which an error was joined. -/
def joinErrors {α : Type} (result : Except (List Failure) α) (failures : List Failure) :
    Except (List Failure) α :=
  match result, failures with
  | result, [] => result
  | .error earlier, failures => .error (earlier ++ failures)
  | .ok _, failures => .error failures

theorem joinErrors_ok {α : Type} {result : Except (List Failure) α} {failures : List Failure}
    {value : α} (h : joinErrors result failures = .ok value) :
    result = .ok value ∧ failures = [] := by
  cases failures with
  | nil => exact ⟨by simpa [joinErrors] using h, rfl⟩
  | cons failure failures => cases result <;> cases h

def callABI (operation input : Bytes) : Host σ Event (Except (List Failure) Bytes) := do
  let (owned, result) ← callOwned abi operation input
  let failures ← freeOwnedBuffers abi owned
  return joinErrors result failures

end Calls

/-! ## What a call obtains and frees -/

/-- A buffer of a module's memory. -/
structure Buffer where
  pointer : Nat
  length : Nat
  deriving DecidableEq

/-- A null pointer and an empty range are no buffers. -/
def bufferOf (pointer : UInt32) (length : Nat) : Option Buffer :=
  if pointer ≠ 0 ∧ length ≠ 0 then some ⟨pointer.toNat, length⟩ else none

/-- An allocation returns a buffer, and so does a dispatch, packed. -/
def obtains : Event → Option Buffer
  | .allocate length (.ok [first]) => bufferOf first.toUInt32 length.toNat
  | .dispatch _ _ _ _ (.ok [first]) => bufferOf first.toUInt32 (first >>> 32).toUInt32.toNat
  | _ => none

def frees : Event → Option Buffer
  | .free pointer length _ => some ⟨pointer.toNat, length.toNat⟩
  | _ => none

/-- Whether a call did what it was made for. -/
def Event.succeeded : Event → Bool
  | .allocate _ (.ok [first]) => first.toUInt32 ≠ 0
  | .write _ _ ok => ok
  | .dispatch _ _ _ _ (.ok [first]) => first.toUInt32 ≠ 0 ∧ (first >>> 32).toUInt32 ≠ 0
  | .read _ _ view => view.isSome
  | .free _ _ answer => answer.toOption = some [1]
  | _ => false

def Clean (events : List Event) : Prop := ∀ event ∈ events, event.succeeded = true

theorem Clean.append {before after : List Event} (h : Clean before) (h' : Clean after) :
    Clean (before ++ after) :=
  List.forall_mem_append.mpr ⟨h, h'⟩

theorem clean_nil : Clean [] := fun _ h => nomatch h

theorem clean_singleton {event : Event} (h : event.succeeded = true) : Clean [event] := by
  simpa [Clean] using h

/-- The buffers among those that are owned. -/
def live (owned : List OwnedBuffer) : List Buffer :=
  owned.filterMap fun buffer => bufferOf buffer.pointer buffer.length.toNat

/-! ## Cleanup -/

section Calls
variable {σ : Type} (abi : AbiCalls σ)

theorem freeBuffer_spec (buffer : OwnedBuffer) :
    Host.Spec (freeBuffer abi buffer) fun failure events =>
      Transfers obtains frees [⟨buffer.pointer.toNat, buffer.length.toNat⟩] events [] ∧
        (failure = none → Clean events) := by
  refine Host.Spec.bind (Q := fun answer events => events =
    [.free buffer.pointer.toUInt64 buffer.length.toUInt64 answer]) (Host.Spec.call fun _ => rfl) ?_
  intro answer before hbefore
  have htransfers : Transfers obtains frees [⟨buffer.pointer.toNat, buffer.length.toNat⟩] before
      [] := by
    rw [hbefore]
    exact Transfers.release rfl (by simp [frees])
  cases answer with
  | error cause =>
    refine Host.Spec.pure ⟨?_, nofun⟩
    simpa using htransfers
  | ok values =>
    simp only
    split
    · rename_i hvalues
      refine Host.Spec.pure ⟨by simpa using htransfers, fun _ => ?_⟩
      rw [List.append_nil, hbefore, hvalues]
      exact clean_singleton rfl
    · refine Host.Spec.pure ⟨by simpa using htransfers, nofun⟩

theorem freeEach_spec (owned : List OwnedBuffer) :
    Host.Spec (freeEach abi owned) fun failures events =>
      Transfers obtains frees (live owned) events [] ∧ (failures = [] → Clean events) := by
  induction owned with
  | nil => exact Host.Spec.pure ⟨.nil (.refl _), fun _ => clean_nil⟩
  | cons buffer buffers ih =>
    rw [freeEach]
    split
    · rename_i hempty
      have hlive : live (buffer :: buffers) = live buffers := by
        have hnone : bufferOf buffer.pointer buffer.length.toNat = none := by
          rcases hempty with hzero | hzero <;> simp [bufferOf, hzero]
        simp [live, hnone]
      rwa [hlive]
    · rename_i hbuffer
      push Not at hbuffer
      have hlive : live (buffer :: buffers) =
          [⟨buffer.pointer.toNat, buffer.length.toNat⟩] ++ live buffers := by
        have hsome : bufferOf buffer.pointer buffer.length.toNat =
            some ⟨buffer.pointer.toNat, buffer.length.toNat⟩ := by
          have hlength : buffer.length.toNat ≠ 0 := fun hzero =>
            hbuffer.2 (UInt32.toNat_inj.mp (by simpa using hzero))
          simp [bufferOf, hbuffer.1, hlength]
        simp [live, hsome]
      refine Host.Spec.bind (freeBuffer_spec abi buffer) fun failure before hbefore => ?_
      refine Host.Spec.bind ih fun failures after hafter => Host.Spec.pure ?_
      rw [List.append_nil]
      constructor
      · have hframe := (hbefore.1.frame (live buffers)).perm_left
          (by rw [List.append_nil])
        rw [hlive]
        exact (hframe.perm_taken List.perm_append_comm).trans hafter.1
      · intro hnone
        obtain ⟨hfailure, hfailures⟩ := List.append_eq_nil_iff.mp hnone
        exact (hbefore.2 (Option.toList_eq_nil_iff.mp hfailure)).append (hafter.2 hfailures)

theorem freeOwnedBuffers_spec (owned : List OwnedBuffer) :
    Host.Spec (freeOwnedBuffers abi owned) fun failures events =>
      Transfers obtains frees (live owned) events [] ∧ (failures = [] → Clean events) := by
  refine (freeEach_spec abi owned.reverse).mono fun failures events h => ⟨?_, h.2⟩
  refine h.1.perm_taken ?_
  rw [live, live, List.filterMap_reverse]
  exact (List.reverse_perm _).symm

/-! ## A call -/

theorem copyABIResult_spec (buffer : OwnedBuffer) :
    Host.Spec (copyABIResult abi buffer) fun result events =>
      Transfers obtains frees [] events [] ∧ (∀ bytes, result = .ok bytes → Clean events ∧
        buffer.pointer ≠ 0 ∧ buffer.length ≠ 0) := by
  unfold copyABIResult
  split
  · exact Host.Spec.pure ⟨.nil (.refl _), nofun⟩
  · rename_i hbuffer
    push Not at hbuffer
    split
    · exact Host.Spec.pure ⟨.nil (.refl _), nofun⟩
    · refine Host.Spec.bind (Q := fun view events => events =
        [.read buffer.pointer buffer.length view]) (Host.Spec.call fun _ => rfl) ?_
      intro view before hbefore
      have htransfers : Transfers obtains frees [] before [] := by
        rw [hbefore]
        exact Transfers.other rfl rfl
      cases view with
      | none => exact Host.Spec.pure ⟨by simpa using htransfers, nofun⟩
      | some view =>
        refine Host.Spec.pure ⟨by simpa using htransfers, fun _ _ => ⟨?_, hbuffer⟩⟩
        rw [List.append_nil, hbefore]
        exact clean_singleton rfl

/-- What `allocateAndWrite` returns is owned; what it fails with it has freed. -/
theorem allocateAndWrite_spec {value : Bytes} (hvalue : value ≠ [])
    (hsize : value.length < 2 ^ 32) :
    Host.Spec (allocateAndWrite abi value) fun result events =>
      match result with
      | .error _ => Transfers obtains frees [] events []
      | .ok pointer => Transfers obtains frees [] events (live [⟨pointer, .ofNat value.length⟩]) ∧
          Clean events := by
  have hpositive : 0 < value.length := List.length_pos_iff.mpr hvalue
  have hlength : (UInt64.ofNat value.length).toNat = value.length := by
    rw [UInt64.toNat_ofNat']
    omega
  have hlength' : (UInt32.ofNat value.length).toNat = value.length := by
    rw [UInt32.toNat_ofNat']
    omega
  refine Host.Spec.bind (Q := fun answer events => events =
    [.allocate (.ofNat value.length) answer]) (Host.Spec.call fun _ => rfl) ?_
  intro answer before hbefore
  have hrefused (failures : List Failure) (hnone : obtains (.allocate (.ofNat value.length) answer) =
      none) : Host.Spec (pure (.error failures) : Host σ Event (Except (List Failure) UInt32))
      fun result after => match result with
        | .error _ => Transfers obtains frees [] (before ++ after) []
        | .ok pointer =>
          Transfers obtains frees [] (before ++ after) (live [⟨pointer, .ofNat value.length⟩]) ∧
            Clean (before ++ after) := by
    refine Host.Spec.pure ?_
    simp only [List.append_nil, hbefore]
    exact Transfers.other hnone rfl
  match answer with
  | .error cause => exact hrefused _ rfl
  | .ok [] => exact hrefused _ rfl
  | .ok (_ :: _ :: _) => exact hrefused _ rfl
  | .ok [first] =>
    simp only [gt_iff_lt, hpositive, true_and, if_true]
    split
    · rename_i hnull
      exact hrefused _ (by simp [obtains, bufferOf, hnull])
    · rename_i hpointer
      have hbuffer : obtains (.allocate (.ofNat value.length) (.ok [first])) =
          some ⟨first.toUInt32.toNat, value.length⟩ := by
        simp [obtains, bufferOf, hpointer, hlength, hvalue]
      have hobtained : Transfers obtains frees [] before [⟨first.toUInt32.toNat, value.length⟩] := by
        rw [hbefore]
        exact Transfers.obtain hbuffer rfl
      refine Host.Spec.bind (Q := fun ok events => events = [.write first.toUInt32 value ok])
        (Host.Spec.call fun _ => rfl) ?_
      intro ok written hwritten
      have hother : Transfers obtains frees [] written [] := by
        rw [hwritten]
        exact Transfers.other rfl rfl
      have hkept := hobtained.trans (hother.keep _)
      cases ok with
      | true =>
        simp only [if_true]
        refine Host.Spec.pure ?_
        simp only [List.append_nil]
        constructor
        · simpa [live, bufferOf, hpointer, hlength', hvalue] using hkept
        · rw [hbefore, hwritten]
          exact (clean_singleton (by simp [Event.succeeded, hpointer])).append (clean_singleton rfl)
      | false =>
        simp only [Bool.false_eq_true, if_false]
        refine Host.Spec.bind (freeBuffer_spec abi _) fun failure freed hfreed => Host.Spec.pure ?_
        rw [hlength'] at hfreed
        simp only [List.append_nil] at hkept ⊢
        have htransfers := hkept.trans hfreed.1
        rwa [List.append_assoc] at htransfers

theorem dispatch_obtains (operation operationLength input inputLength first : UInt64) :
    (obtains (.dispatch operation operationLength input inputLength (.ok [first]))).toList =
      live (if first.toUInt32 ≠ 0 ∧ (first >>> 32).toUInt32 ≠ 0 then
        [⟨first.toUInt32, (first >>> 32).toUInt32⟩] else []) := by
  have hlength : (first >>> 32).toUInt32 ≠ 0 ↔ (first >>> 32).toUInt32.toNat ≠ 0 := by
    rw [not_iff_not]
    exact UInt32.toNat_inj.symm
  simp only [obtains]
  split
  · rename_i hboth
    rw [bufferOf, if_pos ⟨hboth.1, hlength.mp hboth.2⟩, live, List.filterMap_cons_some, List.filterMap_nil,
      Option.toList_some]
    rw [bufferOf, if_pos ⟨hboth.1, hlength.mp hboth.2⟩]
  · rename_i hneither
    rw [bufferOf, if_neg (by rwa [← hlength]), live, List.filterMap_nil, Option.toList_none]

theorem callOwned_spec {operation input : Bytes} (hoperation : operation ≠ [])
    (hsize : operation.length < 2 ^ 32) (hinput : input ≠ []) (hsize' : input.length < 2 ^ 32) :
    Host.Spec (callOwned abi operation input) fun returned events =>
      Transfers obtains frees [] events (live returned.1) ∧
        ∀ bytes, returned.2 = .ok bytes → Clean events := by
  refine Host.Spec.bind (allocateAndWrite_spec abi hoperation hsize) fun first before hbefore => ?_
  cases first with
  | error failures =>
    refine Host.Spec.pure ⟨?_, nofun⟩
    rw [List.append_nil]
    exact hbefore
  | ok operationPointer =>
    refine Host.Spec.bind (allocateAndWrite_spec abi hinput hsize') fun second later hlater => ?_
    cases second with
    | error failures =>
      refine Host.Spec.pure ⟨?_, nofun⟩
      rw [List.append_nil]
      exact hbefore.1.trans (hlater.keep _)
    | ok inputPointer =>
      have hboth : Transfers obtains frees [] (before ++ later)
          (live [⟨operationPointer, .ofNat operation.length⟩, ⟨inputPointer, .ofNat input.length⟩]) := by
        refine hbefore.1.trans ?_
        have hbeside := hlater.1.beside (live [⟨operationPointer, .ofNat operation.length⟩])
        rw [live, live, ← List.filterMap_append] at hbeside
        exact hbeside
      refine Host.Spec.bind (Q := fun answer events => events = [.dispatch operationPointer.toUInt64
        (.ofNat operation.length) inputPointer.toUInt64 (.ofNat input.length) answer])
        (Host.Spec.call fun _ => rfl) ?_
      intro answer dispatched hdispatched
      have hrefused (hnone : ∀ first, answer ≠ .ok [first]) :
          Transfers obtains frees [] (before ++ (later ++ (dispatched ++ [])))
            (live [⟨operationPointer, .ofNat operation.length⟩,
              ⟨inputPointer, .ofNat input.length⟩]) := by
        have hother : Transfers obtains frees [] dispatched [] := by
          rw [hdispatched]
          refine Transfers.other ?_ rfl
          unfold obtains
          split
          · rename_i heq
            cases heq
          · rename_i heq
            cases heq
            exact absurd rfl (hnone _)
          · rfl
        have hkept := hboth.trans (hother.keep _)
        rwa [List.append_assoc, ← List.append_nil dispatched] at hkept
      match answer with
      | .error cause => exact Host.Spec.pure ⟨hrefused nofun, nofun⟩
      | .ok [] => exact Host.Spec.pure ⟨hrefused nofun, nofun⟩
      | .ok (_ :: _ :: _) => exact Host.Spec.pure ⟨hrefused nofun, nofun⟩
      | .ok [packed] =>
        refine Host.Spec.bind (copyABIResult_spec abi _) fun result copied hcopied =>
          Host.Spec.pure ?_
        have hevent : Transfers obtains frees [] dispatched
            (live (if packed.toUInt32 ≠ 0 ∧ (packed >>> 32).toUInt32 ≠ 0 then
              [⟨packed.toUInt32, (packed >>> 32).toUInt32⟩] else [])) := by
          rw [hdispatched, ← dispatch_obtains operationPointer.toUInt64 (.ofNat operation.length)
            inputPointer.toUInt64 (.ofNat input.length)]
          exact Transfers.event rfl
        have hall := (hboth.trans (hevent.beside _)).trans (hcopied.1.keep _)
        simp only [List.append_assoc, List.append_nil] at hall ⊢
        constructor
        · refine hall.perm_left ?_
          rw [live, live, ← List.filterMap_append, live]
          split
          · exact .refl _
          · rw [List.append_nil]
        · intro bytes hbytes
          obtain ⟨hread, hpointer, hlength⟩ := hcopied.2 bytes hbytes
          refine hbefore.2.append (hlater.2.append (Clean.append ?_ hread))
          rw [hdispatched]
          exact clean_singleton (by simp [Event.succeeded, hpointer, hlength])

theorem callABI_spec {operation input : Bytes} (hoperation : operation ≠ [])
    (hsize : operation.length < 2 ^ 32) (hinput : input ≠ []) (hsize' : input.length < 2 ^ 32) :
    Host.Spec (callABI abi operation input) fun result events =>
      Transfers obtains frees [] events [] ∧ ∀ bytes, result = .ok bytes → Clean events := by
  refine Host.Spec.bind (callOwned_spec abi hoperation hsize hinput hsize') ?_
  intro returned before hbefore
  obtain ⟨owned, result⟩ := returned
  refine Host.Spec.bind (freeOwnedBuffers_spec abi owned) fun failures freed hfreed =>
    Host.Spec.pure ?_
  rw [List.append_nil]
  refine ⟨hbefore.1.trans hfreed.1, fun bytes hbytes => ?_⟩
  obtain ⟨hresult, hfailures⟩ := joinErrors_ok hbytes
  exact (hbefore.2 bytes hresult).append (hfreed.2 hfailures)

end Calls

/-! ## A batch -/

structure Call where
  operation : Bytes
  input : Bytes

/-- What a batch asks of the runtime, with the answer. -/
inductive BatchEvent (Module : Type) where
  | instantiate (answer : Except Cause Module)
  | called (module : Module) (event : Event)
  | close (module : Module) (failure : Option Cause)

structure Runtime (σ Module : Type) where
  instantiate : σ → Except Cause Module × σ
  exports : Module → Option (AbiCalls σ)
  close : Module → σ → Option Cause × σ

def checkCall (call : Call) : Option Failure :=
  if call.operation = [] ∨ call.input = [] then some .emptyCall
  else if call.operation.length > maxOperationBytes ∨ call.input.length > maxInputBytes then
    some .inputTooLarge
  else none

section Batch
variable {σ Module : Type} (runtime : Runtime σ Module)

def callModule (module : Module) (operation input : Bytes) :
    Host σ Event (Except (List Failure) Bytes) :=
  match runtime.exports module with
  | none => return .error [.incompleteExports]
  | some abi => callABI abi operation input

def callEach (module : Module) : List Call → Host σ Event (Except (List Failure) (List Bytes))
  | [] => return .ok []
  | call :: calls => do
    match ← callModule runtime module call.operation call.input with
    | .error failures => return .error failures
    | .ok result =>
      let results ← callEach module calls
      return results.map (result :: ·)

/-- `CallBatch`, with what its context says at first and while it waits for a slot, and
whether the runtime is closed. The module is closed as the function returns. -/
def CallBatch (context waiting : Option Cause) (closed : Bool) (calls : List Call) :
    Host σ (BatchEvent Module) (Except (List Failure) (List Bytes)) := do
  if calls.isEmpty then return .error [.emptyBatch]
  else if let some cause := context then return .error [.context cause]
  else if let some failure := calls.findSome? checkCall then return .error [failure]
  else if let some cause := waiting then return .error [.context cause]
  else if closed then return .error [.closed]
  else
    match ← Host.call runtime.instantiate .instantiate with
    | .error cause => return .error [.instantiate cause]
    | .ok module =>
      let results ← Host.tag (.called module) (callEach runtime module calls)
      let failure ← Host.call (runtime.close module) (.close module)
      return joinErrors results (failure.map .closeModule).toList

end Batch

section Batch
variable {σ Module : Type}

def batchObtains : BatchEvent Module → Option (Module × Buffer)
  | .called module event => (obtains event).map (module, ·)
  | _ => none

def batchFrees : BatchEvent Module → Option (Module × Buffer)
  | .called module event => (frees event).map (module, ·)
  | _ => none

def BatchEvent.succeeded : BatchEvent Module → Bool
  | .instantiate answer => answer.isOk
  | .called _ event => event.succeeded
  | .close _ failure => failure.isNone

/-- The life of the module of a batch: nothing is asked of any other module, and whatever
its calls did it is closed after them. -/
inductive Lifecycle : List (BatchEvent Module) → Prop where
  | refused : Lifecycle []
  | failed (cause : Cause) : Lifecycle [.instantiate (.error cause)]
  | closed (module : Module) (events : List Event) (failure : Option Cause) :
      Lifecycle (.instantiate (.ok module) :: (events.map (.called module) ++
        [.close module failure]))

variable (runtime : Runtime σ Module)

theorem callModule_spec (module : Module) {operation input : Bytes} (hoperation : operation ≠ [])
    (hsize : operation.length < 2 ^ 32) (hinput : input ≠ []) (hsize' : input.length < 2 ^ 32) :
    Host.Spec (callModule runtime module operation input) fun result events =>
      Transfers obtains frees [] events [] ∧ ∀ bytes, result = .ok bytes → Clean events := by
  unfold callModule
  cases runtime.exports module with
  | none => exact Host.Spec.pure ⟨.nil (.refl _), nofun⟩
  | some abi => exact callABI_spec abi hoperation hsize hinput hsize'

/-- Calls that the checks let through fit into the ABI. -/
theorem checkCall_none {call : Call} (h : checkCall call = none) :
    call.operation ≠ [] ∧ call.operation.length < 2 ^ 32 ∧ call.input ≠ [] ∧
      call.input.length < 2 ^ 32 := by
  unfold checkCall at h
  split at h
  · cases h
  · rename_i hempty
    push Not at hempty
    split at h
    · cases h
    · rename_i hlarge
      push Not at hlarge
      simp only [maxOperationBytes, maxInputBytes] at hlarge
      exact ⟨hempty.1, by omega, hempty.2, by omega⟩

theorem callEach_spec (module : Module) {calls : List Call}
    (h : ∀ call ∈ calls, checkCall call = none) :
    Host.Spec (callEach runtime module calls) fun result events =>
      Transfers obtains frees [] events [] ∧
        ∀ results, result = .ok results → results.length = calls.length ∧ Clean events := by
  induction calls with
  | nil =>
    refine Host.Spec.pure ⟨.nil (.refl _), fun results hresults => ?_⟩
    cases hresults
    exact ⟨rfl, clean_nil⟩
  | cons call calls ih =>
    obtain ⟨hcall, hcalls⟩ := List.forall_mem_cons.mp h
    obtain ⟨hoperation, hsize, hinput, hsize'⟩ := checkCall_none hcall
    refine Host.Spec.bind (callModule_spec runtime module hoperation hsize hinput hsize') ?_
    intro result before hbefore
    cases result with
    | error failures =>
      refine Host.Spec.pure ⟨?_, nofun⟩
      rw [List.append_nil]
      exact hbefore.1
    | ok bytes =>
      refine Host.Spec.bind (ih hcalls) fun results after hafter => Host.Spec.pure ?_
      rw [List.append_nil]
      refine ⟨hbefore.1.trans hafter.1, fun all hall => ?_⟩
      cases results with
      | error failures => cases hall
      | ok results =>
        cases hall
        obtain ⟨hlength, hclean⟩ := hafter.2 results rfl
        exact ⟨by rw [List.length_cons, List.length_cons, hlength],
          (hbefore.2 bytes rfl).append hclean⟩

/-- A batch asks only one module, fresh from the runtime, and closes it; it frees what it
obtains; and it returns results only if everything that it asked for succeeded. -/
theorem CallBatch_spec (context waiting : Option Cause) (closed : Bool) (calls : List Call) :
    Host.Spec (CallBatch runtime context waiting closed calls) fun result events =>
      Lifecycle events ∧ Transfers batchObtains batchFrees [] events [] ∧
        ∀ results, result = .ok results →
          results.length = calls.length ∧ ∀ event ∈ events, event.succeeded = true := by
  have hrefused (failures : List Failure) :
      Host.Spec (pure (.error failures) :
          Host σ (BatchEvent Module) (Except (List Failure) (List Bytes))) fun result events =>
        Lifecycle events ∧ Transfers batchObtains batchFrees [] events [] ∧
          ∀ results, result = .ok results → results.length = calls.length ∧
            ∀ event ∈ events, event.succeeded = true :=
    Host.Spec.pure ⟨.refused, .nil (.refl _), nofun⟩
  unfold CallBatch
  split
  · exact hrefused _
  split
  · exact hrefused _
  split
  · exact hrefused _
  rename_i hchecked
  split
  · exact hrefused _
  split
  · exact hrefused _
  have hpassed : ∀ call ∈ calls, checkCall call = none :=
    List.findSome?_eq_none_iff.mp (Option.eq_none_iff_forall_ne_some.mpr hchecked)
  refine Host.Spec.bind (Q := fun answer events => events = [.instantiate answer])
    (Host.Spec.call fun _ => rfl) ?_
  intro answer before hbefore
  cases answer with
  | error cause =>
    refine Host.Spec.pure ⟨?_, ?_, nofun⟩
    · rw [hbefore]
      exact .failed cause
    · rw [hbefore]
      exact Transfers.other rfl rfl
  | ok module =>
    refine Host.Spec.bind (Host.Spec.tag (R := fun result events => ∃ inner,
      events = inner.map (.called module) ∧ Transfers obtains frees [] inner [] ∧
        ∀ results, result = .ok results → results.length = calls.length ∧ Clean inner)
      ((callEach_spec runtime module hpassed).mono fun _ inner h => ⟨inner, rfl, h⟩)) ?_
    intro result called hcalled
    obtain ⟨inner, rfl, hinner, hclean⟩ := hcalled
    refine Host.Spec.bind (Q := fun failure events => events = [.close module failure])
      (Host.Spec.call fun _ => rfl) ?_
    intro failure closed hclosed
    refine Host.Spec.pure ?_
    rw [List.append_nil, hbefore, hclosed]
    refine ⟨.closed module inner failure, ?_, fun results hresults => ?_⟩
    · have hcalls : Transfers batchObtains batchFrees [] (inner.map (.called module)) [] :=
        Transfers.map hinner (fun _ => rfl) (fun _ => rfl)
      have hfirst : Transfers batchObtains batchFrees []
          [BatchEvent.instantiate (.ok module)] [] := Transfers.other rfl rfl
      have hlast : Transfers batchObtains batchFrees [] [BatchEvent.close module failure] [] :=
        Transfers.other rfl rfl
      exact hfirst.trans (hcalls.trans hlast)
    · obtain ⟨hresult, hfailure⟩ := joinErrors_ok hresults
      obtain ⟨hlength, hinner⟩ := hclean results hresult
      refine ⟨hlength, fun event hevent => ?_⟩
      simp only [List.cons_append, List.nil_append, List.mem_cons, List.mem_append, List.mem_map,
        List.not_mem_nil, or_false] at hevent
      obtain rfl | ⟨called, hmem, rfl⟩ | rfl := hevent
      · rfl
      · exact hinner called hmem
      · cases failure with
        | none => rfl
        | some cause => cases hfailure

end Batch

end Pomodorough.Abi.ServerCalls
