import Pomodorough.Abi.ServerCalls
import Pomodorough.Abi.BrowserCalls

/-! # Buffers of the shared core

Both hosts of the shared core own the buffers that its module hands out. Whatever the
module does, they free each of them once, and a result means that nothing failed. -/
namespace Pomodorough.Abi.BufferDiscipline
open Pomodorough.Library.OwnedResources

/-- A batch of the server opens one module, frees each buffer of it once and closes it; a
call of the browser frees each buffer once, and a failed free is its instance's last use. -/
theorem buffer_discipline (σ Module α : Type) :
    (∀ (runtime : ServerCalls.Runtime σ Module) (context waiting : Option ServerCalls.Cause)
      (closed : Bool) (calls : List ServerCalls.Call) (state : σ),
      let run := ServerCalls.CallBatch runtime context waiting closed calls state
      ServerCalls.Lifecycle run.2.1 ∧
        ReleasedOnce ServerCalls.batchObtains ServerCalls.batchFrees run.2.1 ∧
        ∀ results, run.1 = .ok results →
          results.length = calls.length ∧ ∀ event ∈ run.2.1, event.succeeded = true) ∧
    (∀ (abi : ServerCalls.AbiCalls σ) (operation input : ServerCalls.Bytes) (state : σ),
      operation ≠ [] → operation.length < 2 ^ 32 → input ≠ [] → input.length < 2 ^ 32 →
      let run := ServerCalls.callABI abi operation input state
      ReleasedOnce ServerCalls.obtains ServerCalls.frees run.2.1 ∧
        ∀ bytes, run.1 = .ok bytes → ∀ event ∈ run.2.1, event.succeeded = true) ∧
    (∀ (exports : BrowserCalls.Exports σ)
      (parse : BrowserCalls.Bytes → BrowserCalls.Bytes → Except BrowserCalls.Cause α)
      (request : BrowserCalls.Request) (core : BrowserCalls.Instance σ),
      let run := BrowserCalls.call exports parse request core
      ReleasedOnce BrowserCalls.obtains BrowserCalls.frees run.2.1 ∧
        ∀ value, run.1 = .ok value → ∀ event ∈ run.2.1, event.succeeded = true) ∧
    ∀ (exports : BrowserCalls.Exports σ)
      (parse : BrowserCalls.Bytes → BrowserCalls.Bytes → Except BrowserCalls.Cause α)
      (earlier later : List BrowserCalls.Request) (core : BrowserCalls.Instance σ),
      let run := BrowserCalls.callEach exports parse earlier core
      (∃ event ∈ run.2.1, BrowserCalls.FailedFree event) →
        ∃ cause, BrowserCalls.callEach exports parse later run.2.2 =
          (later.map fun _ => .error ⟨.unusable cause, []⟩, [], run.2.2) := by
  refine ⟨?_, ?_, ?_, ?_⟩
  · intro runtime context waiting closed calls state
    obtain ⟨hlifecycle, htransfers, hclean⟩ :=
      ServerCalls.CallBatch_spec runtime context waiting closed calls state
    exact ⟨hlifecycle, htransfers.releasedOnce, hclean⟩
  · intro abi operation input state hoperation hsize hinput hsize'
    obtain ⟨htransfers, hclean⟩ :=
      ServerCalls.callABI_spec abi hoperation hsize hinput hsize' state
    exact ⟨htransfers.releasedOnce, hclean⟩
  · intro exports parse request core
    obtain ⟨-, htransfers, hclean⟩ := BrowserCalls.call_after exports parse request core
    exact ⟨htransfers.releasedOnce, hclean⟩
  · intro exports parse earlier later core run hfailed
    obtain ⟨event, hevent, hfailed⟩ := hfailed
    exact BrowserCalls.refused_after_failed_free exports parse earlier later core hevent hfailed

/-- Exports that hand out the next free address and write `{}` as their result. -/
def workingCalls : ServerCalls.AbiCalls UInt64 where
  allocate length next := (.ok [next], next + length)
  free _ _ next := (.ok [1], next)
  dispatch _ _ _ _ next := (.ok [next + 0x200000000], next + 2)
  read _ _ next := (some [0x7b, 0x7d], next)
  write _ _ next := (true, next)

/-- Exports whose free is refused. -/
def leakingExports : BrowserCalls.Exports Int where
  alloc length next := (.ok (.number next), next + length)
  free _ _ next := (.ok (.number 0), next)
  dispatch _ _ _ _ next := (.ok (.bigint (next + 2 * 2 ^ 32)), next + 2)
  byteLength _ := .number 65536
  write _ _ next := (.ok (), next)
  read _ _ next := (.ok [0x7b, 0x7d], next)

theorem buffer_discipline_applied :
    (∀ event ∈ (ServerCalls.callABI workingCalls [0x61] [0x7b, 0x7d] 8).2.1,
      event.succeeded = true) ∧
    ∃ cause, (BrowserCalls.callEach leakingExports (fun _ bytes => .ok bytes)
      [⟨some [0x61], some [0x7b, 0x7d]⟩]
      (BrowserCalls.callEach leakingExports (fun _ bytes => .ok bytes)
        [⟨some [0x61], some [0x7b, 0x7d]⟩] ⟨8, none⟩).2.2).1 =
          [.error ⟨.unusable cause, []⟩] := by
  obtain ⟨-, hserver, -, -⟩ := buffer_discipline UInt64 Unit Unit
  obtain ⟨-, -, -, hbrowser⟩ := buffer_discipline Int Unit BrowserCalls.Bytes
  constructor
  · exact (hserver workingCalls [0x61] [0x7b, 0x7d] 8 (by decide) (by decide) (by decide)
      (by decide)).2 [0x7b, 0x7d] rfl
  · obtain ⟨cause, hcause⟩ := hbrowser leakingExports (fun _ bytes => .ok bytes)
      [⟨some [0x61], some [0x7b, 0x7d]⟩] [⟨some [0x61], some [0x7b, 0x7d]⟩] ⟨8, none⟩
      ⟨.free (.number 11) 2 (.ok (.number 0)), List.mem_of_getElem? (i := 6) rfl, rfl, rfl⟩
    exact ⟨cause, congrArg Prod.fst hcause⟩

end Pomodorough.Abi.BufferDiscipline
