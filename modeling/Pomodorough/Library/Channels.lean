import Mathlib.Data.List.Basic

/-! # Buffered channels

A channel buffers at most its capacity, and may be closed once: what it buffers
then can still be received. A send on a closed channel and a second close are
faults. Sends and receives here are the ones that do not wait. -/
namespace Pomodorough.Library.Channels

/-- What must not be done to a closed channel. -/
inductive Fault where
  | sendOnClosed
  | closeOfClosed
  deriving DecidableEq, Repr

/-- `buffer` is what was sent and not received yet, oldest first. -/
structure Channel (α : Type) where
  capacity : Nat
  buffer : List α
  closed : Bool
  bounded : buffer.length ≤ capacity

/-- What a receive finds; `empty` is an open channel with nothing in it. -/
inductive Received (α : Type) where
  | value (a : α)
  | closed
  | empty
  deriving DecidableEq, Repr

namespace Channel
variable {α : Type}

def make (α : Type) (capacity : Nat) : Channel α where
  capacity
  buffer := []
  closed := false
  bounded := Nat.zero_le _

/-- A send that gives up where it would wait, and says whether it was done. -/
def trySend (channel : Channel α) (a : α) : Except Fault Bool × Channel α :=
  if channel.closed then (.error .sendOnClosed, channel)
  else if h : channel.buffer.length < channel.capacity then
    (.ok true, { channel with
      buffer := channel.buffer ++ [a]
      bounded := by
        rw [List.length_append, List.length_singleton]
        exact h })
  else (.ok false, channel)

/-- A receive that gives up where it would wait. -/
def tryReceive (channel : Channel α) : Received α × Channel α :=
  match h : channel.buffer with
  | a :: rest =>
    (.value a, { channel with
      buffer := rest
      bounded := by have := channel.bounded; simp [h] at this; omega })
  | [] => if channel.closed then (.closed, channel) else (.empty, channel)

def close (channel : Channel α) : Except Fault Unit × Channel α :=
  if channel.closed then (.error .closeOfClosed, channel)
  else (.ok (), { channel with closed := true })

variable {channel : Channel α}

/-- A send on an open channel either is done or finds the channel full. -/
theorem trySend_open (a : α) (h : channel.closed = false) :
    channel.trySend a = (.ok true, (channel.trySend a).2) ∧
        (channel.trySend a).2.buffer = channel.buffer ++ [a] ∨
      channel.trySend a = (.ok false, channel) ∧ channel.buffer.length = channel.capacity := by
  have hbounded := channel.bounded
  unfold trySend
  rw [if_neg (by simp [h])]
  split
  · exact .inl ⟨rfl, rfl⟩
  · exact .inr ⟨rfl, by omega⟩

@[simp] theorem trySend_capacity (channel : Channel α) (a : α) : (channel.trySend a).2.capacity = channel.capacity := by
  unfold trySend
  split
  · rfl
  · split <;> rfl

@[simp] theorem trySend_closed (channel : Channel α) (a : α) : (channel.trySend a).2.closed = channel.closed := by
  unfold trySend
  split
  · rfl
  · split <;> rfl

/-- What a receive takes out is the oldest value. -/
theorem tryReceive_buffer (channel : Channel α) :
    (∃ a, channel.tryReceive.1 = .value a ∧ channel.buffer = a :: channel.tryReceive.2.buffer) ∨
      channel.tryReceive.2 = channel ∧ channel.buffer = [] := by
  unfold tryReceive
  split
  · rename_i a rest h
    exact .inl ⟨a, rfl, h⟩
  · rename_i h
    refine .inr ⟨?_, h⟩
    split <;> rfl

@[simp] theorem tryReceive_capacity (channel : Channel α) : channel.tryReceive.2.capacity = channel.capacity := by
  unfold tryReceive
  split
  · rfl
  · split <;> rfl

@[simp] theorem tryReceive_closed (channel : Channel α) : channel.tryReceive.2.closed = channel.closed := by
  unfold tryReceive
  split
  · rfl
  · split <;> rfl

theorem close_open (h : channel.closed = false) : channel.close.1 = .ok () := by
  unfold close
  rw [if_neg (by simp [h])]

end Channel

end Pomodorough.Library.Channels
