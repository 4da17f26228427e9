import SplitKeyboard.ByteQueue
import SplitKeyboard.LinkConfig
import SplitKeyboard.Serial

/-!
Two devices joined by a wire. Each end has a bounded queue of received bytes. What one end writes
goes to the other, and on a half-duplex wire also back to itself. A byte that finds a queue full is
lost for that queue and counted there.
-/
namespace SplitKeyboard.Bench

/-- How many bytes each end of a wire can hold. -/
def wireCapacity : Nat := 256

inductive WireEnd where
  | near
  | far
  deriving DecidableEq

def WireEnd.other : WireEnd → WireEnd
  | near => far
  | far => near

@[simp] theorem WireEnd.other_other (side : WireEnd) : side.other.other = side := by
  cases side <;> rfl

theorem WireEnd.other_ne (side : WireEnd) : side.other ≠ side := by
  cases side <;> decide

theorem WireEnd.eq_other {side there : WireEnd} (apart : there ≠ side) : there = side.other := by
  cases there <;> cases side <;> first | rfl | exact absurd rfl apart

structure Wire where
  duplex : Duplex
  near : ByteQueue
  far : ByteQueue

namespace Wire

def new (duplex : Duplex) : Wire := ⟨duplex, .empty wireCapacity, .empty wireCapacity⟩

def queue (wire : Wire) : WireEnd → ByteQueue
  | .near => wire.near
  | .far => wire.far

def setQueue (wire : Wire) (side : WireEnd) (queue : ByteQueue) : Wire :=
  match side with
  | .near => { wire with near := queue }
  | .far => { wire with far := queue }

def writeByte (wire : Wire) (side : WireEnd) (byte : UInt8) : Wire :=
  let wire := wire.setQueue side.other ((wire.queue side.other).push byte).2
  match wire.duplex with
  | .full => wire
  | .half => wire.setQueue side ((wire.queue side).push byte).2

/-- A write is always taken whole; bytes are only lost where they arrive. -/
def write (wire : Wire) (side : WireEnd) (data : List UInt8) : Wire :=
  data.foldl (fun wire byte => wire.writeByte side byte) wire

/-- One look at the queue of an end: takes up to `count` bytes that are there now. -/
def read (wire : Wire) (side : WireEnd) (count : Nat) : List UInt8 × Wire :=
  let (bytes, queue) := (wire.queue side).read count
  (bytes, wire.setQueue side queue)

def skip (wire : Wire) (side : WireEnd) (count : Nat) : Nat × Wire :=
  let (dropped, queue) := (wire.queue side).skip count
  (dropped, wire.setQueue side queue)

def clear (wire : Wire) (side : WireEnd) : Wire :=
  wire.setQueue side (wire.queue side).reset

/-- How an end answers when nobody else moves meanwhile: what is missing does not come, so every
wait for it runs out. -/
def answer (side : WireEnd) : SerialAnswer Wire := fun request wire =>
  match request with
  | .write data _ => (some data.length, wire.write side data)
  | .read count _ =>
    let (bytes, wire) := wire.read side count
    (⟨bytes, some bytes.length⟩, wire)
  | .skip count _ =>
    let (dropped, wire) := wire.skip side count
    (some dropped, wire)
  | .clear => ((), wire.clear side)

end Wire
end SplitKeyboard.Bench
