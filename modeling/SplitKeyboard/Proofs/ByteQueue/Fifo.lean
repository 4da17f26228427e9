import SplitKeyboard.Proofs.ByteQueue.Guarded

/-!
A byte queue is a bounded list. Whatever is called, in whatever order, a ring replies and looks from
outside as a list of at most so many bytes does, and it never leaves its bounds: no guard before an
index, a difference or a remainder fails, and no loop takes a third round.
-/
namespace SplitKeyboard

namespace ByteQueue

/-- What a caller can ask of a queue. A read is given the buffer that it fills. -/
inductive Call where
  | push (byte : UInt8)
  | pop
  | read (buffer : List UInt8)
  | skip (n : Nat)
  | reset
  deriving DecidableEq

inductive Reply where
  | taken (whether : Bool)
  | byte (oldest : Option UInt8)
  | filled (count : Nat) (buffer : List UInt8)
  | dropped (count : Nat)
  | nothing
  deriving DecidableEq

/-- What can be seen of a queue between calls. -/
structure View where
  length : Nat
  isEmpty : Bool
  overruns : Nat
  deriving DecidableEq

section Runs

variable {σ : Type}

/-- The replies to calls made one after the other, each with what is seen right after it, and the
state in which they leave the queue. -/
def play (act : Call → σ → Reply × σ) (view : σ → View) : List Call → σ → List (Reply × View) × σ
  | [], s => ([], s)
  | call :: calls, s =>
    let (reply, after) := act call s
    let (rest, last) := play act view calls after
    ((reply, view after) :: rest, last)

end Runs

def act (call : Call) (q : ByteQueue) : Reply × ByteQueue :=
  match call with
  | .push byte =>
    let (taken, after) := q.push byte
    (.taken taken, after)
  | .pop =>
    let (oldest, after) := q.pop
    (.byte oldest, after)
  | .read buffer =>
    let (bytes, after) := q.read buffer.length
    (.filled bytes.length (overlay bytes buffer), after)
  | .skip n =>
    let (dropped, after) := q.skip n
    (.dropped dropped, after)
  | .reset => (.nothing, q.reset)

/-- The same with guards. The loops of a read and of a skip have two rounds. -/
def act? (call : Call) (q : ByteQueue) : Option (Reply × ByteQueue) :=
  match call with
  | .push byte => (q.push? byte).map fun (taken, after) => (.taken taken, after)
  | .pop => q.pop?.map fun (oldest, after) => (.byte oldest, after)
  | .read buffer =>
    (readInto? 2 q 0 buffer).map fun (count, buffer, after) => (.filled count buffer, after)
  | .skip n => (skip? 2 q n).map fun (dropped, after) => (.dropped dropped, after)
  | .reset => some (.nothing, q.reset)

def view (q : ByteQueue) : View := ⟨q.count, q.isEmpty, q.overruns.toNat⟩

end ByteQueue

open ByteQueue (Call Reply View)

/-- A list of at most `capacity` bytes, oldest first, and the number of bytes that found no room. The
number stops at the largest word. -/
structure Fifo where
  capacity : Nat
  bytes : List UInt8
  overruns : Nat
  deriving DecidableEq

namespace Fifo

def empty (capacity : Nat) : Fifo := ⟨capacity, [], 0⟩

def act (call : Call) (fifo : Fifo) : Reply × Fifo :=
  match call with
  | .push byte =>
    if fifo.bytes.length < fifo.capacity then
      (.taken true, { fifo with bytes := fifo.bytes ++ [byte] })
    else (.taken false, { fifo with overruns := min (fifo.overruns + 1) (UInt32.size - 1) })
  | .pop => (.byte fifo.bytes.head?, { fifo with bytes := fifo.bytes.tail })
  | .read buffer =>
    let count := min buffer.length fifo.bytes.length
    (.filled count (fifo.bytes.take count ++ buffer.drop count),
      { fifo with bytes := fifo.bytes.drop count })
  | .skip n =>
    let count := min n fifo.bytes.length
    (.dropped count, { fifo with bytes := fifo.bytes.drop count })
  | .reset => (.nothing, { fifo with bytes := [] })

def view (fifo : Fifo) : View := ⟨fifo.bytes.length, fifo.bytes.isEmpty, fifo.overruns⟩

end Fifo

namespace ByteQueue

/-- The ring holds what the list holds, within its bounds. -/
structure Holds (q : ByteQueue) (fifo : Fifo) : Prop where
  bounds : q.InBounds
  bytes : q.toList = fifo.bytes
  capacity : q.capacity = fifo.capacity
  overruns : q.overruns.toNat = fifo.overruns

variable {q : ByteQueue} {fifo : Fifo}

theorem toList_of_count_eq_zero (none_queued : q.count = 0) : q.toList = [] := by
  rw [toList, none_queued, List.take_zero]

theorem InBounds.length_toList (bounds : q.InBounds) : q.toList.length = q.count := by
  by_cases none_queued : q.count = 0
  · rw [toList_of_count_eq_zero none_queued, none_queued, List.length_nil]
  · have room := bounds.room (Nat.pos_of_ne_zero none_queued)
    exact ByteQueue.length_toList (bounds.valid room)

theorem holds_empty (capacity : Nat) : (empty capacity).Holds (.empty capacity) := by
  have same : (empty capacity).capacity = capacity := List.length_replicate
  constructor
  · constructor
    · exact Nat.zero_le _
    · exact id
  · exact toList_empty capacity
  · exact same
  · rfl

theorem Holds.length (holds : q.Holds fifo) : fifo.bytes.length = q.count := by
  rw [← holds.bytes]
  exact holds.bounds.length_toList

theorem Holds.view_eq (holds : q.Holds fifo) : q.view = fifo.view := by
  have length := holds.length
  have empty : q.isEmpty = fifo.bytes.isEmpty := by
    rw [Bool.eq_iff_iff, isEmpty, beq_iff_eq, List.isEmpty_iff, ← length, List.length_eq_zero_iff]
  rw [view, Fifo.view, length, empty, holds.overruns]

/-- What took bytes from the front of a ring, and nothing else. -/
structure Drops (q after : ByteQueue) (n : Nat) : Prop where
  bounds : after.InBounds
  left : after.toList = q.toList.drop n
  capacity : after.capacity = q.capacity
  overruns : after.overruns = q.overruns

theorem InBounds.drops_nothing (bounds : q.InBounds) (none_queued : q.count = 0) (n : Nat) :
    q.Drops q n := by
  have nothing := toList_of_count_eq_zero none_queued
  exact ⟨bounds, by rw [nothing, List.drop_nil], rfl, rfl⟩

theorem InBounds.pop (bounds : q.InBounds) :
    q.pop.1 = q.toList.head? ∧ q.Drops q.pop.2 1 := by
  by_cases none_queued : q.count = 0
  · rw [ByteQueue.pop, if_pos none_queued, toList_of_count_eq_zero none_queued]
    exact ⟨rfl, bounds.drops_nothing none_queued 1⟩
  · have some_queued := Nat.pos_of_ne_zero none_queued
    have valid := bounds.valid (bounds.room some_queued)
    have oldest := getElem?_toList valid 0
    rw [if_pos some_queued, Nat.add_zero, Nat.mod_eq_of_lt valid.start_lt] at oldest
    rw [ByteQueue.pop, if_neg none_queued, List.head?_eq_getElem?, oldest]
    refine ⟨rfl, ?_⟩
    exact ⟨(valid.advance 1).inBounds, toList_advance valid 1, rfl, rfl⟩

theorem InBounds.read (bounds : q.InBounds) (n : Nat) :
    (q.read n).1 = q.toList.take n ∧ q.Drops (q.read n).2 n := by
  by_cases none_queued : q.count = 0
  · rw [ByteQueue.read, readRounds, if_pos (.inr none_queued), toList_of_count_eq_zero none_queued,
      List.take_nil]
    exact ⟨rfl, bounds.drops_nothing none_queued n⟩
  · have valid := bounds.valid (bounds.room (Nat.pos_of_ne_zero none_queued))
    obtain ⟨taken, left⟩ := read_eq valid n
    obtain ⟨kept, capacity, overruns⟩ := readRounds_keeps valid 2 n
    exact ⟨taken, kept.inBounds, left, capacity, overruns⟩

theorem InBounds.skip (bounds : q.InBounds) (n : Nat) :
    (q.skip n).1 = min n q.toList.length ∧ q.Drops (q.skip n).2 n := by
  rw [bounds.length_toList]
  refine ⟨rfl, ?_⟩
  by_cases none_queued : q.count = 0
  · rw [ByteQueue.skip, none_queued, Nat.min_zero, skipRounds, if_pos rfl]
    exact bounds.drops_nothing none_queued n
  · have valid := bounds.valid (bounds.room (Nat.pos_of_ne_zero none_queued))
    obtain ⟨kept, capacity, overruns⟩ := skipRounds_keeps valid 2 (min n q.count)
    exact ⟨kept.inBounds, (skip_eq valid n).2, capacity, overruns⟩

theorem Holds.drop {after : ByteQueue} {n : Nat} (holds : q.Holds fifo) (drops : q.Drops after n) :
    after.Holds { fifo with bytes := fifo.bytes.drop n } := by
  constructor
  · exact drops.bounds
  · rw [drops.left, holds.bytes]
  · exact drops.capacity.trans holds.capacity
  · rw [drops.overruns]
    exact holds.overruns

theorem Holds.reset (holds : q.Holds fifo) : q.reset.Holds { fifo with bytes := [] } := by
  constructor
  · exact ⟨Nat.zero_le _, id⟩
  · exact toList_reset q
  · exact holds.capacity
  · exact holds.overruns

theorem toNat_succ_saturating (n : UInt32) :
    (if n = 0xFFFFFFFF then n else n + 1).toNat = min (n.toNat + 1) (UInt32.size - 1) := by
  have small := n.toNat_lt
  by_cases most : n = 0xFFFFFFFF
  · rw [if_pos most, most]
    rfl
  · have below : n.toNat ≠ 0xFFFFFFFF := fun same => most (UInt32.toNat_inj.mp same)
    have size : UInt32.size = 0xFFFFFFFF + 1 := rfl
    rw [if_neg most, UInt32.toNat_add, UInt32.toNat_one, Nat.mod_eq_of_lt (by omega)]
    omega

theorem Holds.push (holds : q.Holds fifo) (byte : UInt8) :
    (act (.push byte) q).1 = (Fifo.act (.push byte) fifo).1 ∧
      (act (.push byte) q).2.Holds (Fifo.act (.push byte) fifo).2 := by
  have length := holds.length
  have count_le := holds.bounds.count_le
  have capacity := holds.capacity
  by_cases full : q.count = q.capacity
  · have refused : ¬ fifo.bytes.length < fifo.capacity := by omega
    simp only [act, Fifo.act, ByteQueue.push, if_pos full, if_neg refused, true_and]
    constructor
    · exact ⟨holds.bounds.count_le, holds.bounds.start_lt⟩
    · exact holds.bytes
    · exact holds.capacity
    · rw [← holds.overruns]
      exact toNat_succ_saturating q.overruns
  · have taken : fifo.bytes.length < fifo.capacity := by omega
    have valid := holds.bounds.valid (by omega)
    have one : [byte].take (q.capacity - q.count) = [byte] :=
      List.take_of_length_le (by rw [List.length_singleton]; omega)
    have bytes := toList_push valid byte
    have kept : (q.push byte).1 = true ∧ (q.push byte).2.overruns = q.overruns := by
      rw [ByteQueue.push, if_neg full]
      exact ⟨rfl, rfl⟩
    simp only [act, Fifo.act, if_pos taken, kept.1, true_and]
    constructor
    · exact (valid.push byte).inBounds
    · rw [bytes, one, holds.bytes]
    · rw [capacity_push, capacity]
    · rw [kept.2, holds.overruns]

/-- Every call is answered as by the list, and leaves the ring with what the list is left with. -/
theorem Holds.act (holds : q.Holds fifo) (call : Call) :
    (ByteQueue.act call q).1 = (Fifo.act call fifo).1 ∧
      (ByteQueue.act call q).2.Holds (Fifo.act call fifo).2 := by
  cases call with
  | push byte => exact holds.push byte
  | pop =>
    obtain ⟨oldest, drops⟩ := holds.bounds.pop
    refine ⟨?_, ?_⟩
    · rw [holds.bytes] at oldest
      exact congrArg Reply.byte oldest
    · have left := holds.drop drops
      rwa [List.drop_one] at left
  | read buffer =>
    obtain ⟨taken, drops⟩ := holds.bounds.read buffer.length
    rw [holds.bytes] at taken
    have count : (q.read buffer.length).1.length = min buffer.length fifo.bytes.length := by
      rw [taken, List.length_take]
    refine ⟨?_, ?_⟩
    · simp only [ByteQueue.act, Fifo.act, overlay, count]
      rw [taken, List.take_take, Nat.min_self, ← List.take_eq_take_min]
    · have left := holds.drop drops
      rwa [List.drop_eq_drop_min] at left
  | skip n =>
    obtain ⟨dropped, drops⟩ := holds.bounds.skip n
    rw [holds.bytes] at dropped
    refine ⟨congrArg Reply.dropped dropped, ?_⟩
    have left := holds.drop drops
    rwa [List.drop_eq_drop_min] at left
  | reset => exact ⟨rfl, holds.reset⟩

theorem Holds.play (holds : q.Holds fifo) (calls : List Call) :
    (play ByteQueue.act ByteQueue.view calls q).1 = (play Fifo.act Fifo.view calls fifo).1 ∧
      (play ByteQueue.act ByteQueue.view calls q).2.Holds
        (play Fifo.act Fifo.view calls fifo).2 := by
  induction calls generalizing q fifo with
  | nil => exact ⟨rfl, holds⟩
  | cons call calls ih =>
    obtain ⟨reply, after⟩ := holds.act call
    obtain ⟨rest, last⟩ := ih after
    simp only [ByteQueue.play]
    rw [reply, after.view_eq, rest]
    exact ⟨rfl, last⟩

/-- Within the bounds of a ring no guard changes anything. -/
theorem InBounds.act?_eq (bounds : q.InBounds) (call : Call) :
    act? call q = some (ByteQueue.act call q) := by
  cases call with
  | push byte => rw [act?, push?_eq bounds]; rfl
  | pop => rw [act?, pop?_eq bounds]; rfl
  | read buffer => rw [act?, readInto?_eq bounds]; rfl
  | skip n => rw [act?, skip?_eq bounds]; rfl
  | reset => rfl

theorem capacity_play (calls : List Call) (fifo : Fifo) :
    (play Fifo.act Fifo.view calls fifo).2.capacity = fifo.capacity := by
  induction calls generalizing fifo with
  | nil => rfl
  | cons call calls ih =>
    apply (ih _).trans
    cases call with
    | push byte =>
      dsimp only
      split <;> rfl
    | pop | read | skip | reset => rfl

/-- Whatever is called from the start, a ring replies and looks as a list of at most `capacity` bytes
does. It stays within its bounds, and the next call, whichever it is, meets no guard that fails. -/
theorem play_fifo (capacity : Nat) (calls : List Call) :
    let ring := play act view calls (empty capacity)
    let list := play Fifo.act Fifo.view calls (.empty capacity)
    ring.1 = list.1 ∧ ring.2.toList = list.2.bytes ∧ list.2.bytes.length ≤ capacity ∧
      ring.2.buffer.length = capacity ∧ ring.2.count ≤ capacity ∧
      (0 < capacity → ring.2.start < capacity) ∧
      ∀ call, act? call ring.2 = some (act call ring.2) := by
  intro ring list
  obtain ⟨replies, holds⟩ := (holds_empty capacity).play calls
  have size : ring.2.capacity = capacity := holds.capacity.trans (capacity_play calls _)
  have count_le : ring.2.count ≤ capacity := by
    rw [← size]
    exact holds.bounds.count_le
  refine ⟨replies, holds.bytes, ?_, size, count_le, ?_, holds.bounds.act?_eq⟩
  · rw [holds.length]
    exact count_le
  · intro room
    rw [← size] at room ⊢
    exact holds.bounds.start_lt room

/-- Two bytes of three find room, and the others wrap around the end once the first is gone. -/
example : (play act view [.push 1, .push 2, .push 3, .pop, .push 4, .read [0, 0, 0]] (empty 2)).1 =
    [(.taken true, ⟨1, false, 0⟩), (.taken true, ⟨2, false, 0⟩), (.taken false, ⟨2, false, 1⟩),
      (.byte (some 1), ⟨1, false, 1⟩), (.taken true, ⟨2, false, 1⟩),
      (.filled 2 [2, 4, 0], ⟨0, true, 1⟩)] := by
  decide

end ByteQueue
end SplitKeyboard
