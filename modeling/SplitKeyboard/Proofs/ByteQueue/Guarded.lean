import SplitKeyboard.Proofs.ByteQueue
import SplitKeyboard.Proofs.Table.Layout

/-!
The byte queue with a guard before each step that is not defined everywhere: an index must lie in its
buffer, a difference must not be negative, a divisor must not be zero, and a loop must be over when
its rounds are used up. Within the bounds of the ring no guard ever holds anything up, and each
operation comes out as it does without them.
-/
namespace SplitKeyboard

section Guards

variable {n m offset size : Nat} {buffer piece : List UInt8}

def remainder? (n m : Nat) : Option Nat := if m = 0 then none else some (n % m)

def difference? (n m : Nat) : Option Nat := if m ≤ n then some (n - m) else none

/-- A buffer with one byte put in place. -/
def putByte? (buffer : List UInt8) (place : Nat) (byte : UInt8) : Option (List UInt8) :=
  if place < buffer.length then some (buffer.set place byte) else none

/-- The bytes of a buffer from `offset` on, as many as `size`. -/
def piece? (buffer : List UInt8) (offset size : Nat) : Option (List UInt8) :=
  if offset + size ≤ buffer.length then some ((buffer.drop offset).take size) else none

/-- A buffer with a piece laid over it from `offset` on. -/
def putPiece? (buffer : List UInt8) (offset : Nat) (piece : List UInt8) : Option (List UInt8) :=
  if offset + piece.length ≤ buffer.length then some (splice buffer offset piece) else none

theorem remainder?_of_pos (pos : 0 < m) : remainder? n m = some (n % m) :=
  if_neg (Nat.ne_of_gt pos)

theorem difference?_of_le (below : m ≤ n) : difference? n m = some (n - m) := if_pos below

theorem putByte?_of_lt {place : Nat} {byte : UInt8} (within : place < buffer.length) :
    putByte? buffer place byte = some (buffer.set place byte) := if_pos within

theorem piece?_of_le (within : offset + size ≤ buffer.length) :
    piece? buffer offset size = some ((buffer.drop offset).take size) := if_pos within

theorem putPiece?_of_le (within : offset + piece.length ≤ buffer.length) :
    putPiece? buffer offset piece = some (splice buffer offset piece) := if_pos within

/-- Two pieces laid one behind the other are one piece. -/
theorem splice_splice_append {memory first last : List UInt8}
    (within : offset + first.length ≤ memory.length) :
    splice (splice memory offset first) (offset + first.length) last =
      splice memory offset (first ++ last) := by
  apply List.ext_getElem?
  intro i
  simp only [getElem?_splice, length_splice, List.length_append, List.getElem?_append]
  by_cases later : offset + first.length ≤ i
  · have far : ¬ i - offset < first.length := by omega
    have place : i - (offset + first.length) = i - offset - first.length := by omega
    rw [if_neg far, place]
    grind
  · grind

theorem splice_nil (memory : List UInt8) (offset : Nat) : splice memory offset [] = memory := by
  rw [splice, overlay_nil, List.take_append_drop]

theorem splice_zero (memory bytes : List UInt8) : splice memory 0 bytes = overlay bytes memory := by
  rw [splice, List.take_zero, List.drop_zero, List.nil_append]

end Guards

namespace ByteQueue

/-- The bounds of the representation. A ring without room has no first place to speak of. -/
structure InBounds (q : ByteQueue) : Prop where
  count_le : q.count ≤ q.capacity
  start_lt : 0 < q.capacity → q.start < q.capacity

def push? (q : ByteQueue) (byte : UInt8) : Option (Bool × ByteQueue) :=
  if q.count = q.capacity then some (q.push byte)
  else do
    let place ← remainder? (q.start + q.count) q.capacity
    let buffer ← putByte? q.buffer place byte
    some (true, { q with buffer, count := q.count + 1 })

def advance? (q : ByteQueue) (n : Nat) : Option ByteQueue := do
  let start ← remainder? (q.start + n) q.capacity
  let count ← difference? q.count n
  some { q with start, count }

def pop? (q : ByteQueue) : Option (Option UInt8 × ByteQueue) :=
  if q.count = 0 then some (none, q)
  else do
    let byte ← q.buffer[q.start]?
    let after ← q.advance? 1
    some (some byte, after)

def contiguous? (q : ByteQueue) : Option Nat :=
  (difference? q.capacity q.start).map (min q.count)

/-- Moves queued bytes into a buffer behind the `copied` ones, a contiguous piece a round, until the
buffer is full or the queue is empty. -/
def readInto? : (rounds : Nat) → ByteQueue → (copied : Nat) → (buffer : List UInt8) →
    Option (Nat × List UInt8 × ByteQueue)
  | rounds, q, copied, buffer =>
    if copied < buffer.length ∧ 0 < q.count then
      match rounds with
      | 0 => none
      | rounds + 1 => do
        let front ← q.contiguous?
        let room ← difference? buffer.length copied
        let piece ← piece? q.buffer q.start (min front room)
        let filled ← putPiece? buffer copied piece
        let after ← q.advance? (min front room)
        readInto? rounds after (copied + min front room) filled
    else some (copied, buffer, q)

/-- Drops `n` queued bytes, a contiguous piece a round. -/
def dropRounds? : (rounds : Nat) → ByteQueue → (n : Nat) → Option ByteQueue
  | rounds, q, n =>
    if 0 < n then
      match rounds with
      | 0 => none
      | rounds + 1 => do
        let front ← q.contiguous?
        let after ← q.advance? (min front n)
        let rest ← difference? n (min front n)
        dropRounds? rounds after rest
    else some q

def skip? (rounds : Nat) (q : ByteQueue) (n : Nat) : Option (Nat × ByteQueue) :=
  (dropRounds? rounds q (min n q.count)).map (min n q.count, ·)

variable {q : ByteQueue} {n copied : Nat} {buffer : List UInt8}

theorem InBounds.valid (bounds : q.InBounds) (room : 0 < q.capacity) : q.Valid :=
  ⟨bounds.start_lt room, bounds.count_le⟩

theorem Valid.inBounds (valid : q.Valid) : q.InBounds := ⟨valid.count_le, fun _ => valid.start_lt⟩

theorem InBounds.room (bounds : q.InBounds) (some_queued : 0 < q.count) : 0 < q.capacity :=
  Nat.lt_of_lt_of_le some_queued bounds.count_le

theorem push?_eq (bounds : q.InBounds) (byte : UInt8) : q.push? byte = some (q.push byte) := by
  by_cases full : q.count = q.capacity
  · exact if_pos full
  · have count_le := bounds.count_le
    have room : 0 < q.capacity := by omega
    have place : (q.start + q.count) % q.capacity < q.buffer.length := Nat.mod_lt _ room
    rw [push?, if_neg full, remainder?_of_pos room, Option.bind_eq_bind, Option.bind_some,
      putByte?_of_lt place, push, if_neg full]
    rfl

theorem advance?_eq (room : 0 < q.capacity) (queued : n ≤ q.count) :
    q.advance? n = some (q.advance n) := by
  rw [advance?, remainder?_of_pos room, difference?_of_le queued]
  rfl

theorem pop?_eq (bounds : q.InBounds) : q.pop? = some q.pop := by
  by_cases none_queued : q.count = 0
  · rw [pop?, pop, if_pos none_queued, if_pos none_queued]
  · have some_queued := Nat.pos_of_ne_zero none_queued
    have valid := bounds.valid (bounds.room some_queued)
    have place : q.start < q.buffer.length := valid.start_lt
    rw [pop?, pop, if_neg none_queued, if_neg none_queued, List.getElem?_eq_getElem place,
      advance?_eq (bounds.room some_queued) some_queued]
    rfl

theorem contiguous?_eq (valid : q.Valid) : q.contiguous? = some q.contiguous := by
  rw [contiguous?, difference?_of_le (Nat.le_of_lt valid.start_lt)]
  rfl

theorem contiguous_le_buffer (valid : q.Valid) : q.start + q.contiguous ≤ q.buffer.length := by
  have start_lt := valid.start_lt
  unfold capacity at start_lt
  unfold contiguous capacity
  omega

/-- One round of a read, none of whose guards fails. -/
theorem readInto?_round (valid : q.Valid) (some_queued : 0 < q.count)
    (some_room : copied < buffer.length) (rounds : Nat) :
    let chunk := min q.contiguous (buffer.length - copied)
    readInto? (rounds + 1) q copied buffer =
      readInto? rounds (q.advance chunk) (copied + chunk)
        (splice buffer copied ((q.buffer.drop q.start).take chunk)) := by
  intro chunk
  have below : chunk ≤ q.contiguous := Nat.min_le_left _ _
  have fits : chunk ≤ buffer.length - copied := Nat.min_le_right _ _
  have in_ring := contiguous_le_buffer valid
  have length : ((q.buffer.drop q.start).take chunk).length = chunk :=
    length_window (by omega)
  have queued : chunk ≤ q.count := Nat.le_trans below q.contiguous_le
  rw [readInto?, if_pos ⟨some_room, some_queued⟩]
  simp only [contiguous?_eq valid, difference?_of_le (Nat.le_of_lt some_room),
    Option.bind_eq_bind, Option.bind_some]
  rw [piece?_of_le (show q.start + chunk ≤ _ by omega), Option.bind_some,
    putPiece?_of_le (by rw [length]; omega), Option.bind_some,
    advance?_eq (Nat.lt_of_le_of_lt (Nat.zero_le _) valid.start_lt) queued, Option.bind_some]

/-- Once its rounds have filled the buffer or emptied the queue, the loop of a read is over, and gives
what the rounds give without guards. -/
theorem readInto?_of_ended {bytes : List UInt8} {after : ByteQueue} (valid : q.Valid) (rounds : Nat)
    (within : copied ≤ buffer.length)
    (ran : readRounds rounds q (buffer.length - copied) = (bytes, after))
    (ended : bytes.length = buffer.length - copied ∨ after.count = 0) :
    readInto? rounds q copied buffer =
      some (copied + bytes.length, splice buffer copied bytes, after) := by
  induction rounds generalizing q copied buffer bytes with
  | zero =>
    obtain ⟨rfl, rfl⟩ := Prod.mk.inj ran
    rw [List.length_nil] at ended
    rw [readInto?, if_neg (by omega), splice_nil]
    rfl
  | succ rounds ih =>
    rw [readRounds] at ran
    by_cases nothing : buffer.length - copied = 0 ∨ q.count = 0
    · rw [if_pos nothing] at ran
      obtain ⟨rfl, rfl⟩ := Prod.mk.inj ran
      rw [readInto?, if_neg (by omega), splice_nil]
      rfl
    · rw [if_neg nothing] at ran
      simp only at ran
      have some_room : copied < buffer.length := by omega
      have some_queued : 0 < q.count := by omega
      rw [readInto?_round valid some_queued some_room]
      generalize chunk_eq : min q.contiguous (buffer.length - copied) = chunk at ran ⊢
      have in_ring := contiguous_le_buffer valid
      have length : ((q.buffer.drop q.start).take chunk).length = chunk :=
        length_window (by omega)
      generalize (q.buffer.drop q.start).take chunk = piece at ran length ⊢
      have room : (splice buffer copied piece).length - (copied + chunk) =
          buffer.length - copied - chunk := by
        rw [length_splice]
        omega
      obtain ⟨rfl, rfl⟩ := Prod.mk.inj ran
      rw [List.length_append] at ended ⊢
      rw [ih (valid.advance chunk) (by rw [length_splice]; omega) (by rw [room]) (by omega),
        ← length, splice_splice_append (by omega), Nat.add_assoc]

/-- A read is over after two rounds. It moves as many bytes as there are, or as fit, to the front of
the buffer. -/
theorem readInto?_eq (bounds : q.InBounds) (buffer : List UInt8) :
    readInto? 2 q 0 buffer = some ((q.read buffer.length).1.length,
      overlay (q.read buffer.length).1 buffer, (q.read buffer.length).2) := by
  by_cases none_queued : q.count = 0
  · rw [readInto?, if_neg (by omega), read, readRounds, if_pos (.inr none_queued), overlay_nil]
    rfl
  · have valid := bounds.valid (bounds.room (Nat.pos_of_ne_zero none_queued))
    obtain ⟨taken, left⟩ := read_eq valid buffer.length
    have ended : (q.read buffer.length).1.length = buffer.length ∨
        (q.read buffer.length).2.count = 0 := by
      have after := length_toList (readRounds_keeps valid 2 buffer.length).1
      have counted : (q.read buffer.length).2.toList.length = (q.read buffer.length).2.count := after
      rw [left, List.length_drop] at counted
      rw [taken, List.length_take]
      omega
    have result := readInto?_of_ended valid 2 (Nat.zero_le _) rfl ended
    rw [Nat.zero_add, splice_zero] at result
    exact result

/-- One round of a drop, none of whose guards fails. -/
theorem dropRounds?_round (valid : q.Valid) (some_left : 0 < n) (rounds : Nat) :
    dropRounds? (rounds + 1) q n =
      dropRounds? rounds (q.advance (min q.contiguous n)) (n - min q.contiguous n) := by
  have queued : min q.contiguous n ≤ q.count :=
    Nat.le_trans (Nat.min_le_left _ _) q.contiguous_le
  rw [dropRounds?, if_pos some_left]
  simp only [contiguous?_eq valid, Option.bind_eq_bind, Option.bind_some]
  rw [advance?_eq (Nat.lt_of_le_of_lt (Nat.zero_le _) valid.start_lt) queued, Option.bind_some,
    difference?_of_le (Nat.min_le_right _ _), Option.bind_some]

theorem dropRounds?_one (valid : q.Valid) (within : n ≤ q.contiguous) :
    dropRounds? 1 q n = some (skipRounds 1 q n) := by
  by_cases nothing : n = 0
  · rw [dropRounds?, if_neg (by omega), skipRounds, if_pos nothing]
  · rw [dropRounds?_round valid (Nat.pos_of_ne_zero nothing), skipRounds, if_neg nothing,
      Nat.min_eq_right within, Nat.sub_self]
    rfl

/-- A skip is over after two rounds. -/
theorem skip?_eq (bounds : q.InBounds) (n : Nat) : skip? 2 q n = some (q.skip n) := by
  have queued : min n q.count ≤ q.count := Nat.min_le_right _ _
  suffices dropped : dropRounds? 2 q (min n q.count) = some (skipRounds 2 q (min n q.count)) by
    rw [skip?, dropped]
    rfl
  generalize min n q.count = left at queued ⊢
  by_cases nothing : left = 0
  · rw [dropRounds?, if_neg (by omega), skipRounds, if_pos nothing]
  · have some_left := Nat.pos_of_ne_zero nothing
    have valid := bounds.valid (bounds.room (Nat.lt_of_lt_of_le some_left queued))
    have rest := contiguous_advance valid left
    have below := q.contiguous_le
    simp only [count_advance] at rest
    rw [dropRounds?_round valid some_left, skipRounds, if_neg nothing]
    exact dropRounds?_one (valid.advance _) (by omega)

end ByteQueue
end SplitKeyboard
