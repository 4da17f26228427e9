/-!
A ring of received bytes: a receiver fills it from one end and the link drains it from the other.
Dropping bytes moves the start of the ring and copies nothing. `toList` is what the queue holds,
oldest byte first, and everything that a caller can see is a fact about that list.
-/
namespace SplitKeyboard

structure ByteQueue where
  buffer : List UInt8
  start : Nat
  count : Nat
  /-- Bytes refused because the ring was full; the count stops at its highest value. -/
  overruns : UInt32
  deriving DecidableEq

namespace ByteQueue

def empty (capacity : Nat) : ByteQueue := ⟨List.replicate capacity 0, 0, 0, 0⟩

def capacity (q : ByteQueue) : Nat := q.buffer.length

def isEmpty (q : ByteQueue) : Bool := q.count == 0

/-- The queued bytes, oldest first: the ring unrolled from its start. -/
def toList (q : ByteQueue) : List UInt8 :=
  (q.buffer.drop q.start ++ q.buffer.take q.start).take q.count

/-- Queues one byte, or refuses it when the ring is full. It is always the newest byte that is
lost. -/
def push (q : ByteQueue) (byte : UInt8) : Bool × ByteQueue :=
  if q.count = q.capacity then
    (false, { q with overruns := if q.overruns = 0xFFFFFFFF then q.overruns else q.overruns + 1 })
  else
    (true, { q with
      buffer := q.buffer.set ((q.start + q.count) % q.capacity) byte
      count := q.count + 1 })

/-- Queues bytes in order, each on its own, and tells which were taken: the ring refuses those
that find it full. -/
def pushEach (q : ByteQueue) : List UInt8 → List Bool × ByteQueue
  | [] => ([], q)
  | byte :: rest =>
    let (taken, q) := q.push byte
    let (others, q) := q.pushEach rest
    (taken :: others, q)

def advance (q : ByteQueue) (n : Nat) : ByteQueue :=
  { q with start := (q.start + n) % q.capacity, count := q.count - n }

def pop (q : ByteQueue) : Option UInt8 × ByteQueue :=
  if q.count = 0 then (none, q) else (q.buffer[q.start]?, q.advance 1)

/-- How many queued bytes lie before the end of the buffer. -/
def contiguous (q : ByteQueue) : Nat := min q.count (q.capacity - q.start)

/-- Takes up to `n` bytes in at most `rounds` contiguous pieces. -/
def readRounds : Nat → ByteQueue → Nat → List UInt8 × ByteQueue
  | 0, q, _ => ([], q)
  | rounds + 1, q, n =>
    if n = 0 ∨ q.count = 0 then ([], q)
    else
      let chunk := min q.contiguous n
      let (rest, after) := readRounds rounds (q.advance chunk) (n - chunk)
      ((q.buffer.drop q.start).take chunk ++ rest, after)

/-- Takes up to `n` bytes. Two pieces are enough, because a ring wraps at most once. -/
def read (q : ByteQueue) (n : Nat) : List UInt8 × ByteQueue := readRounds 2 q n

/-- Drops `n` queued bytes in at most `rounds` contiguous pieces. -/
def skipRounds : Nat → ByteQueue → Nat → ByteQueue
  | 0, q, _ => q
  | rounds + 1, q, n =>
    if n = 0 then q
    else
      let chunk := min q.contiguous n
      skipRounds rounds (q.advance chunk) (n - chunk)

def skip (q : ByteQueue) (n : Nat) : Nat × ByteQueue :=
  let dropped := min n q.count
  (dropped, skipRounds 2 q dropped)

/-- Drops everything. Bytes lost earlier stay counted. -/
def reset (q : ByteQueue) : ByteQueue := { q with start := 0, count := 0 }

end ByteQueue
end SplitKeyboard
