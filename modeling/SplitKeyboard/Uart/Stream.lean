import SplitKeyboard.Serial

/-!
A serial device over a byte stream. The stream moves bytes when it can and otherwise lets its
caller wait; a device call makes as many stream calls as it needs, all under one deadline that is
fixed when it begins. Deadlines are counted on the uptime, which does not wrap.
-/
namespace SplitKeyboard.Uart

inductive StreamRequest where
  | uptime
  /-- Hands over a non-empty run of bytes, waiting for room until the deadline. -/
  | write (data : List UInt8) (deadline : Nat)
  /-- Takes at least one and at most `count` bytes, waiting for the first until the deadline. -/
  | read (count : Nat) (deadline : Nat)
  /-- Reads and forgets as long as the stream says that it has something to read. -/
  | drain

/-- How a stream write ends. A stream that takes bytes takes at least one. -/
inductive StreamWrite where
  | accepted (count : Nat) (positive : 0 < count)
  | fault
  | timedOut

/-- How a stream read ends. No bytes at all mean the end of the input. -/
inductive StreamRead where
  | bytes (bytes : List UInt8)
  | fault
  | timedOut

abbrev StreamRequest.Reply : StreamRequest → Type
  | .uptime => Nat
  | .write _ _ => StreamWrite
  | .read _ _ => StreamRead
  | .drain => Unit

abbrev StreamProgram (α : Type) := Program StreamRequest StreamRequest.Reply α

/-- Writes what is left of some data. The count is of everything accepted before the deadline. -/
def writeRest (deadline : Nat) (written : Nat) (data : List UInt8) : StreamProgram (Option Nat) :=
  if _more : data = [] then .done (some written)
  else
    .ask (.write data deadline) fun
      | .accepted count _ => writeRest deadline (written + count) (data.drop count)
      | .fault => .done none
      | .timedOut => .done (some written)
termination_by data.length
decreasing_by
  have := List.length_pos_iff.mpr _more
  simp only [List.length_drop]
  omega

/-- Takes bytes until `left` more have come, no more than `piece` of them at a time. It ends early
at the deadline or at the end of the input, and a fault leaves the bytes that came before it. -/
def gather (deadline piece : Nat) (taken : List UInt8) (left : Nat) : StreamProgram Delivery :=
  if _more : left = 0 then .done ⟨taken, some taken.length⟩
  else
    .ask (.read (min left piece) deadline) fun
      | .bytes [] => .done ⟨taken, some taken.length⟩
      | .bytes (first :: rest) =>
        gather deadline piece (taken ++ first :: rest) (left - (rest.length + 1))
      | .fault => .done ⟨taken, none⟩
      | .timedOut => .done ⟨taken, some taken.length⟩
termination_by left

def drainChunk : Nat := 16

def serve : (request : SerialRequest) → StreamProgram request.Reply
  | .write data timeout =>
    .ask .uptime fun now => writeRest (now + timeout.toNat) 0 data
  | .read count timeout =>
    .ask .uptime fun now => gather (now + timeout.toNat) count [] count
  | .skip count timeout =>
    .ask .uptime fun now =>
      (gather (now + timeout.toNat) drainChunk [] count).bind fun delivery => .done delivery.count
  | .clear => .ask .drain .done

end SplitKeyboard.Uart
