import SplitKeyboard.Initiator
import SplitKeyboard.Payload.Decode
import SplitKeyboard.Payload.Encode

/-!
Transactions as calls: data in, reply out. What is sent is the given data and zeros behind it, so
nothing of an earlier request goes out again.
-/
namespace SplitKeyboard

variable {Handler : Type}

/-- A full buffer is reported as too small by one byte, because how much was missing is not known.
Anything else is a failure of the encoding. -/
def EncodeError.toTransactionError (capacity : Nat) : EncodeError → TransactionError
  | bufferFull => .payloadTooLarge (capacity + 1) capacity
  | unknownLength => .encoding

def encodePayload (schema : Schema) (value : schema.Value) (buffer : List UInt8) :
    Except TransactionError Nat × List UInt8 :=
  let (result, after) := schema.encodeInto value buffer
  (result.mapError (·.toTransactionError buffer.length), after)

def decodePayload (schema : Schema) (bytes : List UInt8) : Except TransactionError schema.Value :=
  match schema.decode bytes with
  | some (value, _) => .ok value
  | none => .error .encoding

namespace Initiator

def zeroPadded (data : List UInt8) (size : Nat) : List UInt8 :=
  data ++ List.replicate (size - data.length) 0

/-- Sends `data` as the request of `id`. Data that does not fit is refused before anything
happens; an ID without an entry is left for the transaction itself to report. -/
def sendData (initiator : Initiator Handler) (now : Millis) (id : TransactionId)
    (data : List UInt8) : SerialProgram (Except TransactionError Unit × Initiator Handler) :=
  match initiator.table.descriptor? id with
  | none => initiator.transaction now id
  | some entry =>
    if entry.requestSize < data.length then
      .done (.error (.payloadTooLarge data.length entry.requestSize), initiator)
    else
      let table := initiator.table.writeRequest entry (zeroPadded data entry.requestSize)
      { initiator with table }.transaction now id

/-- Sends `data` and copies the front of the reply over the front of `out`. The count is how many
bytes were copied; after a failure `out` is as it was. -/
def exchange (initiator : Initiator Handler) (now : Millis) (id : TransactionId)
    (data out : List UInt8) :
    SerialProgram (Except TransactionError Nat × List UInt8 × Initiator Handler) := do
  let (result, after) ← initiator.sendData now id data
  match result with
  | .error error => return (.error error, out, after)
  | .ok () =>
    match after.table.reply? id with
    | none => return (.error (.notRegistered id), out, after)
    | some reply => return (.ok (min reply.length out.length), overlay reply out, after)

/-- Encodes a value into the zeroed request of `id` and sends it. A value that does not fit is not
sent, although what fitted of it stays in the request. -/
def sendValue (initiator : Initiator Handler) (now : Millis) (id : TransactionId)
    (schema : Schema) (value : schema.Value) :
    SerialProgram (Except TransactionError Unit × Initiator Handler) :=
  match initiator.table.descriptor? id with
  | none => initiator.transaction now id
  | some entry =>
    let (result, buffer) := encodePayload schema value (List.replicate entry.requestSize 0)
    let ready := { initiator with table := initiator.table.writeRequest entry buffer }
    match result with
    | .error error => .done (.error error, ready)
    | .ok _ => ready.transaction now id

end Initiator
end SplitKeyboard
