import SplitKeyboard.Payload.Schema
import SplitKeyboard.Payload.Varint

/-!
Writing payloads. A value is a list of items, and each item is written whole or not at all: a
buffer that is too small keeps the items that fitted.
-/
namespace SplitKeyboard

inductive PayloadItem where
  | whole (bytes : List UInt8)
  /-- A length that cannot be told, where writing has to stop. -/
  | unknownLength
  deriving DecidableEq

inductive EncodeError where
  | bufferFull
  | unknownLength
  deriving DecidableEq

namespace PayloadItem

def number (n : Nat) : PayloadItem := .whole (Varint.encode n)

/-- Text is its length in bytes and then its bytes. -/
def text (s : String) : List PayloadItem :=
  let bytes := s.toUTF8.data.toList
  [number bytes.length, .whole bytes]

/-- Writes items in order behind what is written, up to the first that does not fit. -/
def writeAll (capacity : Nat) (written : List UInt8) :
    List PayloadItem → Except EncodeError Unit × List UInt8
  | [] => (.ok (), written)
  | .whole bytes :: rest =>
    if written.length + bytes.length ≤ capacity then writeAll capacity (written ++ bytes) rest
    else (.error .bufferFull, written)
  | .unknownLength :: _ => (.error .unknownLength, written)

end PayloadItem

namespace Schema

/-- The items of a value. Single bytes stand for themselves, wider numbers are written in groups of
seven bits, and whatever has a length has it in front. -/
def items : (schema : Schema) → schema.Value → List PayloadItem
  | .unsigned .w8, v => [.whole [UInt8.ofBitVec v]]
  | .unsigned .w16, v => [.number v.toNat]
  | .unsigned .w32, v => [.number v.toNat]
  | .unsigned .w64, v => [.number v.toNat]
  | .unsigned .w128, v => [.number v.toNat]
  | .signed .w8, v => [.whole [UInt8.ofBitVec v]]
  | .signed .w16, v => [.number (Varint.zigzag v.toInt)]
  | .signed .w32, v => [.number (Varint.zigzag v.toInt)]
  | .signed .w64, v => [.number (Varint.zigzag v.toInt)]
  | .signed .w128, v => [.number (Varint.zigzag v.toInt)]
  | .boolean, v => [.whole [if v then 1 else 0]]
  | .text, v => PayloadItem.text v
  | .character, v => PayloadItem.text (String.singleton v)
  | .sequence element, v => .number v.length :: v.flatMap element.items
  | .optional _, none => [.whole [0]]
  | .optional element, some v => .whole [1] :: element.items v
  | .nothing, _ => []
  | .pair first second, (v, w) => first.items v ++ second.items w
  | .choice _, v => [.number v.val]
  | .stream _, _ => [.unknownLength]

/-- Writes a value into the front of `buffer`. The count is how many bytes it took; also when it
fails, what was written stays. -/
def encodeInto (schema : Schema) (value : schema.Value) (buffer : List UInt8) :
    Except EncodeError Nat × List UInt8 :=
  let (result, written) := PayloadItem.writeAll buffer.length [] (schema.items value)
  (result.map fun _ => written.length, written ++ buffer.drop written.length)

end Schema
end SplitKeyboard
