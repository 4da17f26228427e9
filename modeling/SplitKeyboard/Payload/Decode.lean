import SplitKeyboard.Payload.Schema
import SplitKeyboard.Payload.Varint

/-!
Reading payloads. A reader takes a value from the front of the bytes and leaves the rest, so what
follows a value never matters.
-/
namespace SplitKeyboard.Schema

def takeBytes (n : Nat) (bytes : List UInt8) : Option (List UInt8 × List UInt8) :=
  if n ≤ bytes.length then some (bytes.take n, bytes.drop n) else none

def decodeText (longest : Nat) (bytes : List UInt8) : Option (String × List UInt8) := do
  let (length, bytes) ← Varint.decode 64 bytes
  if longest < length then none
  else
    let (content, rest) ← takeBytes length bytes
    let decoded ← String.fromUTF8? ⟨content.toArray⟩
    return (decoded, rest)

def decodeMany {α : Type} (decode : List UInt8 → Option (α × List UInt8)) :
    (n : Nat) → List UInt8 → Option (List α × List UInt8)
  | 0, bytes => some ([], bytes)
  | n + 1, bytes => do
    let (value, bytes) ← decode bytes
    let (values, rest) ← decodeMany decode n bytes
    return (value :: values, rest)

/-- The value at the front, and the bytes after it. A flag or tag byte must be 0 or 1, and the
longest text that can be one character has four bytes. -/
def decode : (schema : Schema) → List UInt8 → Option (schema.Value × List UInt8)
  | .unsigned .w8, bytes => bytes.head?.map fun byte => (byte.toBitVec, bytes.tail)
  | .unsigned .w16, bytes => (Varint.decode 16 bytes).map fun (n, rest) => (BitVec.ofNat 16 n, rest)
  | .unsigned .w32, bytes => (Varint.decode 32 bytes).map fun (n, rest) => (BitVec.ofNat 32 n, rest)
  | .unsigned .w64, bytes => (Varint.decode 64 bytes).map fun (n, rest) => (BitVec.ofNat 64 n, rest)
  | .unsigned .w128, bytes =>
    (Varint.decode 128 bytes).map fun (n, rest) => (BitVec.ofNat 128 n, rest)
  | .signed .w8, bytes => bytes.head?.map fun byte => (byte.toBitVec, bytes.tail)
  | .signed .w16, bytes =>
    (Varint.decode 16 bytes).map fun (n, rest) => (BitVec.ofInt 16 (Varint.unzigzag n), rest)
  | .signed .w32, bytes =>
    (Varint.decode 32 bytes).map fun (n, rest) => (BitVec.ofInt 32 (Varint.unzigzag n), rest)
  | .signed .w64, bytes =>
    (Varint.decode 64 bytes).map fun (n, rest) => (BitVec.ofInt 64 (Varint.unzigzag n), rest)
  | .signed .w128, bytes =>
    (Varint.decode 128 bytes).map fun (n, rest) => (BitVec.ofInt 128 (Varint.unzigzag n), rest)
  | .boolean, 0 :: rest => some (false, rest)
  | .boolean, 1 :: rest => some (true, rest)
  | .boolean, _ => none
  | .text, bytes => decodeText (UInt64.size - 1) bytes
  | .character, bytes => do
    let (decoded, rest) ← decodeText 4 bytes
    return (← decoded.toList.head?, rest)
  | .sequence element, bytes => do
    let (length, bytes) ← Varint.decode 64 bytes
    decodeMany element.decode length bytes
  | .optional _, 0 :: rest => some (none, rest)
  | .optional element, 1 :: bytes => (element.decode bytes).map fun (v, rest) => (some v, rest)
  | .optional _, _ => none
  | .nothing, bytes => some ((), bytes)
  | .pair first second, bytes => do
    let (v, bytes) ← first.decode bytes
    let (w, rest) ← second.decode bytes
    return ((v, w), rest)
  | .choice count, bytes => do
    let (index, rest) ← Varint.decode 32 bytes
    if valid : index < count then return (⟨index, valid⟩, rest) else none
  | .stream _, _ => none

end SplitKeyboard.Schema
