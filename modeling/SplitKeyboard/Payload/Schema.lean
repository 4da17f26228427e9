/-!
The types that a payload can carry, as a closed family: each schema has its type of values. The
sizes of records and the names of their fields are not sent, so a record is no more than its
fields in order.
-/
namespace SplitKeyboard

inductive Width where
  | w8
  | w16
  | w32
  | w64
  | w128
  deriving DecidableEq

def Width.bits : Width → Nat
  | w8 => 8
  | w16 => 16
  | w32 => 32
  | w64 => 64
  | w128 => 128

inductive Schema where
  | unsigned (width : Width)
  | signed (width : Width)
  | boolean
  | text
  | character
  | sequence (element : Schema)
  | optional (element : Schema)
  /-- What takes no bytes: a unit, or a fixed array of length zero. -/
  | nothing
  | pair (first second : Schema)
  | choice (count : Nat)
  /-- A sequence whose length is not known when it starts. It cannot be sent, because the length
  comes first. -/
  | stream (element : Schema)
  deriving DecidableEq

namespace Schema

abbrev Value : Schema → Type
  | unsigned width => BitVec width.bits
  | signed width => BitVec width.bits
  | boolean => Bool
  | text => String
  | character => Char
  | sequence element => List element.Value
  | optional element => Option element.Value
  | nothing => Unit
  | pair first second => first.Value × second.Value
  | choice count => Fin count
  | stream element => List element.Value

def byte : Schema := .unsigned .w8

/-- A fixed number of values of one schema, at least one: nothing is sent but the values. -/
def array (element : Schema) : (extra : Nat) → Schema
  | 0 => element
  | extra + 1 => .pair element (array element extra)

/-- A fixed number of values of one schema, which can be none. -/
def vector (element : Schema) : (count : Nat) → Schema
  | 0 => .nothing
  | extra + 1 => array element extra

end Schema
end SplitKeyboard
