import SplitKeyboard.Handshake
import SplitKeyboard.Outcome
import SplitKeyboard.Serial

/-!
The transaction table that both halves build alike. Payload sizes are never sent, so the table is
all that the halves have agreed on. Each entry owns two adjacent pieces of one arena: first the
request, which goes from the initiator to the target, then the reply.
-/
namespace SplitKeyboard

inductive TableError where
  /-- The ID lies outside the table. -/
  | invalidId (id : TransactionId)
  /-- The ID lies inside the table and nothing is registered for it. -/
  | notRegistered (id : TransactionId)
  | alreadyRegistered (id : TransactionId)
  | arenaExhausted (requested available : Nat)
  deriving DecidableEq

def TableError.message : TableError → String
  | invalidId id => "InvalidId(" ++ toString id.toNat ++ ")"
  | notRegistered id => "NotRegistered(" ++ toString id.toNat ++ ")"
  | alreadyRegistered id => "AlreadyRegistered(" ++ toString id.toNat ++ ")"
  | arenaExhausted requested available =>
    "ArenaExhausted \x7b requested: " ++ toString requested ++
      ", available: " ++ toString available ++ " \x7d"

structure Descriptor (Handler : Type) where
  id : TransactionId
  /-- Where the request begins in the arena; the reply follows it. -/
  offset : Nat
  requestSize : Nat
  replySize : Nat
  status : TransactionStatus
  handler : Option Handler
  deriving DecidableEq

structure Table (Handler : Type) where
  slots : List (Option (Descriptor Handler))
  arena : List UInt8
  used : Nat
  deriving DecidableEq

variable {Handler : Type}

namespace Descriptor

/-- Where the reply begins in the arena. -/
def replyOffset (entry : Descriptor Handler) : Nat := entry.offset + entry.requestSize

def describe (entry : Descriptor Handler) : String :=
  "TransactionDescriptor \x7b id: " ++ toString entry.id.toNat ++
    ", initiator_to_target_size: " ++ toString entry.requestSize ++
    ", target_to_initiator_size: " ++ toString entry.replySize ++
    ", status: " ++ entry.status.name ++
    ", has_handler: " ++ (if entry.handler.isSome then "true" else "false") ++ " \x7d"

end Descriptor

/-- The largest size that a registration can ask for; the sum of two sizes stops there. -/
def maxSize : Nat := UInt64.size - 1

/-- Writes `bytes` into `memory` from `offset` on. The length stays. -/
def splice (memory : List UInt8) (offset : Nat) (bytes : List UInt8) : List UInt8 :=
  memory.take offset ++ overlay bytes (memory.drop offset)

theorem length_splice (memory : List UInt8) (offset : Nat) (bytes : List UInt8) :
    (splice memory offset bytes).length = memory.length := by
  simp [splice, length_overlay]; omega

namespace Table

def empty (capacity arenaSize : Nat) : Table Handler :=
  ⟨List.replicate capacity none, List.replicate arenaSize 0, 0⟩

def capacity (table : Table Handler) : Nat := table.slots.length

def descriptor? (table : Table Handler) (id : TransactionId) : Option (Descriptor Handler) :=
  table.slots[id.toNat]?.join

/-- The entry of `id`, or whether it is the ID or the registration that is missing. -/
def resolve (table : Table Handler) (id : TransactionId) :
    Except TableError (Descriptor Handler) :=
  match table.slots[id.toNat]? with
  | none => .error (.invalidId id)
  | some none => .error (.notRegistered id)
  | some (some entry) => .ok entry

def put (table : Table Handler) (id : TransactionId) (entry : Descriptor Handler) :
    Table Handler :=
  { table with slots := table.slots.set id.toNat (some entry) }

/-- A change of a table in place: what was changed before an error was raised stays changed. -/
abbrev Change (Handler α : Type) := EStateM TableError (Table Handler) α

namespace Change

/-- The table that a change leaves behind, with or without an error. -/
def after (change : Change Handler Unit) (table : Table Handler) : Table Handler :=
  match change.run table with
  | .ok _ after | .error _ after => after

/-- What a change comes to: the new table, or the error that it raised. -/
def outcome (change : Change Handler Unit) (table : Table Handler) :
    Except TableError (Table Handler) :=
  match change.run table with
  | .ok _ after => .ok after
  | .error error _ => .error error

end Change

/-- Adds an entry at the end of the used arena. An entry in the way is reported before a lack of
room. -/
def insert (id : TransactionId) (requestSize replySize : Nat) (handler : Option Handler) :
    Change Handler Unit := do
  match (← get).slots[id.toNat]? with
  | none => throw (.invalidId id)
  | some (some _) => throw (.alreadyRegistered id)
  | some none =>
    let requested := min (requestSize + replySize) maxSize
    let available := (← get).arena.length - (← get).used
    if available < requested then throw (.arenaExhausted requested available)
    modify fun table => table.put id ⟨id, table.used, requestSize, replySize, .idle, handler⟩
    modify fun table => { table with used := table.used + requested }

/-- Gives an entry its handler, in place of the one that it may have. -/
def attach (id : TransactionId) (handler : Handler) : Change Handler Unit := do
  match (← get).resolve id with
  | .error error => throw error
  | .ok entry => modify fun table => table.put id { entry with handler := some handler }

/-- The table with one more entry. -/
def register (table : Table Handler) (id : TransactionId) (requestSize replySize : Nat)
    (handler : Option Handler) : Except TableError (Table Handler) :=
  (insert id requestSize replySize handler).outcome table

def setHandler (table : Table Handler) (id : TransactionId) (handler : Handler) :
    Except TableError (Table Handler) :=
  (attach id handler).outcome table

def isRegistered (table : Table Handler) (id : TransactionId) : Bool :=
  (table.descriptor? id).isSome

def status? (table : Table Handler) (id : TransactionId) : Option TransactionStatus :=
  (table.descriptor? id).map (·.status)

/-- Notes what the target did with `id`; an ID without an entry has no status to change. -/
def setStatus (table : Table Handler) (id : TransactionId) (status : TransactionStatus) :
    Table Handler :=
  match table.descriptor? id with
  | some entry => table.put id { entry with status }
  | none => table

def requestOf (table : Table Handler) (entry : Descriptor Handler) : List UInt8 :=
  (table.arena.drop entry.offset).take entry.requestSize

def replyOf (table : Table Handler) (entry : Descriptor Handler) : List UInt8 :=
  (table.arena.drop entry.replyOffset).take entry.replySize

/-- Puts bytes at the front of an entry's request, as far as it reaches. -/
def writeRequest (table : Table Handler) (entry : Descriptor Handler) (bytes : List UInt8) :
    Table Handler :=
  { table with arena := splice table.arena entry.offset (bytes.take entry.requestSize) }

def writeReply (table : Table Handler) (entry : Descriptor Handler) (bytes : List UInt8) :
    Table Handler :=
  { table with arena := splice table.arena entry.replyOffset (bytes.take entry.replySize) }

def request? (table : Table Handler) (id : TransactionId) : Option (List UInt8) :=
  (table.descriptor? id).map table.requestOf

def reply? (table : Table Handler) (id : TransactionId) : Option (List UInt8) :=
  (table.descriptor? id).map table.replyOf

/-- Fills the front of the request of `id` and tells how many bytes fitted. -/
def fillRequest? (table : Table Handler) (id : TransactionId) (bytes : List UInt8) :
    Option (Nat × Table Handler) :=
  (table.descriptor? id).map fun entry =>
    (min bytes.length entry.requestSize, table.writeRequest entry bytes)

def fillReply? (table : Table Handler) (id : TransactionId) (bytes : List UInt8) :
    Option (Nat × Table Handler) :=
  (table.descriptor? id).map fun entry =>
    (min bytes.length entry.replySize, table.writeReply entry bytes)

def entries (table : Table Handler) : List (Descriptor Handler) := table.slots.filterMap id

end Table
end SplitKeyboard
