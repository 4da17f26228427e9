/-!
The two small vocabularies in which transactions are reported: the code a caller gets for a whole
transaction, and the status the target keeps for each ID. Both have fixed byte values.
-/
namespace SplitKeyboard

inductive TransactionCode where
  | finished
  | noResponse
  | dataError
  | typeError
  deriving DecidableEq

namespace TransactionCode

def value : TransactionCode → UInt8
  | finished => 0
  | noResponse => 1
  | dataError => 2
  | typeError => 4

/-- Reads a code byte. Only the four assigned values are codes. -/
def ofValue? (byte : UInt8) : Option TransactionCode :=
  [finished, noResponse, dataError, typeError].find? fun code => code.value == byte

/-- Whether the same call may succeed later without any change: only silence passes by itself. -/
def isTransient (code : TransactionCode) : Bool := code == noResponse

def name : TransactionCode → String
  | finished => "End"
  | noResponse => "NoResponse"
  | dataError => "DataError"
  | typeError => "TypeError"

theorem ofValue?_value (code : TransactionCode) : ofValue? code.value = some code := by
  cases code <;> rfl

end TransactionCode

inductive TransactionStatus where
  | idle
  | dataError
  | accepted
  deriving DecidableEq

namespace TransactionStatus

/-- Before the first transaction an ID is idle. -/
instance : Inhabited TransactionStatus := ⟨idle⟩

def value : TransactionStatus → UInt8
  | idle => 0xFF
  | dataError => 2
  | accepted => 8

/-- Reads a status byte. Only the three assigned values are statuses. -/
def ofValue? (byte : UInt8) : Option TransactionStatus :=
  [idle, dataError, accepted].find? fun status => status.value == byte

def name : TransactionStatus → String
  | idle => "Idle"
  | dataError => "DataError"
  | accepted => "Accepted"

theorem ofValue?_value (status : TransactionStatus) : ofValue? status.value = some status := by
  cases status <;> rfl

end TransactionStatus
end SplitKeyboard
