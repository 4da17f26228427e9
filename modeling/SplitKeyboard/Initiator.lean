import SplitKeyboard.Clock
import SplitKeyboard.Link
import SplitKeyboard.Table

/-!
The half that starts transactions. A call is first looked over, which asks nothing of the device;
then it holds one conversation over the link; then its outcome is booked. While no other half
answers, attempts are kept a check interval apart, and those in between end at once.
-/
namespace SplitKeyboard

inductive Phase where
  | idle
  | sendingId
  | awaitingHandshake
  | sendingPayload
  | receivingPayload
  | done
  | failed
  deriving DecidableEq

def Phase.name : Phase → String
  | idle => "Idle"
  | sendingId => "SendingId"
  | awaitingHandshake => "AwaitingHandshake"
  | sendingPayload => "SendingPayload"
  | receivingPayload => "ReceivingPayload"
  | done => "Done"
  | failed => "Failed"

inductive TransactionError where
  | invalidId (id : TransactionId)
  | notRegistered (id : TransactionId)
  /-- The ID could not be written on a line of our own. -/
  | linkFault
  /-- Not attempted: the other half was silent and the check interval has not passed. -/
  | throttled
  | noResponse (phase : Phase)
  | payloadTooLarge (length capacity : Nat)
  | encoding
  deriving DecidableEq

namespace TransactionError

/-- The code that callers get: only silence and throttling may pass by themselves. -/
def code : TransactionError → TransactionCode
  | throttled | noResponse _ => .noResponse
  | invalidId _ | notRegistered _ | linkFault | payloadTooLarge _ _ | encoding => .typeError

def isTransient (error : TransactionError) : Bool := error.code.isTransient

def message : TransactionError → String
  | invalidId id => "InvalidId(" ++ toString id.toNat ++ ")"
  | notRegistered id => "NotRegistered(" ++ toString id.toNat ++ ")"
  | linkFault => "LinkFault"
  | throttled => "Throttled"
  | noResponse phase => "NoResponse(" ++ phase.name ++ ")"
  | payloadTooLarge length capacity =>
    "PayloadTooLarge \x7b len: " ++ toString length ++
      ", capacity: " ++ toString capacity ++ " \x7d"
  | encoding => "Encoding"

end TransactionError

/-- How often calls ended in each way. The counters wrap. -/
structure LinkStats where
  completed : UInt32 := 0
  failed : UInt32 := 0
  throttled : UInt32 := 0
  deriving DecidableEq

def LinkStats.count (stats : LinkStats) : Except TransactionError Unit → LinkStats
  | .ok () => { stats with completed := stats.completed + 1 }
  | .error .throttled => { stats with throttled := stats.throttled + 1 }
  | .error _ => { stats with failed := stats.failed + 1 }

structure Conversation where
  result : Except TransactionError Unit
  answered : Bool
  /-- What arrived of the reply, also if it is not all of it. -/
  reply : List UInt8

namespace Link

/-- How a failed write of the ID is reported. On a shared wire it cannot be told apart from a
missing other half. -/
def unsent (link : Link) : TransactionError :=
  match link.duplex with
  | .full => .linkFault
  | .half => .noResponse .sendingId

def shakeHands (link : Link) (id : TransactionId) :
    SerialProgram (Except TransactionError Unit) := do
  match ← link.send [id] with
  | .error _ => return .error link.unsent
  | .ok () =>
    let answer ← link.receive 1
    match answer.result with
    | .error _ => return .error (.noResponse .awaitingHandshake)
    | .ok () =>
      if isHandshakeReply id (answer.bytes.headD 0xFF) then return .ok ()
      else return .error (.noResponse .awaitingHandshake)

def sendRequest (link : Link) (request : List UInt8) :
    SerialProgram (Except TransactionError Unit) := do
  if request = [] then return .ok ()
  else
    match ← link.send request with
    | .error _ => return .error (.noResponse .sendingPayload)
    | .ok () => return .ok ()

def receiveReply (link : Link) (replySize : Nat) :
    SerialProgram (Except TransactionError Unit × List UInt8) := do
  if replySize = 0 then return (.ok (), [])
  else
    let reply ← link.receive replySize
    match reply.result with
    | .error _ => return (.error (.noResponse .receivingPayload), reply.bytes)
    | .ok () => return (.ok (), reply.bytes)

/-- Opens a transaction, sends its request and receives its reply, up to the first step that
fails. -/
def converse (link : Link) (id : TransactionId) (request : List UInt8) (replySize : Nat) :
    SerialProgram Conversation := do
  match ← link.shakeHands id with
  | .error error => return ⟨.error error, false, []⟩
  | .ok () =>
    match ← link.sendRequest request with
    | .error error => return ⟨.error error, true, []⟩
    | .ok () =>
      let (result, reply) ← link.receiveReply replySize
      return ⟨result, true, reply⟩

end Link

/-- The initiating half: its link, its table and what it knows about the other half. -/
structure Initiator (Handler : Type) where
  link : Link
  checkInterval : UInt32
  table : Table Handler
  connected : Bool := false
  lastProbe : Option Millis := none
  phase : Phase := .idle
  stats : LinkStats := {}

namespace Initiator

variable {Handler : Type}

def ofConfig (config : LinkConfig) (table : Table Handler) : Initiator Handler :=
  { link := .ofConfig config, checkInterval := config.checkInterval, table }

/-- Whether an attempt at `now` would come too soon after one that met silence. -/
def tooSoon (initiator : Initiator Handler) (now : Millis) : Bool :=
  !initiator.connected &&
    match initiator.lastProbe with
    | none => false
    | some last => Millis.since last now < initiator.checkInterval

/-- Looks the ID up and applies the throttle, in this order. -/
def permit (initiator : Initiator Handler) (now : Millis) (id : TransactionId) :
    Except TransactionError (Descriptor Handler) :=
  match initiator.table.resolve id with
  | .error (.invalidId _) => .error (.invalidId id)
  | .error _ => .error (.notRegistered id)
  | .ok entry => if initiator.tooSoon now then .error .throttled else .ok entry

def book (initiator : Initiator Handler) (result : Except TransactionError Unit) :
    Initiator Handler :=
  { initiator with
    phase := match result with
      | .ok () => .done
      | .error _ => .failed
    stats := initiator.stats.count result }

/-- Keeps what a conversation at `now` showed: the time of the attempt, whether the other half is
there, and whatever came of the reply. -/
def learn (initiator : Initiator Handler) (now : Millis) (entry : Descriptor Handler)
    (conversation : Conversation) : Initiator Handler :=
  { initiator with
    connected := conversation.answered
    lastProbe := some now
    table := initiator.table.writeReply entry conversation.reply }

/-- Runs transaction `id`: the request is sent as it stands in the table, and on success the table
holds the reply. After a failed conversation buffered input is dropped, so that the next attempt
starts clean. The clock is read once for the throttle and once for the time of the attempt, with no
wait in between, and `now` stands for both. -/
def transaction (initiator : Initiator Handler) (now : Millis) (id : TransactionId) :
    SerialProgram (Except TransactionError Unit × Initiator Handler) := do
  match initiator.permit now id with
  | .error error => return (.error error, initiator.book (.error error))
  | .ok entry =>
    let request := initiator.table.requestOf entry
    let conversation ← initiator.link.converse id request entry.replySize
    let after := (initiator.learn now entry conversation).book conversation.result
    match conversation.result with
    | .ok () => return (.ok (), after)
    | .error error =>
      Link.reset
      return (.error error, after)

end Initiator
end SplitKeyboard
