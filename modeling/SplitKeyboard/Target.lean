import SplitKeyboard.Link
import SplitKeyboard.Table

/-!
The half that serves transactions. One poll waits for an ID, answers it, receives the request,
runs the handler and sends the reply, in this order. The status of the ID is written once: at the
end, or at the first failure. After any failure buffered input is dropped, so that the rest of an
aborted exchange is never read as a new ID.
-/
namespace SplitKeyboard

/-- A handler to be run on a request. Its reply buffer starts out as `output`. -/
structure HandlerCall (Handler : Type) where
  handler : Handler
  input : List UInt8
  output : List UInt8

abbrev HandlerCall.Reply {Handler : Type} : HandlerCall Handler → Type := fun _ => List UInt8

abbrev ServingProgram (Handler α : Type) :=
  Program (SerialRequest ⊕ HandlerCall Handler)
    (Program.EitherReply SerialRequest.Reply HandlerCall.Reply) α

inductive TargetEvent where
  | idle
  | served (id : TransactionId)
  deriving DecidableEq

def TargetEvent.message : TargetEvent → String
  | idle => "Idle"
  | served id => "Served(" ++ toString id.toNat ++ ")"

inductive TargetError where
  /-- The byte is no valid ID. Nothing was sent. -/
  | desync (byte : UInt8)
  /-- The ID is valid and not registered on this half. Nothing was sent. -/
  | unregistered (id : TransactionId)
  | handshake (id : TransactionId)
  | receive (id : TransactionId)
  | send (id : TransactionId)
  | fault
  deriving DecidableEq

def TargetError.message : TargetError → String
  | desync byte => "Desync(" ++ toString byte.toNat ++ ")"
  | unregistered id => "Unregistered(" ++ toString id.toNat ++ ")"
  | handshake id => "Handshake(" ++ toString id.toNat ++ ")"
  | receive id => "Receive(" ++ toString id.toNat ++ ")"
  | send id => "Send(" ++ toString id.toNat ++ ")"
  | fault => "Port"

/-- The serving half: its link, its table and how long it waits for an ID. -/
structure Target (Handler : Type) where
  link : Link
  idleTimeout : UInt32
  table : Table Handler

namespace Target

variable {Handler : Type}

def ofConfig (config : LinkConfig) (table : Table Handler) : Target Handler :=
  { link := .ofConfig config, idleTimeout := config.idleTimeout, table }

def onLink {α : Type} (program : SerialProgram α) : ServingProgram Handler α := program.beside _

/-- Runs the handler of an entry on its request and keeps what it wrote. An entry without a
handler replies with the bytes that its reply already holds. -/
def runHandler (table : Table Handler) (entry : Descriptor Handler) :
    ServingProgram Handler (Table Handler) :=
  match entry.handler with
  | none => .done table
  | some handler =>
    .ask (.inr ⟨handler, table.requestOf entry, table.replyOf entry⟩) fun output =>
      .done (table.writeReply entry output)

/-- Receives the request of an entry, unless it is empty. Bytes that arrived stay in the table
even if the rest did not come. -/
def receiveRequest (link : Link) (table : Table Handler) (entry : Descriptor Handler) :
    ServingProgram Handler (Bool × Table Handler) := do
  if entry.requestSize = 0 then return (true, table)
  else
    let request ← onLink (link.receive entry.requestSize)
    let table := table.writeRequest entry request.bytes
    match request.result with
    | .ok () => return (true, table)
    | .error _ => return (false, table)

def sendReply (link : Link) (table : Table Handler) (entry : Descriptor Handler) :
    ServingProgram Handler Bool := do
  if entry.replySize = 0 then return true
  else
    match ← onLink (link.send (table.replyOf entry)) with
    | .ok () => return true
    | .error _ => return false

def serve (link : Link) (table : Table Handler) (entry : Descriptor Handler) (id : TransactionId) :
    ServingProgram Handler (Except TargetError TargetEvent × Table Handler) := do
  match ← onLink (link.send [handshakeToken id]) with
  | .error _ => return (.error (.handshake id), table.setStatus id .dataError)
  | .ok () =>
    let (received, table) ← receiveRequest link table entry
    if !received then return (.error (.receive id), table.setStatus id .dataError)
    else
      let table ← runHandler table entry
      if ← sendReply link table entry then
        return (.ok (.served id), table.setStatus id .accepted)
      else
        return (.error (.send id), table.setStatus id .dataError)

/-- Waits for an ID and serves it. An ID without an entry is met with silence: its payload sizes
are unknown, and the initiator will give up by itself. -/
def react (target : Target Handler) :
    ServingProgram Handler (Except TargetError TargetEvent × Table Handler) := do
  match ← onLink (Link.receiveToken target.idleTimeout) with
  | .error _ => return (.error .fault, target.table)
  | .ok none => return (.ok .idle, target.table)
  | .ok (some id) =>
    match target.table.resolve id with
    | .error (.invalidId _) => return (.error (.desync id), target.table)
    | .error _ => return (.error (.unregistered id), target.table)
    | .ok entry => serve target.link target.table entry id

/-- Serves at most one transaction and drops buffered input after any failure. -/
def poll (target : Target Handler) :
    ServingProgram Handler (Except TargetError TargetEvent × Target Handler) := do
  let (result, table) ← target.react
  match result with
  | .ok event => return (.ok event, { target with table })
  | .error error =>
    onLink Link.reset
    return (.error error, { target with table })

end Target
end SplitKeyboard
