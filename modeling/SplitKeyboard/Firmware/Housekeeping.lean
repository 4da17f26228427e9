import SplitKeyboard.Firmware.Services
import SplitKeyboard.SyncGate

/-!
The housekeeping of the initiator half. While the other half is silent it only probes. Once
connected it pushes the best typing speed and the shared state through their gates and reads the
heartbeat. Losing the link forgets what was delivered, so that everything is pushed again.

A round is a program over calls on the link and requests to its own half. It takes nothing about
their outcomes for granted; the initiator then carries out the calls.
-/
namespace SplitKeyboard.Firmware

inductive LinkCall where
  | probe
  | pushSpeed (speed : UInt8)
  | pushState (state : SharedState)
  | readHeartbeat
  deriving DecidableEq

structure CallReply where
  answer : Option (List UInt8)
  connected : Bool
  stats : LinkStats
  deriving DecidableEq

/-- The health of the link, as it is reported whenever it comes or goes. -/
structure LinkStatus where
  connected : Bool := false
  heartbeat : Option UInt32 := none
  stats : LinkStats := {}
  deriving DecidableEq

inductive BoardRequest where
  | clock
  | localState
  | localSpeed
  | report (status : LinkStatus)
  deriving DecidableEq

abbrev LinkCall.Reply : LinkCall → Type := fun _ => CallReply

abbrev BoardRequest.Reply : BoardRequest → Type
  | .clock => Millis
  | .localState => SharedState
  | .localSpeed => UInt8
  | .report _ => Unit

abbrev HousekeepingProgram (α : Type) :=
  Program (LinkCall ⊕ BoardRequest) (Program.EitherReply LinkCall.Reply BoardRequest.Reply) α

structure Housekeeping where
  connected : Bool := false
  stats : LinkStats := {}
  speedGate : SyncGate := {}
  stateGate : SyncGate := {}
  heartbeatGate : SyncGate := { interval := 500 }
  sentSpeed : Option UInt8 := none
  sentState : Option SharedState := none
  status : LinkStatus := {}
  deriving DecidableEq

namespace Housekeeping

def askBoard (request : BoardRequest) : HousekeepingProgram request.Reply :=
  .ask (.inr request) .done

def call (keeper : Housekeeping) (call : LinkCall) :
    HousekeepingProgram (Option (List UInt8) × Housekeeping) :=
  .ask (.inl call) fun reply =>
    .done (reply.answer, { keeper with connected := reply.connected, stats := reply.stats })

/-- Opens the gate for a value that differs from the one delivered last. -/
def openIfNew {α : Type} [DecidableEq α] (gate : SyncGate) (sent : Option α) (value : α) :
    SyncGate :=
  if sent = some value then gate else gate.markChanged

def probe (keeper : Housekeeping) : HousekeepingProgram Housekeeping := do
  let (_, keeper) ← keeper.call .probe
  return keeper

def pushSpeed (keeper : Housekeeping) (now : Millis) : HousekeepingProgram Housekeeping := do
  let speed ← askBoard .localSpeed
  let keeper := { keeper with speedGate := openIfNew keeper.speedGate keeper.sentSpeed speed }
  if keeper.speedGate.isDue now then
    match ← keeper.call (.pushSpeed speed) with
    | (none, keeper) => return keeper
    | (some _, keeper) =>
      return { keeper with speedGate := keeper.speedGate.delivered now, sentSpeed := some speed }
  else return keeper

def pushState (keeper : Housekeeping) (now : Millis) : HousekeepingProgram Housekeeping := do
  let state ← askBoard .localState
  let keeper := { keeper with stateGate := openIfNew keeper.stateGate keeper.sentState state }
  if keeper.stateGate.isDue now then
    match ← keeper.call (.pushState state) with
    | (none, keeper) => return keeper
    | (some _, keeper) =>
      return { keeper with stateGate := keeper.stateGate.delivered now, sentState := some state }
  else return keeper

/-- Reads the heartbeat if its gate lets it through. Only a whole counter counts. -/
def readHeartbeat (keeper : Housekeeping) (now : Millis) : HousekeepingProgram Housekeeping := do
  if keeper.heartbeatGate.isDue now then
    let (answer, keeper) ← keeper.call .readHeartbeat
    match answer with
    | some [a, b, c, d] =>
      return { keeper with
        heartbeatGate := keeper.heartbeatGate.delivered now
        status := { keeper.status with heartbeat := some (heartbeatOfBytes [a, b, c, d]) } }
    | _ => return keeper
  else return keeper

/-- Reports the link if it has come or gone since the last report. -/
def reportLink (keeper : Housekeeping) : HousekeepingProgram Housekeeping := do
  if keeper.connected = keeper.status.connected then return keeper
  else
    let status := { keeper.status with connected := keeper.connected, stats := keeper.stats }
    askBoard (.report status)
    if status.connected then return { keeper with status }
    else return { keeper with status, sentSpeed := none, sentState := none }

def round (keeper : Housekeeping) : HousekeepingProgram Housekeeping := do
  let now ← askBoard .clock
  if keeper.connected then
    let keeper ← keeper.pushSpeed now
    let keeper ← keeper.pushState now
    let keeper ← keeper.readHeartbeat now
    keeper.reportLink
  else
    let keeper ← keeper.probe
    keeper.reportLink

end Housekeeping

abbrev BoardProgram (α : Type) :=
  Program (SerialRequest ⊕ BoardRequest)
    (Program.EitherReply SerialRequest.Reply BoardRequest.Reply) α

def CallReply.ofCall (result : Except TransactionError (List UInt8))
    (initiator : Initiator Service) : CallReply :=
  ⟨result.toOption, initiator.connected, initiator.stats⟩

def LinkCall.perform (now : Millis) (initiator : Initiator Service) :
    LinkCall → SerialProgram (CallReply × Initiator Service)
  | .probe => do
    let (result, after) ← initiator.transaction now probeId
    return (.ofCall (result.map fun _ => []) after, after)
  | .pushSpeed speed => do
    let (result, after) ← initiator.sendData now speedId [speed]
    return (.ofCall (result.map fun _ => []) after, after)
  | .pushState state => do
    let (result, after) ←
      initiator.sendValue now stateId (Payload.schema SharedState) (Payload.toValue state)
    return (.ofCall (result.map fun _ => []) after, after)
  | .readHeartbeat => do
    let (result, bytes, after) ← initiator.exchange now heartbeatId [] [0, 0, 0, 0]
    return (.ofCall (result.map bytes.take) after, after)

/-- Carries out the requests of housekeeping: calls by the initiator, each at the time at which it
starts, and all else by its own half. -/
def serveHousekeeping :
    (request : LinkCall ⊕ BoardRequest) → Initiator Service →
      BoardProgram (Program.EitherReply LinkCall.Reply BoardRequest.Reply request ×
        Initiator Service)
  | .inl call, initiator =>
    .ask (.inr .clock) fun now => (call.perform now initiator).beside BoardRequest.Reply
  | .inr request, initiator => .ask (.inr request) fun reply => .done (reply, initiator)

end SplitKeyboard.Firmware
