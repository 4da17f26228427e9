import SplitKeyboard.Payload.Records
import SplitKeyboard.RemoteCall
import SplitKeyboard.Target

/-!
The transactions of the keyboard: a probe, the best typing speed, the shared state and the target's
heartbeat. Both halves build this one table; the handlers only ever run on the target.
-/
namespace SplitKeyboard.Firmware

/-- Shows that the other half is there, and carries nothing. -/
def probeId : TransactionId := 0

def speedId : TransactionId := 1

def stateId : TransactionId := 2

def heartbeatId : TransactionId := 3

inductive Service where
  | keepSpeed
  | keepState
  | tellHeartbeat
  deriving DecidableEq

/-- The entries in the order in which both halves register them. -/
def entries : List (TransactionId × Nat × Nat × Option Service) :=
  [(probeId, 0, 0, none), (speedId, 1, 0, some .keepSpeed), (stateId, 8, 0, some .keepState),
    (heartbeatId, 0, 4, some .tellHeartbeat)]

def registerAll (table : Table Service) :
    List (TransactionId × Nat × Nat × Option Service) → Except TableError (Table Service)
  | [] => .ok table
  | (id, requestSize, replySize, handler) :: rest =>
    match table.register id requestSize replySize handler with
    | .error error => .error error
    | .ok table => registerAll table rest

/-- The table of the keyboard: an arena of 13 bytes is just enough for it. -/
def table : Table Service := (registerAll (.empty 4 13) entries).toOption.getD (.empty 4 13)

theorem registerAll_entries : registerAll (.empty 4 13) entries = .ok table := rfl

structure Peer where
  state : SharedState := {}
  bestSpeed : UInt8 := 0
  deriving DecidableEq

def heartbeatPeriod : Nat := 100

/-- The number of heartbeats by now, as it is sent: four bytes, lowest first. -/
def heartbeatBytes (uptime : Nat) : List UInt8 :=
  let beat := uptime / heartbeatPeriod
  [beat, beat / 256, beat / 65536, beat / 16777216].map UInt8.ofNat

/-- The number that four bytes, lowest first, stand for. -/
def heartbeatOfBytes (bytes : List UInt8) : UInt32 :=
  UInt32.ofNat (bytes.foldr (fun byte n => byte.toNat + 256 * n) 0)

/-- Runs a service at the given uptime. A state that cannot be decoded is ignored. -/
def Service.handle (uptime : Nat) (call : HandlerCall Service) (peer : Peer) :
    List UInt8 × Peer :=
  match call.handler with
  | .keepSpeed =>
    match call.input with
    | [] => (call.output, peer)
    | speed :: _ => (call.output, { peer with bestSpeed := speed })
  | .keepState =>
    match decodePayload (Payload.schema SharedState) call.input with
    | .error _ => (call.output, peer)
    | .ok value => (call.output, { peer with state := Payload.ofValue value })
  | .tellHeartbeat =>
    if call.output.length < 4 then (call.output, peer)
    else (overlay (heartbeatBytes uptime) call.output, peer)

end SplitKeyboard.Firmware
