import SplitKeyboard.LinkConfig
import SplitKeyboard.Serial

/-!
All-or-nothing transfers. A link turns the counts of a device into success or failure, and on a
half-duplex line it drops the echo of everything it sends, so that the engines above it see the
same line in both wirings.
-/
namespace SplitKeyboard

structure Link where
  duplex : Duplex
  timeout : UInt32
  deriving DecidableEq

inductive LinkError where
  /-- Fewer bytes than asked for went through before the time ran out. -/
  | incomplete (expected transferred : Nat)
  /-- What was sent did not come back in full. -/
  | echoLost (expected discarded : Nat)
  | fault
  deriving DecidableEq

def LinkError.message : LinkError → String
  | incomplete expected transferred =>
    "Incomplete \x7b expected: " ++ toString expected ++
      ", transferred: " ++ toString transferred ++ " \x7d"
  | echoLost expected discarded =>
    "EchoLost \x7b expected: " ++ toString expected ++
      ", discarded: " ++ toString discarded ++ " \x7d"
  | fault => "Port"

/-- What a receive brought: bytes may have come even if it failed. -/
structure Reception where
  bytes : List UInt8
  result : Except LinkError Unit

namespace Link

def ofConfig (config : LinkConfig) : Link := ⟨config.line.duplex, config.timeout⟩

def dropEcho (link : Link) (count : Nat) : SerialProgram (Except LinkError Unit) :=
  .ask (.skip count link.timeout) fun
    | none => .done (.error .fault)
    | some discarded =>
      .done (if discarded = count then .ok () else .error (.echoLost count discarded))

/-- Sends all of `data`. On a half-duplex line it ends only when the echo is gone; nothing sent
has no echo. -/
def send (link : Link) (data : List UInt8) : SerialProgram (Except LinkError Unit) :=
  .ask (.write data link.timeout) fun
    | none => .done (.error .fault)
    | some written =>
      if written = data.length then
        if link.duplex = .half ∧ data ≠ [] then link.dropEcho data.length else .done (.ok ())
      else .done (.error (.incomplete data.length written))

def receive (link : Link) (count : Nat) : SerialProgram Reception :=
  .ask (.read count link.timeout) fun delivery =>
    .done ⟨delivery.bytes, match delivery.count with
      | none => .error .fault
      | some got => if got = count then .ok () else .error (.incomplete count got)⟩

/-- Waits up to `timeout` for a single byte. That none came is no error. -/
def receiveToken (timeout : UInt32) : SerialProgram (Except LinkError (Option UInt8)) :=
  .ask (.read 1 timeout) fun delivery =>
    .done (match delivery.count with
      | none => .error .fault
      | some got => .ok (if got = 1 then some (delivery.bytes.headD 0) else none))

/-- Drops all buffered input, so that what is left of a failed exchange is not taken for the start
of the next. -/
def reset : SerialProgram Unit := Program.call SerialRequest.clear

end Link
end SplitKeyboard
