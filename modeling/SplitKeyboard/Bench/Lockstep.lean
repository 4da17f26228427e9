import SplitKeyboard.Bench.Recorder
import SplitKeyboard.Bench.ScriptedDevice
import SplitKeyboard.RemoteCall

/-!
Both halves on one bench, taking turns. The target is given a request and polled once; what it
wrote is then waiting for the initiator, which makes its call. Each half has a scripted device of
its own, so nothing is lost or delayed between them.
-/
namespace SplitKeyboard.Bench

/-- A target with its device, whose state is a `σ`, and its handlers, whose state is a `τ`. -/
structure Rig (Handler σ τ : Type) where
  target : Target Handler
  device : σ
  handlers : τ

namespace Rig

variable {Handler σ τ : Type}

def poll (answer : SerialAnswer σ) (handle : HandlerCall Handler → τ → List UInt8 × τ)
    (rig : Rig Handler σ τ) : Except TargetError TargetEvent × Rig Handler σ τ :=
  let ((event, target), (device, handlers)) :=
    rig.target.poll.run (answerBoth answer handle) (rig.device, rig.handlers)
  (event, ⟨target, device, handlers⟩)

/-- Gives the target some bytes, polls it once and collects what it wrote meanwhile. -/
def serve (handle : HandlerCall Handler → τ → List UInt8 × τ) (rig : Rig Handler ScriptedDevice τ)
    (bytes : List UInt8) :
    Except TargetError TargetEvent × List UInt8 × Rig Handler ScriptedDevice τ :=
  let ready := { rig with device := rig.device.queue bytes }
  let (event, after) := ready.poll ScriptedDevice.answer handle
  (event, after.device.sent.drop rig.device.sent.length, after)

/-- How a scripted device and handlers answer when a wait of the given length that finds no byte
goes on for ever. -/
def answerOrWait (patience : UInt32) (handle : HandlerCall Handler → τ → List UInt8 × τ)
    (request : SerialRequest ⊕ HandlerCall Handler) (state : ScriptedDevice × τ) :
    Option (Program.EitherReply SerialRequest.Reply HandlerCall.Reply request ×
      (ScriptedDevice × τ)) :=
  let waits := match request with
    | .inl (.read _ timeout) => timeout == patience && state.1.incoming.isEmpty
    | _ => false
  if waits then none else some (answerBoth ScriptedDevice.answer handle request state)

/-- Polls the target over and over until it waits for an ID that does not come. At most `limit`
polls are made. -/
def serveAll (handle : HandlerCall Handler → τ → List UInt8 × τ) :
    (limit : Nat) → Rig Handler ScriptedDevice τ → Rig Handler ScriptedDevice τ
  | 0, rig => rig
  | limit + 1, rig =>
    match rig.target.poll.advance (answerOrWait rig.target.idleTimeout handle)
      (rig.device, rig.handlers) with
    | (.done (_, target), (device, handlers)) => serveAll handle limit ⟨target, device, handlers⟩
    | (.ask _ _, (device, handlers)) => { rig with device, handlers }

/-- Polls the target until all that its device holds is used up. Each poll takes an ID, so without
an echo as many polls as there are bytes would do. With an echo the target may be fed by its own
replies, and the limit is only there to be out of reach. -/
def serveQueued (handle : HandlerCall Handler → τ → List UInt8 × τ)
    (rig : Rig Handler ScriptedDevice τ) : Rig Handler ScriptedDevice τ :=
  rig.serveAll handle UInt64.size

end Rig

structure Lockstep where
  far : Rig Handler ScriptedDevice (List Recorder)
  near : Initiator Handler
  nearDevice : ScriptedDevice
  now : Millis := 0

structure Turn where
  event : Except TargetError TargetEvent
  result : Except TransactionError Nat
  out : List UInt8

/-- One turn: the target is given the ID and the data and polled, its answer is passed on, and the
initiator makes the same call with `out` to be filled. -/
def Lockstep.turn (halves : Lockstep) (id : TransactionId) (data out : List UInt8) :
    Turn × Lockstep :=
  let (event, answer, far) := halves.far.serve handle (id :: data)
  let ((result, out, near), nearDevice) :=
    (halves.near.exchange halves.now id data out).run ScriptedDevice.answer
      (halves.nearDevice.queue answer)
  (⟨event, result, out⟩, { halves with far, near, nearDevice })

end SplitKeyboard.Bench
