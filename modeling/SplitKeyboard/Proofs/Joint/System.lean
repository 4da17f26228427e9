import SplitKeyboard.Proofs.Initiator.Job
import SplitKeyboard.Proofs.Joint.Traffic
import SplitKeyboard.Proofs.Target.Exchange

/-!
Both halves at the two ends of one wire, in any order of steps. Each engine is a program that stands
at some request, and one step of it is one look at the wire, one handler, or the end of its program.
Which end moves next, and whether a wait that has not got all it wants goes on or runs out of time,
is left to the list of moves.
-/
namespace SplitKeyboard

open Bench (WireEnd)

variable {Handler τ α : Type}

/-- A finished exchange with its places in the record of the wire. -/
structure Entry (Handler : Type) where
  exchange : Target.Exchange Handler
  /-- Where the bytes that it took or dropped begin in the record of its own end. -/
  heard : Nat
  /-- Where the bytes that it wrote begin in the record of the other end. -/
  told : Nat

/-- A program under way: what is left of it, how far its present call is, and what it has done. -/
structure Activity (Handler α : Type) where
  program : ServingProgram Handler α
  progress : Traffic.Progress := {}
  entries : List (Entry Handler) := []

structure Record (Handler α : Type) where
  entries : List (Entry Handler)
  outcome : α

namespace Activity

def step (handle : HandlerCall Handler → τ → List UInt8 × τ) (side : WireEnd) (patient : Bool)
    (traffic : Traffic) (handlers : τ) (activity : Activity Handler α) :
    Activity Handler α × Traffic × τ :=
  let heard := traffic.heard side - activity.progress.count
  let told := (traffic.came side.other).length
  match activity.program with
  | .done _ => (activity, traffic, handlers)
  | .ask (.inr call) next =>
    let (output, handlers) := handle call handlers
    (⟨next output, {}, activity.entries ++ [⟨⟨.inr call, output⟩, heard, told⟩]⟩, traffic, handlers)
  | .ask (.inl request) next =>
    match traffic.attend side patient activity.progress request with
    | (.inl reply, traffic) =>
      (⟨next reply, {}, activity.entries ++ [⟨⟨.inl request, reply⟩, heard, told⟩]⟩, traffic,
        handlers)
    | (.inr progress, traffic) => ({ activity with progress }, traffic, handlers)

end Activity

/-- Both engines, with the calls and polls that have ended, oldest first. -/
structure Joint (Handler τ : Type) where
  traffic : Traffic
  handlers : τ
  initiator : Initiator Handler
  call : Option (Job × Activity Handler (Except TransactionError Unit × Initiator Handler)) := none
  target : Target Handler
  poll : Activity Handler (Except TargetError TargetEvent × Target Handler) := ⟨target.poll, {}, []⟩
  calls : List (Job × Record Handler (Except TransactionError Unit × Initiator Handler)) := []
  polls : List (Record Handler (Except TargetError TargetEvent × Target Handler)) := []

inductive Move where
  | call (job : Job)
  /-- An engine makes a step. If it is not patient, a wait that goes on runs out of time. -/
  | step (side : WireEnd) (patient : Bool)
  deriving DecidableEq

namespace Joint

def start (initiator : Initiator Handler) (target : Target Handler) (handlers : τ) :
    Joint Handler τ where
  traffic := .new initiator.link.duplex
  handlers := handlers
  initiator := initiator
  target := target

variable (handle : HandlerCall Handler → τ → List UInt8 × τ)

/-- A step of the initiator, if it is in the middle of a transaction. -/
def stepNear (patient : Bool) (joint : Joint Handler τ) : Joint Handler τ :=
  match joint.call with
  | none => joint
  | some (job, activity) =>
    match activity.program with
    | .done outcome =>
      { joint with
        initiator := outcome.2
        call := none
        calls := joint.calls ++ [(job, ⟨activity.entries, outcome⟩)] }
    | .ask _ _ =>
      let (activity, traffic, handlers) :=
        activity.step handle .near patient joint.traffic joint.handlers
      { joint with call := some (job, activity), traffic, handlers }

/-- A step of the target. It polls again and again. -/
def stepFar (patient : Bool) (joint : Joint Handler τ) : Joint Handler τ :=
  match joint.poll.program with
  | .done outcome =>
    { joint with
      target := outcome.2
      poll := ⟨outcome.2.poll, {}, []⟩
      polls := joint.polls ++ [⟨joint.poll.entries, outcome⟩] }
  | .ask _ _ =>
    let (poll, traffic, handlers) :=
      joint.poll.step handle .far patient joint.traffic joint.handlers
    { joint with poll, traffic, handlers }

def next (joint : Joint Handler τ) : Move → Joint Handler τ
  | .call job =>
    match joint.call with
    | some _ => joint
    | none =>
      let program := (joint.initiator.load job).transaction job.now job.id
      { joint with call := some (job, ⟨Target.onLink program, {}, []⟩) }
  | .step .near patient => joint.stepNear handle patient
  | .step .far patient => joint.stepFar handle patient

def run (joint : Joint Handler τ) (moves : List Move) : Joint Handler τ :=
  moves.foldl (next handle) joint

end Joint
end SplitKeyboard
