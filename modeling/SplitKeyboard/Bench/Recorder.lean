import SplitKeyboard.Target

/-!
Handlers for the test bench. Each one replies by a simple rule, and all but one keep count of their
calls and of every byte they were given.
-/
namespace SplitKeyboard.Bench

/-- How a recorded handler makes its reply from its input. -/
inductive Behavior where
  | invert
  | sum
  | scramble
  | counter
  | increment
  | noop
  deriving DecidableEq

def Behavior.reply (behavior : Behavior) (calls : Nat) (input output : List UInt8) : List UInt8 :=
  match behavior with
  | invert => overlay (input.map (~~~ ·)) output
  | sum =>
    match output with
    | [] => []
    | _ :: rest => input.foldl (· + ·) 0 :: rest
  | scramble => output.mapIdx fun i _ => input.getD i 0xA5 ^^^ UInt8.ofNat i
  | counter => output.map fun _ => UInt8.ofNat calls
  | increment => output.map (· + 1)
  | noop => output

structure Recorder where
  behavior : Behavior
  calls : Nat := 0
  seen : List UInt8 := []
  deriving DecidableEq

inductive Handler where
  | recorder (number : Nat)
  | inputLength
  deriving DecidableEq

/-- Makes one more recorder and tells how to call it. -/
def newRecorder (recorders : List Recorder) (behavior : Behavior) : Handler × List Recorder :=
  (.recorder recorders.length, recorders ++ [{ behavior := behavior }])

def handle (call : HandlerCall Handler) (recorders : List Recorder) :
    List UInt8 × List Recorder :=
  match call.handler with
  | .inputLength => (call.output.map fun _ => UInt8.ofNat call.input.length, recorders)
  | .recorder number =>
    match recorders[number]? with
    | none => (call.output, recorders)
    | some recorder =>
      (recorder.behavior.reply recorder.calls call.input call.output,
        recorders.set number { recorder with
          calls := recorder.calls + 1
          seen := recorder.seen ++ call.input })

/-- Surroundings that answer device calls and run handlers, each with a state of its own. -/
def answerBoth {Handler σ τ : Type} (device : SerialAnswer σ)
    (handle : HandlerCall Handler → τ → List UInt8 × τ) :
    (request : SerialRequest ⊕ HandlerCall Handler) → σ × τ →
      Program.EitherReply SerialRequest.Reply HandlerCall.Reply request × (σ × τ)
  | .inl request, (s, t) =>
    let (reply, s) := device request s
    (reply, (s, t))
  | .inr call, (s, t) =>
    let (output, t) := handle call t
    (output, (s, t))

end SplitKeyboard.Bench
