import SplitKeyboard.Bench.Recorder
import SplitKeyboard.Bench.Wire
import SplitKeyboard.Initiator

/-!
Both halves at the two ends of one wire. Only one of them moves at a time, so a half that waits for
the other waits in vain until its own time runs out.
-/
namespace SplitKeyboard.Bench

structure Wired where
  initiator : Initiator Handler
  target : Target Handler
  wire : Wire
  nearRecorders : List Recorder
  farRecorders : List Recorder

namespace Wired

/-- Both halves with the same table: the initiator at the near end, the target at the far one. -/
def new (config : LinkConfig) (table : Table Handler) (recorders : List Recorder) : Wired :=
  ⟨.ofConfig config table, .ofConfig config table, .new config.line.duplex, recorders, recorders⟩

def poll (halves : Wired) : Except TargetError TargetEvent × Wired :=
  let ((event, target), (wire, farRecorders)) :=
    halves.target.poll.run (answerBoth (Wire.answer .far) handle) (halves.wire, halves.farRecorders)
  (event, { halves with target, wire, farRecorders })

def tableAt (halves : Wired) : WireEnd → Table Handler × List Recorder
  | .near => (halves.initiator.table, halves.nearRecorders)
  | .far => (halves.target.table, halves.farRecorders)

def setTableAt (halves : Wired) (side : WireEnd) (table : Table Handler)
    (recorders : List Recorder) : Wired :=
  match side with
  | .near =>
    { halves with initiator := { halves.initiator with table }, nearRecorders := recorders }
  | .far => { halves with target := { halves.target with table }, farRecorders := recorders }

end Wired
end SplitKeyboard.Bench
