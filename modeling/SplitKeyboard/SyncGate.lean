import SplitKeyboard.Clock

/-!
When to push a shared value again: at first, whenever it has changed, and once the interval has
passed, so that a half that restarted or missed an update catches up.
-/
namespace SplitKeyboard

structure SyncGate where
  interval : UInt32 := 100
  /-- Whether a change waits to be delivered. -/
  changed : Bool := false
  lastSync : Option Millis := none
  deriving DecidableEq

namespace SyncGate

def markChanged (gate : SyncGate) : SyncGate := { gate with changed := true }

/-- Whether a push is due. The interval itself must be exceeded, not just reached. -/
def isDue (gate : SyncGate) (now : Millis) : Bool :=
  match gate.lastSync with
  | none => true
  | some last => gate.changed || gate.interval < Millis.since last now

/-- Notes a delivery. A failed push is not noted, so that its change stays due. -/
def delivered (gate : SyncGate) (now : Millis) : SyncGate :=
  { gate with changed := false, lastSync := some now }

end SyncGate
end SplitKeyboard
