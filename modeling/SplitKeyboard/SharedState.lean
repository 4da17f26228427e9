/-!
The keyboard state that both halves show.
-/
namespace SplitKeyboard

structure SharedState where
  layer : UInt8 := 0
  leds : UInt8 := 0
  mods : UInt8 := 0
  deriving DecidableEq

namespace SharedState

def leftShift : UInt8 := 2

def capsLock : UInt8 := 2

/-- Whether the indicator light is on: for any layer but the base one, and for caps lock. -/
def indicator (state : SharedState) : Bool := state.layer != 0 || state.leds &&& capsLock != 0

end SharedState
end SplitKeyboard
