import SplitKeyboard.Bench.GivenDevice
import SplitKeyboard.Bench.ScriptedDevice

/-!
The devices of the test bench under one type.
-/
namespace SplitKeyboard.Bench

inductive Device where
  | scripted (device : ScriptedDevice)
  | given (device : GivenDevice)

def Device.answer : SerialAnswer Device := fun request device =>
  match device with
  | .scripted device =>
    let (reply, device) := ScriptedDevice.answer request device
    (reply, .scripted device)
  | .given device =>
    let (reply, device) := GivenDevice.answer request device
    (reply, .given device)

end SplitKeyboard.Bench
