import SplitKeyboard.Serial

/-!
A device on the test bench whose input is laid out beforehand. It never waits: a read takes what
there is. It can echo what is sent, as a shared wire does, stop accepting bytes after a number of
them, and fail every transfer.
-/
namespace SplitKeyboard.Bench

structure ScriptedDevice where
  incoming : List UInt8 := []
  sent : List UInt8 := []
  /-- Whether sent bytes come back, ahead of everything that is waiting. -/
  echo : Bool := false
  writeLimit : Option Nat := none
  fault : Bool := false
  writes : Nat := 0
  reads : Nat := 0
  skips : Nat := 0
  clears : Nat := 0
  deriving DecidableEq

namespace ScriptedDevice

def queue (device : ScriptedDevice) (bytes : List UInt8) : ScriptedDevice :=
  { device with incoming := device.incoming ++ bytes }

def calls (device : ScriptedDevice) : Nat :=
  device.writes + device.reads + device.skips + device.clears

def accepted (device : ScriptedDevice) (data : List UInt8) : List UInt8 :=
  match device.writeLimit with
  | none => data
  | some limit => data.take limit

/-- Takes the bytes that it can, and loops them back if it echoes. -/
def accept (device : ScriptedDevice) (data : List UInt8) : ScriptedDevice :=
  let taken := device.accepted data
  { device with
    writeLimit := device.writeLimit.map (· - taken.length)
    sent := device.sent ++ taken
    incoming := if device.echo then taken ++ device.incoming else device.incoming }

/-- How the device answers. A call is counted even if it fails. -/
def answer : SerialAnswer ScriptedDevice := fun request device =>
  match request with
  | .write data _ =>
    let device := { device with writes := device.writes + 1 }
    if device.fault then (none, device)
    else (some (device.accepted data).length, device.accept data)
  | .read count _ =>
    let device := { device with reads := device.reads + 1 }
    if device.fault then (⟨[], none⟩, device)
    else
      let bytes := device.incoming.take count
      (⟨bytes, some bytes.length⟩, { device with incoming := device.incoming.drop count })
  | .skip count _ =>
    let device := { device with skips := device.skips + 1 }
    if device.fault then (none, device)
    else
      (some (min count device.incoming.length),
        { device with incoming := device.incoming.drop count })
  | .clear => ((), { device with clears := device.clears + 1, incoming := [] })

end ScriptedDevice
end SplitKeyboard.Bench
