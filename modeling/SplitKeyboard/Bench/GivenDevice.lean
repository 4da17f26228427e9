import SplitKeyboard.Serial.Skip

/-!
A device on the test bench whose calls have outcomes that are given one by one. It can misbehave in
any way that a real one might: its counts need not fit what was asked. It has no skip of its own,
so it skips by reading.
-/
namespace SplitKeyboard.Bench

inductive WriteOutcome where
  | all
  | count (n : Nat)
  | fault
  deriving DecidableEq

inductive ReadOutcome where
  /-- Delivers as many of these bytes as the reader asked for; the others are lost. -/
  | bytes (bytes : List UInt8)
  | fault
  deriving DecidableEq

/-- What is left of the given outcomes, and the calls made so far, newest first. -/
structure GivenDevice where
  writes : List WriteOutcome := []
  reads : List ReadOutcome := []
  calls : List SerialRequest := []

namespace GivenDevice

def note (device : GivenDevice) (request : SerialRequest) : GivenDevice :=
  { device with calls := request :: device.calls }

/-- Writes go through in full once the given outcomes are used up. -/
def write (device : GivenDevice) (data : List UInt8) (timeout : UInt32) :
    Option Nat × GivenDevice :=
  let device := device.note (.write data timeout)
  match device.writes with
  | [] => (some data.length, device)
  | .all :: rest => (some data.length, { device with writes := rest })
  | .count n :: rest => (some n, { device with writes := rest })
  | .fault :: rest => (none, { device with writes := rest })

/-- Reads find nothing once the given outcomes are used up. -/
def read (device : GivenDevice) (count : Nat) (timeout : UInt32) : Delivery × GivenDevice :=
  let device := device.note (.read count timeout)
  match device.reads with
  | [] => (⟨[], some 0⟩, device)
  | .bytes bytes :: rest =>
    (⟨bytes.take count, some (bytes.take count).length⟩, { device with reads := rest })
  | .fault :: rest => (⟨[], none⟩, { device with reads := rest })

/-- Skips by reading, within the time of one call. -/
def skip (device : GivenDevice) (count : Nat) (timeout : UInt32) : Option Nat × GivenDevice :=
  (skipByReading count 0 timeout).run
    (fun request device =>
      let (delivery, device) := device.read request.count request.timeout
      (delivery.count, device)) device

def answer : SerialAnswer GivenDevice := fun request device =>
  match request with
  | .write data timeout => device.write data timeout
  | .read count timeout => device.read count timeout
  | .skip count timeout => device.skip count timeout
  | .clear => ((), device.note .clear)

end GivenDevice
end SplitKeyboard.Bench
