/-!
The serial line between the halves: its speed and whether both directions share one wire.
-/
namespace SplitKeyboard

inductive Speed where
  | baud460800
  | baud230400
  | baud115200
  | baud57600
  | baud38400
  | baud19200
  deriving DecidableEq

namespace Speed

def all : List Speed := [baud460800, baud230400, baud115200, baud57600, baud38400, baud19200]

instance : Inhabited Speed := ⟨baud230400⟩

def baudrate : Speed → Nat
  | baud460800 => 460800
  | baud230400 => 230400
  | baud115200 => 115200
  | baud57600 => 57600
  | baud38400 => 38400
  | baud19200 => 19200

/-- The selection number, which is also how a speed is sent. -/
def index (speed : Speed) : Fin 6 :=
  match speed with
  | baud460800 => 0
  | baud230400 => 1
  | baud115200 => 2
  | baud57600 => 3
  | baud38400 => 4
  | baud19200 => 5

def ofIndex (index : Fin 6) : Speed :=
  match index with
  | 0 => baud460800
  | 1 => baud230400
  | 2 => baud115200
  | 3 => baud57600
  | 4 => baud38400
  | 5 => baud19200

def ofIndex? (index : Nat) : Option Speed := all[index]?

/-- The speed with exactly this rate; near misses have none. -/
def ofBaudrate? (rate : Nat) : Option Speed := all.find? fun speed => speed.baudrate == rate

def name (speed : Speed) : String := "Baud" ++ toString speed.baudrate

theorem ofIndex_index (speed : Speed) : ofIndex speed.index = speed := by cases speed <;> rfl

theorem ofBaudrate?_baudrate (speed : Speed) : ofBaudrate? speed.baudrate = some speed := by
  cases speed <;> rfl

end Speed

/-- The wiring: on a half-duplex line both directions share one wire, so whatever a half sends
comes back to it as an echo. -/
inductive Duplex where
  | half
  | full
  deriving DecidableEq

namespace Duplex

instance : Inhabited Duplex := ⟨half⟩

def name : Duplex → String
  | half => "Half"
  | full => "Full"

def index : Duplex → Fin 2
  | half => 0
  | full => 1

def ofIndex : Fin 2 → Duplex
  | 0 => half
  | 1 => full

theorem ofIndex_index (duplex : Duplex) : ofIndex duplex.index = duplex := by cases duplex <;> rfl

end Duplex

structure Line where
  speed : Speed := default
  duplex : Duplex := default
  deriving DecidableEq

inductive LineError where
  /-- One shared wire needs an open-drain output, and a push-pull one would fight the other half. -/
  | halfDuplexUnsupported
  deriving DecidableEq

def LineError.message : LineError → String
  | halfDuplexUnsupported => "HalfDuplexUnsupported"

/-- A push-pull UART can drive only a line with a wire for each direction. -/
def Line.check (line : Line) : Except LineError Unit :=
  match line.duplex with
  | .full => .ok ()
  | .half => .error .halfDuplexUnsupported

/-- The rate to set up a UART with, once the line is one that it can drive. -/
def Line.uartRate (line : Line) : Except LineError Nat :=
  line.check.map fun _ => line.speed.baudrate

end SplitKeyboard
