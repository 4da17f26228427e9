import SplitKeyboard.Program

/-!
What an engine can ask of a serial device. Every call but `clear` carries the time that it may wait,
and a count short of what was asked for means that the time ran out. A device may also report a
fault, and it may answer any count at all: engines that are written over these requests take
nothing about the device for granted.
-/
namespace SplitKeyboard

inductive SerialRequest where
  | write (data : List UInt8) (timeout : UInt32)
  | read (count : Nat) (timeout : UInt32)
  /-- Drops incoming bytes, such as the echo of what was just sent. -/
  | skip (count : Nat) (timeout : UInt32)
  | clear
  deriving DecidableEq

/-- What a read put at the front of the caller's buffer, and the count that it reported: none on a
fault, which can come after some bytes. -/
structure Delivery where
  bytes : List UInt8
  count : Option Nat
  deriving DecidableEq

/-- The reply to each request. A write or skip replies with its count, or none on a fault. -/
abbrev SerialRequest.Reply : SerialRequest → Type
  | .write _ _ => Option Nat
  | .read _ _ => Delivery
  | .skip _ _ => Option Nat
  | .clear => Unit

/-- A program whose only requests are calls on a device. -/
abbrev SerialProgram (α : Type) := Program SerialRequest SerialRequest.Reply α

/-- Surroundings with state `σ` that answer as a device does. -/
abbrev SerialAnswer (σ : Type) := (request : SerialRequest) → σ → request.Reply × σ

/-- Puts `bytes` at the front of `buffer`, as far as the buffer reaches. The length stays. -/
def overlay (bytes buffer : List UInt8) : List UInt8 :=
  bytes.take buffer.length ++ buffer.drop bytes.length

theorem length_overlay (bytes buffer : List UInt8) :
    (overlay bytes buffer).length = buffer.length := by
  simp [overlay]; omega

theorem overlay_nil (buffer : List UInt8) : overlay [] buffer = buffer := by simp [overlay]

theorem overlay_of_length_eq {bytes buffer : List UInt8} (same : bytes.length = buffer.length) :
    overlay bytes buffer = bytes := by
  simp [overlay, ← same]

/-- Bytes for which the buffer has no room make no difference. -/
theorem overlay_take {bytes buffer : List UInt8} {size : Nat} (same : buffer.length = size) :
    overlay (bytes.take size) buffer = overlay bytes buffer := by
  subst same
  simp only [overlay, List.take_take, Nat.min_self, List.length_take]
  rcases Nat.le_total buffer.length bytes.length with long | short
  · rw [Nat.min_eq_left long, List.drop_of_length_le (Nat.le_refl _), List.drop_of_length_le long]
  · rw [Nat.min_eq_right short]

def SerialRequest.timeout : SerialRequest → UInt32
  | .write _ timeout => timeout
  | .read _ timeout => timeout
  | .skip _ timeout => timeout
  | .clear => 0

end SplitKeyboard
