import SplitKeyboard.SharedState
import SplitKeyboard.TypingSpeed

/-!
Scanning a row of switches. Every key that has gone down since the last scan is one press; some
keys also change the state that both halves show.
-/
namespace SplitKeyboard

def keyCount : Nat := 7

def layerKey : Nat := 0

def shiftKey : Nat := 1

def capsKey : Nat := 2

structure KeyScan where
  down : List Bool := List.replicate keyCount false
  speed : TypingSpeed := {}
  shared : SharedState := {}
  deriving DecidableEq

namespace KeyScan

/-- Takes note of one key. Only a change counts, and only going down is a press; each press of the
caps key flips caps lock. -/
def observe (now : Millis) (scan : KeyScan) (key : Nat) (isDown : Bool) : KeyScan :=
  if scan.down.getD key false = isDown then scan
  else
    let scan := { scan with down := scan.down.set key isDown }
    if !isDown then scan
    else
      { scan with
        speed := scan.speed.press now
        shared :=
          if key = capsKey then
            { scan.shared with leds := scan.shared.leds ^^^ SharedState.capsLock }
          else scan.shared }

def observeFrom (now : Millis) : (key : Nat) → List Bool → KeyScan → KeyScan
  | _, [], scan => scan
  | key, isDown :: rest, scan => observeFrom now (key + 1) rest (scan.observe now key isDown)

/-- One scan of all keys. The layer and the modifiers follow the keys as they are now. -/
def scan (before : KeyScan) (now : Millis) (levels : List Bool) : KeyScan :=
  let after := observeFrom now 0 (levels.take keyCount) before
  { after with
    shared := { after.shared with
      layer := if after.down.getD layerKey false then 1 else 0
      mods := if after.down.getD shiftKey false then SharedState.leftShift else 0 } }

end KeyScan
end SplitKeyboard
