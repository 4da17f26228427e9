import SplitKeyboard.Clock

/-!
Typing speed in words per minute. Presses are counted in ten half-second buckets that together
cover the last five seconds; five presses make a word. The best estimate held right after a press
is kept.
-/
namespace SplitKeyboard

structure TypingSpeed where
  buckets : List Nat := List.replicate 10 0
  head : Nat := 0
  /-- When the bucket that is being filled began; none before the first call. -/
  headStart : Option Millis := none
  best : Nat := 0
  deriving DecidableEq

namespace TypingSpeed

def bucketCount : Nat := 10

def bucketLength : Nat := 500

def window : Nat := bucketLength * bucketCount

def bucketLimit : Nat := 65535

def presses (speed : TypingSpeed) : Nat := speed.buckets.foldr (· + ·) 0

/-- Words per minute of the presses in all buckets, at most 255. -/
def estimate (speed : TypingSpeed) : Nat := min 255 (speed.presses * 60000 / (5 * window))

/-- Moves on by one bucket, which starts empty. -/
def roll (speed : TypingSpeed) : TypingSpeed :=
  let head := (speed.head + 1) % bucketCount
  { speed with head, buckets := speed.buckets.set head 0 }

def rollMany : Nat → TypingSpeed → TypingSpeed
  | 0, speed => speed
  | steps + 1, speed => rollMany steps speed.roll

/-- Brings the buckets up to `now`. After a gap as long as the window nothing counts any more and
the bucket being filled begins now. -/
def advance (speed : TypingSpeed) (now : Millis) : TypingSpeed :=
  match speed.headStart with
  | none => { speed with headStart := some now }
  | some start =>
    let elapsed := (Millis.since start now).toNat
    if window ≤ elapsed then
      { speed with buckets := List.replicate bucketCount 0, headStart := some now }
    else
      let steps := elapsed / bucketLength
      { rollMany steps speed with headStart := some (start + UInt32.ofNat (steps * bucketLength)) }

def bump (speed : TypingSpeed) : TypingSpeed :=
  let count := speed.buckets.getD speed.head 0
  { speed with buckets := speed.buckets.set speed.head (min (count + 1) bucketLimit) }

def press (speed : TypingSpeed) (now : Millis) : TypingSpeed :=
  let after := (speed.advance now).bump
  { after with best := max after.best after.estimate }

/-- Counts several presses that are evenly spaced, the first at `now`. -/
def pressMany (speed : TypingSpeed) (now every : Millis) : (times : Nat) → TypingSpeed
  | 0 => speed
  | times + 1 => (speed.press now).pressMany (now + every) every times

/-- The estimate at `now`. Looking also moves the buckets on. -/
def measure (speed : TypingSpeed) (now : Millis) : Nat × TypingSpeed :=
  let after := speed.advance now
  (after.estimate, after)

end TypingSpeed
end SplitKeyboard
