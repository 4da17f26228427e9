import SplitKeyboard.Serial

/-!
Dropping bytes on a device that can only read: they are read in chunks and forgotten. The time is
split over the chunks in proportion to their sizes, so that the whole skip waits no longer than one
call may.
-/
namespace SplitKeyboard

structure ReadRequest where
  count : Nat
  timeout : UInt32
  deriving DecidableEq

def skipChunk : Nat := 16

/-- The part of `budget` that goes to `chunk` of the `left` bytes still to skip. -/
def chunkShare (budget : UInt32) (chunk left : Nat) : UInt32 :=
  UInt32.ofNat (budget.toNat * chunk / left)

/-- Skips `left` more bytes by reading them. It ends at a fault, or at the first chunk that comes
back short. The last chunk is given all the time that is left. -/
def skipByReading (left skipped : Nat) (budget : UInt32) :
    Program ReadRequest (fun _ => Option Nat) (Option Nat) :=
  if left = 0 then .done (some skipped)
  else
    let chunk := min left skipChunk
    let share := chunkShare budget chunk left
    .ask ⟨chunk, share⟩ fun
      | none => .done none
      | some got =>
        if _short : got < chunk then .done (some (skipped + got))
        else skipByReading (left - got) (skipped + got) (budget - share)
termination_by left
decreasing_by
  have : 0 < skipChunk := by decide
  omega

end SplitKeyboard
