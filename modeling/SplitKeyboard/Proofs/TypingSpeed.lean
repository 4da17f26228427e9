import Mathlib.Algebra.GroupWithZero.Nat
import Mathlib.Tactic.Common
import SplitKeyboard.TypingSpeed

/-!
A typing-speed counter under calls at any readings of the clock. Letting time pass only takes
presses out of the buckets, so between two presses the estimate never rises, and the best estimate
held right after a press bounds everything that has ever been read. A press counts as one more, in a
ring of buckets that keeps its shape whatever the clock says.
-/
namespace SplitKeyboard

/-- A press that is counted, or a look at the estimate, and when it comes. -/
inductive SpeedCall (Time : Type) where
  | press (now : Time)
  | look (now : Time)
  deriving DecidableEq

namespace TypingSpeed

def act (speed : TypingSpeed) : SpeedCall Millis → TypingSpeed
  | .press now => speed.press now
  | .look now => (speed.measure now).2

def play (calls : List (SpeedCall Millis)) (speed : TypingSpeed) : TypingSpeed :=
  calls.foldl act speed

/-- The estimates that are held right after each of the presses. -/
def pressEstimates (speed : TypingSpeed) : List (SpeedCall Millis) → List Nat
  | [] => []
  | .press now :: calls => (speed.press now).estimate :: pressEstimates (speed.press now) calls
  | .look now :: calls => pressEstimates (speed.measure now).2 calls

/-- The estimates that the looks return. -/
def readings (speed : TypingSpeed) : List (SpeedCall Millis) → List Nat
  | [] => []
  | .press now :: calls => readings (speed.press now) calls
  | .look now :: calls => (speed.measure now).1 :: readings (speed.measure now).2 calls

variable {speed : TypingSpeed}

theorem play_append (first rest : List (SpeedCall Millis)) (speed : TypingSpeed) :
    play (first ++ rest) speed = play rest (play first speed) :=
  List.foldl_append

section Advance

theorem presses_eq_sum (speed : TypingSpeed) : speed.presses = speed.buckets.sum := rfl

theorem sum_set_add_getD {counts : List Nat} {i : Nat} (inside : i < counts.length) (n : Nat) :
    (counts.set i n).sum + counts.getD i 0 = counts.sum + n := by
  induction counts generalizing i with
  | nil => cases inside
  | cons count counts ih =>
    cases i with
    | zero =>
      simp only [List.set_cons_zero, List.sum_cons, List.getD_cons_zero]
      omega
    | succ i =>
      have rest := ih (Nat.lt_of_succ_lt_succ inside)
      simp only [List.set_cons_succ, List.sum_cons, List.getD_cons_succ]
      omega

theorem presses_roll_le (speed : TypingSpeed) : speed.roll.presses ≤ speed.presses := by
  rw [presses_eq_sum, presses_eq_sum, roll]
  dsimp only
  by_cases inside : (speed.head + 1) % bucketCount < speed.buckets.length
  · have emptied := sum_set_add_getD inside 0
    omega
  · have kept := List.set_eq_of_length_le (a := 0) (Nat.le_of_not_lt inside)
    exact Nat.le_of_eq (congrArg List.sum kept)

theorem presses_rollMany_le (steps : Nat) (speed : TypingSpeed) :
    (rollMany steps speed).presses ≤ speed.presses := by
  induction steps generalizing speed with
  | zero => exact Nat.le_refl _
  | succ steps ih => exact Nat.le_trans (ih speed.roll) (presses_roll_le speed)

theorem best_rollMany (steps : Nat) (speed : TypingSpeed) :
    (rollMany steps speed).best = speed.best := by
  induction steps generalizing speed with
  | zero => rfl
  | succ steps ih => exact ih speed.roll

/-- Whatever the clock says, letting time pass adds no press. -/
theorem presses_advance_le (speed : TypingSpeed) (now : Millis) :
    (speed.advance now).presses ≤ speed.presses := by
  unfold advance
  split
  · exact Nat.le_refl _
  · next start _ =>
    dsimp only
    split
    · rw [presses_eq_sum, List.sum_replicate_nat, Nat.mul_zero]
      exact Nat.zero_le _
    · exact presses_rollMany_le _ speed

theorem best_advance (speed : TypingSpeed) (now : Millis) :
    (speed.advance now).best = speed.best := by
  unfold advance
  split
  · rfl
  · next start _ =>
    dsimp only
    split
    · rfl
    · exact best_rollMany _ speed

theorem estimate_mono {other : TypingSpeed} (fewer : speed.presses ≤ other.presses) :
    speed.estimate ≤ other.estimate := by
  have scaled := Nat.mul_le_mul_right 60000 fewer
  have shared : speed.presses * 60000 / (5 * window) ≤ other.presses * 60000 / (5 * window) :=
    Nat.div_le_div_right scaled
  rw [estimate, estimate]
  omega

theorem estimate_advance_le (speed : TypingSpeed) (now : Millis) :
    (speed.advance now).estimate ≤ speed.estimate :=
  estimate_mono (presses_advance_le speed now)

end Advance

section Ring

/-- The ring has its ten buckets, each within its limit, and one of them is being filled. -/
structure Round (speed : TypingSpeed) : Prop where
  length : speed.buckets.length = bucketCount
  head_lt : speed.head < bucketCount
  counts_le : ∀ count ∈ speed.buckets, count ≤ bucketLimit

theorem round_new : Round {} := by
  constructor
  case length => rfl
  case head_lt => decide
  case counts_le => decide

/-- Only the buckets and the place of the newest one matter. -/
theorem Round.congr {other : TypingSpeed} (round : speed.Round)
    (buckets : other.buckets = speed.buckets) (head : other.head = speed.head) : other.Round := by
  constructor
  case length => exact buckets ▸ round.length
  case head_lt => exact head ▸ round.head_lt
  case counts_le => exact buckets ▸ round.counts_le

theorem Round.set (round : speed.Round) (i : Nat) {count : Nat} (within : count ≤ bucketLimit) :
    Round { speed with buckets := speed.buckets.set i count } := by
  constructor
  case length => exact List.length_set.trans round.length
  case head_lt => exact round.head_lt
  case counts_le =>
    intro other member
    rcases List.mem_or_eq_of_mem_set member with old | rfl
    · exact round.counts_le other old
    · exact within

theorem Round.cleared (round : speed.Round) :
    Round { speed with buckets := List.replicate bucketCount 0 } := by
  constructor
  case length => exact List.length_replicate
  case head_lt => exact round.head_lt
  case counts_le =>
    intro count member
    rw [List.eq_of_mem_replicate member]
    exact Nat.zero_le _

theorem Round.roll (round : speed.Round) : speed.roll.Round := by
  have emptied := round.set ((speed.head + 1) % bucketCount) (Nat.zero_le bucketLimit)
  constructor
  case length => exact emptied.length
  case head_lt => exact Nat.mod_lt _ (by decide)
  case counts_le => exact emptied.counts_le

theorem Round.rollMany (steps : Nat) (round : speed.Round) : (rollMany steps speed).Round := by
  induction steps generalizing speed with
  | zero => exact round
  | succ steps ih => exact ih round.roll

theorem Round.advance (round : speed.Round) (now : Millis) : (speed.advance now).Round := by
  unfold TypingSpeed.advance
  split
  · exact round.congr rfl rfl
  · next start _ =>
    dsimp only
    split
    · exact round.cleared.congr rfl rfl
    · exact (round.rollMany _).congr rfl rfl

theorem Round.bump (round : speed.Round) : speed.bump.Round :=
  round.set _ (Nat.min_le_right _ _)

theorem Round.act (round : speed.Round) (call : SpeedCall Millis) : (speed.act call).Round := by
  cases call with
  | press now => exact (round.advance now).bump.congr rfl rfl
  | look now => exact round.advance now

theorem Round.play (round : speed.Round) (calls : List (SpeedCall Millis)) :
    (play calls speed).Round :=
  List.foldlRecOn calls TypingSpeed.act round fun _ round call _ => round.act call

/-- A press counts as one more, as long as there is room in the bucket that is being filled. -/
theorem Round.presses_bump (round : speed.Round) :
    speed.bump.presses =
      speed.presses + if speed.buckets.getD speed.head 0 < bucketLimit then 1 else 0 := by
  have inside : speed.head < speed.buckets.length := by
    rw [round.length]
    exact round.head_lt
  have filled : speed.buckets.getD speed.head 0 ≤ bucketLimit := by
    rw [List.getD_eq_getElem?_getD, List.getElem?_eq_getElem inside, Option.getD_some]
    exact round.counts_le _ (List.getElem_mem inside)
  have counted := sum_set_add_getD inside (min (speed.buckets.getD speed.head 0 + 1) bucketLimit)
  rw [presses_eq_sum, presses_eq_sum, TypingSpeed.bump]
  dsimp only
  split
  · omega
  · omega

end Ring

section Best

theorem best_press (speed : TypingSpeed) (now : Millis) :
    (speed.press now).best = max speed.best (speed.press now).estimate := by
  have kept : ((speed.advance now).bump).best = speed.best := best_advance speed now
  rw [← kept]
  rfl

/-- The best estimate is at least the present one. -/
def Bounded (speed : TypingSpeed) : Prop := speed.estimate ≤ speed.best

theorem bounded_new : Bounded {} := Nat.zero_le _

theorem bounded_press (speed : TypingSpeed) (now : Millis) : (speed.press now).Bounded := by
  rw [Bounded, best_press]
  exact Nat.le_max_right _ _

theorem Bounded.measure (bounded : speed.Bounded) (now : Millis) :
    (speed.measure now).2.Bounded := by
  calc (speed.advance now).estimate
    _ ≤ speed.estimate := estimate_advance_le speed now
    _ ≤ speed.best := bounded
    _ = (speed.advance now).best := (best_advance speed now).symm

theorem best_act_le (speed : TypingSpeed) (call : SpeedCall Millis) :
    speed.best ≤ (speed.act call).best := by
  cases call with
  | press now =>
    rw [act, best_press]
    exact Nat.le_max_left _ _
  | look now => exact Nat.le_of_eq (best_advance speed now).symm

theorem best_play_le (calls : List (SpeedCall Millis)) (speed : TypingSpeed) :
    speed.best ≤ (play calls speed).best := by
  induction calls generalizing speed with
  | nil => exact Nat.le_refl _
  | cons call calls ih => exact Nat.le_trans (best_act_le speed call) (ih _)

theorem max?_getD_cons (count : Nat) (counts : List Nat) :
    (count :: counts).max?.getD 0 = max count (counts.max?.getD 0) := by
  rw [List.max?_cons]
  cases counts.max? with
  | none => exact (Nat.max_zero count).symm
  | some most => rfl

/-- From any state on, the best estimate is the largest of the one before and those at presses. -/
theorem best_play (calls : List (SpeedCall Millis)) (speed : TypingSpeed) :
    (play calls speed).best = max speed.best ((pressEstimates speed calls).max?.getD 0) := by
  induction calls generalizing speed with
  | nil => exact (Nat.max_zero _).symm
  | cons call calls ih =>
    cases call with
    | press now =>
      rw [pressEstimates, max?_getD_cons, ← Nat.max_assoc, ← best_press]
      exact ih (speed.press now)
    | look now =>
      have kept : (speed.measure now).2.best = speed.best := best_advance speed now
      rw [pressEstimates, ← kept]
      exact ih (speed.measure now).2

theorem Bounded.readings_le (bounded : speed.Bounded) (calls : List (SpeedCall Millis)) :
    ∀ reading ∈ readings speed calls, reading ≤ (play calls speed).best := by
  induction calls generalizing speed with
  | nil => exact List.forall_mem_nil _
  | cons call calls ih =>
    cases call with
    | press now => exact ih (bounded_press speed now)
    | look now =>
      have after := bounded.measure now
      refine List.forall_mem_cons.mpr ⟨?_, ih after⟩
      exact Nat.le_trans after (best_play_le calls _)

/-- Whatever the clock says at each call, the best estimate of a session is the largest one held
right after a press, it never falls, and nothing that was read exceeds it. Each press counts as one
more before its estimate is taken, unless its bucket is full. -/
theorem best_bounds (calls : List (SpeedCall Millis)) :
    (play calls {}).best = (pressEstimates {} calls).max?.getD 0 ∧
      (∀ before after, calls = before ++ after → (play before {}).best ≤ (play calls {}).best) ∧
      (∀ before now after, calls = before ++ .press now :: after →
        let held := (play before {}).advance now
        let counted := play (before ++ [.press now]) {}
        counted.presses = held.presses +
            (if held.buckets.getD held.head 0 < bucketLimit then 1 else 0) ∧
          counted.best = max (play before {}).best counted.estimate) ∧
      ∀ reading ∈ readings {} calls, reading ≤ (play calls {}).best := by
  refine ⟨?_, ?_, ?_, bounded_new.readings_le calls⟩
  · rw [best_play]
    exact Nat.zero_max _
  · rintro before after rfl
    rw [play_append]
    exact best_play_le after _
  · rintro before now after - held counted
    have pressed : counted = (play before {}).press now := play_append before [.press now] {}
    rw [pressed]
    exact ⟨((round_new.play before).advance now).presses_bump, best_press _ now⟩

/-- The clock runs backwards between the two presses, which the counter takes for a long gap. -/
example : let calls := [.press 7000, .look 7000, .press 100, .look 9000]
    pressEstimates {} calls = [2, 2] ∧ readings {} calls = [2, 0] ∧ (play calls {}).best = 2 := by
  decide

end Best

end TypingSpeed
end SplitKeyboard
