import Mathlib.Data.List.Chain
import Mathlib.Data.List.Count
import Mathlib.Tactic.Common
import SplitKeyboard.Proofs.TypingSpeed

/-!
The estimate of the typing speed counts a window of five seconds. On a clock that does not run
backwards the ten buckets, seen newest first, hold the presses of the ten half seconds up to the
present one, each at most up to the limit of a bucket. The limit is far above what the estimate can
show, so it is never seen, and neither is the wrap of the clock.
-/
namespace SplitKeyboard

namespace SpeedCall

variable {Time Other : Type}

def time : SpeedCall Time → Time
  | press now => now
  | look now => now

def map (f : Time → Other) : SpeedCall Time → SpeedCall Other
  | press now => press (f now)
  | look now => look (f now)

end SpeedCall

namespace TypingSpeed

/-- When a call that follows one whose bucket began at `start` finds its own bucket to have begun.
Buckets follow one another every half second, until the window has passed without a call: then a
new one begins with the call. -/
def nextStart (start : Option Nat) (now : Nat) : Nat :=
  match start with
  | none => now
  | some start =>
    if start + window ≤ now then now else start + (now - start) / bucketLength * bucketLength

/-- When the bucket of the last of these calls began. -/
def lastStart (calls : List (SpeedCall Nat)) : Option Nat :=
  calls.foldl (fun start call => some (nextStart start call.time)) none

/-- When the bucket began that contains `now`, after these calls. -/
def bucketStart (calls : List (SpeedCall Nat)) (now : Nat) : Nat := nextStart (lastStart calls) now

/-- When keys were pressed. -/
def pressTimes (calls : List (SpeedCall Nat)) : List Nat :=
  calls.filterMap fun
    | .press now => some now
    | .look _ => none

/-- The words per minute of presses in five seconds, as far as they can be shown. -/
def wordsPerMinute (presses : Nat) : Nat := min 255 (12 * presses / 5)

/-- The calls come in the order of their times, each less than half a turn of the clock after the
last. -/
def Paced (calls : List (SpeedCall Nat)) : Prop :=
  calls.IsChain fun call next => call.time ≤ next.time ∧ next.time < call.time + 2147483648

/-- The counter after calls at these times, of which it is told modulo 2^32. -/
def after (calls : List (SpeedCall Nat)) : TypingSpeed :=
  play (calls.map (SpeedCall.map UInt32.ofNat)) {}

section Ring

/-- The counts in the buckets, newest first. -/
def recent (speed : TypingSpeed) : List Nat :=
  (speed.buckets.take (speed.head + 1)).reverse ++ (speed.buckets.drop (speed.head + 1)).reverse

variable {speed : TypingSpeed}

theorem sum_recent (speed : TypingSpeed) : speed.recent.sum = speed.presses := by
  rw [recent, List.sum_append, List.sum_reverse, List.sum_reverse, ← List.sum_append,
    List.take_append_drop, presses_eq_sum]

/-- A new bucket comes to the front and the oldest one is given up. -/
theorem Round.recent_roll (round : speed.Round) :
    speed.roll.recent = 0 :: speed.recent.dropLast := by
  obtain ⟨length, head_lt, -⟩ := round
  simp only [bucketCount] at length head_lt
  by_cases last : speed.head = 9
  · -- The ring is entered again at its beginning.
    have wrapped : (speed.head + 1) % bucketCount = 0 := by rw [last]; rfl
    obtain ⟨count, counts, split⟩ := List.exists_cons_of_length_pos (l := speed.buckets) (by omega)
    have full : (count :: counts).length ≤ speed.head + 1 := by rw [← split]; omega
    simp only [recent, TypingSpeed.roll, wrapped, split, List.set_cons_zero, Nat.zero_add,
      List.take_succ_cons, List.take_zero, List.drop_succ_cons, List.drop_zero,
      List.take_of_length_le full, List.drop_of_length_le full, List.reverse_cons, List.reverse_nil,
      List.nil_append, List.append_nil, List.dropLast_concat, List.cons_append]
  · have inside : speed.head + 1 < speed.buckets.length := by omega
    have next : (speed.head + 1) % bucketCount = speed.head + 1 :=
      Nat.mod_eq_of_lt (by simp only [bucketCount]; omega)
    have kept : (speed.buckets.set (speed.head + 1) 0).take (speed.head + 1) =
        speed.buckets.take (speed.head + 1) := by
      rw [List.take_set_of_le (Nat.le_refl _)]
    have fresh : (speed.buckets.set (speed.head + 1) 0).take (speed.head + 1 + 1) =
        speed.buckets.take (speed.head + 1) ++ [0] := by
      rw [List.take_succ_eq_append_getElem (by rwa [List.length_set]), kept, List.getElem_set_self]
    have older : (speed.buckets.set (speed.head + 1) 0).drop (speed.head + 1 + 1) =
        speed.buckets.drop (speed.head + 1 + 1) := by
      rw [List.drop_set_of_lt (Nat.lt_succ_self _)]
    have oldest : speed.buckets.drop (speed.head + 1) =
        speed.buckets[speed.head + 1] :: speed.buckets.drop (speed.head + 1 + 1) :=
      List.drop_eq_getElem_cons inside
    simp only [recent, TypingSpeed.roll, next, fresh, older]
    rw [oldest, List.reverse_cons, ← List.append_assoc, List.dropLast_concat, List.reverse_append]
    rfl

/-- A press is counted in the newest bucket, as long as there is room. -/
theorem Round.recent_bump (round : speed.Round) : ∃ newest older,
    speed.recent = newest :: older ∧ speed.bump.recent = min (newest + 1) bucketLimit :: older := by
  obtain ⟨length, head_lt, -⟩ := round
  have inside : speed.head < speed.buckets.length := by rw [length]; exact head_lt
  have counted : speed.buckets.getD speed.head 0 = speed.buckets[speed.head] :=
    by rw [List.getD_eq_getElem?_getD, List.getElem?_eq_getElem inside, Option.getD_some]
  have front (counts : List Nat) (there : speed.head < counts.length) :
      (counts.take (speed.head + 1)).reverse =
        counts[speed.head] :: (counts.take speed.head).reverse := by
    rw [List.take_succ_eq_append_getElem there, List.reverse_append]
    rfl
  refine ⟨speed.buckets[speed.head], (speed.buckets.take speed.head).reverse ++
    (speed.buckets.drop (speed.head + 1)).reverse, ?_, ?_⟩
  · rw [recent, front _ inside, List.cons_append]
  · have there : speed.head < speed.bump.buckets.length := by
      rwa [TypingSpeed.bump, List.length_set]
    have same : speed.bump.head = speed.head := rfl
    rw [recent, same, front _ there]
    simp only [TypingSpeed.bump, counted, List.getElem_set_self, List.cons_append,
      List.take_set_of_le (Nat.le_refl _), List.drop_set_of_lt (Nat.lt_succ_self _)]

end Ring

/-- The presses that the bucket of this age can hold, of a ring whose newest bucket began at
`start`. -/
def countAt (start : Nat) (presses : List Nat) (age : Nat) : Nat :=
  presses.countP fun time =>
    start ≤ time + age * bucketLength ∧ time + age * bucketLength < start + bucketLength

/-- The buckets hold these presses, the newest one those since `start`. -/
structure Holds (speed : TypingSpeed) (start : Nat) (presses : List Nat) : Prop where
  round : speed.Round
  counts : speed.recent = (List.range bucketCount).map (min bucketLimit ∘ countAt start presses)
  latest : ∀ time ∈ presses, time < start + bucketLength

section Holds

variable {speed : TypingSpeed} {start now : Nat} {presses : List Nat}

theorem map_ages {α : Type} (f : Nat → α) :
    (List.range bucketCount).map f = f 0 :: (List.range 9).map (f ∘ Nat.succ) := by
  rw [bucketCount, List.range_succ_eq_map, List.map_cons, List.map_map]

/-- Only the buckets and the place of the newest one matter. -/
theorem Holds.congr {other : TypingSpeed} (holds : speed.Holds start presses)
    (buckets : other.buckets = speed.buckets) (head : other.head = speed.head) :
    other.Holds start presses := by
  have recent : other.recent = speed.recent := by
    rw [TypingSpeed.recent, TypingSpeed.recent, buckets, head]
  constructor
  case round => exact holds.round.congr buckets head
  case counts => exact recent.trans holds.counts
  case latest => exact holds.latest

/-- Half a second later each bucket is older by one. -/
theorem countAt_succ (start : Nat) (presses : List Nat) (age : Nat) :
    countAt (start + bucketLength) presses (age + 1) = countAt start presses age := by
  refine List.countP_congr fun time _ => ?_
  simp only [decide_eq_true_eq, Nat.add_mul]
  omega

theorem countAt_eq_zero {age : Nat}
    (outside : ∀ time ∈ presses, time + age * bucketLength < start ∨
      start + bucketLength ≤ time + age * bucketLength) : countAt start presses age = 0 := by
  refine List.countP_eq_zero.mpr fun time member => ?_
  have beside := outside time member
  simp only [decide_eq_true_eq]
  omega

theorem Holds.roll (holds : speed.Holds start presses) :
    speed.roll.Holds (start + bucketLength) presses := by
  constructor
  case round => exact holds.round.roll
  case counts =>
    have fresh : countAt (start + bucketLength) presses 0 = 0 := by
      refine countAt_eq_zero fun time member => ?_
      have latest := holds.latest time member
      omega
    have older : (min bucketLimit ∘ countAt (start + bucketLength) presses) ∘ Nat.succ =
        min bucketLimit ∘ countAt start presses := by
      funext age
      exact congrArg (min bucketLimit) (countAt_succ start presses age)
    have given_up : speed.recent.dropLast =
        (List.range 9).map (min bucketLimit ∘ countAt start presses) := by
      rw [holds.counts, bucketCount, List.range_succ, List.map_append, List.map_singleton,
        List.dropLast_concat]
    rw [holds.round.recent_roll, given_up, map_ages, older, Function.comp_apply, fresh]
    rfl
  case latest =>
    intro time member
    have latest := holds.latest time member
    omega

theorem Holds.rollMany (steps : Nat) (holds : speed.Holds start presses) :
    (rollMany steps speed).Holds (start + steps * bucketLength) presses := by
  induction steps generalizing speed start with
  | zero => rwa [Nat.zero_mul]
  | succ steps ih =>
    have later :
        start + (steps + 1) * bucketLength = start + bucketLength + steps * bucketLength := by
      rw [Nat.add_mul, Nat.one_mul]
      omega
    rw [later]
    exact ih holds.roll

/-- Empty buckets hold presses that all are too old for them. -/
theorem holds_cleared (round : speed.Round)
    (cleared : speed.buckets = List.replicate bucketCount 0)
    (old : ∀ time ∈ presses, time + 9 * bucketLength < now) : speed.Holds now presses := by
  constructor
  case round => exact round
  case counts =>
    have none_left : ∀ age ∈ List.range bucketCount,
        (min bucketLimit ∘ countAt now presses) age = 0 := by
      intro age member
      have young : age ≤ 9 := Nat.le_of_lt_succ (List.mem_range.mp member)
      have reach := Nat.mul_le_mul_right bucketLength young
      rw [Function.comp_apply, countAt_eq_zero, Nat.min_zero]
      intro time member
      have gone := old time member
      omega
    rw [List.map_congr_left none_left, List.map_const', List.length_range, recent, cleared,
      List.take_replicate, List.drop_replicate, List.reverse_replicate, List.reverse_replicate,
      List.replicate_append_replicate]
    have head_lt := round.head_lt
    congr 1
    omega
  case latest =>
    intro time member
    have gone := old time member
    omega

theorem holds_new (now : Nat) : Holds {} now [] :=
  holds_cleared round_new rfl (List.forall_mem_nil _)

/-- A press in the newest bucket. -/
theorem Holds.bump (holds : speed.Holds start presses) (begun : start ≤ now)
    (still : now < start + bucketLength) : speed.bump.Holds start (presses ++ [now]) := by
  constructor
  case round => exact holds.round.bump
  case counts =>
    obtain ⟨newest, older, before, bumped⟩ := holds.round.recent_bump
    have counts := holds.counts
    have here : countAt start (presses ++ [now]) 0 = countAt start presses 0 + 1 := by
      rw [countAt, List.countP_append, List.countP_singleton, if_pos]
      · rfl
      · rw [decide_eq_true_iff]
        omega
    have there : ∀ age, countAt start (presses ++ [now]) (age + 1) =
        countAt start presses (age + 1) := by
      intro age
      rw [countAt, List.countP_append, List.countP_singleton, if_neg]
      · rfl
      · rw [decide_eq_true_iff, Nat.add_mul]
        omega
    have others : (min bucketLimit ∘ countAt start (presses ++ [now])) ∘ Nat.succ =
        (min bucketLimit ∘ countAt start presses) ∘ Nat.succ := by
      funext age
      exact congrArg (min bucketLimit) (there age)
    rw [before, map_ages] at counts
    obtain ⟨rfl, rfl⟩ := List.cons.inj counts
    rw [bumped, map_ages, others, Function.comp_apply, Function.comp_apply, here]
    congr 1
    omega
  case latest =>
    intro time member
    rcases List.mem_append.mp member with earlier | last
    · exact holds.latest time earlier
    · rwa [List.mem_singleton.mp last]

/-- Terms that are cut off at a limit give the same sum, if that is cut off there too. -/
theorem min_sum_map_min (limit : Nat) (counts : List Nat) :
    min limit (counts.map (min limit)).sum = min limit counts.sum := by
  induction counts with
  | nil => rfl
  | cons count counts ih =>
    rw [List.map_cons, List.sum_cons, List.sum_cons]
    omega

/-- The buckets up to an age together hold what was pressed since the oldest of them began. -/
theorem sum_countAt (latest : ∀ time ∈ presses, time < start + bucketLength) (ages : Nat) :
    ((List.range ages).map (countAt start presses)).sum =
      presses.countP fun time => start + bucketLength ≤ time + ages * bucketLength := by
  induction ages with
  | zero =>
    refine (List.countP_eq_zero.mpr fun time member => ?_).symm
    have latest := latest time member
    rw [decide_eq_true_iff]
    omega
  | succ ages ih =>
    rw [List.range_succ, List.map_append, List.sum_append, ih, List.map_singleton,
      List.sum_singleton, List.countP_eq_countP_filter_add presses
        (fun time => start + bucketLength ≤ time + (ages + 1) * bucketLength)
        fun time => start + bucketLength ≤ time + ages * bucketLength, List.countP_filter,
      List.countP_filter]
    congr 1
    · refine List.countP_congr fun time _ => ?_
      simp only [Bool.and_eq_true, decide_eq_true_eq, Nat.add_mul]
      omega
    · refine List.countP_congr fun time member => ?_
      have latest := latest time member
      simp only [Bool.and_eq_true, Bool.not_eq_true', decide_eq_true_eq, decide_eq_false_iff_not,
        Nat.add_mul]
      omega

/-- The estimate is that of all presses in the window, for a bucket that is full alone shows the
most. -/
theorem Holds.estimate_eq (holds : speed.Holds start presses) :
    speed.estimate =
      wordsPerMinute (presses.countP fun time => start ≤ time + (window - bucketLength)) := by
  have whole := sum_countAt holds.latest bucketCount
  have since :
      (presses.countP fun time => start + bucketLength ≤ time + bucketCount * bucketLength) =
        presses.countP fun time => start ≤ time + (window - bucketLength) := by
    refine List.countP_congr fun time _ => ?_
    rw [decide_eq_true_iff, decide_eq_true_iff]
    simp only [window, bucketLength, bucketCount]
    omega
  rw [since] at whole
  have cut := min_sum_map_min bucketLimit ((List.range bucketCount).map (countAt start presses))
  rw [List.map_map, ← holds.counts, sum_recent, whole] at cut
  simp only [estimate, wordsPerMinute, window, bucketLength, bucketCount, bucketLimit] at cut ⊢
  omega

end Holds

/-- A counter that has been brought up to `now`, in a bucket that began at `start`. -/
structure Current (speed : TypingSpeed) (start now : Nat) (presses : List Nat) : Prop where
  headStart : speed.headStart = some (UInt32.ofNat start)
  begun : start ≤ now
  still : now < start + bucketLength
  holds : speed.Holds start presses

section Current

variable {speed : TypingSpeed} {start last now : Nat} {presses : List Nat}

/-- Times less than a turn of the clock apart are told apart by the clock. -/
theorem toNat_since (later : start ≤ now) (near : now < start + UInt32.size) :
    (Millis.since (UInt32.ofNat start) (UInt32.ofNat now)).toNat = now - start := by
  have turn : UInt32.size = 4294967296 := rfl
  rw [turn] at near
  rw [Millis.since_toNat, UInt32.toNat_ofNat', UInt32.toNat_ofNat', turn]
  omega

theorem current_first (now : Nat) :
    Current (advance {} (UInt32.ofNat now)) (nextStart none now) now [] := by
  constructor
  case headStart => rfl
  case begun => exact Nat.le_refl now
  case still => exact Nat.lt_add_of_pos_right (by decide)
  case holds => exact (holds_new now).congr rfl rfl

/-- Time passes, but less than half a turn of the clock. -/
theorem Current.advance (current : speed.Current start last presses) (later : last ≤ now)
    (near : now < last + 2147483648) :
    (speed.advance (UInt32.ofNat now)).Current (nextStart (some start) now) now presses := by
  obtain ⟨headStart, begun, still, holds⟩ := current
  have turn : UInt32.size = 4294967296 := rfl
  have half : bucketLength = 500 := rfl
  have begun_before : start ≤ now := by omega
  have elapsed := toNat_since begun_before (by omega : now < start + UInt32.size)
  unfold TypingSpeed.advance nextStart
  simp only [headStart, elapsed]
  by_cases gap : start + window ≤ now
  · have long : window ≤ now - start := by omega
    rw [if_pos gap, if_pos long]
    constructor
    case headStart => rfl
    case begun => exact Nat.le_refl now
    case still => omega
    case holds =>
      refine holds_cleared (holds.round.cleared.congr rfl rfl) rfl fun time member => ?_
      have latest := holds.latest time member
      simp only [window, bucketCount] at gap
      omega
  · have short : ¬ window ≤ now - start := by omega
    rw [if_neg gap, if_neg short]
    have whole := Nat.div_mul_le_self (now - start) bucketLength
    have rest := Nat.lt_div_mul_add (a := now - start) (b := bucketLength) (by decide)
    constructor
    case headStart => exact congrArg some (UInt32.ofNat_add _ _).symm
    case begun => omega
    case still => omega
    case holds => exact (holds.rollMany ((now - start) / bucketLength)).congr rfl rfl

/-- A press of a key when the counter is up to date. -/
theorem Current.bump (current : speed.Current start now presses) (best : Nat) :
    { speed.bump with best }.Current start now (presses ++ [now]) := by
  have counted := current.holds.bump current.begun current.still
  exact ⟨current.headStart, current.begun, current.still, counted.congr rfl rfl⟩

end Current

section Runs

variable {calls : List (SpeedCall Nat)} {call : SpeedCall Nat}

theorem lastStart_concat (calls : List (SpeedCall Nat)) (call : SpeedCall Nat) :
    lastStart (calls ++ [call]) = some (bucketStart calls call.time) := by
  rw [lastStart, List.foldl_append]
  rfl

theorem after_concat (calls : List (SpeedCall Nat)) (call : SpeedCall Nat) :
    after (calls ++ [call]) = (after calls).act (call.map UInt32.ofNat) := by
  rw [after, List.map_append, play_append]
  rfl

/-- Any call finds the counter as it should be at its time. -/
theorem current_advance (paced : Paced (calls ++ [call])) :
    ((after calls).advance (UInt32.ofNat call.time)).Current (bucketStart calls call.time) call.time
      (pressTimes calls) := by
  induction calls using List.reverseRecOn generalizing call with
  | nil => exact current_first call.time
  | append_singleton calls last ih =>
    rw [Paced, List.isChain_append] at paced
    obtain ⟨earlier, _, together⟩ := paced
    obtain ⟨later, near⟩ := together last List.getLast?_concat call rfl
    have before := ih earlier
    have start : bucketStart (calls ++ [last]) call.time =
        nextStart (some (bucketStart calls last.time)) call.time := by
      rw [bucketStart, lastStart_concat]
    rw [start, after_concat, pressTimes, List.filterMap_append]
    cases last with
    | press time => exact (before.bump _).advance later near
    | look time =>
      rw [List.filterMap_cons_none rfl, List.filterMap_nil, List.append_nil]
      exact before.advance later near

/-- In a paced run nothing was pressed later than the last call. -/
theorem pressTimes_le (paced : Paced (calls ++ [call])) :
    ∀ time ∈ pressTimes calls, time ≤ call.time := by
  intro time member
  have ordered : ((calls ++ [call]).map SpeedCall.time).IsChain (· ≤ ·) :=
    List.isChain_map_of_isChain SpeedCall.time (fun _ _ => And.left) paced
  have sorted := List.pairwise_map.mp (List.isChain_iff_pairwise.mp ordered)
  obtain ⟨press, there, pressed⟩ := List.mem_filterMap.mp member
  have before := (List.pairwise_append.mp sorted).2.2 press there call (List.mem_singleton_self _)
  cases press with
  | press now =>
    cases pressed
    exact before
  | look now => cases pressed

theorem wordsPerMinute_mono {few many : Nat} (le : few ≤ many) :
    wordsPerMinute few ≤ wordsPerMinute many := by
  rw [wordsPerMinute, wordsPerMinute]
  omega

/-- A look at the estimate counts the presses since 4500 ms before its bucket began, so all those of
the last 4500 ms and none that are 5000 ms old. -/
theorem measure_window {now : Nat} (paced : Paced (calls ++ [.look now])) :
    let start := bucketStart calls now
    let reading := ((after calls).measure (UInt32.ofNat now)).1
    let pressed := fun (within : Nat → Bool) => (pressTimes calls).countP within
    start ≤ now ∧ now < start + 500 ∧
      reading = wordsPerMinute (pressed fun time => start ≤ time + 4500) ∧
      wordsPerMinute (pressed fun time => now ≤ time + 4500 ∧ time ≤ now) ≤ reading ∧
      reading ≤ wordsPerMinute (pressed fun time => now < time + 5000 ∧ time ≤ now) := by
  intro start reading pressed
  obtain ⟨_, begun, still, holds⟩ := current_advance paced
  have estimate : reading = wordsPerMinute (pressed fun time => start ≤ time + 4500) :=
    holds.estimate_eq
  refine ⟨begun, still, estimate, ?_, ?_⟩
  · rw [estimate]
    refine wordsPerMinute_mono (List.countP_mono_left fun time _ recent => ?_)
    have recent := of_decide_eq_true recent
    have begun : start ≤ now := begun
    exact decide_eq_true (by omega)
  · rw [estimate]
    refine wordsPerMinute_mono (List.countP_mono_left fun time member counted => ?_)
    have counted := of_decide_eq_true counted
    have still : now < start + 500 := still
    have before : time ≤ now := pressTimes_le paced time member
    exact decide_eq_true (by omega)

/-- The clock wraps between the second press and the third. The look comes 4900 ms after the first
press, in a bucket that began 4500 ms after it. -/
theorem measure_window_wrapped :
    let calls : List (SpeedCall Nat) := [.press 4294966000, .press 4294967200, .press 4294967400]
    Paced (calls ++ [.look 4294970900]) ∧ bucketStart calls 4294970900 = 4294970500 ∧
      ((after calls).measure (UInt32.ofNat 4294970900)).1 = wordsPerMinute 3 := by
  intro calls
  have paced : Paced (calls ++ [.look 4294970900]) := by
    simp only [Paced, calls, List.cons_append, List.nil_append, List.isChain_cons_cons,
      SpeedCall.time]
    decide
  obtain ⟨_, _, reading, _⟩ := measure_window paced
  exact ⟨paced, rfl, reading.trans rfl⟩

end Runs

end TypingSpeed
end SplitKeyboard
