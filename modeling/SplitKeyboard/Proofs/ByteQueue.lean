import Mathlib.Tactic.Common
import SplitKeyboard.ByteQueue

/-!
A byte queue seen as the list that it holds. On a ring that is not full a push appends, reads and
skips take from the front however the ring wraps, and only a push onto a full ring is counted.
-/
namespace SplitKeyboard.ByteQueue

/-- The ring is laid out within its buffer. -/
structure Valid (q : ByteQueue) : Prop where
  start_lt : q.start < q.capacity
  count_le : q.count ≤ q.capacity

variable {q : ByteQueue} {byte : UInt8} {n : Nat}

/-- The queued bytes one by one, around the end of the buffer. -/
theorem getElem?_toList (valid : q.Valid) (i : Nat) :
    q.toList[i]? = if i < q.count then q.buffer[(q.start + i) % q.capacity]? else none := by
  obtain ⟨start_lt, count_le⟩ := valid
  unfold capacity at start_lt count_le
  simp only [toList, capacity, List.getElem?_take, List.getElem?_append, List.length_drop,
    List.getElem?_drop]
  by_cases queued : i < q.count
  · rw [if_pos queued, if_pos queued]
    by_cases wraps : i < q.buffer.length - q.start
    · rw [if_pos wraps, Nat.mod_eq_of_lt (by omega)]
    · rw [if_neg wraps, if_pos (by omega), Nat.mod_eq_sub_mod (by omega),
        Nat.mod_eq_of_lt (by omega)]
      congr 1
      omega
  · rw [if_neg queued, if_neg queued]

theorem length_toList (valid : q.Valid) : q.toList.length = q.count := by
  obtain ⟨start_lt, count_le⟩ := valid
  unfold capacity at start_lt count_le
  simp only [toList, List.length_take, List.length_append, List.length_drop]
  omega

theorem valid_empty {capacity : Nat} (some_room : 0 < capacity) : (empty capacity).Valid :=
  ⟨by simpa [empty, ByteQueue.capacity] using some_room, Nat.zero_le _⟩

theorem toList_empty (capacity : Nat) : (empty capacity).toList = [] := by
  simp [empty, toList]

section Push

theorem Valid.push (valid : q.Valid) (byte : UInt8) : (q.push byte).2.Valid := by
  obtain ⟨start_lt, count_le⟩ := valid
  unfold ByteQueue.push
  split
  · exact ⟨start_lt, count_le⟩
  · next room =>
    refine ⟨by simpa [capacity] using start_lt, ?_⟩
    simp only [capacity, List.length_set] at *
    omega

@[simp] theorem capacity_push (q : ByteQueue) (byte : UInt8) :
    (q.push byte).2.capacity = q.capacity := by
  unfold push
  split
  · rfl
  · simp [capacity]

/-- A push appends, unless the ring is full. -/
theorem toList_push (valid : q.Valid) (byte : UInt8) :
    (q.push byte).2.toList = q.toList ++ [byte].take (q.capacity - q.count) := by
  have start_lt := valid.start_lt
  have count_le := valid.count_le
  by_cases full : q.count = q.capacity
  · have kept : (q.push byte).2.toList = q.toList := by
      unfold push
      rw [if_pos full]
      rfl
    rw [kept, full, Nat.sub_self, List.take_zero, List.append_nil]
  · have pushed := valid.push byte
    apply List.ext_getElem?
    intro i
    rw [getElem?_toList pushed, List.getElem?_append, length_toList valid, getElem?_toList valid,
      capacity_push, List.take_of_length_le (by simp; omega)]
    have wraps := Nat.mod_lt (q.start + i) (Nat.zero_lt_of_lt start_lt)
    have apart : i < q.count →
        (q.start + q.count) % q.capacity ≠ (q.start + i) % q.capacity := by
      intro queued same
      by_cases far : q.start + q.count < q.capacity
      · rw [Nat.mod_eq_of_lt far, Nat.mod_eq_of_lt (by omega)] at same
        omega
      · rw [Nat.mod_eq_sub_mod (by omega), Nat.mod_eq_of_lt (by omega)] at same
        by_cases near : q.start + i < q.capacity
        · rw [Nat.mod_eq_of_lt near] at same
          omega
        · rw [Nat.mod_eq_sub_mod (by omega), Nat.mod_eq_of_lt (by omega)] at same
          omega
    unfold push
    rw [if_neg full]
    simp only [List.getElem?_set]
    by_cases queued : i < q.count
    · rw [if_pos (by omega), if_neg (apart queued), if_pos queued, if_pos queued]
    · rw [if_neg queued]
      by_cases newest : i = q.count
      · subst newest
        have placed : (q.start + q.count) % q.capacity < q.buffer.length := wraps
        rw [if_pos (by omega), if_pos rfl, if_pos placed, Nat.sub_self]
        rfl
      · rw [if_neg (by omega), List.getElem?_eq_none (by simp; omega)]

theorem count_push (valid : q.Valid) (byte : UInt8) :
    (q.push byte).2.count = min (q.count + 1) q.capacity := by
  have count_le := valid.count_le
  unfold push
  split
  · simp only
    omega
  · simp only
    omega

/-- The count of lost bytes is still zero only if no byte was lost. -/
theorem overruns_push_eq_zero_iff :
    (q.push byte).2.overruns = 0 ↔ q.overruns = 0 ∧ q.count ≠ q.capacity := by
  unfold push
  split
  · next full =>
    refine ⟨?_, fun lossless => absurd full lossless.2⟩
    intro lossless
    simp only at lossless
    split at lossless
    · next most =>
      rw [most] at lossless
      exact absurd lossless (by decide)
    · next below =>
      have back : q.overruns = 0 - 1 := by
        rw [← lossless]
        exact (UInt32.add_sub_cancel _ _).symm
      exact absurd back below
  · next room => exact ⟨fun lossless => ⟨lossless, room⟩, fun both => both.1⟩

variable {data : List UInt8}

theorem Valid.pushEach (valid : q.Valid) (data : List UInt8) : (q.pushEach data).2.Valid := by
  induction data generalizing q with
  | nil => exact valid
  | cons byte rest ih => exact ih (valid.push byte)

@[simp] theorem capacity_pushEach (q : ByteQueue) (data : List UInt8) :
    (q.pushEach data).2.capacity = q.capacity := by
  induction data generalizing q with
  | nil => rfl
  | cons byte rest ih => exact (ih _).trans (capacity_push q byte)

/-- Of several bytes the first ones are taken, as many as there is room for. -/
theorem toList_pushEach (valid : q.Valid) (data : List UInt8) :
    (q.pushEach data).2.toList = q.toList ++ data.take (q.capacity - q.count) := by
  induction data generalizing q with
  | nil => simp [pushEach]
  | cons byte rest ih =>
    have count_le := valid.count_le
    have others := ih (valid.push byte)
    rw [toList_push valid, capacity_push, count_push valid, List.append_assoc] at others
    refine others.trans (congrArg (q.toList ++ ·) ?_)
    by_cases full : q.count = q.capacity
    · simp [full]
    · obtain ⟨room, some_room⟩ : ∃ room, q.capacity - q.count = room + 1 :=
        ⟨q.capacity - q.count - 1, by omega⟩
      have left : q.capacity - min (q.count + 1) q.capacity = room := by omega
      rw [some_room, left]
      simp

theorem overruns_pushEach_eq_zero_iff (valid : q.Valid) :
    (q.pushEach data).2.overruns = 0 ↔
      q.overruns = 0 ∧ data.length ≤ q.capacity - q.count := by
  induction data generalizing q with
  | nil => simp [pushEach]
  | cons byte rest ih =>
    have count_le := valid.count_le
    have others := ih (valid.push byte)
    rw [overruns_push_eq_zero_iff, capacity_push, count_push valid] at others
    apply others.trans
    simp only [List.length_cons]
    constructor
    · rintro ⟨⟨lossless, room⟩, fits⟩
      exact ⟨lossless, by omega⟩
    · rintro ⟨lossless, fits⟩
      exact ⟨⟨lossless, by omega⟩, by omega⟩

end Push

section Take

theorem Valid.advance (valid : q.Valid) (n : Nat) : (q.advance n).Valid := by
  obtain ⟨start_lt, count_le⟩ := valid
  refine ⟨Nat.mod_lt _ (Nat.zero_lt_of_lt start_lt), ?_⟩
  exact Nat.le_trans (Nat.sub_le _ _) count_le

@[simp] theorem count_advance (q : ByteQueue) (n : Nat) : (q.advance n).count = q.count - n := rfl

@[simp] theorem capacity_advance (q : ByteQueue) (n : Nat) :
    (q.advance n).capacity = q.capacity := rfl

/-- Moving the start drops from the front. -/
theorem toList_advance (valid : q.Valid) (n : Nat) : (q.advance n).toList = q.toList.drop n := by
  apply List.ext_getElem?
  intro i
  rw [getElem?_toList (valid.advance n), List.getElem?_drop, getElem?_toList valid, count_advance]
  by_cases queued : n + i < q.count
  · rw [if_pos (by omega), if_pos queued, capacity_advance]
    show q.buffer[((q.start + n) % q.capacity + i) % q.capacity]? = _
    rw [Nat.mod_add_mod, Nat.add_assoc]
  · rw [if_neg (by omega), if_neg queued]

/-- What lies before the end of the buffer is the front of the queue. -/
theorem take_contiguous {chunk : Nat} (within : chunk ≤ q.contiguous) :
    (q.buffer.drop q.start).take chunk = q.toList.take chunk := by
  unfold contiguous capacity at within
  rw [toList, List.take_take, Nat.min_eq_left (by omega), List.take_append_of_le_length]
  rw [List.length_drop]
  omega

/-- Once the part before the end of the buffer is taken, either nothing is left to take or all that
is left lies at the beginning of the buffer. -/
theorem contiguous_advance (valid : q.Valid) (n : Nat) :
    let chunk := min q.contiguous n
    min (q.advance chunk).count (n - chunk) ≤ (q.advance chunk).contiguous := by
  intro chunk
  have start_lt := valid.start_lt
  have count_le := valid.count_le
  by_cases all : n ≤ q.contiguous
  · have whole : chunk = n := Nat.min_eq_right all
    omega
  · have front : chunk = q.contiguous := Nat.min_eq_left (by omega)
    by_cases unwrapped : q.count ≤ q.capacity - q.start
    · have everything : chunk = q.count := front.trans (Nat.min_eq_left unwrapped)
      rw [count_advance]
      omega
    · have upto : chunk = q.capacity - q.start := front.trans (Nat.min_eq_right (by omega))
      have start : (q.advance chunk).start = 0 := by
        show (q.start + chunk) % q.capacity = 0
        rw [upto, Nat.add_sub_cancel' (Nat.le_of_lt start_lt), Nat.mod_self]
      rw [contiguous, start, count_advance, capacity_advance]
      omega

theorem contiguous_le (q : ByteQueue) : q.contiguous ≤ q.count := Nat.min_le_left _ _

/-- One piece is enough for what does not wrap. -/
theorem readRounds_one (valid : q.Valid) (enough : min q.count n ≤ q.contiguous) :
    (readRounds 1 q n).1 = q.toList.take n ∧ (readRounds 1 q n).2.toList = q.toList.drop n := by
  have length := length_toList valid
  have below := q.contiguous_le
  unfold readRounds
  split
  · next nothing =>
    rcases nothing with rfl | empty
    · exact ⟨rfl, rfl⟩
    · rw [empty, List.length_eq_zero_iff] at length
      simp [length]
  · simp only [readRounds, List.append_nil]
    rw [take_contiguous (Nat.min_le_left _ _), toList_advance valid]
    by_cases all : n ≤ q.contiguous
    · rw [Nat.min_eq_right all]
      exact ⟨rfl, rfl⟩
    · rw [Nat.min_eq_left (by omega), List.take_of_length_le (by omega),
        List.take_of_length_le (by omega), List.drop_of_length_le (by omega),
        List.drop_of_length_le (by omega)]
      exact ⟨rfl, rfl⟩

/-- A read takes from the front, also around the end of the buffer. -/
theorem read_eq (valid : q.Valid) (n : Nat) :
    (q.read n).1 = q.toList.take n ∧ (q.read n).2.toList = q.toList.drop n := by
  unfold read
  rw [readRounds]
  split
  · next nothing =>
    rcases nothing with rfl | empty
    · exact ⟨rfl, rfl⟩
    · have length := length_toList valid
      rw [empty, List.length_eq_zero_iff] at length
      simp [length]
  · obtain ⟨taken, left⟩ := readRounds_one (valid.advance _) (contiguous_advance valid n)
    have sum : min q.contiguous n + (n - min q.contiguous n) = n := by omega
    simp only [taken, left]
    rw [take_contiguous (Nat.min_le_left _ _), toList_advance valid, ← List.take_add,
      List.drop_drop, sum]
    exact ⟨rfl, rfl⟩

theorem readRounds_keeps (valid : q.Valid) (rounds n : Nat) :
    (readRounds rounds q n).2.Valid ∧ (readRounds rounds q n).2.capacity = q.capacity ∧
      (readRounds rounds q n).2.overruns = q.overruns := by
  induction rounds generalizing q n with
  | zero => exact ⟨valid, rfl, rfl⟩
  | succ rounds ih =>
    unfold readRounds
    split
    · exact ⟨valid, rfl, rfl⟩
    · exact ih (valid.advance _) _

theorem skipRounds_one (valid : q.Valid) (within : n ≤ q.contiguous) :
    (skipRounds 1 q n).toList = q.toList.drop n := by
  unfold skipRounds
  split
  · next nothing => rw [nothing, List.drop_zero]
  · rw [Nat.min_eq_right within]
    exact toList_advance valid n

theorem skipRounds_two (valid : q.Valid) (queued : n ≤ q.count) :
    (skipRounds 2 q n).toList = q.toList.drop n := by
  have rest := contiguous_advance valid n
  simp only at rest
  rw [skipRounds]
  split
  · next nothing => rw [nothing, List.drop_zero]
  · have below := q.contiguous_le
    have sum : min q.contiguous n + (n - min q.contiguous n) = n := by omega
    rw [count_advance, Nat.min_eq_right (by omega)] at rest
    simp only
    rw [skipRounds_one (valid.advance _) rest, toList_advance valid, List.drop_drop, sum]

/-- A skip drops from the front and tells how many bytes it dropped. -/
theorem skip_eq (valid : q.Valid) (n : Nat) :
    (q.skip n).1 = (q.toList.take n).length ∧ (q.skip n).2.toList = q.toList.drop n := by
  have length := length_toList valid
  have front : q.toList.drop n = q.toList.drop (min n q.count) := by
    rw [← length, ← List.drop_eq_drop_min]
  refine ⟨by rw [skip, List.length_take, length], ?_⟩
  rw [front]
  exact skipRounds_two valid (Nat.min_le_right _ _)

theorem skipRounds_keeps (valid : q.Valid) (rounds n : Nat) :
    (skipRounds rounds q n).Valid ∧ (skipRounds rounds q n).capacity = q.capacity ∧
      (skipRounds rounds q n).overruns = q.overruns := by
  induction rounds generalizing q n with
  | zero => exact ⟨valid, rfl, rfl⟩
  | succ rounds ih =>
    unfold skipRounds
    split
    · exact ⟨valid, rfl, rfl⟩
    · exact ih (valid.advance _) _

end Take

theorem valid_reset (valid : q.Valid) : q.reset.Valid :=
  ⟨Nat.zero_lt_of_lt valid.start_lt, Nat.zero_le _⟩

@[simp] theorem toList_reset (q : ByteQueue) : q.reset.toList = [] := by
  simp [reset, toList]

end SplitKeyboard.ByteQueue
