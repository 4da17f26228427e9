import SplitKeyboard.Proofs.Uart.Stream

/-!
What a transfer takes out of its input: what has come by the deadline, in order and no more than was
asked for, at the first moment at which there is no reason to wait. All of it is told by the input,
the deadline and the number of bytes. So the pieces in which they are asked for make no difference,
and neither do those in which the stream hands them over.
-/
namespace SplitKeyboard.Uart

section Items

variable {lasting : Bool} {count : Nat} {items : List Item}

/-- What a transfer of `count` bytes uses up of these items. -/
def taken (lasting : Bool) : (count : Nat) → List Item → List Item
  | 0, _ => []
  | _ + 1, [] => []
  | count + 1, .byte value :: items => .byte value :: taken lasting count items
  | _ + 1, .ending :: _ => if lasting then [] else [.ending]
  | _ + 1, .fault :: _ => [.fault]

/-- A transfer of `count` bytes comes upon a fault. -/
def broken : (count : Nat) → List Item → Bool
  | 0, _ => false
  | _ + 1, [] => false
  | count + 1, .byte _ :: items => broken count items
  | _ + 1, .ending :: _ => false
  | _ + 1, .fault :: _ => true

/-- What a transfer of `count` bytes delivers of these items. -/
def delivered (count : Nat) (items : List Item) : Delivery where
  bytes := (readable items).take count
  count := if broken count items then none else some (min count (readable items).length)

/-- A delivery that follows other bytes in the same buffer. -/
def behind (front : List UInt8) (delivery : Delivery) : Delivery where
  bytes := front ++ delivery.bytes
  count := delivery.count.map (front.length + ·)

theorem behind_behind (first second : List UInt8) (delivery : Delivery) :
    behind first (behind second delivery) = behind (first ++ second) delivery := by
  simp [behind, Function.comp_def, Nat.add_assoc]

theorem behind_nothing (front : List UInt8) :
    behind front ⟨[], some 0⟩ = ⟨front, some front.length⟩ := by
  simp [behind]

theorem behind_nil (delivery : Delivery) : behind [] delivery = delivery := by
  simp [behind]

theorem delivered_sound (sound : broken count items = false) :
    delivered count items =
      ⟨(readable items).take count, some (min count (readable items).length)⟩ := by
  simp [delivered, sound]

theorem delivered_count_none :
    (delivered count items).count = none ↔ broken count items = true := by
  simp [delivered]

theorem delivered_zero (items : List Item) : delivered 0 items = ⟨[], some 0⟩ := by
  simp [delivered, broken]

theorem delivered_nil (count : Nat) : delivered count [] = ⟨[], some 0⟩ := by
  cases count <;> simp [delivered, broken, readable]

theorem delivered_ending (count : Nat) (items : List Item) :
    delivered count (.ending :: items) = ⟨[], some 0⟩ := by
  cases count <;> simp [delivered, broken, readable]

theorem delivered_fault (more : 0 < count) : delivered count (.fault :: items) = ⟨[], none⟩ := by
  obtain ⟨count, rfl⟩ := Nat.exists_eq_add_one.mpr more
  simp [delivered, broken, readable]

theorem delivered_cons (count : Nat) (byte : UInt8) (items : List Item) :
    delivered (count + 1) (.byte byte :: items) = behind [byte] (delivered count items) := by
  by_cases damaged : broken count items = true
  · simp [delivered, behind, broken, readable, damaged]
  · simp [delivered, behind, broken, readable, damaged, Nat.add_comm 1]

theorem delivered_append (bytes : List UInt8) (count : Nat) (items : List Item) :
    delivered (bytes.length + count) (bytes.map .byte ++ items) =
      behind bytes (delivered count items) := by
  induction bytes with
  | nil => simp [behind, delivered]
  | cons byte bytes ih =>
    rw [List.length_cons, Nat.add_right_comm, List.map_cons, List.cons_append, delivered_cons, ih,
      behind_behind]
    rfl

theorem taken_append (lasting : Bool) (bytes : List UInt8) (count : Nat) (items : List Item) :
    taken lasting (bytes.length + count) (bytes.map .byte ++ items) =
      bytes.map .byte ++ taken lasting count items := by
  induction bytes with
  | nil => rw [List.map_nil, List.nil_append, List.length_nil, Nat.zero_add, List.nil_append]
  | cons byte bytes ih =>
    rw [List.length_cons, Nat.add_right_comm, List.map_cons, List.cons_append, taken, ih,
      List.cons_append]

/-- Without a fault, the bytes that are delivered are used up, and at most an end of the input. -/
theorem taken_sound (lasting : Bool) (sound : broken count items = false) :
    ∃ reported, (reported = [] ∨ reported = [.ending]) ∧
      taken lasting count items = ((readable items).take count).map .byte ++ reported := by
  fun_induction broken count items with
  | case1 items => exact ⟨[], .inl rfl, by simp [taken]⟩
  | case2 count => exact ⟨[], .inl rfl, by simp [taken, readable]⟩
  | case3 count byte items ih =>
    obtain ⟨reported, kind, taken_rest⟩ := ih sound
    exact ⟨reported, kind, by simp [taken, readable, taken_rest]⟩
  | case4 count items =>
    cases lasting with
    | false => exact ⟨[.ending], .inr rfl, by simp [taken, readable]⟩
    | true => exact ⟨[], .inl rfl, by simp [taken, readable]⟩
  | case5 => cases sound

end Items

namespace StreamView

/-- A transfer of `count` bytes has no reason to wait any longer: they have come, or an end or a
fault has, or the deadline. -/
def Settled (before : StreamView) (count deadline time : Nat) : Prop :=
  count ≤ (readable (before.arrived time)).length ∨ .ending ∈ before.arrived time ∨
    .fault ∈ before.arrived time ∨ time = deadline

/-- What a transfer of up to `count` bytes does with the time and with the input: it ends at the
first moment at which it is settled, and uses up nothing beyond what has come by the deadline. -/
structure Takes (lasting : Bool) (count deadline : Nat) (before after : StreamView) : Prop where
  begins : before.now ≤ after.now
  settled : before.Settled count deadline after.now
  earliest : ∀ time, before.now ≤ time → time < after.now → ¬ before.Settled count deadline time
  rest : ∀ time, after.now ≤ time →
    before.arrived time = taken lasting count (before.arrived deadline) ++ after.arrived time

variable {lasting : Bool} {count deadline : Nat} {before middle after : StreamView}

/-- The transfers of one input leave it in one state and end at one time. -/
theorem Takes.unique {other : StreamView} (takes : before.Takes lasting count deadline after)
    (also : before.Takes lasting count deadline other) :
    after.now = other.now ∧ ∀ time, after.now ≤ time → after.arrived time = other.arrived time := by
  have same : after.now = other.now := by
    rcases Nat.lt_trichotomy after.now other.now with sooner | same | later
    · exact absurd takes.settled (also.earliest _ takes.begins sooner)
    · exact same
    · exact absurd also.settled (takes.earliest _ also.begins later)
  refine ⟨same, fun time come => ?_⟩
  apply List.append_cancel_left
  rw [← takes.rest time come, ← also.rest time (same ▸ come)]

theorem takes_nothing (lasting : Bool) (deadline : Nat) (before : StreamView) :
    before.Takes lasting 0 deadline before := by
  constructor
  case begins => exact Nat.le_refl _
  case settled => exact .inl (Nat.zero_le _)
  case earliest =>
    intro time here earlier
    omega
  case rest => exact fun _ _ => rfl

/-- Nothing is settled as long as nothing has come. -/
theorem not_settled {time : Nat} (more : 0 < count) (silent : before.arrived time = [])
    (early : time < deadline) : ¬ before.Settled count deadline time := by
  rw [Settled, silent]
  rintro (enough | ended | broken | late)
  · exact Nat.not_le_of_lt more enough
  · cases ended
  · cases broken
  · exact Nat.ne_of_lt early late

section Some

variable (more : 0 < count) (inTime : before.now ≤ deadline)
include more inTime

theorem takes_timedOut (now : after.now = max before.now deadline)
    (silent : ∀ time, before.now ≤ time → time ≤ after.now → before.arrived time = [])
    (rest : ∀ time, after.now ≤ time → after.arrived time = before.arrived time) :
    before.Takes lasting count deadline after := by
  have at_deadline : after.now = deadline := by omega
  constructor
  case begins => omega
  case settled => exact .inr (.inr (.inr at_deadline))
  case earliest =>
    intro time here earlier
    exact not_settled more (silent time here (by omega)) (by omega)
  case rest =>
    obtain ⟨count, rfl⟩ := Nat.exists_eq_add_one.mpr more
    intro time later
    rw [rest time later, silent deadline inTime (Nat.le_of_eq at_deadline.symm)]
    rfl

/-- An end or a fault settles the transfer when it is the first to come. -/
theorem takes_stop {stop : Item} {front : List Item} (kind : stop = .ending ∨ stop = .fault)
    (uses : ∀ more items, taken lasting (more + 1) (stop :: items) = front)
    (first : before.First deadline after.now)
    (rest : ∀ time, after.now ≤ time → ∃ items, before.arrived time = stop :: items ∧
      stop :: items = front ++ after.arrived time) :
    before.Takes lasting count deadline after := by
  have still := first.inTime
  constructor
  case begins => exact first.begins
  case settled =>
    obtain ⟨items, here, _⟩ := rest after.now (Nat.le_refl _)
    rw [Settled, here]
    rcases kind with rfl | rfl
    · exact .inr (.inl (List.mem_cons_self ..))
    · exact .inr (.inr (.inl (List.mem_cons_self ..)))
  case earliest =>
    intro time here earlier
    exact not_settled more (first.earliest time here earlier) (by omega)
  case rest =>
    obtain ⟨count, rfl⟩ := Nat.exists_eq_add_one.mpr more
    intro time later
    obtain ⟨items, here, left⟩ := rest time later
    obtain ⟨others, there, _⟩ := rest deadline (by omega)
    rw [here, left, there, uses]

end Some

/-- Bytes that come first, and then what is taken of the rest. -/
theorem Takes.after_bytes {bytes : List UInt8} (inTime : before.now ≤ deadline) (some : bytes ≠ [])
    (first : before.First deadline middle.now)
    (front : ∀ time, middle.now ≤ time →
      before.arrived time = bytes.map .byte ++ middle.arrived time)
    (takes : middle.Takes lasting count deadline after) :
    before.Takes lasting (bytes.length + count) deadline after := by
  have still := first.inTime
  have more : 0 < bytes.length + count := by
    have positive := List.length_pos_iff.mpr some
    omega
  have settled_iff {time : Nat} (come : middle.now ≤ time) :
      before.Settled (bytes.length + count) deadline time ↔ middle.Settled count deadline time := by
    simp [Settled, front time come, readable_append]
  constructor
  case begins => exact Nat.le_trans first.begins takes.begins
  case settled => exact (settled_iff takes.begins).mpr takes.settled
  case earliest =>
    intro time here earlier
    rcases Nat.lt_or_ge time middle.now with waiting | come
    · exact not_settled more (first.earliest time here waiting) (by omega)
    · rw [settled_iff come]
      exact takes.earliest time come earlier
  case rest =>
    intro time later
    rw [front time (Nat.le_trans takes.begins later), front deadline (by omega), taken_append,
      takes.rest time later, List.append_assoc]

end StreamView
end SplitKeyboard.Uart
