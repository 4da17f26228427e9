import SplitKeyboard.Bench.Wire
import SplitKeyboard.Proofs.ByteQueue

/-!
A wire together with a record of what has come to each of its ends, byte by byte and with the end
that sent it. The record only grows. What an end holds is the last part of its record, so a place in
the record names a byte for good, also once it has been taken.
-/
namespace SplitKeyboard

open Bench (Wire WireEnd)

/-- A byte that has come to an end of a wire, with the end that sent it. -/
structure Mark where
  sender : WireEnd
  byte : UInt8
  deriving DecidableEq

def marks (sender : WireEnd) (data : List UInt8) : List Mark := data.map fun byte => ⟨sender, byte⟩

@[simp] theorem length_marks (sender : WireEnd) (data : List UInt8) :
    (marks sender data).length = data.length := List.length_map _

@[simp] theorem map_byte_marks (sender : WireEnd) (data : List UInt8) :
    (marks sender data).map Mark.byte = data := by
  simp only [marks, List.map_map]
  exact List.map_id _

/-- A wire with all that has come to each end. Bytes lost to a full queue have not come. -/
structure Traffic where
  wire : Wire
  came : WireEnd → List Mark

namespace Bench.Wire

variable {wire : Wire} {side there : WireEnd} {data : List UInt8}

@[simp] theorem queue_setQueue_same (wire : Wire) (side : WireEnd) (queue : ByteQueue) :
    (wire.setQueue side queue).queue side = queue := by cases side <;> rfl

theorem queue_setQueue_other (wire : Wire) {side there : WireEnd} (apart : there ≠ side)
    (queue : ByteQueue) : (wire.setQueue side queue).queue there = wire.queue there := by
  cases side <;> cases there <;> first | rfl | exact absurd rfl apart

@[simp] theorem duplex_setQueue (wire : Wire) (side : WireEnd) (queue : ByteQueue) :
    (wire.setQueue side queue).duplex = wire.duplex := by cases side <;> rfl

@[simp] theorem setQueue_queue (wire : Wire) (side : WireEnd) :
    wire.setQueue side (wire.queue side) = wire := by cases side <;> rfl

/-- Where the bytes go that an end writes: to the other end, and on a half-duplex wire also back. -/
def reaches (wire : Wire) (side there : WireEnd) : Prop :=
  there = side.other ∨ wire.duplex = .half

instance (wire : Wire) (side there : WireEnd) : Decidable (wire.reaches side there) :=
  inferInstanceAs (Decidable (_ ∨ _))

theorem queue_writeByte (wire : Wire) (side there : WireEnd) (byte : UInt8) :
    (wire.writeByte side byte).queue there =
      if wire.reaches side there then ((wire.queue there).push byte).2 else wire.queue there := by
  obtain ⟨duplex, near, far⟩ := wire
  cases duplex <;> cases side <;> cases there <;>
    simp [writeByte, reaches, WireEnd.other, setQueue, queue]

@[simp] theorem duplex_writeByte (wire : Wire) (side : WireEnd) (byte : UInt8) :
    (wire.writeByte side byte).duplex = wire.duplex := by
  obtain ⟨duplex, near, far⟩ := wire
  cases duplex <;> cases side <;> rfl

@[simp] theorem duplex_write (wire : Wire) (side : WireEnd) (data : List UInt8) :
    (wire.write side data).duplex = wire.duplex := by
  induction data generalizing wire with
  | nil => rfl
  | cons byte rest ih => exact (ih _).trans (duplex_writeByte wire side byte)

/-- A write pushes its bytes, one after the other, at each end that they reach. -/
theorem queue_write (wire : Wire) (side there : WireEnd) (data : List UInt8) :
    (wire.write side data).queue there =
      if wire.reaches side there then ((wire.queue there).pushEach data).2
      else wire.queue there := by
  induction data generalizing wire with
  | nil => simp [write, ByteQueue.pushEach]
  | cons byte rest ih =>
    have same : (wire.writeByte side byte).reaches side there ↔ wire.reaches side there := by
      simp only [reaches, duplex_writeByte]
    have others := ih (wire.writeByte side byte)
    rw [queue_writeByte] at others
    apply others.trans
    by_cases arrives : wire.reaches side there
    · rw [if_pos (same.mpr arrives), if_pos arrives, if_pos arrives]
      rfl
    · rw [if_neg (arrives ∘ same.mp), if_neg arrives, if_neg arrives]

end Bench.Wire

namespace Traffic

def new (duplex : Duplex) : Traffic := ⟨.new duplex, fun _ => []⟩

def room (traffic : Traffic) (side : WireEnd) : Nat :=
  (traffic.wire.queue side).capacity - (traffic.wire.queue side).count

/-- The place in its record up to which an end has taken or dropped what came. -/
def heard (traffic : Traffic) (side : WireEnd) : Nat :=
  (traffic.came side).length - (traffic.wire.queue side).count

def write (traffic : Traffic) (side : WireEnd) (data : List UInt8) : Traffic where
  wire := traffic.wire.write side data
  came there := traffic.came there ++
    if traffic.wire.reaches side there then marks side (data.take (traffic.room there)) else []

/-- How much a read or skip has taken so far. -/
structure Progress where
  bytes : List UInt8 := []
  count : Nat := 0
  deriving DecidableEq

/-- One look of a call at the wire, for which it holds the lock. A write or a clear is over with it.
A read or skip takes what is there and is over if that is all it wants, or if it is not patient:
then its time has run out. -/
def attend (traffic : Traffic) (side : WireEnd) (patient : Bool) (progress : Progress) :
    (request : SerialRequest) → (request.Reply ⊕ Progress) × Traffic
  | .write data _ => (.inl (some data.length), traffic.write side data)
  | .read count _ =>
    let (bytes, wire) := traffic.wire.read side (count - progress.count)
    let progress := ⟨progress.bytes ++ bytes, progress.count + bytes.length⟩
    (if count ≤ progress.count ∨ ¬ patient then .inl ⟨progress.bytes, some progress.count⟩
      else .inr progress, { traffic with wire })
  | .skip count _ =>
    let (dropped, wire) := traffic.wire.skip side (count - progress.count)
    let progress := ⟨[], progress.count + dropped⟩
    (if count ≤ progress.count ∨ ¬ patient then .inl (some progress.count) else .inr progress,
      { traffic with wire })
  | .clear => (.inl (), { traffic with wire := traffic.wire.clear side })

/-- What is queued at each end is the last part of its record. -/
structure Sound (traffic : Traffic) : Prop where
  valid : ∀ side, (traffic.wire.queue side).Valid
  held : ∀ side, (traffic.wire.queue side).toList =
    ((traffic.came side).drop (traffic.heard side)).map Mark.byte

def Lossless (traffic : Traffic) : Prop := ∀ side, (traffic.wire.queue side).overruns = 0

theorem sound_new (duplex : Duplex) : (new duplex).Sound := by
  constructor
  · intro side
    cases side <;> exact ByteQueue.valid_empty (by decide)
  · intro side
    cases side <;> simp [new, Wire.new, Wire.queue, ByteQueue.toList_empty]

theorem capacity_new (duplex : Duplex) (side : WireEnd) :
    ((new duplex).wire.queue side).capacity = Bench.wireCapacity := by
  cases side <;> simp [new, Wire.new, Wire.queue, ByteQueue.empty, ByteQueue.capacity]

variable {traffic : Traffic} {side there : WireEnd}

theorem Sound.heard_add_count (sound : traffic.Sound) (side : WireEnd) :
    traffic.heard side + (traffic.wire.queue side).count = (traffic.came side).length := by
  have length := congrArg List.length (sound.held side)
  rw [ByteQueue.length_toList (sound.valid side), List.length_map, List.length_drop] at length
  unfold heard at *
  omega

theorem Sound.heard_le (sound : traffic.Sound) (side : WireEnd) :
    traffic.heard side ≤ (traffic.came side).length := by
  have := sound.heard_add_count side
  omega

section Write

theorem came_write (traffic : Traffic) (side there : WireEnd) (data : List UInt8) :
    (traffic.write side data).came there = traffic.came there ++
      if traffic.wire.reaches side there then marks side (data.take (traffic.room there))
      else [] := rfl

/-- A write makes no end hear anything. -/
theorem Sound.heard_write (sound : traffic.Sound) (side there : WireEnd) (data : List UInt8) :
    (traffic.write side data).heard there = traffic.heard there := by
  have before := sound.heard_add_count there
  have after := ByteQueue.length_toList ((sound.valid there).pushEach data)
  rw [ByteQueue.toList_pushEach (sound.valid there), List.length_append,
    ByteQueue.length_toList (sound.valid there)] at after
  show ((traffic.write side data).came there).length -
    ((traffic.wire.write side data).queue there).count = _
  rw [came_write, Wire.queue_write]
  split
  · rw [List.length_append, length_marks, ← after, room]
    omega
  · rw [List.append_nil]
    rfl

theorem Sound.write (sound : traffic.Sound) (side : WireEnd) (data : List UInt8) :
    (traffic.write side data).Sound := by
  constructor
  · intro there
    show ((traffic.wire.write side data).queue there).Valid
    rw [Wire.queue_write]
    split
    · exact (sound.valid there).pushEach data
    · exact sound.valid there
  · intro there
    rw [sound.heard_write, came_write, List.drop_append_of_le_length (sound.heard_le there),
      List.map_append, ← sound.held there]
    show ((traffic.wire.write side data).queue there).toList = _
    rw [Wire.queue_write]
    split
    · rw [ByteQueue.toList_pushEach (sound.valid there), map_byte_marks]
      rfl
    · exact (List.append_nil _).symm

/-- A write loses nothing just if nothing was lost before and there is room wherever it goes. -/
theorem Sound.lossless_write_iff (sound : traffic.Sound) {data : List UInt8} :
    (traffic.write side data).Lossless ↔ traffic.Lossless ∧
      ∀ there, traffic.wire.reaches side there → data.length ≤ traffic.room there := by
  have each : ∀ there, ((traffic.wire.write side data).queue there).overruns = 0 ↔
      (traffic.wire.queue there).overruns = 0 ∧
        (traffic.wire.reaches side there → data.length ≤ traffic.room there) := by
    intro there
    rw [Wire.queue_write]
    split
    · next arrives =>
      rw [ByteQueue.overruns_pushEach_eq_zero_iff (sound.valid there)]
      exact ⟨fun both => ⟨both.1, fun _ => both.2⟩, fun both => ⟨both.1, both.2 arrives⟩⟩
    · next passes =>
      exact ⟨fun lossless => ⟨lossless, fun arrives => absurd arrives passes⟩, fun both => both.1⟩
  constructor
  · intro lossless
    exact ⟨fun there => ((each there).mp (lossless there)).1,
      fun there => ((each there).mp (lossless there)).2⟩
  · rintro ⟨lossless, fits⟩ there
    exact (each there).mpr ⟨lossless there, fits there⟩

theorem capacity_write (traffic : Traffic) (side there : WireEnd) (data : List UInt8) :
    ((traffic.write side data).wire.queue there).capacity =
      (traffic.wire.queue there).capacity := by
  show ((traffic.wire.write side data).queue there).capacity = _
  rw [Wire.queue_write]
  split
  · exact ByteQueue.capacity_pushEach _ _
  · rfl

end Write

section Take

/-- Taking bytes from the front of a queue only moves the place up to which its end has heard. -/
structure Takes (traffic after : Traffic) (side : WireEnd) (count : Nat) : Prop where
  sound : after.Sound
  came : after.came = traffic.came
  duplex : after.wire.duplex = traffic.wire.duplex
  heard : after.heard side = traffic.heard side + count
  others : ∀ there, there ≠ side → after.wire.queue there = traffic.wire.queue there
  capacity : (after.wire.queue side).capacity = (traffic.wire.queue side).capacity
  overruns : (after.wire.queue side).overruns = (traffic.wire.queue side).overruns

theorem Sound.takes {queue : ByteQueue} {count : Nat} (sound : traffic.Sound)
    (valid : queue.Valid) (capacity : queue.capacity = (traffic.wire.queue side).capacity)
    (overruns : queue.overruns = (traffic.wire.queue side).overruns)
    (queued : count ≤ (traffic.wire.queue side).count)
    (left : queue.toList = (traffic.wire.queue side).toList.drop count) :
    traffic.Takes { traffic with wire := traffic.wire.setQueue side queue } side count := by
  have before := sound.heard_add_count side
  have after := congrArg List.length left
  rw [ByteQueue.length_toList valid, List.length_drop,
    ByteQueue.length_toList (sound.valid side)] at after
  have heard : Traffic.heard { traffic with wire := traffic.wire.setQueue side queue } side =
      traffic.heard side + count := by
    unfold Traffic.heard at *
    simp only [Wire.queue_setQueue_same]
    omega
  have others : ∀ there, there ≠ side →
      (traffic.wire.setQueue side queue).queue there = traffic.wire.queue there :=
    fun there apart => Wire.queue_setQueue_other _ apart _
  refine ⟨⟨?_, ?_⟩, rfl, Wire.duplex_setQueue _ _ _, heard, others, ?_, ?_⟩
  · intro there
    by_cases own : there = side
    · subst own
      rw [Wire.queue_setQueue_same]
      exact valid
    · rw [others there own]
      exact sound.valid there
  · intro there
    by_cases own : there = side
    · subst own
      rw [heard, ← List.drop_drop, List.map_drop, ← sound.held there, Wire.queue_setQueue_same,
        left]
    · have same : Traffic.heard { traffic with wire := traffic.wire.setQueue side queue } there =
          traffic.heard there := by
        unfold Traffic.heard
        simp only [others there own]
      rw [same, others there own]
      exact sound.held there
  · rw [Wire.queue_setQueue_same, capacity]
  · rw [Wire.queue_setQueue_same, overruns]

def unheard (traffic : Traffic) (side : WireEnd) : List UInt8 :=
  ((traffic.came side).drop (traffic.heard side)).map Mark.byte

variable {patient : Bool} {progress : Progress} {count : Nat} {timeout : UInt32}

theorem Sound.takes_read (sound : traffic.Sound) (side : WireEnd) (n : Nat) :
    (traffic.wire.read side n).1 = (traffic.unheard side).take n ∧
      traffic.Takes { traffic with wire := (traffic.wire.read side n).2 } side
        ((traffic.unheard side).take n).length := by
  have valid := sound.valid side
  obtain ⟨bytes, left⟩ := ByteQueue.read_eq valid n
  obtain ⟨still, capacity, overruns⟩ := ByteQueue.readRounds_keeps valid 2 n
  have unheard : (traffic.wire.queue side).toList = traffic.unheard side := sound.held side
  rw [unheard] at bytes
  refine ⟨bytes, sound.takes still capacity overruns ?_ ?_⟩
  · rw [← unheard, List.length_take, ByteQueue.length_toList valid]
    exact Nat.min_le_right _ _
  · rw [List.length_take, ← unheard, ← List.drop_eq_drop_min]
    exact left

theorem Sound.takes_skip (sound : traffic.Sound) (side : WireEnd) (n : Nat) :
    (traffic.wire.skip side n).1 = ((traffic.unheard side).take n).length ∧
      traffic.Takes { traffic with wire := (traffic.wire.skip side n).2 } side
        ((traffic.unheard side).take n).length := by
  have valid := sound.valid side
  obtain ⟨dropped, left⟩ := ByteQueue.skip_eq valid n
  obtain ⟨still, capacity, overruns⟩ :=
    ByteQueue.skipRounds_keeps valid 2 (min n (traffic.wire.queue side).count)
  have unheard : (traffic.wire.queue side).toList = traffic.unheard side := sound.held side
  rw [unheard] at dropped
  refine ⟨dropped, sound.takes still capacity overruns ?_ ?_⟩
  · rw [← unheard, List.length_take, ByteQueue.length_toList valid]
    exact Nat.min_le_right _ _
  · rw [List.length_take, ← unheard, ← List.drop_eq_drop_min]
    exact left

theorem Sound.takes_clear (sound : traffic.Sound) (side : WireEnd) :
    traffic.Takes { traffic with wire := traffic.wire.clear side } side
      (traffic.unheard side).length := by
  have valid := sound.valid side
  have unheard : (traffic.wire.queue side).toList = traffic.unheard side := sound.held side
  refine sound.takes (ByteQueue.valid_reset valid) rfl rfl (Nat.le_of_eq ?_) ?_
  · rw [← unheard, ByteQueue.length_toList valid]
  · rw [ByteQueue.toList_reset, ← unheard, List.drop_length]

/-- An end that has heard everything holds nothing, so that a look at the wire leaves it alone. -/
theorem Sound.read_silent (sound : traffic.Sound) (silent : traffic.unheard side = []) (n : Nat) :
    traffic.wire.read side n = ([], traffic.wire) := by
  have empty : (traffic.wire.queue side).count = 0 := by
    rw [← ByteQueue.length_toList (sound.valid side), sound.held side]
    exact List.length_eq_zero_iff.mpr silent
  simp only [Wire.read, ByteQueue.read, ByteQueue.readRounds, empty, or_true, if_true,
    Wire.setQueue_queue]

end Take

end Traffic
end SplitKeyboard
