import Mathlib.Tactic.Common
import SplitKeyboard.Uart.Schedule

/-!
What a device needs of the byte stream below it. A read waits until something has arrived and then
takes some of it, as much or as little as the stream likes; a write waits until the stream takes
some of it; and neither waits beyond its deadline, where what can be done at the deadline itself is
still done. A stream whose input arrives on a schedule is one of these.
-/
namespace SplitKeyboard.Uart

/-- What can wait to be read: a byte, the end of the input, or a fault. -/
inductive Item where
  | byte (value : UInt8)
  | ending
  | fault
  deriving DecidableEq

/-- The bytes before the first end or fault. -/
def readable : List Item → List UInt8
  | .byte value :: items => value :: readable items
  | _ => []

/-- What can be told of a stream from outside: the time, what will have arrived by any time unless
it is read before, and all that it ever accepted. -/
structure StreamView where
  now : Nat
  arrived : Nat → List Item
  sent : List UInt8

/-- In what streams differ. -/
structure Manner where
  /-- An end of the input that has been reported is there again. -/
  lasting : Bool
  /-- A read fails only for a fault that is there in the input. -/
  placed : Bool

namespace StreamView

/-- The first moment at which something is there, no later than one that waits may wait. -/
structure First (before : StreamView) (deadline moment : Nat) : Prop where
  begins : before.now ≤ moment
  inTime : moment ≤ max before.now deadline
  earliest : ∀ time, before.now ≤ time → time < moment → before.arrived time = []

/-- A read of up to `count` bytes. A fault is one that has come with the input, a failure one of the
stream itself, at any moment. -/
inductive Reads (manner : Manner) (count deadline : Nat) (before : StreamView) :
    StreamRead → StreamView → Prop
  | bytes {taken : List UInt8} {after : StreamView} (some : taken ≠ []) (few : taken.length ≤ count)
    (first : before.First deadline after.now)
    (rest : ∀ time, after.now ≤ time →
      before.arrived time = taken.map .byte ++ after.arrived time) :
    Reads manner count deadline before (.bytes taken) after
  | ending {after : StreamView} (first : before.First deadline after.now)
    (rest : ∀ time, after.now ≤ time → ∃ items, before.arrived time = .ending :: items ∧
      after.arrived time = if manner.lasting then .ending :: items else items) :
    Reads manner count deadline before (.bytes []) after
  | fault {after : StreamView} (first : before.First deadline after.now)
    (rest : ∀ time, after.now ≤ time → before.arrived time = .fault :: after.arrived time) :
    Reads manner count deadline before .fault after
  | failure {after : StreamView} (unplaced : manner.placed = false)
    (begins : before.now ≤ after.now) (inTime : after.now ≤ max before.now deadline) :
    Reads manner count deadline before .fault after
  | timedOut {after : StreamView} (now : after.now = max before.now deadline)
    (silent : ∀ time, before.now ≤ time → time ≤ after.now → before.arrived time = [])
    (rest : ∀ time, after.now ≤ time → after.arrived time = before.arrived time) :
    Reads manner count deadline before .timedOut after

/-- A write of these bytes. -/
inductive Writes (data : List UInt8) (deadline : Nat) (before : StreamView) :
    StreamWrite → StreamView → Prop
  | accepted {count : Nat} {positive : 0 < count} {after : StreamView} (few : count ≤ data.length)
    (begins : before.now ≤ after.now) (inTime : after.now ≤ max before.now deadline)
    (sent : after.sent = before.sent ++ data.take count) :
    Writes data deadline before (.accepted count positive) after
  | fault {after : StreamView} (begins : before.now ≤ after.now)
    (inTime : after.now ≤ max before.now deadline) : Writes data deadline before .fault after
  | timedOut {after : StreamView} (now : after.now = max before.now deadline)
    (sent : after.sent = before.sent) : Writes data deadline before .timedOut after

variable {manner : Manner} {count deadline : Nat} {before middle after : StreamView}
  {reply : StreamRead}

theorem first_now (begun : before.now = after.now) : before.First deadline after.now := by
  constructor
  case begins => exact Nat.le_of_eq begun
  case inTime => omega
  case earliest =>
    intro time here earlier
    omega

/-- Waiting while nothing comes is part of the read that follows. -/
theorem Reads.wait (middle : StreamView) (begins : before.now ≤ middle.now)
    (inTime : middle.now ≤ max before.now deadline)
    (silent : ∀ time, before.now ≤ time → time < middle.now → before.arrived time = [])
    (same : ∀ time, middle.now ≤ time → before.arrived time = middle.arrived time)
    (reads : middle.Reads manner count deadline reply after) :
    before.Reads manner count deadline reply after := by
  have deadline_same : max middle.now deadline = max before.now deadline := by omega
  have earlier {moment : Nat} (first : middle.First deadline moment) :
      before.First deadline moment := by
    obtain ⟨begun, still, earliest⟩ := first
    refine ⟨by omega, by omega, fun time here before_moment => ?_⟩
    rcases Nat.lt_or_ge time middle.now with waiting | come
    · exact silent time here waiting
    · rw [same time come]
      exact earliest time come before_moment
  cases reads with
  | bytes some few first rest =>
    refine .bytes some few (earlier first) fun time later => ?_
    rw [same time (Nat.le_trans first.begins later), rest time later]
  | ending first rest =>
    refine .ending (earlier first) fun time later => ?_
    rw [same time (Nat.le_trans first.begins later)]
    exact rest time later
  | fault first rest =>
    refine .fault (earlier first) fun time later => ?_
    rw [same time (Nat.le_trans first.begins later), rest time later]
  | failure unplaced begun still => exact .failure unplaced (by omega) (by omega)
  | timedOut now silent_still rest =>
    rw [deadline_same] at now
    refine .timedOut now (fun time here until_then => ?_) fun time later => ?_
    · rcases Nat.lt_or_ge time middle.now with waiting | come
      · exact silent time here waiting
      · rw [same time come]
        exact silent_still time come until_then
    · rw [same time (by omega), rest time later]

end StreamView

/-- A stream with states `σ` that keeps its contract. -/
structure ByteStream (σ : Type) where
  answer : (request : StreamRequest) → σ → request.Reply × σ
  view : σ → StreamView
  manner : Manner
  uptime : ∀ s, answer .uptime s = ((view s).now, s)
  reads : ∀ s count deadline, 0 < count → StreamView.Reads manner count deadline (view s)
    (answer (.read count deadline) s).1 (view (answer (.read count deadline) s).2)
  writes : ∀ s data deadline, data ≠ [] → StreamView.Writes data deadline (view s)
    (answer (.write data deadline) s).1 (view (answer (.write data deadline) s).2)

theorem readable_append (bytes : List UInt8) (items : List Item) :
    readable (bytes.map .byte ++ items) = bytes ++ readable items := by
  induction bytes with
  | nil => rfl
  | cons byte bytes ih => exact congrArg (List.cons byte) ih

namespace Schedule

/-- What has arrived by some time of what is on the schedule. An arrival without bytes looks like
the end of the input. -/
def arrivedBy (time : Nat) : List (Nat × Arrival) → List Item
  | [] => []
  | (moment, arrival) :: rest =>
    if time < moment then []
    else
      match arrival with
      | .bytes [] | .endOfInput => .ending :: arrivedBy time rest
      | .bytes bytes => bytes.map .byte ++ arrivedBy time rest
      | .fault => .fault :: arrivedBy time rest
      | .readyFault => arrivedBy time rest

def view (stream : Schedule) : StreamView where
  now := stream.now
  arrived time := stream.leftover.map .byte ++ arrivedBy time stream.arrivals
  sent := stream.sent

/-- An end is on the schedule once, and so is every fault. -/
def manner : Manner where
  lasting := false
  placed := true

section Read

variable {stream : Schedule} {count deadline : Nat}

/-- Waiting for what comes next, in so far as it is not too late. -/
theorem await_cases (stream : Schedule) (time deadline : Nat) :
    (stream.await time deadline = (false, { stream with now := max stream.now deadline }) ∧
      max stream.now deadline < time) ∨
    (stream.await time deadline = (true, { stream with now := max stream.now time }) ∧
      max stream.now time ≤ max stream.now deadline) := by
  unfold await
  by_cases here : time ≤ stream.now
  · have same : max stream.now time = stream.now := by omega
    rw [if_pos here, same]
    exact .inr ⟨rfl, by omega⟩
  · have later : max stream.now time = time := by omega
    rw [if_neg here, later]
    split
    · exact .inr ⟨rfl, by omega⟩
    · exact .inl ⟨rfl, by omega⟩

/-- Bytes that are there are read at once. -/
theorem readFrom_reads {before : StreamView} {bytes : List UInt8} (some : bytes ≠ [])
    (some_asked : 0 < count) (now : before.now = stream.now)
    (front : ∀ time, stream.now ≤ time →
      before.arrived time = bytes.map .byte ++ arrivedBy time stream.arrivals) :
    before.Reads manner count deadline (stream.readFrom bytes count).1
      (stream.readFrom bytes count).2.view := by
  refine .bytes ?_ (List.length_take_le _ _) (StreamView.first_now now) fun time later => ?_
  · rw [ne_eq, List.take_eq_nil_iff]
    exact not_or.mpr ⟨Nat.ne_of_gt some_asked, some⟩
  · rw [front time later]
    change _ = _ ++ ((bytes.drop count).map Item.byte ++ _)
    rw [← List.append_assoc, ← List.map_append, List.take_append_drop]
    rfl

theorem readNext_reads (some_asked : 0 < count) (pending : List (Nat × Arrival))
    (stream : Schedule) (used : stream.leftover = []) :
    { stream with arrivals := pending }.view.Reads manner count deadline
      (stream.readNext count deadline pending).1
      (stream.readNext count deadline pending).2.view := by
  -- What only concerns readiness is waited for and passed over, so the time is generalised.
  induction pending generalizing stream with
  | nil =>
    refine .timedOut rfl (fun time _ _ => ?_) fun time _ => ?_
    · simp [view, used, arrivedBy]
    · simp [view, readNext, used]
  | cons next rest ih =>
    obtain ⟨time, arrival⟩ := next
    rw [readNext]
    rcases await_cases stream time deadline with ⟨waited, late⟩ | ⟨waited, inTime⟩
    · rw [waited]
      refine .timedOut rfl (fun moment _ until_then => ?_) fun _ _ => rfl
      have early : moment < time := by
        have until_then : moment ≤ max stream.now deadline := until_then
        omega
      simp [view, used, arrivedBy, early]
    · rw [waited]
      have come {moment : Nat} (later : max stream.now time ≤ moment) : ¬ moment < time := by omega
      refine StreamView.Reads.wait
        { stream with now := max stream.now time, arrivals := (time, arrival) :: rest }.view
        (Nat.le_max_left _ _) inTime ?_ (fun _ _ => rfl) ?_
      · intro moment here earlier
        have early : moment < time := by
          have here : stream.now ≤ moment := here
          have earlier : moment < max stream.now time := earlier
          omega
        simp [view, used, arrivedBy, early]
      · cases arrival with
        | bytes bytes =>
          cases bytes with
          | nil =>
            simp only [readFrom, List.take_nil]
            refine .ending (StreamView.first_now rfl) fun moment later =>
              ⟨arrivedBy moment rest, ?_, ?_⟩
            · simp [view, used, arrivedBy, come later]
            · simp [view, manner, note]
          | cons byte bytes =>
            refine readFrom_reads (List.cons_ne_nil _ _) some_asked rfl fun moment later => ?_
            simp [view, used, arrivedBy, come later]
        | fault =>
          refine .fault (StreamView.first_now rfl) fun moment later => ?_
          simp [view, used, arrivedBy, come later, note]
        | endOfInput =>
          refine .ending (StreamView.first_now rfl) fun moment later =>
            ⟨arrivedBy moment rest, ?_, ?_⟩
          · simp [view, used, arrivedBy, come later]
          · simp [view, manner, note, used]
        | readyFault =>
          dsimp only
          have rest_reads := ih { stream with now := max stream.now time } used
          refine StreamView.Reads.wait
            { stream with now := max stream.now time, arrivals := rest }.view
            (Nat.le_refl _) (Nat.le_max_left _ _) ?_ ?_ rest_reads
          · intro moment here earlier
            exact absurd earlier (Nat.not_lt_of_le here)
          · intro moment later
            simp [view, used, arrivedBy, come later]

theorem read_reads (stream : Schedule) (some_asked : 0 < count) :
    stream.view.Reads manner count deadline (stream.read count deadline).1
      (stream.read count deadline).2.view := by
  unfold read
  split
  · next used => exact readNext_reads some_asked stream.arrivals stream used
  · next some => exact readFrom_reads some some_asked rfl fun _ _ => rfl

end Read

section Write

variable {data : List UInt8} {deadline : Nat}

theorem writeNext_writes (stream : Schedule) (some : data ≠ []) (acceptances : List Acceptance) :
    stream.view.Writes data deadline (stream.writeNext data deadline acceptances).1
      (stream.writeNext data deadline acceptances).2.view := by
  have positive : 0 < data.length := List.length_pos_iff.mpr some
  -- A stream that takes nothing is asked again, and stays as it is to the eye.
  induction acceptances generalizing stream with
  | nil =>
    simp only [writeNext, dif_pos positive]
    exact .accepted (Nat.le_refl _) (Nat.le_refl _) (Nat.le_max_left _ _) rfl
  | cons acceptance rest ih =>
    cases acceptance with
    | all =>
      simp only [writeNext, dif_pos positive]
      exact .accepted (Nat.le_refl _) (Nat.le_refl _) (Nat.le_max_left _ _) rfl
    | atMost count =>
      simp only [writeNext]
      split
      · next more =>
        have whole : data.take (data.take count).length = data.take count := by
          rw [List.length_take, ← List.take_eq_take_min]
        refine .accepted (List.length_take_le' _ _) (Nat.le_refl _) (Nat.le_max_left _ _) ?_
        exact congrArg (stream.sent ++ ·) whole.symm
      · next refused =>
        have nothing : data.take count = [] :=
          List.length_eq_zero_iff.mp (Nat.eq_zero_of_not_pos refused)
        have unseen :
            ({ stream with acceptances := rest }.accept data count).view = stream.view := by
          simp [accept, nothing, view, note]
        rw [← unseen]
        exact ih _
    | fault => exact .fault (Nat.le_refl _) (Nat.le_max_left _ _)
    | block => exact .timedOut rfl rfl

end Write

/-- Input on a schedule keeps the contract, whatever the chunks in which it comes. -/
def byteStream : ByteStream Schedule where
  answer := answer
  view := view
  manner := manner
  uptime _ := rfl
  reads stream _ _ := stream.read_reads
  writes stream _ _ some := writeNext_writes stream some stream.acceptances

end Schedule
end SplitKeyboard.Uart
