import SplitKeyboard.Proofs.Transcript
import SplitKeyboard.Proofs.Uart.Taking

/-!
The account of a device call over any byte stream that keeps its contract. A read and a skip are one
loop that asks for its bytes in different pieces, and take the same out of the input. A write hands
over its bytes in the pieces that the stream accepts.
-/
namespace SplitKeyboard.Uart

/-- A call on a stream with its reply. -/
abbrev StreamExchange := Program.Exchange StreamRequest.Reply

def StreamExchange.fails : StreamExchange → Bool
  | ⟨.read _ _, .fault⟩ => true
  | ⟨.write _ _, .fault⟩ => true
  | _ => false

def Faultless (calls : List StreamExchange) : Prop := ∀ call ∈ calls, call.fails = false

theorem faultless_iff {calls : List StreamExchange} :
    Faultless calls ↔ calls.any StreamExchange.fails = false := by
  simp [Faultless]

theorem faultless_cons {call : StreamExchange} {calls : List StreamExchange}
    (answered : call.fails = false) : Faultless (call :: calls) ↔ Faultless calls := by
  rw [Faultless, List.forall_mem_cons]
  exact and_iff_right answered

section Calls

variable {σ : Type} {stream : ByteStream σ} {deadline : Nat} {s middle after : σ}
  {call : StreamExchange} {calls : List StreamExchange}

/-- A loop over at most `size` bytes makes no more calls than that, and time does not pass beyond
the deadline. -/
structure Within (stream : ByteStream σ) (deadline size : Nat) (s : σ) (calls : List StreamExchange)
    (after : σ) : Prop where
  few : calls.length ≤ size
  begins : (stream.view s).now ≤ (stream.view after).now
  inTime : (stream.view after).now ≤ deadline

namespace Within

variable {size : Nat}

theorem nothing (inTime : (stream.view s).now ≤ deadline) : Within stream deadline size s [] s :=
  ⟨Nat.zero_le _, Nat.le_refl _, inTime⟩

theorem last (more : 0 < size) (inTime : (stream.view s).now ≤ deadline)
    (begins : (stream.view s).now ≤ (stream.view middle).now)
    (still : (stream.view middle).now ≤ max (stream.view s).now deadline) :
    Within stream deadline size s [call] middle :=
  ⟨more, begins, by omega⟩

/-- Every call that goes on has moved something. -/
theorem cons {moved : Nat} (positive : 0 < moved) (few : moved ≤ size)
    (begins : (stream.view s).now ≤ (stream.view middle).now)
    (rest : Within stream deadline (size - moved) middle calls after) :
    Within stream deadline size s (call :: calls) after := by
  constructor
  case few =>
    have few_rest := rest.few
    rw [List.length_cons]
    omega
  case begins => exact Nat.le_trans begins rest.begins
  case inTime => exact rest.inTime

end Within

/-- What gathering `left` more bytes behind others does by the deadline. -/
structure Gathers (stream : ByteStream σ) (deadline : Nat) (front : List UInt8) (left : Nat) (s : σ)
    (calls : List StreamExchange) (delivery : Delivery) (after : σ) : Prop where
  within : Within stream deadline left s calls after
  count : delivery.count = none ↔ ¬ Faultless calls
  account : stream.manner.placed = true ∨ Faultless calls →
    (stream.view s).Takes stream.manner.lasting left deadline (stream.view after) ∧
      delivery = behind front (delivered left ((stream.view s).arrived deadline))

namespace Gathers

variable {front : List UInt8} {left : Nat} {delivery : Delivery}

theorem nothing (inTime : (stream.view s).now ≤ deadline) :
    Gathers stream deadline front 0 s [] ⟨front, some front.length⟩ s := by
  constructor
  case within => exact .nothing inTime
  case count => simp [Faultless]
  case account =>
    intro _
    rw [delivered_zero, behind_nothing]
    exact ⟨StreamView.takes_nothing _ _ _, rfl⟩

/-- A read that brings no bytes is the last. -/
theorem last (more : 0 < left) (inTime : (stream.view s).now ≤ deadline)
    (begins : (stream.view s).now ≤ (stream.view middle).now)
    (still : (stream.view middle).now ≤ max (stream.view s).now deadline)
    (count : delivery.count = none ↔ call.fails = true)
    (account : stream.manner.placed = true ∨ call.fails = false →
      (stream.view s).Takes stream.manner.lasting left deadline (stream.view middle) ∧
        delivery = behind front (delivered left ((stream.view s).arrived deadline))) :
    Gathers stream deadline front left s [call] delivery middle := by
  have alone : Faultless [call] ↔ call.fails = false := List.forall_mem_singleton
  constructor
  case within => exact .last more inTime begins still
  case count => rw [count, alone, Bool.not_eq_false]
  case account => rwa [alone]

section Read

variable {count : Nat} (more : 0 < left) (inTime : (stream.view s).now ≤ deadline)
include more inTime

theorem ended (reads : (stream.view s).Reads stream.manner count deadline (.bytes [])
      (stream.view middle)) :
    Gathers stream deadline front left s [⟨.read count deadline, .bytes []⟩]
      ⟨front, some front.length⟩ middle := by
  cases reads with
  | bytes some => exact absurd rfl some
  | ending first rest =>
    have still := first.inTime
    refine .last more inTime first.begins still (by simp [StreamExchange.fails]) fun _ => ?_
    obtain ⟨items, there, _⟩ := rest deadline (by omega)
    rw [there, delivered_ending, behind_nothing]
    refine ⟨StreamView.takes_stop more inTime (.inl rfl) (fun _ _ => rfl) first ?_, rfl⟩
    intro time later
    obtain ⟨items, here, left⟩ := rest time later
    refine ⟨items, here, ?_⟩
    rw [left]
    cases stream.manner.lasting <;> rfl

theorem failed (reads : (stream.view s).Reads stream.manner count deadline .fault
      (stream.view middle)) :
    Gathers stream deadline front left s [⟨.read count deadline, .fault⟩] ⟨front, none⟩ middle := by
  cases reads with
  | fault first rest =>
    have still := first.inTime
    refine .last more inTime first.begins still (by simp [StreamExchange.fails]) fun _ => ?_
    rw [rest deadline (by omega), delivered_fault more]
    refine ⟨StreamView.takes_stop more inTime (.inr rfl) (fun _ _ => rfl) first ?_, ?_⟩
    · exact fun time later => ⟨_, rest time later, rfl⟩
    · simp [behind]
  | failure unplaced begins still =>
    refine .last more inTime begins still (by simp [StreamExchange.fails]) ?_
    rintro (placed | answered)
    · exact absurd placed (by simp [unplaced])
    · cases answered

theorem timedOut (reads : (stream.view s).Reads stream.manner count deadline .timedOut
      (stream.view middle)) :
    Gathers stream deadline front left s [⟨.read count deadline, .timedOut⟩]
      ⟨front, some front.length⟩ middle := by
  cases reads with
  | timedOut now silent rest =>
    refine .last more inTime (by omega) (Nat.le_of_eq now) (by simp [StreamExchange.fails]) ?_
    intro _
    rw [silent deadline inTime (by omega), delivered_nil, behind_nothing]
    exact ⟨StreamView.takes_timedOut more inTime now silent rest, rfl⟩

end Read

/-- A read that brings bytes is followed by the gathering of the rest. -/
theorem brought {bytes : List UInt8} {count : Nat} (inTime : (stream.view s).now ≤ deadline)
    (some : bytes ≠ []) (within : count ≤ left)
    (reads : (stream.view s).Reads stream.manner count deadline (.bytes bytes) (stream.view middle))
    (rest : (stream.view middle).now ≤ deadline →
      Gathers stream deadline (front ++ bytes) (left - bytes.length) middle calls delivery after) :
    Gathers stream deadline front left s (⟨.read count deadline, .bytes bytes⟩ :: calls) delivery
      after := by
  cases reads with
  | ending => exact absurd rfl some
  | bytes _ few first begin_with =>
    have still := first.inTime
    replace rest := rest (by omega)
    obtain ⟨more, rfl⟩ := Nat.exists_eq_add_of_le (Nat.le_trans few within)
    rw [Nat.add_sub_cancel_left] at rest
    have positive : 0 < bytes.length := List.length_pos_iff.mpr some
    constructor
    case within =>
      refine .cons positive (Nat.le_add_right _ _) first.begins ?_
      rw [Nat.add_sub_cancel_left]
      exact rest.within
    case count => rw [rest.count, faultless_cons rfl]
    case account =>
      rw [faultless_cons rfl]
      intro sound
      obtain ⟨takes, whole⟩ := rest.account sound
      refine ⟨takes.after_bytes inTime some first begin_with, ?_⟩
      rw [whole, begin_with deadline (by omega), delivered_append, behind_behind]

end Gathers

/-- Bytes are gathered in whatever pieces they are asked for. -/
theorem gather_gathers (stream : ByteStream σ) {deadline piece left : Nat}
    (some_piece : 0 < left → 0 < piece) (front : List UInt8) (s : σ)
    (inTime : (stream.view s).now ≤ deadline) :
    Gathers stream deadline front left s
      ((gather deadline piece front left).trace stream.answer s)
      ((gather deadline piece front left).run stream.answer s).1
      ((gather deadline piece front left).run stream.answer s).2 := by
  induction front, left using gather.induct generalizing s with
  | case1 front =>
    rw [gather, dif_pos rfl]
    exact .nothing inTime
  | case2 front left short ih =>
    have more : 0 < left := Nat.pos_of_ne_zero short
    have reads := stream.reads s (min left piece) deadline (Nat.lt_min.mpr ⟨more, some_piece more⟩)
    rcases answered : stream.answer (.read (min left piece) deadline) s with ⟨reply, middle⟩
    rw [answered] at reads
    rw [gather, dif_neg short]
    simp only [Program.run, Program.trace, answered]
    cases reply with
    | bytes bytes =>
      cases bytes with
      | nil => exact .ended more inTime reads
      | cons byte bytes =>
        refine .brought inTime (List.cons_ne_nil _ _) (Nat.min_le_left _ _) reads ?_
        exact ih byte bytes (fun _ => some_piece more) middle
    | fault => exact .failed more inTime reads
    | timedOut => exact .timedOut more inTime reads

/-- What handing over some data does by the deadline, when so much has been written before. -/
structure HandsOver (stream : ByteStream σ) (deadline written : Nat) (data : List UInt8) (s : σ)
    (calls : List StreamExchange) (result : Option Nat) (after : σ) : Prop where
  within : Within stream deadline data.length s calls after
  count : result = none ↔ ¬ Faultless calls
  account : Faultless calls → ∃ count ≤ data.length, result = some (written + count) ∧
    (stream.view after).sent = (stream.view s).sent ++ data.take count ∧
    (count < data.length → (stream.view after).now = deadline)

namespace HandsOver

variable {written : Nat} {data : List UInt8} {result : Option Nat}

theorem nothing (inTime : (stream.view s).now ≤ deadline) :
    HandsOver stream deadline written [] s [] (some written) s := by
  constructor
  case within => exact .nothing inTime
  case count => simp [Faultless]
  case account => exact fun _ => ⟨0, Nat.le_refl 0, rfl, by simp, fun more => absurd more (by simp)⟩

theorem failed (more : data ≠ []) (inTime : (stream.view s).now ≤ deadline)
    (writes : (stream.view s).Writes data deadline .fault (stream.view middle)) :
    HandsOver stream deadline written data s [⟨.write data deadline, .fault⟩] none middle := by
  have broken : ¬ Faultless [⟨.write data deadline, .fault⟩] :=
    fun sound => Bool.noConfusion (sound _ (List.mem_singleton_self _))
  cases writes with
  | fault begins still =>
    constructor
    case within => exact .last (List.length_pos_iff.mpr more) inTime begins still
    case count => exact iff_of_true rfl broken
    case account => exact fun sound => absurd sound broken

theorem timedOut (more : data ≠ []) (inTime : (stream.view s).now ≤ deadline)
    (writes : (stream.view s).Writes data deadline .timedOut (stream.view middle)) :
    HandsOver stream deadline written data s [⟨.write data deadline, .timedOut⟩] (some written)
      middle := by
  cases writes with
  | timedOut now sent =>
    constructor
    case within =>
      exact .last (List.length_pos_iff.mpr more) inTime (by omega) (Nat.le_of_eq now)
    case count => simp [Faultless, StreamExchange.fails]
    case account => exact fun _ => ⟨0, Nat.zero_le _, rfl, by simp [sent], fun _ => by omega⟩

/-- Bytes that are accepted are followed by the writing of the rest. -/
theorem accepted {count : Nat} {positive : 0 < count} (inTime : (stream.view s).now ≤ deadline)
    (writes : (stream.view s).Writes data deadline (.accepted count positive) (stream.view middle))
    (rest : (stream.view middle).now ≤ deadline →
      HandsOver stream deadline (written + count) (data.drop count) middle calls result after) :
    HandsOver stream deadline written data s
      (⟨.write data deadline, .accepted count positive⟩ :: calls) result after := by
  cases writes with
  | accepted few begins still sent =>
    replace rest := rest (by omega)
    constructor
    case within =>
      refine .cons positive few begins ?_
      rw [← List.length_drop]
      exact rest.within
    case count => rw [rest.count, faultless_cons rfl]
    case account =>
      rw [faultless_cons rfl]
      intro sound
      obtain ⟨others, few_others, total, sent_rest, short⟩ := rest.account sound
      rw [List.length_drop] at few_others short
      refine ⟨count + others, by omega, ?_, ?_, fun some_left => short (by omega)⟩
      · rw [total, Nat.add_assoc]
      · rw [sent_rest, sent, List.append_assoc, ← List.take_add]

end HandsOver

/-- Data is handed over in whatever pieces the stream accepts. -/
theorem writeRest_handsOver (stream : ByteStream σ) {deadline : Nat} (written : Nat)
    (data : List UInt8) (s : σ) (inTime : (stream.view s).now ≤ deadline) :
    HandsOver stream deadline written data s
      ((writeRest deadline written data).trace stream.answer s)
      ((writeRest deadline written data).run stream.answer s).1
      ((writeRest deadline written data).run stream.answer s).2 := by
  induction written, data using writeRest.induct generalizing s with
  | case1 written =>
    rw [writeRest, dif_pos rfl]
    exact .nothing inTime
  | case2 written data more ih =>
    have writes := stream.writes s data deadline more
    rcases answered : stream.answer (.write data deadline) s with ⟨reply, middle⟩
    rw [answered] at writes
    rw [writeRest, dif_neg more]
    simp only [Program.run, Program.trace, answered]
    cases reply with
    | accepted count positive => exact .accepted inTime writes (ih count positive middle)
    | fault => exact .failed more inTime writes
    | timedOut => exact .timedOut more inTime writes

end Calls

namespace ByteStream

variable {σ : Type} (stream : ByteStream σ) (count : Nat) (data : List UInt8) (timeout : UInt32)
  (s : σ) (calls : List StreamExchange) (after : σ)

/-- A device call: its reply, and the stream after it. -/
def run (request : SerialRequest) : request.Reply × σ := (serve request).run stream.answer s

/-- The stream calls of a device call. -/
def trace (request : SerialRequest) : List StreamExchange := (serve request).trace stream.answer s

def deadline : Nat := (stream.view s).now + timeout.toNat

/-- The bytes that can be read without waiting past the deadline. -/
def ready : List UInt8 := readable ((stream.view s).arrived (stream.deadline timeout s))

/-- A read into a buffer of `count` bytes. -/
structure ReadAccount (delivery : Delivery) : Prop where
  within : Within stream (stream.deadline timeout s) (count + 1) s calls after
  fault : delivery.count = none ↔ ¬ Faultless calls
  result : Faultless calls → delivery.count = some (min count (stream.ready timeout s).length)
  buffer : Faultless calls → ∀ buffer, buffer.length = count → overlay delivery.bytes buffer =
    (stream.ready timeout s).take count ++ buffer.drop (stream.ready timeout s).length
  takes : Faultless calls → (stream.view s).Takes stream.manner.lasting count
    (stream.deadline timeout s) (stream.view after)
  /-- Nothing else is gone from the input, but perhaps an end that has been reported. -/
  rest : Faultless calls → ∃ reported, (reported = [] ∨ reported = [.ending]) ∧
    ∀ time, (stream.view after).now ≤ time → (stream.view s).arrived time =
      ((stream.ready timeout s).take count).map .byte ++ reported ++
        (stream.view after).arrived time

/-- A skip, beside the calls, the delivery and the end of a read of as many bytes from the same
state. -/
structure SkipAccount (result : Option Nat) (reads : List StreamExchange) (delivery : Delivery)
    (other : σ) : Prop where
  within : Within stream (stream.deadline timeout s) (count + 1) s calls after
  fault : result = none ↔ ¬ Faultless calls
  /-- Where faults have their places in the input, both come upon one or neither does. -/
  same : stream.manner.placed = true ∨ Faultless reads ∧ Faultless calls →
    result = delivery.count ∧ (stream.view after).now = (stream.view other).now ∧
      ∀ time, (stream.view after).now ≤ time →
        (stream.view after).arrived time = (stream.view other).arrived time

/-- A write. It is short only if the time ran out. -/
structure WriteAccount (result : Option Nat) : Prop where
  within : Within stream (stream.deadline timeout s) (data.length + 1) s calls after
  fault : result = none ↔ ¬ Faultless calls
  accepted : Faultless calls → ∃ count ≤ data.length, result = some count ∧
    (stream.view after).sent = (stream.view s).sent ++ data.take count ∧
    (count < data.length → (stream.view after).now = stream.deadline timeout s)

theorem begins_inTime : (stream.view s).now ≤ stream.deadline timeout s := Nat.le_add_right _ _

section Uptime

variable {α : Type} (next : Nat → StreamProgram α)

theorem run_uptime : (Program.ask .uptime next).run stream.answer s =
    (next (stream.view s).now).run stream.answer s := by
  rw [Program.run, stream.uptime]

theorem trace_uptime : (Program.ask .uptime next).trace stream.answer s =
    ⟨.uptime, (stream.view s).now⟩ :: (next (stream.view s).now).trace stream.answer s := by
  rw [Program.trace, stream.uptime]

end Uptime

variable {stream count data timeout s calls after}

theorem ReadAccount.of_gathers {delivery : Delivery}
    (gathers : Gathers stream (stream.deadline timeout s) [] count s calls delivery after) :
    stream.ReadAccount count timeout s (⟨.uptime, (stream.view s).now⟩ :: calls) after
      delivery := by
  have account (sound : Faultless calls) := gathers.account (.inr sound)
  simp only [behind_nil] at account
  have unbroken (sound : Faultless calls) :
      broken count ((stream.view s).arrived (stream.deadline timeout s)) = false := by
    have told : delivery.count ≠ none := fun fault => gathers.count.mp fault sound
    rwa [(account sound).2, ne_eq, delivered_count_none, Bool.not_eq_true] at told
  have delivers (sound : Faultless calls) :=
    (account sound).2.trans (delivered_sound (unbroken sound))
  constructor
  case within => exact .cons Nat.one_pos (Nat.le_add_left _ _) (Nat.le_refl _) gathers.within
  case fault => rw [gathers.count, faultless_cons rfl]
  all_goals
    rw [faultless_cons rfl]
    intro sound
  case result => exact congrArg Delivery.count (delivers sound)
  case buffer =>
    rintro buffer rfl
    rw [delivers sound, overlay_take rfl]
    rfl
  case takes => exact (account sound).1
  case rest =>
    obtain ⟨reported, kind, whole⟩ := taken_sound stream.manner.lasting (unbroken sound)
    refine ⟨reported, kind, fun time later => ?_⟩
    rw [(account sound).1.rest time later, whole]
    rfl

theorem SkipAccount.of_gathers {delivery other : Delivery} {reads : List StreamExchange} {last : σ}
    (gathers : Gathers stream (stream.deadline timeout s) [] count s calls delivery after)
    (read : Gathers stream (stream.deadline timeout s) [] count s reads other last) :
    stream.SkipAccount count timeout s (⟨.uptime, (stream.view s).now⟩ :: calls) after
      delivery.count (⟨.uptime, (stream.view s).now⟩ :: reads) other last := by
  constructor
  case within => exact .cons Nat.one_pos (Nat.le_add_left _ _) (Nat.le_refl _) gathers.within
  case fault => rw [gathers.count, faultless_cons rfl]
  case same =>
    rw [faultless_cons rfl, faultless_cons rfl]
    intro sound
    obtain ⟨takes, whole⟩ := gathers.account (sound.imp_right And.right)
    obtain ⟨also, same⟩ := read.account (sound.imp_right And.left)
    exact ⟨congrArg Delivery.count (whole.trans same.symm), takes.unique also⟩

theorem WriteAccount.of_handsOver {result : Option Nat}
    (hands : HandsOver stream (stream.deadline timeout s) 0 data s calls result after) :
    stream.WriteAccount data timeout s (⟨.uptime, (stream.view s).now⟩ :: calls) after result := by
  constructor
  case within => exact .cons Nat.one_pos (Nat.le_add_left _ _) (Nat.le_refl _) hands.within
  case fault => rw [hands.count, faultless_cons rfl]
  case accepted =>
    rw [faultless_cons rfl]
    intro sound
    obtain ⟨count, few, total, rest⟩ := hands.account sound
    exact ⟨count, few, total.trans (congrArg some (Nat.zero_add count)), rest⟩

end ByteStream

/-- Over any stream that keeps its contract, a read without a fault delivers the bytes that can be
read by its deadline, as many as fit and in order; a skip counts, waits and leaves what a read
would; a write hands over each byte once; and every call ends by its deadline. -/
theorem transfers_account {σ : Type} (stream : ByteStream σ) (count : Nat) (data : List UInt8)
    (timeout : UInt32) (s : σ) :
    let read := stream.run s (.read count timeout)
    let skip := stream.run s (.skip count timeout)
    let write := stream.run s (.write data timeout)
    stream.ReadAccount count timeout s (stream.trace s (.read count timeout)) read.2 read.1 ∧
      stream.SkipAccount count timeout s (stream.trace s (.skip count timeout)) skip.2 skip.1
        (stream.trace s (.read count timeout)) read.1 read.2 ∧
      stream.WriteAccount data timeout s (stream.trace s (.write data timeout)) write.2
        write.1 := by
  intro read skip write
  have inTime := stream.begins_inTime timeout s
  have some_chunk : 0 < count → 0 < drainChunk := fun _ => by decide
  have reads := gather_gathers stream (id : 0 < count → 0 < count) [] s inTime
  have skips := gather_gathers stream some_chunk [] s inTime
  have writes := writeRest_handsOver stream 0 data s inTime
  simp only [read, skip, write, ByteStream.run, ByteStream.trace, serve, stream.run_uptime,
    stream.trace_uptime, Program.run_bind, Program.trace_bind, Program.run, Program.trace,
    List.append_nil]
  exact ⟨.of_gathers reads, .of_gathers skips reads, .of_handsOver writes⟩

/-- Eighteen bytes come in time, in chunks that are neither those of the read nor those of the skip,
and the rest is too late. Of the bytes to write, two are accepted. -/
theorem transfers_account_late :
    let stream := Schedule.byteStream
    let s : Schedule :=
      { arrivals := [(1, .bytes [0, 1, 2, 3, 4, 5, 6]), (2, .readyFault),
          (4, .bytes [7, 8, 9, 10, 11, 12, 13, 14, 15, 16, 17]), (9, .bytes [18, 19])]
        acceptances := [.atMost 2, .block] }
    (Faultless (stream.trace s (.read 20 5)) ∧ (stream.run s (.read 20 5)).1.count = some 18) ∧
      (Faultless (stream.trace s (.skip 20 5)) ∧ (stream.run s (.skip 20 5)).1 = some 18) ∧
      (Faultless (stream.trace s (.write [1, 2, 3] 5)) ∧
        (stream.run s (.write [1, 2, 3] 5)).1 = some 2) ∧
      stream.ReadAccount 20 5 s (stream.trace s (.read 20 5)) (stream.run s (.read 20 5)).2
        (stream.run s (.read 20 5)).1 ∧
      stream.SkipAccount 20 5 s (stream.trace s (.skip 20 5)) (stream.run s (.skip 20 5)).2
        (stream.run s (.skip 20 5)).1 (stream.trace s (.read 20 5))
        (stream.run s (.read 20 5)).1 (stream.run s (.read 20 5)).2 ∧
      stream.WriteAccount [1, 2, 3] 5 s (stream.trace s (.write [1, 2, 3] 5))
        (stream.run s (.write [1, 2, 3] 5)).2 (stream.run s (.write [1, 2, 3] 5)).1 := by
  intro stream s
  simp only [faultless_iff]
  refine ⟨⟨?_, ?_⟩, ⟨?_, ?_⟩, ⟨?_, ?_⟩, transfers_account stream 20 [1, 2, 3] 5 s⟩
  all_goals cbv

end SplitKeyboard.Uart
