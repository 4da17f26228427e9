import Mathlib.Data.List.Forall2
import Mathlib.Logic.Function.Basic
import SplitKeyboard.Proofs.ByteQueue.Fifo
import SplitKeyboard.Proofs.Joint.Traffic

/-!
A wire in use, told by plain accounts. Calls are under way at both ends at once, and a read or skip
that waits looks at its queue again and again while the other end goes on. Whatever the order, each
end holds what was written towards it and found room, less what has left it, first in first out; and
a skip does to the wire what a read of as many bytes does.
-/
namespace SplitKeyboard

/-- A skip moves the start of the ring just as a read does. -/
theorem ByteQueue.skipRounds_eq (rounds : Nat) (q : ByteQueue) (n : Nat) :
    skipRounds rounds q (min n q.count) = (readRounds rounds q n).2 := by
  induction rounds generalizing q n with
  | zero => rfl
  | succ rounds ih =>
    rw [skipRounds, readRounds]
    by_cases nothing : n = 0 ∨ q.count = 0
    · rw [if_pos nothing, if_pos (by omega)]
    · have below := q.contiguous_le
      have chunk : min q.contiguous (min n q.count) = min q.contiguous n := by omega
      have rest : min n q.count - min q.contiguous n =
          min (n - min q.contiguous n) (q.advance (min q.contiguous n)).count := by
        rw [count_advance]
        omega
      rw [if_neg nothing, if_neg (by omega)]
      dsimp only
      rw [chunk, rest]
      exact ih _ _

theorem ByteQueue.skip_snd (q : ByteQueue) (n : Nat) : (q.skip n).2 = (q.read n).2 :=
  skipRounds_eq 2 q n

/-- How many bytes a call wants of its queue. -/
def SerialRequest.wanted : SerialRequest → Nat
  | .read count _ | .skip count _ => count
  | .write _ _ | .clear => 0

/-- A read in place of a skip. -/
def SerialRequest.asRead : SerialRequest → SerialRequest
  | .skip count timeout => .read count timeout
  | request => request

namespace Bench

open Traffic (Progress)

/-- What can be told of a wire from outside: bytes are written at an end, or they leave the queue of
an end. -/
inductive Happening where
  | wrote (side : WireEnd) (data : List UInt8)
  | left (side : WireEnd) (bytes : List UInt8)

/-- The account of one end: the bytes that found room in its queue, how many found none, and those
that have left it. -/
structure Account where
  accepted : List UInt8 := []
  rejected : Nat := 0
  gone : List UInt8 := []

def Happening.written? : Happening → Option (WireEnd × List UInt8)
  | .wrote side data => some (side, data)
  | .left _ _ => none

namespace Account

def pending (account : Account) : Nat := account.accepted.length - account.gone.length

/-- A byte is rejected exactly if 256 bytes are pending at its turn. -/
def arrive (account : Account) (byte : UInt8) : Account :=
  if account.pending = 256 then { account with rejected := account.rejected + 1 }
  else { account with accepted := account.accepted ++ [byte] }

/-- Bytes come to an end from the other one, and on a half-duplex wire from both. -/
def note (duplex : Duplex) (side : WireEnd) (account : Account) : Happening → Account
  | .wrote writer data =>
    if side = writer.other ∨ duplex = .half then data.foldl arrive account else account
  | .left there bytes =>
    if there = side then { account with gone := account.gone ++ bytes } else account

def ofHappenings (duplex : Duplex) (side : WireEnd) (happened : List Happening) : Account :=
  happened.foldl (note duplex side) {}

theorem ofHappenings_concat (duplex : Duplex) (side : WireEnd) (happened : List Happening)
    (next : Happening) :
    ofHappenings duplex side (happened ++ [next]) =
      (ofHappenings duplex side happened).note duplex side next := by
  rw [ofHappenings, List.foldl_concat]
  rfl

/-- The bounded list that an account describes: what was accepted and has not left. -/
def fifo (account : Account) : Fifo where
  capacity := wireCapacity
  bytes := account.accepted.drop account.gone.length
  overruns := min account.rejected (UInt32.size - 1)

/-- The queue of an end is as its account tells. -/
structure Fits (account : Account) (queue : ByteQueue) : Prop where
  holds : queue.Holds account.fifo
  order : account.gone <+: account.accepted

variable {account : Account} {queue after : ByteQueue}

theorem fits_empty : Fits {} (.empty wireCapacity) :=
  ⟨ByteQueue.holds_empty wireCapacity, List.nil_prefix⟩

namespace Fits

theorem conserved (fits : account.Fits queue) :
    account.accepted = account.gone ++ queue.toList := by
  obtain ⟨rest, split⟩ := fits.order
  rw [fits.holds.bytes, fifo, ← split, List.drop_left]

theorem pending_eq (fits : account.Fits queue) : account.pending = queue.count := by
  have length := fits.holds.length
  rw [fifo, List.length_drop] at length
  exact length

theorem count_le (fits : account.Fits queue) : queue.count ≤ 256 := by
  have count_le := fits.holds.bounds.count_le
  rwa [fits.holds.capacity] at count_le

theorem fifo_arrive (fits : account.Fits queue) (byte : UInt8) :
    (account.arrive byte).fifo = (Fifo.act (.push byte) account.fifo).2 := by
  have length := fits.holds.length
  have pending := fits.pending_eq
  have count_le := fits.count_le
  have capacity : account.fifo.capacity = 256 := rfl
  simp only [Account.arrive, Fifo.act, length, capacity]
  by_cases full : account.pending = 256
  · have refused : ¬ queue.count < 256 := by omega
    rw [if_pos full, if_neg refused, fifo, fifo]
    congr 1
    show min (account.rejected + 1) (UInt32.size - 1) =
      min (min account.rejected (UInt32.size - 1) + 1) (UInt32.size - 1)
    omega
  · have room : queue.count < 256 := by omega
    rw [if_neg full, if_pos room, fifo, fifo]
    congr 1
    exact List.drop_append_of_le_length fits.order.length_le

theorem arrive (fits : account.Fits queue) (byte : UInt8) :
    (account.arrive byte).Fits (queue.push byte).2 := by
  constructor
  case holds =>
    rw [fits.fifo_arrive byte]
    exact (fits.holds.push byte).2
  case order =>
    unfold Account.arrive
    split
    · exact fits.order
    · exact fits.order.trans (List.prefix_append _ _)

/-- What leaves a queue leaves it from the front. -/
theorem leave {n : Nat} (fits : account.Fits queue) (drops : queue.Drops after n) :
    Fits { account with gone := account.gone ++ queue.toList.take n } after := by
  obtain ⟨rest, split⟩ := fits.order
  have held : queue.toList = rest := by
    rw [fits.holds.bytes, fifo, ← split, List.drop_left]
  constructor
  case holds =>
    have left := fits.holds.drop drops
    have same : account.fifo.bytes.drop n =
        account.accepted.drop (account.gone ++ queue.toList.take n).length := by
      rw [← fits.holds.bytes, held, ← split, List.length_append, List.drop_append,
        List.drop_of_length_le (Nat.le_add_right _ _), Nat.add_sub_cancel_left, List.nil_append,
        List.length_take, ← List.drop_eq_drop_min]
    rw [same] at left
    exact left
  case order =>
    rw [held, ← split]
    exact (List.prefix_append_right_inj _).mpr (List.take_prefix _ _)

end Fits

end Account

section Wire

variable {wire after : Wire} {side there writer : WireEnd} {happened : List Happening}

/-- Both ends of a wire are as their accounts tell. -/
structure Accounted (duplex : Duplex) (happened : List Happening) (wire : Wire) : Prop where
  wiring : wire.duplex = duplex
  fits : ∀ side, (Account.ofHappenings duplex side happened).Fits (wire.queue side)

theorem accounted_new (duplex : Duplex) : Accounted duplex [] (.new duplex) := by
  constructor
  case wiring => rfl
  case fits =>
    intro side
    cases side <;> exact Account.fits_empty

variable {duplex : Duplex}

theorem Account.Fits.pushEach {account : Account} {queue : ByteQueue} (fits : account.Fits queue)
    (data : List UInt8) : (data.foldl Account.arrive account).Fits (queue.pushEach data).2 := by
  induction data generalizing account queue with
  | nil => exact fits
  | cons byte data ih => exact ih (fits.arrive byte)

theorem Accounted.write (accounted : Accounted duplex happened wire) (side : WireEnd)
    (data : List UInt8) :
    Accounted duplex (happened ++ [.wrote side data]) (wire.write side data) := by
  constructor
  case wiring => rw [Wire.duplex_write, accounted.wiring]
  case fits =>
    intro there
    rw [Account.ofHappenings_concat, Wire.queue_write, Account.note]
    have reaches : wire.reaches side there ↔ there = side.other ∨ duplex = .half := by
      rw [Wire.reaches, accounted.wiring]
    by_cases arrives : wire.reaches side there
    · rw [if_pos arrives, if_pos (reaches.mp arrives)]
      exact (accounted.fits there).pushEach data
    · rw [if_neg arrives, if_neg (mt reaches.mpr arrives)]
      exact accounted.fits there

theorem Accounted.leave {queue : ByteQueue} {n : Nat} (accounted : Accounted duplex happened wire)
    (drops : (wire.queue side).Drops queue n) :
    Accounted duplex (happened ++ [.left side ((wire.queue side).toList.take n)])
      (wire.setQueue side queue) := by
  constructor
  case wiring => rw [Wire.duplex_setQueue, accounted.wiring]
  case fits =>
    intro there
    rw [Account.ofHappenings_concat, Account.note]
    by_cases own : there = side
    · subst own
      rw [if_pos rfl, Wire.queue_setQueue_same]
      exact (accounted.fits there).leave drops
    · rw [if_neg (Ne.symm own), Wire.queue_setQueue_other wire own]
      exact accounted.fits there

end Wire

/-- A call that is under way at an end, with the bytes that have left the queue for it. -/
structure WireCall where
  request : SerialRequest
  progress : Progress := {}
  gone : List UInt8 := []

/-- A call that has ended, with the bytes that left the queue for it and those left there. -/
structure EndedCall where
  side : WireEnd
  request : SerialRequest
  reply : request.Reply
  gone : List UInt8
  held : List UInt8

/-- An ended call without its request and its reply. -/
def EndedCall.taken (call : EndedCall) : WireEnd × List UInt8 × List UInt8 :=
  (call.side, call.gone, call.held)

def EndedCall.written? : EndedCall → Option (WireEnd × List UInt8)
  | ⟨side, .write data _, _, _, _⟩ => some (side, data)
  | _ => none

inductive WireMove where
  | begin (side : WireEnd) (request : SerialRequest)
  /-- The call that is under way looks at the wire. If it is not patient, its time has run out. -/
  | look (side : WireEnd) (patient : Bool)

/-- A move that makes a read in place of a skip. -/
def WireMove.asRead : WireMove → WireMove
  | .begin side request => .begin side request.asRead
  | move => move

structure WireSession where
  traffic : Traffic
  calls : WireEnd → Option WireCall
  ended : List EndedCall
  happened : List Happening

namespace WireSession

def start (duplex : Duplex) : WireSession := ⟨.new duplex, fun _ => none, [], []⟩

/-- What leaves the queue of an end in a look. Nothing does in a write. -/
def leaving (side : WireEnd) (before after : Wire) : SerialRequest → List UInt8
  | .write _ _ => []
  | _ => (before.queue side).toList.take ((before.queue side).count - (after.queue side).count)

def happening (side : WireEnd) (leaving : List UInt8) : SerialRequest → Happening
  | .write data _ => .wrote side data
  | _ => .left side leaving

/-- Takes note of what a look came to: the end of the call, or how far it is now. -/
def settle (session : WireSession) (side : WireEnd) (call : WireCall)
    (result : call.request.Reply ⊕ Progress) (traffic : Traffic) : WireSession :=
  let leaving := leaving side session.traffic.wire traffic.wire call.request
  let happened := session.happened ++ [happening side leaving call.request]
  match result with
  | .inl reply =>
    { traffic
      calls := Function.update session.calls side none
      ended := session.ended ++ [⟨side, call.request, reply, call.gone ++ leaving,
        (traffic.wire.queue side).toList⟩]
      happened }
  | .inr progress =>
    { traffic
      calls := Function.update session.calls side
        (some ⟨call.request, progress, call.gone ++ leaving⟩)
      ended := session.ended
      happened }

/-- One look of the call that is under way. -/
def look (session : WireSession) (side : WireEnd) (patient : Bool) (call : WireCall) :
    WireSession :=
  let attended := session.traffic.attend side patient call.progress call.request
  session.settle side call attended.1 attended.2

def next (session : WireSession) : WireMove → WireSession
  | .begin side request =>
    match session.calls side with
    | some _ => session
    | none => { session with calls := Function.update session.calls side (some { request }) }
  | .look side patient =>
    match session.calls side with
    | none => session
    | some call => session.look side patient call

def run (duplex : Duplex) (moves : List WireMove) : WireSession := moves.foldl next (start duplex)

/-- The bytes that left the queue of an end for its calls, those of the present call included. -/
def goneAt (session : WireSession) (side : WireEnd) : List UInt8 :=
  (session.ended.filter (·.side = side)).flatMap EndedCall.gone ++
    (session.calls side).elim [] WireCall.gone

end WireSession

/-- A call under way has got what left the queue for it, and no more than it asks for. -/
def WireCall.Honest (call : WireCall) : Prop :=
  match call.request with
  | .read count _ => call.progress = ⟨call.gone, call.gone.length⟩ ∧ call.gone.length ≤ count
  | .skip count _ => call.progress = ⟨[], call.gone.length⟩ ∧ call.gone.length ≤ count
  | .write _ _ | .clear => call.gone = []

/-- A call replies with what left the queue for it. That is no more than it asked for, and less only
if the queue is then empty; and a queue that has been cleared is empty. -/
def EndedCall.Honest : EndedCall → Prop
  | ⟨_, .write data _, reply, gone, _⟩ => reply = some data.length ∧ gone = []
  | ⟨_, .read count _, reply, gone, held⟩ => reply = ⟨gone, some gone.length⟩ ∧
      gone.length ≤ count ∧ (gone.length < count → held = [])
  | ⟨_, .skip count _, reply, gone, held⟩ => reply = some gone.length ∧
      gone.length ≤ count ∧ (gone.length < count → held = [])
  | ⟨_, .clear, _, _, held⟩ => held = []

/-- What a look came to is honest, given what it took out of the queue and what it left there. A call
goes on only if it is patient and wants more than there was. -/
def WireCall.StaysHonest (call : WireCall) (side : WireEnd) (patient : Bool)
    (leaving held : List UInt8) : call.request.Reply ⊕ Progress → Prop
  | .inl reply => EndedCall.Honest ⟨side, call.request, reply, call.gone ++ leaving, held⟩
  | .inr progress => WireCall.Honest ⟨call.request, progress, call.gone ++ leaving⟩ ∧
      patient = true ∧ (call.gone ++ leaving).length < call.request.wanted ∧ held = []

section Looks

variable {wire : Wire} {side : WireEnd} {duplex : Duplex} {happened : List Happening}
  {queue : ByteQueue} {n : Nat}

theorem Accounted.bounds (accounted : Accounted duplex happened wire) (side : WireEnd) :
    (wire.queue side).InBounds :=
  (accounted.fits side).holds.bounds

/-- What is missing in a queue afterwards is what was taken from its front. -/
theorem leaving_of_drops (bounds : (wire.queue side).InBounds)
    (drops : (wire.queue side).Drops queue n) :
    (wire.queue side).toList.take ((wire.queue side).count - queue.count) =
      (wire.queue side).toList.take n := by
  have before := bounds.length_toList
  have after := drops.bounds.length_toList
  rw [drops.left, List.length_drop, before] at after
  rw [← after, Nat.sub_sub_eq_min, Nat.min_comm, ← before, ← List.take_eq_take_min]

theorem drops_reset (bounds : queue.InBounds) : queue.Drops queue.reset queue.count := by
  constructor
  case bounds => exact ⟨Nat.zero_le _, id⟩
  case left => rw [ByteQueue.toList_reset, ← bounds.length_toList, List.drop_length]
  case capacity => rfl
  case overruns => rfl

end Looks

namespace WireSession

variable {session : WireSession} {duplex : Duplex} {side there : WireEnd} {call : WireCall}

/-- A law of all calls under way is kept if it holds of the one that an end is given. -/
theorem forall_calls_update {calls : WireEnd → Option WireCall} {law : WireCall → Prop}
    {given : Option WireCall} (before : ∀ side, ∀ call ∈ calls side, law call)
    (new : ∀ call ∈ given, law call) (side there : WireEnd) :
    ∀ call ∈ Function.update calls side given there, law call := by
  by_cases own : there = side
  · subst own
    rw [Function.update_self]
    exact new
  · rw [Function.update_of_ne own]
    exact before there

section Settle

variable (result : call.request.Reply ⊕ Progress) (traffic : Traffic)

theorem traffic_settle : (session.settle side call result traffic).traffic = traffic := by
  cases result <;> rfl

theorem happened_settle : (session.settle side call result traffic).happened =
    session.happened ++ [happening side
      (leaving side session.traffic.wire traffic.wire call.request) call.request] := by
  cases result <;> rfl

theorem ended_settle : (session.settle side call result traffic).ended = session.ended ++
    result.elim (fun reply => [⟨side, call.request, reply, call.gone ++
      leaving side session.traffic.wire traffic.wire call.request,
      (traffic.wire.queue side).toList⟩]) fun _ => [] := by
  cases result
  · rfl
  · exact (List.append_nil _).symm

theorem goneAt_settle (present : session.calls side = some call) (there : WireEnd) :
    (session.settle side call result traffic).goneAt there = session.goneAt there ++
      if there = side then leaving side session.traffic.wire traffic.wire call.request else [] := by
  unfold goneAt settle
  by_cases own : there = side
  · subst own
    rw [if_pos rfl, present]
    cases result <;> simp
  · have other : ¬ side = there := fun same => own same.symm
    rw [if_neg own]
    cases result <;> simp [own, other]

variable {result traffic}

theorem honest_settle (calls : ∀ side, ∀ call ∈ session.calls side, call.Honest)
    (ended : ∀ call ∈ session.ended, call.Honest)
    {patient : Bool} (honest : call.StaysHonest side patient
      (leaving side session.traffic.wire traffic.wire call.request)
      (traffic.wire.queue side).toList result) :
    (∀ there, ∀ other ∈ (session.settle side call result traffic).calls there, other.Honest) ∧
      ∀ other ∈ (session.settle side call result traffic).ended, other.Honest := by
  cases result with
  | inl reply =>
    constructor
    · refine forall_calls_update calls ?_ side
      rintro other ⟨⟩
    · exact List.forall_mem_append.mpr ⟨ended, List.forall_mem_singleton.mpr honest⟩
  | inr progress =>
    constructor
    · refine forall_calls_update calls ?_ side
      rintro other ⟨⟩
      exact honest.1
    · exact ended

end Settle

/-- The wire after a look. -/
def looked (wire : Wire) (side : WireEnd) (call : WireCall) : Wire :=
  match call.request with
  | .write data _ => wire.write side data
  | .read count _ => (wire.read side (count - call.progress.count)).2
  | .skip count _ => (wire.skip side (count - call.progress.count)).2
  | .clear => wire.clear side

theorem wire_attend (traffic : Traffic) (side : WireEnd) (patient : Bool) (call : WireCall) :
    (traffic.attend side patient call.progress call.request).2.wire =
      looked traffic.wire side call := by
  obtain ⟨request, progress, gone⟩ := call
  cases request <;> rfl

theorem accounted_look (accounted : Accounted duplex session.happened session.traffic.wire)
    (side : WireEnd) (patient : Bool) (call : WireCall) :
    Accounted duplex (session.look side patient call).happened
      (session.look side patient call).traffic.wire := by
  have bounds := accounted.bounds side
  rw [look, traffic_settle, happened_settle, wire_attend]
  obtain ⟨request, progress, gone⟩ := call
  cases request with
  | write data timeout => exact accounted.write side data
  | read count timeout =>
    obtain ⟨-, drops⟩ := bounds.read (count - progress.count)
    have kept := accounted.leave drops
    rw [← leaving_of_drops bounds drops] at kept
    simpa [happening, leaving, looked, Wire.read] using kept
  | skip count timeout =>
    obtain ⟨-, drops⟩ := bounds.skip (count - progress.count)
    have kept := accounted.leave drops
    rw [← leaving_of_drops bounds drops] at kept
    simpa [happening, leaving, looked, Wire.skip] using kept
  | clear =>
    have drops := drops_reset bounds
    have kept := accounted.leave drops
    rw [← leaving_of_drops bounds drops] at kept
    simpa [happening, leaving, looked, Wire.clear] using kept

/-- A look takes what a call still wants, as far as it is there. -/
theorem wanted_of_drops {wire : Wire} {queue : ByteQueue} {gone : List UInt8} {count : Nat}
    (bounds : (wire.queue side).InBounds)
    (drops : (wire.queue side).Drops queue (count - gone.length)) (within : gone.length ≤ count) :
    let after := wire.setQueue side queue
    let wanted := (wire.queue side).toList.take (count - gone.length)
    (wire.queue side).toList.take ((wire.queue side).count - (after.queue side).count) = wanted ∧
      (gone ++ wanted).length ≤ count ∧
      ((gone ++ wanted).length < count → (after.queue side).toList = []) := by
  intro after wanted
  rw [Wire.queue_setQueue_same, leaving_of_drops bounds drops, drops.left, List.drop_eq_nil_iff,
    List.length_append, List.length_take]
  exact ⟨rfl, by omega, by omega⟩

/-- A call that does not end with a look has time left and finds its queue empty. -/
theorem waits_of_more {count got : Nat} {patient : Bool} {held : List UInt8}
    (more : ¬ (count ≤ got ∨ ¬ patient = true)) (short : got < count → held = []) :
    patient = true ∧ got < count ∧ held = [] := by
  obtain ⟨wants, waits⟩ := not_or.mp more
  have missing := Nat.lt_of_not_le wants
  exact ⟨not_not.mp waits, missing, short missing⟩

/-- A call stays honest in a look, whether it ends with it or goes on. -/
theorem honest_attend (bounds : (session.traffic.wire.queue side).InBounds) (honest : call.Honest)
    (patient : Bool) :
    let attended := session.traffic.attend side patient call.progress call.request
    call.StaysHonest side patient (leaving side session.traffic.wire attended.2.wire call.request)
      (attended.2.wire.queue side).toList attended.1 := by
  intro attended
  obtain ⟨request, progress, gone⟩ := call
  cases request with
  | write data timeout =>
    have nothing : gone = [] := honest
    exact ⟨rfl, (List.append_nil gone).trans nothing⟩
  | read count timeout =>
    obtain ⟨rfl, within⟩ : progress = ⟨gone, gone.length⟩ ∧ gone.length ≤ count := honest
    obtain ⟨taken, drops⟩ := bounds.read (count - gone.length)
    obtain ⟨left, few, short⟩ := wanted_of_drops bounds drops within
    have bytes : (session.traffic.wire.read side (count - gone.length)).1 = _ := taken
    have leaves : leaving side session.traffic.wire attended.2.wire (.read count timeout) = _ :=
      left
    rw [leaves]
    simp only [attended, Traffic.attend, bytes, ← List.length_append]
    split
    · exact ⟨rfl, few, short⟩
    · next more => exact ⟨⟨rfl, few⟩, waits_of_more more short⟩
  | skip count timeout =>
    obtain ⟨rfl, within⟩ : progress = ⟨[], gone.length⟩ ∧ gone.length ≤ count := honest
    obtain ⟨dropped, drops⟩ := bounds.skip (count - gone.length)
    obtain ⟨left, few, short⟩ := wanted_of_drops bounds drops within
    have bytes : (session.traffic.wire.skip side (count - gone.length)).1 = _ := dropped
    have leaves : leaving side session.traffic.wire attended.2.wire (.skip count timeout) = _ :=
      left
    rw [leaves]
    simp only [attended, Traffic.attend, bytes, ← List.length_take, ← List.length_append]
    split
    · exact ⟨rfl, few, short⟩
    · next more => exact ⟨⟨rfl, few⟩, waits_of_more more short⟩
  | clear =>
    show ((session.traffic.wire.clear side).queue side).toList = []
    rw [Wire.clear, Wire.queue_setQueue_same]
    exact ByteQueue.toList_reset _

/-- A write is over with one look, so what was written is told by the calls that have ended. -/
theorem written_look (written : session.happened.filterMap Happening.written? =
      session.ended.filterMap EndedCall.written?)
    (side : WireEnd) (patient : Bool) (call : WireCall) :
    (session.look side patient call).happened.filterMap Happening.written? =
      (session.look side patient call).ended.filterMap EndedCall.written? := by
  obtain ⟨request, progress, gone⟩ := call
  rw [look, happened_settle, ended_settle, List.filterMap_append, List.filterMap_append, written]
  congr 1
  cases request with
  | write data timeout => rfl
  | read | skip | clear =>
    dsimp only
    generalize (session.traffic.attend _ _ _ _).1 = result
    cases result <;> rfl

/-- Both ends are as their accounts tell, and every call got what left the queue for it. -/
structure Sound (duplex : Duplex) (session : WireSession) : Prop where
  accounted : Accounted duplex session.happened session.traffic.wire
  written : session.happened.filterMap Happening.written? =
    session.ended.filterMap EndedCall.written?
  gone : ∀ side, (Account.ofHappenings duplex side session.happened).gone = session.goneAt side
  calls : ∀ side, ∀ call ∈ session.calls side, call.Honest
  ended : ∀ call ∈ session.ended, call.Honest

/-- A call that meets nobody else on the wire is answered with its first look. -/
theorem answer_as_moves (free : session.calls side = none) (request : SerialRequest) :
    let after := (session.next (.begin side request)).next (.look side false)
    after.traffic.wire = (Wire.answer side request session.traffic.wire).2 ∧
      ∃ gone, after.ended = session.ended ++
        [⟨side, request, (Wire.answer side request session.traffic.wire).1, gone,
          (after.traffic.wire.queue side).toList⟩] := by
  intro after
  have asked : after = { session with
      calls := Function.update session.calls side (some { request }) }.look side false
        { request } := by
    simp only [after, next, free, Function.update_self]
  have answered : (session.traffic.attend side false {} request).2.wire =
      (Wire.answer side request session.traffic.wire).2 ∧
      (session.traffic.attend side false {} request).1 =
        .inl (Wire.answer side request session.traffic.wire).1 := by
    cases request <;> simp [Traffic.attend, Traffic.write, Wire.answer]
  rw [asked, look, traffic_settle, ended_settle, answered.2]
  exact ⟨answered.1, _, rfl⟩

/-- With a look a call ends, or else it is patient, wants more and has left nothing in its queue. -/
def Attended (before after : WireSession) (side : WireEnd) (call : WireCall) (patient : Bool) :
    Prop :=
  let held := (after.traffic.wire.queue side).toList
  ∃ taken, (after.calls side = none ∧ ∃ reply, after.ended = before.ended ++
      [⟨side, call.request, reply, call.gone ++ taken, held⟩]) ∨
    after.ended = before.ended ∧ patient = true ∧
      (call.gone ++ taken).length < call.request.wanted ∧ held = [] ∧
      ∃ progress, after.calls side = some ⟨call.request, progress, call.gone ++ taken⟩

theorem Sound.attended (sound : Sound duplex session) (present : session.calls side = some call)
    (patient : Bool) :
    Attended session (session.next (.look side patient)) side call patient := by
  have honest := honest_attend (sound.accounted.bounds side) (sound.calls side call present) patient
  have looks : session.next (.look side patient) = session.look side patient call := by
    simp only [next, present]
  rw [looks, look]
  generalize session.traffic.attend side patient call.progress call.request = attended at honest ⊢
  obtain ⟨result, traffic⟩ := attended
  refine ⟨leaving side session.traffic.wire traffic.wire call.request, ?_⟩
  cases result with
  | inl reply => exact .inl ⟨Function.update_self .., reply, rfl⟩
  | inr progress =>
    obtain ⟨-, waits, wants, empty⟩ := honest
    exact .inr ⟨rfl, waits, wants, empty, progress, Function.update_self ..⟩

theorem sound_start (duplex : Duplex) : Sound duplex (start duplex) := by
  constructor
  case accounted => exact accounted_new duplex
  case written => rfl
  case gone => exact fun side => rfl
  case calls =>
    intro side call present
    cases present
  case ended => exact List.forall_mem_nil _

theorem Sound.begin (sound : Sound duplex session) (free : session.calls side = none)
    (request : SerialRequest) :
    Sound duplex
      { session with calls := Function.update session.calls side (some { request }) } := by
  have fresh : WireCall.Honest { request } := by
    cases request with
    | read | skip => exact ⟨rfl, Nat.zero_le _⟩
    | write | clear => rfl
  constructor
  case accounted => exact sound.accounted
  case written => exact sound.written
  case gone =>
    intro there
    rw [sound.gone there, goneAt, goneAt]
    by_cases own : there = side
    · subst own
      simp [free]
    · simp [own]
  case calls =>
    refine forall_calls_update sound.calls ?_ side
    rintro call ⟨⟩
    exact fresh
  case ended => exact sound.ended

theorem gone_arrive (account : Account) (byte : UInt8) :
    (account.arrive byte).gone = account.gone := by
  unfold Account.arrive
  split <;> rfl

theorem gone_arrivals (account : Account) (data : List UInt8) :
    (data.foldl Account.arrive account).gone = account.gone := by
  induction data generalizing account with
  | nil => rfl
  | cons byte data ih => exact (ih _).trans (gone_arrive account byte)

/-- An account notes as gone just what leaves the queue of its end. -/
theorem gone_note (account : Account) (side there : WireEnd) (before after : Wire)
    (request : SerialRequest) :
    (account.note duplex there
        (happening side (leaving side before after request) request)).gone =
      account.gone ++ if there = side then leaving side before after request else [] := by
  have noted (bytes : List UInt8) : (account.note duplex there (.left side bytes)).gone =
      account.gone ++ if there = side then bytes else [] := by
    rw [Account.note]
    by_cases own : side = there
    · rw [if_pos own, if_pos own.symm]
    · rw [if_neg own, if_neg (Ne.symm own), List.append_nil]
  cases request with
  | write data timeout =>
    simp only [happening, leaving, Account.note, ite_self, List.append_nil]
    split
    · exact gone_arrivals account data
    · rfl
  | read | skip | clear => exact noted _

theorem Sound.look (sound : Sound duplex session) (present : session.calls side = some call)
    (patient : Bool) : Sound duplex (session.look side patient call) := by
  have bounds := sound.accounted.bounds side
  have honest := honest_attend bounds (sound.calls side call present) patient
  constructor
  case accounted => exact accounted_look sound.accounted side patient call
  case written => exact written_look sound.written side patient call
  case gone =>
    intro there
    rw [WireSession.look, happened_settle, goneAt_settle _ _ present, ← sound.gone there,
      Account.ofHappenings_concat]
    exact gone_note ..
  case calls => exact (honest_settle sound.calls sound.ended honest).1
  case ended => exact (honest_settle sound.calls sound.ended honest).2

theorem Sound.next (sound : Sound duplex session) (move : WireMove) :
    Sound duplex (session.next move) := by
  cases move with
  | begin side request =>
    simp only [WireSession.next]
    split
    · exact sound
    · next free => exact sound.begin free request
  | look side patient =>
    simp only [WireSession.next]
    split
    · exact sound
    · next call present => exact sound.look present patient

theorem sound_run (duplex : Duplex) (moves : List WireMove) : Sound duplex (run duplex moves) :=
  List.foldlRecOn moves next (sound_start duplex) fun _ sound move _ => sound.next move

section Twins

/-- A call, and the same or a read in its place, when both are as far. -/
structure TwinCalls (call other : WireCall) : Prop where
  request : other.request = call.request ∨ other.request = call.request.asRead
  count : other.progress.count = call.progress.count
  gone : other.gone = call.gone

/-- Two sessions in which the same has happened, though some skips of one are reads of the other. -/
structure Twins (session other : WireSession) : Prop where
  traffic : other.traffic = session.traffic
  happened : other.happened = session.happened
  calls : ∀ side, Option.Rel TwinCalls (session.calls side) (other.calls side)
  ended : other.ended.map EndedCall.taken = session.ended.map EndedCall.taken

variable {other : WireSession} {twin : WireCall} {before after : Wire}

theorem TwinCalls.leaving_eq (twins : TwinCalls call twin) :
    leaving side before after twin.request = leaving side before after call.request := by
  rcases twins.request with same | same
  · rw [same]
  · rw [same]
    cases call.request <;> rfl

theorem TwinCalls.happening_eq (twins : TwinCalls call twin) (bytes : List UInt8) :
    happening side bytes twin.request = happening side bytes call.request := by
  rcases twins.request with same | same
  · rw [same]
  · rw [same]
    cases call.request <;> rfl

/-- How far a call is that goes on after a look. -/
def goesOn {Reply : Type} (result : Reply ⊕ Progress) : Option Nat :=
  result.elim (fun _ => none) fun progress => some progress.count

theorem goesOn_ite {Reply : Type} (ended : Prop) [Decidable ended] (reply : Reply)
    (progress : Progress) :
    goesOn (if ended then .inl reply else .inr progress) =
      if ended then none else some progress.count := by
  split <;> rfl

/-- Twins see the same when they look, and either both of them end or none. -/
theorem TwinCalls.attend (twins : TwinCalls call twin) {traffic : Traffic}
    (bounds : (traffic.wire.queue side).InBounds) (patient : Bool) :
    (traffic.attend side patient twin.progress twin.request).2 =
        (traffic.attend side patient call.progress call.request).2 ∧
      goesOn (traffic.attend side patient twin.progress twin.request).1 =
        goesOn (traffic.attend side patient call.progress call.request).1 := by
  obtain ⟨request, progress, gone⟩ := call
  obtain ⟨other, others, _⟩ := twin
  obtain ⟨same, count, -⟩ := twins
  dsimp only at same count ⊢
  have alike : (traffic.attend side patient others request).2 =
        (traffic.attend side patient progress request).2 ∧
      goesOn (traffic.attend side patient others request).1 =
        goesOn (traffic.attend side patient progress request).1 := by
    cases request with
    | write | clear => exact ⟨rfl, rfl⟩
    | read | skip => simp only [Traffic.attend, goesOn_ite, count, and_self]
  rcases same with rfl | rfl
  · exact alike
  -- Only a skip has another call in its place.
  · cases request with
    | write | clear | read => exact alike
    | skip wanted timeout =>
      have read := (bounds.read (wanted - progress.count)).1
      have skip := (bounds.skip (wanted - progress.count)).1
      have length : (traffic.wire.read side (wanted - progress.count)).1.length =
          (traffic.wire.skip side (wanted - progress.count)).1 := by
        rw [← List.length_take, ← read] at skip
        exact skip.symm
      have wire : (traffic.wire.read side (wanted - progress.count)).2 =
          (traffic.wire.skip side (wanted - progress.count)).2 :=
        congrArg (traffic.wire.setQueue side) (ByteQueue.skip_snd _ _).symm
      simp only [SerialRequest.asRead, Traffic.attend, goesOn_ite, count, length, wire, and_self]

theorem rel_calls_update {calls others : WireEnd → Option WireCall}
    (twins : ∀ side, Option.Rel TwinCalls (calls side) (others side))
    {given other : Option WireCall} (new : Option.Rel TwinCalls given other) (side there : WireEnd) :
    Option.Rel TwinCalls (Function.update calls side given there)
      (Function.update others side other there) := by
  by_cases own : there = side
  · subst own
    rw [Function.update_self, Function.update_self]
    exact new
  · rw [Function.update_of_ne own, Function.update_of_ne own]
    exact twins there

theorem Twins.begin (twins : Twins session other) (side : WireEnd) {request stand : SerialRequest}
    (same : stand = request ∨ stand = request.asRead) :
    Twins { session with calls := Function.update session.calls side (some { request }) }
      { other with calls := Function.update other.calls side (some { request := stand }) } := by
  constructor
  case traffic => exact twins.traffic
  case happened => exact twins.happened
  case calls =>
    have begun : TwinCalls { request } { request := stand } := ⟨same, rfl, rfl⟩
    exact rel_calls_update twins.calls (.some begun) side
  case ended => exact twins.ended

theorem Twins.settle (twins : Twins session other) (calls : TwinCalls call twin)
    {result : call.request.Reply ⊕ Progress} {outcome : twin.request.Reply ⊕ Progress}
    (same : goesOn outcome = goesOn result) (traffic : Traffic) :
    Twins (session.settle side call result traffic) (other.settle side twin outcome traffic) := by
  have leaving_same : leaving side other.traffic.wire traffic.wire twin.request =
      leaving side session.traffic.wire traffic.wire call.request := by
    rw [twins.traffic]
    exact calls.leaving_eq
  constructor
  case traffic => rw [traffic_settle, traffic_settle]
  case happened =>
    rw [happened_settle, happened_settle, leaving_same, calls.happening_eq, twins.happened]
  case calls =>
    cases result <;> cases outcome
    case inl.inl => exact rel_calls_update twins.calls .none side
    case inl.inr | inr.inl => cases same
    case inr.inr progress others =>
      have further : TwinCalls
          ⟨call.request, progress, call.gone ++ leaving side session.traffic.wire traffic.wire _⟩
          ⟨twin.request, others, twin.gone ++ leaving side other.traffic.wire traffic.wire _⟩ :=
        ⟨calls.request, Option.some.inj same, congrArg₂ (· ++ ·) calls.gone leaving_same⟩
      exact rel_calls_update twins.calls (.some further) side
  case ended =>
    cases result <;> cases outcome
    case inl.inl =>
      simp only [WireSession.settle, List.map_append, List.map_cons, List.map_nil, EndedCall.taken,
        twins.ended, leaving_same, calls.gone]
    case inl.inr | inr.inl => cases same
    case inr.inr => exact twins.ended

theorem Twins.look (sound : Sound duplex session) (twins : Twins session other)
    (calls : TwinCalls call twin) (side : WireEnd) (patient : Bool) :
    Twins (session.look side patient call) (other.look side patient twin) := by
  obtain ⟨traffic, goes⟩ := calls.attend (sound.accounted.bounds side) patient
  rw [WireSession.look, WireSession.look, twins.traffic, traffic]
  exact twins.settle calls goes _

theorem Twins.free_or_busy (twins : Twins session other) (side : WireEnd) :
    (session.calls side = none ∧ other.calls side = none) ∨
      ∃ call twin, session.calls side = some call ∧ other.calls side = some twin ∧
        TwinCalls call twin := by
  have calls := twins.calls side
  generalize session.calls side = own, other.calls side = others at calls ⊢
  cases calls with
  | none => exact .inl ⟨rfl, rfl⟩
  | some calls => exact .inr ⟨_, _, rfl, rfl, calls⟩

/-- Twins stay twins when one of them begins a skip and the other a read. -/
theorem Twins.next (sound : Sound duplex session) (twins : Twins session other)
    {move stand : WireMove} (same : stand = move ∨ stand = move.asRead) :
    Twins (session.next move) (other.next stand) := by
  cases move with
  | begin side request =>
    obtain ⟨begun, rfl, requests⟩ : ∃ begun, stand = .begin side begun ∧
        (begun = request ∨ begun = request.asRead) := by
      rcases same with rfl | rfl
      · exact ⟨_, rfl, .inl rfl⟩
      · exact ⟨_, rfl, .inr rfl⟩
    rcases twins.free_or_busy side with ⟨free, idle⟩ | ⟨call, twin, busy, engaged, -⟩
    · simp only [WireSession.next, free, idle]
      exact twins.begin side requests
    · simp only [WireSession.next, busy, engaged]
      exact twins
  | look side patient =>
    obtain rfl : stand = .look side patient := same.elim id id
    rcases twins.free_or_busy side with ⟨free, idle⟩ | ⟨call, twin, busy, engaged, calls⟩
    · simp only [WireSession.next, free, idle]
      exact twins
    · simp only [WireSession.next, busy, engaged]
      exact twins.look sound calls side patient

theorem Twins.moves (sound : Sound duplex session) (twins : Twins session other)
    {moves others : List WireMove}
    (same : List.Forall₂ (fun move stand => stand = move ∨ stand = move.asRead) moves others) :
    Twins (moves.foldl WireSession.next session) (others.foldl WireSession.next other) := by
  induction same generalizing session other with
  | nil => exact twins
  | cons first rest ih => exact ih (sound.next _) (twins.next sound first)

theorem twins_start (duplex : Duplex) : Twins (start duplex) (start duplex) := by
  constructor
  case calls => exact fun side => .none
  all_goals rfl

end Twins

/-- A wire is a faithful bounded queue in each direction, whatever calls are made at its ends and
however they run into each other. What has left an end followed by what is pending there is what
was accepted of the bytes written towards it, in order; the others found 256 bytes pending, and
overruns are their number while it can be told. Calls get what leaves the queue for them and never
more than they ask for. With a look a call ends unless it still waits for bytes that are not there,
and when nobody else moves the first look is the answer of the wire. A read in place of a skip leaves
all as it was. -/
theorem run_faithful (duplex : Duplex) (moves : List WireMove) :
    let session := run duplex moves
    (∀ side, let account := Account.ofHappenings duplex side session.happened
      let queue := session.traffic.wire.queue side
      account.accepted = session.goneAt side ++ queue.toList ∧ account.gone = session.goneAt side ∧
        queue.count = queue.toList.length ∧ queue.count ≤ 256 ∧
        queue.overruns.toNat = min account.rejected (UInt32.size - 1)) ∧
      session.happened.filterMap Happening.written? =
        session.ended.filterMap EndedCall.written? ∧
      (∀ call ∈ session.ended, call.Honest) ∧
      (∀ side call, session.calls side = some call → ∀ patient,
        Attended session (session.next (.look side patient)) side call patient) ∧
      (∀ side request, session.calls side = none →
        let after := (session.next (.begin side request)).next (.look side false)
        let answered := Wire.answer side request session.traffic.wire
        after.traffic.wire = answered.2 ∧ ∃ gone, after.ended = session.ended ++
          [⟨side, request, answered.1, gone, (after.traffic.wire.queue side).toList⟩]) ∧
      ∀ others, List.Forall₂ (fun move stand => stand = move ∨ stand = move.asRead) moves others →
        let twin := run duplex others
        twin.traffic = session.traffic ∧ twin.happened = session.happened ∧
          twin.ended.map EndedCall.taken = session.ended.map EndedCall.taken := by
  intro session
  have sound := sound_run duplex moves
  refine ⟨fun side => ?_, sound.written, sound.ended, fun side call => sound.attended,
    fun side request free => answer_as_moves free request, fun others same => ?_⟩
  · have fits := sound.accounted.fits side
    refine ⟨?_, sound.gone side, fits.holds.bounds.length_toList.symm, fits.count_le,
      fits.holds.overruns⟩
    rw [← sound.gone side]
    exact fits.conserved
  · have twins := (twins_start duplex).moves (sound_start duplex) same
    exact ⟨twins.traffic, twins.happened, twins.ended⟩

end WireSession

end Bench
end SplitKeyboard
