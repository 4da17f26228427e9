import Mathlib.Data.List.Infix
import SplitKeyboard.Proofs.Uart.Transfers

/-!
What it takes to clear the input of a byte stream. The stream is asked whether something is there,
and as long as it says so a piece is read and forgotten. A fault ends this like silence does, but
what stands behind the fault is not gone: later calls get it.
-/
namespace SplitKeyboard.Uart

namespace StreamView

variable {before middle after : StreamView} {gone more : List Item}

def buffered (view : StreamView) : List Item := view.arrived view.now

/-- Some time passes, and these items are gone from the front of the input. -/
structure Loses (before : StreamView) (gone : List Item) (after : StreamView) : Prop where
  begins : before.now ≤ after.now
  rest : ∀ time, after.now ≤ time → before.arrived time = gone ++ after.arrived time

theorem loses_nothing (before : StreamView) : before.Loses [] before :=
  ⟨Nat.le_refl _, fun _ _ => rfl⟩

theorem Loses.trans (first : before.Loses gone middle) (then_more : middle.Loses more after) :
    before.Loses (gone ++ more) after := by
  constructor
  case begins => exact Nat.le_trans first.begins then_more.begins
  case rest =>
    intro time later
    rw [first.rest time (Nat.le_trans then_more.begins later), then_more.rest time later,
      List.append_assoc]

theorem Takes.loses {lasting : Bool} {count deadline : Nat}
    (takes : before.Takes lasting count deadline after) :
    before.Loses (taken lasting count (before.arrived deadline)) after :=
  ⟨takes.begins, takes.rest⟩

theorem Loses.buffered_eq (loses : before.Loses gone after) (now : after.now = before.now) :
    before.buffered = gone ++ after.buffered := by
  rw [buffered, buffered, ← now]
  exact loses.rest after.now (Nat.le_refl _)

/-- The items that are there in one state and no longer in a later one. -/
def lost (before after : StreamView) : List Item :=
  (before.arrived after.now).take ((before.arrived after.now).length - after.buffered.length)

theorem Loses.lost_eq (loses : before.Loses gone after) : before.lost after = gone := by
  rw [lost, loses.rest after.now (Nat.le_refl _), buffered, List.length_append,
    Nat.add_sub_cancel, List.take_left]

/-- A read that finds something does not wait, and takes it. -/
theorem Reads.here {manner : Manner} {count deadline : Nat} {reply : StreamRead}
    (placed : manner.placed = true) (passing : manner.lasting = false)
    (here : before.buffered ≠ []) (reads : before.Reads manner count deadline reply after) :
    after.now = before.now ∧ ∃ gone, before.Loses gone after ∧ gone ≠ [] ∧
      ((reply = .fault ∧ gone = [.fault]) ∨ (reply ≠ .fault ∧ .fault ∉ gone)) := by
  -- The first moment at which something is there is now.
  have at_once {moment : Nat} (first : before.First deadline moment) : moment = before.now := by
    rcases Nat.eq_or_lt_of_le first.begins with same | waited
    · exact same.symm
    · exact absurd (first.earliest _ (Nat.le_refl _) waited) here
  cases reads with
  | @bytes taken _ some few first rest =>
    refine ⟨at_once first, taken.map .byte, ⟨first.begins, rest⟩, ?_, .inr ⟨by simp, by simp⟩⟩
    exact fun nothing => some (List.map_eq_nil_iff.mp nothing)
  | ending first rest =>
    refine ⟨at_once first, [.ending], ⟨first.begins, fun time later => ?_⟩, by simp,
      .inr ⟨by simp, by simp⟩⟩
    obtain ⟨items, there, left⟩ := rest time later
    rw [there, left, passing]
    rfl
  | fault first rest =>
    exact ⟨at_once first, [.fault], ⟨first.begins, rest⟩, by simp, .inl ⟨rfl, rfl⟩⟩
  | failure unplaced => exact absurd placed (by simp [unplaced])
  | timedOut now silent =>
    exact absurd (silent _ (Nat.le_refl _) (now ▸ Nat.le_max_left _ _)) here

end StreamView

section Items

variable {items : List Item}

/-- The count that a transfer reports when it has used up these items. -/
def counted (gone : List Item) : Option Nat :=
  if .fault ∈ gone then none else some (readable gone).length

theorem readable_taken (lasting : Bool) (count : Nat) (items : List Item) :
    readable (taken lasting count items) = (readable items).take count := by
  fun_induction taken lasting count items with
  | case1 => rfl
  | case2 => rfl
  | case3 count value items ih => exact congrArg (List.cons value) ih
  | case4 count items => rfl
  | case5 count items => rfl
  | case6 count items => rfl

theorem dropWhile_sound {items : List Item} (rest : List Item) (sound : .fault ∉ items) :
    (items ++ rest).dropWhile (· ≠ .fault) = rest.dropWhile (· ≠ .fault) := by
  apply List.dropWhile_append_of_pos
  intro item present
  exact decide_eq_true (ne_of_mem_of_not_mem present sound)

theorem fault_mem_taken (lasting : Bool) (count : Nat) (items : List Item) :
    .fault ∈ taken lasting count items ↔ broken count items = true := by
  fun_induction taken lasting count items <;> simp_all [broken]

theorem delivered_eq (lasting : Bool) (count : Nat) (items : List Item) :
    delivered count items =
      ⟨readable (taken lasting count items), counted (taken lasting count items)⟩ := by
  rw [delivered, counted, readable_taken, List.length_take]
  simp only [fault_mem_taken]

end Items

/-- A byte stream that can be asked whether something is there. The question itself may fail at any
time. What has come stays where it is until it is read, and writes leave it alone. -/
structure PolledStream (σ : Type) extends ByteStream σ where
  ready : σ → Option Bool × σ
  /-- Until when a read waits that is given no deadline. -/
  patience : Nat
  placed : manner.placed = true
  passing : manner.lasting = false
  unseen : ∀ s, view (ready s).2 = view s
  some_here : ∀ s, (ready s).1 = some true → (view s).buffered ≠ []
  none_here : ∀ s, (ready s).1 = some false → (view s).buffered = []
  stays : ∀ s time, (view s).now ≤ time → (view s).buffered <+: (view s).arrived time
  keeps : ∀ s data deadline, data ≠ [] →
    (view s).Loses [] (view (answer (.write data deadline) s).2)

/-- Why a drain stops: nothing is there, the question failed, or a read did. -/
inductive Halt where
  | dry
  | unready
  | broken
  deriving DecidableEq

namespace PolledStream

variable {σ : Type} (stream : PolledStream σ) (s : σ)

/-- The read of a drain. -/
def readOn (s : σ) : StreamRead × σ :=
  stream.answer (.read drainChunk stream.patience) (stream.ready s).2

variable {stream s}

theorem readOn_here (here : (stream.ready s).1 = some true) :
    (stream.view (stream.readOn s).2).now = (stream.view s).now ∧
      ∃ gone, (stream.view s).Loses gone (stream.view (stream.readOn s).2) ∧ gone ≠ [] ∧
        (((stream.readOn s).1 = .fault ∧ gone = [.fault]) ∨
          ((stream.readOn s).1 ≠ .fault ∧ .fault ∉ gone)) := by
  have reads := stream.reads (stream.ready s).2 drainChunk stream.patience (by decide)
  rw [stream.unseen] at reads
  exact reads.here stream.placed stream.passing (stream.some_here s here)

theorem readOn_shrinks (here : (stream.ready s).1 = some true) :
    (stream.view (stream.readOn s).2).buffered.length < (stream.view s).buffered.length := by
  obtain ⟨now, gone, loses, some, -⟩ := readOn_here here
  have positive := List.length_pos_iff.mpr some
  rw [loses.buffered_eq now, List.length_append]
  omega

variable (stream)

/-- Reads and forgets as long as the stream says that something is there. -/
def drain (s : σ) : Halt × σ :=
  match _told : (stream.ready s).1 with
  | none => (.unready, (stream.ready s).2)
  | some false => (.dry, (stream.ready s).2)
  | some true =>
    match (stream.readOn s).1 with
    | .fault => (.broken, (stream.readOn s).2)
    | .bytes _ | .timedOut => drain (stream.readOn s).2
termination_by (stream.view s).buffered.length
decreasing_by all_goals exact readOn_shrinks _told

section Rounds

variable {stream}

theorem drain_stops (told : (stream.ready s).1 ≠ some true) :
    (stream.drain s).2 = (stream.ready s).2 := by
  rw [drain]
  split
  · rfl
  · rfl
  · next here => exact absurd here told

theorem drain_fails (told : (stream.ready s).1 = some true)
    (failed : (stream.readOn s).1 = .fault) : (stream.drain s).2 = (stream.readOn s).2 := by
  rw [drain]
  split
  · next none_told => cases told.symm.trans none_told
  · next nothing => cases told.symm.trans nothing
  · rw [failed]

theorem drain_goes_on (told : (stream.ready s).1 = some true)
    (brought : (stream.readOn s).1 ≠ .fault) :
    stream.drain s = stream.drain (stream.readOn s).2 := by
  conv => lhs; rw [drain]
  split
  · next none_told => cases told.symm.trans none_told
  · next nothing => cases told.symm.trans nothing
  · split
    · next failed => exact absurd failed brought
    · rfl
    · rfl

end Rounds

section Drain

variable {stream} {before middle after : StreamView} {gone more : List Item} {halt : Halt}

/-- What a drain has done when it stops. -/
structure Drained (before : StreamView) (halt : Halt) (gone : List Item) (after : StreamView) :
    Prop where
  now : after.now = before.now
  loses : before.Loses gone after
  dry : halt = .dry → after.buffered = []
  sound : halt ≠ .broken → .fault ∉ gone
  broken : halt = .broken → ∃ front, .fault ∉ front ∧ gone = front ++ [.fault]

/-- What is forgotten before a drain belongs to a longer one. -/
theorem Drained.cons (now : middle.now = before.now) (loses : before.Loses more middle)
    (sound : .fault ∉ more) (drained : Drained middle halt gone after) :
    Drained before halt (more ++ gone) after := by
  constructor
  case now => exact drained.now.trans now
  case loses => exact loses.trans drained.loses
  case dry => exact drained.dry
  case sound =>
    intro whole
    rw [List.mem_append, not_or]
    exact ⟨sound, drained.sound whole⟩
  case broken =>
    intro broken
    obtain ⟨front, before_fault, ends⟩ := drained.broken broken
    refine ⟨more ++ front, ?_, by rw [ends, List.append_assoc]⟩
    rw [List.mem_append, not_or]
    exact ⟨sound, before_fault⟩

theorem drained_at_once (asked : after = before) (dry : halt = .dry → before.buffered = [])
    (whole : halt ≠ .broken) : Drained before halt [] after := by
  subst asked
  constructor
  case now => rfl
  case loses => exact StreamView.loses_nothing _
  case dry => exact dry
  case sound => exact fun _ => List.not_mem_nil
  case broken => exact fun broken => absurd broken whole

/-- The rounds of a drain put together, by induction on them. -/
theorem drain_drained (stream : PolledStream σ) (s : σ) :
    ∃ gone, Drained (stream.view s) (stream.drain s).1 gone (stream.view (stream.drain s).2) := by
  fun_induction drain stream s with
  | case1 s told => exact ⟨[], drained_at_once (stream.unseen s) nofun nofun⟩
  | case2 s told =>
    exact ⟨[], drained_at_once (stream.unseen s) (fun _ => stream.none_here s told) nofun⟩
  | case3 s told failed =>
    obtain ⟨now, gone, loses, -, ⟨-, rfl⟩ | ⟨sound, -⟩⟩ := readOn_here told
    · refine ⟨[.fault], now, loses, nofun, fun whole => absurd rfl whole, fun _ => ?_⟩
      exact ⟨[], List.not_mem_nil, rfl⟩
    · exact absurd failed sound
  | case4 s told _ brought ih | case5 s told brought ih =>
    obtain ⟨now, more, loses, -, ⟨failed, -⟩ | ⟨-, sound⟩⟩ := readOn_here told
    · rw [brought] at failed
      cases failed
    · obtain ⟨gone, drained⟩ := ih
      exact ⟨more ++ gone, drained.cons now loses sound⟩

/-- A drain stops over a failed question only if a question fails. -/
theorem drain_ne_unready (sound : ∀ t, (stream.ready t).1 ≠ none) (s : σ) :
    (stream.drain s).1 ≠ .unready := by
  fun_induction drain stream s with
  | case1 s told => exact absurd told (sound s)
  | case2 | case3 => nofun
  | case4 s told bytes brought ih | case5 s told brought ih => exact ih

/-- Unless the question fails, what is left is what stands behind the first fault. -/
theorem Drained.left_eq (drained : Drained before halt gone after) (asked : halt ≠ .unready) :
    after.buffered = (before.buffered.dropWhile (· ≠ .fault)).drop 1 := by
  rw [drained.loses.buffered_eq drained.now]
  cases halt with
  | dry =>
    rw [dropWhile_sound _ (drained.sound nofun), drained.dry rfl]
    rfl
  | unready => exact absurd rfl asked
  | broken =>
    obtain ⟨front, sound, rfl⟩ := drained.broken rfl
    rw [List.append_assoc, dropWhile_sound _ sound]
    rfl

end Drain

section Calls

/-- A device call. It clears the input by draining it. -/
def call (s : σ) : (request : SerialRequest) → request.Reply × σ
  | .write data timeout => stream.run s (.write data timeout)
  | .read count timeout => stream.run s (.read count timeout)
  | .skip count timeout => stream.run s (.skip count timeout)
  | .clear => ((), (stream.drain s).2)

/-- What a call replies that uses up these items. -/
def Gets (gone : List Item) : (request : SerialRequest) → request.Reply → Prop
  | .write _ _, _ => gone = []
  | .read _ _, delivery => delivery = ⟨readable gone, counted gone⟩
  | .skip _ _, result => result = counted gone
  | .clear, _ => True

variable {stream}

theorem gathers_gets {deadline left : Nat} {calls : List StreamExchange} {delivery : Delivery}
    {after : σ}
    (gathers : Gathers stream.toByteStream deadline [] left s calls delivery after) :
    ∃ gone, (stream.view s).Loses gone (stream.view after) ∧
      delivery = ⟨readable gone, counted gone⟩ := by
  obtain ⟨takes, whole⟩ := gathers.account (.inl stream.placed)
  rw [behind_nil, delivered_eq stream.manner.lasting] at whole
  exact ⟨_, takes.loses, whole⟩

theorem writeRest_keeps (deadline written : Nat) (data : List UInt8) :
    (stream.view s).Loses []
      (stream.view ((writeRest deadline written data).run stream.answer s).2) := by
  induction written, data using writeRest.induct generalizing s with
  | case1 written =>
    rw [writeRest, dif_pos rfl]
    exact StreamView.loses_nothing _
  | case2 written data more ih =>
    have keeps := stream.keeps s data deadline more
    rcases answered : stream.answer (.write data deadline) s with ⟨reply, middle⟩
    rw [answered] at keeps
    rw [writeRest, dif_neg more]
    simp only [Program.run, answered]
    cases reply with
    | accepted count positive => exact keeps.trans (ih count positive)
    | fault | timedOut => exact keeps

theorem call_gets (stream : PolledStream σ) (s : σ) (request : SerialRequest) :
    ∃ gone, (stream.view s).Loses gone (stream.view (stream.call s request).2) ∧
      Gets gone request (stream.call s request).1 := by
  have inTime (timeout : UInt32) := stream.begins_inTime timeout s
  cases request with
  | write data timeout =>
    simp only [call, ByteStream.run, serve, stream.run_uptime]
    exact ⟨[], writeRest_keeps .., rfl⟩
  | read count timeout =>
    simp only [call, ByteStream.run, serve, stream.run_uptime]
    exact gathers_gets (gather_gathers stream.toByteStream (id : 0 < count → 0 < count) [] s
      (inTime timeout))
  | skip count timeout =>
    have some_chunk : 0 < count → 0 < drainChunk := fun _ => by decide
    obtain ⟨gone, loses, gets⟩ := gathers_gets (gather_gathers stream.toByteStream some_chunk [] s
      (inTime timeout))
    simp only [call, ByteStream.run, serve, stream.run_uptime, Program.run_bind, Program.run]
    exact ⟨gone, loses, congrArg Delivery.count gets⟩
  | clear =>
    obtain ⟨gone, drained⟩ := stream.drain_drained s
    exact ⟨gone, drained.loses, trivial⟩

/-- What a call returns or counts of the items that it uses up. -/
def fetched (gone : List Item) : SerialRequest → List Item
  | .read _ _ | .skip _ _ => gone
  | .write _ _ | .clear => []

theorem fetched_front (gone : List Item) (request : SerialRequest) :
    fetched gone request <+: gone := by
  cases request with
  | read | skip => exact List.prefix_rfl
  | write | clear => exact List.nil_prefix

/-- What reads and skips get of the first `old` items of the input in a row of calls. -/
def regained (stream : PolledStream σ) : (old : Nat) → List SerialRequest → σ → List Item
  | _, [], _ => []
  | old, request :: requests, s =>
    let after := (stream.call s request).2
    let gone := (stream.view s).lost (stream.view after)
    (fetched gone request).take old ++ stream.regained (old - gone.length) requests after

/-- Nothing is got of the old input but what is there. -/
theorem mem_of_mem_regained {front : List Item} {item : Item} {requests : List SerialRequest}
    (there : ∀ time, (stream.view s).now ≤ time → front <+: (stream.view s).arrived time)
    (got : item ∈ stream.regained front.length requests s) : item ∈ front := by
  induction requests generalizing front s with
  | nil => cases got
  | cons request requests ih =>
    obtain ⟨gone, loses, -⟩ := stream.call_gets s request
    -- What a call uses up comes off the front, so the rest of the old input still is ahead.
    have ahead {time : Nat} (later : (stream.view (stream.call s request).2).now ≤ time) :
        front <+: gone ++ (stream.view (stream.call s request).2).arrived time := by
      rw [← loses.rest time later]
      exact there time (Nat.le_trans loses.begins later)
    have rest : (front.drop gone.length).length = front.length - gone.length := List.length_drop
    rw [regained, loses.lost_eq, ← rest, List.mem_append] at got
    rcases got with now | later
    · have taken : item ∈ gone.take front.length :=
        (List.IsPrefix.take (fetched_front gone request) _).mem now
      rw [List.prefix_iff_eq_take.mp (ahead (Nat.le_refl _)), List.take_append]
      exact List.mem_append_left _ taken
    · refine List.mem_of_mem_drop (ih (fun time behind => ?_) later)
      have dropped := List.IsPrefix.drop (ahead behind) gone.length
      rwa [List.drop_left] at dropped

theorem read_one {item : Item} {rest : List Item}
    (here : (stream.view s).buffered = item :: rest) :
    let after := (stream.call s (.read 1 0)).2
    (stream.view s).Loses [item] (stream.view after) ∧ (stream.view after).buffered = rest := by
  have gathers := gather_gathers stream.toByteStream (id : 0 < 1 → 0 < 1) [] s
    (stream.begins_inTime 0 s)
  simp only [call, ByteStream.run, serve, stream.run_uptime]
  obtain ⟨takes, -⟩ := gathers.account (.inl stream.placed)
  have loses := takes.loses
  have now := Nat.le_antisymm gathers.within.inTime loses.begins
  have at_once : (stream.view s).arrived (stream.deadline 0 s) = item :: rest := here
  have one : taken stream.manner.lasting 1 (item :: rest) = [item] := by
    rw [stream.passing]
    cases item <;> rfl
  rw [at_once, one] at loses
  have split := loses.buffered_eq now
  rw [here] at split
  exact ⟨loses, (List.tail_eq_of_cons_eq split).symm⟩

/-- Reading on byte by byte, one comes to every byte that is there. -/
theorem regained_reads {front back : List Item} {value : UInt8} {old : Nat}
    (here : (stream.view s).buffered = front ++ .byte value :: back) (within : front.length < old) :
    .byte value ∈ stream.regained old (List.replicate (front.length + 1) (.read 1 0)) s := by
  induction front generalizing s old with
  | nil =>
    obtain ⟨loses, -⟩ := read_one here
    rw [List.length_nil, List.replicate_one, regained, loses.lost_eq]
    refine List.mem_append_left _ ?_
    rw [fetched, List.take_of_length_le within]
    exact List.mem_singleton_self _
  | cons item front ih =>
    obtain ⟨loses, rest⟩ := read_one here
    rw [List.length_cons] at within ⊢
    rw [List.replicate_succ, regained, loses.lost_eq]
    exact List.mem_append_right _ (ih rest (Nat.lt_sub_of_add_lt within))

end Calls

end PolledStream

/-- What an arrival adds to the input. -/
def Arrival.items : Arrival → List Item
  | .bytes [] => [.ending]
  | .bytes values => values.map .byte
  | .endOfInput => [.ending]
  | .fault => [.fault]
  | .readyFault => []

theorem Arrival.items_ne_nil {arrival : Arrival} (readable : arrival ≠ .readyFault) :
    arrival.items ≠ [] := by
  cases arrival with
  | bytes bytes => cases bytes <;> exact List.cons_ne_nil _ _
  | fault | endOfInput => exact List.cons_ne_nil _ _
  | readyFault => exact absurd rfl readable

namespace Schedule

variable {stream : Schedule}

def ready (stream : Schedule) : Option Bool :=
  if stream.leftover = [] then
    match stream.arrivals with
    | [] => some false
    | (time, arrival) :: _ =>
      if stream.now < time then some false
      else if arrival = .readyFault then none
      else some true
  else some true

theorem arrivedBy_cons (time moment : Nat) (arrival : Arrival) (rest : List (Nat × Arrival)) :
    arrivedBy time ((moment, arrival) :: rest) =
      if time < moment then [] else arrival.items ++ arrivedBy time rest := by
  cases arrival with
  | bytes bytes => cases bytes <;> rfl
  | fault | endOfInput | readyFault => rfl

theorem arrivedBy_mono {time later : Nat} (waits : time ≤ later)
    (arrivals : List (Nat × Arrival)) : arrivedBy time arrivals <+: arrivedBy later arrivals := by
  induction arrivals with
  | nil => exact List.prefix_rfl
  | cons next rest ih =>
    rw [arrivedBy_cons, arrivedBy_cons]
    by_cases early : time < next.1
    · rw [if_pos early]
      exact List.nil_prefix
    · rw [if_neg early, if_neg (by omega)]
      exact (List.prefix_append_right_inj _).mpr ih

/-- A write leaves the input alone. -/
theorem writeNext_keeps (data : List UInt8) (deadline : Nat) (stream : Schedule)
    (acceptances : List Acceptance) :
    stream.view.Loses [] (stream.writeNext data deadline acceptances).2.view := by
  induction acceptances generalizing stream with
  | nil =>
    rw [writeNext]
    split <;> exact ⟨Nat.le_refl _, fun _ _ => rfl⟩
  | cons acceptance rest ih =>
    cases acceptance with
    | all =>
      rw [writeNext]
      split <;> exact ⟨Nat.le_refl _, fun _ _ => rfl⟩
    | atMost count =>
      simp only [writeNext]
      split
      · exact ⟨Nat.le_refl _, fun _ _ => rfl⟩
      · have keeps := ih ({ stream with acceptances := rest }.accept data count)
        exact ⟨keeps.begins, keeps.rest⟩
    | fault => exact ⟨Nat.le_refl _, fun _ _ => rfl⟩
    | block => exact ⟨Nat.le_max_left _ _, fun _ _ => rfl⟩

theorem buffered_of_ready (told : stream.ready = some true) : stream.view.buffered ≠ [] := by
  show stream.leftover.map .byte ++ arrivedBy stream.now stream.arrivals ≠ []
  rw [ne_eq, List.append_eq_nil_iff, List.map_eq_nil_iff]
  rintro ⟨used, silent⟩
  rw [ready, if_pos used] at told
  split at told
  · cases told
  · next time arrival rest head =>
    rw [head, arrivedBy_cons] at silent
    split at told
    · cases told
    · next come =>
      rw [if_neg come] at silent
      split at told
      · cases told
      · next readable =>
        exact Arrival.items_ne_nil readable (List.append_eq_nil_iff.mp silent).1

theorem buffered_of_idle (told : stream.ready = some false) : stream.view.buffered = [] := by
  show stream.leftover.map .byte ++ arrivedBy stream.now stream.arrivals = []
  rw [ready] at told
  split at told
  · next used =>
    rw [used, List.map_nil, List.nil_append]
    split at told
    · next none_left =>
      rw [none_left]
      rfl
    · next time arrival rest head =>
      rw [head, arrivedBy_cons]
      split at told
      · next early => exact if_pos early
      · split at told <;> cases told
  · cases told

/-- The stream on a schedule, when it is asked piece by piece. -/
def polled (patience : Nat) : PolledStream Schedule where
  toByteStream := byteStream
  ready stream := (stream.ready, stream)
  patience := patience
  placed := rfl
  passing := rfl
  unseen _ := rfl
  some_here _ := buffered_of_ready
  none_here _ := buffered_of_idle
  stays stream _ later :=
    (List.prefix_append_right_inj _).mpr (arrivedBy_mono later stream.arrivals)
  keeps stream data deadline _ := writeNext_keeps data deadline stream stream.acceptances

section Drain

open drainArrivals (drainBytes)

/-- What is still to come makes no difference to the drain of a piece. -/
theorem drainBytes_arrivals (stream : Schedule) (bytes : List UInt8)
    (arrivals : List (Nat × Arrival)) : drainBytes { stream with arrivals } bytes =
      { drainBytes stream bytes with arrivals } := by
  fun_induction drainBytes stream bytes with
  | case1 stream bytes asked short =>
    rw [drainBytes]
    exact if_pos short
  | case2 stream bytes asked long ih =>
    rw [drainBytes]
    exact (if_neg long).trans ih

theorem leftover_drainBytes (stream : Schedule) (bytes : List UInt8) :
    (drainBytes stream bytes).leftover = stream.leftover := by
  fun_induction drainBytes stream bytes with
  | case1 stream bytes asked short => rfl
  | case2 stream bytes asked long ih => exact ih

variable {patience : Nat}

theorem drain_leftover (some : stream.leftover ≠ []) :
    (polled patience).drain stream =
      (polled patience).drain (stream.readFrom stream.leftover drainChunk).2 := by
  have told : ((polled patience).ready stream).1 = .some true := if_neg some
  have brought : (polled patience).readOn stream = stream.readFrom stream.leftover drainChunk :=
    if_neg some
  rw [PolledStream.drain_goes_on told (by rw [brought]; nofun), brought]

/-- What the first read of some bytes leaves is read on, piece by piece. -/
theorem drain_readFrom (stream : Schedule) (used : stream.leftover = []) (bytes : List UInt8) :
    (polled patience).drain (stream.readFrom bytes drainChunk).2 =
      (polled patience).drain (drainBytes stream bytes) := by
  have length (bytes : List UInt8) :
      (bytes.take drainChunk).length = min bytes.length drainChunk := by
    rw [List.length_take, Nat.min_comm]
  fun_induction drainBytes stream bytes with
  | case1 stream bytes asked short =>
    rw [readFrom, List.drop_of_length_le short, ← used]
    simp only [length]
    rfl
  | case2 stream bytes asked long ih =>
    have some : (stream.readFrom bytes drainChunk).2.leftover ≠ [] := by
      show bytes.drop drainChunk ≠ []
      rw [ne_eq, List.drop_eq_nil_iff]
      exact long
    rw [drain_leftover some, ← ih used]
    simp only [readFrom, length]
    rfl

theorem readNext_come {time : Nat} (come : ¬ stream.now < time) (count deadline : Nat)
    (arrival : Arrival) (rest : List (Nat × Arrival)) :
    stream.readNext count deadline ((time, arrival) :: rest) =
      match arrival with
      | .bytes bytes => { stream with arrivals := rest }.readFrom bytes count
      | .fault => (.fault, { stream with arrivals := rest }.note (.readFault count))
      | .endOfInput => (.bytes [], { stream with arrivals := rest }.note (.readEnd count))
      | .readyFault => stream.readNext count deadline rest := by
  have here : stream.await time deadline = (true, stream) := if_pos (Nat.le_of_not_lt come)
  cases arrival <;> simp only [readNext, here]

theorem readOn_polled (patience : Nat) (stream : Schedule) (used : stream.leftover = []) :
    (polled patience).readOn stream = stream.readNext drainChunk patience stream.arrivals :=
  if_pos used

/-- The drain of the arrivals asks and reads. -/
theorem drain_arrivals (arrivals : List (Nat × Arrival)) (stream : Schedule)
    (used : stream.leftover = []) :
    ((polled patience).drain { stream with arrivals }).2 = stream.drainArrivals arrivals := by
  induction arrivals generalizing stream with
  | nil =>
    have told : ((polled patience).ready { stream with arrivals := [] }).1 ≠ some true := by
      simp [polled, ready, used]
    exact PolledStream.drain_stops told
  | cons next rest ih =>
    obtain ⟨time, arrival⟩ := next
    rw [drainArrivals.eq_def]
    dsimp only
    by_cases early : stream.now < time
    · have told : ((polled patience).ready
          { stream with arrivals := (time, arrival) :: rest }).1 ≠ some true := by
        simp [polled, ready, used, early]
      rw [PolledStream.drain_stops told, if_pos early]
      rfl
    · have head := readOn_polled patience { stream with arrivals := (time, arrival) :: rest } used
      dsimp only at head
      rw [readNext_come (by exact early)] at head
      have told (readable : arrival ≠ .readyFault) : ((polled patience).ready
          { stream with arrivals := (time, arrival) :: rest }).1 = some true := by
        simp [polled, ready, used, early, readable]
      rw [if_neg early]
      cases arrival with
      | bytes bytes =>
        rw [PolledStream.drain_goes_on (told nofun) (by rw [head]; nofun), head]
        dsimp only
        rw [drain_readFrom { stream with arrivals := rest } used, drainBytes_arrivals]
        exact ih _ ((leftover_drainBytes stream bytes).trans used)
      | fault =>
        rw [PolledStream.drain_fails (told nofun) (by rw [head]), head]
      | endOfInput =>
        rw [PolledStream.drain_goes_on (told nofun) (by rw [head]; nofun), head]
        exact ih (stream.note (.readEnd drainChunk)) used
      | readyFault =>
        -- The question fails, so no read comes to pass over it.
        have told : ((polled patience).ready
            { stream with arrivals := (time, .readyFault) :: rest }).1 ≠ some true := by
          simp [polled, ready, used, early]
        rw [PolledStream.drain_stops told]
        rfl

/-- The drain of the schedule is the one that asks and reads. -/
theorem drain_polled (patience : Nat) (stream : Schedule) :
    ((polled patience).drain stream).2 = stream.drain := by
  rw [drain]
  by_cases used : stream.leftover = []
  · have same : { stream with leftover := [] } = stream := by rw [← used]
    simp only [if_pos used, same]
    exact drain_arrivals stream.arrivals stream used
  · have empty := leftover_drainBytes { stream with leftover := [] } stream.leftover
    simp only [if_neg used]
    rw [← drain_arrivals stream.arrivals _ empty, ← drainBytes_arrivals, ← drain_readFrom _ rfl]
    exact congrArg Prod.snd (drain_leftover used)

end Drain

theorem call_polled (patience : Nat) (stream : Schedule) (request : SerialRequest) :
    (polled patience).call stream request = stream.call request := by
  cases request with
  | write | read | skip => rfl
  | clear => exact congrArg (Prod.mk ()) (drain_polled patience stream)

end Schedule

section Account

open PolledStream

/-- What it takes to clear the input. No time passes, and something is gone from the front; all of
it unless a fault stops the clearing, and then what stands behind the fault is left. Calls reply
with what they use up. So later reads and skips get nothing that was there before exactly if no byte
is left. -/
theorem clear_account {σ : Type} (stream : PolledStream σ) (s : σ) :
    let after := (stream.call s .clear).2
    let left := (stream.view after).buffered
    (∃ gone, Drained (stream.view s) (stream.drain s).1 gone (stream.view after)) ∧
      ((stream.drain s).1 ≠ .unready →
        left = ((stream.view s).buffered.dropWhile (· ≠ .fault)).drop 1) ∧
      ((∀ t, (stream.ready t).1 ≠ none) → .fault ∉ (stream.view s).buffered → left = []) ∧
      (∀ t request, Gets ((stream.view t).lost (stream.view (stream.call t request).2)) request
        (stream.call t request).1) ∧
      ((∀ requests value, .byte value ∉ stream.regained left.length requests after) ↔
        ∀ value, .byte value ∉ left) := by
  intro after left
  obtain ⟨gone, drained⟩ := stream.drain_drained s
  refine ⟨⟨gone, drained⟩, drained.left_eq, fun sound whole => ?_, fun t request => ?_, ?_, ?_⟩
  · have behind := drained.left_eq (drain_ne_unready sound s)
    rwa [← List.append_nil (stream.view s).buffered, dropWhile_sound [] whole] at behind
  · obtain ⟨gone, loses, gets⟩ := stream.call_gets t request
    rwa [loses.lost_eq]
  · intro never value present
    obtain ⟨front, back, split⟩ := List.append_of_mem present
    have within : front.length < left.length := by
      rw [split, List.length_append, List.length_cons]
      omega
    exact never _ value (regained_reads split within)
  · intro none_left requests value got
    exact none_left value (mem_of_mem_regained (stream.stays after) got)

/-- A byte stands behind a fault and is there for the next read. -/
theorem clear_account_fault :
    let stream := Schedule.polled 0
    let s : Schedule :=
      { arrivals := [(0, .bytes [0xAA]), (0, .fault), (0, .bytes [0xBB])], acceptances := [] }
    let after := (stream.call s .clear).2
    (stream.view after).buffered = [.byte 0xBB] ∧
      ¬ ∀ requests value, .byte value ∉ stream.regained 1 requests after := by
  intro stream s after
  have left : (stream.view after).buffered = [.byte 0xBB] := by
    simp only [after, stream, Schedule.call_polled]
    show s.drain.view.buffered = [.byte 0xBB]
    cbv
  refine ⟨left, fun never => ?_⟩
  obtain ⟨-, -, -, -, exactly⟩ := clear_account stream s
  refine exactly.mp ?_ 0xBB (by rw [left]; exact List.mem_singleton_self _)
  rw [left]
  exact never

/-- Two bytes are there, behind a fault of the first read or of the first question. Clearing the
input leaves them, and the next read returns both. -/
theorem clear_stops :
    let broken : Schedule :=
      { arrivals := [(0, .fault), (0, .bytes [0xAA, 0xBB])], acceptances := [] }
    let unready : Schedule :=
      { arrivals := [(0, .readyFault), (0, .bytes [0xAA, 0xBB])], acceptances := [] }
    (broken.view.buffered = [.fault, .byte 0xAA, .byte 0xBB] ∧
        ((broken.call .clear).2.call (.read 2 0)).1 = ⟨[0xAA, 0xBB], some 2⟩) ∧
      unready.view.buffered = [.byte 0xAA, .byte 0xBB] ∧
        ((unready.call .clear).2.call (.read 2 0)).1 = ⟨[0xAA, 0xBB], some 2⟩ := by
  intro broken unready
  show (_ ∧ (broken.drain.call (.read 2 0)).1 = _) ∧ _ ∧ (unready.drain.call (.read 2 0)).1 = _
  refine ⟨⟨?_, ?_⟩, ?_, ?_⟩
  all_goals cbv

end Account

end SplitKeyboard.Uart
