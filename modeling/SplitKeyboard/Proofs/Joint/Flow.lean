import SplitKeyboard.Proofs.Joint.Traffic
import SplitKeyboard.Proofs.Messages

/-!
Messages in flight between two ends that both go on. Every write puts a whole message on the wire
and every read wants a whole one, so what an end holds is always a list of whole messages: its own
echo at most in front, and behind it only what the other end has sent. There is room for all of it,
because nobody sends two messages in a row that do not fit beside what may still be unread.
-/
namespace SplitKeyboard

open Bench (Wire WireEnd wireCapacity)

namespace Message

def marks (messages : List Message) : List Mark :=
  messages.flatMap fun message => SplitKeyboard.marks message.sender message.data

/-- What an end has to do about messages that it holds: it drops its own and takes the others. -/
def due (side : WireEnd) (messages : List Message) : List Act :=
  messages.map fun message =>
    if message.sender = side then .dropped message.data.length else .took message.data

/-- What a message leaves behind at an end when it is sent: on a full-duplex wire a sender does not
get its own. -/
def stays (duplex : Duplex) (side : WireEnd) (message : Message) : List Message :=
  if side = message.sender.other ∨ duplex = .half then [message] else []

/-- To its sender a message is a write, and to both ends it is what it leaves there. -/
theorem acts_eq (duplex : Duplex) (side : WireEnd) (message : Message) :
    acts duplex side message =
      (if message.sender = side then [.wrote message.data] else []) ++
        due side (stays duplex side message) := by
  obtain ⟨sender, data⟩ := message
  cases duplex <;> cases side <;> cases sender <;> rfl

/-- How much an end sends at the beginning of the messages, before the other sends anything. -/
def burst (side : WireEnd) : List Message → Nat
  | [] => 0
  | message :: rest => if message.sender = side then message.data.length + burst side rest else 0

/-- A queue that holds a message has room for it and for all that an end may send behind it. -/
def Roomy : List Message → Prop
  | [] => True
  | message :: rest =>
    (∀ side, message.data.length + burst side rest ≤ wireCapacity) ∧ Roomy rest

/-- What comes behind a change of the sender is no part of a burst before it. -/
theorem burst_append_change (side : WireEnd) {a b : Message} (same_sender : a.sender = b.sender)
    (same_length : a.data.length = b.data.length) {c : Message} (change : c.sender ≠ b.sender)
    (first rest : List Message) :
    burst side (first ++ b :: c :: rest) = burst side (first ++ [a]) := by
  induction first with
  | nil =>
    simp only [List.nil_append, burst, same_sender, same_length]
    by_cases own : b.sender = side
    · rw [if_pos own, if_pos own, if_neg (fun also => change (also.trans own.symm))]
    · rw [if_neg own, if_neg own]
  | cons message first ih => simp only [List.cons_append, burst, ih]

/-- Room that was kept for a message of some length is room for any such message and what is sent
after it, if that begins with an answer and has room of its own. -/
theorem Roomy.extend {a b : Message} (same_sender : a.sender = b.sender)
    (same_length : a.data.length = b.data.length) {c : Message} (change : c.sender ≠ b.sender)
    {first rest : List Message} (roomy : Roomy (first ++ [a])) (others : Roomy (b :: c :: rest)) :
    Roomy (first ++ b :: c :: rest) := by
  induction first with
  | nil => exact others
  | cons message first ih =>
    refine ⟨?_, ih roomy.2⟩
    intro side
    have before := burst_append_change side same_sender same_length change first rest
    exact before ▸ roomy.1 side

/-- The first byte of whatever transaction comes next. -/
def knock : Message := ⟨.near, [0]⟩

theorem roomy_nil : Roomy [] := trivial

theorem roomy_cons_iff {message : Message} {rest : List Message} :
    Roomy (message :: rest) ↔ message.data.length + burst .near rest ≤ wireCapacity ∧
      message.data.length + burst .far rest ≤ wireCapacity ∧ Roomy rest := by
  constructor
  · rintro ⟨each, roomy⟩
    exact ⟨each .near, each .far, roomy⟩
  · rintro ⟨near, far, roomy⟩
    refine ⟨?_, roomy⟩
    intro side
    cases side with
    | near => exact near
    | far => exact far

/-- Two bytes besides the payloads are enough room for a transaction and the next ID. -/
theorem roomy_ofTransaction (id : TransactionId) {request reply : List UInt8}
    (room : request.length + reply.length + 2 ≤ wireCapacity) :
    Roomy (ofTransaction id request reply ++ [knock]) := by
  have capacity : wireCapacity = 256 := rfl
  unfold ofTransaction payload knock
  by_cases no_request : request = []
  · by_cases no_reply : reply = []
    · simp [no_request, no_reply, roomy_cons_iff, roomy_nil, burst, capacity]
    · simp [no_request, no_reply, roomy_cons_iff, roomy_nil, burst, capacity]
      omega
  · by_cases no_reply : reply = []
    · simp [no_request, no_reply, roomy_cons_iff, roomy_nil, burst, capacity]
      omega
    · simp [no_request, no_reply, roomy_cons_iff, roomy_nil, burst, capacity]
      omega

theorem data_ne_nil_of_mem_payload {side : WireEnd} {data : List UInt8} {message : Message}
    (member : message ∈ payload side data) : message.data ≠ [] := by
  unfold payload at member
  split at member
  · cases member
  · next some_data =>
    rw [List.mem_singleton.mp member]
    exact some_data

theorem data_ne_nil_of_mem_ofTransaction {id : TransactionId} {request reply : List UInt8}
    {message : Message} (member : message ∈ ofTransaction id request reply) :
    message.data ≠ [] := by
  simp only [ofTransaction, List.mem_cons, List.mem_append] at member
  rcases member with rfl | rfl | asked | replied
  · exact List.cons_ne_nil _ _
  · exact List.cons_ne_nil _ _
  · exact data_ne_nil_of_mem_payload asked
  · exact data_ne_nil_of_mem_payload replied

end Message

def Traffic.Holds (traffic : Traffic) (side : WireEnd) (messages : List Message) : Prop :=
  (traffic.came side).drop (traffic.heard side) = Message.marks messages

/-- Where two ends stand that have lost nothing so far: what each of them holds, and what is ahead
and not yet sent. -/
structure Flow (traffic : Traffic) (held : WireEnd → List Message) (ahead : List Message) :
    Prop where
  sound : traffic.Sound
  lossless : traffic.Lossless
  capacity : ∀ side, (traffic.wire.queue side).capacity = wireCapacity
  holds : ∀ side, traffic.Holds side (held side)
  some_held : ∀ side, ∀ message ∈ held side, message.data ≠ []
  some_ahead : ∀ message ∈ ahead, message.data ≠ []
  tail : ∀ side, ∀ message ∈ (held side).tail, message.sender = side.other
  room : ∀ side, Message.Roomy (held side ++ (ahead ++ [Message.knock]))

namespace Flow

variable {traffic : Traffic} {held : WireEnd → List Message} {ahead : List Message}
  {side there : WireEnd} {message : Message} {rest : List Message}

/-- What an end has still to do, in turn. -/
def todo (duplex : Duplex) (held : WireEnd → List Message) (ahead : List Message)
    (side : WireEnd) : List Act :=
  Message.due side (held side) ++ Message.view duplex side ahead

theorem todo_eq_nil {duplex : Duplex} (nothing : todo duplex held ahead side = []) :
    held side = [] ∧ ahead = [] := by
  obtain ⟨no_due, no_view⟩ := List.append_eq_nil_iff.mp nothing
  refine ⟨List.map_eq_nil_iff.mp no_due, ?_⟩
  cases ahead with
  | nil => rfl
  | cons message rest =>
    have silent := (List.flatMap_eq_nil_iff.mp no_view) message (List.mem_cons_self ..)
    unfold Message.acts at silent
    split at silent <;> cases silent

theorem length_marks (messages : List Message) :
    (Message.marks messages).length = (messages.flatMap Message.data).length := by
  induction messages with
  | nil => rfl
  | cons message messages ih =>
    rw [List.flatMap_cons, List.length_append, ← ih, Message.marks, List.flatMap_cons,
      List.length_append, SplitKeyboard.length_marks]
    rfl

theorem count_eq (flow : Flow traffic held ahead) (side : WireEnd) :
    (traffic.wire.queue side).count = ((held side).flatMap Message.data).length := by
  have length := congrArg List.length (flow.holds side)
  rw [List.length_drop, length_marks] at length
  have := flow.sound.heard_add_count side
  omega

/-- Messages of one end in a row are one burst of it. -/
theorem burst_row {messages : List Message} (row : ∀ message ∈ messages, message.sender = side)
    (rest : List Message) :
    Message.burst side (messages ++ rest) =
      (messages.flatMap Message.data).length + Message.burst side rest := by
  induction messages with
  | nil => simp
  | cons message messages ih =>
    have own := row message (List.mem_cons_self ..)
    have others := ih fun other member => row other (List.mem_cons_of_mem _ member)
    simp only [List.cons_append, Message.burst, if_pos own, others, List.flatMap_cons,
      List.length_append]
    omega

/-- There is room for the next message wherever it goes. -/
theorem fits (flow : Flow traffic held (message :: rest)) (silent : held message.sender = [])
    (there : WireEnd) : message.data.length ≤ traffic.room there := by
  have room := flow.room there
  rw [Traffic.room, flow.capacity, flow.count_eq]
  cases holds : held there with
  | nil =>
    rw [holds] at room
    have alone := room.1 .near
    simp only [List.flatMap_nil, List.length_nil]
    omega
  | cons first others =>
    -- The sender holds nothing, so this is the other end, and all behind its first is the sender's.
    have apart : there ≠ message.sender := by
      intro same
      rw [same, silent] at holds
      cases holds
    have row : ∀ other ∈ others, other.sender = message.sender := by
      intro other member
      have tail := flow.tail there other (by rw [holds]; exact member)
      rw [tail]
      revert apart
      cases there <;> cases message.sender <;> decide
    rw [holds] at room
    have burst := room.1 message.sender
    rw [List.append_eq, burst_row row] at burst
    simp only [List.cons_append, Message.burst, if_true] at burst
    simp only [List.flatMap_cons, List.length_append]
    omega

/-- Whether a message reaches an end, told by what it leaves there. -/
theorem arrives_eq (traffic : Traffic) (there : WireEnd) (message : Message) :
    (if traffic.wire.reaches message.sender there then marks message.sender message.data else []) =
      Message.marks (Message.stays traffic.wire.duplex there message) := by
  unfold Message.stays
  by_cases arrives : traffic.wire.reaches message.sender there
  · rw [if_pos arrives, if_pos (show _ ∨ _ from arrives)]
    exact (List.append_nil _).symm
  · rw [if_neg arrives, if_neg (show ¬ (_ ∨ _) from arrives)]
    rfl

/-- The next message is sent by an end that holds nothing, and goes wherever it leaves something. -/
theorem write (flow : Flow traffic held (message :: rest)) (silent : held message.sender = []) :
    Flow (traffic.write message.sender message.data)
      (fun there => held there ++ Message.stays traffic.wire.duplex there message) rest := by
  have behind : ∀ there, held there ≠ [] → message.sender = there.other := by
    intro there holds
    have apart : there ≠ message.sender := fun same => holds (same ▸ silent)
    revert apart
    cases there <;> cases message.sender <;> decide
  constructor
  case sound => exact flow.sound.write _ _
  case lossless =>
    exact flow.sound.lossless_write_iff.mpr ⟨flow.lossless, fun there _ => flow.fits silent there⟩
  case capacity =>
    intro there
    rw [Traffic.capacity_write]
    exact flow.capacity there
  case holds =>
    intro there
    unfold Traffic.Holds
    rw [flow.sound.heard_write, Traffic.came_write,
      List.drop_append_of_le_length (flow.sound.heard_le there), flow.holds there,
      List.take_of_length_le (flow.fits silent there), arrives_eq]
    exact List.flatMap_append.symm
  case some_held =>
    intro there other member
    rcases List.mem_append.mp member with before | new
    · exact flow.some_held there other before
    · have same : other = message := by
        unfold Message.stays at new
        split at new
        · exact List.mem_singleton.mp new
        · cases new
      exact same ▸ flow.some_ahead message (List.mem_cons_self ..)
  case some_ahead =>
    exact fun other member => flow.some_ahead other (List.mem_cons_of_mem _ member)
  case tail =>
    intro there other member
    have new : other ∈ (Message.stays traffic.wire.duplex there message).tail → False := by
      unfold Message.stays
      split <;> simp
    cases holds : held there with
    | nil =>
      simp only [holds, List.nil_append] at member
      exact (new member).elim
    | cons first others =>
      simp only [holds, List.cons_append, List.tail_cons] at member
      rcases List.mem_append.mp member with before | new
      · exact flow.tail there other (by rw [holds]; exact before)
      · have same : other = message := by
          unfold Message.stays at new
          split at new
          · exact List.mem_singleton.mp new
          · cases new
        exact same ▸ behind there (by rw [holds]; exact List.cons_ne_nil _ _)
  case room =>
    intro there
    have room := flow.room there
    unfold Message.stays
    split
    · rw [List.append_assoc]
      exact room
    · next gone =>
      have own : held there = [] := by
        by_contra holds
        exact gone (.inl (by rw [behind there holds]; cases there <;> rfl))
      rw [own] at room ⊢
      exact room.2

/-- What the ends hold once one of them is done with its first message. -/
def popped (held : WireEnd → List Message) (side : WireEnd) (rest : List Message) :
    WireEnd → List Message :=
  fun there => if there = side then rest else held there

/-- The first message that an end holds is taken or dropped as a whole. -/
theorem pop {after : Traffic} (flow : Flow traffic held ahead) (holds : held side = message :: rest)
    (takes : traffic.Takes after side message.data.length) :
    Flow after (popped held side rest) ahead := by
  have same_queue := takes.others
  constructor
  case sound => exact takes.sound
  case lossless =>
    intro there
    by_cases own : there = side
    · rw [own, takes.overruns]
      exact flow.lossless side
    · rw [same_queue there own]
      exact flow.lossless there
  case capacity =>
    intro there
    by_cases own : there = side
    · rw [own, takes.capacity]
      exact flow.capacity side
    · rw [same_queue there own]
      exact flow.capacity there
  case holds =>
    intro there
    unfold Traffic.Holds popped
    by_cases own : there = side
    · subst own
      have before := flow.holds there
      unfold Traffic.Holds at before
      rw [holds] at before
      rw [if_pos rfl, takes.came, takes.heard, ← List.drop_drop, before, Message.marks,
        List.flatMap_cons]
      exact List.drop_left' (SplitKeyboard.length_marks _ _)
    · have same : after.heard there = traffic.heard there := by
        unfold Traffic.heard
        rw [takes.came, same_queue there own]
      rw [if_neg own, takes.came, same]
      exact flow.holds there
  case some_held =>
    intro there other member
    unfold popped at member
    split at member
    · exact flow.some_held side other (by rw [holds]; exact List.mem_cons_of_mem _ member)
    · exact flow.some_held there other member
  case some_ahead => exact flow.some_ahead
  case tail =>
    intro there other member
    unfold popped at member
    split at member
    · next own =>
      rw [own]
      exact flow.tail side other (by rw [holds]; exact List.mem_of_mem_tail member)
    · exact flow.tail there other member
  case room =>
    intro there
    unfold popped
    split
    · have room := flow.room side
      rw [holds] at room
      exact room.2
    · exact flow.room there

theorem unheard_eq (flow : Flow traffic held ahead) (side : WireEnd) :
    traffic.unheard side = (held side).flatMap Message.data := by
  have holds := flow.holds side
  unfold Traffic.Holds at holds
  rw [Traffic.unheard, holds, Message.marks, List.map_flatMap]
  simp only [SplitKeyboard.map_byte_marks]

end Flow

/-- Where the bytes of an act came from: what an end takes is the other end's, what it drops is its
own. The place is the one up to which the end had heard. -/
def Act.Untangled (side : WireEnd) (came : List Mark) (heard : Nat) : Act → Prop
  | .wrote _ => True
  | .took data => (came.drop heard).take data.length = marks side.other data
  | .dropped count => ∃ data, data.length = count ∧ (came.drop heard).take count = marks side data

namespace Flow

variable {traffic : Traffic} {held : WireEnd → List Message} {ahead : List Message}
  {side : WireEnd} {message : Message} {rest : List Message} {act : Act} {acts : List Act}

/-- A read or skip that finds its message at the front gets all of it at once. -/
theorem attend_front (flow : Flow traffic held ahead) (holds : held side = message :: rest) :
    let act : Act := if message.sender = side then .dropped message.data.length
      else .took message.data
    ∃ after, (∀ patient timeout, traffic.attend side patient {} (act.exchange timeout).1 =
        (.inl (act.exchange timeout).2, after)) ∧
      traffic.Takes after side message.data.length ∧
      act.Untangled side (traffic.came side) (traffic.heard side) := by
  intro act
  have unheard : (traffic.unheard side).take message.data.length = message.data := by
    rw [flow.unheard_eq, holds, List.flatMap_cons]
    exact List.take_left
  have front : ((traffic.came side).drop (traffic.heard side)).take message.data.length =
      marks message.sender message.data := by
    have before := flow.holds side
    unfold Traffic.Holds at before
    rw [before, holds, Message.marks, List.flatMap_cons]
    exact List.take_left' (SplitKeyboard.length_marks _ _)
  by_cases own : message.sender = side
  · obtain ⟨dropped, takes⟩ := flow.sound.takes_skip side message.data.length
    have drops : act = .dropped message.data.length := if_pos own
    rw [unheard] at dropped takes
    rw [drops]
    refine ⟨_, ?_, takes, message.data, rfl, own ▸ front⟩
    intro patient timeout
    simp only [Act.exchange, Traffic.attend, Nat.sub_zero, Nat.zero_add, dropped, Nat.le_refl,
      true_or, if_true]
  · obtain ⟨bytes, takes⟩ := flow.sound.takes_read side message.data.length
    have takes_it : act = .took message.data := if_neg own
    rw [unheard] at bytes takes
    rw [takes_it]
    refine ⟨_, ?_, takes, front.trans (congrArg (marks · message.data) (WireEnd.eq_other own))⟩
    intro patient timeout
    simp only [Act.exchange, Traffic.attend, Nat.sub_zero, Nat.zero_add, bytes, List.nil_append,
      Nat.le_refl, true_or, if_true]

/-- What an act of one end makes of the flow. -/
structure Advance (traffic : Traffic) (held : WireEnd → List Message) (ahead : List Message)
    (side : WireEnd) (act : Act) (acts : List Act) (after : Traffic)
    (held' : WireEnd → List Message) (ahead' : List Message) : Prop where
  flow : Flow after held' ahead'
  own : todo traffic.wire.duplex held' ahead' side = acts
  other : todo traffic.wire.duplex held' ahead' side.other =
    todo traffic.wire.duplex held ahead side.other
  duplex : after.wire.duplex = traffic.wire.duplex
  grows : ∀ there, traffic.came there <+: after.came there
  untangled : act.Untangled side (traffic.came side) (traffic.heard side)

/-- An end has nothing to do until the other end has sent its next message. -/
def Awaits (held : WireEnd → List Message) (ahead : List Message) (side : WireEnd) : Prop :=
  held side = [] ∧ ∃ message rest, ahead = message :: rest ∧ message.sender = side.other

/-- An end either waits for a message that the other end has not sent yet, or its next act goes well
at the first look, patient or not. -/
theorem advance (flow : Flow traffic held ahead)
    (next : todo traffic.wire.duplex held ahead side = act :: acts) :
    (held side = [] ∧ ∃ message rest, ahead = message :: rest ∧ message.sender = side.other ∧
      act = .took message.data) ∨
    ∃ after held' ahead', (∀ patient timeout,
        traffic.attend side patient {} (act.exchange timeout).1 =
          (.inl (act.exchange timeout).2, after)) ∧
      Advance traffic held ahead side act acts after held' ahead' := by
  unfold todo at next
  cases holds : held side with
  | cons message others =>
    rw [holds] at next
    obtain ⟨rfl, rfl⟩ := List.cons.inj next
    obtain ⟨after, attends, takes, untangled⟩ := flow.attend_front holds
    refine .inr ⟨after, popped held side others, ahead, attends, flow.pop holds takes, ?_, ?_,
      takes.duplex, ?_, untangled⟩
    · simp only [todo, popped, if_true]
      rfl
    · simp only [todo, popped, if_neg side.other_ne]
    · intro there
      exact ⟨[], by rw [takes.came, List.append_nil]⟩
  | nil =>
    rw [holds] at next
    cases ahead with
    | nil => cases next
    | cons message rest =>
      by_cases own : message.sender = side
      · subst own
        have sent : Message.acts traffic.wire.duplex message.sender message =
            .wrote message.data ::
              Message.due message.sender
                (Message.stays traffic.wire.duplex message.sender message) := by
          rw [Message.acts_eq, if_pos rfl]
          rfl
        rw [Message.view, List.flatMap_cons, sent] at next
        obtain ⟨rfl, rfl⟩ := List.cons.inj next
        refine .inr ⟨_, _, rest, fun _ _ => rfl, flow.write holds, ?_, ?_,
          Wire.duplex_write _ _ _, ?_, trivial⟩
        · simp only [todo, holds, List.nil_append]
          rfl
        · have apart : message.sender ≠ message.sender.other := by
            cases message.sender <;> decide
          have received : Message.acts traffic.wire.duplex message.sender.other message =
              Message.due message.sender.other
                (Message.stays traffic.wire.duplex message.sender.other message) := by
            rw [Message.acts_eq, if_neg apart, List.nil_append]
          rw [todo, todo, Message.view, Message.view, List.flatMap_cons, received, Message.due,
            List.map_append, List.append_assoc]
          rfl
        · intro there
          exact ⟨_, rfl⟩
      · have received : Message.acts traffic.wire.duplex side message = [.took message.data] := by
          rw [Message.acts, if_neg own]
        rw [Message.view, List.flatMap_cons, received] at next
        exact .inl ⟨rfl, message, rest, rfl, WireEnd.eq_other own, (List.cons.inj next).1.symm⟩

end Flow
end SplitKeyboard
