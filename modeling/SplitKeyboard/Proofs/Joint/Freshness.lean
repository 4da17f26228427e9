import SplitKeyboard.Proofs.Joint.Segments

/-!
Which replies are fresh. On a wire that loses nothing, any wait may run out at any moment and a call
may be given up while the target goes on answering it. A later call for the same ID can then take the
late token for its own, and with it a late reply. A reply is fresh just if the token before it was,
and the poll that sent this token has come as far as its reply.
-/
namespace SplitKeyboard

open Bench (WireEnd)

variable {Handler τ : Type} {handle : HandlerCall Handler → τ → List UInt8 × τ}

section Places

variable {record : List Mark} {first last begun ended place : Nat} {side : WireEnd}
  {data : List UInt8} {traffic : Traffic}

/-- No byte is sent by both ends. -/
theorem Foreign.apart (theirs : Foreign side record first last)
    (ours : Foreign side.other record begun ended) (i : Nat) :
    ¬ (first ≤ i ∧ i < last ∧ begun ≤ i ∧ i < ended) := by
  rintro ⟨above, below, after, before⟩
  obtain ⟨one, there⟩ := theirs i above below
  obtain ⟨two, same⟩ := ours i after before
  rw [there] at same
  cases side <;> cases same

/-- What one end has written is foreign to the other. -/
theorem foreign_of_marks (there : marks side data <+: record.drop place) :
    Foreign side.other record place (place + data.length) := by
  intro i above below
  have within : i - place < data.length := by omega
  refine ⟨data[i - place], ?_⟩
  have written : (marks side data)[i - place]? = some ⟨side, data[i - place]⟩ := by
    rw [marks, List.getElem?_map, List.getElem?_eq_getElem within, Option.map_some]
  have mark := getElem?_of_prefix there written
  rw [List.getElem?_drop, show place + (i - place) = i by omega] at mark
  rw [side.other_other, mark]

/-- On a full-duplex wire nothing comes to the other end but what an end has written itself. -/
theorem Traffic.Kept.no_foreign (kept : traffic.Kept) (side : WireEnd) (full : traffic.wire.duplex = .full)
    (foreign : Foreign side (traffic.came side.other) first last) : last ≤ first := by
  by_contra some_foreign
  obtain ⟨byte, there⟩ := foreign first (Nat.le_refl _) (Nat.lt_of_not_le some_foreign)
  have own := kept.full full side.other _ (List.mem_of_getElem? there)
  cases side <;> cases own

end Places

/-- Where an initiator has sent and taken the messages of a transaction that went well. -/
structure CallPlaces (duplex : Duplex) (near far : List Mark) (id token request reply : Segment) :
    Prop where
  id_there : marks .near id.bytes <+: far.drop id.place
  id_length : id.bytes.length = 1
  id_unheard : duplex = .half → token.place ≤ id.place + 1
  token_there : token.bytes <+: (near.map Mark.byte).drop token.place
  token_length : token.bytes.length = 1
  behind : id.place + 1 ≤ request.place
  between : Foreign .near far (id.place + 1) request.place
  request_unheard : duplex = .half → token.place + 1 ≤ request.place
  request_there : marks .near request.bytes <+: far.drop request.place
  reply_place : reply.place = token.place + 1 + echo duplex request.bytes.length
  reply_there : reply.bytes <+: (near.map Mark.byte).drop reply.place
  last : ∃ last, Foreign .near far (request.place + request.bytes.length) last ∧
    (duplex = .half → reply.place + reply.bytes.length ≤ last)

/-- Where a target has taken and sent the messages of a transaction, up to its reply. -/
structure PollPlaces (duplex : Duplex) (near far : List Mark) (id token request reply : Segment) :
    Prop where
  id_there : id.bytes <+: (far.map Mark.byte).drop id.place
  id_length : id.bytes.length = 1
  token_there : marks .far token.bytes <+: near.drop token.place
  token_length : token.bytes.length = 1
  token_unheard : duplex = .half → id.place + 1 ≤ token.place
  request_place : request.place = id.place + 1 + echo duplex 1
  request_there : request.bytes <+: (far.map Mark.byte).drop request.place
  behind : token.place + 1 ≤ reply.place
  between : Foreign .far near (token.place + 1) reply.place
  reply_unheard : duplex = .half → request.place + request.bytes.length ≤ reply.place
  reply_there : marks .far reply.bytes <+: near.drop reply.place

section Agree

variable {traffic : Traffic} {id token request reply id' token' request' reply' : Segment}

/-- A transaction and a poll that share ID and token share request and reply, and the other way
around. -/
theorem places_agree (kept : traffic.Kept)
    (call : CallPlaces traffic.wire.duplex (traffic.came .near) (traffic.came .far) id token request
      reply)
    (poll : PollPlaces traffic.wire.duplex (traffic.came .near) (traffic.came .far) id' token' request'
      reply')
    (same_size : request.bytes.length = request'.bytes.length)
    (some_request : 0 < request.bytes.length) (some_reply : 0 < reply.bytes.length) :
    (id.place = id'.place ∧ token.place = token'.place) ↔
      (request.place = request'.place ∧ reply.place = reply'.place) := by
  have request_after := call.behind
  have reply_after := poll.behind
  have reply_place := call.reply_place
  have request_place := poll.request_place
  cases duplex : traffic.wire.duplex with
  | full =>
    -- Nothing comes between two writes of an end, and nothing comes back.
    have request_next := kept.no_foreign .near duplex call.between
    have reply_next := kept.no_foreign .far duplex poll.between
    rw [duplex, echo, if_neg (by decide)] at reply_place request_place
    omega
  | half =>
    have id_unheard := call.id_unheard duplex
    have request_unheard := call.request_unheard duplex
    have token_unheard := poll.token_unheard duplex
    have reply_unheard := poll.reply_unheard duplex
    rw [duplex, echo, if_pos rfl] at reply_place request_place
    have alike := kept.half duplex
    constructor
    · rintro ⟨same_id, same_token⟩
      obtain ⟨last, after_request, within⟩ := call.last
      have reply_within := within duplex
      have theirs := poll.between
      rw [alike] at theirs
      -- The far end has sent nothing between token and reply, the near end nothing but its request.
      have before := call.between.apart theirs (id.place + 2)
      have behind := after_request.apart theirs (id.place + 2 + request.bytes.length)
      omega
    · rintro ⟨same_request, same_reply⟩
      have token_there := poll.token_there
      rw [alike] at token_there
      have token_mark := foreign_of_marks token_there
      have not_id := token_mark.apart (foreign_of_marks call.id_there) id.place
      have not_request := token_mark.apart (foreign_of_marks call.request_there) token'.place
      rw [call.id_length, poll.token_length] at not_id
      rw [poll.token_length] at not_request
      omega

end Agree

/-- Segments of one record are the same if they begin at one place and have one length. -/
theorem Segment.eq_of_there {list : List UInt8} {one two : Segment}
    (first : one.bytes <+: list.drop one.place) (second : two.bytes <+: list.drop two.place)
    (same_place : one.place = two.place) (same_length : one.bytes.length = two.bytes.length) :
    one = two := by
  obtain ⟨place, bytes⟩ := one
  obtain ⟨place, others⟩ := two
  cases same_place
  have same_bytes : bytes = others :=
    calc
      bytes = (list.drop place).take bytes.length := List.prefix_iff_eq_take.mp first
      _ = (list.drop place).take others.length := congrArg (List.take · _) same_length
      _ = others := (List.prefix_iff_eq_take.mp second).symm
  rw [same_bytes]

/-- What an end wrote can be read where it was written. -/
theorem bytes_there {side : WireEnd} {data : List UInt8} {record : List Mark} {place : Nat}
    (there : marks side data <+: record.drop place) :
    data <+: (record.map Mark.byte).drop place := by
  have bytes := there.map Mark.byte
  rw [map_byte_marks, List.map_drop] at bytes
  exact bytes

/-- Where a conversation has its messages that went well. -/
theorem Past.conversation {link : Link} {id : TransactionId} {request : List UInt8} {replySize : Nat}
    {traffic : Traffic} {entries : List (Entry Handler)} {exchanges : List SerialExchange}
    (past : Past handle traffic .near entries) (wiring : traffic.wire.duplex = link.duplex)
    (calls : entries.map Entry.exchange = exchanges.map Program.Exchange.beside)
    (follows : Follows (link.opening id ++ (link.sending .sendingPayload request ++
      link.collecting replySize)) exchanges none) (some_reply : replySize ≠ 0) :
    ∃ sent token asked reply, segmentsSent entries = [sent, asked] ∧
      segmentsTaken entries = [token, reply] ∧
      CallPlaces traffic.wire.duplex (traffic.came .near) (traffic.came .far) sent token asked reply ∧
      sent.bytes = [id] ∧ asked.bytes = request ∧ reply.bytes.length = replySize ∧
      reply.bytes = ((deliveries exchanges).drop 1).flatten := by
  rw [Link.collecting, if_neg some_reply] at follows
  obtain ⟨opening, exchange, rfl, opened, exchanged⟩ := follows.split
  obtain ⟨asking, answered, rfl, asks, answers⟩ := opened.split
  obtain ⟨sending, replied, rfl, sends, replies⟩ := exchanged.split
  obtain ⟨token, rfl, token_full, _⟩ := answers.read_inv
  obtain ⟨reply, rfl, reply_full, _⟩ := replies.read_inv
  have delivered : deliveries (asking ++ [⟨.read 1 link.timeout, token⟩] ++
      (sending ++ [⟨.read replySize link.timeout, reply⟩])) = [token.bytes, reply.bytes] := by
    simp only [deliveries_append, Link.deliveries_sending asks, Link.deliveries_sending sends]
    rfl
  simp only [List.map_append, List.append_assoc] at calls
  obtain ⟨id_entries, later, rfl, id_calls, calls⟩ := List.map_eq_append_iff.mp calls
  obtain ⟨token_entries, later, rfl, token_calls, calls⟩ := List.map_eq_append_iff.mp calls
  obtain ⟨request_entries, reply_entries, rfl, request_calls, reply_calls⟩ :=
    List.map_eq_append_iff.mp calls
  obtain ⟨first, begun, heard, told, last, traced, foreign, heard_le⟩ := past
  rw [wiring] at traced heard_le ⊢
  obtain ⟨_, _, id_traced, traced⟩ := traced.split
  obtain ⟨_, _, token_traced, traced⟩ := traced.split
  obtain ⟨_, _, request_traced, reply_traced⟩ := traced.split
  obtain ⟨id_place, id_sent, id_taken, _, wrote_id, rfl, rfl⟩ := id_traced.sending_inv asks id_calls
  obtain ⟨token_sent, token_taken, _, token_length, token_there, rfl, rfl⟩ :=
    token_traced.read_inv token_calls token_full
  obtain ⟨request_place, request_sent, request_taken, _, wrote_request, rfl, rfl⟩ :=
    request_traced.sending_inv sends request_calls
  obtain ⟨reply_sent, reply_taken, _, reply_length, reply_there, rfl, rfl⟩ :=
    reply_traced.read_inv reply_calls reply_full
  refine ⟨⟨id_place, [id]⟩, ⟨first + echo link.duplex 1, token.bytes⟩, ⟨request_place, request⟩,
    ⟨first + echo link.duplex 1 + 1 + echo link.duplex request.length, reply.bytes⟩, ?_, ?_, ?_, rfl,
    rfl, reply_length, ?_⟩
  · simp only [segmentsSent_append, id_sent, token_sent, request_sent, reply_sent]
    rfl
  · simp only [segmentsTaken_append, id_taken, token_taken, request_taken, reply_taken]
    rfl
  · constructor
    case id_there => exact wrote_id.there
    case id_length => rfl
    case id_unheard =>
      intro half
      have := wrote_id.unheard half
      simp only [echo, if_pos half]
      omega
    case token_there => exact token_there
    case token_length => exact token_length
    case behind => exact wrote_request.behind
    case between => exact wrote_request.foreign
    case request_unheard => exact wrote_request.unheard
    case request_there => exact wrote_request.there
    case reply_place => rfl
    case reply_there => exact reply_there
    case last =>
      refine ⟨last, foreign, ?_⟩
      rw [show reply.bytes.length = replySize from reply_length]
      exact heard_le
  · rw [delivered]
    exact (List.append_nil _).symm

namespace Target

variable {target : Target Handler} {table : Table Handler}

/-- What is done to send bytes writes once at most. -/
theorem length_written_sending (Handler : Type) {κ : Type} {link : Link} {label : κ} {data : List UInt8}
    {exchanges : List SerialExchange} {stop : Option κ}
    (follows : Follows (link.sending label data) exchanges stop) :
    ((exchanges.map Program.Exchange.beside).filterMap (@Exchange.written? Handler)).length ≤ 1 := by
  obtain ⟨written, rest, rfl, rfl | ⟨dropped, rfl⟩⟩ := Link.sending_inv follows
  · exact Nat.le_refl 1
  · exact Nat.le_refl 1

/-- What begins like a list with one more after it, and has more in it than the list, goes on with
that one. -/
theorem begins_of_more {β : Type} (view : Exchange Handler → Option β) {one : Exchange Handler}
    {begun last : List (Exchange Handler)} (first : List (Exchange Handler))
    (begins : begun <+: first ++ one :: last)
    (fewer : (first.filterMap view).length < (begun.filterMap view).length) :
    ∃ more, begun = first ++ one :: more ∧ more <+: last := by
  rcases List.prefix_or_prefix_of_prefix begins (List.prefix_append first (one :: last)) with
    within | ⟨more, rfl⟩
  · have at_most := (within.filterMap view).length_le
    omega
  · have goes_on := (List.prefix_append_right_inj first).mp begins
    cases more with
    | nil =>
      rw [List.append_nil] at fewer
      omega
    | cons next more =>
      obtain ⟨rfl, left⟩ := List.cons_prefix_cons.mp goes_on
      exact ⟨more, rfl, left⟩

theorem read?_beside (Handler : Type) (exchanges : List SerialExchange) :
    (exchanges.map Program.Exchange.beside).filterMap (@Exchange.read? Handler) =
      deliveries exchanges := by
  rw [List.filterMap_map]
  congr 1
  funext exchange
  obtain ⟨request, reply⟩ := exchange
  cases request <;> rfl

theorem written?_receiving (link : Link) (entry : Descriptor Handler) (delivery : Delivery) :
    (receiving link entry delivery).filterMap Exchange.written? = [] := by
  unfold receiving
  split <;> rfl

theorem written?_handling (table : Table Handler) (entry : Descriptor Handler)
    (output : List UInt8) : (handling table entry output).filterMap Exchange.written? = [] := by
  unfold handling
  split <;> rfl

/-- A poll that has written twice has read an ID and sent its token, has received the request and
run the handler, and has written the reply. -/
theorem Polls.replies {polled rest begun : List (Exchange Handler)}
    {result : Except TargetError TargetEvent} (polls : Polls target polled result table)
    (begins : begun <+: polled ++ rest)
    (silent : rest = [] ∨ rest = [⟨.inl .clear, ()⟩])
    (twice : 1 < (begun.filterMap Exchange.written?).length) :
    ∃ (delivery : Delivery) (entry : Descriptor Handler) (sending : List SerialExchange)
      (request : Delivery) (output : List UInt8) (timeout : UInt32) (written : Option Nat)
      (more : List (Exchange Handler)),
      let asked := received target.table entry request
      delivery.count = some 1 ∧
      target.table.descriptor? (delivery.bytes.headD 0) = some entry ∧
      Follows (target.link.sending () [handshakeToken (delivery.bytes.headD 0)]) sending none ∧
      (entry.requestSize ≠ 0 → request.count = some entry.requestSize) ∧ entry.replySize ≠ 0 ∧
      begun = ⟨.inl (.read 1 target.idleTimeout), delivery⟩ ::
        (sending.map Program.Exchange.beside ++ (receiving target.link entry request ++
          (handling asked entry output ++
            (⟨.inl (.write ((handled asked entry output).replyOf entry) timeout), written⟩ ::
              more)))) ∧
      more.filterMap Exchange.read? = [] := by
  have nothing_written : rest.filterMap Exchange.written? = [] := by
    rcases silent with rfl | rfl <;> rfl
  have nothing_read : rest.filterMap Exchange.read? = [] := by
    rcases silent with rfl | rfl <;> rfl
  have all := (begins.filterMap Exchange.written?).length_le
  cases polls with
  | fault | idle | refused =>
    rw [List.filterMap_append, nothing_written, List.append_nil] at all
    exact absurd (Nat.lt_of_lt_of_le twice all) (Nat.not_lt_zero 1)
  | @serves delivery entry calls _ _ came found serves =>
    have one_less : ((⟨.inl (.read 1 target.idleTimeout), delivery⟩ :: calls).filterMap
        Exchange.written?) = calls.filterMap Exchange.written? := rfl
    rw [List.filterMap_append, nothing_written, List.append_nil, one_less] at all
    cases serves with
    | no_token cut =>
      have once := length_written_sending Handler cut
      omega
    | no_request sent some_request short =>
      have once := length_written_sending Handler sent
      rw [List.filterMap_append, written?_receiving, List.append_nil] at all
      omega
    | @handled sending replying request output stop sent full replied =>
      have once := length_written_sending Handler sent
      by_cases empty : entry.replySize = 0
      · rw [if_pos empty] at replied
        cases replied
        simp only [List.filterMap_append, written?_receiving, written?_handling, List.map_nil,
          List.append_nil] at all
        omega
      · rw [if_neg empty] at replied
        have silent_reply := Link.deliveries_sending replied
        obtain ⟨written, tail, rfl, _⟩ := Link.sending_inv replied
        let first : List (Exchange Handler) := ⟨.inl (.read 1 target.idleTimeout), delivery⟩ ::
          (sending.map Program.Exchange.beside ++ (receiving target.link entry request ++
            handling (received target.table entry request) entry output))
        have once_before : (first.filterMap Exchange.written?).length ≤ 1 := by
          rw [List.filterMap_cons_none rfl]
          simp only [List.filterMap_append, written?_receiving, written?_handling, List.append_nil]
          exact once
        have begins_first : begun <+: first ++ Program.Exchange.beside ⟨.write ((handled (received
            target.table entry request) entry output).replyOf entry) target.link.timeout, written⟩ ::
              (tail.map Program.Exchange.beside ++ rest) := by
          simpa only [first, List.map_cons, List.cons_append, List.append_assoc] using begins
        obtain ⟨more, rfl, tail_begins⟩ := begins_of_more Exchange.written? first begins_first
          (Nat.lt_of_le_of_lt once_before twice)
        refine ⟨delivery, entry, sending, request, output, target.link.timeout, written, more, came,
          found, sent, full, empty, ?_, ?_⟩
        · simp only [first, List.cons_append, List.append_assoc]
          rfl
        · have reads := tail_begins.filterMap Exchange.read?
          rw [List.filterMap_append, nothing_read, List.append_nil, read?_beside Handler,
            show deliveries tail = [] from silent_reply] at reads
          exact List.prefix_nil.mp reads

end Target

instance instNonemptyReply (request : SerialRequest ⊕ HandlerCall Handler) :
    Nonempty (Program.EitherReply SerialRequest.Reply HandlerCall.Reply request) := by
  match request with
  | .inl (.write _ _) => exact ⟨(none : Option Nat)⟩
  | .inl (.read _ _) => exact ⟨(⟨[], none⟩ : Delivery)⟩
  | .inl (.skip _ _) => exact ⟨(none : Option Nat)⟩
  | .inl .clear => exact ⟨()⟩
  | .inr _ => exact ⟨([] : List UInt8)⟩

theorem Traced.receiving_inv {duplex : Duplex} {side : WireEnd} {own other : List Mark}
    {heard told heard' told' : Nat} {entries : List (Entry Handler)} {link : Link} {table : Table Handler}
    {entry : Descriptor Handler} {id : TransactionId} {delivery : Delivery} (built : table.Built)
    (found : table.descriptor? id = some entry)
    (traced : Traced handle duplex side own other heard told entries heard' told')
    (calls : entries.map Entry.exchange = Target.receiving link entry delivery)
    (full : entry.requestSize ≠ 0 → delivery.count = some entry.requestSize) :
    let asked := Target.received table entry delivery
    segmentsSent entries = [] ∧
      segmentsTaken entries =
        (if entry.requestSize = 0 then [] else [⟨heard, asked.requestOf entry⟩]) ∧
      asked.requestOf entry <+: (own.map Mark.byte).drop heard ∧
      heard' = heard + entry.requestSize ∧ told' = told := by
  intro asked
  unfold Target.receiving at calls
  unfold asked Target.received
  by_cases empty : entry.requestSize = 0
  · rw [if_pos empty] at calls
    obtain rfl := List.map_eq_nil_iff.mp calls
    cases traced
    have nothing : table.requestOf entry = [] :=
      List.length_eq_zero_iff.mp ((built.length_requestOf found).trans empty)
    rw [if_pos empty, if_pos empty, nothing, empty]
    exact ⟨rfl, rfl, List.nil_prefix, rfl, rfl⟩
  · rw [if_neg empty] at calls
    obtain ⟨sent, taken, _, length, there, rfl, rfl⟩ := traced.read_inv calls (full empty)
    have written := built.requestOf_writeRequest found length
    rw [if_neg empty, if_neg empty, written]
    exact ⟨sent, taken, there, rfl, rfl⟩

/-- Where a reaction to an ID has its messages, up to its reply. -/
theorem Past.reaction {traffic : Traffic} {entries : List (Entry Handler)} {link : Link}
    {table : Table Handler} {entry : Descriptor Handler} {id : TransactionId} {idleTimeout timeout : UInt32}
    {delivery asked : Delivery} {sending : List SerialExchange} {output : List UInt8}
    {written : Option Nat} {more : List (Target.Exchange Handler)}
    (past : Past handle traffic .far entries) (wiring : traffic.wire.duplex = link.duplex)
    (built : table.Built) (found : table.descriptor? id = some entry)
    (came : delivery.count = some 1)
    (sends : Follows (link.sending () [handshakeToken id]) sending none)
    (full : entry.requestSize ≠ 0 → asked.count = some entry.requestSize)
    (calls : entries.map Entry.exchange = ⟨.inl (.read 1 idleTimeout), delivery⟩ ::
      (sending.map Program.Exchange.beside ++ (Target.receiving link entry asked ++
        (Target.handling (Target.received table entry asked) entry output ++
          (⟨.inl (.write ((Target.handled (Target.received table entry asked) entry output).replyOf
            entry) timeout), written⟩ :: more)))))
    (silent : more.filterMap Target.Exchange.read? = []) :
    let asked := Target.received table entry asked
    ∃ id_place token_place request_place reply_place sent_more,
      let sent : Segment := ⟨id_place, delivery.bytes⟩
      let token : Segment := ⟨token_place, [handshakeToken id]⟩
      let request : Segment := ⟨request_place, asked.requestOf entry⟩
      let reply : Segment :=
        ⟨reply_place, (Target.handled asked entry output).replyOf entry⟩
      segmentsSent entries = token :: reply :: sent_more ∧
      segmentsTaken entries = sent :: (if entry.requestSize = 0 then [] else [request]) ∧
      PollPlaces traffic.wire.duplex (traffic.came .near) (traffic.came .far) sent token request reply ∧
      ∀ handler, entry.handler = some handler →
        let call : HandlerCall Handler := ⟨handler, asked.requestOf entry, asked.replyOf entry⟩
        (call, output) ∈ handlerRuns entries ∧ ∃ handlers, output = (handle call handlers).1 := by
  intro after_request
  rw [← List.singleton_append] at calls
  obtain ⟨id_entries, later, rfl, id_calls, calls⟩ := List.map_eq_append_iff.mp calls
  obtain ⟨token_entries, later, rfl, token_calls, calls⟩ := List.map_eq_append_iff.mp calls
  obtain ⟨request_entries, later, rfl, request_calls, calls⟩ := List.map_eq_append_iff.mp calls
  obtain ⟨handler_entries, later, rfl, handler_calls, calls⟩ := List.map_eq_append_iff.mp calls
  rw [← List.singleton_append] at calls
  obtain ⟨reply_entries, more_entries, rfl, reply_calls, more_calls⟩ :=
    List.map_eq_append_iff.mp calls
  obtain ⟨first, begun, heard, told, last, traced, foreign, heard_le⟩ := past
  rw [wiring] at traced heard_le ⊢
  obtain ⟨_, _, id_traced, traced⟩ := traced.split
  obtain ⟨_, _, token_traced, traced⟩ := traced.split
  obtain ⟨_, _, request_traced, traced⟩ := traced.split
  obtain ⟨_, _, handler_traced, traced⟩ := traced.split
  obtain ⟨_, _, reply_traced, more_traced⟩ := traced.split
  obtain ⟨id_sent, id_taken, _, id_length, id_there, rfl, rfl⟩ := id_traced.read_inv id_calls came
  obtain ⟨token_place, token_sent, token_taken, _, wrote_token, rfl, rfl⟩ :=
    token_traced.sending_inv sends token_calls
  obtain ⟨request_sent, request_taken, request_there, rfl, rfl⟩ :=
    request_traced.receiving_inv built found request_calls full
  obtain ⟨handler_sent, handler_taken, ran, rfl, rfl⟩ := handler_traced.handling_inv handler_calls
  obtain ⟨reply_place, reply_sent, reply_taken, _, wrote_reply, rfl, rfl⟩ :=
    reply_traced.write_inv reply_calls
  have more_taken : segmentsTaken more_entries = [] :=
    segmentsTaken_eq_nil _ (more_calls.symm ▸ silent)
  have asked_built : (Target.received table entry asked).Built := Target.received_built built found
  have request_length := asked_built.length_requestOf ((Target.descriptor?_received id).trans found)
  refine ⟨first, token_place, first + 1 + echo link.duplex 1, reply_place,
    segmentsSent more_entries, ?_, ?_, ?_, ?_⟩
  · simp only [segmentsSent_append, id_sent, token_sent, request_sent, handler_sent, reply_sent]
    rfl
  · simp only [segmentsTaken_append, id_taken, token_taken, request_taken, handler_taken,
      reply_taken, more_taken, List.append_nil]
    rfl
  · constructor
    case id_there => exact id_there
    case id_length => exact id_length
    case token_there => exact wrote_token.there
    case token_length => rfl
    case token_unheard => exact wrote_token.unheard
    case request_place => rfl
    case request_there => exact request_there
    case behind => exact wrote_reply.behind
    case between => exact wrote_reply.foreign
    case reply_unheard =>
      intro half
      rw [request_length]
      exact wrote_reply.unheard half
    case reply_there => exact wrote_reply.there
  · intro handler registered
    obtain ⟨runs, made⟩ := ran handler registered
    refine ⟨?_, made⟩
    simp only [handlerRuns_append, List.mem_append]
    exact .inr (.inr (.inr (.inl (runs ▸ List.mem_singleton_self _))))

namespace Setup

variable {setup : Setup Handler} {traffic : Traffic} {entries : List (Entry Handler)}

/-- A transaction that went well has sent ID and request and taken token and reply, and has kept the
reply. -/
theorem Calls.places {job : Job} {outcome : Except TransactionError Unit × Initiator Handler}
    {requestSize replySize : Nat}
    (calls : setup.Calls job (entries.map Entry.exchange) (.done outcome))
    (past : Past handle traffic .near entries) (wiring : traffic.wire.duplex = setup.duplex)
    (fine : outcome.1 = .ok ()) (known : setup.sizes job.id = some (requestSize, replySize))
    (some_request : requestSize ≠ 0) (some_reply : replySize ≠ 0) :
    ∃ id token request reply, segmentsSent entries = [id, request] ∧
      segmentsTaken entries = [token, reply] ∧
      CallPlaces traffic.wire.duplex (traffic.came .near) (traffic.came .far) id token request reply ∧
      id.bytes = [job.id] ∧ request.bytes.length = requestSize ∧ reply.bytes.length = replySize ∧
      outcome.2.table.request? job.id = some request.bytes ∧
      outcome.2.table.reply? job.id = some reply.bytes := by
  obtain ⟨initiator, near, leads⟩ := calls
  obtain ⟨own, made, leads⟩ := Target.onLink_leads_inv leads
  obtain ⟨entry, found, rfl, rfl⟩ := Table.sizes?_eq_some ((near.fits.sizes job.id).trans known)
  have built := near.fits.built
  have ready : initiator.tooSoon job.now = false := by
    cases soon : initiator.tooSoon job.now with
    | false => rfl
    | true =>
      rw [Initiator.transaction_refused (.inr soon)] at leads
      obtain ⟨_, same⟩ := leads.done_inv
      cases same
      cases fine
  obtain ⟨result, after⟩ := outcome
  obtain ⟨exchanges, stop, follows, rfl, verdict, rfl⟩ :=
    Initiator.transaction_leads built found ready leads
  obtain rfl := Link.verdict_eq_ok_iff.mp (verdict.symm.trans fine)
  rw [if_pos rfl, List.append_nil] at made
  rw [Initiator.agenda, if_neg some_request] at follows
  obtain ⟨id, token, request, reply, sent, taken, places, id_eq, request_eq, reply_length, reply_eq⟩ :=
    past.conversation (wiring.trans near.duplex.symm) made follows some_reply
  refine ⟨id, token, request, reply, sent, taken, places, id_eq, ?_, reply_length, ?_, ?_⟩
  · rw [request_eq, built.length_requestOf found]
  · rw [request_eq]
    exact Table.request?_writeReply found _
  · rw [Initiator.afterCalls, ← reply_eq]
    exact built.reply?_writeReply found reply_length

/-- A poll that has sent twice has taken ID and request and sent token and reply, and its handler
has made the reply of the request. -/
theorem Polls.places
    {program : ServingProgram Handler (Except TargetError TargetEvent × Target Handler)}
    (polls : setup.Polls (entries.map Entry.exchange) program)
    (past : Past handle traffic .far entries) (wiring : traffic.wire.duplex = setup.duplex)
    (twice : 1 < (segmentsSent entries).length) :
    ∃ id token request reply requestSize replySize more,
      segmentsSent entries = token :: reply :: more ∧
      segmentsTaken entries = id :: (if requestSize = 0 then [] else [request]) ∧
      PollPlaces traffic.wire.duplex (traffic.came .near) (traffic.came .far) id token request reply ∧
      setup.sizes (id.bytes.headD 0) = some (requestSize, replySize) ∧
      request.bytes.length = requestSize ∧ reply.bytes.length = replySize ∧
      ∀ handler, setup.handlers (id.bytes.headD 0) = some handler →
        ∃ before handlers, let call : HandlerCall Handler := ⟨handler, request.bytes, before⟩
          let output := (handle call handlers).1
          (call, output) ∈ handlerRuns entries ∧
            reply.bytes = overlay (output.take replySize) before := by
  obtain ⟨target, far, leads⟩ := polls
  have built := far.fits.built
  -- The poll may still be under way, but it is the beginning of one that has come to its end.
  obtain ⟨rest, ⟨result, after⟩, left⟩ := Program.exists_leads_done program
  obtain ⟨polled, table, polls, _, whole⟩ := Target.poll_leads built (leads.append left)
  rw [length_segmentsSent] at twice
  obtain ⟨delivery, entry, sending, asked, output, timeout, written, more, came, found, sends, full,
    some_reply, calls, silent⟩ := polls.replies ⟨rest, whole⟩ (by cases result <;> simp) twice
  have asked_built : (Target.received target.table entry asked).Built :=
    Target.received_built built found
  have asked_found : (Target.received target.table entry asked).descriptor?
      (delivery.bytes.headD 0) = some entry := (Target.descriptor?_received _).trans found
  obtain ⟨id_place, token_place, request_place, reply_place, sent_more, sent, taken, places, ran⟩ :=
    past.reaction (wiring.trans far.duplex.symm) built found came sends full calls silent
  refine ⟨_, _, _, _, entry.requestSize, entry.replySize, sent_more, sent, taken, places, ?_, ?_, ?_,
    ?_⟩
  · rw [← far.fits.sizes, Table.sizes?, found]
    rfl
  · exact asked_built.length_requestOf asked_found
  · exact (Target.built_handled asked_built asked_found).length_replyOf
      ((Target.descriptor?_handled _).trans asked_found)
  · intro handler registered
    rw [← far.handlers, Table.handler?, found, Option.bind_some] at registered
    obtain ⟨member, handlers, rfl⟩ := ran handler registered
    refine ⟨_, handlers, member, ?_⟩
    rw [Target.handled, registered]
    exact asked_built.replyOf_writeReply asked_found

end Setup

/-- Both have the same two segments: one that the call sent and the poll took, and one that the poll
sent and the call took. Both are the ones of this number. -/
def Exchanged (call poll : List (Entry Handler)) (number : Nat) (asked answered : Segment) : Prop :=
  (segmentsSent call)[number]? = some asked ∧ (segmentsTaken poll)[number]? = some asked ∧
    (segmentsSent poll)[number]? = some answered ∧ (segmentsTaken call)[number]? = some answered

instance (call poll : List (Entry Handler)) (number : Nat) (asked answered : Segment) :
    Decidable (Exchanged call poll number asked answered) :=
  inferInstanceAs (Decidable (_ ∧ _ ∧ _ ∧ _))

/-- The token that the call took is the answer of this poll to the very ID that the call sent, and
the poll has gone on as far as its reply. -/
def Greeted (call poll : List (Entry Handler)) : Prop :=
  (∃ id token, Exchanged call poll 0 id token) ∧ 1 < (segmentsSent poll).length

/-- The reply that the call ended with is what this poll sent, and what the handler made of the very
request that the call sent. -/
def Fresh (handle : HandlerCall Handler → τ → List UInt8 × τ) (handler? : Option Handler)
    (call : Job × Record Handler (Except TransactionError Unit × Initiator Handler))
    (poll : List (Entry Handler)) : Prop :=
  ∃ request reply, Exchanged call.2.entries poll 1 request reply ∧
    call.2.outcome.2.table.request? call.1.id = some request.bytes ∧
    call.2.outcome.2.table.reply? call.1.id = some reply.bytes ∧
    ∀ handler, handler? = some handler →
      ∃ before handlers, let run : HandlerCall Handler := ⟨handler, request.bytes, before⟩
        let output := (handle run handlers).1
        (run, output) ∈ handlerRuns poll ∧
          reply.bytes = overlay (output.take reply.bytes.length) before

namespace Joint

/-- What each poll has done, also the one that is under way. -/
def attempts (joint : Joint Handler τ) : List (List (Entry Handler)) :=
  joint.polls.map Record.entries ++ [joint.poll.entries]

theorem current_mem_attempts (joint : Joint Handler τ) : joint.poll.entries ∈ joint.attempts :=
  List.mem_append_right _ (List.mem_singleton_self _)

section Fresh

variable {setup : Setup Handler} {joint : Joint Handler τ}

theorem Recorded.attempt {poll : List (Entry Handler)} (recorded : Recorded handle setup joint)
    (member : poll ∈ joint.attempts) :
    ∃ program, setup.Polls (poll.map Entry.exchange) program ∧
      Past handle joint.traffic .far poll := by
  rcases List.mem_append.mp member with old | current
  · obtain ⟨record, among, rfl⟩ := List.mem_map.mp old
    exact ⟨_, recorded.polls record among⟩
  · obtain rfl := List.mem_singleton.mp current
    exact ⟨_, recorded.poll.1, recorded.poll.2.past recorded.kept⟩

/-- A call and a poll that share a fresh token share a fresh reply, and the other way around. -/
theorem Recorded.fresh_iff (recorded : Recorded handle setup joint)
    {call : Job × Record Handler (Except TransactionError Unit × Initiator Handler)}
    (called : call ∈ joint.calls) (fine : call.2.outcome.1 = .ok ()) {requestSize replySize : Nat}
    (known : setup.sizes call.1.id = some (requestSize, replySize)) (some_request : requestSize ≠ 0)
    (some_reply : replySize ≠ 0) {poll : List (Entry Handler)} (polled : poll ∈ joint.attempts) :
    Fresh handle (setup.handlers call.1.id) call poll ↔ Greeted call.2.entries poll := by
  obtain ⟨calls, call_past⟩ := recorded.calls call called
  obtain ⟨program, polls, poll_past⟩ := recorded.attempt polled
  obtain ⟨id, token, request, reply, call_sent, call_taken, call_places, id_eq, request_length,
    reply_length, holds_request, holds_reply⟩ :=
    calls.places call_past recorded.duplex fine known some_request some_reply
  constructor
  · rintro ⟨asked, answered, ⟨call_asks, poll_asks, poll_answers, call_answers⟩, _⟩
    have twice := (List.getElem?_eq_some_iff.mp poll_answers).1
    obtain ⟨id', token', request', reply', requestSize', replySize', more, poll_sent, poll_taken,
      poll_places, _⟩ := polls.places poll_past recorded.duplex twice
    rw [call_sent] at call_asks
    rw [call_taken] at call_answers
    rw [poll_sent] at poll_answers
    rw [poll_taken] at poll_asks
    cases call_asks
    cases call_answers
    cases poll_answers
    have same_request : request' = request := by
      split at poll_asks
      · cases poll_asks
      · exact Option.some.inj poll_asks
    subst same_request
    obtain ⟨same_id, same_token⟩ := (places_agree recorded.kept call_places poll_places rfl
      (by omega) (by omega)).mpr ⟨rfl, rfl⟩
    obtain rfl := Segment.eq_of_there (bytes_there call_places.id_there) poll_places.id_there same_id
      (call_places.id_length.trans poll_places.id_length.symm)
    obtain rfl := Segment.eq_of_there call_places.token_there (bytes_there poll_places.token_there)
      same_token (call_places.token_length.trans poll_places.token_length.symm)
    refine ⟨⟨id, token, ?_, ?_, ?_, ?_⟩, twice⟩
    · rw [call_sent, List.getElem?_cons_zero]
    · rw [poll_taken, List.getElem?_cons_zero]
    · rw [poll_sent, List.getElem?_cons_zero]
    · rw [call_taken, List.getElem?_cons_zero]
  · rintro ⟨⟨asked, answered, call_asks, poll_asks, poll_answers, call_answers⟩, twice⟩
    obtain ⟨id', token', request', reply', requestSize', replySize', more, poll_sent, poll_taken,
      poll_places, known', request_length', reply_length', made⟩ :=
      polls.places poll_past recorded.duplex twice
    rw [call_sent] at call_asks
    rw [call_taken] at call_answers
    rw [poll_sent] at poll_answers
    rw [poll_taken] at poll_asks
    cases call_asks
    cases call_answers
    cases poll_answers
    cases poll_asks
    -- The poll has served the ID of the call, so it has its sizes and its handler from there.
    rw [id_eq, List.headD_cons] at known' made
    cases known.symm.trans known'
    have same_length := request_length.trans request_length'.symm
    obtain ⟨same_request, same_reply⟩ := (places_agree recorded.kept call_places poll_places
      same_length (by omega) (by omega)).mp ⟨rfl, rfl⟩
    obtain rfl := Segment.eq_of_there (bytes_there call_places.request_there)
      poll_places.request_there same_request same_length
    obtain rfl := Segment.eq_of_there call_places.reply_there (bytes_there poll_places.reply_there)
      same_reply (reply_length.trans reply_length'.symm)
    refine ⟨request, reply, ⟨?_, ?_, ?_, ?_⟩, holds_request, holds_reply, ?_⟩
    · rw [call_sent, List.getElem?_cons_succ, List.getElem?_cons_zero]
    · rw [poll_taken, if_neg some_request, List.getElem?_cons_succ, List.getElem?_cons_zero]
    · rw [poll_sent, List.getElem?_cons_succ, List.getElem?_cons_zero]
    · rw [call_taken, List.getElem?_cons_succ, List.getElem?_cons_zero]
    · rw [reply_length]
      exact made

end Fresh

/-- Whatever the order of steps and whichever waits run out, as long as nothing is lost: a transaction
that went well ends with a fresh reply just if its token was an answer to its own ID, by a poll that
has come as far as its reply. -/
theorem fresh_run (handle : HandlerCall Handler → τ → List UInt8 × τ)
    (initiator : Initiator Handler) (target : Target Handler) (handlers : τ)
    (sizes : TransactionId → Option (Nat × Nat)) (near : initiator.table.Fits sizes)
    (far : target.table.Fits sizes) (duplex : initiator.link.duplex = target.link.duplex)
    (moves : List Move)
    (lossless : ((start initiator target handlers).run handle moves).traffic.Lossless) :
    let joint := (start initiator target handlers).run handle moves
    ∀ call ∈ joint.calls, call.2.outcome.1 = .ok () → ∀ requestSize replySize,
      sizes call.1.id = some (requestSize, replySize) → requestSize ≠ 0 → replySize ≠ 0 →
      ((∃ poll ∈ joint.attempts, Fresh handle (target.table.handler? call.1.id) call poll) ↔
        ∃ poll ∈ joint.attempts, Greeted call.2.entries poll) := by
  intro joint call called fine requestSize replySize known some_request some_reply
  let setup : Setup Handler := ⟨initiator.link.duplex, sizes, target.table.handler?⟩
  have near_set : setup.Near initiator := ⟨near, rfl⟩
  have far_set : setup.Far target := ⟨far, duplex.symm, fun _ => rfl⟩
  have recorded : Recorded handle setup joint := recorded_run (Traffic.sound_new _)
    (fun _ => recorded_start near_set far_set) lossless
  constructor
  · rintro ⟨poll, polled, fresh⟩
    exact ⟨poll, polled, (recorded.fresh_iff called fine known some_request some_reply polled).mp fresh⟩
  · rintro ⟨poll, polled, greeted⟩
    exact ⟨poll, polled,
      (recorded.fresh_iff called fine known some_request some_reply polled).mpr greeted⟩

/-- One transaction on a full-duplex wire, with a fresh reply. -/
theorem fresh_run_single :
    let config : LinkConfig := LinkConfig.withDuplex {} .full
    let near : Initiator Unit := .ofConfig config (.single none)
    let far : Target Unit := .ofConfig config (.single (some ()))
    let handle : HandlerCall Unit → Unit → List UInt8 × Unit :=
      fun call _ => (call.input.map (~~~ ·), ())
    let moves : List Move := [.call ⟨0, 1, [5]⟩, .step .near true, .step .far true, .step .far true,
      .step .near true, .step .near true, .step .far true, .step .far true, .step .far true,
      .step .near true, .step .near true]
    let joint := (start near far ()).run handle moves
    joint.traffic.Lossless ∧ ∃ call ∈ joint.calls, call.2.outcome.1 = .ok () ∧
      ∃ poll ∈ joint.attempts, Fresh handle (far.table.handler? call.1.id) call poll := by
  intro config near far handle moves joint
  have near_fits : near.table.Fits near.table.sizes? := ⟨Table.single_built _, fun _ => rfl⟩
  have far_fits : far.table.Fits near.table.sizes? := by
    refine ⟨Table.single_built _, ?_⟩
    intro id
    exact (Table.sizes?_single _ id).trans (Table.sizes?_single _ id).symm
  have lossless : joint.traffic.Lossless := by
    intro side
    cases side <;> decide +kernel
  have some_call : joint.calls ≠ [] := by decide +kernel
  have facts : ∀ call ∈ joint.calls, call.2.outcome.1 = .ok () ∧
      near.table.sizes? call.1.id = some (1, 1) ∧
      Exchanged call.2.entries joint.poll.entries 0 ⟨0, [1]⟩ ⟨0, [6]⟩ := by decide +kernel
  have twice : 1 < (segmentsSent joint.poll.entries).length := by decide +kernel
  obtain ⟨call, called⟩ := List.exists_mem_of_ne_nil _ some_call
  obtain ⟨fine, known, exchanged⟩ := facts call called
  refine ⟨lossless, call, called, fine, ?_⟩
  exact (fresh_run handle near far () near.table.sizes? near_fits far_fits rfl moves lossless call
    called fine 1 1 known (by decide) (by decide)).mpr
      ⟨_, joint.current_mem_attempts, ⟨_, _, exchanged⟩, twice⟩

/-- The target is late for two attempts, and each time answers after the input was dropped. The third
attempt then takes the token and the reply that were meant for the second. -/
theorem stale_reply :
    let config : LinkConfig := { checkInterval := 0 }
    let near : Initiator Unit := .ofConfig (config.withDuplex .full) (.single none)
    let far : Target Unit := .ofConfig (config.withDuplex .full) (.single (some ()))
    let handle : HandlerCall Unit → Unit → List UInt8 × Unit :=
      fun call _ => (call.input.map (~~~ ·), ())
    let moves : List Move := [
      .call ⟨0, 1, [0x11]⟩, .step .near true, .step .near false, .step .near true, .step .near true,
      .step .far true, .step .far true, .step .far false, .step .far true, .step .far true,
      .call ⟨0, 1, [0x11]⟩, .step .near true, .step .near true, .step .near true, .step .near false,
      .step .near true, .step .near true,
      .step .far true, .step .far true, .step .far true, .step .far true, .step .far true,
      .step .far true,
      .call ⟨0, 1, [0x22]⟩, .step .near true, .step .near true, .step .near true, .step .near true,
      .step .near true]
    let joint := (start near far ()).run handle moves
    joint.traffic.Lossless ∧ ∃ call ∈ joint.calls, call.2.outcome.1 = .ok () ∧
      call.1.contents = [0x22] ∧ call.2.outcome.2.table.reply? call.1.id = some [~~~ 0x11] ∧
      ∀ poll ∈ joint.attempts, ¬ Fresh handle (far.table.handler? call.1.id) call poll := by
  intro config near far handle moves joint
  have lossless : joint.traffic.Lossless := by
    intro side
    cases side <;> decide +kernel
  have ended : ∃ call ∈ joint.calls, call.2.outcome.1 = .ok () ∧ call.1.contents = [0x22] ∧
      call.2.outcome.2.table.reply? call.1.id = some [~~~ 0x11] ∧
      call.2.outcome.2.table.request? call.1.id = some [0x22] ∧
      far.table.handler? call.1.id = some () := by decide +kernel
  have unasked : ∀ poll ∈ joint.attempts, ∀ run ∈ handlerRuns poll, run.1.input ≠ [0x22] := by
    decide +kernel
  obtain ⟨call, called, fine, contents, holds, asked, registered⟩ := ended
  refine ⟨lossless, call, called, fine, contents, holds, ?_⟩
  rintro poll polled ⟨request, reply, _, sent, _, made⟩
  obtain ⟨before, handlers, ran, _⟩ := made () registered
  have same : request.bytes = [0x22] := Option.some.inj (sent.symm.trans asked)
  exact unasked poll polled _ ran same

end Joint
end SplitKeyboard
