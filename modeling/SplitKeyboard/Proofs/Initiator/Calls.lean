import SplitKeyboard.Initiator
import SplitKeyboard.Proofs.Agenda
import SplitKeyboard.Proofs.Table.Layout

/-!
The calls of one transaction. Whatever the device does, a transaction either asks nothing of it or
follows one agenda up to the first call that goes wrong, and drops the input after that. Where it
stopped settles the result and all that the initiator learns.
-/
namespace SplitKeyboard

namespace Link

def opening (link : Link) (id : TransactionId) : List (Step Phase) :=
  link.sending .sendingId [id] ++
    [.read .awaitingHandshake 1 link.timeout (fun bytes => bytes.headD 0xFF = handshakeToken id)]

/-- The calls that send a request. An empty one needs none. -/
def requesting (link : Link) (request : List UInt8) : List (Step Phase) :=
  if request = [] then [] else link.sending .sendingPayload request

/-- The call that receives a reply. An empty one needs none. -/
def collecting (link : Link) (replySize : Nat) : List (Step Phase) :=
  if replySize = 0 then []
  else [.read .receivingPayload replySize link.timeout (fun _ => True)]

def agenda (link : Link) (id : TransactionId) (request : List UInt8) (replySize : Nat) :
    List (Step Phase) :=
  link.opening id ++ (link.requesting request ++ link.collecting replySize)

def verdict (link : Link) : Option Phase → Except TransactionError Unit
  | none => .ok ()
  | some .sendingId => .error link.unsent
  | some phase => .error (.noResponse phase)

theorem verdict_eq_ok_iff {link : Link} {stop : Option Phase} :
    link.verdict stop = .ok () ↔ stop = none := by
  constructor
  · intro fine
    cases stop with
    | none => rfl
    | some phase => cases phase <;> cases fine
  · intro went_on
    exact went_on ▸ rfl

end Link

/-- Whether an exchange that stopped in this phase had its ID answered. -/
def answeredBy (stop : Option Phase) : Bool :=
  stop ≠ some .sendingId && stop ≠ some .awaitingHandshake

section Conversation

variable {link : Link} {id : TransactionId} {request : List UInt8} {replySize : Nat}
  {exchanges : List SerialExchange}

namespace Link

/-- A handshake follows its agenda, and reads once if it gets as far as the read. -/
theorem shakeHands_follows {result : Except TransactionError Unit}
    (h : Program.Leads (link.shakeHands id) exchanges (.done result)) :
    ∃ stop, Follows (link.opening id) exchanges stop ∧ result = link.verdict stop ∧
      ((stop = none ∧ (deliveries exchanges).length = 1) ∨
        (answeredBy stop = false ∧ (deliveries exchanges).length ≤ 1)) := by
  obtain ⟨sending, receiving, sent, rfl, begun, rest⟩ := Program.Leads.of_bind h
  have follows := send_follows Phase.sendingId (List.cons_ne_nil id []) begun
  have nothing := deliveries_sending follows
  cases sent with
  | error error =>
    obtain ⟨rfl, same⟩ := rest.done_inv
    cases same
    refine ⟨some .sendingId, ?_, rfl, .inr ⟨rfl, ?_⟩⟩
    · rw [List.append_nil]
      exact follows.append_cut
    · rw [List.append_nil, nothing]
      exact Nat.zero_le 1
  | ok done =>
    obtain ⟨first, last, reception, rfl, received, ended⟩ := Program.Leads.of_bind rest
    obtain ⟨delivery, rfl, bytes, complete⟩ := receive_leads received
    have once : (deliveries (sending ++ [⟨.read 1 link.timeout, delivery⟩])).length = 1 := by
      rw [deliveries_append, nothing]
      rfl
    cases outcome : reception.result with
    | error error =>
      simp only [outcome] at ended
      obtain ⟨rfl, same⟩ := ended.done_inv
      cases same
      refine ⟨some .awaitingHandshake, ?_, rfl, .inr ⟨rfl, Nat.le_of_eq once⟩⟩
      refine follows.append (.cut ?_)
      rintro ⟨full, _⟩
      rw [complete.mpr full] at outcome
      cases outcome
    | ok received =>
      simp only [outcome] at ended
      have full := complete.mp outcome
      split at ended
      · next reply =>
        obtain ⟨rfl, same⟩ := ended.done_inv
        cases same
        refine ⟨none, ?_, rfl, .inl ⟨rfl, once⟩⟩
        refine follows.append (.goes ⟨full, ?_⟩ .finished)
        rw [← bytes]
        exact isHandshakeReply_iff.mp reply
      · next reply =>
        obtain ⟨rfl, same⟩ := ended.done_inv
        cases same
        refine ⟨some .awaitingHandshake, ?_, rfl, .inr ⟨rfl, Nat.le_of_eq once⟩⟩
        refine follows.append (.cut ?_)
        rintro ⟨_, token⟩
        rw [← bytes] at token
        exact reply (isHandshakeReply_iff.mpr token)

theorem sendRequest_follows {result : Except TransactionError Unit}
    (h : Program.Leads (link.sendRequest request) exchanges (.done result)) :
    ∃ stop, Follows (link.requesting request) exchanges stop ∧ result = link.verdict stop ∧
      (stop = none ∨ stop = some .sendingPayload) ∧ deliveries exchanges = [] := by
  unfold sendRequest at h
  split at h
  · next nothing =>
    obtain ⟨rfl, same⟩ := h.done_inv
    cases same
    rw [requesting, if_pos nothing]
    exact ⟨none, .finished, rfl, .inl rfl, rfl⟩
  · next some_request =>
    rw [requesting, if_neg some_request]
    obtain ⟨sending, none_left, sent, rfl, begun, ended⟩ := Program.Leads.of_bind h
    have follows := send_follows Phase.sendingPayload some_request begun
    have nothing := deliveries_sending follows
    cases sent with
    | error error =>
      obtain ⟨rfl, same⟩ := ended.done_inv
      cases same
      rw [List.append_nil]
      exact ⟨some .sendingPayload, follows, rfl, .inr rfl, nothing⟩
    | ok done =>
      obtain ⟨rfl, same⟩ := ended.done_inv
      cases same
      rw [List.append_nil]
      exact ⟨none, follows, rfl, .inl rfl, nothing⟩

theorem receiveReply_follows {result : Except TransactionError Unit} {reply : List UInt8}
    (h : Program.Leads (link.receiveReply replySize) exchanges (.done (result, reply))) :
    ∃ stop, Follows (link.collecting replySize) exchanges stop ∧ result = link.verdict stop ∧
      (stop = none ∨ stop = some .receivingPayload) ∧ reply = (deliveries exchanges).flatten := by
  unfold receiveReply at h
  split at h
  · next nothing =>
    obtain ⟨rfl, same⟩ := h.done_inv
    cases same
    rw [collecting, if_pos nothing]
    exact ⟨none, .finished, rfl, .inl rfl, rfl⟩
  · next some_reply =>
    rw [collecting, if_neg some_reply]
    obtain ⟨receiving, none_left, reception, rfl, received, ended⟩ := Program.Leads.of_bind h
    obtain ⟨delivery, rfl, bytes, complete⟩ := receive_leads received
    have whole : reception.bytes = (deliveries [⟨.read replySize link.timeout, delivery⟩]).flatten :=
      bytes.trans (List.append_nil _).symm
    cases outcome : reception.result with
    | error error =>
      simp only [outcome] at ended
      obtain ⟨rfl, same⟩ := ended.done_inv
      cases same
      refine ⟨some .receivingPayload, .cut ?_, rfl, .inr rfl, whole⟩
      rintro ⟨full, _⟩
      rw [complete.mpr full] at outcome
      cases outcome
    | ok received =>
      simp only [outcome] at ended
      obtain ⟨rfl, same⟩ := ended.done_inv
      cases same
      exact ⟨none, .goes ⟨complete.mp outcome, trivial⟩ .finished, rfl, .inl rfl, whole⟩

/-- A conversation follows the agenda. The first delivery is the token, what follows the reply. -/
theorem converse_follows {conversation : Conversation}
    (h : Program.Leads (link.converse id request replySize) exchanges (.done conversation)) :
    ∃ stop, Follows (link.agenda id request replySize) exchanges stop ∧
      conversation = ⟨link.verdict stop, answeredBy stop,
        ((deliveries exchanges).drop 1).flatten⟩ := by
  obtain ⟨opened, later, greeted, rfl, handshake, rest⟩ := Program.Leads.of_bind h
  obtain ⟨stop, greeting, rfl, shape⟩ := shakeHands_follows handshake
  rcases shape with ⟨rfl, once⟩ | ⟨unanswered, at_most⟩
  · -- The ID was answered, so the payloads are exchanged next.
    obtain ⟨asking, collected, asked, rfl, requested, more⟩ := Program.Leads.of_bind rest
    obtain ⟨stop, following, rfl, shape, nothing⟩ := sendRequest_follows requested
    have token_only : (deliveries (opened ++ asking)).length = 1 := by
      rw [deliveries_append, nothing, List.append_nil, once]
    rcases shape with rfl | rfl
    · obtain ⟨receiving, none_left, ⟨result, reply⟩, rfl, received, ended⟩ :=
        Program.Leads.of_bind more
      obtain ⟨rfl, same⟩ := ended.done_inv
      cases same
      obtain ⟨stop, collecting, rfl, shape, rfl⟩ := receiveReply_follows received
      refine ⟨stop, greeting.append (following.append ?_), ?_⟩
      · rw [List.append_nil]
        exact collecting
      · have answered : answeredBy stop = true := by
          rcases shape with rfl | rfl <;> rfl
        rw [answered, List.append_nil, ← List.append_assoc, deliveries_append,
          List.drop_append_of_le_length (Nat.le_of_eq token_only.symm),
          List.drop_of_length_le (Nat.le_of_eq token_only), List.nil_append]
    · obtain ⟨rfl, same⟩ := more.done_inv
      cases same
      refine ⟨some .sendingPayload, greeting.append ?_, ?_⟩
      · rw [List.append_nil]
        exact following.append_cut
      · rw [List.append_nil, List.drop_of_length_le (Nat.le_of_eq token_only)]
        rfl
  · cases stop with
    | none => cases unanswered
    | some phase =>
      have refused : ∃ error, link.verdict (some phase) = .error error := by
        cases phase <;> exact ⟨_, rfl⟩
      obtain ⟨error, refused⟩ := refused
      simp only [refused] at rest
      obtain ⟨rfl, same⟩ := rest.done_inv
      cases same
      refine ⟨some phase, ?_, ?_⟩
      · rw [List.append_nil]
        exact greeting.append_cut
      · rw [List.append_nil, List.drop_of_length_le at_most, refused, unanswered]
        rfl

end Link
end Conversation

namespace Initiator

variable {Handler σ : Type} {initiator : Initiator Handler} {now : Millis} {id : TransactionId}
  {entry : Descriptor Handler} {exchanges : List SerialExchange}

theorem permit_eq_ok_iff :
    initiator.permit now id = .ok entry ↔
      initiator.table.descriptor? id = some entry ∧ initiator.tooSoon now = false := by
  rw [← Table.resolve_eq_ok_iff]
  unfold permit
  cases initiator.table.resolve id with
  | error error => cases error <;> simp
  | ok found => cases initiator.tooSoon now <;> simp

/-- What a transaction answers that may not go on the wire. -/
def refusal (initiator : Initiator Handler) (id : TransactionId) : TransactionError :=
  if initiator.table.capacity ≤ id.toNat then .invalidId id
  else if initiator.table.descriptor? id = none then .notRegistered id
  else .throttled

/-- The calls of a transaction that may go on the wire, if nothing goes wrong. -/
def agenda (initiator : Initiator Handler) (entry : Descriptor Handler) (id : TransactionId) :
    List (Step Phase) :=
  initiator.link.opening id ++
    ((if entry.requestSize = 0 then []
      else initiator.link.sending .sendingPayload (initiator.table.requestOf entry)) ++
      initiator.link.collecting entry.replySize)

theorem agenda_eq (built : initiator.table.Built)
    (found : initiator.table.descriptor? id = some entry) :
    initiator.agenda entry id =
      initiator.link.agenda id (initiator.table.requestOf entry) entry.replySize := by
  have empty : entry.requestSize = 0 ↔ initiator.table.requestOf entry = [] := by
    rw [← built.length_requestOf found, List.length_eq_zero_iff]
  simp only [agenda, Link.agenda, Link.requesting, empty]

/-- The initiator after a transaction that made these calls and stopped in this phase. -/
def afterCalls (initiator : Initiator Handler) (now : Millis) (entry : Descriptor Handler)
    (exchanges : List SerialExchange) (stop : Option Phase) : Initiator Handler :=
  { initiator with
    connected := answeredBy stop
    lastProbe := some now
    phase := if stop = none then .done else .failed
    stats := initiator.stats.count (initiator.link.verdict stop)
    table := initiator.table.writeReply entry ((deliveries exchanges).drop 1).flatten }

/-- A transaction stopped by the first look makes no call and changes no more than its books. -/
theorem transaction_refused
    (refused : initiator.table.descriptor? id = none ∨ initiator.tooSoon now = true) :
    initiator.transaction now id = .done (.error (initiator.refusal id), { initiator with
      phase := .failed
      stats := initiator.stats.count (.error (initiator.refusal id)) }) := by
  unfold transaction permit refusal
  cases found : initiator.table.descriptor? id with
  | none =>
    rw [Table.resolve_eq_error found, if_pos rfl]
    by_cases beyond : initiator.table.capacity ≤ id.toNat
    · simp only [if_pos beyond]
      rfl
    · simp only [if_neg beyond]
      rfl
  | some entry =>
    have within := Nat.not_le_of_lt (Table.lt_capacity_of_descriptor? found)
    have soon : initiator.tooSoon now = true := refused.resolve_left (by simp [found])
    rw [Table.resolve_eq_ok_iff.mpr found, if_neg within, if_neg (by simp)]
    simp only [soon]
    rfl

/-- Every transcript of a transaction that may go on the wire, whatever its table. -/
theorem transaction_converses {calls : List SerialExchange}
    {result : Except TransactionError Unit} {after : Initiator Handler}
    (found : initiator.table.descriptor? id = some entry) (ready : initiator.tooSoon now = false)
    (h : Program.Leads (initiator.transaction now id) calls (.done (result, after))) :
    ∃ exchanges stop,
      Follows (initiator.link.agenda id (initiator.table.requestOf entry) entry.replySize) exchanges
        stop ∧
      calls = exchanges ++ (if stop = none then [] else [⟨.clear, ()⟩]) ∧
      result = initiator.link.verdict stop ∧
      after = initiator.afterCalls now entry exchanges stop := by
  unfold transaction at h
  rw [permit_eq_ok_iff.mpr ⟨found, ready⟩] at h
  obtain ⟨exchanges, dropping, conversation, rfl, conversed, ended⟩ := Program.Leads.of_bind h
  obtain ⟨stop, follows, rfl⟩ := Link.converse_follows conversed
  refine ⟨exchanges, stop, follows, ?_⟩
  cases stop with
  | none =>
    obtain ⟨rfl, same⟩ := ended.done_inv
    cases same
    exact ⟨rfl, rfl, rfl⟩
  | some phase =>
    -- The error depends on the phase, but in each of them the input is dropped.
    have failed : ∃ error, initiator.link.verdict (some phase) = .error error := by
      cases phase <;> exact ⟨_, rfl⟩
    obtain ⟨error, failed⟩ := failed
    simp only [failed] at ended
    obtain ⟨reply, rest, rfl, after_clear⟩ := ended.ask_inv
    obtain ⟨rfl, same⟩ := after_clear.done_inv
    cases same
    refine ⟨rfl, failed.symm, ?_⟩
    simp only [afterCalls, book, learn, failed]
    rfl

/-- The same on a table that a half has built. -/
theorem transaction_leads {calls : List SerialExchange} {result : Except TransactionError Unit}
    {after : Initiator Handler} (built : initiator.table.Built)
    (found : initiator.table.descriptor? id = some entry) (ready : initiator.tooSoon now = false)
    (h : Program.Leads (initiator.transaction now id) calls (.done (result, after))) :
    ∃ exchanges stop, Follows (initiator.agenda entry id) exchanges stop ∧
      calls = exchanges ++ (if stop = none then [] else [⟨.clear, ()⟩]) ∧
      result = initiator.link.verdict stop ∧
      after = initiator.afterCalls now entry exchanges stop := by
  rw [agenda_eq built found]
  exact transaction_converses found ready h

/-- Against any device, a transaction asks nothing if it is refused, and else makes the calls of its
agenda up to the first that goes wrong, with one drop of the input after that. -/
theorem transaction_calls (answer : SerialAnswer σ) (s : σ) (now : Millis) (id : TransactionId)
    (built : initiator.table.Built) :
    let calls := (initiator.transaction now id).trace answer s
    let outcome := (initiator.transaction now id).run answer s
    (initiator.table.descriptor? id = none ∨ initiator.tooSoon now = true →
      calls = [] ∧ outcome = ((.error (initiator.refusal id), { initiator with
        phase := .failed
        stats := initiator.stats.count (.error (initiator.refusal id)) }), s)) ∧
    ∀ entry, initiator.table.descriptor? id = some entry → initiator.tooSoon now = false →
      ∃ exchanges stop, Follows (initiator.agenda entry id) exchanges stop ∧
        calls = exchanges ++ (if stop = none then [] else [⟨.clear, ()⟩]) ∧
        outcome.1 =
          (initiator.link.verdict stop, initiator.afterCalls now entry exchanges stop) ∧
        (outcome.1.1 = .ok () ↔ stop = none) := by
  intro calls outcome
  constructor
  · intro refused
    have nothing := transaction_refused refused
    exact ⟨congrArg (Program.trace answer · s) nothing, congrArg (Program.run answer · s) nothing⟩
  · intro entry found ready
    have leads := Program.leads_trace answer (initiator.transaction now id) s
    obtain ⟨exchanges, stop, follows, made, result, after⟩ :=
      transaction_leads built found ready leads
    refine ⟨exchanges, stop, follows, made, Prod.ext result after, ?_⟩
    rw [show outcome.1.1 = initiator.link.verdict stop from result]
    exact Link.verdict_eq_ok_iff

/-- A transaction on a line from which nothing ever comes. -/
theorem transaction_calls_single :
    let initiator : Initiator Unit := .ofConfig {} (.single none)
    let silent : SerialAnswer Unit := fun request _ =>
      match request with
      | .write data _ => (some data.length, ())
      | .read _ _ => (⟨[], some 0⟩, ())
      | .skip _ _ => (some 0, ())
      | .clear => ((), ())
    initiator.table.Built ∧ ∃ exchanges stop,
      Follows (initiator.agenda ⟨1, 0, 1, 1, .idle, none⟩ 1) exchanges stop ∧
        (initiator.transaction 0 1).trace silent () =
          exchanges ++ if stop = none then [] else [⟨.clear, ()⟩] := by
  intro initiator silent
  have built : initiator.table.Built := Table.single_built none
  obtain ⟨exchanges, stop, follows, made, _⟩ :=
    (transaction_calls silent () 0 1 built).2 _ rfl rfl
  exact ⟨built, exchanges, stop, follows, made⟩

end Initiator
end SplitKeyboard
