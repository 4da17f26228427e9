import SplitKeyboard.Proofs.Target.Exchange

/-!
The calls of one poll. Whatever the device and the handlers do, a poll that has read a registered ID
goes through token, request, handler and reply, up to the first of them that goes wrong, and each
way to stop settles the result and what is left in the table.
-/
namespace SplitKeyboard

namespace Target

variable {Handler : Type} {link : Link} {table after : Table Handler} {entry : Descriptor Handler}
  {id : TransactionId} {calls : List (Exchange Handler)}

/-- The calls that receive a request: one read, unless it is empty. -/
def receiving (link : Link) (entry : Descriptor Handler) (delivery : Delivery) :
    List (Exchange Handler) :=
  if entry.requestSize = 0 then []
  else [⟨.inl (.read entry.requestSize link.timeout), delivery⟩]

/-- The table with what a read of the request has brought. -/
def received (table : Table Handler) (entry : Descriptor Handler) (delivery : Delivery) :
    Table Handler :=
  if entry.requestSize = 0 then table else table.writeRequest entry delivery.bytes

/-- How the service of an ID that has been read can go, whatever the device and the handler do. -/
inductive Serves (link : Link) (table : Table Handler) (entry : Descriptor Handler)
    (id : TransactionId) :
    List (Exchange Handler) → Except TargetError TargetEvent → Table Handler → Prop
  | no_token {sending : List SerialExchange}
      (cut : Follows (link.sending () [handshakeToken id]) sending (some ())) :
      Serves link table entry id (sending.map Program.Exchange.beside) (.error (.handshake id))
        (table.setStatus id .dataError)
  | no_request {sending : List SerialExchange} {delivery : Delivery}
      (sent : Follows (link.sending () [handshakeToken id]) sending none)
      (some_request : entry.requestSize ≠ 0) (short : delivery.count ≠ some entry.requestSize) :
      Serves link table entry id
        (sending.map Program.Exchange.beside ++ receiving link entry delivery)
        (.error (.receive id)) ((received table entry delivery).setStatus id .dataError)
  | handled {sending replying : List SerialExchange} {delivery : Delivery} {output : List UInt8}
      {stop : Option Unit} (sent : Follows (link.sending () [handshakeToken id]) sending none)
      (full : entry.requestSize ≠ 0 → delivery.count = some entry.requestSize)
      (replied : Follows (if entry.replySize = 0 then [] else link.sending ()
        ((handled (received table entry delivery) entry output).replyOf entry)) replying stop) :
      Serves link table entry id
        (sending.map Program.Exchange.beside ++ (receiving link entry delivery ++
          (handling (received table entry delivery) entry output ++
            replying.map Program.Exchange.beside)))
        (if stop = none then .ok (.served id) else .error (.send id))
        ((handled (received table entry delivery) entry output).setStatus id
          (if stop = none then .accepted else .dataError))

/-- Calls of a program on the link are calls of the link alone. -/
theorem onLink_leads_inv {α : Type} {program : SerialProgram α} {a : α}
    (h : Program.Leads (onLink program : ServingProgram Handler α) calls (.done a)) :
    ∃ own, calls = own.map Program.Exchange.beside ∧ Program.Leads program own (.done a) := by
  obtain ⟨own, left, rfl, ended, leads⟩ := Program.Leads.of_beside h
  cases left with
  | done value =>
    cases ended
    exact ⟨own, rfl, leads⟩
  | ask request next => cases ended

theorem receiveRequest_leads {full : Bool}
    (h : Program.Leads (receiveRequest link table entry) calls (.done (full, after))) :
    ∃ delivery, calls = receiving link entry delivery ∧ after = received table entry delivery ∧
      (full = true ↔ (entry.requestSize ≠ 0 → delivery.count = some entry.requestSize)) := by
  unfold receiveRequest at h
  unfold receiving received
  by_cases empty : entry.requestSize = 0
  · rw [if_pos empty] at h
    obtain ⟨rfl, same⟩ := h.done_inv
    cases same
    exact ⟨⟨[], none⟩, (if_pos empty).symm, (if_pos empty).symm, by simp [empty]⟩
  · rw [if_neg empty] at h
    obtain ⟨reading, none_left, reception, rfl, read, ended⟩ := Program.Leads.of_bind h
    obtain ⟨own, rfl, reads⟩ := onLink_leads_inv read
    obtain ⟨delivery, rfl, bytes, complete⟩ := Link.receive_leads reads
    refine ⟨delivery, ?_⟩
    rw [if_neg empty, if_neg empty, ← bytes]
    cases outcome : reception.result with
    | error error =>
      simp only [outcome] at ended
      obtain ⟨rfl, same⟩ := ended.done_inv
      cases same
      refine ⟨rfl, rfl, by simp, ?_⟩
      intro all
      rw [complete.mpr (all empty)] at outcome
      cases outcome
    | ok done =>
      simp only [outcome] at ended
      obtain ⟨rfl, same⟩ := ended.done_inv
      cases same
      exact ⟨rfl, rfl, fun _ _ => complete.mp outcome, fun _ => rfl⟩

theorem runHandler_leads
    (h : Program.Leads (runHandler table entry) calls (.done after)) :
    ∃ output, calls = handling table entry output ∧ after = handled table entry output := by
  unfold runHandler at h
  unfold handling handled
  cases runs : entry.handler with
  | none =>
    rw [runs] at h
    obtain ⟨rfl, same⟩ := h.done_inv
    cases same
    exact ⟨[], rfl, rfl⟩
  | some handler =>
    rw [runs] at h
    obtain ⟨output, rest, rfl, ended⟩ := h.ask_inv
    obtain ⟨rfl, same⟩ := ended.done_inv
    cases same
    exact ⟨output, rfl, rfl⟩

theorem sendReply_leads {sent : Bool}
    (nothing : table.replyOf entry = [] → entry.replySize = 0)
    (h : Program.Leads (sendReply link table entry) calls (.done sent)) :
    ∃ own stop, calls = own.map Program.Exchange.beside ∧
      Follows (if entry.replySize = 0 then [] else link.sending () (table.replyOf entry)) own stop ∧
      (sent = true ↔ stop = none) := by
  unfold sendReply at h
  by_cases empty : entry.replySize = 0
  · rw [if_pos empty] at h
    obtain ⟨rfl, same⟩ := h.done_inv
    cases same
    rw [if_pos empty]
    exact ⟨[], none, rfl, .finished, by simp⟩
  · rw [if_neg empty] at h ⊢
    obtain ⟨sending, none_left, result, rfl, sends, ended⟩ := Program.Leads.of_bind h
    obtain ⟨own, rfl, leads⟩ := onLink_leads_inv sends
    have follows := Link.send_follows () (empty ∘ nothing) leads
    cases result with
    | error error =>
      obtain ⟨rfl, same⟩ := ended.done_inv
      cases same
      exact ⟨own, some (), List.append_nil _, follows, by simp⟩
    | ok done =>
      obtain ⟨rfl, same⟩ := ended.done_inv
      cases same
      exact ⟨own, none, List.append_nil _, follows, by simp⟩

theorem received_built {delivery : Delivery} (built : table.Built)
    (found : table.descriptor? id = some entry) : (received table entry delivery).Built := by
  unfold received
  split
  · exact built
  · exact .writeRequest _ built found

theorem descriptor?_received {delivery : Delivery} (other : TransactionId) :
    (received table entry delivery).descriptor? other = table.descriptor? other := by
  unfold received
  split <;> rfl

theorem serve_leads {result : Except TargetError TargetEvent} (built : table.Built)
    (found : table.descriptor? id = some entry)
    (h : Program.Leads (serve link table entry id) calls (.done (result, after))) :
    Serves link table entry id calls result after := by
  obtain ⟨tokens, later, greeted, rfl, sends, rest⟩ := Program.Leads.of_bind h
  obtain ⟨sending, rfl, leads⟩ := onLink_leads_inv sends
  have follows := Link.send_follows () (List.cons_ne_nil _ _) leads
  cases greeted with
  | error error =>
    obtain ⟨rfl, same⟩ := rest.done_inv
    cases same
    rw [List.append_nil]
    exact .no_token follows
  | ok done =>
    obtain ⟨reads, later, ⟨full, asked⟩, rfl, receives, rest⟩ := Program.Leads.of_bind rest
    obtain ⟨delivery, rfl, rfl, complete⟩ := receiveRequest_leads receives
    cases full with
    | false =>
      obtain ⟨rfl, same⟩ := rest.done_inv
      cases same
      have short : ¬ (entry.requestSize ≠ 0 → delivery.count = some entry.requestSize) := by
        rw [← complete]
        decide
      have some_request : entry.requestSize ≠ 0 := fun empty => short (absurd empty)
      rw [List.append_nil]
      exact .no_request follows some_request fun all => short fun _ => all
    | true =>
      obtain ⟨handles, later, answered, rfl, runs, rest⟩ := Program.Leads.of_bind rest
      obtain ⟨output, rfl, rfl⟩ := runHandler_leads runs
      obtain ⟨replies, none_left, sent, rfl, replying, ended⟩ := Program.Leads.of_bind rest
      have answered_built : (handled (received table entry delivery) entry output).Built :=
        built_handled (received_built built found) ((descriptor?_received id).trans found)
      have nothing : (handled (received table entry delivery) entry output).replyOf entry = [] →
          entry.replySize = 0 := by
        intro empty
        rw [← answered_built.length_replyOf
          ((descriptor?_handled id).trans ((descriptor?_received id).trans found)), empty]
        rfl
      obtain ⟨own, stop, rfl, replied, whole⟩ := sendReply_leads nothing replying
      have finished := Serves.handled follows (complete.mp rfl) replied
      cases sent with
      | false =>
        obtain ⟨rfl, same⟩ := ended.done_inv
        cases same
        have stopped : stop ≠ none := fun none_stopped => absurd (whole.mpr none_stopped) (by decide)
        rw [if_neg stopped, if_neg stopped] at finished
        rw [List.append_nil]
        exact finished
      | true =>
        obtain ⟨rfl, same⟩ := ended.done_inv
        cases same
        rw [if_pos (whole.mp rfl), if_pos (whole.mp rfl)] at finished
        rw [List.append_nil]
        exact finished

/-- How a poll can go, but for the drop of the input after a failure. The ID is the byte that was
read. -/
inductive Polls (target : Target Handler) :
    List (Exchange Handler) → Except TargetError TargetEvent → Table Handler → Prop
  | fault {delivery : Delivery} (fault : delivery.count = none) :
      Polls target [⟨.inl (.read 1 target.idleTimeout), delivery⟩] (.error .fault) target.table
  | idle {delivery : Delivery} {count : Nat} (few : delivery.count = some count)
      (none_came : count ≠ 1) :
      Polls target [⟨.inl (.read 1 target.idleTimeout), delivery⟩] (.ok .idle) target.table
  | refused {delivery : Delivery} (came : delivery.count = some 1)
      (unknown : target.table.descriptor? (delivery.bytes.headD 0) = none) :
      Polls target [⟨.inl (.read 1 target.idleTimeout), delivery⟩]
        (.error (if target.table.capacity ≤ (delivery.bytes.headD 0).toNat then
          .desync (delivery.bytes.headD 0) else .unregistered (delivery.bytes.headD 0)))
        target.table
  | serves {delivery : Delivery} {entry calls result after} (came : delivery.count = some 1)
      (found : target.table.descriptor? (delivery.bytes.headD 0) = some entry)
      (serves : Serves target.link target.table entry (delivery.bytes.headD 0) calls result after) :
      Polls target (⟨.inl (.read 1 target.idleTimeout), delivery⟩ :: calls) result after

variable {target : Target Handler}

theorem react_leads {result : Except TargetError TargetEvent} (built : target.table.Built)
    (h : Program.Leads target.react calls (.done (result, after))) :
    Polls target calls result after := by
  obtain ⟨waiting, later, token, rfl, waits, rest⟩ := Program.Leads.of_bind h
  obtain ⟨own, rfl, leads⟩ := onLink_leads_inv waits
  unfold Link.receiveToken at leads
  obtain ⟨delivery, none_left, rfl, ended⟩ := leads.ask_inv
  obtain ⟨rfl, same⟩ := ended.done_inv
  cases count : delivery.count with
  | none =>
    simp only [count] at same
    cases same
    obtain ⟨rfl, same⟩ := rest.done_inv
    cases same
    exact .fault count
  | some got =>
    simp only [count] at same
    by_cases came : got = 1
    · rw [if_pos came] at same
      cases same
      simp only at rest
      rw [came] at count
      cases found : target.table.descriptor? (delivery.bytes.headD 0) with
      | some entry =>
        simp only [Table.resolve_eq_ok_iff.mpr found] at rest
        exact .serves count found (serve_leads built found rest)
      | none =>
        have refused := Polls.refused count found
        simp only [Table.resolve_eq_error found] at rest
        by_cases beyond : target.table.capacity ≤ (delivery.bytes.headD 0).toNat
        · simp only [if_pos beyond] at rest refused
          obtain ⟨rfl, same⟩ := rest.done_inv
          cases same
          exact refused
        · simp only [if_neg beyond] at rest refused
          obtain ⟨rfl, same⟩ := rest.done_inv
          cases same
          exact refused
    · rw [if_neg came] at same
      cases same
      obtain ⟨rfl, same⟩ := rest.done_inv
      cases same
      exact .idle count came

/-- Every transcript of a poll: what it can do, and a drop of the input if it has failed. -/
theorem poll_leads {result : Except TargetError TargetEvent} {end_target : Target Handler}
    (built : target.table.Built)
    (h : Program.Leads target.poll calls (.done (result, end_target))) :
    ∃ polled after, Polls target polled result after ∧ end_target = { target with table := after } ∧
      calls = polled ++ match result with
        | .ok _ => []
        | .error _ => [⟨.inl .clear, ()⟩] := by
  obtain ⟨polled, dropping, ⟨outcome, after⟩, rfl, reacts, rest⟩ := Program.Leads.of_bind h
  have polls := react_leads built reacts
  refine ⟨polled, after, ?_⟩
  cases outcome with
  | ok event =>
    obtain ⟨rfl, same⟩ := rest.done_inv
    cases same
    exact ⟨polls, rfl, rfl⟩
  | error error =>
    obtain ⟨drops, none_left, _, rfl, clears, ended⟩ := Program.Leads.of_bind rest
    obtain ⟨own, rfl, leads⟩ := onLink_leads_inv clears
    obtain ⟨_, rest, rfl, finished⟩ := Program.Leads.ask_inv leads
    obtain ⟨rfl, _⟩ := finished.done_inv
    obtain ⟨rfl, same⟩ := ended.done_inv
    cases same
    exact ⟨polls, rfl, rfl⟩

section Fits

variable {sizes : TransactionId → Option (Nat × Nat)}

theorem fits_handled {output : List UInt8} (fits : table.Fits sizes)
    (found : table.descriptor? id = some entry) : (handled table entry output).Fits sizes := by
  unfold handled
  cases entry.handler with
  | none => exact fits
  | some handler => exact fits.writeReply found output

theorem fits_received {delivery : Delivery} (fits : table.Fits sizes)
    (found : table.descriptor? id = some entry) : (received table entry delivery).Fits sizes := by
  unfold received
  split
  · exact fits
  · exact fits.writeRequest found _

/-- No poll changes what its table is laid out for. -/
theorem Polls.fits {result : Except TargetError TargetEvent}
    (polls : Polls target calls result after) (fits : target.table.Fits sizes) :
    after.Fits sizes := by
  cases polls with
  | fault | idle | refused => exact fits
  | serves came found serves =>
    cases serves with
    | no_token => exact fits.setStatus _ _
    | no_request => exact (fits_received fits found).setStatus _ _
    | handled =>
      exact (fits_handled (fits_received fits found)
        ((descriptor?_received _).trans found)).setStatus _ _

end Fits

theorem Polls.handler?_eq {result : Except TargetError TargetEvent}
    (polls : Polls target calls result after) (other : TransactionId) :
    after.handler? other = target.table.handler? other := by
  have asked (delivery : Delivery) (entry : Descriptor Handler) :
      (received target.table entry delivery).handler? other = target.table.handler? other :=
    congrArg (Option.bind · Descriptor.handler) (descriptor?_received other)
  have answered (table : Table Handler) (entry : Descriptor Handler) (output : List UInt8) :
      (handled table entry output).handler? other = table.handler? other :=
    congrArg (Option.bind · Descriptor.handler) (descriptor?_handled other)
  cases polls with
  | fault | idle | refused => rfl
  | serves came found serves =>
    cases serves with
    | no_token => exact Table.handler?_setStatus _ _ _ _
    | no_request => exact (Table.handler?_setStatus _ _ _ _).trans (asked _ _)
    | handled =>
      exact (Table.handler?_setStatus _ _ _ _).trans ((answered _ _ _).trans (asked _ _))

end Target
end SplitKeyboard
