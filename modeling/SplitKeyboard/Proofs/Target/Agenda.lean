import SplitKeyboard.Proofs.Rounds
import SplitKeyboard.Proofs.Target.Calls

/-!
One poll in any surroundings. For an ID with an entry there is one list of duties: token, request,
handler and reply. Whatever the device and the handler answer, a poll does its duties up to the first
call that goes wrong, and where it stopped settles the result, whether the handler has run, and the
status that it leaves.
-/
namespace SplitKeyboard

namespace Target

variable {Handler σ : Type}

/-- The parts of a service that can fail. -/
inductive Stage where
  | handshake
  | receive
  | send
  deriving DecidableEq

/-- One thing to do for an ID: a call on the device, or a run of the handler that writes `output`. -/
inductive Duty (Handler : Type) where
  | device (stage : Stage) (step : Step Unit)
  | handler (call : HandlerCall Handler) (output : List UInt8)

/-- The duties are done one after the other, up to and with the first call on the device whose reply
does not let the service go on. The stage is that of this call, and there is none if all went well. -/
inductive Performs : List (Duty Handler) → List (Exchange Handler) → Option Stage → Prop
  | finished : Performs [] [] none
  | cut {stage step rest reply} (refused : ¬ step.meets reply) :
      Performs (.device stage step :: rest) [⟨.inl step.request, reply⟩] (some stage)
  | goes {stage step rest reply calls stop} (met : step.meets reply)
      (left : Performs rest calls stop) :
      Performs (.device stage step :: rest) (⟨.inl step.request, reply⟩ :: calls) stop
  | runs {call output rest calls stop} (left : Performs rest calls stop) :
      Performs (.handler call output :: rest) (⟨.inr call, output⟩ :: calls) stop

section Performs

variable {first last : List (Duty Handler)} {begun ended : List (Exchange Handler)}
  {stop : Option Stage}

theorem Performs.append (all : Performs first begun none) (more : Performs last ended stop) :
    Performs (first ++ last) (begun ++ ended) stop := by
  generalize noStop : (none : Option Stage) = outcome at all
  induction all with
  | finished => exact more
  | cut refused => cases noStop
  | goes met _ ih => exact .goes met (ih noStop)
  | runs _ ih => exact .runs (ih noStop)

theorem Performs.append_cut {stage : Stage} (failed : Performs first begun (some stage)) :
    Performs (first ++ last) begun (some stage) := by
  generalize stopped : some stage = outcome at failed ⊢
  induction failed with
  | finished => cases stopped
  | cut refused => exact .cut refused
  | goes met _ ih => exact .goes met (ih stopped)
  | runs _ ih => exact .runs (ih stopped)

def Duty.request : Duty Handler → SerialRequest ⊕ HandlerCall Handler
  | device _ step => .inl step.request
  | handler call _ => .inr call

/-- Nothing is done that is no duty. -/
theorem Performs.mem (performs : Performs first begun stop) :
    ∀ exchange ∈ begun, ∃ duty ∈ first, duty.request = exchange.1 := by
  induction performs with
  | finished => exact fun _ none_made => absurd none_made List.not_mem_nil
  | cut refused =>
    intro exchange made
    cases List.mem_singleton.mp made
    exact ⟨_, List.mem_cons_self .., rfl⟩
  | goes met _ ih | runs _ ih =>
    intro exchange made
    rcases List.mem_cons.mp made with rfl | later
    · exact ⟨_, List.mem_cons_self .., rfl⟩
    · obtain ⟨duty, member, same⟩ := ih exchange later
      exact ⟨duty, List.mem_cons_of_mem _ member, same⟩

end Performs

/-- Calls on the device that follow an agenda are duties of one stage. -/
theorem performs_device {steps : List (Step Unit)} {exchanges : List SerialExchange}
    {stop : Option Unit} (stage : Stage) (follows : Follows steps exchanges stop) :
    Performs (steps.map (.device stage) : List (Duty Handler))
      (exchanges.map Program.Exchange.beside) (stop.map fun _ => stage) := by
  induction follows with
  | finished => exact .finished
  | cut refused => exact .cut refused
  | goes met _ ih => exact .goes met ih

variable {target : Target Handler} {link : Link} {table after : Table Handler}
  {entry : Descriptor Handler} {id : TransactionId} {later : List (Exchange Handler)}
  {result : Except TargetError TargetEvent} {request output : List UInt8}

/-- The bytes that a call has brought. -/
def arrived : Exchange Handler → List UInt8
  | ⟨.inl (.read _ _), delivery⟩ => delivery.bytes
  | _ => []

def receiveDuties (link : Link) (entry : Descriptor Handler) : List (Duty Handler) :=
  if entry.requestSize = 0 then []
  else [.device .receive (.read () entry.requestSize link.timeout fun _ => True)]

def handlerDuties (table : Table Handler) (entry : Descriptor Handler) (output : List UInt8) :
    List (Duty Handler) :=
  entry.handler.toList.map fun handler =>
    .handler ⟨handler, table.requestOf entry, table.replyOf entry⟩ output

/-- What is to be done for an ID that has been read, when `request` is all that comes for it and the
handler writes `output`. -/
def duties (link : Link) (table : Table Handler) (entry : Descriptor Handler) (id : TransactionId)
    (request output : List UInt8) : List (Duty Handler) :=
  let asked := table.writeRequest entry request
  let reply := (handled asked entry output).replyOf entry
  (link.sending () [handshakeToken id]).map (.device .handshake) ++
    (receiveDuties link entry ++ (handlerDuties asked entry output ++
      (if entry.replySize = 0 then [] else link.sending () reply).map (.device .send)))

def Stage.error (id : TransactionId) : Stage → TargetError
  | handshake => .handshake id
  | receive => .receive id
  | send => .send id

/-- How a service of `id` ends that stopped in this stage. -/
def verdict (id : TransactionId) : Option Stage → Except TargetError TargetEvent
  | none => .ok (.served id)
  | some stage => .error (stage.error id)

/-- Whether a service that stopped in this stage had come as far as the handler. -/
def handledBy (stop : Option Stage) : Bool := stop ≠ some .handshake && stop ≠ some .receive

/-- What is then in the table. The status is written once, whatever happens. -/
def leaves (table : Table Handler) (entry : Descriptor Handler) (id : TransactionId)
    (request output : List UInt8) (stop : Option Stage) : Table Handler :=
  let asked := table.writeRequest entry request
  (if handledBy stop then handled asked entry output else asked).setStatus id
    (if stop = none then .accepted else .dataError)

theorem verdict_eq_ok_iff {stop : Option Stage} :
    verdict id stop = .ok (.served id) ↔ stop = none := by
  cases stop with
  | none => simp [verdict]
  | some stage => simp [verdict]

theorem writeRequest_nil (table : Table Handler) (entry : Descriptor Handler) :
    table.writeRequest entry [] = table := by
  simp [Table.writeRequest, splice, overlay]

section Arrived

variable {sending : List SerialExchange} {delivery : Delivery} {stop : Option Unit}
  {data : List UInt8}

theorem arrived_sending (follows : Follows (link.sending () data) sending stop) :
    (sending.map Program.Exchange.beside : List (Exchange Handler)).flatMap arrived = [] := by
  obtain ⟨written, rest, rfl, rfl | ⟨dropped, rfl⟩⟩ := Link.sending_inv follows
  · rfl
  · rfl

theorem arrived_handling :
    (handling table entry output).flatMap arrived = [] := by
  unfold handling
  cases entry.handler with
  | none => rfl
  | some handler => rfl

theorem writeRequest_arrived (link : Link) (table : Table Handler) (entry : Descriptor Handler)
    (delivery : Delivery) :
    table.writeRequest entry ((receiving link entry delivery).flatMap arrived) =
      received table entry delivery := by
  unfold receiving received
  split
  · exact writeRequest_nil table entry
  · rw [List.flatMap_singleton]
    rfl

end Arrived

section Duties

variable {delivery : Delivery}

theorem performs_receiving (full : entry.requestSize ≠ 0 → delivery.count = some entry.requestSize) :
    Performs (receiveDuties link entry : List (Duty Handler)) (receiving link entry delivery)
      none := by
  unfold receiveDuties receiving
  by_cases empty : entry.requestSize = 0
  · rw [if_pos empty, if_pos empty]
    exact .finished
  · rw [if_neg empty, if_neg empty]
    exact .goes ⟨full empty, trivial⟩ .finished

theorem performs_receiving_cut (some_request : entry.requestSize ≠ 0)
    (short : delivery.count ≠ some entry.requestSize) :
    Performs (receiveDuties link entry : List (Duty Handler)) (receiving link entry delivery)
      (some .receive) := by
  unfold receiveDuties receiving
  rw [if_neg some_request, if_neg some_request]
  exact .cut fun met => short met.1

theorem performs_handling :
    Performs (handlerDuties table entry output) (handling table entry output) none := by
  unfold handlerDuties handling
  cases entry.handler with
  | none => exact .finished
  | some handler => exact .runs .finished

end Duties

section HandlerCalls

theorem handlerCall?_receiving (link : Link) (entry : Descriptor Handler) (delivery : Delivery) :
    (receiving link entry delivery).filterMap handlerCall? = [] := by
  unfold receiving
  split
  · rfl
  · rfl

theorem handlerCall?_handling (table : Table Handler) (entry : Descriptor Handler)
    (output : List UInt8) :
    (handling table entry output).filterMap handlerCall? =
      entry.handler.toList.map fun handler =>
        ⟨handler, table.requestOf entry, table.replyOf entry⟩ := by
  unfold handling
  cases entry.handler with
  | none => rfl
  | some handler => rfl

end HandlerCalls

/-- What a poll shows that has read a registered ID, when it stops in this stage. -/
structure Attends (target : Target Handler) (entry : Descriptor Handler) (id : TransactionId)
    (later : List (Exchange Handler)) (result : Except TargetError TargetEvent)
    (after : Target Handler) (output : List UInt8) (stop : Option Stage) : Prop where
  calls : Performs (duties target.link target.table entry id (later.flatMap arrived) output) later
    stop
  ends : result = verdict id stop
  complete : result = .ok (.served id) ↔ stop = none
  /-- The handler runs once, on the two buffers, if the service comes as far. -/
  handled : later.filterMap handlerCall? =
    if handledBy stop then entry.handler.toList.map fun handler =>
      ⟨handler, (target.table.writeRequest entry (later.flatMap arrived)).requestOf entry,
        target.table.replyOf entry⟩
    else []
  keeps : after =
    { target with table := leaves target.table entry id (later.flatMap arrived) output stop }
  status : after.table.status? id = some (if stop = none then .accepted else .dataError)
  others : ∀ other, other ≠ id → after.table.status? other = target.table.status? other

theorem status?_leaves (stop : Option Stage) (found : table.descriptor? id = some entry) :
    (leaves table entry id request output stop).status? id =
        some (if stop = none then .accepted else .dataError) ∧
      ∀ other, other ≠ id →
        (leaves table entry id request output stop).status? other = table.status? other := by
  have kept (other : TransactionId) : (if handledBy stop then
      handled (table.writeRequest entry request) entry output
      else table.writeRequest entry request).descriptor? other = table.descriptor? other := by
    split
    · exact descriptor?_handled other
    · rfl
  constructor
  · rw [leaves, Table.status?, Table.descriptor?_setStatus, if_pos rfl, kept, found]
    rfl
  · intro other apart
    rw [leaves, Table.status?, Table.descriptor?_setStatus, if_neg apart, kept]
    rfl

/-- A service does its duties in order, and how it goes depends only on where it stops. -/
theorem Serves.performs (serves : Serves link table entry id later result after) :
    ∃ output stop,
      Performs (duties link table entry id (later.flatMap arrived) output) later stop ∧
      result = verdict id stop ∧
      later.filterMap handlerCall? = (if handledBy stop then
        entry.handler.toList.map fun handler =>
          ⟨handler, (table.writeRequest entry (later.flatMap arrived)).requestOf entry,
            table.replyOf entry⟩
        else []) ∧
      after = leaves table entry id (later.flatMap arrived) output stop := by
  cases serves with
  | no_token cut =>
    refine ⟨[], some .handshake, (performs_device .handshake cut).append_cut, rfl,
      handlerCall?_beside _, ?_⟩
    rw [arrived_sending cut, leaves, writeRequest_nil]
    rfl
  | @no_request sending delivery sent some_request short =>
    have came : ((sending.map Program.Exchange.beside ++
        receiving link entry delivery : List (Exchange Handler))).flatMap arrived =
          (receiving link entry delivery).flatMap arrived := by
      rw [List.flatMap_append, arrived_sending sent, List.nil_append]
    refine ⟨[], some .receive, ?_, rfl, ?_, ?_⟩
    · exact (performs_device .handshake sent).append
        (performs_receiving_cut some_request short).append_cut
    · rw [List.filterMap_append, handlerCall?_beside, handlerCall?_receiving]
      rfl
    · rw [came, leaves, writeRequest_arrived]
      rfl
  | @handled sending replying delivery output stop sent full replied =>
    have reply_silent : (replying.map Program.Exchange.beside :
        List (Exchange Handler)).flatMap arrived = [] := by
      split at replied
      · cases replied
        rfl
      · exact arrived_sending replied
    have came : ((sending.map Program.Exchange.beside ++ (receiving link entry delivery ++
        (handling (received table entry delivery) entry output ++
          replying.map Program.Exchange.beside)) : List (Exchange Handler))).flatMap arrived =
          (receiving link entry delivery).flatMap arrived := by
      simp only [List.flatMap_append, arrived_sending sent, arrived_handling, reply_silent,
        List.nil_append, List.append_nil]
    have reached : handledBy (stop.map fun _ => Stage.send) = true := by cases stop <;> rfl
    refine ⟨output, stop.map fun _ => .send, ?_, ?_, ?_, ?_⟩
    · rw [came, duties, writeRequest_arrived]
      exact (performs_device .handshake sent).append
        ((performs_receiving full).append (performs_handling.append (performs_device .send replied)))
    · cases stop <;> rfl
    · have kept : (received table entry delivery).replyOf entry = table.replyOf entry := by
        rw [← writeRequest_arrived link, Table.replyOf_writeRequest]
      rw [came, writeRequest_arrived, reached, if_pos rfl, ← kept]
      simp only [List.filterMap_append, handlerCall?_beside, handlerCall?_receiving,
        handlerCall?_handling, List.nil_append, List.append_nil]
    · rw [came, leaves, writeRequest_arrived, reached, if_pos rfl]
      cases stop <;> rfl

/-- No duty drops the input. -/
theorem clear_not_mem_duties :
    ∀ duty ∈ duties link table entry id request output, duty.request ≠ .inl .clear := by
  have no_clear (stage : Stage) (data : List UInt8) : ∀ duty ∈ ((link.sending () data).map
      (.device stage) : List (Duty Handler)), duty.request ≠ .inl .clear := by
    intro duty member
    obtain ⟨step, sends, rfl⟩ := List.mem_map.mp member
    unfold Link.sending at sends
    rcases List.mem_cons.mp sends with rfl | drops
    · simp [Duty.request, Step.write]
    · split at drops
      · cases List.mem_singleton.mp drops
        simp [Duty.request, Step.skip]
      · cases drops
  intro duty member
  rcases List.mem_append.mp member with token | member
  · exact no_clear _ _ duty token
  rcases List.mem_append.mp member with receives | member
  · unfold receiveDuties at receives
    split at receives
    · cases receives
    · cases List.mem_singleton.mp receives
      simp [Duty.request, Step.read]
  rcases List.mem_append.mp member with handles | replies
  · obtain ⟨handler, _, rfl⟩ := List.mem_map.mp handles
    simp [Duty.request]
  · split at replies
    · cases replies
    · exact no_clear _ _ duty replies

/-- What is done after a poll: the input is dropped if it has failed. -/
def clearing : Except TargetError TargetEvent → List (Exchange Handler)
  | .ok _ => []
  | .error _ => [⟨.inl .clear, ()⟩]

theorem not_mem_clearing {exchange : Exchange Handler} (other : exchange.1 ≠ .inl .clear)
    (result : Except TargetError TargetEvent) : exchange ∉ clearing result := by
  cases result with
  | ok event => exact List.not_mem_nil
  | error error =>
    intro member
    exact other (congrArg Sigma.fst (List.mem_singleton.mp member))

/-- What a poll shows whose wait for an ID had this outcome, and which then made these calls. -/
structure Orderly (target : Target Handler) (delivery : Delivery) (later : List (Exchange Handler))
    (result : Except TargetError TargetEvent) (after : Target Handler) : Prop where
  fault : delivery.count = none → later = [] ∧ result = .error .fault ∧ after = target
  idle_iff : result = .ok .idle ↔ ∃ count, delivery.count = some count ∧ count ≠ 1
  idle : result = .ok .idle → later = [] ∧ after = target
  unknown : delivery.count = some 1 → target.table.descriptor? (delivery.bytes.headD 0) = none →
    later = [] ∧ after = target ∧
      result = .error (if target.table.capacity ≤ (delivery.bytes.headD 0).toNat then
        .desync (delivery.bytes.headD 0) else .unregistered (delivery.bytes.headD 0))
  attends : ∀ entry, delivery.count = some 1 →
    target.table.descriptor? (delivery.bytes.headD 0) = some entry →
      ∃ output stop, Attends target entry (delivery.bytes.headD 0) later result after output stop
  undropped : ∀ exchange ∈ later, exchange.1 ≠ .inl .clear

theorem Polls.orderly {calls : List (Exchange Handler)} (polls : Polls target calls result after) :
    ∃ delivery later, calls = ⟨.inl (.read 1 target.idleTimeout), delivery⟩ :: later ∧
      Orderly target delivery later result { target with table := after } := by
  have nothing : ∀ exchange ∈ ([] : List (Exchange Handler)), exchange.1 ≠ .inl .clear :=
    fun _ none_made => absurd none_made List.not_mem_nil
  cases polls with
  | @fault delivery fault =>
    refine ⟨delivery, [], rfl, ⟨fun _ => ⟨rfl, rfl, rfl⟩, ?_, ?_, ?_, ?_, nothing⟩⟩
    · simp [fault]
    · simp
    · simp [fault]
    · simp [fault]
  | @idle delivery count few none_came =>
    refine ⟨delivery, [], rfl, ⟨?_, ?_, fun _ => ⟨rfl, rfl⟩, ?_, ?_, nothing⟩⟩
    · simp [few]
    · simp [few, none_came]
    · simp [few, none_came]
    · simp [few, none_came]
  | @refused delivery came unknown =>
    refine ⟨delivery, [], rfl, ⟨?_, ?_, ?_, fun _ _ => ⟨rfl, rfl, rfl⟩, ?_, nothing⟩⟩
    · simp [came]
    · simp [came]
    · simp
    · intro entry _ found
      rw [unknown] at found
      cases found
  | @serves delivery entry calls result after came found serves =>
    obtain ⟨output, stop, performs, ends, handled, keeps⟩ := serves.performs
    have busy : result ≠ .ok .idle := by
      rw [ends]
      cases stop <;> simp [verdict]
    have attends : Attends target entry (delivery.bytes.headD 0) calls result
        { target with table := after } output stop := by
      obtain ⟨status, others⟩ := status?_leaves stop found
      exact ⟨performs, ends, ends ▸ verdict_eq_ok_iff, handled, by rw [keeps], keeps ▸ status,
        keeps ▸ others⟩
    refine ⟨delivery, calls, rfl, ⟨?_, ?_, ?_, ?_, ?_, ?_⟩⟩
    · simp [came]
    · simp [came, busy]
    · simp [busy]
    · intro _ unknown
      rw [found] at unknown
      cases unknown
    · intro other _ found_other
      cases found.symm.trans found_other
      exact ⟨output, stop, attends⟩
    · intro exchange made
      obtain ⟨duty, member, same⟩ := performs.mem exchange made
      rw [← same]
      exact clear_not_mem_duties duty member

/-- Every transcript of a poll. -/
theorem poll_orderly {calls : List (Exchange Handler)} {after : Target Handler}
    (built : target.table.Built)
    (h : Program.Leads target.poll calls (.done (result, after))) :
    ∃ delivery later, calls =
        ⟨.inl (.read 1 target.idleTimeout), delivery⟩ :: (later ++ clearing result) ∧
      Orderly target delivery later result after := by
  obtain ⟨polled, table, polls, rfl, made⟩ := poll_leads built h
  obtain ⟨delivery, later, rfl, orderly⟩ := polls.orderly
  refine ⟨delivery, later, made.trans ?_, orderly⟩
  cases result <;> rfl

/-- A poll that makes any call but the wait and the drop has read an ID with an entry. -/
theorem Orderly.registered {delivery : Delivery} {after : Target Handler}
    (orderly : Orderly target delivery later result after) (busy : later ≠ []) :
    delivery.count = some 1 ∧ (target.table.descriptor? (delivery.bytes.headD 0)).isSome := by
  have came : delivery.count = some 1 := by
    cases count : delivery.count with
    | none => exact absurd (orderly.fault count).1 busy
    | some got =>
      by_contra other
      have silent := orderly.idle_iff.mpr ⟨got, count, fun one => other (congrArg some one)⟩
      exact busy (orderly.idle silent).1
  refine ⟨came, ?_⟩
  cases found : target.table.descriptor? (delivery.bytes.headD 0) with
  | none => exact absurd (orderly.unknown came found).1 busy
  | some entry => rfl

/-- In any surroundings, a poll waits for an ID. Without one, or with one that has no entry, it makes
no further call, and for an ID with an entry it does its duties up to the first that goes wrong. So
nothing is written unless an ID with an entry has come. The input is dropped once, at the end, if the
result is an error. -/
theorem poll_calls (answer : (request : SerialRequest ⊕ HandlerCall Handler) → σ →
      Program.EitherReply SerialRequest.Reply HandlerCall.Reply request × σ) (s : σ)
    (built : target.table.Built) :
    let calls := target.poll.trace answer s
    let outcome := (target.poll.run answer s).1
    ∃ delivery later,
      calls = ⟨.inl (.read 1 target.idleTimeout), delivery⟩ :: (later ++ clearing outcome.1) ∧
      Orderly target delivery later outcome.1 outcome.2 ∧
      ∀ data timeout written, ⟨.inl (.write data timeout), written⟩ ∈ calls →
        delivery.count = some 1 ∧ (target.table.descriptor? (delivery.bytes.headD 0)).isSome := by
  intro calls outcome
  obtain ⟨delivery, later, made, orderly⟩ :=
    poll_orderly built (Program.leads_trace answer target.poll s)
  refine ⟨delivery, later, made, orderly, ?_⟩
  intro data timeout written wrote
  apply orderly.registered
  rintro rfl
  rw [show calls = _ from made, List.nil_append] at wrote
  rcases List.mem_cons.mp wrote with waited | cleared
  · cases waited
  · exact not_mem_clearing (by simp) _ cleared

/-- A poll on a shared wire that swallows the token. -/
theorem poll_calls_single :
    let target : Target Unit := .ofConfig {} (.single (some ()))
    let answer : (request : SerialRequest ⊕ HandlerCall Unit) → Unit →
        Program.EitherReply SerialRequest.Reply HandlerCall.Reply request × Unit
      | .inl (.write data _), _ => (some data.length, ())
      | .inl (.read count _), _ => (⟨List.replicate count 1, some count⟩, ())
      | .inl (.skip _ _), _ => (some 0, ())
      | .inl .clear, _ => ((), ())
      | .inr call, _ => (call.output, ())
    target.table.Built ∧ ∃ delivery later,
      target.poll.trace answer () =
        ⟨.inl (.read 1 target.idleTimeout), delivery⟩ :: (later ++ [⟨.inl .clear, ()⟩]) ∧
      Orderly target delivery later (.error (.handshake 1)) (target.poll.run answer ()).1.2 := by
  intro target answer
  have built : target.table.Built := Table.single_built _
  obtain ⟨delivery, later, made, orderly, _⟩ := poll_calls answer () built
  have failed : (target.poll.run answer ()).1.1 = .error (.handshake 1) := rfl
  rw [failed] at made orderly
  exact ⟨built, delivery, later, made, orderly⟩

end Target
end SplitKeyboard
