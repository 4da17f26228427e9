import SplitKeyboard.Proofs.Firmware.Mirroring
import SplitKeyboard.Proofs.Initiator.Throttle

/-!
Housekeeping together with the initiator that carries out its calls. A log shows each call with what
went over the line and with the initiator before and after it. The port, the clock and the values of
the half may be anything at all.
-/
namespace SplitKeyboard.Firmware

/-- A call of housekeeping as it was carried out. -/
structure CallRecord where
  call : LinkCall
  now : Millis
  before : Initiator Service
  exchanges : List SerialExchange
  reply : CallReply
  after : Initiator Service

/-- What a round does, one thing after the other. -/
inductive Act where
  | asked (request : BoardRequest) (reply : request.Reply)
  | called (record : CallRecord)

/-- What housekeeping sees of it. -/
def Act.exchange : Act → HousekeepingExchange
  | asked request reply => ⟨.inr request, reply⟩
  | called record => ⟨.inl record.call, record.reply⟩

/-- One round of a run, with the keeper and the initiator before and after it. -/
structure Pass where
  before : Housekeeping
  entering : Initiator Service
  acts : List Act
  after : Housekeeping
  leaving : Initiator Service

def Pass.round (pass : Pass) : Round := ⟨pass.before, pass.acts.map Act.exchange, pass.after⟩

/-- The order that the initiator is given for a call. -/
def LinkCall.order : LinkCall → Order
  | probe => .transaction probeId
  | pushSpeed speed => .sendData speedId [speed]
  | pushState state => .sendValue stateId (Payload.schema SharedState) (Payload.toValue state)
  | readHeartbeat => .exchange heartbeatId [] [0, 0, 0, 0]

namespace CallRecord

/-- The initiator carries out the call as the record says. -/
abbrev Performed (record : CallRecord) : Prop :=
  Program.Leads (record.call.perform record.now record.before) record.exchanges
    (.done (record.reply, record.after))

/-- The call attempted a handshake that failed: when the ID was written, when its echo was dropped,
or when the token was read. -/
def HandshakeFails (record : CallRecord) : Prop :=
  ∃ opened rest phase, record.exchanges = opened ++ rest ∧
    Follows (record.before.link.opening record.call.order.id) opened (some phase)

end CallRecord

section Log

variable {σ α : Type} (answer : (request : SerialRequest ⊕ BoardRequest) → σ →
  Program.EitherReply SerialRequest.Reply BoardRequest.Reply request × σ)

/-- The answers of the port. -/
def onPort : SerialAnswer σ := fun request s => answer (.inl request) s

/-- Answers a request of housekeeping: a call by the initiator, at the time at which it starts. -/
def attend : (request : LinkCall ⊕ BoardRequest) → Initiator Service × σ →
    Program.EitherReply LinkCall.Reply BoardRequest.Reply request × (Initiator Service × σ)
  | .inl call, (initiator, s) =>
    let (now, s) := answer (.inr .clock) s
    let ((reply, after), s) := (call.perform now initiator).run (onPort answer) s
    (reply, after, s)
  | .inr request, (initiator, s) =>
    let (reply, s) := answer (.inr request) s
    (reply, initiator, s)

def record (call : LinkCall) (initiator : Initiator Service) (s : σ) : CallRecord :=
  let (now, s) := answer (.inr .clock) s
  let program := call.perform now initiator
  let ((reply, after), _) := program.run (onPort answer) s
  ⟨call, now, initiator, program.trace (onPort answer) s, reply, after⟩

def act : (request : LinkCall ⊕ BoardRequest) → Initiator Service × σ → Act
  | .inl call, (initiator, s) => .called (record answer call initiator s)
  | .inr request, (_, s) => .asked request (answer (.inr request) s).1

def acts : HousekeepingProgram α → Initiator Service × σ → List Act
  | .done _, _ => []
  | .ask request next, t =>
    let (reply, u) := attend answer request t
    act answer request t :: acts (next reply) u

/-- The rounds of housekeeping, one after the other, with its calls carried out by the initiator. -/
def passes (keeper : Housekeeping) (initiator : Initiator Service) (s : σ) :
    (count : Nat) → List Pass
  | 0 => []
  | count + 1 =>
    let ((after, leaving), t) :=
      (keeper.round.refineState serveHousekeeping initiator).run answer s
    ⟨keeper, initiator, acts answer keeper.round (initiator, s), after, leaving⟩ ::
      passes after leaving t count

variable {answer}

theorem run_beside (program : SerialProgram α) (s : σ) :
    (program.beside BoardRequest.Reply).run answer s = program.run (onPort answer) s := by
  induction program generalizing s with
  | done value => rfl
  | ask request next ih => exact ih _ _

/-- Answering request by request is what the half does that runs the whole program. -/
theorem run_refineState (program : HousekeepingProgram α) (initiator : Initiator Service) (s : σ) :
    (program.refineState serveHousekeeping initiator).run answer s =
      let (value, leaving, t) := program.run (attend answer) (initiator, s)
      ((value, leaving), t) := by
  induction program generalizing initiator s with
  | done value => rfl
  | ask request next ih =>
    rw [Program.refineState, Program.run_bind]
    cases request with
    | inl call =>
      have served : (serveHousekeeping (.inl call) initiator).run answer s =
          ((call.perform (answer (.inr .clock) s).1 initiator).run (onPort answer)
            (answer (.inr .clock) s).2) := run_beside _ _
      rw [served, ih]
      rfl
    | inr request => exact ih _ _ _

theorem exchange_act (request : LinkCall ⊕ BoardRequest) (t : Initiator Service × σ) :
    (act answer request t).exchange = ⟨request, (attend answer request t).1⟩ := by
  cases request <;> rfl

theorem map_acts (program : HousekeepingProgram α) (t : Initiator Service × σ) :
    (acts answer program t).map Act.exchange = program.trace (attend answer) t := by
  induction program generalizing t with
  | done value => rfl
  | ask request next ih =>
    rw [acts, List.map_cons, exchange_act, Program.trace]
    exact congrArg (List.cons _) (ih _ _)

/-- The rounds of a run are those of housekeeping in surroundings that have an initiator. -/
theorem map_passes (keeper : Housekeeping) (initiator : Initiator Service) (s : σ) (count : Nat) :
    (passes answer keeper initiator s count).map Pass.round =
      keeper.rounds (attend answer) (initiator, s) count := by
  induction count generalizing keeper initiator s with
  | zero => rfl
  | succ count ih =>
    simp only [passes, run_refineState, List.map_cons, ih, Housekeeping.rounds, Pass.round, map_acts]

end Log

section Chain

/-- The initiator is handed from one call to the next. -/
inductive Chain : Initiator Service → List Act → Initiator Service → Prop
  | nothing {initiator} : Chain initiator [] initiator
  | asked {initiator leaving request reply acts} (later : Chain initiator acts leaving) :
    Chain initiator (.asked request reply :: acts) leaving
  | called (record) {leaving acts}
    (performs : record.Performed) (later : Chain record.after acts leaving) :
    Chain record.before (.called record :: acts) leaving

theorem acts_chain {σ α : Type} {answer : (request : SerialRequest ⊕ BoardRequest) → σ →
      Program.EitherReply SerialRequest.Reply BoardRequest.Reply request × σ}
    (program : HousekeepingProgram α) (t : Initiator Service × σ) :
    Chain t.1 (acts answer program t) (program.run (attend answer) t).2.1 := by
  induction program generalizing t with
  | done value => exact .nothing
  | ask request next ih =>
    obtain ⟨initiator, s⟩ := t
    have later := ih (attend answer request (initiator, s)).1 (attend answer request (initiator, s)).2
    cases request with
    | inl call =>
      have performs := Program.leads_trace (onPort answer)
        (call.perform (answer (.inr .clock) s).1 initiator) (answer (.inr .clock) s).2
      exact .called (record answer call initiator s) performs later
    | inr request => exact .asked later

variable {initiator leaving : Initiator Service} {first last : List Act} {record : CallRecord}

theorem Chain.split (chain : Chain initiator (first ++ last) leaving) :
    ∃ between, Chain initiator first between ∧ Chain between last leaving := by
  induction first generalizing initiator with
  | nil => exact ⟨initiator, .nothing, chain⟩
  | cons act first ih =>
    cases chain with
    | asked later =>
      obtain ⟨between, begun, ended⟩ := ih later
      exact ⟨between, .asked begun, ended⟩
    | called record performs later =>
      obtain ⟨between, begun, ended⟩ := ih later
      exact ⟨between, .called record performs begun, ended⟩

/-- A call is one of the orders to the initiator, and housekeeping is told whether the other half is
still there. -/
theorem perform_order {call : LinkCall} {now : Millis} {before after : Initiator Service}
    {exchanges : List SerialExchange} {reply : CallReply}
    (performs : Program.Leads (call.perform now before) exchanges (.done (reply, after))) :
    reply.connected = after.connected ∧ ∃ result,
      Program.Leads (before.perform now call.order) exchanges (.done (result, after)) := by
  cases call with
  | probe | pushSpeed | pushState =>
    obtain ⟨sending, nothing, ⟨result, ready⟩, rfl, sends, ended⟩ := Program.Leads.of_bind performs
    obtain ⟨rfl, same⟩ := ended.done_inv
    cases same
    rw [List.append_nil]
    exact ⟨rfl, result, sends⟩
  | readHeartbeat =>
    obtain ⟨sending, nothing, ⟨result, bytes, ready⟩, rfl, sends, ended⟩ :=
      Program.Leads.of_bind performs
    obtain ⟨rfl, same⟩ := ended.done_inv
    cases same
    exact ⟨rfl, _, sends.seq (.stay _)⟩

end Chain

end SplitKeyboard.Firmware
