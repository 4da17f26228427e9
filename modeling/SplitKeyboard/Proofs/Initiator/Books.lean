import SplitKeyboard.Proofs.Initiator.Orders

/-!
The books of an initiator over whole runs. Counters, phase and connection are three pieces of state
that many early ends of an order pass by. Here they are read off the history: the counters are the
numbers of orders that ended in each way, the phase tells how the last one ended, and the connection
whether the last handshake that was attempted received its token. Orders that do not fit are no part
of this, because they never enter the engine.
-/
namespace SplitKeyboard

/-- The phase after an order that entered the engine. -/
def Phase.ofResult : Except TransactionError Unit → Phase
  | .ok _ => .done
  | .error _ => .failed

namespace Initiator

variable {Handler σ : Type}

/-- One order of a run, with the initiator before and after it. -/
structure Turn (Handler : Type) where
  before : Initiator Handler
  now : Millis
  order : Order
  calls : List SerialExchange
  result : Except TransactionError Unit
  after : Initiator Handler

namespace Turn

def entered (turn : Turn Handler) : Bool := turn.before.enters turn.order

def record (turn : Turn Handler) : OrderRecord :=
  ⟨turn.now, turn.order.id, turn.before.reaches turn.order, turn.calls, turn.result⟩

def completed (turn : Turn Handler) : Bool :=
  turn.entered && match turn.result with
    | .ok _ => true
    | .error _ => false

def throttled (turn : Turn Handler) : Bool :=
  turn.entered && match turn.result with
    | .error .throttled => true
    | _ => false

/-- An order that entered the engine failed if it was neither completed nor throttled. -/
def failed (turn : Turn Handler) : Bool := turn.entered && !turn.completed && !turn.throttled

/-- The turn is what its order does to the initiator. -/
def Made (turn : Turn Handler) : Prop :=
  Program.Leads (turn.before.perform turn.now turn.order) turn.calls
    (.done (turn.result, turn.after))

/-- What one turn does beside the books. -/
structure Kept (link : Link) (turn : Turn Handler) : Prop where
  /-- The orders that do not enter the engine are those that are told that they do not fit. -/
  unfit_iff : turn.entered = false ↔ ∃ error, turn.result = .error error ∧ error.unfit = true
  /-- Such an order makes no call, and changes nothing but the request that it could not fill. -/
  unfit : turn.entered = false →
    turn.calls = [] ∧ turn.after = { turn.before with table := turn.after.table }
  /-- One that is turned away in the engine makes no call either, and the connection is as it was. -/
  turnedAway : ∀ error, turn.result = .error error → error.turnsAway = true →
    turn.calls = [] ∧ turn.after.connected = turn.before.connected
  /-- A failure with a payload comes after the token, and leaves the connection up. -/
  payload : ∀ phase, phase = .sendingPayload ∨ phase = .receivingPayload →
    turn.result = .error (.noResponse phase) → turn.record.Answered link ∧
      turn.after.connected = true

end Turn

/-- The connection is up just if the last handshake that was attempted received its token. -/
def ConnectedBy (link : Link) (past : List OrderRecord) (connected : Bool) : Prop :=
  connected = true ↔ ∃ last, lastAttempt link past = some last ∧ last.Answered link

/-- What an initiator's books say after these turns. -/
structure Books (link : Link) (past : List (Turn Handler)) (initiator : Initiator Handler) :
    Prop where
  completed : initiator.stats.completed = UInt32.ofNat (past.countP Turn.completed)
  failed : initiator.stats.failed = UInt32.ofNat (past.countP Turn.failed)
  throttled : initiator.stats.throttled = UInt32.ofNat (past.countP Turn.throttled)
  phase : initiator.phase = match (past.filter Turn.entered).getLast? with
    | none => .idle
    | some last => .ofResult last.result
  connected : ConnectedBy link (past.map Turn.record) initiator.connected

/-- The orders of a run, one after the other, on a device that answers as it likes. -/
def turns (answer : SerialAnswer σ) (initiator : Initiator Handler) (now : Millis) (s : σ) :
    List (Move Handler) → List (Turn Handler)
  | [] => []
  | .order order :: moves =>
    let program := initiator.perform now order
    let ((result, after), t) := program.run answer s
    ⟨initiator, now, order, program.trace answer s, result, after⟩ :: turns answer after now t moves
  | .advance time :: moves => turns answer initiator (now + time) s moves
  | .change change :: moves =>
    turns answer { initiator with table := change initiator.table } now s moves

/-- The initiator at the end of a run. -/
def finish (answer : SerialAnswer σ) (initiator : Initiator Handler) (now : Millis) (s : σ) :
    List (Move Handler) → Initiator Handler
  | [] => initiator
  | .order order :: moves =>
    let ((_, after), t) := (initiator.perform now order).run answer s
    finish answer after now t moves
  | .advance time :: moves => finish answer initiator (now + time) s moves
  | .change change :: moves =>
    finish answer { initiator with table := change initiator.table } now s moves

/-- Silence is reported with the phase in which it was met. -/
theorem stop_of_noResponse {link : Link} {stop : Option Phase} {phase : Phase}
    (silent : link.verdict stop = .error (.noResponse phase)) : stop = some phase := by
  cases stop with
  | none => cases silent
  | some place =>
    cases place with
    | sendingId =>
      cases duplex : link.duplex <;> simp [Link.verdict, Link.unsent, duplex] at silent
      rw [← silent]
    | _ => cases silent; rfl

/-- Every transaction is booked with its result, also one that was turned away. -/
theorem Transacts.book_eq {initiator after : Initiator Handler} {now : Millis} {id : TransactionId}
    {calls : List SerialExchange} {result : Except TransactionError Unit}
    (transacts : Transacts initiator now id calls result after) :
    after.stats = initiator.stats.count result ∧ after.phase = .ofResult result := by
  cases transacts with
  | refused refused => exact ⟨rfl, rfl⟩
  | @converses _ _ conversation permitted conversed =>
    refine ⟨rfl, ?_⟩
    generalize conversation.result = result
    cases result <;> rfl

/-- A conversation that fails with a payload has had its ID answered. -/
theorem Transacts.payload_failure {initiator after : Initiator Handler} {now : Millis}
    {id : TransactionId} {calls : List SerialExchange} {phase : Phase}
    (transacts : Transacts initiator now id calls (.error (.noResponse phase)) after)
    (late : phase = .sendingPayload ∨ phase = .receivingPayload) :
    (∃ opened rest, calls = opened ++ rest ∧ Follows (initiator.link.opening id) opened none) ∧
      after.connected = true := by
  generalize failed : Except.error (TransactionError.noResponse phase) = result at transacts
  cases transacts with
  | refused refused =>
    cases failed
    cases permit_turnsAway refused
  | converses permitted conversed =>
    obtain ⟨opened, rest, stop, rfl, follows, answered⟩ := converse_opens conversed
    obtain ⟨place, _, rfl⟩ := Link.converse_follows conversed
    have met : answeredBy place = true := by
      rw [stop_of_noResponse failed.symm]
      rcases late with rfl | rfl <;> rfl
    rw [met, eq_comm, decide_eq_true_iff] at answered
    subst answered
    exact ⟨⟨opened, _, List.append_assoc _ _ _, follows⟩, met⟩

namespace Turn

variable {link : Link} {turn : Turn Handler}

theorem Made.kept (made : turn.Made) : turn.Kept turn.before.link := by
  obtain ⟨before, now, order, calls, result, after⟩ := turn
  have carries : Carries before now order.id order.fills (before.enters order) calls result after :=
    perform_carries made
  generalize inside : before.enters order = entered at carries
  cases carries with
  | @unfit error table prepared unfit =>
    constructor
    case unfit_iff => exact ⟨fun _ => ⟨error, rfl, unfit⟩, fun _ => inside⟩
    case unfit => exact fun _ => ⟨rfl, rfl⟩
    case turnedAway => exact fun _ _ _ => ⟨rfl, rfl⟩
    case payload =>
      rintro phase _ ⟨⟩
      cases unfit
  | runs prepared transacts =>
    have entered : entered ⟨before, now, order, calls, result, after⟩ = true := inside
    constructor
    case unfit_iff =>
      refine ⟨fun outside => absurd (entered.symm.trans outside) Bool.noConfusion, ?_⟩
      rintro ⟨error, rfl, unfit⟩
      cases unfit.symm.trans transacts.fit
    case unfit => exact fun outside => absurd (entered.symm.trans outside) Bool.noConfusion
    case turnedAway =>
      rintro error rfl away
      rcases transacts.failure with ⟨_, quiet, same⟩ | rfl | ⟨phase, rfl⟩
      · exact ⟨quiet, congrArg Memory.connected same⟩
      · cases away
      · cases away
    case payload =>
      rintro phase late rfl
      exact transacts.payload_failure late

/-- An order that enters the engine is booked with its result, any other one is not. -/
theorem Made.booked (made : turn.Made) :
    (turn.entered = true ∧ turn.after.stats = turn.before.stats.count turn.result ∧
        turn.after.phase = .ofResult turn.result) ∨
      turn.entered = false ∧ turn.after.stats = turn.before.stats ∧
        turn.after.phase = turn.before.phase := by
  obtain ⟨before, now, order, calls, result, after⟩ := turn
  have carries : Carries before now order.id order.fills (before.enters order) calls result after :=
    perform_carries made
  generalize inside : before.enters order = entered at carries
  cases carries with
  | unfit prepared unfit => exact .inr ⟨inside, rfl, rfl⟩
  | runs prepared transacts => exact .inl ⟨inside, transacts.book_eq⟩

/-- Each counter goes up with the orders that it counts. -/
theorem Made.stats (made : turn.Made) :
    turn.after.stats = ⟨turn.before.stats.completed + if turn.completed then 1 else 0,
      turn.before.stats.failed + if turn.failed then 1 else 0,
      turn.before.stats.throttled + if turn.throttled then 1 else 0⟩ := by
  rcases made.booked with ⟨inside, stats, _⟩ | ⟨outside, stats, _⟩
  · rw [stats, failed, completed, throttled, inside]
    cases turn.result with
    | ok done => simp [LinkStats.count]
    | error error => cases error <;> simp [LinkStats.count]
  · simp [stats, failed, completed, throttled, outside]

end Turn

/-- A counter of all orders of one kind, after one more order. -/
theorem ofNat_countP_append {α : Type} (kind : α → Bool) (past : List α) (last : α) :
    UInt32.ofNat ((past ++ [last]).countP kind) =
      UInt32.ofNat (past.countP kind) + if kind last then 1 else 0 := by
  rw [List.countP_append, UInt32.ofNat_add, List.countP_singleton]
  split <;> rfl

theorem Goes.connectedBy {known learned : Memory} {past : List OrderRecord} {now : Millis}
    {id : TransactionId} {comes : Bool} {calls : List SerialExchange}
    {result : Except TransactionError Unit} (goes : Goes known now id comes calls result learned)
    (before : ConnectedBy known.link past known.connected) :
    ConnectedBy known.link (past ++ [⟨now, id, comes, calls, result⟩]) learned.connected := by
  have idle : OrderRecord.attempted known.link ⟨now, id, comes, [], result⟩ = false := rfl
  unfold ConnectedBy at *
  cases goes with
  | rejected other => rwa [lastAttempt_append_of_not past idle]
  | throttled soon => rwa [lastAttempt_append_of_not past idle]
  | @attempted opened rest stop _ ready other follows =>
    rw [lastAttempt_append_of_attempted past (attempted_of_follows follows)]
    simp only [Option.some.injEq, exists_eq_left', (answered_iff follows).1]
    exact decide_eq_true_iff

section Books

variable {link : Link} {past : List (Turn Handler)} {turn : Turn Handler}

/-- One more order is one more entry in the books. -/
theorem Books.step (books : Books turn.before.link past turn.before) (made : turn.Made) :
    Books turn.before.link (past ++ [turn]) turn.after where
  completed := by rw [made.stats, ofNat_countP_append, books.completed]
  failed := by rw [made.stats, ofNat_countP_append, books.failed]
  throttled := by rw [made.stats, ofNat_countP_append, books.throttled]
  phase := by
    rw [List.filter_append]
    rcases made.booked with ⟨inside, _, phase⟩ | ⟨outside, _, phase⟩
    · simp [inside, phase]
    · simp [outside, phase, books.phase]
  connected := by
    rw [List.map_append]
    exact Goes.connectedBy (perform_goes made) books.connected

/-- Orders, and changes of the table between them, keep the books right. -/
theorem Books.run (answer : SerialAnswer σ) {initiator : Initiator Handler} {now : Millis} {s : σ}
    {moves : List (Move Handler)} (books : Books link past initiator)
    (same : initiator.link = link) :
    Books link (past ++ initiator.turns answer now s moves)
        (initiator.finish answer now s moves) ∧
      ∀ turn ∈ initiator.turns answer now s moves, turn.Kept link := by
  -- On the moves, with all orders so far as the past. Only an order adds to it.
  induction moves generalizing initiator past now s with
  | nil => exact ⟨by rwa [turns, finish, List.append_nil], by simp [turns]⟩
  | cons move moves ih =>
    rw [turns.eq_def, finish.eq_def]
    cases move with
    | advance time => exact ih books same
    | change change =>
      exact ih ⟨books.completed, books.failed, books.throttled, books.phase, books.connected⟩ same
    | order order =>
      subst same
      let program := initiator.perform now order
      let outcome := program.run answer s
      let turn : Turn Handler :=
        ⟨initiator, now, order, program.trace answer s, outcome.1.1, outcome.1.2⟩
      have made : turn.Made := Program.leads_trace answer program s
      obtain ⟨link, _⟩ := (perform_goes made).link_eq
      obtain ⟨later, kept⟩ := ih (books.step made) link
      rw [List.append_assoc] at later
      exact ⟨later, List.forall_mem_cons.mpr ⟨made.kept, kept⟩⟩

end Books

/-- Over every run from the start, counters and phase are read off the orders that entered the
engine, and the connection off the last attempted handshake. -/
theorem run_books (config : LinkConfig) (table : Table Handler) (answer : SerialAnswer σ) (s : σ)
    (start : Millis) (moves : List (Move Handler)) :
    Books (.ofConfig config) ((ofConfig config table).turns answer start s moves)
        ((ofConfig config table).finish answer start s moves) ∧
      ∀ turn ∈ (ofConfig config table).turns answer start s moves, turn.Kept (.ofConfig config) := by
  have opened : Books (.ofConfig config) [] (ofConfig config table) :=
    ⟨rfl, rfl, rfl, rfl, by simp [ConnectedBy, ofConfig, lastAttempt]⟩
  exact opened.run answer rfl

end Initiator
end SplitKeyboard
