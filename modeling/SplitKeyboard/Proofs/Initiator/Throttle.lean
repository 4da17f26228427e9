import SplitKeyboard.Proofs.Initiator.Calls
import SplitKeyboard.RemoteCall

/-!
The throttle over whole runs. A run is any sequence of orders to one initiator, on any device, while
the clock goes on and the table changes in between. Whether an order is throttled depends on the last
order before it that was attempted, and on nothing else of the run.
-/
namespace SplitKeyboard

/-- What can be asked of an initiator. -/
inductive Order where
  | transaction (id : TransactionId)
  | sendData (id : TransactionId) (data : List UInt8)
  | exchange (id : TransactionId) (data out : List UInt8)
  | sendValue (id : TransactionId) (schema : Schema) (value : schema.Value)

def Order.id : Order → TransactionId
  | transaction id | sendData id _ | exchange id _ _ | sendValue id _ _ => id

/-- The record of an order that was carried out. -/
structure OrderRecord where
  now : Millis
  id : TransactionId
  /-- Whether the ID had an entry and the data fitted it. -/
  reaches : Bool
  calls : List SerialExchange
  result : Except TransactionError Unit

namespace OrderRecord

/-- Whether a handshake was attempted: the first call writes the ID. -/
def attempted (link : Link) (record : OrderRecord) : Bool :=
  record.calls.head?.map Sigma.fst = some (.write [record.id] link.timeout)

/-- The calls begin with a handshake that is complete. -/
def Answered (link : Link) (record : OrderRecord) : Prop :=
  ∃ opened rest, record.calls = opened ++ rest ∧ Follows (link.opening record.id) opened none

/-- The calls begin with a handshake that fails: when the ID is written, when its echo is dropped, or
when the token is read. -/
def Unanswered (link : Link) (record : OrderRecord) : Prop :=
  ∃ opened rest phase, record.calls = opened ++ rest ∧
    Follows (link.opening record.id) opened (some phase)

end OrderRecord

/-- The last of these orders that was attempted. -/
def lastAttempt (link : Link) (orders : List OrderRecord) : Option OrderRecord :=
  (orders.filter (·.attempted link)).getLast?

namespace Initiator

variable {Handler σ : Type}

def perform (initiator : Initiator Handler) (now : Millis) :
    Order → SerialProgram (Except TransactionError Unit × Initiator Handler)
  | .transaction id => initiator.transaction now id
  | .sendData id data => initiator.sendData now id data
  | .exchange id data out =>
    (initiator.exchange now id data out).bind fun (result, _, after) =>
      .done (result.map fun _ => (), after)
  | .sendValue id schema value => initiator.sendValue now id schema value

/-- Whether the order comes as far as the throttle. -/
def reaches (initiator : Initiator Handler) (order : Order) : Bool :=
  match initiator.table.descriptor? order.id with
  | none => false
  | some entry =>
    match order with
    | .transaction _ => true
    | .sendData _ data | .exchange _ data _ => data.length ≤ entry.requestSize
    | .sendValue _ schema value =>
      (encodePayload schema value (List.replicate entry.requestSize 0)).1.isOk

inductive Move (Handler : Type) where
  | order (order : Order)
  | advance (time : UInt32)
  | change (change : Table Handler → Table Handler)

/-- The orders of a run, one after the other, on a device that answers as it likes. -/
def log (answer : SerialAnswer σ) (initiator : Initiator Handler) (now : Millis) (s : σ) :
    List (Move Handler) → List OrderRecord
  | [] => []
  | .order order :: moves =>
    let program := initiator.perform now order
    let ((result, after), t) := program.run answer s
    ⟨now, order.id, initiator.reaches order, program.trace answer s, result⟩ ::
      log answer after now t moves
  | .advance time :: moves => log answer initiator (now + time) s moves
  | .change change :: moves =>
    log answer { initiator with table := change initiator.table } now s moves

/-- What an initiator knows of its line, of the time between attempts and of the last one. -/
structure Memory where
  link : Link
  checkInterval : UInt32
  connected : Bool
  lastProbe : Option Millis

def memory (initiator : Initiator Handler) : Memory :=
  ⟨initiator.link, initiator.checkInterval, initiator.connected, initiator.lastProbe⟩

namespace Memory

/-- The last attempt met silence, and the interval after it has not passed. -/
def Soon (known : Memory) (now : Millis) : Prop :=
  known.connected = false ∧
    ∃ last, known.lastProbe = some last ∧ Millis.since last now < known.checkInterval

/-- What is known after an attempt at `now`. -/
def learn (known : Memory) (now : Millis) (answered : Bool) : Memory :=
  { known with connected := answered, lastProbe := some now }

end Memory

theorem tooSoon_iff {initiator : Initiator Handler} {now : Millis} :
    initiator.tooSoon now = true ↔ initiator.memory.Soon now := by
  rw [tooSoon, Bool.and_eq_true, Bool.not_eq_true', Memory.Soon]
  refine and_congr_right fun _ => ?_
  change _ ↔ ∃ last, initiator.lastProbe = some last ∧ _
  cases initiator.lastProbe with
  | none => simp
  | some last =>
    simp only [decide_eq_true_eq, Option.some.injEq, exists_eq_left']
    rfl

/-- An order is turned away before it comes to the throttle, held back there, or attempted. -/
inductive Goes (known : Memory) (now : Millis) (id : TransactionId) :
    (comes : Bool) → List SerialExchange → Except TransactionError Unit → Memory → Prop
  | rejected {result} (other : result ≠ .error .throttled) : Goes known now id false [] result known
  | throttled (soon : known.Soon now) : Goes known now id true [] (.error .throttled) known
  | attempted {opened rest stop result} (ready : ¬ known.Soon now)
      (other : result ≠ .error .throttled) (follows : Follows (known.link.opening id) opened stop) :
      Goes known now id true (opened ++ rest) result (known.learn now (decide (stop = none)))

/-- Only whether an order was throttled matters of its result. -/
theorem Goes.of_result {known learned : Memory} {now : Millis} {id : TransactionId} {comes : Bool}
    {calls : List SerialExchange} {result result' : Except TransactionError Unit}
    (goes : Goes known now id comes calls result learned)
    (same : result' = .error .throttled ↔ result = .error .throttled) :
    Goes known now id comes calls result' learned := by
  cases goes with
  | rejected other => exact .rejected (other ∘ same.mp)
  | throttled soon =>
    rw [same.mpr rfl]
    exact .throttled soon
  | attempted ready other follows => exact .attempted ready (other ∘ same.mp) follows

section Transaction

variable {initiator after : Initiator Handler} {now : Millis} {id : TransactionId}
  {entry : Descriptor Handler} {calls : List SerialExchange}
  {result : Except TransactionError Unit}

theorem verdict_ne_throttled {link : Link} {stop : Option Phase} :
    link.verdict stop ≠ .error .throttled := by
  cases stop with
  | none => simp [Link.verdict]
  | some phase =>
    cases phase with
    | sendingId => cases duplex : link.duplex <;> simp [Link.verdict, Link.unsent, duplex]
    | _ => simp [Link.verdict]

/-- A conversation opens with the handshake, and the ID is answered if this is complete. -/
theorem converse_opens {link : Link} {request : List UInt8} {replySize : Nat}
    {conversation : Conversation}
    (h : Program.Leads (link.converse id request replySize) calls (.done conversation)) :
    ∃ opened rest stop, calls = opened ++ rest ∧ Follows (link.opening id) opened stop ∧
      conversation.answered = decide (stop = none) := by
  obtain ⟨opened, later, greeted, rfl, handshake, ended⟩ := Program.Leads.of_bind h
  obtain ⟨stop, follows, rfl, _⟩ := Link.shakeHands_follows handshake
  refine ⟨opened, later, stop, rfl, follows, ?_⟩
  cases verdict : link.verdict stop with
  | error error =>
    rw [verdict] at ended
    obtain ⟨_, same⟩ := ended.done_inv
    cases same
    have failed : stop ≠ none := by
      rintro rfl
      cases verdict
    exact (decide_eq_false failed).symm
  | ok done =>
    rw [verdict] at ended
    rw [Link.verdict_eq_ok_iff.mp verdict]
    obtain ⟨_, more, asked, _, _, left⟩ := Program.Leads.of_bind ended
    cases asked with
    | error error =>
      obtain ⟨_, same⟩ := left.done_inv
      cases same
      rfl
    | ok done =>
      obtain ⟨_, _, _, _, _, finished⟩ := Program.Leads.of_bind left
      obtain ⟨_, same⟩ := finished.done_inv
      cases same
      rfl

/-- A transaction of an ID with an entry comes to the throttle. -/
theorem transaction_goes
    (h : Program.Leads (initiator.transaction now id) calls (.done (result, after)))
    (found : initiator.table.descriptor? id = some entry) :
    Goes initiator.memory now id true calls result after.memory := by
  cases soon : initiator.tooSoon now with
  | true =>
    unfold transaction permit at h
    rw [Table.resolve_eq_ok_iff.mpr found, soon] at h
    obtain ⟨rfl, same⟩ := h.done_inv
    cases same
    exact .throttled (tooSoon_iff.mp soon)
  | false =>
    have ready : ¬ initiator.memory.Soon now := fun early => by
      rw [tooSoon_iff.mpr early] at soon
      cases soon
    unfold transaction at h
    rw [permit_eq_ok_iff.mpr ⟨found, soon⟩] at h
    obtain ⟨_, dropping, conversation, rfl, conversed, ended⟩ := Program.Leads.of_bind h
    obtain ⟨opened, rest, stop, rfl, follows, answered⟩ := converse_opens conversed
    obtain ⟨place, _, rfl⟩ := Link.converse_follows conversed
    have learned : result = initiator.link.verdict place ∧
        after.memory = initiator.memory.learn now (decide (stop = none)) := by
      rw [← answered]
      cases verdict : initiator.link.verdict place with
      | ok done =>
        simp only [verdict] at ended
        obtain ⟨_, same⟩ := ended.done_inv
        cases same
        exact ⟨rfl, rfl⟩
      | error error =>
        simp only [verdict] at ended
        obtain ⟨_, _, _, cleared⟩ := ended.ask_inv
        obtain ⟨_, same⟩ := cleared.done_inv
        cases same
        exact ⟨rfl, rfl⟩
    rw [List.append_assoc, learned.2]
    exact .attempted ready (learned.1 ▸ verdict_ne_throttled) follows

/-- A transaction of an ID without an entry does not come to the throttle. -/
theorem transaction_rejected
    (h : Program.Leads (initiator.transaction now id) calls (.done (result, after)))
    (missing : initiator.table.descriptor? id = none) :
    Goes initiator.memory now id false calls result after.memory := by
  rw [transaction_refused (.inl missing)] at h
  obtain ⟨rfl, same⟩ := h.done_inv
  cases same
  refine .rejected ?_
  unfold refusal
  rw [if_pos missing]
  split <;> simp

theorem sendData_goes {data : List UInt8}
    (h : Program.Leads (initiator.sendData now id data) calls (.done (result, after))) :
    Goes initiator.memory now id (initiator.reaches (.sendData id data)) calls result
      after.memory := by
  unfold sendData at h
  rw [reaches]
  simp only [Order.id]
  cases found : initiator.table.descriptor? id with
  | none =>
    rw [found] at h
    exact transaction_rejected h found
  | some entry =>
    simp only [found] at h
    by_cases large : entry.requestSize < data.length
    · rw [if_pos large] at h
      obtain ⟨rfl, same⟩ := h.done_inv
      cases same
      simp only [Nat.not_le_of_lt large, decide_false]
      exact .rejected (by simp)
    · rw [if_neg large] at h
      have goes := transaction_goes h found
      simp only [Nat.le_of_not_lt large, decide_true]
      exact goes

theorem encodePayload_ne_throttled {schema : Schema} {value : schema.Value} {buffer : List UInt8} :
    (encodePayload schema value buffer).1 ≠ .error .throttled := by
  unfold encodePayload
  generalize schema.encodeInto value buffer = encoded
  obtain ⟨result, written⟩ := encoded
  cases result with
  | ok count => simp [Except.mapError]
  | error error => cases error <;> simp [Except.mapError, EncodeError.toTransactionError]

theorem sendValue_goes {schema : Schema} {value : schema.Value}
    (h : Program.Leads (initiator.sendValue now id schema value) calls (.done (result, after))) :
    Goes initiator.memory now id (initiator.reaches (.sendValue id schema value)) calls result
      after.memory := by
  unfold sendValue at h
  rw [reaches]
  simp only [Order.id]
  cases found : initiator.table.descriptor? id with
  | none =>
    rw [found] at h
    exact transaction_rejected h found
  | some entry =>
    simp only [found] at h
    cases encoded : (encodePayload schema value (List.replicate entry.requestSize 0)).1 with
    | error error =>
      simp only [encoded] at h
      obtain ⟨rfl, same⟩ := h.done_inv
      cases same
      have other : Except.error error ≠ .error (α := Unit) .throttled := by
        rintro ⟨⟩
        exact encodePayload_ne_throttled encoded
      simp only [encoded, Except.isOk, Except.toBool]
      exact .rejected other
    | ok done =>
      simp only [encoded] at h
      have goes := transaction_goes h found
      simp only [encoded, Except.isOk, Except.toBool]
      exact goes

/-- An exchange makes the calls of sending its data, and is throttled just when that is. -/
theorem exchange_leads {data out rest : List UInt8} {copied : Except TransactionError Nat}
    (h : Program.Leads (initiator.exchange now id data out) calls (.done (copied, rest, after))) :
    ∃ sent, Program.Leads (initiator.sendData now id data) calls (.done (sent, after)) ∧
      (copied.map (fun _ => ()) = .error .throttled ↔ sent = .error .throttled) := by
  obtain ⟨sending, copying, ⟨sent, ready⟩, rfl, sends, copies⟩ := Program.Leads.of_bind h
  suffices ended : copying = [] ∧ after = ready ∧
      (copied.map (fun _ => ()) = .error .throttled ↔ sent = .error .throttled) by
    obtain ⟨rfl, rfl, same⟩ := ended
    rw [List.append_nil]
    exact ⟨sent, sends, same⟩
  cases sent with
  | error error =>
    obtain ⟨rfl, same⟩ := copies.done_inv
    cases same
    exact ⟨rfl, rfl, by simp [Except.map]⟩
  | ok done =>
    dsimp only at copies
    cases reply : ready.table.reply? id with
    | none =>
      rw [reply] at copies
      obtain ⟨rfl, same⟩ := copies.done_inv
      cases same
      exact ⟨rfl, rfl, by simp [Except.map]⟩
    | some bytes =>
      rw [reply] at copies
      obtain ⟨rfl, same⟩ := copies.done_inv
      cases same
      exact ⟨rfl, rfl, by simp [Except.map]⟩

/-- An order goes in one of three ways. -/
theorem perform_goes {order : Order}
    (h : Program.Leads (initiator.perform now order) calls (.done (result, after))) :
    Goes initiator.memory now order.id (initiator.reaches order) calls result after.memory := by
  cases order with
  | transaction id =>
    rw [reaches]
    simp only [Order.id]
    cases found : initiator.table.descriptor? id with
    | none => exact transaction_rejected h found
    | some entry => exact transaction_goes h found
  | sendData id data => exact sendData_goes h
  | sendValue id schema value => exact sendValue_goes h
  | exchange id data out =>
    obtain ⟨_, _, ⟨copied, _, final⟩, rfl, exchanges, ended⟩ := Program.Leads.of_bind h
    obtain ⟨rfl, same⟩ := ended.done_inv
    cases same
    obtain ⟨sent, sends, alike⟩ := exchange_leads exchanges
    rw [List.append_nil]
    exact (sendData_goes sends).of_result alike

end Transaction

/-- How an order goes that comes after these. -/
structure Paced (link : Link) (checkInterval : UInt32) (before : List OrderRecord)
    (record : OrderRecord) : Prop where
  /-- It is held back exactly in the interval after an attempt that was the last and failed. -/
  throttled : record.reaches = true → (record.result = .error .throttled ↔
    ∃ last, lastAttempt link before = some last ∧ last.Unanswered link ∧
      Millis.since last.now record.now < checkInterval)
  attempted : record.attempted link = true ↔
    record.reaches = true ∧ record.result ≠ .error .throttled
  /-- If it is not attempted it makes no call, and puts nothing off. -/
  silent : record.attempted link = false → record.calls = [] ∧
    lastAttempt link (before ++ [record]) = lastAttempt link before
  first : (∀ earlier ∈ before, earlier.attempted link = false) → record.result ≠ .error .throttled
  connected : ∀ last, lastAttempt link before = some last → last.Answered link →
    record.result ≠ .error .throttled
  unpaced : checkInterval = 0 → record.result ≠ .error .throttled
  apart : record.attempted link = true → ∀ last, lastAttempt link before = some last →
    last.Unanswered link → checkInterval ≤ Millis.since last.now record.now

/-- An initiator remembers the time of the last attempt and whether its ID was answered. -/
structure Remembers (known : Memory) (past : List OrderRecord) : Prop where
  probe : known.lastProbe = (lastAttempt known.link past).map OrderRecord.now
  answered : ∀ last, lastAttempt known.link past = some last →
    (last.Answered known.link ↔ known.connected = true) ∧
      (last.Unanswered known.link ↔ known.connected = false)

section Memory

variable {known learned : Memory} {past : List OrderRecord} {now : Millis} {id : TransactionId}
  {comes : Bool} {calls : List SerialExchange} {result : Except TransactionError Unit}

theorem Remembers.soon_iff (remembers : Remembers known past) :
    known.Soon now ↔ ∃ last, lastAttempt known.link past = some last ∧
      last.Unanswered known.link ∧ Millis.since last.now now < known.checkInterval := by
  rw [Memory.Soon, remembers.probe]
  constructor
  · rintro ⟨silent, _, probed, soon⟩
    obtain ⟨last, latest, rfl⟩ := Option.map_eq_some_iff.mp probed
    exact ⟨last, latest, (remembers.answered last latest).2.mpr silent, soon⟩
  · rintro ⟨last, latest, failed, soon⟩
    refine ⟨(remembers.answered last latest).2.mp failed, last.now, ?_, soon⟩
    rw [latest, Option.map_some]

/-- What follows the opening of a transaction begins by writing the ID. -/
theorem attempted_of_follows {link : Link} {opened rest : List SerialExchange} {stop : Option Phase}
    (follows : Follows (link.opening id) opened stop) :
    OrderRecord.attempted link ⟨now, id, comes, opened ++ rest, result⟩ = true := by
  unfold Link.opening Link.sending at follows
  cases follows with
  | cut refused => simp [OrderRecord.attempted, Step.write]
  | goes met left => simp [OrderRecord.attempted, Step.write]

theorem lastAttempt_append_of_attempted {link : Link} {record : OrderRecord} (past : List OrderRecord)
    (made : record.attempted link = true) : lastAttempt link (past ++ [record]) = some record := by
  simp [lastAttempt, made]

theorem lastAttempt_append_of_not {link : Link} {record : OrderRecord} (past : List OrderRecord)
    (idle : record.attempted link = false) :
    lastAttempt link (past ++ [record]) = lastAttempt link past := by
  simp [lastAttempt, idle]

/-- A handshake is complete or fails, and its calls tell which. -/
theorem answered_iff {link : Link} {opened rest : List SerialExchange} {stop : Option Phase}
    (follows : Follows (link.opening id) opened stop) :
    (OrderRecord.Answered link ⟨now, id, comes, opened ++ rest, result⟩ ↔ stop = none) ∧
      (OrderRecord.Unanswered link ⟨now, id, comes, opened ++ rest, result⟩ ↔ stop ≠ none) := by
  constructor
  · constructor
    · rintro ⟨begun, _, same, complete⟩
      exact follows.stop_unique complete same
    · rintro rfl
      exact ⟨opened, rest, rfl, follows⟩
  · constructor
    · rintro ⟨begun, _, phase, same, failed⟩ rfl
      cases follows.stop_unique failed same
    · intro failed
      obtain ⟨phase, rfl⟩ := Option.ne_none_iff_exists'.mp failed
      exact ⟨opened, rest, phase, rfl, follows⟩

theorem Goes.link_eq (goes : Goes known now id comes calls result learned) :
    learned.link = known.link ∧ learned.checkInterval = known.checkInterval := by
  cases goes <;> exact ⟨rfl, rfl⟩

/-- However an order goes, what is remembered stays right. -/
theorem Remembers.step (remembers : Remembers known past)
    (goes : Goes known now id comes calls result learned) :
    Remembers learned (past ++ [⟨now, id, comes, calls, result⟩]) := by
  have idle : OrderRecord.attempted known.link ⟨now, id, comes, [], result⟩ = false := rfl
  cases goes with
  | rejected other =>
    have same := lastAttempt_append_of_not past idle
    exact ⟨by rw [same, remembers.probe], by rw [same]; exact remembers.answered⟩
  | throttled soon =>
    have same := lastAttempt_append_of_not past idle
    exact ⟨by rw [same, remembers.probe], by rw [same]; exact remembers.answered⟩
  | @attempted opened rest stop _ ready other follows =>
    have made : OrderRecord.attempted known.link ⟨now, id, true, opened ++ rest, result⟩ = true :=
      attempted_of_follows follows
    have latest := lastAttempt_append_of_attempted past made
    refine ⟨?_, ?_⟩
    · change some now = (lastAttempt known.link _).map OrderRecord.now
      rw [latest]
      rfl
    · intro last found
      cases latest.symm.trans found
      change (OrderRecord.Answered known.link _ ↔ decide (stop = none) = true) ∧
        (OrderRecord.Unanswered known.link _ ↔ decide (stop = none) = false)
      rw [decide_eq_true_iff, decide_eq_false_iff_not]
      exact answered_iff follows

theorem Remembers.paced (remembers : Remembers known past)
    (goes : Goes known now id comes calls result learned) :
    Paced known.link known.checkInterval past ⟨now, id, comes, calls, result⟩ := by
  have held : comes = true → (result = .error .throttled ↔ known.Soon now) := by
    cases goes with
    | rejected other => exact fun comes => nomatch comes
    | throttled soon => exact fun _ => ⟨fun _ => soon, fun _ => rfl⟩
    | attempted ready other follows =>
      exact fun _ => ⟨fun throttled => absurd throttled other, fun soon => absurd soon ready⟩
  have free : ¬ known.Soon now → result ≠ .error .throttled := by
    intro ready throttled
    cases comes with
    | true => exact ready ((held rfl).mp throttled)
    | false =>
      cases goes with
      | rejected other => exact other throttled
  have made : OrderRecord.attempted known.link ⟨now, id, comes, calls, result⟩ = true ↔
      comes = true ∧ result ≠ .error .throttled := by
    cases goes with
    | rejected other => exact ⟨fun made => (by cases made), fun both => nomatch both.1⟩
    | throttled soon => exact ⟨fun made => (by cases made), fun both => absurd rfl both.2⟩
    | attempted ready other follows =>
      exact ⟨fun _ => ⟨rfl, other⟩, fun _ => attempted_of_follows follows⟩
  constructor
  case throttled => exact fun comes => (held comes).trans remembers.soon_iff
  case attempted => exact made
  case silent =>
    intro idle
    refine ⟨?_, lastAttempt_append_of_not past idle⟩
    cases goes with
    | rejected other => rfl
    | throttled soon => rfl
    | attempted ready other follows =>
      rw [attempted_of_follows follows] at idle
      cases idle
  case first =>
    intro none_made
    refine free fun soon => ?_
    obtain ⟨last, latest, _⟩ := remembers.soon_iff.mp soon
    have member := List.mem_of_getLast? latest
    obtain ⟨member, attempted⟩ := List.mem_filter.mp member
    rw [none_made last member] at attempted
    cases attempted
  case connected =>
    intro last latest answered
    refine free fun soon => ?_
    have connected := (remembers.answered last latest).1.mp answered
    rw [soon.1] at connected
    cases connected
  case unpaced =>
    intro zero
    refine free fun soon => ?_
    obtain ⟨_, _, _, early⟩ := soon
    rw [zero] at early
    exact UInt32.not_lt_zero early
  case apart =>
    intro attempted last latest failed
    obtain ⟨comes, other⟩ := made.mp attempted
    by_contra early
    exact other ((held comes).mpr
      (remembers.soon_iff.mpr ⟨last, latest, failed, UInt32.not_le.mp early⟩))

end Memory

/-- What an initiator remembers of its past decides how it goes on. -/
theorem log_paced (answer : SerialAnswer σ) {moves : List (Move Handler)}
    {initiator : Initiator Handler} {past : List OrderRecord} {now : Millis} {s : σ}
    {before after : List OrderRecord} {record : OrderRecord}
    (made : initiator.log answer now s moves = before ++ record :: after)
    (remembers : Remembers initiator.memory past) :
    Paced initiator.memory.link initiator.memory.checkInterval (past ++ before) record := by
  -- On the moves, with all orders so far as the past. Only an order adds to it.
  induction moves generalizing initiator past now s before with
  | nil => simp [log] at made
  | cons move moves ih =>
    rw [log.eq_def] at made
    cases move with
    | advance time => exact ih made remembers
    | change change =>
      have paced := ih made remembers
      exact paced
    | order order =>
      have goes := perform_goes (Program.leads_trace answer (initiator.perform now order) s)
      cases before with
      | nil =>
        obtain ⟨rfl, _⟩ := List.cons.inj made
        rw [List.append_nil]
        exact remembers.paced goes
      | cons earlier before =>
        obtain ⟨rfl, later⟩ := List.cons.inj made
        obtain ⟨link, interval⟩ := goes.link_eq
        have paced := ih later (remembers.step goes)
        rwa [link, interval, List.append_assoc, List.singleton_append] at paced

/-- Throughout a run from the start, an order is held back exactly in the interval after a failed
attempt that was the last one before it, and attempted as soon as it comes to the throttle later. -/
theorem run_paced (config : LinkConfig) (table : Table Handler) (answer : SerialAnswer σ) (s : σ)
    (start : Millis) (moves : List (Move Handler)) {before after : List OrderRecord}
    {record : OrderRecord}
    (made : (ofConfig config table).log answer start s moves = before ++ record :: after) :
    Paced (.ofConfig config) config.checkInterval before record := by
  have nothing : Remembers (ofConfig config table).memory [] :=
    ⟨rfl, fun _ none_made => by cases none_made⟩
  exact log_paced answer made nothing

/-- A second transaction right after one that met silence, across the wrap of the clock. -/
theorem run_paced_single :
    let moves : List (Move Unit) := [.order (.transaction 1), .advance 100, .order (.transaction 1)]
    let silent : SerialAnswer Unit := fun request _ =>
      match request with
      | .write data _ => (some data.length, ())
      | .read _ _ => (⟨[], some 0⟩, ())
      | .skip _ _ => (some 0, ())
      | .clear => ((), ())
    ∃ first second, (ofConfig {} (.single none)).log silent 0xFFFFFFF0 () moves =
        [first] ++ second :: [] ∧
      second.now = 84 ∧ second.result = .error .throttled ∧
      Paced (.ofConfig {}) 250 [first] second := by
  intro moves silent
  refine ⟨_, _, rfl, rfl, rfl, ?_⟩
  exact run_paced {} (.single none) silent () 0xFFFFFFF0 moves rfl

end Initiator
end SplitKeyboard
