import SplitKeyboard.Proofs.Initiator.Throttle

/-!
How an order becomes a transaction. An order either does not fit, and is then over before the engine
has seen it, or it is one transaction, on a table that may have been given a new request. And a
transaction is either refused without a call or holds one conversation. What is proved of orders
follows from these two inversions.
-/
namespace SplitKeyboard

/-- Whether an error says that data did not fit. The engine itself never reports one of these. -/
def TransactionError.unfit : TransactionError → Bool
  | .payloadTooLarge _ _ | .encoding => true
  | _ => false

/-- Whether an error turns a transaction away before its first call. -/
def TransactionError.turnsAway : TransactionError → Bool
  | .invalidId _ | .notRegistered _ | .throttled => true
  | _ => false

/-- Whether an order brings a request of its own. -/
def Order.fills : Order → Bool
  | .transaction _ => false
  | _ => true

namespace Initiator

variable {Handler : Type} {initiator after : Initiator Handler} {now : Millis}
  {id : TransactionId} {calls : List SerialExchange} {result : Except TransactionError Unit}

/-- Whether an order enters the engine. One for an ID without an entry does, to be reported there. -/
def enters (initiator : Initiator Handler) (order : Order) : Bool :=
  (initiator.table.descriptor? order.id).isNone || initiator.reaches order

/-- The input is dropped after a conversation that failed. -/
def dropping : Except TransactionError Unit → List SerialExchange
  | .ok () => []
  | .error _ => [⟨.clear, ()⟩]

/-- What a transaction can do. -/
inductive Transacts (initiator : Initiator Handler) (now : Millis) (id : TransactionId) :
    List SerialExchange → Except TransactionError Unit → Initiator Handler → Prop
  | refused {error} (refused : initiator.permit now id = .error error) :
      Transacts initiator now id [] (.error error) (initiator.book (.error error))
  | converses {entry conversing conversation} (permitted : initiator.permit now id = .ok entry)
      (conversed : Program.Leads (initiator.link.converse id (initiator.table.requestOf entry)
        entry.replySize) conversing (.done conversation)) :
      Transacts initiator now id (conversing ++ dropping conversation.result) conversation.result
        ((initiator.learn now entry conversation).book conversation.result)

theorem transaction_transacts
    (h : Program.Leads (initiator.transaction now id) calls (.done (result, after))) :
    Transacts initiator now id calls result after := by
  unfold transaction at h
  cases permitted : initiator.permit now id with
  | error error =>
    rw [permitted] at h
    obtain ⟨rfl, same⟩ := h.done_inv
    cases same
    exact .refused permitted
  | ok entry =>
    rw [permitted] at h
    obtain ⟨conversing, last, conversation, rfl, conversed, ended⟩ := Program.Leads.of_bind h
    have whole := Transacts.converses permitted conversed
    cases outcome : conversation.result with
    | ok done =>
      simp only [outcome] at ended
      obtain ⟨rfl, same⟩ := ended.done_inv
      cases same
      rwa [outcome] at whole
    | error error =>
      simp only [outcome] at ended
      obtain ⟨_, _, rfl, cleared⟩ := ended.ask_inv
      obtain ⟨rfl, same⟩ := cleared.done_inv
      cases same
      rwa [outcome] at whole

theorem permit_turnsAway {error : TransactionError}
    (refused : initiator.permit now id = .error error) : error.turnsAway = true := by
  unfold permit at refused
  split at refused
  · cases refused
    rfl
  · cases refused
    rfl
  · split at refused
    · cases refused
      rfl
    · cases refused

/-- A conversation fails with a fault of the line or with silence. -/
theorem verdict_error {link : Link} {stop : Option Phase} {error : TransactionError}
    (failed : link.verdict stop = .error error) :
    error = .linkFault ∨ ∃ phase, error = .noResponse phase := by
  cases stop with
  | none => cases failed
  | some phase =>
    cases phase with
    | sendingId =>
      cases failed
      unfold Link.unsent
      split
      · exact .inl rfl
      · exact .inr ⟨_, rfl⟩
    | _ =>
      cases failed
      exact .inr ⟨_, rfl⟩

/-- A transaction that fails is turned away, or its conversation fails. -/
theorem Transacts.failure {error : TransactionError}
    (transacts : Transacts initiator now id calls (.error error) after) :
    (error.turnsAway = true ∧ calls = [] ∧ after.memory = initiator.memory) ∨
      error = .linkFault ∨ ∃ phase, error = .noResponse phase := by
  generalize failed : Except.error error = result at transacts
  cases transacts with
  | refused refused =>
    cases failed
    exact .inl ⟨permit_turnsAway refused, rfl, rfl⟩
  | converses permitted conversed =>
    obtain ⟨stop, _, rfl⟩ := Link.converse_follows conversed
    exact .inr (verdict_error failed.symm)

/-- No transaction says that data did not fit. -/
theorem Transacts.fit {error : TransactionError}
    (transacts : Transacts initiator now id calls (.error error) after) : error.unfit = false := by
  rcases transacts.failure with ⟨away, _, _⟩ | rfl | ⟨phase, rfl⟩
  · cases error <;> first | rfl | cases away
  · rfl
  · rfl

theorem Transacts.descriptor?_eq (transacts : Transacts initiator now id calls result after) :
    after.table.descriptor? = initiator.table.descriptor? := by
  cases transacts with
  | refused refused => rfl
  | converses permitted conversed => rfl

/-- Only an ID with an entry is run with success. -/
theorem Transacts.reply?_ne_none (transacts : Transacts initiator now id calls result after)
    (fine : result = .ok ()) : after.table.reply? id ≠ none := by
  rw [Table.reply?, transacts.descriptor?_eq]
  cases transacts with
  | refused refused => cases fine
  | converses permitted conversed =>
    rw [(permit_eq_ok_iff.mp permitted).1]
    exact Option.some_ne_none _

/-- The table as an order may leave it to its transaction. -/
inductive Prepared (table : Table Handler) (id : TransactionId) : (fills : Bool) → Table Handler → Prop
  | asIs {fills} : Prepared table id fills table
  | request {entry} (bytes : List UInt8) (found : table.descriptor? id = some entry) :
      Prepared table id true (table.writeRequest entry bytes)

/-- What an order can do: it does not fit, or it is a transaction. -/
inductive Carries (initiator : Initiator Handler) (now : Millis) (id : TransactionId) (fills : Bool) :
    (entered : Bool) → List SerialExchange → Except TransactionError Unit → Initiator Handler → Prop
  | unfit {error table} (prepared : Prepared initiator.table id fills table)
      (unfit : error.unfit = true) :
      Carries initiator now id fills false [] (.error error) { initiator with table }
  | runs {table calls result after} (prepared : Prepared initiator.table id fills table)
      (transacts : Transacts { initiator with table } now id calls result after) :
      Carries initiator now id fills true calls result after

theorem sendData_carries {data : List UInt8}
    (h : Program.Leads (initiator.sendData now id data) calls (.done (result, after))) :
    Carries initiator now id true (initiator.enters (.sendData id data)) calls result after := by
  unfold sendData at h
  unfold enters reaches
  simp only [Order.id]
  cases found : initiator.table.descriptor? id with
  | none =>
    rw [found] at h
    exact .runs .asIs (transaction_transacts h)
  | some entry =>
    simp only [found] at h
    by_cases large : entry.requestSize < data.length
    · rw [if_pos large] at h
      obtain ⟨rfl, same⟩ := h.done_inv
      cases same
      simp only [Nat.not_le_of_lt large, decide_false, Option.isNone_some, Bool.or_false]
      exact .unfit .asIs rfl
    · rw [if_neg large] at h
      simp only [Nat.le_of_not_lt large, decide_true, Bool.or_true]
      exact .runs (.request _ found) (transaction_transacts h)

theorem toTransactionError_unfit (capacity : Nat) (error : EncodeError) :
    (error.toTransactionError capacity).unfit = true := by
  cases error <;> rfl

theorem sendValue_carries {schema : Schema} {value : schema.Value}
    (h : Program.Leads (initiator.sendValue now id schema value) calls (.done (result, after))) :
    Carries initiator now id true (initiator.enters (.sendValue id schema value)) calls result
      after := by
  unfold sendValue at h
  unfold enters reaches
  simp only [Order.id]
  cases found : initiator.table.descriptor? id with
  | none =>
    rw [found] at h
    exact .runs .asIs (transaction_transacts h)
  | some entry =>
    simp only [found] at h
    simp only [Option.isNone_some, Bool.false_or]
    have unfit (error : TransactionError)
        (failed : (encodePayload schema value (List.replicate entry.requestSize 0)).1 =
          .error error) : error.unfit = true := by
      unfold encodePayload at failed
      generalize schema.encodeInto value _ = encoded at failed
      obtain ⟨_ | error, written⟩ := encoded
      · cases failed
        exact toTransactionError_unfit _ _
      · cases failed
    cases encoded : (encodePayload schema value (List.replicate entry.requestSize 0)).1 with
    | error error =>
      simp only [encoded] at h
      obtain ⟨rfl, same⟩ := h.done_inv
      cases same
      exact .unfit (.request _ found) (unfit error encoded)
    | ok count =>
      simp only [encoded] at h
      exact .runs (.request _ found) (transaction_transacts h)

/-- An exchange is the order that sends its data, with the same outcome. -/
theorem exchange_carries {data out rest : List UInt8} {copied : Except TransactionError Nat}
    (h : Program.Leads (initiator.exchange now id data out) calls (.done (copied, rest, after))) :
    Carries initiator now id true (initiator.enters (.exchange id data out)) calls
      (copied.map fun _ => ()) after := by
  obtain ⟨sending, copying, ⟨sent, ready⟩, rfl, sends, copies⟩ := Program.Leads.of_bind h
  have carries := sendData_carries sends
  suffices ended : copying = [] ∧ after = ready ∧ copied.map (fun _ => ()) = sent by
    obtain ⟨rfl, rfl, rfl⟩ := ended
    rw [List.append_nil]
    exact carries
  cases sent with
  | error error =>
    obtain ⟨rfl, same⟩ := copies.done_inv
    cases same
    exact ⟨rfl, rfl, rfl⟩
  | ok done =>
    have known : ready.table.reply? id ≠ none := by
      generalize initiator.enters _ = entered at carries
      generalize fine : Except.ok done = outcome at carries
      cases carries with
      | unfit _ _ => cases fine
      | runs _ transacts => exact transacts.reply?_ne_none fine.symm
    dsimp only at copies
    cases reply : ready.table.reply? id with
    | none => exact absurd reply known
    | some bytes =>
      rw [reply] at copies
      obtain ⟨rfl, same⟩ := copies.done_inv
      cases same
      exact ⟨rfl, rfl, rfl⟩

theorem perform_carries {order : Order}
    (h : Program.Leads (initiator.perform now order) calls (.done (result, after))) :
    Carries initiator now order.id order.fills (initiator.enters order) calls result after := by
  cases order with
  | transaction id =>
    have entered : initiator.enters (.transaction id) = true := by
      unfold enters reaches
      simp only [Order.id]
      cases initiator.table.descriptor? id <;> rfl
    rw [entered]
    exact .runs .asIs (transaction_transacts h)
  | sendData id data => exact sendData_carries h
  | sendValue id schema value => exact sendValue_carries h
  | exchange id data out =>
    obtain ⟨exchanging, none_left, ⟨copied, rest, final⟩, rfl, exchanges, ended⟩ :=
      Program.Leads.of_bind h
    obtain ⟨rfl, same⟩ := ended.done_inv
    cases same
    rw [List.append_nil]
    exact exchange_carries exchanges

end Initiator
end SplitKeyboard
