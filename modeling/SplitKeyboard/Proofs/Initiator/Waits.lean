import Mathlib.Algebra.GroupWithZero.Nat
import Mathlib.Tactic.Common
import SplitKeyboard.Proofs.Initiator.Calls

/-!
How long one transaction may keep its caller waiting: the timeouts of all its calls on the device,
phase by phase. A phase that reads waits for one timeout at most. A phase that sends does so too,
unless the line is half-duplex and its bytes have gone out: the drop of their echo is given a
timeout of its own.
-/
namespace SplitKeyboard

/-- The milliseconds that these calls may wait, all of them together. -/
def allowance (calls : List SerialExchange) : Nat :=
  (calls.map fun call => call.1.timeout.toNat).sum

theorem allowance_append (first last : List SerialExchange) :
    allowance (first ++ last) = allowance first + allowance last := by
  simp [allowance]

theorem toNat_pos_iff {ms : UInt32} : 0 < ms.toNat ↔ ms ≠ 0 := by
  rw [Nat.pos_iff_ne_zero]
  exact (UInt32.toNat_inj (a := ms) (b := 0)).not

namespace Link

/-- These calls sent `data` and went on to drop its echo. -/
def DropsEcho (link : Link) (data : List UInt8) (calls : List SerialExchange) : Prop :=
  link.duplex = .half ∧ ∃ dropped, calls = [⟨.write data link.timeout, some data.length⟩,
    ⟨.skip data.length link.timeout, dropped⟩]

/-- The calls of a phase that sends: it was not reached, or ended with the write, or went on to the
echo. -/
def Sends (link : Link) (data : List UInt8) (calls : List SerialExchange) : Prop :=
  calls = [] ∨ (∃ written, calls = [⟨.write data link.timeout, written⟩]) ∨
    link.DropsEcho data calls

/-- The calls of a phase that reads: it was not reached, or made one read. -/
def Reads (link : Link) (count : Nat) (calls : List SerialExchange) : Prop :=
  calls = [] ∨ ∃ delivery : Delivery, calls = [⟨.read count link.timeout, delivery⟩]

section Phases

variable {link : Link} {data : List UInt8} {calls : List SerialExchange}

theorem not_dropsEcho_nil : ¬ link.DropsEcho data [] := by
  rintro ⟨_, _, none_made⟩
  cases none_made

theorem DropsEcho.allowance_eq (echo : link.DropsEcho data calls) :
    allowance calls = 2 * link.timeout.toNat := by
  obtain ⟨half, dropped, rfl⟩ := echo
  simp [allowance, SerialRequest.timeout]
  omega

/-- A phase that sends gives out more than one timeout only for the echo. -/
theorem Sends.allowance_le (sends : link.Sends data calls) (kept : ¬ link.DropsEcho data calls) :
    allowance calls ≤ link.timeout.toNat := by
  obtain rfl | ⟨written, rfl⟩ | echo := sends
  · exact Nat.zero_le _
  · simp [allowance, SerialRequest.timeout]
  · exact absurd echo kept

theorem Sends.exceeds_iff (sends : link.Sends data calls) :
    link.timeout.toNat < allowance calls ↔ link.timeout ≠ 0 ∧ link.DropsEcho data calls := by
  by_cases echo : link.DropsEcho data calls
  · simp only [echo, and_true, echo.allowance_eq, ← toNat_pos_iff]
    omega
  · have within := sends.allowance_le echo
    simp only [echo, and_false, iff_false]
    omega

theorem Reads.allowance_le {count : Nat} (reads : link.Reads count calls) :
    allowance calls ≤ link.timeout.toNat := by
  obtain rfl | ⟨delivery, rfl⟩ := reads
  · exact Nat.zero_le _
  · simp [allowance, SerialRequest.timeout]

end Phases

section Follows

variable {link : Link} {calls : List SerialExchange} {stop : Option Phase}

/-- On a half-duplex line a phase that sends cannot end well without the drop of the echo. -/
theorem sends_of_follows {label : Phase} {data : List UInt8}
    (follows : Follows (link.sending label data) calls stop) :
    link.Sends data calls ∧ (stop = none → link.duplex = .half → link.DropsEcho data calls) := by
  unfold sending at follows
  cases follows with
  | cut refused => exact ⟨.inr (.inl ⟨_, rfl⟩), fun went_on => nomatch went_on⟩
  | goes met left =>
    cases met
    split at left
    · next half =>
      have echo (dropped : Option Nat) : link.DropsEcho data
          [⟨.write data link.timeout, some data.length⟩,
            ⟨.skip data.length link.timeout, dropped⟩] := ⟨half, dropped, rfl⟩
      cases left with
      | cut refused => exact ⟨.inr (.inr (echo _)), fun _ _ => echo _⟩
      | goes gone done =>
        cases done
        exact ⟨.inr (.inr (echo _)), fun _ _ => echo _⟩
    · next full =>
      cases left
      exact ⟨.inr (.inl ⟨_, rfl⟩), fun _ half => absurd half full⟩

theorem reads_of_follows {label : Phase} {count : Nat} {accepts : List UInt8 → Prop}
    (follows : Follows [.read label count link.timeout accepts] calls stop) :
    link.Reads count calls := by
  cases follows with
  | cut refused => exact .inr ⟨_, rfl⟩
  | goes met left =>
    cases left
    exact .inr ⟨_, rfl⟩

/-- The calls of an opening. After a whole one the ID has been sent, with its echo, and a token has
been read. -/
theorem opened_of_follows {id : TransactionId}
    (follows : Follows (link.opening id) calls stop) :
    ∃ sent awaited, calls = sent ++ awaited ∧ link.Sends [id] sent ∧ link.Reads 1 awaited ∧
      (stop = none → (link.duplex = .half → link.DropsEcho [id] sent) ∧ awaited ≠ []) := by
  obtain ⟨sent, awaited, rfl, ⟨sentId, answered⟩ | ⟨sentId, stopped, rfl⟩⟩ := follows.parts
  · obtain ⟨sends, echoed⟩ := sends_of_follows sentId
    refine ⟨sent, awaited, rfl, sends, reads_of_follows answered, ?_⟩
    rintro rfl
    obtain ⟨delivery, rfl, _⟩ := answered.read_inv
    exact ⟨echoed rfl, List.cons_ne_nil _ _⟩
  · exact ⟨sent, [], rfl, (sends_of_follows sentId).1, .inl rfl,
      fun went_on => absurd went_on stopped⟩

theorem sends_of_requesting {request : List UInt8}
    (follows : Follows (link.requesting request) calls stop) :
    link.Sends request calls ∧
      (stop = none → link.duplex = .half → link.DropsEcho request calls ∨ calls = []) := by
  unfold requesting at follows
  split at follows
  · cases follows
    exact ⟨.inl rfl, fun _ _ => .inr rfl⟩
  · obtain ⟨sends, echo⟩ := sends_of_follows follows
    exact ⟨sends, fun went_on half => .inl (echo went_on half)⟩

theorem reads_of_collecting {replySize : Nat}
    (follows : Follows (link.collecting replySize) calls stop) : link.Reads replySize calls := by
  unfold collecting at follows
  split at follows
  · cases follows
    exact .inl rfl
  · exact reads_of_follows follows

end Follows
end Link

/-- The calls of one transaction, by the phase that makes them. -/
structure PhaseCalls where
  sendingId : List SerialExchange := []
  awaitingHandshake : List SerialExchange := []
  sendingPayload : List SerialExchange := []
  receivingPayload : List SerialExchange := []
  /-- After a failure the input is dropped, which does not wait. -/
  clearing : List SerialExchange := []

namespace PhaseCalls

def all (phases : PhaseCalls) : List SerialExchange :=
  phases.sendingId ++ phases.awaitingHandshake ++ phases.sendingPayload ++
    phases.receivingPayload ++ phases.clearing

/-- Each phase makes its own calls or none. What is sent last on a half-duplex line has had its echo
dropped if anything is called after it. -/
structure Of (phases : PhaseCalls) (link : Link) (id : TransactionId) (request : List UInt8)
    (replySize : Nat) : Prop where
  sendingId : link.Sends [id] phases.sendingId
  awaitingHandshake : link.Reads 1 phases.awaitingHandshake
  sendingPayload : link.Sends request phases.sendingPayload
  receivingPayload : link.Reads replySize phases.receivingPayload
  clearing : phases.clearing = [] ∨ phases.clearing = [⟨.clear, ()⟩]
  /-- On a half-duplex line a reply is read only after the echo of the request, if there is one. -/
  echoFirst : link.duplex = .half → link.DropsEcho request phases.sendingPayload ∨
    phases.sendingPayload = [] ∨ phases.receivingPayload = []
  /-- A request is sent only after the ID, with its echo. -/
  idFirst : link.DropsEcho request phases.sendingPayload →
    link.DropsEcho [id] phases.sendingId ∧ phases.awaitingHandshake ≠ []

section Of

variable {phases : PhaseCalls} {link : Link} {id : TransactionId} {request : List UInt8}
  {replySize : Nat}

/-- No calls are those of a transaction that was refused. -/
theorem Of.none_made : ({} : PhaseCalls).Of link id request replySize where
  sendingId := .inl rfl
  awaitingHandshake := .inl rfl
  sendingPayload := .inl rfl
  receivingPayload := .inl rfl
  clearing := .inl rfl
  echoFirst := fun _ => .inr (.inl rfl)
  idFirst := fun echo => absurd echo Link.not_dropsEcho_nil

/-- What is called along the agenda of a conversation, sorted by phase. -/
theorem of_follows {calls : List SerialExchange} {stop : Option Phase}
    (follows : Follows (link.agenda id request replySize) calls stop) :
    ∃ phases : PhaseCalls, calls = phases.all ∧ phases.clearing = [] ∧
      phases.Of link id request replySize := by
  obtain ⟨opening, later, rfl, ⟨greeted, talked⟩ | ⟨part, _, rfl⟩⟩ := follows.parts
  · obtain ⟨sent, awaited, rfl, sends, token, whole⟩ := Link.opened_of_follows greeted
    obtain ⟨echoed, token_came⟩ := whole rfl
    obtain ⟨asked, collected, rfl, parts⟩ := talked.parts
    refine ⟨⟨sent, awaited, asked, collected, []⟩, by simp [all], rfl, ?_⟩
    have idFirst (echo : link.DropsEcho request asked) :
        link.DropsEcho [id] sent ∧ awaited ≠ [] := ⟨echoed echo.1, token_came⟩
    rcases parts with ⟨requested, received⟩ | ⟨requested, _, rfl⟩
    · obtain ⟨asks, asked_whole⟩ := Link.sends_of_requesting requested
      exact {
        sendingId := sends
        awaitingHandshake := token
        sendingPayload := asks
        receivingPayload := Link.reads_of_collecting received
        clearing := .inl rfl
        echoFirst := fun half => (asked_whole rfl half).imp_right .inl
        idFirst }
    · exact {
        sendingId := sends
        awaitingHandshake := token
        sendingPayload := (Link.sends_of_requesting requested).1
        receivingPayload := .inl rfl
        clearing := .inl rfl
        echoFirst := fun _ => .inr (.inr rfl)
        idFirst }
  · obtain ⟨sent, awaited, rfl, sends, token, _⟩ := Link.opened_of_follows part
    refine ⟨⟨sent, awaited, [], [], []⟩, by simp [all], rfl, ?_⟩
    have nothing : ({} : PhaseCalls).Of link id request replySize := .none_made
    exact { nothing with
      sendingId := sends
      awaitingHandshake := token
      idFirst := fun echo => absurd echo Link.not_dropsEcho_nil }

theorem Of.allowance_all (of : phases.Of link id request replySize) :
    allowance phases.all = allowance phases.sendingId + allowance phases.awaitingHandshake +
      allowance phases.sendingPayload + allowance phases.receivingPayload := by
  have clearing : allowance phases.clearing = 0 := by
    obtain none_left | dropped := of.clearing
    · rw [none_left]
      rfl
    · rw [dropped]
      rfl
  simp only [all, allowance_append, clearing, Nat.add_zero]

/-- Up to the echo of the request four timeouts are enough in either wiring. -/
theorem Of.allowance_le (of : phases.Of link id request replySize)
    (kept : ¬ link.DropsEcho request phases.sendingPayload) :
    allowance phases.all ≤ 4 * link.timeout.toNat := by
  have asked := of.sendingPayload.allowance_le kept
  have token := of.awaitingHandshake.allowance_le
  have reply := of.receivingPayload.allowance_le
  rw [of.allowance_all]
  by_cases echo : link.DropsEcho [id] phases.sendingId
  · -- The ID takes two timeouts, but then the line is half-duplex, and the request and its reply
    -- take one between them.
    have between : allowance phases.sendingPayload + allowance phases.receivingPayload ≤
        link.timeout.toNat := by
      obtain sent | unsent | unread := of.echoFirst echo.1
      · exact absurd sent kept
      · rw [unsent]
        simpa [allowance] using reply
      · rw [unread]
        simpa [allowance] using asked
    rw [echo.allowance_eq]
    omega
  · have opened := of.sendingId.allowance_le echo
    omega

theorem Of.allowance_of_echo (of : phases.Of link id request replySize)
    (echo : link.DropsEcho request phases.sendingPayload) :
    5 * link.timeout.toNat ≤ allowance phases.all ∧
      allowance phases.all ≤ 6 * link.timeout.toNat := by
  obtain ⟨opened, awaited⟩ := of.idFirst echo
  have token : allowance phases.awaitingHandshake = link.timeout.toNat := by
    obtain none_read | ⟨delivery, read⟩ := of.awaitingHandshake
    · exact absurd none_read awaited
    · simp [read, allowance, SerialRequest.timeout]
  have reply := of.receivingPayload.allowance_le
  rw [of.allowance_all, opened.allowance_eq, token, echo.allowance_eq]
  omega

theorem Of.exceeds_iff (of : phases.Of link id request replySize) :
    4 * link.timeout.toNat < allowance phases.all ↔
      link.timeout ≠ 0 ∧ link.DropsEcho request phases.sendingPayload := by
  by_cases echo : link.DropsEcho request phases.sendingPayload
  · obtain ⟨least, _⟩ := of.allowance_of_echo echo
    simp only [echo, and_true, ← toNat_pos_iff]
    omega
  · have within := of.allowance_le echo
    simp only [echo, and_false, iff_false]
    omega

theorem Of.allowance_le_of_duplex (of : phases.Of link id request replySize) :
    allowance phases.all ≤ (if link.duplex = .half then 6 else 4) * link.timeout.toNat := by
  by_cases echo : link.DropsEcho request phases.sendingPayload
  · rw [if_pos echo.1]
    exact (of.allowance_of_echo echo).2
  · have within := of.allowance_le echo
    split <;> omega

end Of
end PhaseCalls

namespace Initiator

variable {Handler σ : Type} {initiator : Initiator Handler}

/-- The calls of any transaction, sorted by phase. One that is refused makes none. -/
theorem phases_of_transaction (initiator : Initiator Handler) (answer : SerialAnswer σ) (s : σ)
    (now : Millis) (id : TransactionId) :
    ∃ (phases : PhaseCalls) (request : List UInt8) (replySize : Nat),
      (initiator.transaction now id).trace answer s = phases.all ∧
      phases.Of initiator.link id request replySize ∧
      ∀ entry, initiator.table.descriptor? id = some entry →
        request = initiator.table.requestOf entry ∧ replySize = entry.replySize := by
  cases found : initiator.table.descriptor? id with
  | none =>
    refine ⟨{}, [], 0, ?_, .none_made, fun entry other => nomatch other⟩
    rw [transaction_refused (.inl found)]
    rfl
  | some entry =>
    have entries (other : Descriptor Handler) (same : some entry = some other) :
        initiator.table.requestOf entry = initiator.table.requestOf other ∧
          entry.replySize = other.replySize := by
      cases same
      exact ⟨rfl, rfl⟩
    cases soon : initiator.tooSoon now with
    | true =>
      refine ⟨{}, _, _, ?_, .none_made, entries⟩
      rw [transaction_refused (.inr soon)]
      rfl
    | false =>
      obtain ⟨exchanges, stop, follows, made, _⟩ := transaction_converses found soon
        (Program.leads_trace answer (initiator.transaction now id) s)
      obtain ⟨phases, rfl, kept, of⟩ := PhaseCalls.of_follows follows
      rw [made]
      split
      · exact ⟨phases, _, _, List.append_nil _, of, entries⟩
      · refine ⟨{ phases with clearing := [⟨.clear, ()⟩] }, _, _, ?_,
          { of with clearing := .inr rfl }, entries⟩
        simp [PhaseCalls.all, kept]

/-- A phase hands out one timeout, unless it drops an echo; and a transaction four, unless it drops
that of its request. Both hold against any device and for any table. -/
theorem transaction_waits (answer : SerialAnswer σ) (s : σ) (now : Millis) (id : TransactionId) :
    let link := initiator.link
    let calls := (initiator.transaction now id).trace answer s
    ∃ (phases : PhaseCalls) (request : List UInt8) (replySize : Nat),
      calls = phases.all ∧ phases.Of link id request replySize ∧
      (∀ entry, initiator.table.descriptor? id = some entry →
        request = initiator.table.requestOf entry ∧ replySize = entry.replySize) ∧
      (link.timeout.toNat < allowance phases.sendingId ↔
        link.timeout ≠ 0 ∧ link.DropsEcho [id] phases.sendingId) ∧
      allowance phases.awaitingHandshake ≤ link.timeout.toNat ∧
      (link.timeout.toNat < allowance phases.sendingPayload ↔
        link.timeout ≠ 0 ∧ link.DropsEcho request phases.sendingPayload) ∧
      allowance phases.receivingPayload ≤ link.timeout.toNat ∧
      (4 * link.timeout.toNat < allowance calls ↔
        link.timeout ≠ 0 ∧ link.DropsEcho request phases.sendingPayload) ∧
      allowance calls ≤ (if link.duplex = .half then 6 else 4) * link.timeout.toNat := by
  intro link calls
  obtain ⟨phases, request, replySize, made, of, entries⟩ :=
    phases_of_transaction initiator answer s now id
  refine ⟨phases, request, replySize, made, of, entries, of.sendingId.exceeds_iff,
    of.awaitingHandshake.allowance_le, of.sendingPayload.exceeds_iff,
    of.receivingPayload.allowance_le, ?_, ?_⟩
  · rw [show calls = phases.all from made]
    exact of.exceeds_iff
  · rw [show calls = phases.all from made]
    exact of.allowance_le_of_duplex

/-- On a half-duplex line where everything comes in time, a transaction with a request and a reply
may wait for six timeouts: the two echoes have theirs as well. -/
theorem six_timeouts :
    let initiator : Initiator Unit := .ofConfig {} (.single none)
    let prompt : SerialAnswer Unit := fun request _ =>
      match request with
      | .write data _ => (some data.length, ())
      | .read count _ => (⟨List.replicate count (handshakeToken 1), some count⟩, ())
      | .skip count _ => (some count, ())
      | .clear => ((), ())
    let calls := (initiator.transaction 0 1).trace prompt ()
    ((initiator.transaction 0 1).run prompt ()).1.1 = .ok () ∧
      allowance calls = 6 * initiator.link.timeout.toNat ∧
      ¬ allowance calls ≤ 4 * initiator.link.timeout.toNat := by
  decide

end Initiator
end SplitKeyboard
