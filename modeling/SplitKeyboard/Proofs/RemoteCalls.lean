import SplitKeyboard.Proofs.Confinement
import SplitKeyboard.Proofs.Initiator.Job

/-!
What remote calls send and what they hand back. Sending data is the transaction that is made once
the request holds the data and zeros behind it, so nothing of an older request can go out. An
exchange makes the calls of sending its data, and writes to its output only when all went well.
-/
namespace SplitKeyboard

/-- Of two writes to one place only the last is seen, if it covers the first. -/
theorem splice_splice {memory first last : List UInt8} {offset : Nat}
    (covered : first.length ≤ last.length) :
    splice (splice memory offset first) offset last = splice memory offset last := by
  apply List.ext_getElem?
  intro i
  rw [getElem?_splice, getElem?_splice, getElem?_splice, length_splice]
  split
  · rfl
  · next outside => rw [if_neg (by omega)]

theorem Table.writeRequest_writeRequest {Handler : Type} (table : Table Handler)
    (entry : Descriptor Handler) {old bytes : List UInt8} (full : entry.requestSize ≤ bytes.length) :
    (table.writeRequest entry old).writeRequest entry bytes = table.writeRequest entry bytes := by
  have covered : (old.take entry.requestSize).length ≤ (bytes.take entry.requestSize).length := by
    rw [List.length_take, List.length_take]
    omega
  simp only [writeRequest, splice_splice covered]

/-- The front that is overlaid is new, as far as both reach, and what lies behind it is old. -/
theorem take_overlay (bytes buffer : List UInt8) :
    (overlay bytes buffer).take (min bytes.length buffer.length) =
      bytes.take (min bytes.length buffer.length) := by
  rw [overlay, List.take_append_of_le_length (by simp [Nat.min_comm]), List.take_take]
  congr 1
  omega

theorem drop_overlay (bytes buffer : List UInt8) :
    (overlay bytes buffer).drop (min bytes.length buffer.length) =
      buffer.drop (min bytes.length buffer.length) := by
  rw [overlay, List.drop_append, List.length_take, List.drop_of_length_le (by simp [Nat.min_comm]),
    List.nil_append, List.drop_drop]
  by_cases long : bytes.length ≤ buffer.length
  · congr 1
    omega
  · rw [List.drop_of_length_le (by omega), List.drop_of_length_le (by omega)]

/-- The bytes that a request puts on the wire. -/
def SerialRequest.data? : SerialRequest → Option (List UInt8)
  | .write data _ => some data
  | _ => none

/-- All that is put on the wire, write by write. -/
def writes (calls : List SerialExchange) : List (List UInt8) :=
  (calls.map Sigma.fst).filterMap SerialRequest.data?

theorem writes_append (first last : List SerialExchange) :
    writes (first ++ last) = writes first ++ writes last := by
  rw [writes, List.map_append, List.filterMap_append]
  rfl

/-- What a transaction writes that goes well: its ID, and its request unless that is empty. -/
def allWrites (id : TransactionId) (request : List UInt8) : List (List UInt8) :=
  [id] :: if request = [] then [] else [request]

theorem flatten_allWrites (id : TransactionId) (request : List UInt8) :
    (allWrites id request).flatten = id :: request := by
  unfold allWrites
  split
  · next nothing => rw [nothing]; rfl
  · rw [List.flatten_cons, List.flatten_singleton]
    rfl

namespace Link

theorem data?_sending {κ : Type} (link : Link) (label : κ) (data : List UInt8) :
    ((link.sending label data).map Step.request).filterMap SerialRequest.data? = [data] := by
  unfold sending
  split <;> rfl

theorem data?_agenda (link : Link) (id : TransactionId) (request : List UInt8) (replySize : Nat) :
    ((link.agenda id request replySize).map Step.request).filterMap SerialRequest.data? =
      allWrites id request := by
  have opening : ((link.opening id).map Step.request).filterMap SerialRequest.data? = [[id]] := by
    rw [Link.opening, List.map_append, List.filterMap_append, data?_sending]
    rfl
  have requesting : ((link.requesting request).map Step.request).filterMap SerialRequest.data? =
      if request = [] then [] else [request] := by
    unfold Link.requesting
    split
    · rfl
    · exact data?_sending _ _ _
  have collecting : ((link.collecting replySize).map Step.request).filterMap SerialRequest.data? =
      [] := by
    unfold Link.collecting
    split <;> rfl
  simp only [Link.agenda, List.map_append, List.filterMap_append, opening, requesting, collecting,
    List.append_nil, List.singleton_append, allWrites]

end Link

namespace Initiator

variable {Handler : Type} {initiator after : Initiator Handler} {now : Millis} {id : TransactionId}
  {entry : Descriptor Handler} {calls : List SerialExchange} {data out : List UInt8}
  {result : Except TransactionError Unit}

/-- A transaction writes no more than its ID and the request in its table, in this order, and both
if it goes well. -/
theorem Transacts.writes (found : initiator.table.descriptor? id = some entry)
    (transacts : Transacts initiator now id calls result after) :
    let all := allWrites id (initiator.table.requestOf entry)
    SplitKeyboard.writes calls <+: all ∧ (result = .ok () → SplitKeyboard.writes calls = all) := by
  intro all
  cases transacts with
  | refused refused => exact ⟨List.nil_prefix, fun fine => nomatch fine⟩
  | @converses own conversing conversation permitted conversed =>
    have same : own = entry :=
      Option.some.inj ((permit_eq_ok_iff.mp permitted).1.symm.trans found)
    subst same
    obtain ⟨stop, follows, rfl⟩ := Link.converse_follows conversed
    obtain ⟨within, whole⟩ := follows.requests
    have dropped : SplitKeyboard.writes (dropping (initiator.link.verdict stop)) = [] := by
      unfold dropping
      split <;> rfl
    rw [writes_append, dropped, List.append_nil, SplitKeyboard.writes]
    have agenda := initiator.link.data?_agenda id (initiator.table.requestOf own) own.replySize
    constructor
    · have sent := within.filterMap SerialRequest.data?
      rwa [agenda] at sent
    · intro fine
      rw [whole (Link.verdict_eq_ok_iff.mp fine), agenda]

/-- The initiator whose request of `id` is the data and zeros behind it. -/
abbrev filled (initiator : Initiator Handler) (now : Millis) (id : TransactionId)
    (entry : Descriptor Handler) (data : List UInt8) : Initiator Handler :=
  initiator.load ⟨now, id, zeroPadded data entry.requestSize⟩

theorem filled_eq (found : initiator.table.descriptor? id = some entry) :
    initiator.filled now id entry data = { initiator with
      table := initiator.table.writeRequest entry (zeroPadded data entry.requestSize) } :=
  load_eq found

theorem sendData_unknown (unknown : initiator.table.descriptor? id = none) :
    initiator.sendData now id data = initiator.transaction now id := by
  rw [sendData, unknown]

theorem sendData_tooLarge (found : initiator.table.descriptor? id = some entry)
    (large : entry.requestSize < data.length) : initiator.sendData now id data =
      .done (.error (.payloadTooLarge data.length entry.requestSize), initiator) := by
  simp only [sendData, found, if_pos large]

theorem sendData_fitting (found : initiator.table.descriptor? id = some entry)
    (fits : data.length ≤ entry.requestSize) :
    initiator.sendData now id data = (initiator.filled now id entry data).transaction now id := by
  rw [filled_eq found]
  simp only [sendData, found, if_neg (Nat.not_lt.mpr fits)]

theorem length_zeroPadded (fits : data.length ≤ entry.requestSize) :
    (zeroPadded data entry.requestSize).length = entry.requestSize := by
  simp only [zeroPadded, List.length_append, List.length_replicate]
  omega

/-- What it is to send data that the request of an entry has room for. -/
structure Sends (initiator : Initiator Handler) (now : Millis) (id : TransactionId)
    (entry : Descriptor Handler) (data : List UInt8) : Prop where
  /-- It is a transaction, after the request has been set and nothing else. -/
  same : initiator.sendData now id data = (initiator.filled now id entry data).transaction now id
  request : (initiator.filled now id entry data).table.request? id =
    some (data ++ List.replicate (entry.requestSize - data.length) 0)
  spares : initiator.table.Spares id (· = .payload .request)
    (initiator.filled now id entry data).table
  rest : initiator.filled now id entry data =
    { initiator with table := (initiator.filled now id entry data).table }
  /-- What the request held before makes no difference to anything. -/
  forgets : ∀ old : List UInt8,
    ({ initiator with table := initiator.table.writeRequest entry old } : Initiator Handler).sendData
      now id data = initiator.sendData now id data
  /-- On any device it writes no more than the ID, the data and the zeros, and all of it if it goes
  well. -/
  wire : ∀ {σ : Type} (answer : SerialAnswer σ) (s : σ),
    let all := allWrites id (data ++ List.replicate (entry.requestSize - data.length) 0)
    writes ((initiator.sendData now id data).trace answer s) <+: all ∧
      (((initiator.sendData now id data).run answer s).1.1 = .ok () →
        writes ((initiator.sendData now id data).trace answer s) = all)

theorem sendData_sends (built : initiator.table.Built)
    (found : initiator.table.descriptor? id = some entry) (fits : data.length ≤ entry.requestSize) :
    initiator.Sends now id entry data := by
  have full := length_zeroPadded fits
  have same : initiator.sendData now id data = _ := sendData_fitting found fits
  have ready : (initiator.filled now id entry data).table.descriptor? id = some entry :=
    descriptor?_load found
  have request : (initiator.filled now id entry data).table.requestOf entry =
      data ++ List.replicate (entry.requestSize - data.length) 0 :=
    requestOf_load built found full
  constructor
  case same => exact same
  case request =>
    rw [Table.request?, ready, Option.map_some, request]
  case spares =>
    rw [filled_eq found]
    exact (Table.confined_write found .request _).spares built
  case rest => rw [filled_eq found]
  case forgets =>
    intro old
    have known : ({ initiator with table := initiator.table.writeRequest entry old } :
        Initiator Handler).table.descriptor? id = some entry := found
    rw [sendData_fitting known fits, same, filled_eq known, filled_eq found]
    simp only [Table.writeRequest_writeRequest _ _ (Nat.le_of_eq full.symm)]
  case wire =>
    intro σ answer s all
    have leads := Program.leads_trace answer (initiator.sendData now id data) s
    rw [same] at leads ⊢
    have written := (transaction_transacts leads).writes ready
    rwa [request] at written

/-- Data that is sent with success has an entry, whose reply is then in the table. -/
theorem sendData_brings (built : initiator.table.Built)
    (h : Program.Leads (initiator.sendData now id data) calls (.done (.ok (), after))) :
    ∃ entry reply, initiator.table.descriptor? id = some entry ∧
      after.table.reply? id = some reply ∧ reply.length = entry.replySize := by
  have carries := sendData_carries h
  have kept := carries.built built
  generalize initiator.enters _ = entered at carries
  generalize fine : Except.ok () = result at carries
  cases carries with
  | unfit prepared unfit => cases fine
  | @runs table _ _ _ prepared transacts =>
    have known := transacts.reply?_ne_none fine.symm
    have same : after.table.descriptor? id = initiator.table.descriptor? id := by
      rw [transacts.descriptor?_eq]
      cases prepared <;> rfl
    cases found : after.table.descriptor? id with
    | none => exact absurd (by rw [Table.reply?, found]; rfl) known
    | some entry =>
      refine ⟨entry, after.table.replyOf entry, same.symm.trans found, ?_, ?_⟩
      · rw [Table.reply?, found, Option.map_some]
      · exact kept.length_replyOf found

/-- What an exchange does on a device, next to sending its data there. -/
structure Exchanges (initiator : Initiator Handler) (now : Millis) (id : TransactionId)
    (data out : List UInt8) {σ : Type} (answer : SerialAnswer σ) (s : σ) : Prop where
  /-- Its calls, what becomes of the device and what becomes of the initiator. -/
  calls : (initiator.exchange now id data out).trace answer s =
    (initiator.sendData now id data).trace answer s
  device : ((initiator.exchange now id data out).run answer s).2 =
    ((initiator.sendData now id data).run answer s).2
  after : ((initiator.exchange now id data out).run answer s).1.2.2 =
    ((initiator.sendData now id data).run answer s).1.2
  /-- A failure is that of sending, and the output is as it was. -/
  failed : ∀ error, ((initiator.exchange now id data out).run answer s).1.1 = .error error →
    ((initiator.sendData now id data).run answer s).1.1 = .error error ∧
      ((initiator.exchange now id data out).run answer s).1.2.1 = out
  /-- On success as much of the reply as fits is at the front of the output. -/
  copied : ∀ count, ((initiator.exchange now id data out).run answer s).1.1 = .ok count →
    ((initiator.sendData now id data).run answer s).1.1 = .ok () ∧
      ∃ entry reply, initiator.table.descriptor? id = some entry ∧
        ((initiator.exchange now id data out).run answer s).1.2.2.table.reply? id = some reply ∧
        count = min entry.replySize out.length ∧
        ((initiator.exchange now id data out).run answer s).1.2.1.take count = reply.take count ∧
        ((initiator.exchange now id data out).run answer s).1.2.1.drop count = out.drop count

/-- What follows the sending asks nothing of the device: a failure is passed on, or the reply is
copied to the output. -/
theorem exchange_ended {σ : Type} (built : initiator.table.Built) (now : Millis)
    (id : TransactionId) (data out : List UInt8) (answer : SerialAnswer σ) (s : σ) :
    let ((sent, after), device) := (initiator.sendData now id data).run answer s
    ∃ copied left,
      (initiator.exchange now id data out).trace answer s =
        (initiator.sendData now id data).trace answer s ∧
      (initiator.exchange now id data out).run answer s = ((copied, left, after), device) ∧
      ((∃ error, sent = .error error ∧ copied = .error error ∧ left = out) ∨
        sent = .ok () ∧ ∃ entry reply, initiator.table.descriptor? id = some entry ∧
          after.table.reply? id = some reply ∧ reply.length = entry.replySize ∧
          copied = .ok (min reply.length out.length) ∧ left = overlay reply out) := by
  have leads := Program.leads_trace answer (initiator.sendData now id data) s
  unfold exchange
  change ∃ copied left, ((initiator.sendData now id data).bind _).trace answer s = _ ∧
    ((initiator.sendData now id data).bind _).run answer s = _ ∧ _
  rw [Program.trace_bind, Program.run_bind]
  generalize (initiator.sendData now id data).run answer s = ran at leads
  obtain ⟨⟨result, after⟩, device⟩ := ran
  cases result with
  | error error => exact ⟨_, _, List.append_nil _, rfl, .inl ⟨error, rfl, rfl, rfl⟩⟩
  | ok done =>
    obtain ⟨entry, reply, found, replied, full⟩ := sendData_brings built leads
    dsimp only
    rw [replied]
    exact ⟨_, _, List.append_nil _, rfl, .inr ⟨rfl, entry, reply, found, rfl, full, rfl, rfl⟩⟩

theorem exchange_exchanges {σ : Type} (built : initiator.table.Built) (now : Millis)
    (id : TransactionId) (data out : List UInt8) (answer : SerialAnswer σ) (s : σ) :
    initiator.Exchanges now id data out answer s := by
  obtain ⟨copied, left, same_calls, same, outcome⟩ :=
    exchange_ended built now id data out answer s
  constructor
  case calls => exact same_calls
  case device => rw [same]
  case after => rw [same]
  case failed =>
    intro error failed
    rw [same] at failed ⊢
    rcases outcome with ⟨_, sent, rfl, rfl⟩ | ⟨_, _, _, _, _, _, rfl, _⟩
    · cases failed
      exact ⟨sent, rfl⟩
    · cases failed
  case copied =>
    intro count fine
    rw [same] at fine ⊢
    rcases outcome with ⟨_, _, rfl, _⟩ | ⟨sent, entry, reply, found, replied, full, rfl, rfl⟩
    · cases fine
    · cases fine
      refine ⟨sent, entry, reply, found, replied, by rw [full], ?_, ?_⟩
      · exact take_overlay reply out
      · exact drop_overlay reply out

/-- A remote call whose data is too long is refused before anything happens. Any other sends its
data and zeros in place of whatever its request held, and an exchange leaves its output alone unless
all goes well. -/
theorem remote_call (initiator : Initiator Handler) (built : initiator.table.Built) (now : Millis)
    (id : TransactionId) (data out : List UInt8) :
    (∀ entry, initiator.table.descriptor? id = some entry → entry.requestSize < data.length →
      let error := TransactionError.payloadTooLarge data.length entry.requestSize
      initiator.sendData now id data = .done (.error error, initiator) ∧
        initiator.exchange now id data out = .done (.error error, out, initiator)) ∧
    (initiator.table.descriptor? id = none →
      initiator.sendData now id data = initiator.transaction now id) ∧
    (∀ entry, initiator.table.descriptor? id = some entry → data.length ≤ entry.requestSize →
      initiator.Sends now id entry data) ∧
    ∀ {σ : Type} (answer : SerialAnswer σ) (s : σ),
      initiator.Exchanges now id data out answer s := by
  refine ⟨?_, sendData_unknown, fun entry => sendData_sends built, ?_⟩
  · intro entry found large error
    have refused : initiator.sendData now id data = _ := sendData_tooLarge found large
    refine ⟨refused, ?_⟩
    unfold exchange
    rw [refused]
    rfl
  · intro σ answer s
    exact exchange_exchanges built now id data out answer s

/-- An exchange of two bytes for a request of four. On a line that breaks off in the reply the output
stays, and else it begins with the whole reply. -/
theorem remote_call_broken_off :
    let table : Table Unit := [.register 1 4 3 none].foldl Table.edit (.empty 2 7)
    let initiator : Initiator Unit := .ofConfig {} table
    let answer (reply : List UInt8) : SerialAnswer Unit := fun request _ =>
      match request with
      | .write data _ => (some data.length, ())
      | .read 1 _ => (⟨[6], some 1⟩, ())
      | .read _ _ => (⟨reply, some reply.length⟩, ())
      | .skip count _ => (some count, ())
      | .clear => ((), ())
    let out : List UInt8 := [0xAA, 0xAA, 0xAA, 0xAA]
    let made (reply : List UInt8) := (initiator.exchange 0 1 [1, 2] out).run (answer reply) ()
    let sent (reply : List UInt8) := writes ((initiator.sendData 0 1 [1, 2]).trace (answer reply) ())
    initiator.table.Built ∧
      (made [7, 8]).1.1 = .error (.noResponse .receivingPayload) ∧ (made [7, 8]).1.2.1 = out ∧
      sent [7, 8] <+: [[1], [1, 2, 0, 0]] ∧
      (made [7, 8, 9]).1.1 = .ok 3 ∧ (made [7, 8, 9]).1.2.1 = [7, 8, 9, 0xAA] ∧
      sent [7, 8, 9] = [[1], [1, 2, 0, 0]] := by
  intro table initiator answer out
  dsimp only
  have nothing : (Table.empty 2 7 : Table Unit).Built := .empty 2 (by decide)
  have built : initiator.table.Built :=
    (Table.directory_edits nothing rfl rfl rfl [.register 1 4 3 none]).1
  obtain ⟨_, _, sends, exchanges⟩ := remote_call initiator built 0 1 [1, 2] out
  have sending := sends ⟨1, 0, 4, 3, .idle, none⟩ rfl (by decide)
  have broken := exchanges (answer [7, 8]) ()
  have whole := exchanges (answer [7, 8, 9]) ()
  have failed : ((initiator.exchange 0 1 [1, 2] out).run (answer [7, 8]) ()).1.1 =
      .error (.noResponse .receivingPayload) := rfl
  have fine : ((initiator.exchange 0 1 [1, 2] out).run (answer [7, 8, 9]) ()).1.1 = .ok 3 := rfl
  obtain ⟨went, _, reply, _, replied, _, front, back⟩ := whole.copied 3 fine
  have brought : reply = [7, 8, 9] := (Option.some.inj replied).symm
  refine ⟨built, failed, (broken.failed _ failed).2, (sending.wire (answer [7, 8]) ()).1, fine, ?_,
    (sending.wire (answer [7, 8, 9]) ()).2 went⟩
  rw [← List.take_append_drop 3 (Prod.fst _), front, back, brought]
  rfl

end Initiator
end SplitKeyboard
