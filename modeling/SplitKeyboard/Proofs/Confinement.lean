import SplitKeyboard.Proofs.Initiator.Orders
import SplitKeyboard.Proofs.Table.Directory
import SplitKeyboard.Proofs.Target.Calls

/-!
What the engines leave alone. All payloads share one arena, and a read may put bytes there before it
fails, yet a call only ever touches the entry of the ID that it runs. Each step of an engine gets a
frame: which parts of which entry it may disturb. Frames are put together along the calls of an
engine, and then along any sequence of calls.
-/
namespace SplitKeyboard

/-- The parts of an entry that can change while it is registered. -/
inductive Part where
  | payload (side : Side)
  | status

variable {Handler : Type}

/-- What is fixed of an entry: all but its status. -/
def Descriptor.shape (entry : Descriptor Handler) : Descriptor Handler :=
  { entry with status := .idle }

namespace Table

/-- Nothing differs between two tables but the given parts of the entry of `id`. -/
structure Confined (id : TransactionId) (parts : Part → Prop) (before after : Table Handler) :
    Prop where
  capacity : after.capacity = before.capacity
  used : after.used = before.used
  shape : ∀ other, (after.descriptor? other).map Descriptor.shape =
    (before.descriptor? other).map Descriptor.shape
  status : ∀ other, (other = id → ¬ parts .status) → after.status? other = before.status? other
  arena : ∀ place, (∀ entry side, before.descriptor? id = some entry → parts (.payload side) →
    place ∉ entry.places side) → after.arena[place]? = before.arena[place]?

variable {table before middle after : Table Handler} {id other : TransactionId}
  {entry : Descriptor Handler} {parts more : Part → Prop}

theorem Confined.refl (id : TransactionId) (parts : Part → Prop) (table : Table Handler) :
    Confined id parts table table :=
  ⟨rfl, rfl, fun _ => rfl, fun _ _ => rfl, fun _ _ => rfl⟩

theorem Confined.mono (confined : Confined id parts before after)
    (within : ∀ part, parts part → more part) : Confined id more before after := by
  refine ⟨confined.capacity, confined.used, confined.shape, ?_, ?_⟩
  · intro other untouched
    exact confined.status other fun own allowed => untouched own (within _ allowed)
  · intro place outside
    exact confined.arena place fun entry side found allowed =>
      outside entry side found (within _ allowed)

/-- An entry of the later table is where it was in the earlier one. -/
theorem Confined.earlier (confined : Confined id parts before after)
    (found : after.descriptor? other = some entry) :
    ∃ old, before.descriptor? other = some old ∧ old.shape = entry.shape := by
  have same := confined.shape other
  rw [found, Option.map_some] at same
  exact Option.map_eq_some_iff.mp same.symm

theorem places_eq {old : Descriptor Handler} (same : old.shape = entry.shape) (side : Side) :
    old.places side = entry.places side := by
  have offset : old.offset = entry.offset := congrArg (fun e => e.offset) same
  have requestSize : old.requestSize = entry.requestSize := congrArg (fun e => e.requestSize) same
  have replySize : old.replySize = entry.replySize := congrArg (fun e => e.replySize) same
  cases side <;>
    simp only [Descriptor.places, Descriptor.start, Descriptor.size, Descriptor.replyOffset, offset,
      requestSize, replySize]

theorem Confined.trans (first : Confined id parts before middle)
    (second : Confined id parts middle after) : Confined id parts before after := by
  refine ⟨second.capacity.trans first.capacity, second.used.trans first.used,
    fun other => (second.shape other).trans (first.shape other),
    fun other untouched => (second.status other untouched).trans (first.status other untouched), ?_⟩
  intro place outside
  refine (second.arena place ?_).trans (first.arena place outside)
  intro entry side found allowed
  obtain ⟨old, known, same⟩ := first.earlier found
  rw [← places_eq same]
  exact outside old side known allowed

theorem confined_write (found : table.descriptor? id = some entry) (side : Side)
    (bytes : List UInt8) : Confined id (· = .payload side) table (table.write entry side bytes) := by
  rw [write_eq]
  refine ⟨rfl, rfl, fun _ => rfl, fun _ _ => rfl, ?_⟩
  intro place outside
  have apart := outside entry side found rfl
  rw [Descriptor.places, Finset.mem_Ico] at apart
  have short := List.length_take_le (entry.size side) bytes
  rw [getElem?_splice, if_neg (by omega)]

theorem confined_setStatus (table : Table Handler) (id : TransactionId)
    (status : TransactionStatus) : Confined id (· = .status) table (table.setStatus id status) := by
  have slots : (table.setStatus id status).capacity = table.capacity ∧
      (table.setStatus id status).used = table.used := by
    unfold setStatus
    split
    · exact ⟨List.length_set, rfl⟩
    · exact ⟨rfl, rfl⟩
  refine ⟨slots.1, slots.2, fun other => map_descriptor?_setStatus _ (fun _ _ => rfl) table id other
    status, ?_, fun place _ => by rw [arena_setStatus]⟩
  intro other untouched
  rw [status?, status?, descriptor?_setStatus, if_neg fun own => untouched own rfl]

/-- A part of an entry that was not to be touched leaves the entry as it was. -/
theorem Confined.descriptor? (confined : Confined id parts before after)
    (untouched : other = id → ¬ parts .status) :
    after.descriptor? other = before.descriptor? other := by
  have shape := confined.shape other
  have status := confined.status other untouched
  rw [status?, status?] at status
  cases found : after.descriptor? other with
  | none =>
    rw [found, Option.map_none] at shape
    exact (Option.map_eq_none_iff.mp shape.symm).symm
  | some entry =>
    obtain ⟨old, known, same⟩ := confined.earlier found
    rw [known, found, Option.map_some, Option.map_some, Option.some.injEq] at status
    rw [known, ← show ({ entry.shape with status := entry.status } : Descriptor Handler) = entry
      from rfl, ← same, status]
    rfl

/-- A payload that may not be touched shows what it showed: of another entry, or another side. -/
theorem Confined.window (confined : Confined id parts before after) (built : before.Built)
    (found : before.descriptor? other = some entry) (side : Side)
    (untouched : other = id → ¬ parts (.payload side)) :
    (after.arena.drop (entry.start side)).take (entry.size side) =
      (before.arena.drop (entry.start side)).take (entry.size side) := by
  apply List.ext_getElem?
  intro i
  rw [getElem?_window, getElem?_window]
  split
  · next inside =>
    refine confined.arena (entry.start side + i) fun own touched known allowed => ?_
    have apart : (other, side) ≠ (id, touched) := by
      rintro ⟨⟩
      exact untouched rfl allowed
    refine Finset.disjoint_left.mp
      (built.separate.disjoint other id entry own side touched found known apart) ?_
    rw [Descriptor.places, Finset.mem_Ico]
    omega
  · rfl

/-- The payload of an ID on one side. -/
def payload? (table : Table Handler) (id : TransactionId) : Side → Option (List UInt8)
  | .request => table.request? id
  | .reply => table.reply? id

theorem payload?_eq (table : Table Handler) (id : TransactionId) (side : Side) :
    table.payload? id side = (table.descriptor? id).map fun entry =>
      (table.arena.drop (entry.start side)).take (entry.size side) := by
  cases side <;> rfl

theorem handler?_eq (table : Table Handler) (id : TransactionId) :
    table.handler? id = ((table.descriptor? id).map Descriptor.handler).join := by
  rw [handler?]
  cases table.descriptor? id <;> rfl

theorem writeReply_nil (table : Table Handler) (entry : Descriptor Handler) :
    table.writeReply entry [] = table := by
  simp [writeReply, splice, overlay]

/-- All that is seen of a table is as it was, but for the given parts of one entry. -/
structure Spares (id : TransactionId) (parts : Part → Prop) (before after : Table Handler) :
    Prop where
  payload : ∀ other side, (other = id → ¬ parts (.payload side)) →
    after.payload? other side = before.payload? other side
  status : ∀ other, (other = id → ¬ parts .status) → after.status? other = before.status? other
  sizes : ∀ other, after.sizes? other = before.sizes? other
  handler : ∀ other, after.handler? other = before.handler? other
  others : ∀ other, other ≠ id → after.directory other = before.directory other
  /-- The bytes of the arena, also those that belong to no entry. -/
  arena : ∀ place, (∀ entry side, before.descriptor? id = some entry → parts (.payload side) →
    place ∉ entry.places side) → after.arena[place]? = before.arena[place]?

theorem Confined.spares (confined : Confined id parts before after) (built : before.Built) :
    Spares id parts before after := by
  have alike {α : Type} (view : Descriptor Handler → α) (blind : ∀ entry, view entry.shape = view entry)
      (other : TransactionId) :
      (after.descriptor? other).map view = (before.descriptor? other).map view := by
    have same := congrArg (Option.map view) (confined.shape other)
    rwa [Option.map_map, Option.map_map, show view ∘ Descriptor.shape = view from funext blind]
      at same
  have payload (other : TransactionId) (side : Side)
      (untouched : other = id → ¬ parts (.payload side)) :
      after.payload? other side = before.payload? other side := by
    rw [payload?_eq, payload?_eq]
    have same := alike (fun entry => (entry.start side, entry.size side))
      (fun entry => by cases side <;> rfl) other
    cases found : before.descriptor? other with
    | none =>
      rw [found, Option.map_none, Option.map_eq_none_iff] at same
      rw [same, Option.map_none, Option.map_none]
    | some entry =>
      rw [found, Option.map_some] at same
      obtain ⟨later, known, site⟩ := Option.map_eq_some_iff.mp same
      obtain ⟨start, size⟩ := Prod.mk.inj site
      rw [known, Option.map_some, Option.map_some, start, size,
        confined.window built found side untouched]
  refine ⟨payload, confined.status, alike _ fun _ => rfl, ?_, ?_, confined.arena⟩
  · intro other
    rw [handler?_eq, handler?_eq, alike Descriptor.handler (fun _ => rfl) other]
  · intro other different
    have same := confined.descriptor? fun own => absurd own different
    have request := payload other .request fun own => absurd own different
    have reply := payload other .reply fun own => absurd own different
    rw [payload?_eq, payload?_eq, same] at request reply
    rw [directory, directory, same]
    cases found : before.descriptor? other with
    | none => rfl
    | some entry =>
      rw [found, Option.map_some, Option.map_some, Option.some.injEq] at request reply
      exact congrArg some
        (congrArg₂ (fun asked answer => Listing.mk asked answer entry.status entry.handler) request reply)

end Table

namespace Link

/-- The calls begin with a handshake for `id` that is complete: its token has come. -/
def Accepted (link : Link) (id : TransactionId) (calls : List SerialExchange) : Prop :=
  ∃ opened rest, calls = opened ++ rest ∧ Follows (link.opening id) opened none

theorem Accepted.append {link : Link} {id : TransactionId} {calls : List SerialExchange}
    (accepted : link.Accepted id calls) (more : List SerialExchange) :
    link.Accepted id (calls ++ more) := by
  obtain ⟨opened, rest, rfl, follows⟩ := accepted
  exact ⟨opened, rest ++ more, List.append_assoc .., follows⟩

/-- Nothing comes of a reply before the token has come. -/
theorem converse_reply {link : Link} {id : TransactionId} {request : List UInt8} {replySize : Nat}
    {calls : List SerialExchange} {conversation : Conversation}
    (h : Program.Leads (link.converse id request replySize) calls (.done conversation)) :
    conversation.reply = [] ∨ link.Accepted id calls := by
  obtain ⟨opened, later, greeted, rfl, handshake, ended⟩ := Program.Leads.of_bind h
  obtain ⟨stop, follows, rfl, _⟩ := shakeHands_follows handshake
  cases verdict : link.verdict stop with
  | error error =>
    rw [verdict] at ended
    obtain ⟨_, same⟩ := ended.done_inv
    cases same
    exact .inl rfl
  | ok done =>
    rw [verdict_eq_ok_iff.mp verdict] at follows
    exact .inr ⟨opened, later, rfl, follows⟩

end Link

/-- What an order may disturb of its entry: the request if it brings one, and the reply once the
token has come. -/
def orderParts (fills : Bool) (accepted : Prop) : Part → Prop
  | .payload .request => fills = true
  | .payload .reply => accepted
  | .status => False

namespace Initiator

open Table (Confined)

variable {initiator after : Initiator Handler} {now : Millis} {id : TransactionId} {fills entered : Bool}
  {calls : List SerialExchange} {result : Except TransactionError Unit}

theorem Transacts.confined (transacts : Transacts initiator now id calls result after) :
    Confined id (orderParts false (initiator.link.Accepted id calls)) initiator.table
      after.table := by
  cases transacts with
  | refused refused => exact .refl ..
  | @converses entry conversing conversation permitted conversed =>
    have found := (permit_eq_ok_iff.mp permitted).1
    change Confined id _ initiator.table (initiator.table.writeReply entry conversation.reply)
    rcases Link.converse_reply conversed with nothing | accepted
    · rw [nothing, Table.writeReply_nil]
      exact .refl ..
    · refine (Table.confined_write found .reply _).mono ?_
      rintro _ rfl
      exact accepted.append _

theorem Transacts.built (transacts : Transacts initiator now id calls result after)
    (built : initiator.table.Built) : after.table.Built := by
  cases transacts with
  | refused refused => exact built
  | converses permitted conversed => exact .writeReply _ built (permit_eq_ok_iff.mp permitted).1

theorem Prepared.confined {table ready : Table Handler} (prepared : Prepared table id fills ready)
    (accepted : Prop) : Confined id (orderParts fills accepted) table ready := by
  cases prepared with
  | asIs => exact .refl ..
  | request bytes found =>
    refine (Table.confined_write found .request bytes).mono ?_
    rintro _ rfl
    rfl

theorem Prepared.built {table ready : Table Handler} (prepared : Prepared table id fills ready)
    (built : table.Built) : ready.Built := by
  cases prepared with
  | asIs => exact built
  | request bytes found => exact .writeRequest bytes built found

theorem Carries.confined (carries : Carries initiator now id fills entered calls result after) :
    Confined id (orderParts fills (initiator.link.Accepted id calls)) initiator.table
      after.table := by
  cases carries with
  | unfit prepared _ => exact prepared.confined _
  | runs prepared transacts =>
    refine (prepared.confined _).trans (transacts.confined.mono ?_)
    rintro (_ | _) allowed
    · next side =>
      cases side with
      | request => cases allowed
      | reply => exact allowed
    · exact allowed

theorem Carries.built (carries : Carries initiator now id fills entered calls result after)
    (built : initiator.table.Built) : after.table.Built := by
  cases carries with
  | unfit prepared _ => exact prepared.built built
  | runs prepared transacts => exact transacts.built (prepared.built built)

end Initiator

namespace Target

open Table (Confined)

variable {target : Target Handler} {link : Link} {table after : Table Handler}
  {entry : Descriptor Handler} {id : TransactionId} {calls : List (Exchange Handler)}
  {result : Except TargetError TargetEvent}

/-- The ID that a poll has read, by its first call. -/
def readId? : List (Exchange Handler) → Option TransactionId
  | ⟨.inl (.read _ _), delivery⟩ :: _ =>
    if delivery.count = some 1 then some (delivery.bytes.headD 0) else none
  | _ => none

theorem confined_received (found : table.descriptor? id = some entry) (delivery : Delivery) :
    Confined id (fun _ => True) table (received table entry delivery) := by
  unfold received
  split
  · exact .refl ..
  · exact (Table.confined_write found .request _).mono fun _ _ => trivial

theorem confined_handled (found : table.descriptor? id = some entry) (output : List UInt8) :
    Confined id (fun _ => True) table (handled table entry output) := by
  unfold handled
  cases entry.handler with
  | none => exact .refl ..
  | some handler => exact (Table.confined_write found .reply _).mono fun _ _ => trivial

/-- However a service goes and whatever its handler writes, it stays in the entry of its ID. -/
theorem Serves.confined (serves : Serves link table entry id calls result after)
    (found : table.descriptor? id = some entry) : Confined id (fun _ => True) table after := by
  have noted (table : Table Handler) (status : TransactionStatus) :
      Confined id (fun _ => True) table (table.setStatus id status) :=
    (Table.confined_setStatus table id status).mono fun _ _ => trivial
  cases serves with
  | no_token cut => exact noted _ _
  | no_request sent some_request short => exact (confined_received found _).trans (noted _ _)
  | handled sent full replied =>
    refine ((confined_received found _).trans (confined_handled ?_ _)).trans (noted _ _)
    exact (descriptor?_received id).trans found

/-- A poll stays in the entry of the ID that it has read, and without one it changes nothing. -/
theorem Polls.confined (polls : Polls target calls result after) :
    (∀ id, readId? calls = some id → Confined id (fun _ => True) target.table after) ∧
      ((∀ id, readId? calls = some id → target.table.descriptor? id = none) →
        after = target.table) := by
  cases polls with
  | fault fault => exact ⟨fun id _ => .refl .., fun _ => rfl⟩
  | idle few none_came => exact ⟨fun id _ => .refl .., fun _ => rfl⟩
  | refused came unknown => exact ⟨fun id _ => .refl .., fun _ => rfl⟩
  | @serves delivery entry calls result after came found serves =>
    have read : readId? (⟨.inl (.read 1 target.idleTimeout), delivery⟩ :: calls :
        List (Exchange Handler)) = some (delivery.bytes.headD 0) := if_pos came
    constructor
    · intro id read_id
      cases read.symm.trans read_id
      exact serves.confined found
    · intro unknown
      rw [unknown _ read] at found
      cases found

theorem Polls.readId?_append (polls : Polls target calls result after)
    (more : List (Exchange Handler)) : readId? (calls ++ more) = readId? calls := by
  cases polls <;> rfl

theorem poll_confined {last : Target Handler} (built : target.table.Built)
    (h : Program.Leads target.poll calls (.done (result, last))) :
    last.table.Built ∧
      (∀ id, readId? calls = some id → Confined id (fun _ => True) target.table last.table) ∧
      ((∀ id, readId? calls = some id → target.table.descriptor? id = none) → last = target) := by
  obtain ⟨polled, after, polls, rfl, made⟩ := poll_leads built h
  obtain ⟨confined, still⟩ := polls.confined
  rw [made, polls.readId?_append]
  refine ⟨(polls.fits ⟨built, fun _ => rfl⟩).built, confined, fun unknown => ?_⟩
  rw [still unknown]

end Target

/-- A call of an engine, with all that the engine knows but the table. -/
inductive EngineCall (Handler : Type) where
  | order (initiator : Initiator Handler) (now : Millis) (given : Order)
  | poll (target : Target Handler)

namespace EngineCall

variable {σ : Type} {table : Table Handler} {id : TransactionId} {call : EngineCall Handler}

/-- What a call does when it is given a table, down to the table that it leaves. -/
def program (table : Table Handler) : EngineCall Handler → ServingProgram Handler (Table Handler)
  | .order initiator now given =>
    (Target.onLink ({ initiator with table }.perform now given)).bind fun (_, after) =>
      .done after.table
  | .poll target => ({ target with table } : Target Handler).poll.bind fun (_, after) =>
      .done after.table

/-- Whether a call that made these exchanges has run `id`, or else no registered ID. -/
def RunsOnly (id : TransactionId) (table : Table Handler) (calls : List (Target.Exchange Handler)) :
    EngineCall Handler → Prop
  | .order _ _ given => given.id = id
  | .poll _ => ∀ read, Target.readId? calls = some read →
      read = id ∨ table.descriptor? read = none

/-- Every call of a session on one table runs `id`, or else no registered ID. -/
def AllRunOnly (answer : (request : SerialRequest ⊕ HandlerCall Handler) → σ →
      Program.EitherReply SerialRequest.Reply HandlerCall.Reply request × σ) (id : TransactionId) :
    List (EngineCall Handler) → Table Handler → σ → Prop
  | [], _, _ => True
  | call :: calls, table, s =>
    call.RunsOnly id table ((call.program table).trace answer s) ∧
      AllRunOnly answer id calls ((call.program table).run answer s).1
        ((call.program table).run answer s).2

/-- The table after a session, in which one call after the other is given the table. -/
def tableAfter (answer : (request : SerialRequest ⊕ HandlerCall Handler) → σ →
      Program.EitherReply SerialRequest.Reply HandlerCall.Reply request × σ) :
    List (EngineCall Handler) → Table Handler → σ → Table Handler
  | [], table, _ => table
  | call :: calls, table, s =>
    tableAfter answer calls ((call.program table).run answer s).1 ((call.program table).run answer s).2

/-- A call that runs `id` keeps the table well laid out and stays in the entry of `id`. -/
theorem program_confined {calls : List (Target.Exchange Handler)} {after : Table Handler}
    (built : table.Built) (h : Program.Leads (call.program table) calls (.done after))
    (only : call.RunsOnly id table calls) :
    after.Built ∧ Table.Confined id (fun _ => True) table after := by
  cases call with
  | order initiator now given =>
    obtain ⟨made, none_left, ⟨result, final⟩, rfl, performs, ended⟩ := Program.Leads.of_bind h
    obtain ⟨own, rfl, leads⟩ := Target.onLink_leads_inv performs
    obtain ⟨rfl, same⟩ := ended.done_inv
    cases same
    have carries := Initiator.perform_carries leads
    have own_id : given.id = id := only
    subst own_id
    exact ⟨carries.built built, carries.confined.mono fun _ _ => trivial⟩
  | poll target =>
    obtain ⟨made, none_left, ⟨result, final⟩, rfl, polls, ended⟩ := Program.Leads.of_bind h
    obtain ⟨rfl, same⟩ := ended.done_inv
    cases same
    obtain ⟨kept, confined, still⟩ := Target.poll_confined (by exact built) polls
    refine ⟨kept, ?_⟩
    rw [List.append_nil] at only
    by_cases unknown : ∀ read, Target.readId? made = some read → table.descriptor? read = none
    · rw [still unknown]
      exact .refl ..
    · obtain ⟨read, unknown⟩ := not_forall.mp unknown
      obtain ⟨came, known⟩ := Classical.not_imp.mp unknown
      rw [← (only read came).resolve_right known]
      exact confined read came

/-- In a session that runs `id` alone, nothing of any other entry changes. -/
theorem session_confined (answer : (request : SerialRequest ⊕ HandlerCall Handler) → σ →
      Program.EitherReply SerialRequest.Reply HandlerCall.Reply request × σ)
    {calls : List (EngineCall Handler)} {s : σ} (built : table.Built)
    (only : AllRunOnly answer id calls table s) :
    Table.Confined id (fun _ => True) table (tableAfter answer calls table s) := by
  induction calls generalizing table s with
  | nil => exact .refl ..
  | cons call calls ih =>
    obtain ⟨kept, confined⟩ :=
      program_confined built (Program.leads_trace answer (call.program table) s) only.1
    exact confined.trans (ih kept only.2)

end EngineCall

/-- A call of an engine disturbs nothing but parts of the entry that it runs. An order spares every
status, size and handler, and of the payloads all but the reply of its ID, once the token has come,
and the request, if it brings one. A poll spares all but the entry of the ID that it has read, and
without a registered ID it changes nothing at all. So in a session that runs one ID alone, all that
belongs to the others is as it was. -/
theorem engines_confined {table : Table Handler} (built : table.Built) {σ : Type} :
    (∀ (answer : SerialAnswer σ) (s : σ) (initiator : Initiator Handler) (now : Millis)
      (order : Order), initiator.table = table →
        let program := initiator.perform now order
        table.Spares order.id (orderParts order.fills
            (initiator.link.Accepted order.id (program.trace answer s)))
          (program.run answer s).1.2.table) ∧
    ∀ (answer : (request : SerialRequest ⊕ HandlerCall Handler) → σ →
        Program.EitherReply SerialRequest.Reply HandlerCall.Reply request × σ) (s : σ),
      (∀ target : Target Handler, target.table = table →
        let calls := target.poll.trace answer s
        let after := (target.poll.run answer s).1.2
        (∀ id, Target.readId? calls = some id → table.Spares id (fun _ => True) after.table) ∧
          ((∀ id, Target.readId? calls = some id → table.descriptor? id = none) →
            after = target)) ∧
      ∀ id calls, EngineCall.AllRunOnly answer id calls table s →
        table.Spares id (fun _ => True) (EngineCall.tableAfter answer calls table s) := by
  refine ⟨?_, fun answer s => ⟨?_, ?_⟩⟩
  · rintro answer s initiator now order rfl program
    have carries := Initiator.perform_carries (Program.leads_trace answer program s)
    exact carries.confined.spares built
  · rintro target rfl calls after
    obtain ⟨_, confined, still⟩ :=
      Target.poll_confined built (Program.leads_trace answer target.poll s)
    exact ⟨fun id read => (confined id read).spares built, still⟩
  · intro id calls only
    exact (EngineCall.session_confined answer built only).spares built

/-- A poll that reads the ID 2 and its request next to an entry of the ID 0. -/
theorem engines_confined_pair :
    let table : Table Unit :=
      [.register 0 1 1 none, .register 2 1 0 (some ())].foldl Table.edit (.empty 3 3)
    let answer : (request : SerialRequest ⊕ HandlerCall Unit) → Unit →
        Program.EitherReply SerialRequest.Reply HandlerCall.Reply request × Unit
      | .inl (.write data _), _ => (some data.length, ())
      | .inl (.read count _), _ => (⟨List.replicate count 2, some count⟩, ())
      | .inl (.skip count _), _ => (some count, ())
      | .inl .clear, _ => ((), ())
      | .inr call, _ => (call.output, ())
    let target : Target Unit := .ofConfig {} table
    let after := (target.poll.run answer ()).1.2
    table.Built ∧ Target.readId? (target.poll.trace answer ()) = some 2 ∧
      after.table.request? 2 = some [2] ∧ after.table.status? 2 = some .accepted ∧
      after.table.directory 0 = table.directory 0 := by
  intro table answer target after
  have built : table.Built :=
    (Table.directory_edits (.empty 3 (by decide)) rfl rfl rfl
      [.register 0 1 1 none, .register 2 1 0 (some ())]).1
  have read : Target.readId? (target.poll.trace answer ()) = some 2 := rfl
  have polls := ((engines_confined built).2 answer ()).1 target rfl
  exact ⟨built, read, rfl, rfl, (polls.1 2 read).others 0 (by decide)⟩

end SplitKeyboard
