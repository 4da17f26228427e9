import SplitKeyboard.Proofs.Messages
import SplitKeyboard.Proofs.Table.Layout
import SplitKeyboard.Target

/-!
A transaction that goes well, seen from the target. The calls of a poll are what the messages mean
to the far end, but for the time that it waits for the ID, and the handler runs between request and
reply.
-/
namespace SplitKeyboard

namespace Target

variable {Handler : Type}

abbrev Exchange (Handler : Type) :=
  Program.Exchange (Program.EitherReply SerialRequest.Reply (@HandlerCall.Reply Handler))

/-- The handler's part in a transaction: a call, unless there is no handler. -/
def handling (table : Table Handler) (entry : Descriptor Handler) (output : List UInt8) :
    List (Exchange Handler) :=
  match entry.handler with
  | none => []
  | some handler => [⟨.inr ⟨handler, table.requestOf entry, table.replyOf entry⟩, output⟩]

def handled (table : Table Handler) (entry : Descriptor Handler) (output : List UInt8) :
    Table Handler :=
  match entry.handler with
  | none => table
  | some _ => table.writeReply entry output

theorem runHandler_handling (table : Table Handler) (entry : Descriptor Handler)
    (output : List UInt8) :
    Program.Leads (runHandler table entry) (handling table entry output)
      (.done (handled table entry output)) := by
  unfold runHandler handling handled
  cases entry.handler with
  | none => exact .stay _
  | some handler => exact .ask (.stay _)

/-- What the handler makes of the request in the table, and its state after that. -/
def handlerRun {τ : Type} (handle : HandlerCall Handler → τ → List UInt8 × τ)
    (table : Table Handler) (entry : Descriptor Handler) (handlers : τ) : List UInt8 × τ :=
  match entry.handler with
  | none => ([], handlers)
  | some handler => handle ⟨handler, table.requestOf entry, table.replyOf entry⟩ handlers

def plays (link : Link) (messages : List Message) : List (Exchange Handler) :=
  (link.plays .far messages).map Program.Exchange.beside

/-- What is done to serve `id`, once it has been read. -/
def serving (link : Link) (table : Table Handler) (entry : Descriptor Handler) (id : TransactionId)
    (request output : List UInt8) : List (Exchange Handler) :=
  plays link [⟨.far, [handshakeToken id]⟩] ++ (plays link (Message.payload .near request) ++
    (handling (table.writeRequest entry request) entry output ++
      plays link (Message.payload .far
        ((handled (table.writeRequest entry request) entry output).replyOf entry))))

def served (table : Table Handler) (entry : Descriptor Handler) (id : TransactionId)
    (request output : List UInt8) : Table Handler :=
  (handled (table.writeRequest entry request) entry output).setStatus id .accepted

/-- What a poll does that serves `id`. Only the ID is awaited for the idle time. -/
def polling (target : Target Handler) (entry : Descriptor Handler) (id : TransactionId)
    (request output : List UInt8) : List (Exchange Handler) :=
  plays { target.link with timeout := target.idleTimeout } [⟨.near, [id]⟩] ++
    serving target.link target.table entry id request output

variable {link : Link} {table : Table Handler} {entry : Descriptor Handler} {id : TransactionId}
  {request : List UInt8}

theorem onLink_leads {α : Type} {program : SerialProgram α} {exchanges : List SerialExchange}
    {result : α} (h : Program.Leads program exchanges (.done result)) :
    Program.Leads (onLink program : ServingProgram Handler α) (exchanges.map Program.Exchange.beside)
      (.done result) :=
  h.beside

theorem receiveRequest_plays (full : request.length = entry.requestSize) :
    Program.Leads (receiveRequest link table entry) (plays link (Message.payload .near request))
      (.done (true, table.writeRequest entry request)) := by
  unfold receiveRequest Message.payload
  by_cases nothing : request = []
  · have empty : entry.requestSize = 0 := by rw [← full, nothing]; rfl
    have same : table.writeRequest entry request = table := by
      simp [Table.writeRequest, empty, splice, overlay]
    rw [if_pos empty, if_pos nothing, same]
    exact .stay _
  · have some_request : ¬ entry.requestSize = 0 := by
      rw [← full]
      exact nothing ∘ List.length_eq_zero_iff.mp
    have received := link.receive_plays .far .near (by decide) request
    rw [full] at received
    rw [if_neg some_request, if_neg nothing, ← List.append_nil (plays link [⟨.near, request⟩])]
    exact (onLink_leads received).seq (.stay _)

theorem sendReply_plays (nothing : table.replyOf entry = [] ↔ entry.replySize = 0) :
    Program.Leads (sendReply link table entry)
      (plays link (Message.payload .far (table.replyOf entry))) (.done true) := by
  unfold sendReply Message.payload
  by_cases empty : entry.replySize = 0
  · rw [if_pos empty, if_pos (nothing.mpr empty)]
    exact .stay _
  · have some_reply := empty ∘ nothing.mp
    rw [if_neg empty, if_neg some_reply, ← List.append_nil (plays link _)]
    exact (onLink_leads (link.send_plays .far some_reply)).seq (.stay _)

variable {output : List UInt8}

theorem descriptor?_handled (other : TransactionId) :
    (handled table entry output).descriptor? other = table.descriptor? other := by
  unfold handled
  cases entry.handler with
  | none => rfl
  | some handler => rfl

theorem built_handled (built : table.Built) (found : table.descriptor? id = some entry) :
    (handled table entry output).Built := by
  unfold handled
  cases entry.handler with
  | none => exact built
  | some handler => exact .writeReply _ built found

/-- A table stays well laid out through a transaction. -/
theorem built_served (built : table.Built) (found : table.descriptor? id = some entry) :
    (served table entry id request output).Built :=
  .setStatus _ _ (built_handled (.writeRequest _ built found) found)

theorem serve_serving (built : table.Built) (found : table.descriptor? id = some entry)
    (full : request.length = entry.requestSize) :
    Program.Leads (serve link table entry id) (serving link table entry id request output)
      (.done (.ok (.served id), served table entry id request output)) := by
  have asked : (table.writeRequest entry request).Built := .writeRequest _ built found
  have answered : (handled (table.writeRequest entry request) entry output).Built :=
    built_handled asked found
  have nothing : (handled (table.writeRequest entry request) entry output).replyOf entry = [] ↔
      entry.replySize = 0 := by
    rw [← List.length_eq_zero_iff, answered.length_replyOf ((descriptor?_handled id).trans found)]
  unfold serve serving
  apply (onLink_leads (link.send_plays .far (List.cons_ne_nil _ []))).seq
  apply (receiveRequest_plays full).seq
  apply (runHandler_handling _ _ output).seq
  rw [← List.append_nil (plays link (Message.payload .far _))]
  exact (sendReply_plays nothing).seq (.stay _)

/-- A poll that finds an ID, its request and room for the reply serves the ID. -/
theorem poll_polling {target : Target Handler} (output : List UInt8) (built : target.table.Built)
    (found : target.table.descriptor? id = some entry)
    (full : request.length = entry.requestSize) :
    Program.Leads target.poll (target.polling entry id request output)
      (.done (.ok (.served id),
        { target with table := served target.table entry id request output })) := by
  have reacted : Program.Leads target.react (target.polling entry id request output)
      (.done (.ok (.served id), served target.table entry id request output)) := by
    have token : Program.Leads (Link.receiveToken target.idleTimeout)
        [⟨.read 1 target.idleTimeout, ⟨[id], some 1⟩⟩] (.done (.ok (some id))) := .ask (.stay _)
    apply (onLink_leads token).seq
    simp only [Table.resolve_eq_ok_iff.mpr found]
    exact serve_serving built found full
  rw [← List.append_nil (target.polling _ _ _ _)]
  exact reacted.seq (.stay _)

/-- A poll begins with the wait for an ID, and is idle if none comes. -/
theorem poll_asks (target : Target Handler) :
    ∃ next, target.poll = .ask (.inl (.read 1 target.idleTimeout)) next ∧
      next (⟨[], some 0⟩ : Delivery) = .done (.ok .idle, target) := ⟨_, rfl, rfl⟩

/-- What the table holds of a transaction once it is served. -/
theorem request?_served (built : table.Built) (found : table.descriptor? id = some entry)
    (full : request.length = entry.requestSize) :
    (served table entry id request output).request? id = some request := by
  have written := built.requestOf_writeRequest found full
  have kept : (handled (table.writeRequest entry request) entry output).requestOf entry =
      (table.writeRequest entry request).requestOf entry := by
    unfold handled
    cases entry.handler with
    | none => rfl
    | some handler => exact Table.requestOf_writeReply _ _ _
  have found : (handled (table.writeRequest entry request) entry output).descriptor? id =
      some entry := (descriptor?_handled id).trans found
  rw [served, Table.request?_setStatus, Table.request?, found, Option.map_some, kept, written]

theorem reply?_served (request output : List UInt8) (found : table.descriptor? id = some entry) :
    (served table entry id request output).reply? id =
      some ((handled (table.writeRequest entry request) entry output).replyOf entry) := by
  have found : (handled (table.writeRequest entry request) entry output).descriptor? id =
      some entry := (descriptor?_handled id).trans found
  rw [served, Table.reply?_setStatus, Table.reply?, found, Option.map_some]

theorem status?_served (found : table.descriptor? id = some entry) :
    (served table entry id request output).status? id = some .accepted := by
  have found : (handled (table.writeRequest entry request) entry output).descriptor? id =
      some entry := (descriptor?_handled id).trans found
  rw [served, Table.status?, Table.descriptor?_setStatus, if_pos rfl, found]
  rfl

theorem sizes?_served (other : TransactionId) :
    (served table entry id request output).sizes? other = table.sizes? other := by
  rw [served, Table.sizes?_setStatus, Table.sizes?, descriptor?_handled]
  rfl

end Target
end SplitKeyboard
