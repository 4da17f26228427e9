import SplitKeyboard.Proofs.Joint.System

/-!
What the target is going to do. Handlers are functions of what they are given, so once it is known
which requests will come, so is everything that the target will do, over any number of polls. A
forecast lists the calls that it will make and the transactions that it will have served by the time
it waits for an ID that has not been sent yet.
-/
namespace SplitKeyboard

variable {Handler τ : Type} {handle : HandlerCall Handler → τ → List UInt8 × τ}

/-- A transaction that has been carried out, as one half sees it. -/
structure Service where
  id : TransactionId
  request : Option (List UInt8)
  reply : Option (List UInt8)
  deriving DecidableEq

/-- The exchanges are these acts on the device, in turn, with handlers run in between. -/
inductive Enacts (handle : HandlerCall Handler → τ → List UInt8 × τ) :
    List (Target.Exchange Handler) → τ → List Act → τ → Prop
  | nil (handlers) : Enacts handle [] handlers [] handlers
  | act {exchanges handlers acts last} (act : Act) (timeout : UInt32)
      (later : Enacts handle exchanges handlers acts last) :
      Enacts handle ((act.exchange timeout).beside :: exchanges) handlers (act :: acts) last
  | handler {exchanges handlers acts last} (call : HandlerCall Handler)
      (later : Enacts handle exchanges (handle call handlers).2 acts last) :
      Enacts handle (⟨.inr call, (handle call handlers).1⟩ :: exchanges) handlers acts last

theorem Enacts.append {first second : List (Target.Exchange Handler)} {a b c : τ}
    {begun ended : List Act} (one : Enacts handle first a begun b)
    (two : Enacts handle second b ended c) :
    Enacts handle (first ++ second) a (begun ++ ended) c := by
  induction one with
  | nil => exact two
  | act act timeout _ ih => exact .act act timeout (ih two)
  | handler call _ ih => exact .handler call (ih two)

theorem enacts_plays (link : Link) (messages : List Message) (handlers : τ) :
    Enacts handle (Target.plays link messages : List (Target.Exchange Handler)) handlers
      (Message.view link.duplex .far messages) handlers := by
  unfold Target.plays Link.plays
  induction Message.view link.duplex .far messages with
  | nil => exact .nil handlers
  | cons act acts ih => exact .act act link.timeout ih

theorem enacts_handling (table : Table Handler) (entry : Descriptor Handler) (handlers : τ) :
    Enacts handle (Target.handling table entry (Target.handlerRun handle table entry handlers).1)
      handlers [] (Target.handlerRun handle table entry handlers).2 := by
  unfold Target.handling Target.handlerRun
  cases entry.handler with
  | none => exact .nil handlers
  | some handler => exact .handler _ (.nil _)

/-- What the target will do from the given program on, until it polls as the last target. The flag
tells whether the present poll has had any exchange, the number how many steps all of it takes. -/
inductive Forecast (handle : HandlerCall Handler → τ → List UInt8 × τ) : Bool →
    ServingProgram Handler (Except TargetError TargetEvent × Target Handler) → τ → Nat →
      List Act → List Service → Target Handler → τ → Prop
  | rest {program target handlers} (fresh : program = target.poll) :
      Forecast handle false program handlers 0 [] [] target handlers
  | act {begun} {act : Act} {timeout next handlers work acts services last final}
      (later : Forecast handle true (next (act.exchange timeout).2) handlers work acts services last
        final) :
      Forecast handle begun (.ask (.inl (act.exchange timeout).1) next) handlers (work + 1)
        (act :: acts) services last final
  | handler {begun call next handlers work acts services last final}
      (later : Forecast handle true (next (handle call handlers).1) (handle call handlers).2 work
        acts services last final) :
      Forecast handle begun (.ask (.inr call) next) handlers (work + 1) acts services last final
  | served {id target handlers work acts services last final}
      (later : Forecast handle false target.poll handlers work acts services last final) :
      Forecast handle true (.done (.ok (.served id), target)) handlers (work + 1) acts
        (⟨id, target.table.request? id, target.table.reply? id⟩ :: services) last final
  | idle {target handlers work acts services last final}
      (later : Forecast handle false target.poll handlers work acts services last final) :
      Forecast handle true (.done (.ok .idle, target)) handlers (work + 1) acts services last final

namespace Forecast

variable {begun : Bool}
  {program : ServingProgram Handler (Except TargetError TargetEvent × Target Handler)}
  {handlers middle final : τ} {work extra : Nat} {acts more : List Act}
  {services others : List Service} {target last end_target : Target Handler}

/-- What comes after the last poll can be forecast on its own. -/
theorem append (one : Forecast handle begun program handlers work acts services last middle)
    (two : Forecast handle false last.poll middle extra more others end_target final) :
    Forecast handle begun program handlers (extra + work) (acts ++ more) (services ++ others)
      end_target final := by
  induction one with
  | rest fresh => exact fresh ▸ two
  | act _ ih => exact .act (ih two)
  | handler _ ih => exact .handler (ih two)
  | served _ ih => exact .served (ih two)
  | idle _ ih => exact .idle (ih two)

/-- A poll that is known to end is forecast by what it does. -/
theorem of_leads (handle : HandlerCall Handler → τ → List UInt8 × τ)
    {exchanges : List (Target.Exchange Handler)} {id : TransactionId}
    (leads : Program.Leads program exchanges (.done (.ok (.served id), target)))
    (enacts : Enacts handle exchanges handlers acts middle)
    (later : Forecast handle false target.poll middle work more services last final) :
    ∃ work, Forecast handle true program handlers work (acts ++ more)
      (⟨id, target.table.request? id, target.table.reply? id⟩ :: services) last final := by
  induction enacts generalizing program with
  | nil handlers =>
    cases leads with
    | stay => exact ⟨_, .served later⟩
  | act act timeout _ ih =>
    cases leads with
    | ask left =>
      obtain ⟨work, rest⟩ := ih left later
      exact ⟨_, .act rest⟩
  | handler call _ ih =>
    cases leads with
    | ask left =>
      obtain ⟨work, rest⟩ := ih left later
      exact ⟨_, .handler rest⟩

/-- What a program does that has not ended does not depend on what it has done before. -/
theorem of_begun {request : SerialRequest ⊕ HandlerCall Handler} {next}
    (forecast : Forecast handle true (.ask request next) handlers work acts services last final) :
    Forecast handle false (.ask request next) handlers work acts services last final := by
  cases forecast with
  | act later => exact .act later
  | handler later => exact .handler later

variable {entry : Descriptor Handler} {id : TransactionId} {request : List UInt8}

/-- A whole transaction, from the ID on. Its reply is settled by the request and the handlers. -/
theorem poll (handle : HandlerCall Handler → τ → List UInt8 × τ) (built : target.table.Built) (found : target.table.descriptor? id = some entry)
    (full : request.length = entry.requestSize) (handlers : τ) :
    ∃ reply last final work, reply.length = entry.replySize ∧
      (last.table.Built ∧ (∀ other, last.table.sizes? other = target.table.sizes? other) ∧
        last.link = target.link) ∧
      Forecast handle false target.poll handlers work
        (Message.view target.link.duplex .far (Message.ofTransaction id request reply))
        [⟨id, some request, some reply⟩] last final := by
  let asked := target.table.writeRequest entry request
  let ran := Target.handlerRun handle asked entry handlers
  let reply := (Target.handled asked entry ran.1).replyOf entry
  have asked_built : asked.Built := .writeRequest _ built found
  have replied : reply.length = entry.replySize :=
    (Target.built_handled asked_built found).length_replyOf
      ((Target.descriptor?_handled id).trans found)
  have polled := Target.poll_polling ran.1 built found full
  obtain ⟨work, served⟩ := of_leads handle polled
    ((enacts_plays { target.link with timeout := target.idleTimeout } _ handlers).append
      ((enacts_plays target.link _ handlers).append ((enacts_plays target.link _ handlers).append
        ((enacts_handling asked entry handlers).append (enacts_plays target.link _ ran.2)))))
    (.rest rfl)
  rw [Target.request?_served built found full, Target.reply?_served _ _ found] at served
  refine ⟨reply, { target with table := Target.served target.table entry id request ran.1 }, ran.2,
    work, replied, ⟨Target.built_served built found, Target.sizes?_served, rfl⟩, ?_⟩
  have whole : Message.ofTransaction id request reply = [⟨.near, [id]⟩] ++
      ([⟨.far, [handshakeToken id]⟩] ++ (Message.payload .near request ++
        Message.payload .far reply)) := rfl
  obtain ⟨next, begins, _⟩ := target.poll_asks
  rw [whole]
  rw [begins] at served ⊢
  apply of_begun
  simpa only [Message.view_append, List.append_nil, List.nil_append] using served

end Forecast
end SplitKeyboard
