import SplitKeyboard.Bench.Lockstep
import SplitKeyboard.Proofs.Bench.ScriptedDevice
import SplitKeyboard.Proofs.Initiator.Exchange
import SplitKeyboard.Proofs.Initiator.Job
import SplitKeyboard.Proofs.Target.Exchange

/-!
Both halves in turns, over whole runs. In each round the target is given a request and polled once,
and the initiator is given what the target wrote and makes the same transaction. From any two halves
that are in sync, any number of rounds goes well, and each leaves the halves in sync.
-/
namespace SplitKeyboard

open Bench (ScriptedDevice Rig answerBoth)

section Poll

variable {Handler τ : Type} {handle : HandlerCall Handler → τ → List UInt8 × τ}
  {device : ScriptedDevice} {target : Target Handler} {entry : Descriptor Handler}
  {id : TransactionId} {request rest : List UInt8}

/-- Handlers stay as they are while only the device is called. -/
theorem answers_beside {exchanges : List SerialExchange} {after : ScriptedDevice} (handlers : τ)
    (answers : Program.Answers ScriptedDevice.answer exchanges device after) :
    Program.Answers (answerBoth ScriptedDevice.answer handle)
      (exchanges.map Program.Exchange.beside) (device, handlers) (after, handlers) := by
  induction exchanges generalizing device with
  | nil => exact congrArg (·, handlers) answers
  | cons exchange rest ih => exact ⟨answers.1, ih answers.2⟩

theorem answers_handling (table : Table Handler) (entry : Descriptor Handler) (handlers : τ) :
    Program.Answers (answerBoth ScriptedDevice.answer handle)
      (Target.handling table entry (Target.handlerRun handle table entry handlers).1)
      (device, handlers) (device, (Target.handlerRun handle table entry handlers).2) := by
  unfold Target.handling Target.handlerRun
  cases entry.handler with
  | none => rfl
  | some handler => exact ⟨rfl, rfl⟩

/-- A sound device that holds an ID and its request makes a poll serve the ID, and what comes behind
them is left. -/
theorem answers_polling (handle : HandlerCall Handler → τ → List UInt8 × τ)
    (entry : Descriptor Handler) (handlers : τ) (sound : device.Sound target.link.duplex)
    (incoming : device.incoming = id :: (request ++ rest)) :
    let asked := target.table.writeRequest entry request
    let ran := Target.handlerRun handle asked entry handlers
    ∃ after : ScriptedDevice, Program.Answers (answerBoth ScriptedDevice.answer handle)
        (target.polling entry id request ran.1) (device, handlers) (after, ran.2) ∧
      after.Sound target.link.duplex ∧ after.incoming = rest ∧
      after.sent = device.sent ++
        handshakeToken id :: (Target.handled asked entry ran.1).replyOf entry := by
  intro asked ran
  obtain ⟨second, takes_id, sound, sent, incoming⟩ :=
    ScriptedDevice.answers_plays { target.link with timeout := target.idleTimeout } .far
      [⟨.near, [id]⟩] sound incoming
  obtain ⟨third, sends_token, sound, token, incoming⟩ :=
    ScriptedDevice.answers_plays target.link .far [⟨.far, [handshakeToken id]⟩]
      sound incoming
  have request_first : Message.bytesFrom .near (Message.payload .near request) ++ rest =
      request ++ rest := by
    rw [Message.bytesFrom_payload_same]
  obtain ⟨fourth, takes_request, sound, silent, incoming⟩ :=
    ScriptedDevice.answers_plays target.link .far
      (Message.payload .near request) sound (incoming.trans request_first.symm)
  have none_needed : Message.bytesFrom .near
      (Message.payload .far ((Target.handled asked entry ran.1).replyOf entry)) ++ rest = rest := by
    rw [Message.bytesFrom_payload_other (by decide), List.nil_append]
  obtain ⟨after, sends_reply, sound, reply, incoming⟩ :=
    ScriptedDevice.answers_plays target.link .far
      (Message.payload .far ((Target.handled asked entry ran.1).replyOf entry)) sound
      (incoming.trans none_needed.symm)
  refine ⟨after, ?_, sound, incoming, ?_⟩
  · apply (answers_beside handlers takes_id).append
    apply (answers_beside handlers sends_token).append
    apply (answers_beside handlers takes_request).append
    exact (answers_handling asked entry handlers).append (answers_beside _ sends_reply)
  · rw [reply, silent, token, sent, Message.bytesFrom_payload_same,
      Message.bytesFrom_payload_other (by decide)]
    simp [Message.bytesFrom]

end Poll

/-- Both halves, each with its device, and the target with its handlers. -/
structure Pair (Handler τ : Type) where
  far : Rig Handler ScriptedDevice τ
  near : Initiator Handler
  nearDevice : ScriptedDevice

structure Round (Handler : Type) where
  event : Except TargetError TargetEvent
  handled : List (HandlerCall Handler)
  result : Except TransactionError Unit
  sent : List UInt8

def handlerCall? {Handler : Type} : Target.Exchange Handler → Option (HandlerCall Handler)
  | ⟨.inl _, _⟩ => none
  | ⟨.inr call, _⟩ => some call

/-- No call on the device is one of a handler. -/
theorem handlerCall?_beside {Handler : Type} (exchanges : List SerialExchange) :
    (exchanges.map Program.Exchange.beside : List (Target.Exchange Handler)).filterMap
      handlerCall? = [] := by
  rw [List.filterMap_map, List.filterMap_eq_nil_iff]
  intro exchange _
  rfl

theorem handlerCall?_plays {Handler : Type} (link : Link) (messages : List Message) :
    (Target.plays link messages : List (Target.Exchange Handler)).filterMap handlerCall? = [] :=
  handlerCall?_beside _

theorem handlerCall?_polling {Handler : Type} (target : Target Handler) (entry : Descriptor Handler)
    (id : TransactionId) (request output : List UInt8) :
    (target.polling entry id request output).filterMap handlerCall? =
      entry.handler.toList.map fun handler =>
        ⟨handler, (target.table.writeRequest entry request).requestOf entry,
          (target.table.writeRequest entry request).replyOf entry⟩ := by
  simp only [Target.polling, Target.serving, List.filterMap_append, handlerCall?_plays,
    List.nil_append, List.append_nil]
  unfold Target.handling
  cases entry.handler with
  | none => rfl
  | some handler => rfl

namespace Pair

variable {Handler τ : Type} (handle : HandlerCall Handler → τ → List UInt8 × τ)

/-- One round: the target is given the ID and the contents and polled, what it wrote is passed on,
and the initiator makes the transaction. -/
def round (pair : Pair Handler τ) (job : Job) : Round Handler × Pair Handler τ :=
  let request := job.id :: job.contents
  let (event, answer, far) := pair.far.serve handle request
  let ((result, near), nearDevice) := ((pair.near.load job).transaction job.now job.id).run
    ScriptedDevice.answer (pair.nearDevice.queue answer)
  let exchanges := pair.far.target.poll.trace (answerBoth ScriptedDevice.answer handle)
    (pair.far.device.queue request, pair.far.handlers)
  (⟨event, exchanges.filterMap handlerCall?, result,
    nearDevice.sent.drop pair.nearDevice.sent.length⟩, ⟨far, near, nearDevice⟩)

def rounds (pair : Pair Handler τ) (jobs : List Job) : Pair Handler τ :=
  jobs.foldl (fun pair job => (pair.round handle job).2) pair

/-- Both halves have laid out the same transactions, use the same duplex setting on devices that fit
it, and nothing is waiting on either device. -/
structure InSync (pair : Pair Handler τ) : Prop where
  near_built : pair.near.table.Built
  far_built : pair.far.target.table.Built
  sizes : ∀ id, pair.near.table.sizes? id = pair.far.target.table.sizes? id
  duplex : pair.near.link.duplex = pair.far.target.link.duplex
  near_sound : pair.nearDevice.Sound pair.near.link.duplex
  far_sound : pair.far.device.Sound pair.far.target.link.duplex
  near_silent : pair.nearDevice.incoming = []
  far_silent : pair.far.device.incoming = []

/-- The job is for a registered transaction and has contents of its size. -/
def Takes (pair : Pair Handler τ) (job : Job) : Prop :=
  ∃ replySize, pair.near.table.sizes? job.id = some (job.contents.length, replySize)

/-- What a round must show that carries out this job, from the far entry of its ID. -/
structure Carries (pair : Pair Handler τ) (job : Job) (entry : Descriptor Handler) : Prop where
  event : (pair.round handle job).1.event = .ok (.served job.id)
  result : (pair.round handle job).1.result = .ok ()
  sent : (pair.round handle job).1.sent = job.id :: job.contents
  /-- The handler, if there is one, was called once and got just the contents. -/
  handled : (pair.round handle job).1.handled = entry.handler.toList.map fun handler =>
    ⟨handler, job.contents, pair.far.target.table.replyOf entry⟩
  request : (pair.round handle job).2.far.target.table.request? job.id = some job.contents
  near_request : (pair.round handle job).2.near.table.request? job.id = some job.contents
  /-- The far reply is what the handler made of it, or stays if there is none. -/
  far_reply : (pair.round handle job).2.far.target.table.reply? job.id =
    some (entry.handler.elim (pair.far.target.table.replyOf entry) fun handler =>
      let call := ⟨handler, job.contents, pair.far.target.table.replyOf entry⟩
      overlay ((handle call pair.far.handlers).1.take entry.replySize) call.output)
  near_reply : (pair.round handle job).2.near.table.reply? job.id =
    (pair.round handle job).2.far.target.table.reply? job.id
  status : (pair.round handle job).2.far.target.table.status? job.id = some .accepted
  handlers : (pair.round handle job).2.far.handlers =
    entry.handler.elim pair.far.handlers fun handler =>
      (handle ⟨handler, job.contents, pair.far.target.table.replyOf entry⟩ pair.far.handlers).2

section Round

variable {pair : Pair Handler τ} {job : Job} {here there : Descriptor Handler}

theorem serve_eq (sync : pair.InSync)
    (found : pair.far.target.table.descriptor? job.id = some there)
    (full : job.contents.length = there.requestSize) :
    let table := pair.far.target.table
    let asked := table.writeRequest there job.contents
    let ran := Target.handlerRun handle asked there pair.far.handlers
    ∃ device : ScriptedDevice,
      pair.far.serve handle (job.id :: job.contents) =
        (.ok (.served job.id),
          handshakeToken job.id :: (Target.handled asked there ran.1).replyOf there,
          ⟨{ pair.far.target with table := Target.served table there job.id job.contents ran.1 },
            device, ran.2⟩) ∧
      pair.far.target.poll.trace (answerBoth ScriptedDevice.answer handle)
          (pair.far.device.queue (job.id :: job.contents), pair.far.handlers) =
        pair.far.target.polling there job.id job.contents ran.1 ∧
      device.Sound pair.far.target.link.duplex ∧ device.incoming = [] := by
  intro table asked ran
  have queued : (pair.far.device.queue (job.id :: job.contents)).incoming =
      job.id :: (job.contents ++ []) := by
    simp [ScriptedDevice.queue, sync.far_silent]
  have sound : (pair.far.device.queue (job.id :: job.contents)).Sound
      pair.far.target.link.duplex :=
    ⟨sync.far_sound.unlimited, sync.far_sound.faultless, sync.far_sound.echoes⟩
  obtain ⟨device, answers, still, silent, sent⟩ :=
    answers_polling handle there pair.far.handlers sound queued
  obtain ⟨polled, traced⟩ :=
    (Target.poll_polling ran.1 sync.far_built found full).run_eq answers
  refine ⟨device, ?_, traced, still, silent⟩
  have written : device.sent.drop pair.far.device.sent.length =
      handshakeToken job.id :: (Target.handled asked there ran.1).replyOf there := by
    rw [sent]
    exact List.drop_left
  simp only [Rig.serve, Rig.poll, polled, written]
  rfl

theorem transaction_eq (sync : pair.InSync) (ready : pair.near.tooSoon job.now = false)
    (found : pair.near.table.descriptor? job.id = some here)
    (full : job.contents.length = here.requestSize) {reply : List UInt8}
    (due : reply.length = here.replySize) :
    ∃ device : ScriptedDevice,
      ((pair.near.load job).transaction job.now job.id).run ScriptedDevice.answer
          (pair.nearDevice.queue (handshakeToken job.id :: reply)) =
        ((.ok (), (pair.near.load job).afterReply job.now here reply), device) ∧
      device.Sound pair.near.link.duplex ∧ device.incoming = [] ∧
      device.sent = pair.nearDevice.sent ++ job.id :: job.contents := by
  have same_link : (pair.near.load job).link = pair.near.link := Initiator.link_load found
  have calls := Initiator.transaction_plays job.now (Initiator.descriptor?_load found)
    ((Initiator.tooSoon_load found _).trans ready) due
  rw [Initiator.requestOf_load sync.near_built found full] at calls
  have queued : (pair.nearDevice.queue (handshakeToken job.id :: reply)).incoming =
      Message.bytesFrom .far (Message.ofTransaction job.id job.contents reply) ++ [] := by
    rw [Message.bytesFrom_far_ofTransaction, List.append_nil]
    simp [ScriptedDevice.queue, sync.near_silent]
  have sound : (pair.nearDevice.queue (handshakeToken job.id :: reply)).Sound
      (pair.near.load job).link.duplex := by
    rw [same_link]
    exact ⟨sync.near_sound.unlimited, sync.near_sound.faultless, sync.near_sound.echoes⟩
  obtain ⟨device, answers, still, sent, silent⟩ :=
    ScriptedDevice.answers_plays _ .near _ sound queued
  rw [Message.bytesFrom_near_ofTransaction] at sent
  exact ⟨device, (calls.run_eq answers).1, same_link ▸ still, silent, sent⟩

/-- All that a round between halves in sync does. -/
theorem round_eq (sync : pair.InSync) (ready : pair.near.tooSoon job.now = false)
    (near_found : pair.near.table.descriptor? job.id = some here)
    (near_full : job.contents.length = here.requestSize)
    (found : pair.far.target.table.descriptor? job.id = some there)
    (full : job.contents.length = there.requestSize) (due : there.replySize = here.replySize) :
    let table := pair.far.target.table
    let asked := table.writeRequest there job.contents
    let ran := Target.handlerRun handle asked there pair.far.handlers
    let reply := (Target.handled asked there ran.1).replyOf there
    ∃ device nearDevice : ScriptedDevice,
      pair.round handle job =
        (⟨.ok (.served job.id), there.handler.toList.map fun handler =>
            ⟨handler, job.contents, table.replyOf there⟩, .ok (), job.id :: job.contents⟩,
          ⟨⟨{ pair.far.target with
              table := Target.served table there job.id job.contents ran.1 }, device, ran.2⟩,
            (pair.near.load job).afterReply job.now here reply, nearDevice⟩) ∧
      reply.length = here.replySize ∧
      device.Sound pair.far.target.link.duplex ∧ device.incoming = [] ∧
      nearDevice.Sound pair.near.link.duplex ∧ nearDevice.incoming = [] := by
  intro table asked ran reply
  obtain ⟨device, served, traced, sound, silent⟩ := serve_eq handle sync found full
  have asked_built : asked.Built := .writeRequest _ sync.far_built found
  have replied : reply.length = here.replySize := by
    rw [← due]
    exact (Target.built_handled asked_built found).length_replyOf
      ((Target.descriptor?_handled job.id).trans found)
  obtain ⟨nearDevice, called, near_sound, near_silent, sent⟩ :=
    transaction_eq sync ready near_found near_full replied
  refine ⟨device, nearDevice, ?_, replied, sound, silent, near_sound, near_silent⟩
  have newly : nearDevice.sent.drop pair.nearDevice.sent.length = job.id :: job.contents := by
    rw [sent]
    exact List.drop_left
  simp only [reply, ran, asked, table] at called ⊢
  simp only [round, served, called, traced, newly, handlerCall?_polling,
    sync.far_built.requestOf_writeRequest found full, Table.replyOf_writeRequest]

/-- What the handler leaves as the reply, and in its own state. -/
theorem replyOf_handled (built : pair.far.target.table.Built)
    (found : pair.far.target.table.descriptor? job.id = some there)
    (full : job.contents.length = there.requestSize) :
    let asked := pair.far.target.table.writeRequest there job.contents
    let ran := Target.handlerRun handle asked there pair.far.handlers
    let old := pair.far.target.table.replyOf there
    (Target.handled asked there ran.1).replyOf there =
        (there.handler.elim old fun handler =>
          overlay ((handle ⟨handler, job.contents, old⟩ pair.far.handlers).1.take there.replySize)
            old) ∧
      ran.2 = there.handler.elim pair.far.handlers fun handler =>
        (handle ⟨handler, job.contents, old⟩ pair.far.handlers).2 := by
  intro asked ran old
  have asked_built : asked.Built := .writeRequest _ built found
  have asked_reply : asked.replyOf there = old := Table.replyOf_writeRequest _ _ _
  have asked_request : asked.requestOf there = job.contents :=
    built.requestOf_writeRequest found full
  cases runs : there.handler with
  | none =>
    have nothing : ran = ([], pair.far.handlers) := by simp only [ran, Target.handlerRun, runs]
    simp only [nothing, Target.handled, runs, asked_reply, Option.elim_none, and_self]
  | some handler =>
    have called : ran = handle ⟨handler, job.contents, old⟩ pair.far.handlers := by
      simp only [ran, Target.handlerRun, runs, asked_reply, asked_request]
    simp only [Target.handled, runs, asked_built.replyOf_writeReply found, asked_reply, called,
      Option.elim_some, and_self]

/-- A round between halves in sync carries out its job and leaves them in sync. The sizes stay for
later rounds, and the initiator is connected. -/
theorem round_carries (sync : pair.InSync) (takes : pair.Takes job)
    (ready : pair.near.tooSoon job.now = false) :
    (∃ there, pair.far.target.table.descriptor? job.id = some there ∧
      pair.Carries handle job there) ∧
    (pair.round handle job).2.InSync ∧
    (∀ id, (pair.round handle job).2.near.table.sizes? id = pair.near.table.sizes? id) ∧
    ∀ later, (pair.round handle job).2.near.tooSoon later = false := by
  obtain ⟨replySize, known⟩ := takes
  obtain ⟨here, near_found, near_full, near_due⟩ := Table.sizes?_eq_some known
  obtain ⟨there, found, full, due⟩ := Table.sizes?_eq_some ((sync.sizes job.id).symm.trans known)
  obtain ⟨device, nearDevice, outcome, replied, sound, silent, near_sound, near_silent⟩ :=
    round_eq handle sync ready near_found near_full.symm found full.symm
      (due.trans near_due.symm)
  obtain ⟨left, handlers⟩ := replyOf_handled handle sync.far_built found full.symm
  have loaded_built := Initiator.built_load sync.near_built near_found
  have loaded_found := Initiator.descriptor?_load near_found
  refine ⟨⟨there, found, ?_⟩, ?_, ?_, ?_⟩
  · have far_reply := Target.reply?_served job.contents
      (Target.handlerRun handle (pair.far.target.table.writeRequest there job.contents) there
        pair.far.handlers).1 found
    constructor
    case event | result | sent | handled => rw [outcome]
    case request =>
      rw [outcome]
      exact Target.request?_served sync.far_built found full.symm
    case near_request =>
      rw [outcome, Initiator.request?_afterReply loaded_found,
        Initiator.requestOf_load sync.near_built near_found near_full.symm]
    case far_reply =>
      rw [outcome]
      exact far_reply.trans (congrArg some left)
    case near_reply =>
      rw [outcome, far_reply]
      exact Initiator.reply?_afterReply loaded_built loaded_found replied
    case status =>
      rw [outcome]
      exact Target.status?_served found
    case handlers =>
      rw [outcome]
      exact handlers
  · rw [outcome]
    constructor
    case near_built =>
      rw [Initiator.table_afterReply]
      exact .writeReply _ loaded_built loaded_found
    case far_built => exact Target.built_served sync.far_built found
    case sizes =>
      intro id
      rw [Target.sizes?_served, ← sync.sizes]
      exact Initiator.sizes?_load near_found id
    case duplex =>
      rw [Initiator.link_afterReply, Initiator.link_load near_found]
      exact sync.duplex
    case near_sound =>
      rw [Initiator.link_afterReply, Initiator.link_load near_found]
      exact near_sound
    case far_sound => exact sound
    case near_silent => exact near_silent
    case far_silent => exact silent
  · intro id
    rw [outcome]
    exact Initiator.sizes?_load near_found id
  · intro later
    rw [outcome]
    rfl

end Round

/-- Both halves as they start: the same settings, the same table and devices that fit the line. -/
def new (config : LinkConfig) (table : Table Handler) (handlers : τ) : Pair Handler τ :=
  let device : ScriptedDevice := { echo := decide (config.line.duplex = .half) }
  ⟨⟨.ofConfig config table, device, handlers⟩, .ofConfig config table, device⟩

theorem inSync_new {config : LinkConfig} {table : Table Handler} {handlers : τ}
    (built : table.Built) : (new config table handlers).InSync :=
  ⟨built, built, fun _ => rfl, rfl, ⟨rfl, rfl, rfl⟩, ⟨rfl, rfl, rfl⟩, rfl, rfl⟩

/-- Any number of rounds between halves in sync goes well, whatever the handlers do. Each carries
out its job, and after the last one the halves are in sync. Only the first attempt could come too
soon. -/
theorem rounds_carry (handle : HandlerCall Handler → τ → List UInt8 × τ) (pair : Pair Handler τ)
    (jobs : List Job) (sync : pair.InSync) (takes : ∀ job ∈ jobs, pair.Takes job)
    (ready : ∀ job ∈ jobs.head?, pair.near.tooSoon job.now = false) :
    (∀ before job after, jobs = before ++ job :: after →
      ∃ there, (pair.rounds handle before).far.target.table.descriptor? job.id = some there ∧
        (pair.rounds handle before).Carries handle job there) ∧
    (pair.rounds handle jobs).InSync := by
  induction jobs generalizing pair with
  | nil =>
    refine ⟨?_, sync⟩
    intro before job after none_left
    exact absurd none_left.symm (by simp)
  | cons first later ih =>
    obtain ⟨carried, still, sizes, connected⟩ := round_carries handle sync
      (takes first (List.mem_cons_self ..)) (ready first rfl)
    have others := ih (pair.round handle first).2 still
      (fun job member => by
        obtain ⟨replySize, known⟩ := takes job (List.mem_cons_of_mem _ member)
        exact ⟨replySize, (sizes job.id).trans known⟩)
      (fun job _ => connected job.now)
    refine ⟨?_, others.2⟩
    intro before job after split
    cases before with
    | nil =>
      cases split
      exact carried
    | cons done before =>
      cases split
      exact others.1 before job after rfl

/-- Two rounds of one transaction on a half-duplex line, with a handler that flips every bit. -/
theorem rounds_carry_single :
    let pair : Pair Unit Unit := new (LinkConfig.withDuplex {} .half) (.single (some ())) ()
    let flip : HandlerCall Unit → Unit → List UInt8 × Unit :=
      fun call _ => (call.input.map (~~~ ·), ())
    pair.InSync ∧ ∃ there,
      (pair.rounds flip [⟨0, 1, [5]⟩]).far.target.table.descriptor? 1 = some there ∧
        (pair.rounds flip [⟨0, 1, [5]⟩]).Carries flip ⟨0, 1, [6]⟩ there := by
  intro pair flip
  have sync : pair.InSync := inSync_new (Table.single_built _)
  refine ⟨sync, ?_⟩
  refine (rounds_carry flip pair [⟨0, 1, [5]⟩, ⟨0, 1, [6]⟩] sync ?_ ?_).1 [⟨0, 1, [5]⟩] ⟨0, 1, [6]⟩
    [] rfl
  · intro job member
    simp only [List.mem_cons, List.not_mem_nil, or_false] at member
    rcases member with rfl | rfl
    · exact ⟨1, rfl⟩
    · exact ⟨1, rfl⟩
  · intro job first
    cases first
    rfl

end Pair
end SplitKeyboard
