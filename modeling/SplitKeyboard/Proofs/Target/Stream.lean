import SplitKeyboard.Proofs.Rounds

/-!
A target that is polled until nothing is left to read. Whatever bytes are waiting, it takes them
turn by turn as a parser does: an ID and its request, over and over, up to the end or to the first
turn that fails, which drops the rest.
-/
namespace SplitKeyboard

open Bench (WireEnd ScriptedDevice Rig answerBoth)

namespace Target

variable {Handler τ : Type} (handle : HandlerCall Handler → τ → List UInt8 × τ)

/-- What a poll shows. -/
structure Sight (Handler : Type) where
  event : Except TargetError TargetEvent
  handled : List (HandlerCall Handler)

/-- What becomes of an ID and the bytes behind it. -/
structure Turn (Handler τ : Type) where
  sight : Sight Handler
  written : List UInt8
  table : Table Handler
  handlers : τ
  /-- The bytes that are left for the next turn. -/
  rest : List UInt8

/-- An ID without an entry drops what is behind it. Else its token is written. If the request has
not come in full, as much as there is of it is kept, and the ID has failed. Else the handler is
called once, and what it leaves as the reply is written. -/
def turn (table : Table Handler) (handlers : τ) (id : TransactionId) (rest : List UInt8) :
    Turn Handler τ :=
  match table.descriptor? id with
  | none =>
    { sight := ⟨.error (if table.capacity ≤ id.toNat then .desync id else .unregistered id), []⟩
      written := [], table, handlers, rest := [] }
  | some entry =>
    if rest.length < entry.requestSize then
      { sight := ⟨.error (.receive id), []⟩
        written := [handshakeToken id]
        table := (table.writeRequest entry rest).setStatus id .dataError
        handlers, rest := [] }
    else
      let asked := table.writeRequest entry (rest.take entry.requestSize)
      let (output, handlers) := handlerRun handle asked entry handlers
      let answered := handled asked entry output
      { sight := ⟨.ok (.served id), entry.handler.toList.map fun handler =>
          ⟨handler, asked.requestOf entry, asked.replyOf entry⟩⟩
        written := handshakeToken id :: answered.replyOf entry
        table := answered.setStatus id .accepted
        handlers, rest := rest.drop entry.requestSize }

theorem length_rest_turn (table : Table Handler) (handlers : τ) (id : TransactionId)
    (rest : List UInt8) : (turn handle table handlers id rest).rest.length ≤ rest.length := by
  unfold turn
  split
  · exact Nat.zero_le _
  · split
    · exact Nat.zero_le _
    · exact (List.length_drop ▸ Nat.sub_le _ _)

/-- What becomes of a stream of bytes. -/
structure Reading (Handler τ : Type) where
  sights : List (Sight Handler)
  written : List UInt8
  table : Table Handler
  handlers : τ

def Turn.reading (turn : Turn Handler τ) : Reading Handler τ :=
  ⟨[turn.sight], turn.written, turn.table, turn.handlers⟩

/-- The second reading comes behind the first. -/
def Reading.followedBy (first second : Reading Handler τ) : Reading Handler τ :=
  ⟨first.sights ++ second.sights, first.written ++ second.written, second.table, second.handlers⟩

/-- Takes turns until no byte is left. -/
def parse (table : Table Handler) (handlers : τ) : List UInt8 → Reading Handler τ
  | [] => ⟨[], [], table, handlers⟩
  | id :: rest =>
    let first := turn handle table handlers id rest
    first.reading.followedBy (parse first.table first.handlers first.rest)
termination_by bytes => bytes.length
decreasing_by exact Nat.lt_succ_of_le (length_rest_turn handle table handlers id rest)

section Turn

variable {handle} {table : Table Handler} {handlers : τ} {id : TransactionId}
  {rest request : List UInt8} {entry : Descriptor Handler}

theorem turn_unknown (unknown : table.descriptor? id = none) :
    turn handle table handlers id rest =
      ⟨⟨.error (if table.capacity ≤ id.toNat then .desync id else .unregistered id), []⟩, [], table,
        handlers, []⟩ := by
  simp only [turn, unknown]

theorem turn_short (found : table.descriptor? id = some entry)
    (few : rest.length < entry.requestSize) :
    turn handle table handlers id rest =
      ⟨⟨.error (.receive id), []⟩, [handshakeToken id],
        (table.writeRequest entry rest).setStatus id .dataError, handlers, []⟩ := by
  simp only [turn, found, if_pos few]

variable (handle) (handlers) in
theorem turn_complete (found : table.descriptor? id = some entry)
    (full : request.length = entry.requestSize) :
    turn handle table handlers id (request ++ rest) =
      let asked := table.writeRequest entry request
      let ran := handlerRun handle asked entry handlers
      ⟨⟨.ok (.served id), entry.handler.toList.map fun handler =>
          ⟨handler, asked.requestOf entry, asked.replyOf entry⟩⟩,
        handshakeToken id :: (handled asked entry ran.1).replyOf entry,
        served table entry id request ran.1, ran.2, rest⟩ := by
  have enough : ¬ (request ++ rest).length < entry.requestSize := by
    rw [List.length_append, full]
    omega
  have taken : (request ++ rest).take entry.requestSize = request := by
    rw [← full, List.take_left]
  have left : (request ++ rest).drop entry.requestSize = rest := by
    rw [← full, List.drop_left]
  simp only [turn, found, if_neg enough, taken, left]
  rfl

/-- Three things can become of an ID. -/
theorem turn_cases (table : Table Handler) (id : TransactionId) (bytes : List UInt8) :
    table.descriptor? id = none ∨
      (∃ entry, table.descriptor? id = some entry ∧ bytes.length < entry.requestSize) ∨
      ∃ entry request rest, table.descriptor? id = some entry ∧
        request.length = entry.requestSize ∧ bytes = request ++ rest := by
  cases found : table.descriptor? id with
  | none => exact .inl rfl
  | some entry =>
    by_cases few : bytes.length < entry.requestSize
    · exact .inr (.inl ⟨entry, rfl, few⟩)
    · exact .inr (.inr ⟨entry, bytes.take entry.requestSize, bytes.drop entry.requestSize, rfl,
        List.length_take_of_le (Nat.le_of_not_lt few), (List.take_append_drop _ _).symm⟩)

end Turn

/-- An ID with a request of its size. -/
def Complete (table : Table Handler) (request : TransactionId × List UInt8) : Prop :=
  ∃ replySize, table.sizes? request.1 = some (request.2.length, replySize)

/-- The requests as they come in, one behind the other. -/
def stream (requests : List (TransactionId × List UInt8)) : List UInt8 :=
  requests.flatMap fun request => request.1 :: request.2

theorem stream_cons (request : TransactionId × List UInt8)
    (requests : List (TransactionId × List UInt8)) :
    stream (request :: requests) = request.1 :: (request.2 ++ stream requests) := rfl

theorem followedBy_assoc (first second third : Reading Handler τ) :
    (first.followedBy second).followedBy third = first.followedBy (second.followedBy third) := by
  simp only [Reading.followedBy, List.append_assoc]

section Complete

variable {requests : List (TransactionId × List UInt8)}

/-- A complete request is served, whatever comes behind it, and changes no sizes. -/
theorem turn_append (table : Table Handler) (handlers : τ)
    {request : TransactionId × List UInt8} (complete : Complete table request) :
    let first := turn handle table handlers request.1 request.2
    first.sight.event = .ok (.served request.1) ∧
      (∀ id, first.table.sizes? id = table.sizes? id) ∧
      ∀ rest, turn handle table handlers request.1 (request.2 ++ rest) = { first with rest } := by
  obtain ⟨replySize, known⟩ := complete
  obtain ⟨entry, found, full, _⟩ := Table.sizes?_eq_some known
  have followed (rest : List UInt8) : turn handle table handlers request.1 (request.2 ++ rest) = _ :=
    turn_complete handle handlers found full.symm
  have alone := followed []
  rw [List.append_nil] at alone
  rw [alone]
  exact ⟨rfl, sizes?_served, followed⟩

theorem parse_cons (table : Table Handler) (handlers : τ) {request : TransactionId × List UInt8}
    (complete : Complete table request) (bytes : List UInt8) :
    let first := turn handle table handlers request.1 request.2
    parse handle table handlers (request.1 :: (request.2 ++ bytes)) =
      first.reading.followedBy (parse handle first.table first.handlers bytes) := by
  obtain ⟨_, _, alone⟩ := turn_append handle table handlers complete
  rw [parse, alone]
  rfl

theorem Complete.turn {table : Table Handler} (handlers : τ)
    {request other : TransactionId × List UInt8} (first : Complete table request)
    (second : Complete table other) :
    Complete (turn handle table handlers request.1 request.2).table other := by
  obtain ⟨_, sizes, _⟩ := turn_append handle table handlers first
  obtain ⟨replySize, known⟩ := second
  exact ⟨replySize, (sizes other.1).trans known⟩

/-- Complete requests are served one after the other, and then what comes behind them is read from
what they have left. -/
theorem parse_append (table : Table Handler) (handlers : τ) (rest : List UInt8)
    (complete : ∀ request ∈ requests, Complete table request) :
    let first := parse handle table handlers (stream requests)
    first.sights.map Sight.event = requests.map (fun request => .ok (.served request.1)) ∧
      parse handle table handlers (stream requests ++ rest) =
        first.followedBy (parse handle first.table first.handlers rest) := by
  induction requests generalizing table handlers with
  | nil =>
    simp only [stream, List.flatMap_nil, List.nil_append]
    rw [parse]
    exact ⟨rfl, rfl⟩
  | cons request requests ih =>
    have whole := complete request (List.mem_cons_self ..)
    obtain ⟨event, _, _⟩ := turn_append handle table handlers whole
    obtain ⟨events, split⟩ := ih _ (turn handle table handlers request.1 request.2).handlers
      fun other member => whole.turn handle handlers (complete other (List.mem_cons_of_mem _ member))
    rw [stream_cons, List.cons_append, List.append_assoc, parse_cons handle table handlers whole,
      parse_cons handle table handlers whole, split]
    refine ⟨?_, (followedBy_assoc ..).symm⟩
    simp only [Reading.followedBy, Turn.reading, List.singleton_append, List.map_cons, events, event]

end Complete

section Polls

variable {target : Target Handler} {table : Table Handler} {id : TransactionId}
  {rest : List UInt8} {entry : Descriptor Handler}

/-- A poll that fails drops the input at its end. -/
theorem poll_fails {calls : List (Exchange Handler)} {error : TargetError}
    (reacts : Program.Leads target.react calls (.done (.error error, table))) :
    Program.Leads target.poll (calls ++ [⟨.inl .clear, ()⟩])
      (.done (.error error, { target with table })) :=
  reacts.seq (.ask (.stay _))

/-- The part of a poll that waits for an ID, when one comes. -/
def taking (target : Target Handler) (id : TransactionId) : List (Exchange Handler) :=
  plays { target.link with timeout := target.idleTimeout } [⟨.near, [id]⟩]

theorem taking_leads (target : Target Handler) (id : TransactionId) :
    Program.Leads (onLink (Link.receiveToken target.idleTimeout) : ServingProgram Handler _)
      (target.taking id) (.done (.ok (some id))) :=
  onLink_leads (.ask (.stay _))

/-- An ID without an entry is met with silence. -/
theorem poll_refuses (unknown : target.table.descriptor? id = none) :
    Program.Leads target.poll (target.taking id ++ [⟨.inl .clear, ()⟩])
      (.done (.error (if target.table.capacity ≤ id.toNat then .desync id else .unregistered id),
        target)) := by
  refine poll_fails ?_
  rw [← List.append_nil (target.taking id)]
  refine (taking_leads target id).seq ?_
  simp only [Table.resolve_eq_error unknown]
  by_cases beyond : target.table.capacity ≤ id.toNat
  · simp only [if_pos beyond]
    exact .stay _
  · simp only [if_neg beyond]
    exact .stay _

/-- An ID whose request does not come in full is answered, and then given up. -/
theorem poll_starves (found : target.table.descriptor? id = some entry)
    (few : rest.length < entry.requestSize) :
    Program.Leads target.poll
      (target.taking id ++ (plays target.link [⟨.far, [handshakeToken id]⟩] ++
        [⟨.inl (.read entry.requestSize target.link.timeout), ⟨rest, some rest.length⟩⟩]) ++
        [⟨.inl .clear, ()⟩])
      (.done (.error (.receive id), { target with
        table := (target.table.writeRequest entry rest).setStatus id .dataError })) := by
  refine poll_fails ((taking_leads target id).seq ?_)
  simp only [Table.resolve_eq_ok_iff.mpr found]
  refine (onLink_leads (target.link.send_plays .far (List.cons_ne_nil _ []))).seq ?_
  have some_request : ¬ entry.requestSize = 0 := by omega
  have short : ¬ rest.length = entry.requestSize := by omega
  have starves : Program.Leads (target.link.receive entry.requestSize)
      [⟨.read entry.requestSize target.link.timeout, ⟨rest, some rest.length⟩⟩]
      (.done ⟨rest, .error (.incomplete entry.requestSize rest.length)⟩) := by
    refine .ask ?_
    simp only [if_neg short]
    exact .stay _
  have receives : Program.Leads (receiveRequest target.link target.table entry)
      [⟨.inl (.read entry.requestSize target.link.timeout), ⟨rest, some rest.length⟩⟩]
      (.done (false, target.table.writeRequest entry rest)) := by
    unfold receiveRequest
    rw [if_neg some_request]
    exact (onLink_leads starves).seq (.stay _)
  exact receives.seq (.stay _)

end Polls

end Target

namespace Bench.Rig

variable {Handler τ : Type} (handle : HandlerCall Handler → τ → List UInt8 × τ)

open Target (Sight Reading)

def watch (rig : Rig Handler ScriptedDevice τ) : Sight Handler × Rig Handler ScriptedDevice τ :=
  let (event, after) := rig.poll ScriptedDevice.answer handle
  let exchanges := rig.target.poll.trace (answerBoth ScriptedDevice.answer handle)
    (rig.device, rig.handlers)
  (⟨event, exchanges.filterMap handlerCall?⟩, after)

/-- What a reading leaves, with this device. -/
def after (rig : Rig Handler ScriptedDevice τ) (reading : Reading Handler τ)
    (device : ScriptedDevice) : Rig Handler ScriptedDevice τ :=
  ⟨{ rig.target with table := reading.table }, device, reading.handlers⟩

/-- Polls the target a number of times. -/
def polls : Nat → Rig Handler ScriptedDevice τ → List (Sight Handler) × Rig Handler ScriptedDevice τ
  | 0, rig => ([], rig)
  | count + 1, rig =>
    let (sight, after) := rig.watch handle
    let (sights, last) := after.polls count
    (sight :: sights, last)

section Watch

variable {handle} {rig : Rig Handler ScriptedDevice τ} {id : TransactionId}
  {rest request : List UInt8} {entry : Descriptor Handler}

theorem watch_eq {calls : List (Target.Exchange Handler)} {event : Except TargetError TargetEvent}
    {target : Target Handler} {device : ScriptedDevice} {handlers : τ}
    {handled : List (HandlerCall Handler)}
    (leads : Program.Leads rig.target.poll calls (.done (event, target)))
    (answers : Program.Answers (answerBoth ScriptedDevice.answer handle) calls
      (rig.device, rig.handlers) (device, handlers))
    (shown : calls.filterMap handlerCall? = handled) :
    rig.watch handle = (⟨event, handled⟩, ⟨target, device, handlers⟩) := by
  obtain ⟨ran, traced⟩ := leads.run_eq answers
  simp only [watch, poll, ran, traced, shown]

/-- What a poll must do that makes this turn of what is at the front of its input. -/
structure Makes (handle : HandlerCall Handler → τ → List UInt8 × τ)
    (rig : Rig Handler ScriptedDevice τ) (turn : Target.Turn Handler τ) : Prop where
  watched : ∃ device, rig.watch handle = (turn.sight, rig.after turn.reading device) ∧
    device.Sound rig.target.link.duplex ∧ device.sent = rig.device.sent ++ turn.written ∧
    device.incoming = turn.rest
  built : turn.table.Built

theorem answers_clear {device : ScriptedDevice} (handlers : τ) :
    Program.Answers (answerBoth ScriptedDevice.answer handle) [⟨.inl .clear, ()⟩]
      (device, handlers) ((ScriptedDevice.answer .clear device).2, handlers) :=
  ⟨rfl, rfl⟩

theorem makes_unknown (built : rig.target.table.Built)
    (sound : rig.device.Sound rig.target.link.duplex) (incoming : rig.device.incoming = id :: rest)
    (unknown : rig.target.table.descriptor? id = none) :
    rig.Makes handle (Target.turn handle rig.target.table rig.handlers id rest) := by
  rw [Target.turn_unknown unknown]
  refine ⟨?_, built⟩
  obtain ⟨took, takes_id, still, sent, _⟩ :=
    ScriptedDevice.answers_plays { rig.target.link with timeout := rig.target.idleTimeout } .far
      [⟨.near, [id]⟩] sound incoming
  obtain ⟨last, kept, dropped⟩ := still.clear
  refine ⟨_, watch_eq (Target.poll_refuses unknown) ?_ rfl, last, ?_, dropped⟩
  · exact (answers_beside rig.handlers takes_id).append (answers_clear rig.handlers)
  · rw [kept, sent]
    rfl

theorem makes_short (built : rig.target.table.Built)
    (sound : rig.device.Sound rig.target.link.duplex) (incoming : rig.device.incoming = id :: rest)
    (found : rig.target.table.descriptor? id = some entry)
    (few : rest.length < entry.requestSize) :
    rig.Makes handle (Target.turn handle rig.target.table rig.handlers id rest) := by
  rw [Target.turn_short found few]
  refine ⟨?_, .setStatus _ _ (.writeRequest _ built found)⟩
  obtain ⟨second, takes_id, sound, sent, incoming⟩ :=
    ScriptedDevice.answers_plays { rig.target.link with timeout := rig.target.idleTimeout } .far
      [⟨.near, [id]⟩] sound incoming
  obtain ⟨third, sends_token, sound, token, incoming⟩ :=
    ScriptedDevice.answers_plays rig.target.link .far [⟨.far, [handshakeToken id]⟩] sound incoming
  obtain ⟨fourth, read, sound, silent, _⟩ :=
    sound.read_short (incoming.symm ▸ few) rig.target.link.timeout
  obtain ⟨last, kept, dropped⟩ := sound.clear
  have takes_rest : Program.Answers ScriptedDevice.answer
      [⟨.read entry.requestSize rig.target.link.timeout, ⟨rest, some rest.length⟩⟩] third fourth := by
    rw [incoming] at read
    exact ⟨congrArg Prod.fst read, (congrArg Prod.snd read).symm⟩
  refine ⟨_, watch_eq (Target.poll_starves found few) ?_ ?_, last, ?_, dropped⟩
  · refine Program.Answers.append ?_ (answers_clear rig.handlers)
    apply (answers_beside rig.handlers takes_id).append
    exact (answers_beside rig.handlers sends_token).append (answers_beside rig.handlers takes_rest)
  · simp only [List.filterMap_append, Target.taking, handlerCall?_plays]
    rfl
  · rw [kept, silent, token, sent]
    simp [Message.bytesFrom]

theorem makes_complete (built : rig.target.table.Built)
    (sound : rig.device.Sound rig.target.link.duplex)
    (incoming : rig.device.incoming = id :: (request ++ rest))
    (found : rig.target.table.descriptor? id = some entry)
    (full : request.length = entry.requestSize) :
    rig.Makes handle (Target.turn handle rig.target.table rig.handlers id (request ++ rest)) := by
  rw [Target.turn_complete handle rig.handlers found full]
  refine ⟨?_, Target.built_served built found⟩
  obtain ⟨device, answers, still, left, sent⟩ :=
    answers_polling handle entry rig.handlers sound incoming
  have leads := Target.poll_polling (Target.handlerRun handle
    (rig.target.table.writeRequest entry request) entry rig.handlers).1 built found full
  exact ⟨device, watch_eq leads answers (handlerCall?_polling ..), still, sent, left⟩

variable (handle)

/-- A poll makes one turn of what is at the front of the input. -/
theorem makes_turn (built : rig.target.table.Built)
    (sound : rig.device.Sound rig.target.link.duplex)
    (incoming : rig.device.incoming = id :: rest) :
    rig.Makes handle (Target.turn handle rig.target.table rig.handlers id rest) := by
  rcases Target.turn_cases rig.target.table id rest with
    unknown | ⟨entry, found, few⟩ | ⟨entry, request, left, found, full, rfl⟩
  · exact makes_unknown built sound incoming unknown
  · exact makes_short built sound incoming found few
  · exact makes_complete built sound incoming found full

theorem watch_idle (sound : rig.device.Sound rig.target.link.duplex)
    (silent : rig.device.incoming = []) :
    ∃ device, rig.watch handle = (⟨.ok .idle, []⟩, { rig with device }) ∧
      device.sent = rig.device.sent ∧ device.incoming = [] := by
  have few : rig.device.incoming.length < 1 := by simp [silent]
  obtain ⟨device, read, _, sent, left⟩ := sound.read_short few rig.target.idleTimeout
  rw [silent] at read
  obtain ⟨next, asks, idle⟩ := Target.poll_asks rig.target
  have leads : Program.Leads rig.target.poll
      [⟨.inl (.read 1 rig.target.idleTimeout), (⟨[], some 0⟩ : Delivery)⟩]
      (.done (.ok .idle, rig.target)) := by
    rw [asks]
    refine .ask ?_
    rw [idle]
    exact .stay _
  refine ⟨device, watch_eq leads ⟨congrArg Prod.fst read, ?_⟩ rfl, sent, left⟩
  exact congrArg (·, rig.handlers) (congrArg Prod.snd read).symm

end Watch

theorem event_turn (table : Table Handler) (handlers : τ) (id : TransactionId)
    (rest : List UInt8) :
    (Target.turn handle table handlers id rest).sight.event ≠ .ok .idle := by
  unfold Target.turn
  split
  · simp
  · split
    · simp
    · simp

/-- Polls up to the first idle one show just this reading of what is waiting, and no more of them are
needed than there are bytes. -/
structure Reads (rig : Rig Handler ScriptedDevice τ) (reading : Reading Handler τ) : Prop where
  few : reading.sights.length ≤ rig.device.incoming.length
  busy : ∀ sight ∈ reading.sights, sight.event ≠ .ok .idle
  polled : ∃ device, rig.polls handle (reading.sights.length + 1) =
      (reading.sights ++ [⟨.ok .idle, []⟩], rig.after reading device) ∧
    device.sent = rig.device.sent ++ reading.written ∧ device.incoming = []

section Reads

variable {handle} {rig : Rig Handler ScriptedDevice τ} {turn : Target.Turn Handler τ}
  {device : ScriptedDevice} {reading : Reading Handler τ}

theorem polls_succ {next last : Rig Handler ScriptedDevice τ} {sight : Sight Handler}
    {sights : List (Sight Handler)} {count : Nat} (watched : rig.watch handle = (sight, next))
    (polled : next.polls handle count = (sights, last)) :
    rig.polls handle (count + 1) = (sight :: sights, last) := by
  simp only [polls, watched, polled]

theorem reads_nothing (sound : rig.device.Sound rig.target.link.duplex)
    (silent : rig.device.incoming = []) :
    rig.Reads handle ⟨[], [], rig.target.table, rig.handlers⟩ := by
  obtain ⟨device, watched, sent, left⟩ := watch_idle handle sound silent
  refine ⟨Nat.zero_le _, by simp, device, ?_, sent.trans (List.append_nil _).symm, left⟩
  simp only [polls, watched, List.length_nil, List.nil_append]
  rfl

/-- One turn, and then what is read of the rest. -/
theorem Reads.after_turn (watched : rig.watch handle = (turn.sight, rig.after turn.reading device))
    (sent : device.sent = rig.device.sent ++ turn.written)
    (shrinks : device.incoming.length < rig.device.incoming.length)
    (busy : turn.sight.event ≠ .ok .idle)
    (reads : (rig.after turn.reading device).Reads handle reading) :
    rig.Reads handle (turn.reading.followedBy reading) := by
  obtain ⟨few, others, last, polled, wrote, silent⟩ := reads
  have one_more : (turn.reading.followedBy reading).sights.length = reading.sights.length + 1 := rfl
  refine ⟨?_, ?_, last, ?_, ?_, silent⟩
  · rw [one_more]
    exact Nat.lt_of_le_of_lt few shrinks
  · intro sight shown
    rcases List.mem_cons.mp shown with rfl | later
    · exact busy
    · exact others sight later
  · rw [one_more]
    exact polls_succ watched polled
  · rw [wrote, Target.Reading.followedBy, ← List.append_assoc]
    exact congrArg (· ++ _) sent

end Reads

/-- Until it is idle, a target does with the bytes on its device what the parser does. -/
theorem reads_parse (rig : Rig Handler ScriptedDevice τ) (built : rig.target.table.Built)
    (sound : rig.device.Sound rig.target.link.duplex) :
    rig.Reads handle (Target.parse handle rig.target.table rig.handlers rig.device.incoming) := by
  -- By the number of bytes that wait: a turn takes the ID at least, and no echo is left behind it.
  induction measured : rig.device.incoming.length using Nat.strongRecOn generalizing rig with
  | ind size ih =>
    cases incoming : rig.device.incoming with
    | nil =>
      rw [Target.parse]
      exact reads_nothing sound incoming
    | cons id rest =>
      obtain ⟨⟨device, watched, still, sent, left⟩, turned⟩ :=
        makes_turn handle built sound incoming
      have shrinks : device.incoming.length < rig.device.incoming.length := by
        rw [left, incoming, List.length_cons]
        exact Nat.lt_succ_of_le (Target.length_rest_turn handle _ _ id rest)
      let first := Target.turn handle rig.target.table rig.handlers id rest
      have later := ih _ (measured ▸ shrinks) (rig.after first.reading device) turned still rfl
      have leaves : (rig.after first.reading device).device.incoming = first.rest := left
      rw [leaves] at later
      rw [Target.parse]
      exact later.after_turn watched sent shrinks (event_turn handle _ _ id rest)

/-- Complete requests at the front are served by as many polls, and the rest is left. -/
theorem polls_requests (rig : Rig Handler ScriptedDevice τ)
    {requests : List (TransactionId × List UInt8)} {rest : List UInt8}
    (built : rig.target.table.Built) (sound : rig.device.Sound rig.target.link.duplex)
    (incoming : rig.device.incoming = Target.stream requests ++ rest)
    (complete : ∀ request ∈ requests, Target.Complete rig.target.table request) :
    let first := Target.parse handle rig.target.table rig.handlers (Target.stream requests)
    ∃ device, rig.polls handle requests.length = (first.sights, rig.after first device) ∧
      device.Sound rig.target.link.duplex ∧ first.table.Built ∧
      device.sent = rig.device.sent ++ first.written ∧ device.incoming = rest := by
  induction requests generalizing rig with
  | nil =>
    intro first
    have nothing : first = ⟨[], [], rig.target.table, rig.handlers⟩ := by
      simp only [first, Target.stream, List.flatMap_nil, Target.parse]
    rw [nothing]
    exact ⟨rig.device, rfl, sound, built, (List.append_nil _).symm, incoming⟩
  | cons request requests ih =>
    have whole := complete request (List.mem_cons_self ..)
    rw [Target.stream_cons, List.cons_append, List.append_assoc] at incoming
    have makes := makes_turn handle built sound incoming
    -- The turn does not depend on what is behind the request, which is all that it leaves.
    rw [(Target.turn_append handle rig.target.table rig.handlers whole).2.2] at makes
    obtain ⟨⟨device, watched, still, sent, left⟩, turned⟩ := makes
    let turn := Target.turn handle rig.target.table rig.handlers request.1 request.2
    obtain ⟨last, polled, sound, built, wrote, ends⟩ :=
      ih (rig.after turn.reading device) turned still left fun other member =>
        whole.turn handle rig.handlers (complete other (List.mem_cons_of_mem _ member))
    rw [Target.stream_cons, Target.parse_cons handle rig.target.table rig.handlers whole]
    refine ⟨last, polls_succ watched polled, sound, built, ?_, ends⟩
    · rw [wrote, Target.Reading.followedBy, ← List.append_assoc]
      exact congrArg (· ++ _) sent

/-- A target does with any bytes on its device what the parser does, and is then idle, after at most
as many polls as there are bytes. Complete requests at their front are served in order, and what comes
behind them is then read from what they have left. -/
theorem polls_stream (rig : Rig Handler ScriptedDevice τ) (built : rig.target.table.Built)
    (sound : rig.device.Sound rig.target.link.duplex) :
    let reading := Target.parse handle rig.target.table rig.handlers rig.device.incoming
    rig.Reads handle reading ∧
    ∀ requests rest, rig.device.incoming = Target.stream requests ++ rest →
      (∀ request ∈ requests, Target.Complete rig.target.table request) →
      let first := Target.parse handle rig.target.table rig.handlers (Target.stream requests)
      let second := Target.parse handle first.table first.handlers rest
      first.sights.map Sight.event = requests.map (fun request => .ok (.served request.1)) ∧
      reading = first.followedBy second ∧
      ∃ device, rig.polls handle requests.length = (first.sights, rig.after first device) ∧
        device.sent = rig.device.sent ++ first.written ∧ device.incoming = rest ∧
        (rig.after first device).Reads handle second := by
  refine ⟨reads_parse handle rig built sound, ?_⟩
  intro requests rest incoming complete first second
  obtain ⟨events, split⟩ := Target.parse_append handle rig.target.table rig.handlers rest complete
  obtain ⟨device, polled, still, left_built, sent, left⟩ :=
    polls_requests handle rig built sound incoming complete
  have reads := reads_parse handle (rig.after first device) left_built still
  have leaves : (rig.after first device).device.incoming = rest := left
  rw [leaves] at reads
  exact ⟨events, incoming ▸ split, device, polled, sent, left, reads⟩

/-- On a half-duplex line: a request that is served, and a byte behind it that is no ID. -/
theorem polls_stream_single :
    let flip : HandlerCall Unit → Unit → List UInt8 × Unit :=
      fun call _ => (call.input.map (~~~ ·), ())
    let rig : Rig Unit ScriptedDevice Unit :=
      ⟨.ofConfig (LinkConfig.withDuplex {} .half) (.single (some ())),
        { incoming := [1, 5, 9], echo := true }, ()⟩
    let first := Target.parse flip rig.target.table rig.handlers (Target.stream [(1, [5])])
    rig.target.table.Built ∧ rig.device.Sound rig.target.link.duplex ∧
      rig.Reads flip (Target.parse flip rig.target.table rig.handlers [1, 5, 9]) ∧
      first.sights.map Sight.event = [.ok (.served 1)] ∧
      ∃ device, rig.polls flip 1 = (first.sights, rig.after first device) ∧
        (rig.after first device).Reads flip (Target.parse flip first.table first.handlers [9]) := by
  intro flip rig first
  have built : rig.target.table.Built := Table.single_built (some ())
  have sound : rig.device.Sound rig.target.link.duplex := ⟨rfl, rfl, rfl⟩
  obtain ⟨reads, split⟩ := polls_stream flip rig built sound
  have complete : ∀ request ∈ [((1 : UInt8), [(5 : UInt8)])],
      Target.Complete rig.target.table request := by
    intro request member
    cases List.mem_singleton.mp member
    exact ⟨1, rfl⟩
  obtain ⟨events, _, device, polled, _, _, later⟩ := split [(1, [5])] [9] rfl complete
  exact ⟨built, sound, reads, events, device, polled, later⟩

/-- What there is of a request that has not come in full is not thrown away: it stays in the table. -/
theorem short_request_stays :
    let table : Table Unit := ⟨[none, some ⟨1, 0, 2, 0, .idle, none⟩], [0, 0], 2⟩
    let rig : Rig Unit ScriptedDevice Unit :=
      ⟨.ofConfig (LinkConfig.withDuplex {} .half) table,
        { incoming := [1, 0xAA], echo := true }, ()⟩
    let (sights, after) := rig.polls (fun call _ => (call.output, ())) 2
    sights.map Sight.event = [.error (.receive 1), .ok .idle] ∧
      after.target.table ≠ table.setStatus 1 .dataError ∧
      after.target.table.request? 1 = some [0xAA, 0] ∧
      (table.setStatus 1 .dataError).request? 1 = some [0, 0] := by
  decide

end Bench.Rig
end SplitKeyboard
