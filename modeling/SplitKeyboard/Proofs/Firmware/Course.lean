import SplitKeyboard.Firmware.Housekeeping
import SplitKeyboard.Proofs.Transcript

/-!
What a round of housekeeping can do, part by part. A round mirrors two values and reads the heartbeat,
or only probes, and at its end it reports a link that has come or gone. Whatever is known of a round
is told from this.
-/
namespace SplitKeyboard.Firmware

abbrev HousekeepingExchange :=
  Program.Exchange (Program.EitherReply LinkCall.Reply BoardRequest.Reply)

/-- The values that housekeeping mirrors. -/
inductive Mirrored where
  | speed
  | state
  deriving DecidableEq

namespace Mirrored

def source : Mirrored → BoardRequest
  | speed => .localSpeed
  | state => .localState

abbrev Value (mirrored : Mirrored) : Type := mirrored.source.Reply

instance : (mirrored : Mirrored) → DecidableEq mirrored.Value
  | speed => inferInstanceAs (DecidableEq UInt8)
  | state => inferInstanceAs (DecidableEq SharedState)

def push : (mirrored : Mirrored) → mirrored.Value → LinkCall
  | speed, value => .pushSpeed value
  | state, value => .pushState value

def gate : Mirrored → Housekeeping → SyncGate
  | speed, keeper => keeper.speedGate
  | state, keeper => keeper.stateGate

def sent : (mirrored : Mirrored) → Housekeeping → Option mirrored.Value
  | speed, keeper => keeper.sentSpeed
  | state, keeper => keeper.sentState

def note : (mirrored : Mirrored) → SyncGate → Option mirrored.Value → Housekeeping → Housekeeping
  | speed, speedGate, sentSpeed, keeper => { keeper with speedGate, sentSpeed }
  | state, stateGate, sentState, keeper => { keeper with stateGate, sentState }

/-- The gate after a look at the value. -/
abbrev opened (mirrored : Mirrored) (keeper : Housekeeping) (value : mirrored.Value) : SyncGate :=
  Housekeeping.openIfNew (mirrored.gate keeper) (mirrored.sent keeper) value

/-- The value that an exchange reads. -/
def read? : (mirrored : Mirrored) → HousekeepingExchange → Option mirrored.Value
  | speed, ⟨.inr .localSpeed, value⟩ => some value
  | state, ⟨.inr .localState, value⟩ => some value
  | _, _ => none

/-- The value that an exchange pushes, and whether the call went well. -/
def push? : (mirrored : Mirrored) → HousekeepingExchange → Option (mirrored.Value × Bool)
  | speed, ⟨.inl (.pushSpeed value), reply⟩ => some (value, reply.answer.isSome)
  | state, ⟨.inl (.pushState value), reply⟩ => some (value, reply.answer.isSome)
  | _, _ => none

/-- The part of a round that mirrors one value. -/
def tend (mirrored : Mirrored) (keeper : Housekeeping) (now : Millis) :
    HousekeepingProgram Housekeeping := do
  let value ← Housekeeping.askBoard mirrored.source
  let keeper := mirrored.note (mirrored.opened keeper value) (mirrored.sent keeper) keeper
  if (mirrored.gate keeper).isDue now then
    match ← keeper.call (mirrored.push value) with
    | (none, keeper) => return keeper
    | (some _, keeper) =>
      return mirrored.note ((mirrored.gate keeper).delivered now) (some value) keeper
  else return keeper

theorem tend_speed : speed.tend = Housekeeping.pushSpeed := rfl

theorem tend_state : state.tend = Housekeeping.pushState := rfl

end Mirrored

/-- Whether an exchange records a disconnect. -/
def HousekeepingExchange.loses : HousekeepingExchange → Bool
  | ⟨.inr (.report status), _⟩ => !status.connected
  | _ => false

/-- One round of a run, with the keeper before and after it. -/
structure Round where
  before : Housekeeping
  exchanges : List HousekeepingExchange
  after : Housekeeping

/-- The rounds of a run, one after the other, in surroundings that answer as they like. -/
def Housekeeping.rounds {σ : Type}
    (answer : (request : LinkCall ⊕ BoardRequest) → σ →
      Program.EitherReply LinkCall.Reply BoardRequest.Reply request × σ)
    (keeper : Housekeeping) (s : σ) : (count : Nat) → List Round
  | 0 => []
  | count + 1 =>
    let (after, t) := keeper.round.run answer s
    ⟨keeper, keeper.round.trace answer s, after⟩ :: after.rounds answer t count

section Course

variable {mirrored : Mirrored} {keeper ready after : Housekeeping} {now : Millis}
  {exchanges : List HousekeepingExchange} {gate : SyncGate} {sent : Option mirrored.Value}

namespace Mirrored

@[simp] theorem gate_note : mirrored.gate (mirrored.note gate sent keeper) = gate := by
  cases mirrored <;> rfl

@[simp] theorem sent_note : mirrored.sent (mirrored.note gate sent keeper) = sent := by
  cases mirrored <;> rfl

@[simp] theorem read?_source (value : mirrored.Value) :
    mirrored.read? ⟨.inr mirrored.source, value⟩ = some value := by
  cases mirrored <;> rfl

@[simp] theorem push?_push (value : mirrored.Value) (reply : CallReply) :
    mirrored.push? ⟨.inl (mirrored.push value), reply⟩ = some (value, reply.answer.isSome) := by
  cases mirrored <;> rfl

@[simp] theorem read?_call (call : LinkCall) (reply : CallReply) :
    mirrored.read? ⟨.inl call, reply⟩ = none := by
  cases mirrored <;> rfl

@[simp] theorem push?_board (request : BoardRequest) (reply : request.Reply) :
    mirrored.push? ⟨.inr request, reply⟩ = none := by
  cases mirrored <;> rfl

@[simp] theorem gate_called (connected : Bool) (stats : LinkStats) :
    mirrored.gate { keeper with connected, stats } = mirrored.gate keeper := by
  cases mirrored <;> rfl

@[simp] theorem sent_called (connected : Bool) (stats : LinkStats) :
    mirrored.sent { keeper with connected, stats } = mirrored.sent keeper := by
  cases mirrored <;> rfl

/-- What the part of a round can do that mirrors one value. -/
inductive Tending (mirrored : Mirrored) (keeper : Housekeeping) (now : Millis) :
    List HousekeepingExchange → Housekeeping → Prop
  | held (value : mirrored.Value) (early : (mirrored.opened keeper value).isDue now = false) :
      Tending mirrored keeper now [⟨.inr mirrored.source, value⟩]
        (mirrored.note (mirrored.opened keeper value) (mirrored.sent keeper) keeper)
  | failed (value : mirrored.Value) (due : (mirrored.opened keeper value).isDue now = true)
      (connected stats) :
      Tending mirrored keeper now
        [⟨.inr mirrored.source, value⟩, ⟨.inl (mirrored.push value), ⟨none, connected, stats⟩⟩]
        { mirrored.note (mirrored.opened keeper value) (mirrored.sent keeper) keeper with
          connected, stats }
  | delivered (value : mirrored.Value) (due : (mirrored.opened keeper value).isDue now = true)
      (answer connected stats) :
      Tending mirrored keeper now
        [⟨.inr mirrored.source, value⟩,
          ⟨.inl (mirrored.push value), ⟨some answer, connected, stats⟩⟩]
        (mirrored.note ((mirrored.opened keeper value).delivered now) (some value)
          { mirrored.note (mirrored.opened keeper value) (mirrored.sent keeper) keeper with
            connected, stats })

theorem tend_tending (h : Program.Leads (mirrored.tend keeper now) exchanges (.done after)) :
    mirrored.Tending keeper now exchanges after := by
  obtain ⟨value, rest, rfl, left⟩ := h.ask_inv
  simp only [Program.bind, gate_note] at left
  split at left
  · next due =>
    obtain ⟨reply, rest, rfl, answered⟩ := left.ask_inv
    obtain ⟨answer, connected, stats⟩ := reply
    cases answer with
    | none =>
      obtain ⟨rfl, same⟩ := answered.done_inv
      cases same
      exact .failed value due connected stats
    | some answer =>
      obtain ⟨rfl, same⟩ := answered.done_inv
      cases same
      have delivered := Tending.delivered value due answer connected stats
      simpa only [gate_called, gate_note] using delivered
  · next early =>
    obtain ⟨rfl, same⟩ := left.done_inv
    cases same
    exact .held value (Bool.not_eq_true _ ▸ early)

end Mirrored

/-- What reading the heartbeat can do. -/
inductive Beating (keeper : Housekeeping) (now : Millis) :
    List HousekeepingExchange → Housekeeping → Prop
  | early (early : keeper.heartbeatGate.isDue now = false) : Beating keeper now [] keeper
  | missed (due : keeper.heartbeatGate.isDue now = true) (reply : CallReply) :
      Beating keeper now [⟨.inl .readHeartbeat, reply⟩]
        { keeper with connected := reply.connected, stats := reply.stats }
  | counted (due : keeper.heartbeatGate.isDue now = true) (a b c d connected stats) :
      Beating keeper now [⟨.inl .readHeartbeat, ⟨some [a, b, c, d], connected, stats⟩⟩]
        { keeper with
          connected, stats
          heartbeatGate := keeper.heartbeatGate.delivered now
          status := { keeper.status with heartbeat := some (heartbeatOfBytes [a, b, c, d]) } }

theorem readHeartbeat_beating
    (h : Program.Leads (keeper.readHeartbeat now) exchanges (.done after)) :
    Beating keeper now exchanges after := by
  unfold Housekeeping.readHeartbeat at h
  split at h
  · next due =>
    obtain ⟨⟨answer, connected, stats⟩, rest, rfl, left⟩ := h.ask_inv
    simp only [Program.bind] at left
    split at left
    all_goals
      obtain ⟨rfl, same⟩ := left.done_inv
      cases same
    · exact .counted due ..
    · exact .missed due _
  · next early =>
    obtain ⟨rfl, same⟩ := h.done_inv
    cases same
    exact .early (Bool.not_eq_true _ ▸ early)

/-- What a report says of the link. -/
def Housekeeping.noted (keeper : Housekeeping) : LinkStatus :=
  { keeper.status with connected := keeper.connected, stats := keeper.stats }

/-- What the end of a round can do. -/
inductive Reporting (keeper : Housekeeping) : List HousekeepingExchange → Housekeeping → Prop
  | nothing (same : keeper.connected = keeper.status.connected) : Reporting keeper [] keeper
  | found (connected : keeper.connected = true) (before : keeper.status.connected = false) :
      Reporting keeper [⟨.inr (.report keeper.noted), ()⟩] { keeper with status := keeper.noted }
  | lost (apart : keeper.connected = false) (before : keeper.status.connected = true) :
      Reporting keeper [⟨.inr (.report keeper.noted), ()⟩]
        { keeper with status := keeper.noted, sentSpeed := none, sentState := none }

theorem reportLink_reporting (h : Program.Leads keeper.reportLink exchanges (.done after)) :
    Reporting keeper exchanges after := by
  unfold Housekeeping.reportLink at h
  split at h
  · next same =>
    obtain ⟨rfl, still⟩ := h.done_inv
    cases still
    exact .nothing same
  · next differs =>
    obtain ⟨reply, rest, rfl, left⟩ := h.ask_inv
    have changed : keeper.status.connected = !keeper.connected := by
      rw [Bool.eq_not]
      exact Ne.symm differs
    simp only [Program.bind] at left
    split at left
    · next connected =>
      obtain ⟨rfl, same⟩ := left.done_inv
      cases same
      have connected : keeper.connected = true := connected
      exact .found connected (by rw [changed, connected]; rfl)
    · next apart =>
      obtain ⟨rfl, same⟩ := left.done_inv
      cases same
      have apart : keeper.connected = false := Bool.not_eq_true _ ▸ apart
      exact .lost apart (by rw [changed, apart]; rfl)

/-- What a round can do between its start, at this time, and its end. -/
inductive Course (keeper : Housekeeping) (now : Millis) :
    List HousekeepingExchange → Housekeeping → Prop
  | together {speeding stating beating sped stated ready} (connected : keeper.connected = true)
      (speed : Mirrored.speed.Tending keeper now speeding sped)
      (state : Mirrored.state.Tending sped now stating stated)
      (beat : Beating stated now beating ready) :
      Course keeper now (speeding ++ stating ++ beating) ready
  | alone (apart : keeper.connected = false) (reply : CallReply) :
      Course keeper now [⟨.inl .probe, reply⟩]
        { keeper with connected := reply.connected, stats := reply.stats }

theorem round_course (h : Program.Leads keeper.round exchanges (.done after)) :
    ∃ now first last ready, exchanges = ⟨.inr .clock, now⟩ :: (first ++ last) ∧
      Course keeper now first ready ∧ Reporting ready last after := by
  obtain ⟨now, rest, rfl, left⟩ := h.ask_inv
  simp only [Program.bind] at left
  split at left
  · next connected =>
    obtain ⟨speeding, rest, sped, rfl, speed, left⟩ := Program.Leads.of_bind left
    obtain ⟨stating, rest, stated, rfl, state, left⟩ := Program.Leads.of_bind left
    obtain ⟨beating, rest, ready, rfl, beat, reports⟩ := Program.Leads.of_bind left
    rw [← Mirrored.tend_speed] at speed
    rw [← Mirrored.tend_state] at state
    have course := Course.together connected (Mirrored.tend_tending speed)
      (Mirrored.tend_tending state) (readHeartbeat_beating beat)
    exact ⟨now, _, rest, ready, by simp, course, reportLink_reporting reports⟩
  · next apart =>
    obtain ⟨probing, rest, ready, rfl, probed, reports⟩ := Program.Leads.of_bind left
    obtain ⟨reply, nothing, rfl, ended⟩ := probed.ask_inv
    obtain ⟨rfl, same⟩ := ended.done_inv
    cases same
    have apart : keeper.connected = false := Bool.not_eq_true _ ▸ apart
    exact ⟨now, _, rest, _, rfl, .alone apart reply, reportLink_reporting reports⟩

end Course

end SplitKeyboard.Firmware
