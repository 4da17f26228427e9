import SplitKeyboard.Proofs.Firmware.CallLog

/-!
What becomes of a lost link. Whether it was lost is looked at once a round, at its end. A round that
ends without the other half notes the loss, and then both values are pushed again as soon as a round
begins connected. A round in which a later call has found the other half again notes nothing, and what
is pushed after it is what would have been due anyway.
-/
namespace SplitKeyboard.Firmware

section Goes

open Initiator (Goes Memory)

variable {known learned : Memory} {now : Millis} {id : TransactionId} {comes : Bool}
  {calls opened rest : List SerialExchange} {result : Except TransactionError Unit} {phase : Phase}

/-- An order that comes too soon changes nothing. -/
theorem eq_of_goes_soon (goes : Goes known now id comes calls result learned)
    (soon : known.Soon now) : learned = known := by
  cases goes with
  | rejected => rfl
  | throttled => rfl
  | attempted ready => exact absurd soon ready

theorem eq_of_goes_unanswered (goes : Goes known now id comes calls result learned)
    (made : calls = opened ++ rest) (follows : Follows (known.link.opening id) opened (some phase)) :
    learned = known.learn now false := by
  have called : calls ≠ [] := by
    rintro rfl
    cases (List.append_eq_nil_iff.mp made.symm).1
    cases follows
  cases goes with
  | rejected => exact absurd rfl called
  | throttled => exact absurd rfl called
  | attempted ready other opening =>
    cases opening.stop_unique follows made
    rfl

end Goes

section Chain

variable {initiator leaving : Initiator Service} {acts : List Act} {record : CallRecord}

theorem call_goes (performs : record.Performed) :
    ∃ comes result, Initiator.Goes record.before.memory record.now record.call.order.id comes
      record.exchanges result record.after.memory := by
  obtain ⟨_, result, orders⟩ := perform_order performs
  exact ⟨_, result, Initiator.perform_goes orders⟩

/-- After a call that failed to shake hands the initiator is disconnected, and remembers when. -/
theorem CallRecord.HandshakeFails.after (fails : record.HandshakeFails)
    (performs : record.Performed) :
    record.after.connected = false ∧ record.after.lastProbe = some record.now := by
  obtain ⟨opened, rest, phase, made, follows⟩ := fails
  obtain ⟨comes, result, goes⟩ := call_goes performs
  have learned := eq_of_goes_unanswered goes made follows
  exact ⟨congrArg Initiator.Memory.connected learned, congrArg Initiator.Memory.lastProbe learned⟩

/-- Only a handshake that failed disconnects the initiator. -/
theorem CallRecord.handshakeFails_of_lost (performs : record.Performed)
    (connected : record.before.connected = true) (lost : record.after.connected = false) :
    record.HandshakeFails := by
  obtain ⟨comes, result, goes⟩ := call_goes performs
  generalize exchanged : record.exchanges = calls at goes
  generalize learns : record.after.memory = learned at goes
  have learned_lost : learned.connected = false := by
    rw [← learns]
    exact lost
  cases goes with
  | rejected => exact absurd (connected.symm.trans learned_lost) Bool.noConfusion
  | throttled => exact absurd (connected.symm.trans learned_lost) Bool.noConfusion
  | @attempted opened rest stop _ ready other follows =>
    have stopped : stop ≠ none := of_decide_eq_false learned_lost
    obtain ⟨phase, rfl⟩ := Option.ne_none_iff_exists'.mp stopped
    exact ⟨opened, rest, phase, exchanged, follows⟩

/-- No call of housekeeping changes how often the initiator may try. -/
theorem Chain.checkInterval (chain : Chain initiator acts leaving) :
    leaving.checkInterval = initiator.checkInterval := by
  induction chain with
  | nothing => rfl
  | asked later ih => exact ih
  | called record performs later ih =>
    obtain ⟨comes, result, goes⟩ := call_goes performs
    exact ih.trans goes.link_eq.2

theorem Chain.connected (chain : Chain initiator acts leaving) :
    leaving.connected = heard initiator.connected (acts.map Act.exchange) := by
  induction chain with
  | nothing => rfl
  | asked later ih => exact ih
  | called record performs later ih =>
    rw [ih, ← (perform_order performs).1]
    rfl

/-- Calls within the interval after a failed attempt are all held back, so that they find nothing. -/
theorem Chain.held (chain : Chain initiator acts leaving) {last : Millis}
    (apart : initiator.connected = false) (probed : initiator.lastProbe = some last)
    (soon : ∀ record, .called record ∈ acts →
      Millis.since last record.now < initiator.checkInterval) :
    leaving.connected = false := by
  induction chain with
  | nothing => exact apart
  | asked later ih => exact ih apart probed fun record member => soon record (.tail _ member)
  | called record performs later ih =>
    have early : record.before.memory.Soon record.now :=
      ⟨apart, last, probed, soon record (.head _)⟩
    obtain ⟨comes, result, goes⟩ := call_goes performs
    have kept := eq_of_goes_soon goes early
    refine ih ?_ ?_ fun other member => ?_
    · exact (congrArg Initiator.Memory.connected kept).trans apart
    · exact (congrArg Initiator.Memory.lastProbe kept).trans probed
    · have interval : record.after.checkInterval = record.before.checkInterval :=
        congrArg Initiator.Memory.checkInterval kept
      rw [interval]
      exact soon other (.tail _ member)

/-- What is in a chain was performed. -/
theorem Chain.performs (chain : Chain initiator acts leaving) (member : .called record ∈ acts) :
    record.Performed := by
  induction chain with
  | nothing => cases member
  | asked later ih =>
    cases member with
    | tail _ member => exact ih member
  | called other performs later ih =>
    cases member with
    | head => exact performs
    | tail _ member => exact ih member

end Chain

section Run

/-- Housekeeping and the initiator agree on whether the other half is there, and this is what was
reported last. -/
structure Joined (interval : UInt32) (keeper : Housekeeping) (initiator : Initiator Service) :
    Prop where
  connected : keeper.connected = initiator.connected
  status : keeper.status.connected = keeper.connected
  interval : initiator.checkInterval = interval

/-- Such a pair of them goes through one round. -/
structure Pass.Sound (interval : UInt32) (pass : Pass) : Prop where
  joined : Joined interval pass.before pass.entering
  leads : Program.Leads pass.before.round (pass.acts.map Act.exchange) (.done pass.after)
  chain : Chain pass.entering pass.acts pass.leaving

/-- Each round begins with what the one before it has left. -/
inductive Runs (interval : UInt32) : Housekeeping → Initiator Service → List Pass → Prop
  | nothing {keeper initiator} : Runs interval keeper initiator []
  | round {pass : Pass} {later} (sound : pass.Sound interval)
    (goes_on : Runs interval pass.after pass.leaving later) :
    Runs interval pass.before pass.entering (pass :: later)

def Pass.glance (mirrored : Mirrored) (pass : Pass) : Glance mirrored.Value :=
  pass.round.glance mirrored

/-- Whether a push of the value was called for, whatever became of it. -/
def Mirrored.PushedIn (mirrored : Mirrored) (acts : List Act) : Prop :=
  ∃ record value, .called record ∈ acts ∧ record.call = mirrored.push value

variable {interval : UInt32} {keeper : Housekeeping} {initiator : Initiator Service}
  {earlier between later : List Pass} {pass failing next : Pass} {mirrored : Mirrored}
  {record : CallRecord} {first rest : List Act}

namespace Pass.Sound

variable (sound : pass.Sound interval)
include sound

theorem leaves : Joined interval pass.after pass.leaving := by
  have watches := round_watches sound.leads
  constructor
  · rw [watches.connected, sound.chain.connected, sound.joined.connected]
  · exact watches.status
  · rw [sound.chain.checkInterval, sound.joined.interval]

theorem connected_glance : (pass.glance mirrored).connected = pass.entering.connected :=
  sound.joined.connected

/-- A loss is noted in a round that begins connected and does not end so. -/
theorem lost_glance : (pass.glance mirrored).lost =
    (pass.entering.connected && !pass.leaving.connected) := by
  have watches := round_watches sound.leads
  rw [← sound.joined.connected, ← sound.joined.status, ← sound.leaves.connected]
  exact watches.loses

/-- Calls are made to a connected initiator only in a round that begins connected. -/
theorem entered (acts : pass.acts = first ++ .called record :: rest)
    (connected : record.before.connected = true) : pass.entering.connected = true := by
  cases apart : pass.entering.connected with
  | true => rfl
  | false =>
    obtain ⟨now, reply, silence, shape, silent⟩ :=
      (round_watches sound.leads).probes (sound.joined.connected.trans apart)
    have chain := sound.chain
    rw [acts] at chain shape
    obtain ⟨between, begun, ended⟩ := chain.split
    cases ended
    have heard_so_far := begun.connected
    rw [connected, apart] at heard_so_far
    -- The probe is the only call, and nothing has been heard before it.
    match first, shape with
    | [], shape => cases (List.cons.inj shape).1
    | [clock], shape =>
      rw [List.map_singleton, (List.cons.inj shape).1] at heard_so_far
      cases heard_so_far
    | _ :: _ :: first, shape =>
      have behind := (List.cons.inj (List.cons.inj shape).2).2
      have member : Act.exchange (.called record) ∈ silence := by
        rw [← behind]
        exact List.mem_map_of_mem List.mem_append_cons_self
      obtain ⟨request, reply, same⟩ := silent _ member
      cases same

/-- A call that disconnects the initiator failed to shake hands. -/
theorem handshakeFails (acts : pass.acts = first ++ .called record :: rest)
    (connected : record.before.connected = true) (lost : record.after.connected = false) :
    record.HandshakeFails := by
  have member : Act.called record ∈ pass.acts := by
    rw [acts]
    exact List.mem_append_cons_self
  exact CallRecord.handshakeFails_of_lost (sound.chain.performs member) connected lost

/-- When the calls after a failure come within the check interval, the round ends without the other
half. -/
theorem held (acts : pass.acts = first ++ .called record :: rest) (fails : record.HandshakeFails)
    (soon : ∀ other, .called other ∈ rest → Millis.since record.now other.now < interval) :
    pass.leaving.connected = false := by
  have chain := sound.chain
  rw [acts] at chain
  obtain ⟨_, begun, ended⟩ := chain.split
  cases ended with
  | called _ performs later =>
    obtain ⟨lost, probed⟩ := fails.after performs
    have called := Chain.called record performs .nothing
    have spaced : record.after.checkInterval = interval :=
      (called.checkInterval.trans begun.checkInterval).trans sound.joined.interval
    apply later.held lost probed
    intro other member
    rw [spaced]
    exact soon other member

/-- Nothing is pushed in a round that begins without the other half. -/
theorem silent (apart : pass.entering.connected = false) : (pass.glance mirrored).pushes = [] := by
  obtain ⟨_, tends, _⟩ := round_tends sound.leads mirrored
  rcases tends.pushes_eq with ⟨_, _, pushes⟩ | ⟨entered, _⟩
  · exact pushes
  · have connected : pass.entering.connected = true := sound.connected_glance.symm.trans entered
    rw [apart] at connected
    cases connected

end Pass.Sound

theorem passes_runs {σ : Type} {answer : (request : SerialRequest ⊕ BoardRequest) → σ →
      Program.EitherReply SerialRequest.Reply BoardRequest.Reply request × σ}
    (joined : Joined interval keeper initiator) (s : σ) (count : Nat) :
    Runs interval keeper initiator (passes answer keeper initiator s count) := by
  induction count generalizing keeper initiator s with
  | zero => exact .nothing
  | succ count ih =>
    simp only [passes, run_refineState]
    have sound : Pass.Sound interval ⟨keeper, initiator, acts answer keeper.round (initiator, s),
        (keeper.round.run (attend answer) (initiator, s)).1,
        (keeper.round.run (attend answer) (initiator, s)).2.1⟩ := by
      constructor
      case joined => exact joined
      case leads =>
        rw [map_acts]
        exact Program.leads_trace _ _ _
      case chain => exact acts_chain keeper.round (initiator, s)
    exact .round sound (ih sound.leaves _)

theorem Runs.from (runs : Runs interval keeper initiator (earlier ++ pass :: later)) :
    Runs interval pass.before pass.entering (pass :: later) := by
  induction earlier generalizing keeper initiator with
  | nil =>
    cases runs with
    | round sound goes_on => exact .round sound goes_on
  | cons first earlier ih =>
    cases runs with
    | round sound goes_on => exact ih goes_on

theorem Runs.sound (runs : Runs interval keeper initiator earlier) (member : pass ∈ earlier) :
    pass.Sound interval := by
  induction runs with
  | nothing => cases member
  | round sound goes_on ih =>
    cases member with
    | head => exact sound
    | tail _ member => exact ih member

/-- The first round that begins connected after one that ends so is the next one. -/
theorem Runs.next_of_connected (runs : Runs interval keeper initiator (pass :: (between ++ later)))
    (connected : pass.leaving.connected = true)
    (apart : ∀ one ∈ between, one.entering.connected = false) : between = [] := by
  cases runs with
  | round _ goes_on =>
    cases between with
    | nil => rfl
    | cons one between =>
      generalize pass.leaving = leaving at connected goes_on
      generalize pass.after = after at goes_on
      cases goes_on
      rw [apart one (List.mem_cons_self ..)] at connected
      cases connected

/-- A noted loss leaves a push due for as long as rounds begin without the other half. -/
theorem Runs.due_of_lost {glance : Glance mirrored.Value}
    (runs : Runs interval keeper initiator (earlier ++ failing :: (between ++ later)))
    (lost : (failing.glance mirrored).lost = true)
    (apart : ∀ pass ∈ between, pass.entering.connected = false) :
    Due ((earlier ++ failing :: between).map (Pass.glance mirrored)) glance := by
  rw [List.map_append, List.map_cons]
  apply Firmware.due_of_lost lost
  intro later member value delivers
  obtain ⟨pass, inside, rfl⟩ := List.mem_map.mp member
  have passed := runs.sound (List.mem_append_right _ (.tail _ (List.mem_append_left _ inside)))
  have silent : (pass.glance mirrored).pushes = [] := passed.silent (apart pass inside)
  rw [Glance.Delivers, silent] at delivers
  cases delivers

theorem Mirrored.push?_eq_none_iff {call : LinkCall} {reply : CallReply} :
    mirrored.push? ⟨.inl call, reply⟩ = none ↔ ∀ value, call ≠ mirrored.push value := by
  cases mirrored <;> cases call <;> simp [Mirrored.push?, Mirrored.push] <;> exact ⟨_, rfl⟩

theorem Mirrored.pushedIn_iff {acts : List Act} :
    mirrored.PushedIn acts ↔ (acts.map Act.exchange).filterMap mirrored.push? ≠ [] := by
  rw [ne_eq, List.filterMap_eq_nil_iff, List.forall_mem_map, not_forall]
  constructor
  · rintro ⟨record, value, member, called⟩
    refine ⟨.called record, fun none_made => ?_⟩
    exact Mirrored.push?_eq_none_iff.mp (none_made member) value called
  · rintro ⟨act, made⟩
    obtain ⟨member, some_made⟩ := Classical.not_imp.mp made
    cases act with
    | asked request reply => exact absurd (Mirrored.push?_board request reply) some_made
    | called record =>
      obtain ⟨value, called⟩ := not_forall.mp (mt Mirrored.push?_eq_none_iff.mpr some_made)
      exact ⟨record, value, member, not_not.mp called⟩

instance (acts : List Act) : Decidable (mirrored.PushedIn acts) :=
  decidable_of_iff _ Mirrored.pushedIn_iff.symm

theorem Mirrored.pushedIn_append {first last : List Act} :
    mirrored.PushedIn (first ++ last) ↔ mirrored.PushedIn first ∨ mirrored.PushedIn last := by
  simp only [Mirrored.PushedIn, List.mem_append, or_and_right, exists_or]

/-- At the start nothing is connected, and nothing is reported to be. -/
theorem run_runs {σ : Type} {answer : (request : SerialRequest ⊕ BoardRequest) → σ →
      Program.EitherReply SerialRequest.Reply BoardRequest.Reply request × σ} {s : σ}
    {config : LinkConfig} {count : Nat}
    (run : passes answer {} (.ofConfig config table) s count = earlier) :
    Runs config.checkInterval {} (.ofConfig config table) earlier := by
  have start : Joined config.checkInterval {} (.ofConfig config table) := ⟨rfl, rfl, rfl⟩
  rw [← run]
  exact passes_runs start s count

/-- Throughout a run from the start both values are mirrored. -/
theorem run_glances {σ : Type} {answer : (request : SerialRequest ⊕ BoardRequest) → σ →
      Program.EitherReply SerialRequest.Reply BoardRequest.Reply request × σ} {s : σ}
    {config : LinkConfig} {count : Nat}
    (run : passes answer {} (.ofConfig config table) s count = earlier ++ next :: later) :
    Mirrors (earlier.map (Pass.glance mirrored)) (next.glance mirrored) := by
  have made : (Housekeeping.rounds (attend answer) {} (.ofConfig config table, s) count).map
      (Round.glance mirrored) = earlier.map (Pass.glance mirrored) ++
        next.glance mirrored :: later.map (Pass.glance mirrored) := by
    rw [← map_passes, run, List.map_map, List.map_append, List.map_cons]
    rfl
  exact rounds_mirror made (tracks_nil mirrored false {} {})

/-- Throughout a run from the start, whatever the port does: after a handshake that failed while the
other half was there, both values are pushed again in the first round that begins connected, unless the
round of the failure has found the other half again by its end. It cannot have if its later calls
come within the check interval. If it has, no loss is noted, and a value is pushed again only if the
same round still does so or if a push of it is due by its history in the next one. -/
theorem run_resyncs {σ : Type} (answer : (request : SerialRequest ⊕ BoardRequest) → σ →
      Program.EitherReply SerialRequest.Reply BoardRequest.Reply request × σ) (s : σ)
    (config : LinkConfig) (count : Nat)
    (run : passes answer {} (.ofConfig config table) s count =
      earlier ++ failing :: (between ++ next :: later))
    (acts : failing.acts = first ++ .called record :: rest)
    (connected : record.before.connected = true) (fails : record.HandshakeFails)
    (apart : ∀ pass ∈ between, pass.entering.connected = false)
    (entered : next.entering.connected = true) :
    (failing.leaving.connected = false → ∀ mirrored : Mirrored, mirrored.PushedIn next.acts) ∧
      ((∀ other, .called other ∈ rest → Millis.since record.now other.now < config.checkInterval) →
        failing.leaving.connected = false) ∧
      (failing.leaving.connected = true → between = [] ∧ ∀ mirrored : Mirrored,
        (failing.glance mirrored).lost = false ∧
          (mirrored.PushedIn (rest ++ next.acts) ↔ mirrored.PushedIn rest ∨
            Due ((earlier ++ [failing]).map (Pass.glance mirrored)) (next.glance mirrored))) := by
  have runs := run_runs run
  have here := runs.sound List.mem_append_cons_self
  have pushed_iff (mirrored : Mirrored) : mirrored.PushedIn next.acts ↔
      Due ((earlier ++ failing :: between).map (Pass.glance mirrored)) (next.glance mirrored) := by
    have ahead := runs.sound (List.mem_append_right _ (.tail _ List.mem_append_cons_self))
    have run : passes answer {} (.ofConfig config table) s count =
        (earlier ++ failing :: between) ++ next :: later := by
      rw [run, List.append_assoc, List.cons_append]
    refine Mirrored.pushedIn_iff.trans ?_
    exact (run_glances run).pushes_iff (ahead.connected_glance.trans entered)
  refine ⟨fun gone mirrored => ?lost, fun soon => ?held, fun still => ?found⟩
  case lost =>
    have lost : (failing.glance mirrored).lost = true := by
      rw [here.lost_glance, here.entered acts connected, gone]
      rfl
    exact (pushed_iff mirrored).mpr (runs.due_of_lost lost apart)
  case held => exact here.held acts fails soon
  case found =>
    have at_once : between = [] := runs.from.next_of_connected still apart
    subst at_once
    refine ⟨rfl, fun mirrored => ⟨?_, ?_⟩⟩
    · rw [here.lost_glance, still, Bool.not_true, Bool.and_false]
    · rw [Mirrored.pushedIn_append, pushed_iff]

/-- A half whose clock goes on whenever it is read, with one value of each kind, and with a port that
reads what is left of a script. -/
def scripted (step : Millis) :
    (request : SerialRequest ⊕ BoardRequest) → Millis × List (List UInt8) →
      Program.EitherReply SerialRequest.Reply BoardRequest.Reply request ×
        Millis × List (List UInt8)
  | .inl (.write data _), s => (some data.length, s)
  | .inl (.read _ _), (now, []) => (⟨[], some 0⟩, now, [])
  | .inl (.read _ _), (now, bytes :: left) => (⟨bytes, some bytes.length⟩, now, left)
  | .inl (.skip count _), s => (some count, s)
  | .inl .clear, s => ((), s)
  | .inr .clock, (now, left) => (now, now + step, left)
  | .inr .localState, s => ({}, s)
  | .inr .localSpeed, s => (0, s)
  | .inr (.report _), s => ((), s)

def Act.record? : Act → Option CallRecord
  | .asked _ _ => none
  | .called record => some record

theorem split_of_record? {acts : List Act} {place : ℕ}
    (found : acts[place]?.bind Act.record? = some record) :
    acts = acts.take place ++ .called record :: acts.drop (place + 1) := by
  obtain ⟨act, here, called⟩ := Option.bind_eq_some_iff.mp found
  cases act with
  | asked request reply => cases called
  | called other =>
    cases called
    obtain ⟨within, same⟩ := List.getElem?_eq_some_iff.mp here
    rw [← same, ← List.drop_eq_getElem_cons within, List.take_append_drop]

/-- The state is lost on its way, and the heartbeat comes too soon after that to find the other half
again. The probe of the next round finds it, and the round after that pushes both values, though the
speed was delivered before the loss and its handshake fails in turn. -/
theorem run_resyncs_apart :
    let reads : List (List UInt8) := [[7], [6], [], [7]]
    ∃ begun failing silent next first record rest,
      passes (scripted 100) {} (.ofConfig {} table) (0, reads) 4 =
        [begun] ++ failing :: ([silent] ++ next :: []) ∧
      failing.acts = first ++ .called record :: rest ∧ record.before.connected = true ∧
      record.HandshakeFails ∧ silent.entering.connected = false ∧ next.entering.connected = true ∧
      (∀ other, .called other ∈ rest → Millis.since record.now other.now < 250) ∧
      ∀ mirrored : Mirrored, mirrored.PushedIn next.acts := by
  intro reads
  let run := passes (scripted 100) {} (.ofConfig {} table) (0, reads) 4
  have shows : ∀ failing ∈ run[1]?, ∀ silent ∈ run[2]?, ∀ next ∈ run[3]?,
      silent.entering.connected = false ∧ next.entering.connected = true ∧
      ∃ record ∈ failing.acts[4]?.bind Act.record?, record.before.connected = true ∧
        record.after.connected = false ∧ ∀ act ∈ failing.acts.drop 5, ∀ other ∈ act.record?,
          Millis.since record.now other.now < 250 := by decide +kernel
  obtain ⟨begun, failing, silent, next, made⟩ :
      ∃ begun failing silent next, run = [begun, failing, silent, next] := ⟨_, _, _, _, rfl⟩
  rw [made] at shows
  obtain ⟨apart, entered, record, found, connected, lost, early⟩ :=
    shows failing rfl silent rfl next rfl
  have acts := split_of_record? found
  have sound : failing.Sound 250 := (run_runs made).sound (by simp)
  have fails := sound.handshakeFails acts connected lost
  have soon (other : CallRecord) (later : .called other ∈ failing.acts.drop 5) :
      Millis.since record.now other.now < 250 := early (.called other) later other rfl
  have split : passes (scripted 100) {} (.ofConfig {} table) (0, reads) 4 =
      [begun] ++ failing :: ([silent] ++ next :: []) := made
  obtain ⟨resyncs, held, _⟩ := run_resyncs (scripted 100) (0, reads) {} 4 split acts connected fails
    (List.forall_mem_singleton.mpr apart) entered
  exact ⟨begun, failing, silent, next, _, record, _, split, acts, connected, fails, apart, entered, soon,
    resyncs (held soon)⟩

/-- With no check interval the heartbeat finds the other half right after the state was lost on its
way. The end of the round sees nothing of the loss, and the speed is not pushed again. -/
theorem resync_missed :
    let config : LinkConfig := { LinkConfig.withDuplex {} .full with checkInterval := 0 }
    let reads : List (List UInt8) := [[7], [6], [], [4], [0, 0, 0, 0], [5]]
    ∃ begun failing next first record rest, config.validate = .ok () ∧
      passes (scripted 0) {} (.ofConfig config table) (0, reads) 3 =
        [begun] ++ failing :: ([] ++ next :: []) ∧
      failing.acts = first ++ .called record :: rest ∧ record.before.connected = true ∧
      record.HandshakeFails ∧ next.entering.connected = true ∧
      Mirrored.state.PushedIn next.acts ∧ ¬ Mirrored.speed.PushedIn (rest ++ next.acts) := by
  intro config reads
  let run := passes (scripted 0) {} (.ofConfig config table) (0, reads) 3
  have shows : ∀ failing ∈ run[1]?, ∀ next ∈ run[2]?, next.entering.connected = true ∧
      Mirrored.state.PushedIn next.acts ∧
      ∃ record ∈ failing.acts[4]?.bind Act.record?, record.before.connected = true ∧
        record.after.connected = false ∧
        ¬ Mirrored.speed.PushedIn (failing.acts.drop 5 ++ next.acts) := by decide +kernel
  obtain ⟨begun, failing, next, made⟩ : ∃ begun failing next, run = [begun, failing, next] :=
    ⟨_, _, _, rfl⟩
  rw [made] at shows
  obtain ⟨entered, state, record, found, connected, lost, missed⟩ := shows failing rfl next rfl
  have acts := split_of_record? found
  have sound : failing.Sound 0 := (run_runs made).sound (by simp)
  have fails := sound.handshakeFails acts connected lost
  exact ⟨begun, failing, next, _, record, _, rfl, made, acts, connected, fails, entered, state, missed⟩

end Run

end SplitKeyboard.Firmware
