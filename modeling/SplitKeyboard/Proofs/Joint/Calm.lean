import SplitKeyboard.Proofs.Joint.Track

/-!
Both halves in any order of steps, while no wait runs out but the target's for an ID when none has
come. All transactions then go well, whatever the order: nothing is lost, no end takes its own echo
for what the other sent, the halves agree on what was carried out, and they cannot get stuck.
-/
namespace SplitKeyboard

open Bench (WireEnd wireCapacity)

variable {Handler τ : Type} {handle : HandlerCall Handler → τ → List UInt8 × τ}

namespace Joint

/-- All is done: no transaction is under way, and the target waits for an ID while none has come. -/
def AtRest (joint : Joint Handler τ) : Prop :=
  joint.call = none ∧ joint.poll.entries = [] ∧ (joint.traffic.wire.queue .far).isEmpty

/-- A calm move: jobs are for registered transactions and have contents of their size, and the only
wait that runs out is the target's for an ID while none has come. -/
def Calm (sizes : TransactionId → Option (Nat × Nat)) (joint : Joint Handler τ) : Move → Prop
  | .call job => ∃ replySize, sizes job.id = some (job.contents.length, replySize)
  | .step _ true => True
  | .step .far false => joint.poll.entries = [] ∧ (joint.traffic.wire.queue .far).isEmpty
  | .step .near false => False

/-- Each of the moves is calm when it is made. -/
def Calms (handle : HandlerCall Handler → τ → List UInt8 × τ)
    (sizes : TransactionId → Option (Nat × Nat)) : Joint Handler τ → List Move → Prop
  | _, [] => True
  | joint, move :: moves => joint.Calm sizes move ∧ Calms handle sizes (joint.next handle move) moves

/-- A schedule of patient steps none of which is a mere wait. -/
def Productive (handle : HandlerCall Handler → τ → List UInt8 × τ) :
    Joint Handler τ → List WireEnd → Prop
  | _, [] => True
  | joint, side :: sides => joint.next handle (.step side true) ≠ joint ∧
      Productive handle (joint.next handle (.step side true)) sides

def begun (joint : Joint Handler τ) : List Job :=
  joint.calls.map Prod.fst ++ (joint.call.map Prod.fst).toList

variable {sizes : TransactionId → Option (Nat × Nat)} {joint : Joint Handler τ} {steps : Nat}

/-- A patient step leaves all as it is or brings both halves one step further. -/
theorem OnTrack.step (track : OnTrack handle sizes joint steps) (side : WireEnd) :
    joint.next handle (.step side true) = joint ∨
      Furthers handle sizes joint (joint.next handle (.step side true)) steps := by
  obtain ⟨held, ahead, work, services, after, last, final, track, rfl⟩ := track
  cases side with
  | near => exact track.step_near.imp_left And.left
  | far => exact track.step_far.imp_left And.left

theorem Furthers.ne {next : Joint Handler τ} (furthers : Furthers handle sizes joint next steps) :
    next ≠ joint := by
  intro same
  have age := furthers.age
  rw [same] at age
  omega

/-- Halves that are not at rest are not stuck: one of them can make a step that is no wait. -/
theorem OnTrack.not_stuck (track : OnTrack handle sizes joint steps) (busy : ¬ joint.AtRest) :
    ∃ side, joint.next handle (.step side true) ≠ joint := by
  obtain ⟨held, ahead, work, services, after, last, final, track, rfl⟩ := track
  rcases track.step_near with ⟨_, near_waits⟩ | furthers
  · rcases track.step_far with ⟨_, far_waits⟩ | furthers
    · exfalso
      rcases near_waits with no_call | ⟨_, message, _, ahead_eq, sender⟩
      · have near := track.near
        rw [no_call] at near
        rcases far_waits with ⟨idle, nothing⟩ | ⟨_, message, _, ahead_eq, _⟩
        · refine busy ⟨no_call, idle, ?_⟩
          have count := track.flow.count_eq .far
          rw [(Flow.todo_eq_nil nothing).1] at count
          simpa [ByteQueue.isEmpty] using count
        · rw [near.2.1] at ahead_eq
          cases ahead_eq
      · rcases far_waits with ⟨_, nothing⟩ | ⟨_, other, _, same, opposite⟩
        · rw [(Flow.todo_eq_nil nothing).2] at ahead_eq
          cases ahead_eq
        · -- Each end would wait for the same message from the other.
          cases ahead_eq.symm.trans same
          rw [sender] at opposite
          cases opposite
    · exact ⟨.far, furthers.ne⟩
  · exact ⟨.near, furthers.ne⟩

theorem OnTrack.length_le_of_productive {sides : List WireEnd}
    (track : OnTrack handle sizes joint steps) (productive : Productive handle joint sides) :
    sides.length ≤ steps := by
  induction sides generalizing joint steps with
  | nil => exact Nat.zero_le _
  | cons side sides ih =>
    obtain ⟨changes, later⟩ := productive
    rcases track.step side with same | furthers
    · exact absurd same changes
    · obtain ⟨fewer, rfl, on_track⟩ := furthers.track
      exact Nat.succ_le_succ (ih on_track later)

/-- A calm move keeps both halves on a track. -/
theorem OnTrack.next (track : OnTrack handle sizes joint steps)
    (room : ∀ id requestSize replySize, sizes id = some (requestSize, replySize) →
      requestSize + replySize + 2 ≤ wireCapacity)
    {move : Move} (calm : joint.Calm sizes move) :
    ∃ steps, OnTrack handle sizes (joint.next handle move) steps := by
  match move, calm with
  | .call job, ⟨replySize, known⟩ =>
    cases idle : joint.call with
    | none =>
      obtain ⟨held, ahead, work, services, after, last, final, track, _⟩ := track
      exact track.begin_call room known idle
    | some call =>
      refine ⟨steps, ?_⟩
      simp only [Joint.next, idle]
      exact track
  | .step side true, _ =>
    rcases track.step side with same | furthers
    · exact ⟨steps, same.symm ▸ track⟩
    · obtain ⟨fewer, _, on_track⟩ := furthers.track
      exact ⟨fewer, on_track⟩
  | .step .far false, ⟨idle, empty⟩ =>
    obtain ⟨held, ahead, work, services, after, last, final, track, _⟩ := track
    exact ⟨_, held, ahead, work + 1, services, after, last, final, track.idle_far idle empty, rfl⟩

theorem OnTrack.run {moves : List Move} (track : OnTrack handle sizes joint steps)
    (room : ∀ id requestSize replySize, sizes id = some (requestSize, replySize) →
      requestSize + replySize + 2 ≤ wireCapacity)
    (calm : Calms handle sizes joint moves) :
    ∃ steps, OnTrack handle sizes (joint.run handle moves) steps := by
  induction moves generalizing joint steps with
  | nil => exact ⟨steps, track⟩
  | cons move moves ih =>
    obtain ⟨_, on_track⟩ := track.next room calm.1
    exact ih on_track calm.2

/-- Two halves that fit together, and an initiator that has not been met with silence: it is
connected or has never probed. -/
structure Fit (sizes : TransactionId → Option (Nat × Nat)) (initiator : Initiator Handler)
    (target : Target Handler) : Prop where
  near : initiator.table.Fits sizes
  far : target.table.Fits sizes
  duplex : initiator.link.duplex = target.link.duplex
  ready : initiator.connected = true ∨ initiator.lastProbe = none

/-- Halves that have not done anything are on a track without steps. -/
theorem onTrack_start {initiator : Initiator Handler} {target : Target Handler} {handlers : τ}
    (fit : Fit sizes initiator target) :
    OnTrack handle sizes (start initiator target handlers) 0 := by
  refine ⟨fun _ => [], [], 0, [], initiator, target, handlers, ?_, rfl⟩
  constructor
  case flow =>
    have sound := Traffic.sound_new initiator.link.duplex
    constructor
    case sound => exact sound
    case lossless => exact fun side => by cases side <;> rfl
    case capacity => exact fun side => Traffic.capacity_new _ side
    case holds => exact fun side => List.drop_nil
    case some_held => exact fun side message member => absurd member List.not_mem_nil
    case some_ahead => exact fun message member => absurd member List.not_mem_nil
    case tail => exact fun side message member => absurd member List.not_mem_nil
    case room => exact fun side => Message.roomy_cons_iff.mpr ⟨by decide, by decide, trivial⟩
  case near => exact ⟨rfl, rfl, rfl⟩
  case far => exact .rest rfl
  case far_progress => rfl
  case far_fresh => exact fun _ => rfl
  case after_fits => exact fit.near
  case after_duplex => rfl
  case after_ready =>
    intro now
    unfold Initiator.tooSoon
    rcases fit.ready with connected | unprobed
    · simp [connected]
    · simp [unprobed]
  case last_fits => exact fit.far
  case last_duplex => exact fit.duplex.symm
  case agree => rfl
  case calls_ok => exact fun call member => absurd member List.not_mem_nil
  case polls_ok => exact fun poll member => absurd member List.not_mem_nil
  case untangled =>
    intro side entry member
    cases side <;> exact absurd member List.not_mem_nil

/-- What the target has served is what was begun first, with the payloads that were sent. -/
theorem OnTrack.served_begun (track : OnTrack handle sizes joint steps) :
    joint.served.map (fun service => (service.id, service.request)) <+:
      joint.begun.map fun job => (job.id, some job.contents) := by
  obtain ⟨held, ahead, work, services, after, last, final, track, _⟩ := track
  have all := congrArg (List.map fun service : Service => (service.id, service.request)) track.agree
  have jobs : (joint.called ++ (joint.call.map fun call => after.serviceOf call.1).toList).map
      (fun service => (service.id, service.request)) =
        joint.begun.map fun job => (job.id, some job.contents) := by
    cases idle : joint.call with
    | none => simp [called, begun, Initiator.serviceOf, idle]
    | some call => simp [called, begun, Initiator.serviceOf, idle]
  rw [jobs, List.map_append] at all
  exact ⟨_, all⟩

/-- Neither half is wrong about what both have carried out. -/
theorem OnTrack.served_called (track : OnTrack handle sizes joint steps) :
    joint.served <+: joint.called ∨ joint.called <+: joint.served := by
  obtain ⟨held, ahead, work, services, after, last, final, track, _⟩ := track
  exact List.prefix_or_prefix_of_prefix ⟨_, track.agree⟩ (List.prefix_append _ _)

/-- At rest both halves have carried out the same, and nothing is left on the wire. -/
theorem OnTrack.at_rest (track : OnTrack handle sizes joint steps) (rest : joint.AtRest) :
    joint.served = joint.called ∧ ∀ side, (joint.traffic.wire.queue side).isEmpty := by
  obtain ⟨held, ahead, work, services, after, last, final, track, _⟩ := track
  obtain ⟨no_call, idle, empty⟩ := rest
  have near := track.near
  rw [no_call] at near
  obtain ⟨near_silent, rfl, _⟩ := near
  have far_silent : held .far = [] := by
    have unheard := unheard_eq_nil track.flow.sound empty
    rw [track.flow.unheard_eq] at unheard
    cases holds : held .far with
    | nil => rfl
    | cons message others =>
      rw [holds, List.flatMap_cons, List.append_eq_nil_iff] at unheard
      exact absurd unheard.1 (track.flow.some_held .far message (by rw [holds]; exact List.mem_cons_self ..))
  constructor
  · have far := track.far
    obtain ⟨next, begins, _⟩ := joint.target.poll_asks
    have asks := (track.far_fresh idle).trans begins
    have nothing : Flow.todo joint.traffic.wire.duplex held [] .far = [] := by
      rw [Flow.todo, far_silent]
      rfl
    have agree := track.agree
    rw [no_call, Option.map_none, Option.toList_none, List.append_nil] at agree
    generalize joint.poll.program = program at far asks
    generalize Flow.todo joint.traffic.wire.duplex held [] .far = acts at far nothing
    generalize joint.poll.begun = flag at far
    cases far with
    | rest => exact (List.append_nil _).symm.trans agree
    | act => cases nothing
    | handler => cases asks
    | served => cases asks
    | idle => cases asks
  · intro side
    have count := track.flow.count_eq side
    cases side with
    | near =>
      rw [near_silent] at count
      simpa [ByteQueue.isEmpty] using count
    | far => exact empty

/-- Whatever the order of steps, as long as no wait runs out but the target's for an ID when none has
come: nothing is lost, nothing is taken for what it is not, all transactions and polls go well, the
halves agree on what was carried out, and they get on until all is done. -/
theorem calm_run (handle : HandlerCall Handler → τ → List UInt8 × τ)
    (initiator : Initiator Handler) (target : Target Handler) (handlers : τ)
    (sizes : TransactionId → Option (Nat × Nat)) (fit : Fit sizes initiator target)
    (room : ∀ id requestSize replySize, sizes id = some (requestSize, replySize) →
      requestSize + replySize + 2 ≤ wireCapacity)
    (moves : List Move) (calm : Calms handle sizes (start initiator target handlers) moves) :
    let joint := (start initiator target handlers).run handle moves
    joint.traffic.Lossless ∧
    (∀ side, ∀ entry ∈ joint.entries side, entry.Untangled side (joint.traffic.came side)) ∧
    (∀ call ∈ joint.calls, call.2.outcome.1 = .ok ()) ∧
    (∀ poll ∈ joint.polls, ∃ event, poll.outcome.1 = .ok event) ∧
    joint.served.map (fun service => (service.id, service.request)) <+:
      joint.begun.map (fun job => (job.id, some job.contents)) ∧
    (joint.served <+: joint.called ∨ joint.called <+: joint.served) ∧
    (joint.AtRest →
      joint.served = joint.called ∧ ∀ side, (joint.traffic.wire.queue side).isEmpty) ∧
    (¬ joint.AtRest → ∃ side, joint.next handle (.step side true) ≠ joint) ∧
    ∃ bound, ∀ sides, Productive handle joint sides → sides.length ≤ bound := by
  intro joint
  obtain ⟨steps, on_track⟩ := (onTrack_start fit).run room calm
  have agreed := on_track.served_begun
  have alike := on_track.served_called
  have rest := on_track.at_rest
  have lively := on_track.not_stuck
  have bounded : ∀ sides, Productive handle joint sides → sides.length ≤ steps :=
    fun sides productive => on_track.length_le_of_productive productive
  obtain ⟨held, ahead, work, services, after, last, final, track, _⟩ := on_track
  exact ⟨track.flow.lossless, track.untangled, track.calls_ok, track.polls_ok, agreed, alike, rest,
    lively, steps, bounded⟩

/-- The target is idle once, and then one transaction is carried out on a half-duplex wire. -/
theorem calm_run_single :
    let config : LinkConfig := LinkConfig.withDuplex {} .half
    let near : Initiator Unit := .ofConfig config (.single none)
    let far : Target Unit := .ofConfig config (.single (some ()))
    let handle : HandlerCall Unit → Unit → List UInt8 × Unit :=
      fun call _ => (call.input.map (~~~ ·), ())
    let moves : List Move := [.step .far false, .step .far true, .call ⟨0, 1, [5]⟩,
      .step .near true, .step .far true, .step .near true, .step .far true, .step .near true]
    Calms handle near.table.sizes? (start near far ()) moves ∧
      ((start near far ()).run handle moves).traffic.Lossless := by
  intro config near far handle moves
  have calm : Calms handle near.table.sizes? (start near far ()) moves :=
    ⟨⟨rfl, rfl⟩, trivial, ⟨1, rfl⟩, trivial, trivial, trivial, trivial, trivial, trivial⟩
  have room : ∀ id requestSize replySize, near.table.sizes? id = some (requestSize, replySize) →
      requestSize + replySize + 2 ≤ wireCapacity := by
    intro id requestSize replySize known
    have single := (Table.sizes?_single none id).symm.trans known
    split at single
    · cases single
      simp [wireCapacity]
    · cases single
  have alike : ∀ id, far.table.sizes? id = near.table.sizes? id := by
    intro id
    exact (Table.sizes?_single _ id).trans (Table.sizes?_single _ id).symm
  have fit : Fit near.table.sizes? near far :=
    ⟨⟨Table.single_built _, fun _ => rfl⟩, ⟨Table.single_built _, alike⟩, rfl, .inr rfl⟩
  exact ⟨calm, (calm_run handle near far () near.table.sizes? fit room moves calm).1⟩

end Joint
end SplitKeyboard
