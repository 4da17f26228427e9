import SplitKeyboard.Proofs.Initiator.Calls
import SplitKeyboard.Proofs.Joint.Places
import SplitKeyboard.Proofs.Target.Calls

/-!
What is on record of both halves after any moves at all on a wire that loses nothing: each call and
each poll is a transcript of its engine, whose exchanges have their places in the record of the wire.
-/
namespace SplitKeyboard

open Bench (WireEnd)

variable {Handler τ : Type} {handle : HandlerCall Handler → τ → List UInt8 × τ}

/-- The exchanges were placed when the record of the other end reached up to the last place, and
after them the other end has sent all of it. -/
def Past (handle : HandlerCall Handler → τ → List UInt8 × τ) (traffic : Traffic) (side : WireEnd)
    (entries : List (Entry Handler)) : Prop :=
  ∃ first begun heard told last,
    Traced handle traffic.wire.duplex side (traffic.came side) (traffic.came side.other) first begun
      entries heard told ∧
    Foreign side (traffic.came side.other) told last ∧ (traffic.wire.duplex = .half → heard ≤ last)

theorem Activity.Located.past {α : Type} {traffic : Traffic} {side : WireEnd}
    {activity : Activity Handler α} (kept : traffic.Kept)
    (located : activity.Located handle traffic side) :
    Past handle traffic side activity.entries := by
  obtain ⟨heard, told, placed, place, _⟩ := located
  obtain ⟨first, begun, traced⟩ := placed.traced
  refine ⟨first, begun, heard, told, _, traced, placed.foreign, ?_⟩
  intro half
  have := kept.heard_le_other side half
  omega

/-- What either end does later does not change the past. -/
theorem Past.moves {traffic after : Traffic} {side mover : WireEnd} {data : List UInt8}
    {entries : List (Entry Handler)} (past : Past handle traffic side entries)
    (moves : traffic.Moves after mover data) : Past handle after side entries := by
  obtain ⟨first, begun, heard, told, last, traced, foreign, heard_le⟩ := past
  have own := moves.came_prefix side
  have other := moves.came_prefix side.other
  refine ⟨first, begun, heard, told, last, ?_, foreign.mono other, ?_⟩
  · rw [moves.duplex]
    exact traced.mono own other
  · rw [moves.duplex]
    exact heard_le

/-- What no move changes of the halves: the wiring, the sizes of the transactions and the handlers
that serve them. -/
structure Setup (Handler : Type) where
  duplex : Duplex
  sizes : TransactionId → Option (Nat × Nat)
  handlers : TransactionId → Option Handler

namespace Setup

variable {setup : Setup Handler}

structure Near (setup : Setup Handler) (initiator : Initiator Handler) : Prop where
  fits : initiator.table.Fits setup.sizes
  duplex : initiator.link.duplex = setup.duplex

structure Far (setup : Setup Handler) (target : Target Handler) : Prop where
  fits : target.table.Fits setup.sizes
  duplex : target.link.duplex = setup.duplex
  handlers : ∀ id, target.table.handler? id = setup.handlers id

theorem Near.load {initiator : Initiator Handler} (near : setup.Near initiator) (job : Job) :
    setup.Near (initiator.load job) := by
  cases found : initiator.table.descriptor? job.id with
  | none =>
    have same : initiator.load job = initiator := by
      simp only [Initiator.load, Table.fillRequest?, found, Option.map_none]
    exact same.symm ▸ near
  | some entry =>
    rw [Initiator.load_eq found]
    exact ⟨near.fits.writeRequest found _, near.duplex⟩

theorem Near.transaction {initiator after : Initiator Handler} {now : Millis} {id : TransactionId}
    {calls : List SerialExchange} {result : Except TransactionError Unit}
    (near : setup.Near initiator)
    (leads : Program.Leads (initiator.transaction now id) calls (.done (result, after))) :
    setup.Near after := by
  by_cases refused : initiator.table.descriptor? id = none ∨ initiator.tooSoon now = true
  · rw [Initiator.transaction_refused refused] at leads
    obtain ⟨_, same⟩ := leads.done_inv
    cases same
    exact ⟨near.fits, near.duplex⟩
  · obtain ⟨known, ready⟩ := not_or.mp refused
    obtain ⟨entry, found⟩ := Option.ne_none_iff_exists'.mp known
    obtain ⟨exchanges, stop, _, _, _, rfl⟩ := Initiator.transaction_leads near.fits.built found
      (Bool.eq_false_iff.mpr ready) leads
    exact ⟨near.fits.writeReply found _, near.duplex⟩

theorem Far.poll {target after : Target Handler} {calls : List (Target.Exchange Handler)}
    {result : Except TargetError TargetEvent} (far : setup.Far target)
    (leads : Program.Leads target.poll calls (.done (result, after))) : setup.Far after := by
  obtain ⟨polled, table, polls, rfl, _⟩ := Target.poll_leads far.fits.built leads
  refine ⟨polls.fits far.fits, far.duplex, ?_⟩
  intro id
  exact (polls.handler?_eq id).trans (far.handlers id)

/-- The exchanges are the beginning of a transaction for the job, and lead to this program. -/
def Calls (setup : Setup Handler) (job : Job) (exchanges : List (Target.Exchange Handler))
    (program : ServingProgram Handler (Except TransactionError Unit × Initiator Handler)) : Prop :=
  ∃ initiator : Initiator Handler, setup.Near initiator ∧
    Program.Leads (Target.onLink (initiator.transaction job.now job.id)) exchanges program

/-- The exchanges are the beginning of a poll, and lead to this program. -/
def Polls (setup : Setup Handler) (exchanges : List (Target.Exchange Handler))
    (program : ServingProgram Handler (Except TargetError TargetEvent × Target Handler)) : Prop :=
  ∃ target : Target Handler, setup.Far target ∧ Program.Leads target.poll exchanges program

end Setup

namespace Joint

/-- All that has been done is on record: transcripts of the engines, with their places. -/
structure Recorded (handle : HandlerCall Handler → τ → List UInt8 × τ) (setup : Setup Handler)
    (joint : Joint Handler τ) : Prop where
  kept : joint.traffic.Kept
  duplex : joint.traffic.wire.duplex = setup.duplex
  near : setup.Near joint.initiator
  call : ∀ call ∈ joint.call, setup.Calls call.1 (call.2.entries.map Entry.exchange) call.2.program ∧
    call.2.Located handle joint.traffic .near
  poll : setup.Polls (joint.poll.entries.map Entry.exchange) joint.poll.program ∧
    joint.poll.Located handle joint.traffic .far
  calls : ∀ call ∈ joint.calls,
    setup.Calls call.1 (call.2.entries.map Entry.exchange) (.done call.2.outcome) ∧
      Past handle joint.traffic .near call.2.entries
  polls : ∀ poll ∈ joint.polls,
    setup.Polls (poll.entries.map Entry.exchange) (.done poll.outcome) ∧
      Past handle joint.traffic .far poll.entries

section Step

variable {setup : Setup Handler} {joint : Joint Handler τ} {patient : Bool}

theorem Recorded.begin_call (recorded : Recorded handle setup joint) (job : Job)
    (idle : joint.call = none) : Recorded handle setup (joint.next handle (.call job)) := by
  simp only [next, idle]
  refine { recorded with call := ?_ }
  rintro call ⟨⟩
  exact ⟨⟨_, recorded.near.load job, .stay _⟩, Activity.located_start _ _ _⟩

theorem Recorded.end_call {job : Job}
    {activity : Activity Handler (Except TransactionError Unit × Initiator Handler)}
    {outcome : Except TransactionError Unit × Initiator Handler}
    (recorded : Recorded handle setup joint) (under_way : joint.call = some (job, activity))
    (ended : activity.program = .done outcome) :
    Recorded handle setup (joint.stepNear handle patient) := by
  obtain ⟨calls, located⟩ := recorded.call _ under_way
  rw [ended] at calls
  have unchanged : setup.Near outcome.2 := by
    obtain ⟨initiator, near, leads⟩ := calls
    obtain ⟨own, _, leads⟩ := Target.onLink_leads_inv leads
    exact near.transaction leads
  simp only [stepNear, under_way, ended]
  refine { recorded with near := unchanged, call := ?_, calls := ?_ }
  · rintro call ⟨⟩
  · intro call member
    rcases List.mem_append.mp member with old | new
    · exact recorded.calls call old
    · obtain rfl := List.mem_singleton.mp new
      exact ⟨calls, located.past recorded.kept⟩

theorem Recorded.end_poll {outcome : Except TargetError TargetEvent × Target Handler}
    (recorded : Recorded handle setup joint) (ended : joint.poll.program = .done outcome) :
    Recorded handle setup (joint.stepFar handle patient) := by
  obtain ⟨polls, located⟩ := recorded.poll
  rw [ended] at polls
  have unchanged : setup.Far outcome.2 := by
    obtain ⟨target, far, leads⟩ := polls
    exact far.poll leads
  simp only [stepFar, ended]
  refine { recorded with poll := ?_, polls := ?_ }
  · exact ⟨⟨_, unchanged, .stay _⟩, Activity.located_start _ _ _⟩
  · intro poll member
    rcases List.mem_append.mp member with old | new
    · exact recorded.polls poll old
    · obtain rfl := List.mem_singleton.mp new
      exact ⟨polls, located.past recorded.kept⟩

theorem Recorded.step_near (recorded : Recorded handle setup joint)
    (lossless : (joint.stepNear handle patient).traffic.Lossless) :
    Recorded handle setup (joint.stepNear handle patient) := by
  cases under_way : joint.call with
  | none =>
    simp only [stepNear, under_way]
    exact recorded
  | some call =>
    obtain ⟨job, activity⟩ := call
    cases program : activity.program with
    | done outcome => exact recorded.end_call under_way program
    | ask request next =>
      obtain ⟨⟨initiator, near, leads⟩, located⟩ := recorded.call _ under_way
      simp only [stepNear, under_way, program] at lossless ⊢
      obtain ⟨located, data, moves⟩ := located.step recorded.kept lossless
      have kept := recorded.kept.moves moves lossless
      constructor
      case kept => exact kept
      case duplex => exact moves.duplex.trans recorded.duplex
      case near => exact recorded.near
      case call =>
        rintro call ⟨⟩
        exact ⟨⟨initiator, near, Activity.leads_step leads⟩, located⟩
      case poll => exact ⟨recorded.poll.1, recorded.poll.2.moves_other moves⟩
      case calls =>
        intro call member
        exact ⟨(recorded.calls call member).1, (recorded.calls call member).2.moves moves⟩
      case polls =>
        intro poll member
        exact ⟨(recorded.polls poll member).1, (recorded.polls poll member).2.moves moves⟩

theorem Recorded.step_far (recorded : Recorded handle setup joint)
    (lossless : (joint.stepFar handle patient).traffic.Lossless) :
    Recorded handle setup (joint.stepFar handle patient) := by
  cases program : joint.poll.program with
  | done outcome => exact recorded.end_poll program
  | ask request next =>
    obtain ⟨⟨target, far, leads⟩, located⟩ := recorded.poll
    simp only [stepFar, program] at lossless ⊢
    obtain ⟨located, data, moves⟩ := located.step recorded.kept lossless
    have kept := recorded.kept.moves moves lossless
    constructor
    case kept => exact kept
    case duplex => exact moves.duplex.trans recorded.duplex
    case near => exact recorded.near
    case call =>
      intro call member
      exact ⟨(recorded.call call member).1, (recorded.call call member).2.moves_other moves⟩
    case poll => exact ⟨⟨target, far, Activity.leads_step leads⟩, located⟩
    case calls =>
      intro call member
      exact ⟨(recorded.calls call member).1, (recorded.calls call member).2.moves moves⟩
    case polls =>
      intro poll member
      exact ⟨(recorded.polls poll member).1, (recorded.polls poll member).2.moves moves⟩

theorem Recorded.next (recorded : Recorded handle setup joint) {move : Move}
    (lossless : (joint.next handle move).traffic.Lossless) :
    Recorded handle setup (joint.next handle move) := by
  match move with
  | .step .near patient => exact recorded.step_near lossless
  | .step .far patient => exact recorded.step_far lossless
  | .call job =>
    cases idle : joint.call with
    | none => exact recorded.begin_call job idle
    | some call =>
      simp only [Joint.next, idle]
      exact recorded

/-- No move makes up for bytes that were lost before. -/
theorem sound_next (handle : HandlerCall Handler → τ → List UInt8 × τ) (sound : joint.traffic.Sound) (move : Move) :
    (joint.next handle move).traffic.Sound ∧
      ((joint.next handle move).traffic.Lossless → joint.traffic.Lossless) := by
  match move with
  | .step .near patient =>
    cases under_way : joint.call with
    | none => simpa only [Joint.next, stepNear, under_way] using ⟨sound, id⟩
    | some call =>
      cases program : call.2.program with
      | done outcome => simpa only [Joint.next, stepNear, under_way, program] using ⟨sound, id⟩
      | ask request next =>
        simp only [Joint.next, stepNear, under_way, program]
        exact Activity.sound_step sound
  | .step .far patient =>
    cases program : joint.poll.program with
    | done outcome => simpa only [Joint.next, stepFar, program] using ⟨sound, id⟩
    | ask request next =>
      simp only [Joint.next, stepFar, program]
      exact Activity.sound_step sound
  | .call job =>
    cases idle : joint.call with
    | none => simpa only [Joint.next, idle] using ⟨sound, id⟩
    | some call => simpa only [Joint.next, idle] using ⟨sound, id⟩

/-- Whatever the moves, if nothing has been lost in the end, all that was done is on record. -/
theorem recorded_run {moves : List Move} (sound : joint.traffic.Sound)
    (recorded : joint.traffic.Lossless → Recorded handle setup joint)
    (lossless : (joint.run handle moves).traffic.Lossless) :
    Recorded handle setup (joint.run handle moves) := by
  induction moves generalizing joint with
  | nil => exact recorded lossless
  | cons move moves ih =>
    obtain ⟨still_sound, lossless_before⟩ := sound_next handle sound move
    refine ih still_sound ?_ lossless
    intro lossless_next
    exact (recorded (lossless_before lossless_next)).next lossless_next

end Step

theorem recorded_start {setup : Setup Handler} {initiator : Initiator Handler}
    {target : Target Handler} {handlers : τ} (near : setup.Near initiator) (far : setup.Far target) :
    Recorded handle setup (start initiator target handlers) := by
  constructor
  case kept => exact Traffic.kept_new _
  case duplex => exact near.duplex
  case near => exact near
  case call => rintro call ⟨⟩
  case poll => exact ⟨⟨target, far, .stay _⟩, Activity.located_start _ _ _⟩
  case calls => exact fun call member => absurd member List.not_mem_nil
  case polls => exact fun poll member => absurd member List.not_mem_nil

end Joint
end SplitKeyboard
