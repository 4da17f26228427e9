import SplitKeyboard.Proofs.Initiator.Exchange
import SplitKeyboard.Proofs.Joint.Flow
import SplitKeyboard.Proofs.Joint.Forecast

/-!
The track of two halves that both go on. At any time it is known what is in flight and what is still
ahead, what the target is going to do with it, and how the initiator will be in the end. Each step
that is no mere wait brings both halves one step further along the track.
-/
namespace SplitKeyboard

open Bench (Wire WireEnd wireCapacity)

variable {Handler τ : Type} {handle : HandlerCall Handler → τ → List UInt8 × τ}

/-- What a read took was sent by the other end, and what a skip dropped was the end's own echo. -/
def Entry.Untangled (side : WireEnd) (came : List Mark) (entry : Entry Handler) : Prop :=
  match entry.exchange with
  | ⟨.inl (.read _ _), delivery⟩ =>
    (came.drop entry.heard).take delivery.bytes.length = marks side.other delivery.bytes
  | ⟨.inl (.skip _ _), dropped⟩ =>
    ∃ data, dropped = some data.length ∧
      (came.drop entry.heard).take data.length = marks side data
  | _ => True

namespace Entry

variable {side : WireEnd} {came later : List Mark} {entry : Entry Handler}

theorem untangled_of_act {act : Act} {timeout : UInt32} {heard told : Nat}
    (untangled : act.Untangled side came heard) :
    Entry.Untangled side came (⟨(act.exchange timeout).beside, heard, told⟩ : Entry Handler) := by
  cases act with
  | wrote data => trivial
  | dropped count =>
    obtain ⟨data, rfl, own⟩ := untangled
    exact ⟨data, rfl, own⟩
  | took data => exact untangled

/-- A part of a record that is there already stays where it is. -/
theorem take_drop_of_prefix {start count : Nat} {part : List Mark} (grows : came <+: later)
    (there : (came.drop start).take count = part) (full : part.length = count) :
    (later.drop start).take count = part := by
  obtain ⟨more, rfl⟩ := grows
  by_cases nothing : count = 0
  · rw [nothing, List.take_zero] at there ⊢
    exact there
  · have length := congrArg List.length there
    rw [List.length_take, List.length_drop, full] at length
    rw [List.drop_append_of_le_length (by omega), List.take_append_of_le_length, there]
    rw [List.length_drop]
    omega

theorem Untangled.mono (untangled : entry.Untangled side came) (grows : came <+: later) :
    entry.Untangled side later := by
  obtain ⟨⟨request, reply⟩, heard, told⟩ := entry
  cases request with
  | inr call => trivial
  | inl request =>
    cases request with
    | write data timeout => trivial
    | clear => trivial
    | read count timeout => exact take_drop_of_prefix grows untangled (length_marks _ _)
    | skip count timeout =>
      obtain ⟨data, dropped, own⟩ := untangled
      exact ⟨data, dropped, take_drop_of_prefix grows own (length_marks _ _)⟩

end Entry

namespace Activity

variable {α : Type} {activity : Activity Handler α} {side : WireEnd} {patient : Bool}
  {traffic after : Traffic}

def begun (activity : Activity Handler α) : Bool := !activity.entries.isEmpty

@[simp] theorem begun_append (program : ServingProgram Handler α) (progress : Traffic.Progress)
    (entries : List (Entry Handler)) (entry : Entry Handler) :
    begun ⟨program, progress, entries ++ [entry]⟩ = true := by
  simp [begun]

theorem step_attends (handle : HandlerCall Handler → τ → List UInt8 × τ) (handlers : τ)
    {request : SerialRequest} {next} {reply : request.Reply}
    (asks : activity.program = .ask (.inl request) next) (fresh : activity.progress = {})
    (attends : traffic.attend side patient {} request = (.inl reply, after)) :
    activity.step handle side patient traffic handlers =
      (⟨next reply, {}, activity.entries ++ [⟨⟨.inl request, reply⟩, traffic.heard side,
        (traffic.came side.other).length⟩]⟩, after, handlers) := by
  simp only [step, asks, fresh, attends, Nat.sub_zero]

/-- A read that finds nothing goes on waiting, and nothing has changed. -/
theorem step_waits (handle : HandlerCall Handler → τ → List UInt8 × τ) (handlers : τ)
    {count : Nat} {timeout : UInt32} {next}
    (asks : activity.program = .ask (.inl (.read count timeout)) next)
    (fresh : activity.progress = {}) (sound : traffic.Sound) (silent : traffic.unheard side = [])
    (wants : 0 < count) :
    activity.step handle side true traffic handlers = (activity, traffic, handlers) := by
  have short : ¬ count ≤ 0 := Nat.not_le_of_lt wants
  have waits : traffic.attend side true {} (.read count timeout) = (.inr {}, traffic) := by
    simp [Traffic.attend, sound.read_silent silent, short]
  obtain ⟨program, progress, entries⟩ := activity
  cases fresh
  cases asks
  simp only [step, waits]

/-- A read that finds nothing ends with nothing if its time runs out. -/
theorem step_expires (handle : HandlerCall Handler → τ → List UInt8 × τ) (handlers : τ)
    {count : Nat} {timeout : UInt32} {next}
    (asks : activity.program = .ask (.inl (.read count timeout)) next)
    (fresh : activity.progress = {}) (sound : traffic.Sound) (silent : traffic.unheard side = []) :
    activity.step handle side false traffic handlers =
      (⟨next (⟨[], some 0⟩ : Delivery), {},
        activity.entries ++ [⟨⟨.inl (.read count timeout), (⟨[], some 0⟩ : Delivery)⟩,
          traffic.heard side, (traffic.came side.other).length⟩]⟩, traffic, handlers) := by
  have expires : traffic.attend side false {} (.read count timeout) =
      (.inl ⟨[], some 0⟩, traffic) := by
    simp [Traffic.attend, sound.read_silent silent]
  exact step_attends handle handlers asks fresh expires

end Activity

/-- What the target served in a poll, if it did. -/
def Record.service? (record : Record Handler (Except TargetError TargetEvent × Target Handler)) :
    Option Service :=
  match record.outcome with
  | (.ok (.served id), target) => some ⟨id, target.table.request? id, target.table.reply? id⟩
  | _ => none

/-- What a transaction has carried out if this is the initiator after it. -/
def Initiator.serviceOf (initiator : Initiator Handler) (job : Job) : Service :=
  ⟨job.id, some job.contents, initiator.table.reply? job.id⟩

namespace Joint

def served (joint : Joint Handler τ) : List Service := joint.polls.filterMap Record.service?

def called (joint : Joint Handler τ) : List Service :=
  joint.calls.map fun call => call.2.outcome.2.serviceOf call.1

def entries (joint : Joint Handler τ) : WireEnd → List (Entry Handler)
  | .near => joint.calls.flatMap (·.2.entries) ++ joint.call.elim [] (·.2.entries)
  | .far => joint.polls.flatMap (·.entries) ++ joint.poll.entries

/-- Where both halves stand in a calm run: what is in flight and ahead, what the target is going to
do with it, how the initiator will be, and that all went well so far. -/
structure Track (handle : HandlerCall Handler → τ → List UInt8 × τ)
    (sizes : TransactionId → Option (Nat × Nat)) (joint : Joint Handler τ)
    (held : WireEnd → List Message) (ahead : List Message) (work : Nat) (services : List Service)
    (after : Initiator Handler) (last : Target Handler) (final : τ) : Prop where
  flow : Flow joint.traffic held ahead
  near : match joint.call with
    | none => held .near = [] ∧ ahead = [] ∧ after = joint.initiator
    | some (_, activity) => activity.progress = {} ∧ ∃ timeout, Program.Leads activity.program
        ((Flow.todo joint.traffic.wire.duplex held ahead .near).map
          fun act => (act.exchange timeout).beside) (.done (.ok (), after))
  far : Forecast handle joint.poll.begun joint.poll.program joint.handlers work
    (Flow.todo joint.traffic.wire.duplex held ahead .far) services last final
  far_progress : joint.poll.progress = {}
  far_fresh : joint.poll.entries = [] → joint.poll.program = joint.target.poll
  after_fits : after.table.Fits sizes
  after_duplex : after.link.duplex = joint.traffic.wire.duplex
  after_ready : ∀ now, after.tooSoon now = false
  last_fits : last.table.Fits sizes
  last_duplex : last.link.duplex = joint.traffic.wire.duplex
  agree : joint.served ++ services =
    joint.called ++ (joint.call.map fun call => after.serviceOf call.1).toList
  calls_ok : ∀ call ∈ joint.calls, call.2.outcome.1 = .ok ()
  polls_ok : ∀ poll ∈ joint.polls, ∃ event, poll.outcome.1 = .ok event
  untangled : ∀ side, ∀ entry ∈ joint.entries side, entry.Untangled side (joint.traffic.came side)

/-- How many steps the initiator has still to make. -/
def callWork (joint : Joint Handler τ) (held : WireEnd → List Message) (ahead : List Message) :
    Nat :=
  match joint.call with
  | none => 0
  | some _ => (Flow.todo joint.traffic.wire.duplex held ahead .near).length + 1

/-- Both halves are on a track that ends after so many steps. -/
def OnTrack (handle : HandlerCall Handler → τ → List UInt8 × τ)
    (sizes : TransactionId → Option (Nat × Nat)) (joint : Joint Handler τ) (steps : Nat) : Prop :=
  ∃ held ahead work services after last final,
    Track handle sizes joint held ahead work services after last final ∧
      steps = joint.callWork held ahead + work

def age (joint : Joint Handler τ) : Nat :=
  (joint.entries .near).length + joint.calls.length + (joint.entries .far).length +
    joint.polls.length

/-- A step that gets both halves further along their track. -/
structure Furthers (handle : HandlerCall Handler → τ → List UInt8 × τ)
    (sizes : TransactionId → Option (Nat × Nat)) (joint next : Joint Handler τ) (steps : Nat) :
    Prop where
  age : next.age = joint.age + 1
  track : ∃ fewer, fewer + 1 = steps ∧ OnTrack handle sizes next fewer

section Steps

variable {sizes : TransactionId → Option (Nat × Nat)} {joint : Joint Handler τ}
  {held : WireEnd → List Message} {ahead : List Message} {work : Nat} {services : List Service}
  {after : Initiator Handler} {last : Target Handler} {final : τ}

/-- A step that the wire allows: the record grows and one more untangled exchange is kept. -/
theorem untangled_advance {next : Joint Handler τ} {side : WireEnd} {act : Act} {acts : List Act}
    (timeout : UInt32) (told : Nat) {held' : WireEnd → List Message} {ahead' : List Message}
    (untangled : ∀ there, ∀ entry ∈ joint.entries there,
      entry.Untangled there (joint.traffic.came there))
    (advance : Flow.Advance joint.traffic held ahead side act acts next.traffic held' ahead')
    (one_more : next.entries side = joint.entries side ++
      [⟨(act.exchange timeout).beside, joint.traffic.heard side, told⟩])
    (others : ∀ there, there ≠ side → next.entries there = joint.entries there) :
    ∀ there, ∀ entry ∈ next.entries there, entry.Untangled there (next.traffic.came there) := by
  intro there entry member
  by_cases own : there = side
  · subst own
    rw [one_more, List.mem_append, List.mem_singleton] at member
    rcases member with before | rfl
    · exact (untangled there entry before).mono (advance.grows there)
    · exact (Entry.untangled_of_act advance.untangled).mono (advance.grows there)
  · rw [others there own] at member
    exact (untangled there entry member).mono (advance.grows there)

theorem Track.end_call {job : Job}
    {activity : Activity Handler (Except TransactionError Unit × Initiator Handler)}
    (track : Track handle sizes joint held ahead work services after last final)
    (called : joint.call = some (job, activity))
    (nothing : Flow.todo joint.traffic.wire.duplex held ahead .near = []) :
    Track handle sizes { joint with
        initiator := after
        call := none
        calls := joint.calls ++ [(job, ⟨activity.entries, (.ok (), after)⟩)] }
      held ahead work services after last final := by
  obtain ⟨silent, none_ahead⟩ := Flow.todo_eq_nil nothing
  refine { track with near := ⟨silent, none_ahead, rfl⟩, agree := ?_, calls_ok := ?_, untangled := ?_ }
  · have agree := track.agree
    rw [called] at agree
    apply agree.trans
    simp [Joint.called]
  · intro call member
    rcases List.mem_append.mp member with before | new
    · exact track.calls_ok call before
    · rw [List.mem_singleton.mp new]
  · intro side entry member
    apply track.untangled side entry
    cases side with
    | far => exact member
    | near => simpa [Joint.entries, called] using member

theorem Track.act_near {job : Job}
    {activity : Activity Handler (Except TransactionError Unit × Initiator Handler)}
    {act : Act} {acts : List Act} {timeout : UInt32} {traffic : Traffic}
    {held' : WireEnd → List Message} {ahead' : List Message} {told : Nat}
    {program : ServingProgram Handler (Except TransactionError Unit × Initiator Handler)}
    (track : Track handle sizes joint held ahead work services after last final)
    (called : joint.call = some (job, activity))
    (rest : Program.Leads program (acts.map fun act => (act.exchange timeout).beside)
      (.done (.ok (), after)))
    (advance : Flow.Advance joint.traffic held ahead .near act acts traffic held' ahead') :
    Track handle sizes { joint with
        traffic
        call := some (job, ⟨program, {}, activity.entries ++
          [⟨(act.exchange timeout).beside, joint.traffic.heard .near, told⟩]⟩) }
      held' ahead' work services after last final := by
  have far_same : Flow.todo traffic.wire.duplex held' ahead' .far =
      Flow.todo joint.traffic.wire.duplex held ahead .far := by
    rw [advance.duplex]
    exact advance.other
  have near_left : Flow.todo traffic.wire.duplex held' ahead' .near = acts := by
    rw [advance.duplex]
    exact advance.own
  refine { track with
    flow := advance.flow
    near := ⟨rfl, timeout, near_left ▸ rest⟩
    far := far_same ▸ track.far
    after_duplex := track.after_duplex.trans advance.duplex.symm
    last_duplex := track.last_duplex.trans advance.duplex.symm
    agree := ?_
    untangled := ?_ }
  · have agree := track.agree
    rw [called] at agree
    exact agree
  · refine untangled_advance timeout told track.untangled advance ?_ ?_
    · simp [Joint.entries, called]
    · intro there apart
      cases there with
      | near => exact absurd rfl apart
      | far => rfl

/-- A step of the initiator brings both halves further along the track, unless it only waits. -/
theorem Track.step_near
    (track : Track handle sizes joint held ahead work services after last final) :
    (joint.stepNear handle true = joint ∧ (joint.call = none ∨ Flow.Awaits held ahead .near)) ∨
      Furthers handle sizes joint (joint.stepNear handle true)
        (joint.callWork held ahead + work) := by
  have near := track.near
  cases called : joint.call with
  | none =>
    left
    simp only [stepNear, called, true_or, and_self]
  | some call =>
    obtain ⟨job, activity⟩ := call
    rw [called] at near
    obtain ⟨fresh, timeout, leads⟩ := near
    cases left : Flow.todo joint.traffic.wire.duplex held ahead .near with
    | nil =>
      -- The transaction is over, and its outcome is kept.
      right
      rw [left] at leads
      have ended : activity.program = .done (.ok (), after) := leads.nil_inv
      simp only [stepNear, called, ended]
      refine ⟨?_, work, ?_, held, ahead, work, services, after, last, final,
        track.end_call called left, (Nat.zero_add work).symm⟩
      · simp [age, entries, called]
        omega
      · simp only [callWork, called, left, List.length_nil]
        omega
    | cons act acts =>
      rw [left] at leads
      obtain ⟨next, asks, rest⟩ := leads.cons_inv
      rcases track.flow.advance left with
        ⟨silent, message, others, ahead_eq, sender, rfl⟩ |
        ⟨traffic, held', ahead', attends, advance⟩
      · left
        have some_data := track.flow.some_ahead message (by rw [ahead_eq]; exact List.mem_cons_self ..)
        have waits := Activity.step_waits handle joint.handlers asks fresh
          track.flow.sound (by rw [track.flow.unheard_eq, silent]; rfl)
          (List.length_pos_iff.mpr some_data)
        refine ⟨?_, .inr ⟨silent, message, others, ahead_eq, sender⟩⟩
        simp only [stepNear, called, asks, waits]
        exact called ▸ rfl
      · right
        have steps := Activity.step_attends handle joint.handlers asks
          fresh (attends true timeout)
        have own : Flow.todo traffic.wire.duplex held' ahead' .near = acts := by
          rw [advance.duplex]
          exact advance.own
        simp only [stepNear, called, asks, steps]
        refine ⟨?_, acts.length + 1 + work, ?_, held', ahead', work, services, after, last, final,
          track.act_near called rest advance, ?_⟩
        · simp [age, entries, called]
          omega
        · simp only [callWork, called, left, List.length_cons]
          omega
        · simp only [callWork, own]

theorem Track.act_far {act : Act} {acts : List Act} {timeout : UInt32} {traffic : Traffic}
    {held' : WireEnd → List Message} {ahead' : List Message} {told : Nat}
    {program : ServingProgram Handler (Except TargetError TargetEvent × Target Handler)}
    (track : Track handle sizes joint held ahead (work + 1) services after last final)
    (later : Forecast handle true program joint.handlers work acts services last final)
    (advance : Flow.Advance joint.traffic held ahead .far act acts traffic held' ahead') :
    Track handle sizes { joint with
        traffic
        poll := ⟨program, {}, joint.poll.entries ++
          [⟨(act.exchange timeout).beside, joint.traffic.heard .far, told⟩]⟩ }
      held' ahead' work services after last final := by
  have near_same : Flow.todo traffic.wire.duplex held' ahead' .near =
      Flow.todo joint.traffic.wire.duplex held ahead .near := by
    rw [advance.duplex]
    exact advance.other
  have far_left : Flow.todo traffic.wire.duplex held' ahead' .far = acts := by
    rw [advance.duplex]
    exact advance.own
  refine { track with
    flow := advance.flow
    near := ?_
    far := by simpa only [far_left, Activity.begun_append] using later
    far_progress := rfl
    far_fresh := fun none_yet => absurd none_yet (by simp)
    after_duplex := track.after_duplex.trans advance.duplex.symm
    last_duplex := track.last_duplex.trans advance.duplex.symm
    untangled := ?_ }
  · have near := track.near
    cases called : joint.call with
    | none =>
      rw [called] at near
      obtain ⟨silent, none_ahead, unchanged⟩ := near
      have nothing : Flow.todo joint.traffic.wire.duplex held ahead .near = [] := by
        rw [Flow.todo, silent, none_ahead]
        rfl
      obtain ⟨still, none_still⟩ := Flow.todo_eq_nil (near_same.trans nothing)
      exact ⟨still, none_still, unchanged⟩
    | some call =>
      rw [called] at near
      simp only [near_same]
      exact near
  · refine untangled_advance timeout told track.untangled advance ?_ ?_
    · simp [Joint.entries]
    · intro there apart
      cases there with
      | near => rfl
      | far => exact absurd rfl apart

/-- A handler runs between two looks at the wire. -/
theorem Track.handle_far {call : HandlerCall Handler} {heard told : Nat}
    {program : ServingProgram Handler (Except TargetError TargetEvent × Target Handler)}
    (track : Track handle sizes joint held ahead (work + 1) services after last final)
    (later : Forecast handle true program (handle call joint.handlers).2 work
      (Flow.todo joint.traffic.wire.duplex held ahead .far) services last final) :
    Track handle sizes { joint with
        handlers := (handle call joint.handlers).2
        poll := ⟨program, {}, joint.poll.entries ++
          [⟨⟨.inr call, (handle call joint.handlers).1⟩, heard, told⟩]⟩ }
      held ahead work services after last final := by
  refine { track with
    far := by simpa only [Activity.begun_append] using later
    far_progress := rfl
    far_fresh := fun none_yet => absurd none_yet (by simp)
    untangled := ?_ }
  intro side entry member
  cases side with
  | near => exact track.untangled .near entry member
  | far =>
    simp only [Joint.entries, ← List.append_assoc, List.mem_append, List.mem_singleton] at member
    rcases member with before | rfl
    · exact track.untangled .far entry (List.mem_append.mpr before)
    · trivial

/-- A poll that is over is kept with its outcome, and the next one begins. -/
theorem Track.end_poll {event : TargetEvent} {target : Target Handler}
    (kept : List Service)
    (track : Track handle sizes joint held ahead (work + 1) (kept ++ services) after last final)
    (ended : Record.service? ⟨joint.poll.entries, (.ok event, target)⟩ = kept.head?)
    (at_most : kept.length ≤ 1)
    (later : Forecast handle false target.poll joint.handlers work
      (Flow.todo joint.traffic.wire.duplex held ahead .far) services last final) :
    Track handle sizes { joint with
        target
        poll := ⟨target.poll, {}, []⟩
        polls := joint.polls ++ [⟨joint.poll.entries, (.ok event, target)⟩] }
      held ahead work services after last final := by
  refine { track with
    far := later
    far_progress := rfl
    far_fresh := fun _ => rfl
    agree := ?_
    polls_ok := ?_
    untangled := ?_ }
  · have newly : ([⟨joint.poll.entries, (.ok event, target)⟩] : List (Record Handler _)).filterMap
        Record.service? = kept := by
      simp only [List.filterMap_cons, ended, List.filterMap_nil]
      match kept, at_most with
      | [], _ => rfl
      | [service], _ => rfl
    have agree := track.agree
    rw [← List.append_assoc] at agree
    refine Eq.trans ?_ agree
    simp only [Joint.served, List.filterMap_append, newly]
  · intro poll member
    rcases List.mem_append.mp member with before | new
    · exact track.polls_ok poll before
    · rw [List.mem_singleton.mp new]
      exact ⟨event, rfl⟩
  · intro side entry member
    apply track.untangled side entry
    cases side with
    | near => exact member
    | far => simpa [Joint.entries] using member

/-- A step of the target brings both halves further along the track, unless it only waits. -/
theorem Track.step_far
    (track : Track handle sizes joint held ahead work services after last final) :
    (joint.stepFar handle true = joint ∧
        ((joint.poll.entries = [] ∧ Flow.todo joint.traffic.wire.duplex held ahead .far = []) ∨
          Flow.Awaits held ahead .far)) ∨
      Furthers handle sizes joint (joint.stepFar handle true)
        (joint.callWork held ahead + work) := by
  have far := track.far
  generalize asks : joint.poll.program = program at far
  generalize left : Flow.todo joint.traffic.wire.duplex held ahead .far = acts at far
  generalize begun : joint.poll.begun = flag at far
  cases far with
  | rest fresh =>
    left
    obtain ⟨next, begins, _⟩ := last.poll_asks
    have waits := Activity.step_waits handle joint.handlers
      (asks.trans (fresh.trans begins)) track.far_progress track.flow.sound
      (by rw [track.flow.unheard_eq, (Flow.todo_eq_nil left).1]; rfl) (Nat.zero_lt_one)
    have none_yet : joint.poll.entries = [] := by simpa [Activity.begun] using begun
    refine ⟨?_, .inl ⟨none_yet, rfl⟩⟩
    simp only [stepFar, asks, fresh, begins, waits]
  | @act _ act timeout next _ work acts _ _ _ later =>
    rcases track.flow.advance left with
      ⟨silent, message, others, ahead_eq, sender, rfl⟩ |
      ⟨traffic, held', ahead', attends, advance⟩
    · left
      have some_data := track.flow.some_ahead message (by rw [ahead_eq]; exact List.mem_cons_self ..)
      have waits := Activity.step_waits handle joint.handlers asks
        track.far_progress track.flow.sound (by rw [track.flow.unheard_eq, silent]; rfl)
        (List.length_pos_iff.mpr some_data)
      refine ⟨?_, .inr ⟨silent, message, others, ahead_eq, sender⟩⟩
      simp only [stepFar, asks, waits]
    · right
      have steps := Activity.step_attends handle joint.handlers asks
        track.far_progress (attends true _)
      have near_same : Flow.todo traffic.wire.duplex held' ahead' .near =
          Flow.todo joint.traffic.wire.duplex held ahead .near := by
        rw [advance.duplex]
        exact advance.other
      simp only [stepFar, asks, steps]
      refine ⟨?_, joint.callWork held ahead + work, rfl, held', ahead', work, services, after, last,
        final, track.act_far later advance, ?_⟩
      · simp [age, entries]
        omega
      · simp only [callWork, near_same]
  | @handler _ call next _ work _ _ _ _ later =>
    right
    simp only [stepFar, asks, Activity.step]
    refine ⟨?_, joint.callWork held ahead + work, rfl, held, ahead, work, services, after, last,
      final, track.handle_far (left ▸ later), rfl⟩
    simp [age, entries]
    omega
  | @served id target _ work _ services _ _ later =>
    right
    simp only [stepFar, asks]
    refine ⟨?_, joint.callWork held ahead + work, rfl, held, ahead, work, services, after, last,
      final, track.end_poll [_] rfl (Nat.le_refl 1) (left ▸ later), rfl⟩
    simp [age, entries]
    omega
  | @idle target _ work _ services _ _ later =>
    right
    simp only [stepFar, asks]
    refine ⟨?_, joint.callWork held ahead + work, rfl, held, ahead, work, services, after, last,
      final, track.end_poll [] rfl (Nat.zero_le 1) (left ▸ later), rfl⟩
    simp [age, entries]
    omega

/-- An end whose queue is empty has heard all that has come to it. -/
theorem unheard_eq_nil {side : WireEnd} (sound : joint.traffic.Sound)
    (empty : (joint.traffic.wire.queue side).isEmpty) : joint.traffic.unheard side = [] := by
  have none_queued : (joint.traffic.wire.queue side).count = 0 := by
    simpa [ByteQueue.isEmpty] using empty
  have length := ByteQueue.length_toList (sound.valid side)
  rw [sound.held side, none_queued] at length
  exact List.length_eq_zero_iff.mp length

/-- The target gives up waiting for an ID that has not come, and is none the worse for it. -/
theorem Track.idle_far
    (track : Track handle sizes joint held ahead work services after last final)
    (idle : joint.poll.entries = [])
    (empty : (joint.traffic.wire.queue .far).isEmpty) :
    Track handle sizes (joint.stepFar handle false) held ahead (work + 1) services after last
      final := by
  have fresh := track.far_fresh idle
  obtain ⟨next, begins, gives_up⟩ := joint.target.poll_asks
  have expires := Activity.step_expires handle joint.handlers
    (fresh.trans begins) track.far_progress track.flow.sound
    (unheard_eq_nil track.flow.sound empty)
  have far := track.far
  rw [fresh, Activity.begun, idle] at far
  simp only [stepFar, fresh, begins, expires, gives_up]
  refine { track with
    far := by simpa only [Activity.begun_append] using Forecast.idle far
    far_progress := rfl
    far_fresh := fun none_yet => absurd none_yet (by simp)
    untangled := ?_ }
  intro side entry member
  cases side with
  | near => exact track.untangled .near entry member
  | far =>
    simp only [Joint.entries, ← List.append_assoc, List.mem_append, List.mem_singleton] at member
    rcases member with before | rfl
    · exact track.untangled .far entry (List.mem_append.mpr before)
    · rfl

/-- A new transaction puts its messages ahead. Its reply is settled as soon as it begins. -/
theorem Track.begin_call {job : Job} {replySize : Nat}
    (track : Track handle sizes joint held ahead work services after last final)
    (room : ∀ id requestSize replySize, sizes id = some (requestSize, replySize) →
      requestSize + replySize + 2 ≤ wireCapacity)
    (known : sizes job.id = some (job.contents.length, replySize)) (idle : joint.call = none) :
    ∃ steps, OnTrack handle sizes (joint.next handle (.call job)) steps := by
  have near := track.near
  rw [idle] at near
  obtain ⟨silent, rfl, rfl⟩ := near
  obtain ⟨here, near_found, near_full, near_due⟩ :=
    Table.sizes?_eq_some ((track.after_fits.sizes job.id).trans known)
  obtain ⟨there, found, full, due⟩ :=
    Table.sizes?_eq_some ((track.last_fits.sizes job.id).trans known)
  obtain ⟨reply, last', final', more, replied, ⟨built, sizes_kept, link_kept⟩, forecast⟩ :=
    Forecast.poll handle track.last_fits.built found full.symm final
  have loaded_built := Initiator.built_load track.after_fits.built near_found
  have loaded_found := Initiator.descriptor?_load near_found
  have fits := replied.trans (due.trans near_due.symm)
  have calls := Initiator.transaction_plays job.now loaded_found
    ((Initiator.tooSoon_load near_found _).trans (track.after_ready _)) fits
  rw [Initiator.requestOf_load track.after_fits.built near_found near_full.symm] at calls
  have near_todo : Flow.todo joint.traffic.wire.duplex held
      (Message.ofTransaction job.id job.contents reply) .near =
      Message.view joint.traffic.wire.duplex .near
        (Message.ofTransaction job.id job.contents reply) := by
    rw [Flow.todo, silent]
    rfl
  have far_todo : Flow.todo joint.traffic.wire.duplex held
      (Message.ofTransaction job.id job.contents reply) .far =
      Flow.todo joint.traffic.wire.duplex held [] .far ++
        Message.view joint.traffic.wire.duplex .far
          (Message.ofTransaction job.id job.contents reply) := by
    simp only [Flow.todo, Message.view, List.flatMap_nil, List.append_nil]
  refine ⟨_, held, Message.ofTransaction job.id job.contents reply, more + work,
    services ++ [⟨job.id, some job.contents, some reply⟩],
    (joint.initiator.load job).afterReply job.now here reply, last', final', ?_, rfl⟩
  simp only [next, idle]
  constructor
  case flow =>
    refine { track.flow with
      some_ahead := fun message member => Message.data_ne_nil_of_mem_ofTransaction member
      room := ?_ }
    intro side
    have enough : job.contents.length + reply.length + 2 ≤ wireCapacity := by
      rw [replied, due]
      exact room _ _ _ known
    exact Message.Roomy.extend (a := Message.knock) (b := ⟨.near, [job.id]⟩)
      (c := ⟨.far, [handshakeToken job.id]⟩) rfl rfl (show WireEnd.far ≠ .near by decide) (track.flow.room side)
      (Message.roomy_ofTransaction job.id enough)
  case near =>
    refine ⟨rfl, (joint.initiator.load job).link.timeout, ?_⟩
    rw [near_todo]
    have on_link := @Target.onLink_leads Handler _ _ _ _ calls
    rw [Link.plays, Initiator.link_load near_found, track.after_duplex, List.map_map] at on_link
    rw [Initiator.link_load near_found]
    exact on_link
  case far =>
    rw [far_todo]
    rw [track.last_duplex] at forecast
    exact track.far.append forecast
  case far_progress => exact track.far_progress
  case far_fresh => exact track.far_fresh
  case after_fits =>
    refine ⟨.writeReply _ loaded_built loaded_found, ?_⟩
    intro id
    exact (Initiator.sizes?_load near_found id).trans (track.after_fits.sizes id)
  case after_duplex =>
    rw [Initiator.link_afterReply, Initiator.link_load near_found]
    exact track.after_duplex
  case after_ready => exact fun now => rfl
  case last_fits => exact ⟨built, fun id => (sizes_kept id).trans (track.last_fits.sizes id)⟩
  case last_duplex =>
    rw [link_kept]
    exact track.last_duplex
  case agree =>
    have agree := track.agree
    rw [idle, Option.map_none, Option.toList_none, List.append_nil] at agree
    rw [← List.append_assoc]
    refine (congrArg (· ++ _) agree).trans (congrArg (_ ++ ·) ?_)
    simp only [Option.map_some, Option.toList_some, Initiator.serviceOf,
      Initiator.reply?_afterReply loaded_built loaded_found fits]
  case calls_ok => exact track.calls_ok
  case polls_ok => exact track.polls_ok
  case untangled =>
    intro side entry member
    apply track.untangled side entry
    cases side with
    | far => exact member
    | near => simpa [Joint.entries, idle] using member

end Steps

end Joint
end SplitKeyboard
