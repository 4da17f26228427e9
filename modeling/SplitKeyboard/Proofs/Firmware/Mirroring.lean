import SplitKeyboard.Proofs.Firmware.Deliveries
import SplitKeyboard.Proofs.Firmware.Watching

/-!
Housekeeping loses no update. It mirrors two values to the other half, in rounds that may find the
link gone at their start, during a call or at their end. Each round does to a mirrored value what
its gate asks and nothing else, so that over every run a push is made exactly when its history says
that one is due.
-/
namespace SplitKeyboard.Firmware

namespace Round

/-- The clock is read first. -/
def now (round : Round) : Millis :=
  match round.exchanges with
  | ⟨.inr .clock, now⟩ :: _ => now
  | _ => 0

def glance (mirrored : Mirrored) (round : Round) : Glance mirrored.Value where
  connected := round.before.connected
  now := round.now
  reads := round.exchanges.filterMap mirrored.read?
  pushes := round.exchanges.filterMap mirrored.push?
  lost := round.exchanges.any HousekeepingExchange.loses

end Round

section Round

variable {mirrored other : Mirrored} {keeper after : Housekeeping} {now : Millis}
  {exchanges : List HousekeepingExchange}

namespace Mirrored

/-- What one part of a round does to a mirrored value. None of these parts reports the link. -/
structure Does (mirrored : Mirrored) (connected : Bool) (keeper : Housekeeping) (now : Millis)
    (exchanges : List HousekeepingExchange) (after : Housekeeping) : Prop where
  tends : Tends (mirrored.gate keeper) (mirrored.sent keeper) now connected
    (exchanges.filterMap mirrored.read?) (exchanges.filterMap mirrored.push?)
    (mirrored.gate after) (mirrored.sent after)
  holds : exchanges.any HousekeepingExchange.loses = false

/-- A part of a round that has nothing to do with a mirrored value. -/
structure Leaves (mirrored : Mirrored) (keeper : Housekeeping)
    (exchanges : List HousekeepingExchange) (after : Housekeeping) : Prop where
  reads : exchanges.filterMap mirrored.read? = []
  pushes : exchanges.filterMap mirrored.push? = []
  gate : mirrored.gate after = mirrored.gate keeper
  sent : mirrored.sent after = mirrored.sent keeper
  holds : exchanges.any HousekeepingExchange.loses = false

theorem Tending.does (tending : mirrored.Tending keeper now exchanges after) :
    mirrored.Does true keeper now exchanges after := by
  cases tending with
  | held value early =>
    exact ⟨by simpa using Tends.held value early, by cases mirrored <;> rfl⟩
  | failed value due connected stats =>
    exact ⟨by simpa using Tends.failed value due, by cases mirrored <;> rfl⟩
  | delivered value due answer connected stats =>
    exact ⟨by simpa using Tends.delivered value due, by cases mirrored <;> rfl⟩

/-- Mirroring one value leaves the other one alone. -/
theorem Tending.leaves (tending : mirrored.Tending keeper now exchanges after)
    (apart : other ≠ mirrored) : other.Leaves keeper exchanges after := by
  cases tending <;> cases mirrored <;> cases other <;>
    first | exact absurd rfl apart | exact ⟨rfl, rfl, rfl, rfl, rfl⟩

section Parts

variable {connected : Bool} {ready : Housekeeping} {first last : List HousekeepingExchange}

theorem Leaves.does (leaves : mirrored.Leaves keeper exchanges after) :
    mirrored.Does false keeper now exchanges after := by
  refine ⟨?_, leaves.holds⟩
  rw [leaves.reads, leaves.pushes, leaves.gate, leaves.sent]
  exact .silent

theorem Leaves.append (leaves : mirrored.Leaves keeper first ready)
    (does : mirrored.Does connected ready now last after) :
    mirrored.Does connected keeper now (first ++ last) after := by
  refine ⟨?_, by rw [List.any_append, leaves.holds, does.holds]; rfl⟩
  rw [List.filterMap_append, List.filterMap_append, leaves.reads, leaves.pushes, ← leaves.gate,
    ← leaves.sent]
  exact does.tends

theorem Does.append (does : mirrored.Does connected keeper now first ready)
    (leaves : mirrored.Leaves ready last after) :
    mirrored.Does connected keeper now (first ++ last) after := by
  refine ⟨?_, by rw [List.any_append, leaves.holds, does.holds]; rfl⟩
  rw [List.filterMap_append, List.filterMap_append, leaves.reads, leaves.pushes, leaves.gate,
    leaves.sent, List.append_nil, List.append_nil]
  exact does.tends

end Parts

end Mirrored

theorem Beating.leaves (beating : Beating keeper now exchanges after) (mirrored : Mirrored) :
    mirrored.Leaves keeper exchanges after := by
  cases beating <;> cases mirrored <;> exact ⟨rfl, rfl, rfl, rfl, rfl⟩

/-- The end of a round forgets what was sent exactly if it reports a disconnect. -/
theorem Reporting.forgets (reports : Reporting keeper exchanges after) (mirrored : Mirrored) :
    exchanges.filterMap mirrored.read? = [] ∧ exchanges.filterMap mirrored.push? = [] ∧
      mirrored.gate after = mirrored.gate keeper ∧
      mirrored.sent after =
        if exchanges.any HousekeepingExchange.loses then none else mirrored.sent keeper := by
  cases reports with
  | nothing same => exact ⟨rfl, rfl, rfl, rfl⟩
  | found connected before =>
    have holds : ¬ (!keeper.connected || false) = true := by simp [connected]
    cases mirrored <;> exact ⟨rfl, rfl, rfl, (if_neg holds).symm⟩
  | lost apart before =>
    have loses : (!keeper.connected || false) = true := by simp [apart]
    cases mirrored <;> exact ⟨rfl, rfl, rfl, (if_pos loses).symm⟩

/-- Before its end, a round mirrors a value if it begins connected, and else leaves it alone. -/
theorem Course.does (course : Course keeper now exchanges after) (mirrored : Mirrored) :
    mirrored.Does keeper.connected keeper now exchanges after := by
  cases course with
  | @together speeding stating beating sped stated _ connected speed state beat =>
    have tends : mirrored.Does true keeper now (speeding ++ stating) stated := by
      cases mirrored with
      | speed =>
        have left_alone : Mirrored.speed.Leaves sped stating stated := state.leaves (by decide)
        exact speed.does.append left_alone
      | state =>
        have left_alone : Mirrored.state.Leaves keeper speeding sped := speed.leaves (by decide)
        exact left_alone.append state.does
    rw [connected]
    exact tends.append (beat.leaves mirrored)
  | alone apart reply =>
    have left_alone : mirrored.Leaves keeper [⟨.inl .probe, reply⟩]
        { keeper with connected := reply.connected, stats := reply.stats } := by
      cases mirrored <;> exact ⟨rfl, rfl, rfl, rfl, rfl⟩
    rw [apart]
    exact left_alone.does

/-- What a whole round does to a mirrored value. -/
theorem round_tends (h : Program.Leads keeper.round exchanges (.done after)) (mirrored : Mirrored) :
    let glance := Round.glance mirrored ⟨keeper, exchanges, after⟩
    ∃ kept, Tends (mirrored.gate keeper) (mirrored.sent keeper) glance.now glance.connected
        glance.reads glance.pushes (mirrored.gate after) kept ∧
      mirrored.sent after = glance.forgets kept := by
  intro glance
  obtain ⟨now, first, last, ready, rfl, course, reports⟩ := round_course h
  have does := course.does mirrored
  obtain ⟨reads, pushes, gate, sent⟩ := reports.forgets mirrored
  have asked : mirrored.read? ⟨.inr .clock, now⟩ = none := by cases mirrored <;> rfl
  refine ⟨mirrored.sent ready, ?_, ?_⟩
  · simp only [glance, Round.glance, Round.now, List.filterMap_cons_none asked,
      List.filterMap_cons_none (Mirrored.push?_board .clock now), List.filterMap_append, reads,
      pushes, gate, List.append_nil]
    exact does.tends
  · have lost : glance.lost = last.any HousekeepingExchange.loses := by
      change (false || (first ++ last).any _) = _
      rw [List.any_append, does.holds, Bool.false_or, Bool.false_or]
    rw [sent, Glance.forgets, lost]

/-- Rounds keep a value mirrored, as long as what is remembered of its history is right. -/
theorem rounds_mirror {σ : Type} {answer : (request : LinkCall ⊕ BoardRequest) → σ →
      Program.EitherReply LinkCall.Reply BoardRequest.Reply request × σ} {s : σ} {count : Nat}
    {past before later : List (Glance mirrored.Value)} {glance : Glance mirrored.Value}
    (made : (keeper.rounds answer s count).map (Round.glance mirrored) = before ++ glance :: later)
    (tracks : Tracks past (mirrored.gate keeper) (mirrored.sent keeper)) :
    Mirrors (past ++ before) glance := by
  -- On the rounds left, with all rounds so far as the past.
  induction count generalizing keeper past s before with
  | zero => simp [Housekeeping.rounds] at made
  | succ count ih =>
    obtain ⟨kept, tends, sent⟩ := round_tends (Program.leads_trace answer keeper.round s) mirrored
    cases before with
    | nil =>
      obtain ⟨rfl, _⟩ := List.cons.inj made
      rw [List.append_nil]
      exact tracks.mirrors tends
    | cons earlier before =>
      obtain ⟨rfl, left⟩ := List.cons.inj made
      have next := tracks.step tends
      rw [← sent] at next
      have mirrors := ih left next
      rwa [List.append_assoc] at mirrors

/-- Before the first round nothing has been delivered. -/
theorem tracks_nil (mirrored : Mirrored) (connected : Bool) (stats : LinkStats)
    (status : LinkStatus) :
    Tracks [] (mirrored.gate { connected, stats, status })
      (mirrored.sent { connected, stats, status }) := by
  have never (value : mirrored.Value) (last since) : ¬ LastDelivery [] value last since := by
    rintro ⟨before, split, _⟩
    simp at split
  constructor
  case interval => cases mirrored <;> rfl
  case fresh => cases mirrored <;> exact fun _ => rfl
  case synced => exact fun value last since delivery => absurd delivery (never value last since)
  case outdated => exact fun value last since delivery => absurd delivery (never value last since)
  case current => exact fun value last since delivery => absurd delivery (never value last since)

end Round

/-- Throughout a run from the start, whatever the clock shows, whatever is read and whatever becomes
of the calls, a mirrored value is pushed exactly in the connected rounds in which a push is due. A
disconnect is recorded in just the rounds that end with the link down while it is still reported to
be up. -/
theorem run_mirrors {σ : Type} (answer : (request : LinkCall ⊕ BoardRequest) → σ →
      Program.EitherReply LinkCall.Reply BoardRequest.Reply request × σ) (s : σ) (connected : Bool)
    (stats : LinkStats) (status : LinkStatus) (count : Nat) (mirrored : Mirrored)
    {before later : List (Glance mirrored.Value)} {glance : Glance mirrored.Value}
    (made : (Housekeeping.rounds answer { connected, stats, status } s count).map
      (Round.glance mirrored) = before ++ glance :: later) :
    Mirrors before glance ∧
      ∀ round ∈ Housekeeping.rounds answer { connected, stats, status } s count,
        (round.glance mirrored).lost = (round.before.status.connected && !round.after.connected) ∧
          Watches round.before round.exchanges round.after := by
  refine ⟨rounds_mirror made (tracks_nil mirrored connected stats status), fun round member => ?_⟩
  have watches := rounds_watch member
  exact ⟨watches.loses, watches⟩

/-- A layer comes while calls fail and is gone when they work again: the base layer is pushed at once,
though it is what was delivered last. When the layer comes once more its push finds the link down. -/
theorem run_mirrors_retried :
    let answer : (request : LinkCall ⊕ BoardRequest) → Nat →
        Program.EitherReply LinkCall.Reply BoardRequest.Reply request × Nat := fun request round =>
      match request with
      | .inr .clock => (UInt32.ofNat (10 * round), round + 1)
      | .inr .localState => (⟨if round = 3 ∨ round = 5 then 1 else 0, 0, 0⟩, round)
      | .inr .localSpeed => (0, round)
      | .inr (.report _) => ((), round)
      | .inl _ => (⟨if round = 3 ∨ round = 5 then none else some [], round ≠ 5, {}⟩, round)
    let rounds := Housekeeping.rounds answer {} 0 5
    ∃ first second third fourth fifth : Glance SharedState,
      rounds.map (Round.glance .state) = [first, second, third] ++ fourth :: [fifth] ∧
        second.pushes = [({}, true)] ∧ third.pushes = [(⟨1, 0, 0⟩, false)] ∧
        fourth.pushes = [({}, true)] ∧ Mirrors [first, second, third] fourth ∧
        fifth.pushes = [(⟨1, 0, 0⟩, false)] ∧ ∃ round ∈ rounds, round.glance .state = fifth ∧
          round.before.status.connected = true ∧ round.after.connected = false := by
  intro answer rounds
  obtain ⟨first, second, third, fourth, fifth, made, shown⟩ :
      ∃ first second third fourth fifth : Glance SharedState,
        rounds.map (Round.glance .state) = [first, second, third] ++ fourth :: [fifth] ∧
          second.pushes = [({}, true)] ∧ third.pushes = [(⟨1, 0, 0⟩, false)] ∧
          fourth.pushes = [({}, true)] ∧ fifth.pushes = [(⟨1, 0, 0⟩, false)] ∧
          fifth.lost = true := ⟨_, _, _, _, _, rfl, rfl, rfl, rfl, rfl, rfl⟩
  obtain ⟨pushed, failed, again, down, lost⟩ := shown
  obtain ⟨mirrors, watched⟩ := run_mirrors answer 0 false {} {} 5 .state made
  have member : fifth ∈ rounds.map (Round.glance .state) := by
    rw [made]
    exact List.mem_append_right _ (.tail _ (.head _))
  obtain ⟨round, inside, rfl⟩ := List.mem_map.mp member
  have noted := (watched round inside).1
  rw [lost] at noted
  obtain ⟨reported, gone⟩ := Bool.and_eq_true_iff.mp noted.symm
  exact ⟨first, second, third, fourth, _, made, pushed, failed, again, mirrors, down, round, inside,
    rfl, reported, Bool.not_eq_true' _ ▸ gone⟩

end SplitKeyboard.Firmware
