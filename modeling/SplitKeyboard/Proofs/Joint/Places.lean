import SplitKeyboard.Proofs.Joint.Trace

/-!
One engine among its traces. Each of its steps gives the bytes that it moves their places in the
record of the wire, and the steps of the other end leave these places alone.
-/
namespace SplitKeyboard

open Bench (WireEnd)

variable {Handler τ α : Type} {handle : HandlerCall Handler → τ → List UInt8 × τ}

/-- The exchanges have their places in the record of the wire, and what has come to the other end
after the last of them is all its own. The numbers are those of a trace, after the exchanges. -/
structure Placed (handle : HandlerCall Handler → τ → List UInt8 × τ) (traffic : Traffic)
    (side : WireEnd) (entries : List (Entry Handler)) (heard told : Nat) : Prop where
  traced : ∃ first begun, Traced handle traffic.wire.duplex side (traffic.came side)
    (traffic.came side.other) first begun entries heard told
  behind : told ≤ (traffic.came side.other).length
  foreign : Foreign side (traffic.came side.other) told (traffic.came side.other).length

namespace Placed

variable {traffic after : Traffic} {side : WireEnd} {entries : List (Entry Handler)}
  {heard told : Nat}

/-- An end that has heard this much has not told anything. -/
theorem nil (traffic : Traffic) (side : WireEnd) (heard : Nat) :
    Placed handle traffic side [] heard (traffic.came side.other).length := by
  refine ⟨⟨heard, _, .nil _ _⟩, Nat.le_refl _, ?_⟩
  intro i above below
  omega

/-- The places stay as they are while only the other end sends. -/
theorem mono (placed : Placed handle traffic side entries heard told)
    (duplex : after.wire.duplex = traffic.wire.duplex)
    (own : traffic.came side <+: after.came side)
    (other : ∃ data, after.came side.other = traffic.came side.other ++ marks side.other data) :
    Placed handle after side entries heard told := by
  obtain ⟨data, grown⟩ := other
  have grows : traffic.came side.other <+: after.came side.other := ⟨_, grown.symm⟩
  obtain ⟨first, begun, traced⟩ := placed.traced
  refine ⟨⟨first, begun, ?_⟩, Nat.le_trans placed.behind grows.length_le, ?_⟩
  · rw [duplex]
    exact traced.mono own grows
  · intro i above below
    by_cases old : i < (traffic.came side.other).length
    · obtain ⟨byte, there⟩ := placed.foreign i above old
      exact ⟨byte, getElem?_of_prefix grows there⟩
    · rw [grown, List.length_append, length_marks] at below
      refine ⟨data[i - (traffic.came side.other).length], ?_⟩
      rw [grown, List.getElem?_append_right (Nat.le_of_not_lt old), marks, List.getElem?_map,
        List.getElem?_eq_getElem, Option.map_some]

/-- What the other end does to the wire leaves the places as they are. -/
theorem moves_other {data : List UInt8} (placed : Placed handle traffic side entries heard told)
    (moves : traffic.Moves after side.other data) : Placed handle after side entries heard told := by
  apply placed.mono moves.duplex (moves.came_prefix side)
  rw [moves.came]
  split
  · exact ⟨data, rfl⟩
  · exact ⟨[], rfl⟩

/-- A look that writes nothing leaves the places as they are. -/
theorem moves_silent (placed : Placed handle traffic side entries heard told)
    (moves : traffic.Moves after side []) : Placed handle after side entries heard told := by
  refine placed.mono moves.duplex (moves.came_prefix side) ⟨[], ?_⟩
  rw [moves.came, marks, marks, List.map_nil, List.map_nil, ite_self]

/-- A silent exchange is placed after the others. -/
theorem snoc_silent {entry : Entry Handler} {later : Nat}
    (placed : Placed handle traffic side entries heard told)
    (one : Traced handle traffic.wire.duplex side (traffic.came side) (traffic.came side.other) heard
      told [entry] later told) :
    Placed handle traffic side (entries ++ [entry]) later told := by
  obtain ⟨first, begun, traced⟩ := placed.traced
  exact ⟨⟨first, begun, traced.append one⟩, placed.behind, placed.foreign⟩

/-- A write is placed after the others, at the end of what had come to the other end. -/
theorem snoc_write {data : List UInt8} {timeout : UInt32} (kept : traffic.Kept)
    (placed : Placed handle traffic side entries heard told) (within : heard ≤ traffic.heard side)
    (moves : traffic.Moves after side data) :
    Placed handle after side (entries ++ [⟨⟨.inl (.write data timeout), some data.length⟩, heard,
      (traffic.came side.other).length⟩]) heard (after.came side.other).length := by
  have grown : after.came side.other = traffic.came side.other ++ marks side data := by
    rw [moves.came, if_pos (.inl rfl)]
  have grows : traffic.came side.other <+: after.came side.other := ⟨_, grown.symm⟩
  have total : (after.came side.other).length = (traffic.came side.other).length + data.length := by
    rw [grown, List.length_append, length_marks]
  obtain ⟨first, begun, traced⟩ := placed.traced
  refine ⟨⟨first, begun, ?_⟩, Nat.le_refl _, ?_⟩
  · rw [moves.duplex, total]
    refine (traced.mono (moves.came_prefix side) grows).append
      (.wrote (placed.foreign.mono grows) placed.behind ?_ ?_ (.nil _ _))
    · intro half
      exact Nat.le_trans within (kept.heard_le_other side half)
    · exact ⟨[], by rw [grown, List.drop_left, List.append_nil]⟩
  · intro i above below
    omega

end Placed

namespace Activity

/-- How far the present call of an activity is. What a read has taken stands in the record, from the
place on where the call began. -/
def Underway (traffic : Traffic) (side : WireEnd) (heard : Nat) (activity : Activity Handler α) :
    Prop :=
  traffic.heard side = heard + activity.progress.count ∧
    match activity.program with
    | .ask (.inl (.read _ _)) _ => activity.progress.bytes.length = activity.progress.count ∧
        activity.progress.bytes <+: ((traffic.came side).map Mark.byte).drop heard
    | .ask (.inl (.skip _ _)) _ => True
    | _ => activity.progress.count = 0

/-- What an activity has done has its places, and its present call goes on from there. -/
def Located (handle : HandlerCall Handler → τ → List UInt8 × τ) (traffic : Traffic) (side : WireEnd)
    (activity : Activity Handler α) : Prop :=
  ∃ heard told, Placed handle traffic side activity.entries heard told ∧
    activity.Underway traffic side heard

variable {traffic after : Traffic} {side : WireEnd} {heard : Nat} {patient : Bool}
  {activity : Activity Handler α}

theorem underway_fresh {entries : List (Entry Handler)} (program : ServingProgram Handler α)
    (place : traffic.heard side = heard) :
    Underway traffic side heard ⟨program, {}, entries⟩ := by
  refine ⟨place, ?_⟩
  split
  · exact ⟨rfl, List.nil_prefix⟩
  · trivial
  · rfl

/-- A program that has not done anything is located anywhere. -/
theorem located_start (traffic : Traffic) (side : WireEnd) (program : ServingProgram Handler α) :
    Located handle traffic side ⟨program, {}, []⟩ :=
  ⟨_, _, .nil traffic side _, underway_fresh program rfl⟩

theorem Located.moves_other {data : List UInt8} (located : activity.Located handle traffic side)
    (moves : traffic.Moves after side.other data) : activity.Located handle after side := by
  obtain ⟨heard, told, placed, place, progress⟩ := located
  have unmoved := moves.heard
  rw [side.other_other] at unmoved
  refine ⟨heard, told, placed.moves_other moves, unmoved.trans place, ?_⟩
  split at progress
  · obtain ⟨full, there⟩ := progress
    exact ⟨full, prefix_drop_mono there ((moves.came_prefix side).map Mark.byte)⟩
  · trivial
  · exact progress

section Step

variable {progress : Traffic.Progress}

/-- A look of a read takes what comes next in the record, after what the read has taken already. -/
theorem attend_read (patient : Bool) (count : Nat) (timeout : UInt32) (sound : traffic.Sound) (place : traffic.heard side = heard + progress.count)
    (full : progress.bytes.length = progress.count)
    (there : progress.bytes <+: ((traffic.came side).map Mark.byte).drop heard) :
    ∃ bytes after taken, traffic.Takes after side taken ∧
      after.heard side = heard + bytes.length ∧
      bytes <+: ((traffic.came side).map Mark.byte).drop heard ∧
      (traffic.attend side patient progress (.read count timeout) =
          (.inl (⟨bytes, some bytes.length⟩ : Delivery), after) ∨
        traffic.attend side patient progress (.read count timeout) =
          (.inr ⟨bytes, bytes.length⟩, after)) := by
  obtain ⟨bytes_eq, takes⟩ := sound.takes_read side (count - progress.count)
  have next : (traffic.wire.read side (count - progress.count)).1 <+:
      (((traffic.came side).map Mark.byte).drop heard).drop progress.bytes.length := by
    rw [bytes_eq, full, List.drop_drop, ← place, ← List.map_drop]
    exact List.take_prefix _ _
  have total : (progress.bytes ++ (traffic.wire.read side (count - progress.count)).1).length =
      progress.count + (traffic.wire.read side (count - progress.count)).1.length := by
    rw [List.length_append, full]
  refine ⟨progress.bytes ++ (traffic.wire.read side (count - progress.count)).1, _, _, takes, ?_,
    prefix_append_of_drop there next, ?_⟩
  · rw [takes.heard, place, total, bytes_eq]
    omega
  · simp only [Traffic.attend, total]
    split
    · exact .inl rfl
    · exact .inr rfl

theorem attend_skip (patient : Bool) (count : Nat) (timeout : UInt32) (sound : traffic.Sound) (place : traffic.heard side = heard + progress.count) :
    ∃ dropped after taken, traffic.Takes after side taken ∧ after.heard side = heard + dropped ∧
      (traffic.attend side patient progress (.skip count timeout) = (.inl (some dropped), after) ∨
        traffic.attend side patient progress (.skip count timeout) =
          (.inr ⟨[], dropped⟩, after)) := by
  obtain ⟨dropped_eq, takes⟩ := sound.takes_skip side (count - progress.count)
  refine ⟨progress.count + (traffic.wire.skip side (count - progress.count)).1, _, _, takes, ?_, ?_⟩
  · rw [takes.heard, place, dropped_eq]
    omega
  · simp only [Traffic.attend]
    split
    · exact .inl rfl
    · exact .inr rfl

/-- A silent look is over: the exchange has its place, and the next call begins there. -/
theorem Located.finish {told later place : Nat} {entries : List (Entry Handler)}
    {exchange : Target.Exchange Handler} (program : ServingProgram Handler α)
    (placed : Placed handle traffic side entries heard told)
    (moves : traffic.Moves after side []) (heard_later : after.heard side = later)
    (one : Traced handle after.wire.duplex side (after.came side) (after.came side.other) heard told
      [⟨exchange, heard, place⟩] later told) :
    Located handle after side ⟨program, {}, entries ++ [⟨exchange, heard, place⟩]⟩ :=
  ⟨later, told, (placed.moves_silent moves).snoc_silent one, underway_fresh program heard_later⟩

/-- Each step of an activity gives what it moves a place. -/
theorem Located.step {handlers : τ} (kept : traffic.Kept)
    (located : activity.Located handle traffic side)
    (lossless : (activity.step handle side patient traffic handlers).2.1.Lossless) :
    (activity.step handle side patient traffic handlers).1.Located handle
        (activity.step handle side patient traffic handlers).2.1 side ∧
      ∃ data, traffic.Moves (activity.step handle side patient traffic handlers).2.1 side data := by
  obtain ⟨heard, told, placed, place, progress⟩ := located
  obtain ⟨program, ⟨bytes, count⟩, entries⟩ := activity
  have begins : traffic.heard side - count = heard := by
    simp only at place
    omega
  cases program with
  | done outcome => exact ⟨⟨heard, told, placed, place, progress⟩, [], kept.moves_refl side⟩
  | ask request next =>
    cases request with
    | inr call =>
      obtain rfl : count = 0 := progress
      simp only [step, begins]
      have moves := kept.moves_refl side
      refine ⟨?_, [], moves⟩
      exact .finish _ placed moves place (.handled ⟨handlers, rfl⟩ (.nil _ _))
    | inl request =>
      cases request with
      | write data timeout =>
        obtain rfl : count = 0 := progress
        simp only [step, begins, Traffic.attend] at lossless ⊢
        have moves := kept.sound.moves_write lossless
        refine ⟨⟨heard, _, placed.snoc_write kept (Nat.le_of_eq place.symm) moves, ?_⟩, data, moves⟩
        exact underway_fresh _ ((kept.sound.heard_write side side data).trans place)
      | read wanted timeout =>
        obtain ⟨full, there⟩ := progress
        obtain ⟨taken, after, more, takes, heard_after, begun, ended | waits⟩ :=
          attend_read patient wanted timeout kept.sound place
            full there
        · simp only [step, begins, ended] at lossless ⊢
          have moves := takes.moves lossless
          refine ⟨.finish _ placed moves heard_after (.took ?_ (.nil _ _)), [], moves⟩
          rw [takes.came]
          exact begun
        · simp only [step, waits] at lossless ⊢
          have moves := takes.moves lossless
          refine ⟨⟨heard, told, placed.moves_silent moves, heard_after, rfl, ?_⟩, [], moves⟩
          rw [takes.came]
          exact begun
      | skip wanted timeout =>
        obtain ⟨dropped, after, more, takes, heard_after, ended | waits⟩ :=
          attend_skip patient wanted timeout kept.sound place
        · simp only [step, begins, ended] at lossless ⊢
          have moves := takes.moves lossless
          exact ⟨.finish _ placed moves heard_after (.dropped (.nil _ _)), [], moves⟩
        · simp only [step, waits] at lossless ⊢
          have moves := takes.moves lossless
          exact ⟨⟨heard, told, placed.moves_silent moves, heard_after, trivial⟩, [], moves⟩
      | clear =>
        obtain rfl : count = 0 := progress
        simp only [step, begins, Traffic.attend] at lossless ⊢
        have takes := kept.sound.takes_clear side
        have moves := takes.moves lossless
        have heard_after := takes.heard
        rw [place] at heard_after
        exact ⟨.finish _ placed moves heard_after (.cleared (.nil _ _)), [], moves⟩

/-- A step keeps the record sound, and does not make up for what was lost before. -/
theorem sound_step {handlers : τ} (sound : traffic.Sound) :
    (activity.step handle side patient traffic handlers).2.1.Sound ∧
      ((activity.step handle side patient traffic handlers).2.1.Lossless → traffic.Lossless) := by
  obtain ⟨program, progress, entries⟩ := activity
  cases program with
  | done outcome => exact ⟨sound, id⟩
  | ask request next =>
    cases request with
    | inr call => exact ⟨sound, id⟩
    | inl request =>
      have attended := sound.attend side patient progress request
      simp only [step]
      generalize traffic.attend side patient progress request = look at attended
      rcases look with ⟨reply | still, after⟩
      · exact attended
      · exact attended

/-- A step of a program carries its transcript on. -/
theorem leads_step {handlers : τ} {start : ServingProgram Handler α}
    (leads : Program.Leads start (activity.entries.map Entry.exchange) activity.program) :
    let next := (activity.step handle side patient traffic handlers).1
    Program.Leads start (next.entries.map Entry.exchange) next.program := by
  obtain ⟨program, progress, entries⟩ := activity
  cases program with
  | done outcome => exact leads
  | ask request next =>
    cases request with
    | inr call =>
      simp only [step, List.map_append, List.map_cons, List.map_nil]
      exact leads.append (.ask (.stay _))
    | inl request =>
      simp only [step]
      generalize traffic.attend side patient progress request = look
      rcases look with ⟨reply | still, after⟩
      · simp only [List.map_append, List.map_cons, List.map_nil]
        exact leads.append (.ask (.stay _))
      · exact leads

end Step
end Activity
end SplitKeyboard
