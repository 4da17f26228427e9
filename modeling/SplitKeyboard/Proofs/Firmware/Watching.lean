import SplitKeyboard.Proofs.Firmware.Course

/-!
What rounds of housekeeping show of the link. The other half is there as far as the last call has
shown, and a round reports it at its end if this is not what was reported last. So a disconnect is
recorded in just the rounds that end with the link down while it is still reported to be up.
-/
namespace SplitKeyboard.Firmware

/-- Whether the other half is there, as far as the calls made have shown. -/
def HousekeepingExchange.hears (connected : Bool) : HousekeepingExchange → Bool
  | ⟨.inl _, reply⟩ => reply.connected
  | ⟨.inr _, _⟩ => connected

def heard (connected : Bool) (exchanges : List HousekeepingExchange) : Bool :=
  exchanges.foldl HousekeepingExchange.hears connected

theorem heard_append (connected : Bool) (first last : List HousekeepingExchange) :
    heard connected (first ++ last) = heard (heard connected first) last :=
  List.foldl_append

section Watch

variable {keeper ready after : Housekeeping} {now : Millis}
  {exchanges first last : List HousekeepingExchange} {mirrored : Mirrored}

/-- A part of a round that looks at the link only by its calls, and reports nothing. -/
structure Listens (keeper : Housekeeping) (exchanges : List HousekeepingExchange)
    (after : Housekeeping) : Prop where
  connected : after.connected = heard keeper.connected exchanges
  status : after.status.connected = keeper.status.connected
  holds : exchanges.any HousekeepingExchange.loses = false

theorem Listens.append (front : Listens keeper first ready) (back : Listens ready last after) :
    Listens keeper (first ++ last) after := by
  constructor
  · rw [back.connected, front.connected, heard_append]
  · exact back.status.trans front.status
  · rw [List.any_append, front.holds, back.holds, Bool.or_false]

theorem Mirrored.Tending.listens (tending : mirrored.Tending keeper now exchanges after) :
    Listens keeper exchanges after := by
  cases tending <;> cases mirrored <;> exact ⟨rfl, rfl, rfl⟩

theorem Beating.listens (beating : Beating keeper now exchanges after) :
    Listens keeper exchanges after := by
  cases beating <;> exact ⟨rfl, rfl, rfl⟩

/-- Until it reports, a round does no more than listen. -/
theorem Course.listens (course : Course keeper now exchanges after) :
    Listens keeper exchanges after := by
  cases course with
  | together connected speed state beat =>
    exact (speed.listens.append state.listens).append beat.listens
  | alone apart reply => exact ⟨rfl, rfl, rfl⟩

/-- What a round shows of the link. -/
structure Watches (keeper : Housekeeping) (exchanges : List HousekeepingExchange)
    (after : Housekeeping) : Prop where
  connected : after.connected = heard keeper.connected exchanges
  status : after.status.connected = after.connected
  /-- A loss is noted if the link is down at the end and was not when it was reported last. -/
  loses : exchanges.any HousekeepingExchange.loses = (keeper.status.connected && !after.connected)
  /-- Without the other half the round does no more than probe. -/
  probes : keeper.connected = false → ∃ now reply rest,
    exchanges = ⟨.inr .clock, now⟩ :: ⟨.inl .probe, reply⟩ :: rest ∧
      ∀ exchange ∈ rest, ∃ request reply, exchange = ⟨.inr request, reply⟩

theorem Reporting.silent (reports : Reporting keeper exchanges after) :
    ∀ exchange ∈ exchanges, ∃ request reply, exchange = ⟨.inr request, reply⟩ := by
  intro exchange member
  cases reports with
  | nothing same => cases member
  | found connected before | lost apart before => exact ⟨_, _, List.mem_singleton.mp member⟩

/-- The end of a round is told of the link, and does not look for it. -/
theorem Reporting.watches (reports : Reporting keeper exchanges after) :
    after.connected = heard keeper.connected exchanges ∧
      after.status.connected = after.connected ∧
      exchanges.any HousekeepingExchange.loses =
        (keeper.status.connected && !after.connected) := by
  cases reports with
  | nothing same =>
    refine ⟨rfl, same.symm, ?_⟩
    rw [← same, Bool.and_not_self]
    rfl
  | found connected before =>
    refine ⟨rfl, rfl, ?_⟩
    rw [before, Bool.false_and]
    exact congrArg (fun connected => !connected || false) connected
  | lost apart before =>
    refine ⟨rfl, rfl, ?_⟩
    rw [before, Bool.true_and]
    exact Bool.or_false _

theorem round_watches (h : Program.Leads keeper.round exchanges (.done after)) :
    Watches keeper exchanges after := by
  obtain ⟨now, first, last, ready, rfl, course, reports⟩ := round_course h
  have listens := course.listens
  obtain ⟨connected, status, loses⟩ := reports.watches
  constructor
  case connected =>
    rw [connected, listens.connected]
    exact (heard_append keeper.connected first last).symm
  case status => exact status
  case loses =>
    change (false || (first ++ last).any _) = _
    rw [Bool.false_or, List.any_append, listens.holds, Bool.false_or, loses, listens.status]
  case probes =>
    intro apart
    cases course with
    | together connected =>
      rw [apart] at connected
      cases connected
    | alone _ reply => exact ⟨now, reply, last, rfl, reports.silent⟩

theorem rounds_watch {σ : Type} {answer : (request : LinkCall ⊕ BoardRequest) → σ →
      Program.EitherReply LinkCall.Reply BoardRequest.Reply request × σ} {s : σ} {count : Nat}
    {round : Round} (made : round ∈ keeper.rounds answer s count) :
    Watches round.before round.exchanges round.after := by
  induction count generalizing keeper s with
  | zero => cases made
  | succ count ih =>
    rcases List.mem_cons.mp made with rfl | later
    · exact round_watches (Program.leads_trace answer keeper.round s)
    · exact ih later

end Watch

end SplitKeyboard.Firmware
