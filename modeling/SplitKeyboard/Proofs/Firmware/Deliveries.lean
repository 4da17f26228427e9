import Mathlib.Data.List.Induction
import SplitKeyboard.Firmware.Housekeeping

/-!
The history of a mirrored value. A value is pushed when its gate is due, and three pieces of memory
decide on that: what was sent, whether a change waits, and when the last delivery was. Here the
decision is read off what the rounds before it show: what was delivered last, what has been read
since then, and whether the link was lost in between.
-/
namespace SplitKeyboard.Firmware

/-- What one round shows of a mirrored value. -/
structure Glance (α : Type) where
  /-- Whether the round was entered connected. -/
  connected : Bool
  now : Millis
  reads : List α
  /-- The pushes that were attempted, each with whether the call went well. -/
  pushes : List (α × Bool)
  /-- Whether a disconnect was recorded at the end. -/
  lost : Bool

section History

variable {α : Type} {past before since : List (Glance α)} {glance last : Glance α} {value : α}

def Glance.Delivers (glance : Glance α) (value : α) : Prop := (value, true) ∈ glance.pushes

/-- The value delivered last, the round that delivered it and the rounds since then. -/
def LastDelivery (past : List (Glance α)) (value : α) (last : Glance α)
    (since : List (Glance α)) : Prop :=
  ∃ before, past = before ++ last :: since ∧ last.Delivers value ∧
    ∀ later ∈ since, ∀ other, ¬ later.Delivers other

/-- Another value has been read since the delivery, or the link was lost. -/
def Outdated (value : α) (last : Glance α) (since : List (Glance α)) : Prop :=
  (∃ later ∈ since, ∃ other ∈ later.reads, other ≠ value) ∨
    ∃ later ∈ last :: since, later.lost = true

/-- A push is due in a round after these if nothing has been delivered yet, if what was delivered is
outdated or not what is read now, or if it was delivered more than 100 ms ago. -/
def Due (past : List (Glance α)) (glance : Glance α) : Prop :=
  (∀ earlier ∈ past, ∀ value, ¬ earlier.Delivers value) ∨
    ∃ value last since, LastDelivery past value last since ∧
      (Outdated value last since ∨ (∃ other ∈ glance.reads, other ≠ value) ∨
        100 < Millis.since last.now glance.now)

/-- How a value is mirrored in a round after these. -/
structure Mirrors (past : List (Glance α)) (glance : Glance α) : Prop where
  apart : glance.connected = false → glance.reads = [] ∧ glance.pushes = []
  /-- The value is read once, and this value is pushed once if a push is due and else not. -/
  pushed : glance.connected = true → ∃ value, glance.reads = [value] ∧
    (Due past glance → ∃ fine, glance.pushes = [(value, fine)]) ∧
    (¬ Due past glance → glance.pushes = [])
  /-- After a failed push of a value other than the one delivered last, every connected round pushes
  until one delivers, whatever is read by then. -/
  retried : ∀ before failing since value, past = before ++ failing :: since →
    failing.reads = [value] → failing.pushes = [(value, false)] →
    (∀ old last later, LastDelivery before old last later → old ≠ value) →
    (∀ later ∈ since, ∀ other, ¬ later.Delivers other) →
    glance.connected = true → glance.pushes ≠ []
  /-- What was delivered at most 100 ms ago, and has neither changed nor been lost, is let be. -/
  settled : ∀ value last since, LastDelivery past value last since → ¬ Outdated value last since →
    (∀ other ∈ glance.reads, other = value) → Millis.since last.now glance.now ≤ 100 →
    glance.pushes = []

/-- One more round delivers, or leaves the last delivery what it was. -/
theorem LastDelivery.of_append (delivery : LastDelivery (past ++ [glance]) value last since) :
    (last = glance ∧ since = [] ∧ glance.Delivers value) ∨
      ∃ earlier, since = earlier ++ [glance] ∧ LastDelivery past value last earlier ∧
        ∀ other, ¬ glance.Delivers other := by
  obtain ⟨before, split, delivers, nothing⟩ := delivery
  obtain rfl | ⟨earlier, latest, rfl⟩ := List.eq_nil_or_concat since
  · obtain ⟨_, same⟩ := List.append_inj' split rfl
    cases same
    exact .inl ⟨rfl, rfl, delivers⟩
  · rw [List.concat_eq_append] at *
    rw [← List.cons_append, ← List.append_assoc] at split
    obtain ⟨rfl, same⟩ := List.append_inj' split rfl
    cases same
    exact .inr ⟨earlier, rfl, ⟨before, rfl, delivers, fun later member =>
      nothing later (List.mem_append_left _ member)⟩, nothing glance (by simp)⟩

theorem LastDelivery.append {later : List (Glance α)}
    (delivery : LastDelivery past value last since)
    (nothing : ∀ glance ∈ later, ∀ other, ¬ glance.Delivers other) :
    LastDelivery (past ++ later) value last (since ++ later) := by
  obtain ⟨before, rfl, delivers, silent⟩ := delivery
  refine ⟨before, by simp, delivers, fun glance member => ?_⟩
  rcases List.mem_append.mp member with member | member
  · exact silent glance member
  · exact nothing glance member

theorem exists_lastDelivery (past : List (Glance α)) :
    (∀ earlier ∈ past, ∀ value, ¬ earlier.Delivers value) ∨
      ∃ value last since, LastDelivery past value last since := by
  induction past using List.reverseRecOn with
  | nil => exact .inl (by simp)
  | append_singleton past glance ih =>
    by_cases delivers : ∃ value, glance.Delivers value
    · obtain ⟨value, delivers⟩ := delivers
      exact .inr ⟨value, glance, [], past, rfl, delivers, by simp⟩
    · have nothing : ∀ latest ∈ [glance], ∀ other, ¬ latest.Delivers other := by
        simpa using delivers
      rcases ih with ih | ⟨value, last, since, delivery⟩
      · left
        intro earlier member
        rcases List.mem_append.mp member with member | member
        · exact ih earlier member
        · exact nothing earlier member
      · exact .inr ⟨value, last, _, delivery.append nothing⟩

theorem outdated_append :
    Outdated value last (since ++ [glance]) ↔ Outdated value last since ∨
      (∃ other ∈ glance.reads, other ≠ value) ∨ glance.lost = true := by
  simp only [Outdated, List.mem_append, List.mem_cons, List.not_mem_nil, or_false]
  constructor
  · rintro (⟨later, member | rfl, differs⟩ | ⟨later, rfl | member | rfl, lost⟩)
    · exact .inl (.inl ⟨later, member, differs⟩)
    · exact .inr (.inl differs)
    · exact .inl (.inr ⟨later, .inl rfl, lost⟩)
    · exact .inl (.inr ⟨later, .inr member, lost⟩)
    · exact .inr (.inr lost)
  · rintro ((⟨later, member, differs⟩ | ⟨later, rfl | member, lost⟩) | differs | lost)
    · exact .inl ⟨later, .inl member, differs⟩
    · exact .inr ⟨later, .inl rfl, lost⟩
    · exact .inr ⟨later, .inr (.inl member), lost⟩
    · exact .inl ⟨glance, .inr rfl, differs⟩
    · exact .inr ⟨glance, .inr (.inr rfl), lost⟩

/-- A failed push of a value that was not delivered leaves the next one due. -/
theorem due_of_failed {failing : Glance α} (reads : failing.reads = [value])
    (pushes : failing.pushes = [(value, false)])
    (new : ∀ old last later, LastDelivery before old last later → old ≠ value)
    (nothing : ∀ later ∈ since, ∀ other, ¬ later.Delivers other) :
    Due (before ++ failing :: since) glance := by
  have silent : ∀ later ∈ failing :: since, ∀ other, ¬ later.Delivers other := by
    refine List.forall_mem_cons.mpr ⟨fun other delivers => ?_, nothing⟩
    simp [Glance.Delivers, pushes] at delivers
  rcases exists_lastDelivery before with never | ⟨old, last, later, delivery⟩
  · left
    intro earlier member
    rcases List.mem_append.mp member with member | member
    · exact never earlier member
    · exact silent earlier member
  · refine .inr ⟨old, last, _, delivery.append silent, .inl (.inl ⟨failing, by simp, value, ?_, ?_⟩)⟩
    · simp [reads]
    · exact (new old last later delivery).symm

/-- A lost link leaves the next push due, as long as nothing is delivered after it. -/
theorem due_of_lost {losing : Glance α} {since : List (Glance α)} (lost : losing.lost = true)
    (nothing : ∀ later ∈ since, ∀ other, ¬ later.Delivers other) :
    Due (before ++ losing :: since) glance := by
  -- The last delivery is not after the loss, so that the loss is among what followed it.
  have followed : ∀ value last later, LastDelivery (before ++ losing :: since) value last later →
      losing ∈ last :: later := by
    induction since using List.reverseRecOn with
    | nil =>
      intro value last later delivery
      rcases delivery.of_append with ⟨rfl, _, _⟩ | ⟨earlier, rfl, _, _⟩
      · exact List.mem_cons_self ..
      · simp
    | append_singleton since latest ih =>
      intro value last later delivery
      rw [← List.cons_append, ← List.append_assoc] at delivery
      rcases delivery.of_append with ⟨rfl, _, delivers⟩ | ⟨earlier, rfl, delivery, _⟩
      · exact absurd delivers (nothing last (by simp) value)
      · have inside := ih (fun one member => nothing one (List.mem_append_left _ member)) _ _ _
          delivery
        exact List.mem_append_left [latest] inside
  rcases exists_lastDelivery (before ++ losing :: since) with never | ⟨value, last, later, delivery⟩
  · exact .inl never
  · have outdated : Outdated value last later :=
      .inr ⟨losing, followed value last later delivery, lost⟩
    exact .inr ⟨value, last, later, delivery, .inl outdated⟩

/-- In a connected round a push is attempted exactly if it is due. -/
theorem Mirrors.pushes_iff (mirrors : Mirrors past glance) (connected : glance.connected = true) :
    glance.pushes ≠ [] ↔ Due past glance := by
  obtain ⟨value, _, attempted, held_back⟩ := mirrors.pushed connected
  constructor
  · intro pushes
    by_contra early
    exact pushes (held_back early)
  · intro due
    obtain ⟨fine, pushes⟩ := attempted due
    rw [pushes]
    exact List.cons_ne_nil _ _

end History

section Gate

variable {α : Type} {past : List (Glance α)} {glance : Glance α} {gate after : SyncGate}
  {sent kept : Option α} {value : α} {now : Millis}

/-- A disconnect at the end of the round forgets what was sent. -/
def Glance.forgets (glance : Glance α) (sent : Option α) : Option α :=
  if glance.lost then none else sent

/-- What is remembered about a mirrored value is what its history says. -/
structure Tracks (past : List (Glance α)) (gate : SyncGate) (sent : Option α) : Prop where
  interval : gate.interval = 100
  fresh : (∀ earlier ∈ past, ∀ value, ¬ earlier.Delivers value) → gate.lastSync = none
  synced : ∀ value last since, LastDelivery past value last since → gate.lastSync = some last.now
  outdated : ∀ value last since, LastDelivery past value last since → Outdated value last since →
    gate.changed = true ∨ sent = none
  current : ∀ value last since, LastDelivery past value last since → ¬ Outdated value last since →
    gate.changed = false ∧ sent = some value

/-- A round that delivers nothing. -/
theorem Tracks.keep (tracks : Tracks past gate sent)
    (nothing : ∀ value, ¬ glance.Delivers value) (interval : after.interval = gate.interval)
    (lastSync : after.lastSync = gate.lastSync)
    (changed : after.changed = true ↔
      gate.changed = true ∨ ∃ other ∈ glance.reads, sent ≠ some other) :
    Tracks (past ++ [glance]) after (glance.forgets sent) := by
  have past_of {value : α} {last : Glance α} {since : List (Glance α)}
      (latest : LastDelivery (past ++ [glance]) value last since) :
      ∃ earlier, since = earlier ++ [glance] ∧ LastDelivery past value last earlier := by
    rcases latest.of_append with ⟨_, _, delivers⟩ | ⟨earlier, same, delivery, _⟩
    · exact absurd delivers (nothing value)
    · exact ⟨earlier, same, delivery⟩
  constructor
  case interval => exact interval.trans tracks.interval
  case fresh =>
    intro never
    rw [lastSync]
    exact tracks.fresh fun earlier member => never earlier (List.mem_append_left _ member)
  case synced =>
    intro value last _ latest
    obtain ⟨since, rfl, delivery⟩ := past_of latest
    exact lastSync.trans (tracks.synced _ _ _ delivery)
  case outdated =>
    intro value last _ latest outdated
    obtain ⟨since, rfl, delivery⟩ := past_of latest
    by_cases lost : glance.lost = true
    · exact .inr (if_pos lost)
    rw [Glance.forgets, if_neg lost, changed]
    by_cases before : Outdated value last since
    · exact (tracks.outdated _ _ _ delivery before).imp_left .inl
    · obtain ⟨_, same⟩ := tracks.current _ _ _ delivery before
      obtain ⟨other, read, differs⟩ : ∃ other ∈ glance.reads, other ≠ value :=
        ((outdated_append.mp outdated).resolve_left before).resolve_right lost
      refine .inl (.inr ⟨other, read, fun still => differs ?_⟩)
      exact Option.some.inj (still.symm.trans same)
  case current =>
    intro value last _ latest current
    obtain ⟨since, rfl, delivery⟩ := past_of latest
    rw [outdated_append, not_or, not_or] at current
    obtain ⟨before, alike, held⟩ := current
    obtain ⟨unchanged, same⟩ := tracks.current _ _ _ delivery before
    rw [Glance.forgets, if_neg held]
    refine ⟨?_, same⟩
    rw [← Bool.not_eq_true, changed, unchanged]
    rintro (absurd | ⟨other, read, differs⟩)
    · cases absurd
    · refine alike ⟨other, read, fun still => differs ?_⟩
      rw [same, still]

/-- A round that delivers. -/
theorem Tracks.deliver (interval : after.interval = 100) (lastSync : after.lastSync = some glance.now)
    (unchanged : after.changed = false) (pushes : glance.pushes = [(value, true)]) :
    Tracks (past ++ [glance]) after (glance.forgets (some value)) := by
  have delivers : glance.Delivers value := by simp [Glance.Delivers, pushes]
  have now {old : α} {last : Glance α} {since : List (Glance α)}
      (delivery : LastDelivery (past ++ [glance]) old last since) :
      old = value ∧ last = glance ∧ since = [] := by
    rcases delivery.of_append with ⟨rfl, rfl, same⟩ | ⟨_, _, _, nothing⟩
    · simp only [Glance.Delivers, pushes, List.mem_singleton, Prod.mk.injEq, and_true] at same
      exact ⟨same, rfl, rfl⟩
    · exact absurd delivers (nothing value)
  have outdated_iff : Outdated value glance [] ↔ glance.lost = true := by simp [Outdated]
  constructor
  case interval => exact interval
  case fresh => exact fun never => absurd delivers (never glance (by simp) value)
  case synced =>
    intro old last since delivery
    obtain ⟨rfl, rfl, rfl⟩ := now delivery
    exact lastSync
  case outdated =>
    intro old last since delivery outdated
    obtain ⟨rfl, rfl, rfl⟩ := now delivery
    exact .inr (if_pos (outdated_iff.mp outdated))
  case current =>
    intro old last since delivery current
    obtain ⟨rfl, rfl, rfl⟩ := now delivery
    exact ⟨unchanged, if_neg (outdated_iff.not.mp current)⟩

open Housekeeping (openIfNew)

variable [DecidableEq α]

theorem changed_openIfNew :
    (openIfNew gate sent value).changed = true ↔ gate.changed = true ∨ sent ≠ some value := by
  unfold openIfNew
  split
  · next same => simp [same]
  · next differs => simp [SyncGate.markChanged, differs]

@[simp] theorem lastSync_openIfNew : (openIfNew gate sent value).lastSync = gate.lastSync := by
  unfold openIfNew
  split <;> rfl

@[simp] theorem interval_openIfNew : (openIfNew gate sent value).interval = gate.interval := by
  unfold openIfNew
  split <;> rfl

theorem isDue_of_lastSync {last : Millis} (synced : gate.lastSync = some last) :
    gate.isDue now = true ↔ gate.changed = true ∨ gate.interval < Millis.since last now := by
  simp [SyncGate.isDue, synced]

/-- What a round makes of the gate of a mirrored value and of what was sent last, up to its end. -/
inductive Tends (gate : SyncGate) (sent : Option α) (now : Millis) :
    (connected : Bool) → List α → List (α × Bool) → SyncGate → Option α → Prop
  | silent : Tends gate sent now false [] [] gate sent
  | held (value : α) (early : (openIfNew gate sent value).isDue now = false) :
      Tends gate sent now true [value] [] (openIfNew gate sent value) sent
  | failed (value : α) (due : (openIfNew gate sent value).isDue now = true) :
      Tends gate sent now true [value] [(value, false)] (openIfNew gate sent value) sent
  | delivered (value : α) (due : (openIfNew gate sent value).isDue now = true) :
      Tends gate sent now true [value] [(value, true)] ((openIfNew gate sent value).delivered now)
        (some value)

/-- A gate that was opened for the value read lets it through if the last delivery is no longer what
is to be known. -/
theorem Tracks.isDue_of_delivery {old : α} {last : Glance α} {since : List (Glance α)}
    (tracks : Tracks past gate sent) (reads : glance.reads = [value])
    (delivery : LastDelivery past old last since) :
    (openIfNew gate sent value).isDue glance.now = true ↔
      Outdated old last since ∨ (∃ other ∈ glance.reads, other ≠ old) ∨
        100 < Millis.since last.now glance.now := by
  rw [isDue_of_lastSync (lastSync_openIfNew.trans (tracks.synced _ _ _ delivery)),
    changed_openIfNew, interval_openIfNew, tracks.interval, reads]
  simp only [List.mem_singleton, exists_eq_left]
  by_cases outdated : Outdated old last since
  · rcases tracks.outdated _ _ _ delivery outdated with changed | forgotten
    · simp [outdated, changed]
    · simp [outdated, forgotten]
  · obtain ⟨unchanged, same⟩ := tracks.current _ _ _ delivery outdated
    simp [outdated, unchanged, same, eq_comm]

theorem Tracks.isDue_iff (tracks : Tracks past gate sent) (reads : glance.reads = [value]) :
    (openIfNew gate sent value).isDue glance.now = true ↔ Due past glance := by
  constructor
  · intro due
    rcases exists_lastDelivery past with never | ⟨old, last, since, delivery⟩
    · exact .inl never
    · exact .inr ⟨old, last, since, delivery, (tracks.isDue_of_delivery reads delivery).mp due⟩
  · rintro (never | ⟨old, last, since, delivery, due⟩)
    · simp [SyncGate.isDue, tracks.fresh never]
    · exact (tracks.isDue_of_delivery reads delivery).mpr due

/-- Whatever a round does, what is remembered stays right. -/
theorem Tracks.step (tracks : Tracks past gate sent)
    (tends : Tends gate sent glance.now glance.connected glance.reads glance.pushes after kept) :
    Tracks (past ++ [glance]) after (glance.forgets kept) := by
  obtain ⟨connected, now, reads, pushes, lost⟩ := glance
  cases tends with
  | silent => exact tracks.keep (by simp [Glance.Delivers]) rfl rfl (by simp)
  | held value early =>
    exact tracks.keep (by simp [Glance.Delivers]) interval_openIfNew lastSync_openIfNew
      (by simp [changed_openIfNew])
  | failed value due =>
    exact tracks.keep (by simp [Glance.Delivers]) interval_openIfNew lastSync_openIfNew
      (by simp [changed_openIfNew])
  | delivered value due => exact .deliver (interval_openIfNew.trans tracks.interval) rfl rfl rfl

theorem Tends.pushes_eq {connected : Bool} {reads : List α} {pushes : List (α × Bool)}
    (tends : Tends gate sent now connected reads pushes after kept) :
    (connected = false ∧ reads = [] ∧ pushes = []) ∨
      connected = true ∧ ∃ value, reads = [value] ∧
        (((openIfNew gate sent value).isDue now = true ∧ ∃ fine, pushes = [(value, fine)]) ∨
          ¬ (openIfNew gate sent value).isDue now = true ∧ pushes = []) := by
  cases tends with
  | silent => exact .inl ⟨rfl, rfl, rfl⟩
  | held value early => exact .inr ⟨rfl, value, rfl, .inr ⟨Bool.not_eq_true _ ▸ early, rfl⟩⟩
  | failed value due => exact .inr ⟨rfl, value, rfl, .inl ⟨due, _, rfl⟩⟩
  | delivered value due => exact .inr ⟨rfl, value, rfl, .inl ⟨due, _, rfl⟩⟩

/-- What is remembered makes a round mirror the value as its history asks. -/
theorem Tracks.mirrors (tracks : Tracks past gate sent)
    (tends : Tends gate sent glance.now glance.connected glance.reads glance.pushes after kept) :
    Mirrors past glance := by
  rcases tends.pushes_eq with ⟨apart, reads, pushes⟩ | ⟨entered, value, reads, pushed⟩
  · constructor
    case apart => exact fun _ => ⟨reads, pushes⟩
    case pushed => exact fun entered => absurd (apart.symm.trans entered) Bool.noConfusion
    case retried =>
      intro _ _ _ _ _ _ _ _ _ entered
      exact absurd (apart.symm.trans entered) Bool.noConfusion
    case settled => exact fun _ _ _ _ _ _ _ => pushes
  have pushes (due : Due past glance) : ∃ fine, glance.pushes = [(value, fine)] := by
    rcases pushed with ⟨_, pushes⟩ | ⟨early, _⟩
    · exact pushes
    · exact absurd ((tracks.isDue_iff reads).mpr due) early
  constructor
  case apart => exact fun apart => absurd (apart.symm.trans entered) Bool.noConfusion
  case pushed =>
    refine fun _ => ⟨value, reads, pushes, fun early => ?_⟩
    rcases pushed with ⟨due, _⟩ | ⟨_, none_made⟩
    · exact absurd ((tracks.isDue_iff reads).mp due) early
    · exact none_made
  case retried =>
    rintro before failing since other rfl read failed new nothing _
    obtain ⟨fine, made⟩ := pushes (due_of_failed read failed new nothing)
    rw [made]
    exact List.cons_ne_nil _ _
  case settled =>
    intro old last since delivery current alike soon
    rcases pushed with ⟨due, _⟩ | ⟨_, none_made⟩
    · rcases (tracks.isDue_of_delivery reads delivery).mp due with outdated | differs | late
      · exact absurd outdated current
      · obtain ⟨other, read, differs⟩ := differs
        exact absurd (alike other read) differs
      · exact absurd late (UInt32.not_lt.mpr soon)
    · exact none_made

end Gate

end SplitKeyboard.Firmware
