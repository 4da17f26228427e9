import SplitKeyboard.Proofs.SharedWire.Calls

/-!
Whole sessions on the two kinds of line. A session is any sequence of calls to both engines, between
which bytes are queued, time passes, devices stop taking bytes and break down. On a shared wire that
echoes it goes as on a line with a wire for each direction: only skips are added, and one error has
another name.
-/
namespace SplitKeyboard

open Bench (WireEnd ScriptedDevice answerBoth)

/-- Both engines, each on a device of its own, and the clock of the initiator. -/
structure Session (Handler τ : Type) where
  near : Initiator Handler
  nearDevice : ScriptedDevice
  far : Target Handler
  farDevice : ScriptedDevice
  handlers : τ
  now : Millis

namespace Session

inductive Action where
  | transaction (id : TransactionId)
  | sendData (id : TransactionId) (data : List UInt8)
  | exchange (id : TransactionId) (data out : List UInt8)
  | poll
  | queue (side : WireEnd) (bytes : List UInt8)
  | advance (time : UInt32)
  /-- From now on the device takes only so many more bytes, or all if there is no limit. -/
  | limit (side : WireEnd) (limit : Option Nat)
  | breakDown (side : WireEnd)

/-- What an action shows at once. -/
inductive Outcome (Handler : Type) where
  | called (result : Except TransactionError Unit)
  | exchanged (result : Except TransactionError Nat) (out : List UInt8)
  | polled (result : Except TargetError TargetEvent) (handled : List (HandlerCall Handler))
  | quiet

variable {Handler τ : Type} (handle : HandlerCall Handler → τ → List UInt8 × τ)

def mapDevice (session : Session Handler τ) (side : WireEnd)
    (change : ScriptedDevice → ScriptedDevice) : Session Handler τ :=
  match side with
  | .near => { session with nearDevice := change session.nearDevice }
  | .far => { session with farDevice := change session.farDevice }

def act (session : Session Handler τ) : Action → Outcome Handler × Session Handler τ
  | .transaction id =>
    let ((result, near), nearDevice) :=
      (session.near.transaction session.now id).run ScriptedDevice.answer session.nearDevice
    (.called result, { session with near, nearDevice })
  | .sendData id data =>
    let ((result, near), nearDevice) :=
      (session.near.sendData session.now id data).run ScriptedDevice.answer session.nearDevice
    (.called result, { session with near, nearDevice })
  | .exchange id data out =>
    let ((result, out, near), nearDevice) :=
      (session.near.exchange session.now id data out).run ScriptedDevice.answer session.nearDevice
    (.exchanged result out, { session with near, nearDevice })
  | .poll =>
    let surroundings := answerBoth ScriptedDevice.answer handle
    let before := (session.farDevice, session.handlers)
    let ((result, far), farDevice, handlers) := session.far.poll.run surroundings before
    let handled := (session.far.poll.trace surroundings before).filterMap handlerCall?
    (.polled result handled, { session with far, farDevice, handlers })
  | .queue side bytes => (.quiet, session.mapDevice side (·.queue bytes))
  | .advance time => (.quiet, { session with now := session.now + time })
  | .limit side limit => (.quiet, session.mapDevice side ({ · with writeLimit := limit }))
  | .breakDown side => (.quiet, session.mapDevice side ({ · with fault := true }))

/-- What each action shows, with all that there is after it. -/
def history (session : Session Handler τ) :
    List Action → List (Outcome Handler × Session Handler τ)
  | [] => []
  | action :: actions => session.act handle action :: (session.act handle action).2.history actions

/-- The session on lines of this wiring. Devices echo on a shared wire and on no other. -/
def wired (session : Session Handler τ) (duplex : Duplex) : Session Handler τ :=
  { session with
    near := session.near.wired duplex
    nearDevice := { session.nearDevice with echo := decide (duplex = .half) }
    far := session.far.wired duplex
    farDevice := { session.farDevice with echo := decide (duplex = .half) } }

/-- The session but for how often its devices were asked to skip. -/
def withoutSkips (session : Session Handler τ) : Session Handler τ :=
  { session with
    nearDevice := { session.nearDevice with skips := 0 }
    farDevice := { session.farDevice with skips := 0 } }

/-- What shows instead on a shared wire, where a failed write of an ID has another name. -/
def Outcome.onSharedWire : Outcome Handler → Outcome Handler
  | called result => called (result.mapError TransactionError.onSharedWire)
  | exchanged result out => exchanged (result.mapError TransactionError.onSharedWire) out
  | polled result handled => polled result handled
  | quiet => quiet

/-- The second session is the first on a shared wire, and may have skipped more often. -/
structure Counterparts (first second : Session Handler τ) : Prop where
  near : ∃ base : Initiator Handler, first.near = base.wired .full ∧ second.near = base.wired .half
  far : ∃ base : Target Handler, first.far = base.wired .full ∧ second.far = base.wired .half
  nearDevice : first.nearDevice.Twins second.nearDevice
  farDevice : first.farDevice.Twins second.farDevice
  handlers : second.handlers = first.handlers
  now : second.now = first.now

variable {first second : Session Handler τ}

theorem counterparts_wired (session : Session Handler τ) :
    Counterparts (session.wired .full) (session.wired .half) :=
  ⟨⟨session.near, rfl, rfl⟩, ⟨session.far, rfl, rfl⟩, ⟨rfl, session.nearDevice.skips, rfl⟩,
    ⟨rfl, session.farDevice.skips, rfl⟩, rfl, rfl⟩

theorem Counterparts.withoutSkips (alike : Counterparts first second) :
    second.withoutSkips = (first.wired .half).withoutSkips := by
  obtain ⟨initiator, near, near_half⟩ := alike.near
  obtain ⟨target, far, far_half⟩ := alike.far
  obtain ⟨_, skips, nearDevice⟩ := alike.nearDevice
  obtain ⟨_, more, farDevice⟩ := alike.farDevice
  simp only [Session.withoutSkips, wired, near, near_half, far, far_half, nearDevice, farDevice,
    alike.handlers, alike.now]
  rfl

theorem Counterparts.mapDevice (alike : Counterparts first second) (side : WireEnd)
    (change : ScriptedDevice → ScriptedDevice)
    (keeps : ∀ {full half : ScriptedDevice}, full.Twins half → (change full).Twins (change half)) :
    Counterparts (first.mapDevice side change) (second.mapDevice side change) := by
  cases side with
  | near => exact { alike with nearDevice := keeps alike.nearDevice }
  | far => exact { alike with farDevice := keeps alike.farDevice }

/-- One action shows the same in both sessions and keeps them alike. -/
theorem counterparts_act (alike : Counterparts first second) (action : Action) :
    (second.act handle action).1 = (first.act handle action).1.onSharedWire ∧
      Counterparts (first.act handle action).2 (second.act handle action).2 := by
  have never : ¬ False := not_false
  obtain ⟨_, nearDevice, _, farDevice, _, _⟩ := first
  obtain ⟨_, nearTwin, _, farTwin, handlers, now⟩ := second
  obtain ⟨initiator, rfl, rfl⟩ := alike.near
  obtain ⟨target, rfl, rfl⟩ := alike.far
  obtain rfl := alike.handlers
  obtain rfl := alike.now
  cases action with
  | transaction id =>
    have matching := initiator.transaction_matches now id
    obtain ⟨base, after, shown⟩ := matching.results alike.nearDevice
    refine ⟨congrArg (Outcome.called ∘ Prod.fst) shown, ?_⟩
    exact { alike with
      near := ⟨base, after, congrArg Prod.snd shown⟩
      nearDevice := matching.twins alike.nearDevice never }
  | sendData id data =>
    have matching := initiator.sendData_matches now id data
    obtain ⟨base, after, shown⟩ := matching.results alike.nearDevice
    refine ⟨congrArg (Outcome.called ∘ Prod.fst) shown, ?_⟩
    exact { alike with
      near := ⟨base, after, congrArg Prod.snd shown⟩
      nearDevice := matching.twins alike.nearDevice never }
  | exchange id data out =>
    have matching := initiator.exchange_matches now id data out
    obtain ⟨copied, base, after, shown⟩ := matching.results alike.nearDevice
    refine ⟨congrArg₂ Outcome.exchanged (congrArg Prod.fst shown) copied, ?_⟩
    exact { alike with
      near := ⟨base, after, congrArg Prod.snd shown⟩
      nearDevice := matching.twins alike.nearDevice never }
  | poll =>
    have matching := target.poll_agrees handle
    have begun : (Target.comparison handle).twins (farDevice, handlers) (farTwin, handlers) :=
      ⟨alike.farDevice, rfl⟩
    obtain ⟨base, after, shown⟩ := matching.results begun
    obtain ⟨twins, same⟩ := matching.twins begun never
    have polled := congrArg₂ Outcome.polled (congrArg Prod.fst shown) (matching.shows begun)
    refine ⟨polled, ?_⟩
    exact { alike with
      far := ⟨base, after, congrArg Prod.snd shown⟩
      farDevice := twins
      handlers := same }
  | queue side bytes =>
    refine ⟨rfl, alike.mapDevice side (·.queue bytes) ?_⟩
    rintro full _ ⟨quiet, skips, rfl⟩
    exact ⟨quiet, skips, rfl⟩
  | advance time => exact ⟨rfl, { alike with now := rfl }⟩
  | limit side limit =>
    refine ⟨rfl, alike.mapDevice side ({ · with writeLimit := limit }) ?_⟩
    rintro full _ ⟨quiet, skips, rfl⟩
    exact ⟨quiet, skips, rfl⟩
  | breakDown side =>
    refine ⟨rfl, alike.mapDevice side ({ · with fault := true }) ?_⟩
    rintro full _ ⟨quiet, skips, rfl⟩
    exact ⟨quiet, skips, rfl⟩

theorem history_counterparts (alike : Counterparts first second) (actions : List Action) :
    (second.history handle actions).map (fun moment => (moment.1, moment.2.withoutSkips)) =
      (first.history handle actions).map fun moment =>
        (moment.1.onSharedWire, (moment.2.wired .half).withoutSkips) := by
  induction actions generalizing first second with
  | nil => rfl
  | cons action actions ih =>
    obtain ⟨shown, still⟩ := counterparts_act handle alike action
    rw [history, history, List.map_cons, List.map_cons, ih still, shown, still.withoutSkips]

/-- A session goes on a shared wire as on a line with two: action by action it shows the same, except
that a failed write of an ID has another name, and it leaves everything the same but the skips. -/
theorem history_wired (session : Session Handler τ) (actions : List Action) :
    ((session.wired .half).history handle actions).map
        (fun moment => (moment.1, moment.2.withoutSkips)) =
      ((session.wired .full).history handle actions).map fun moment =>
        (moment.1.onSharedWire, (moment.2.wired .half).withoutSkips) :=
  history_counterparts handle session.counterparts_wired actions

end Session
end SplitKeyboard
