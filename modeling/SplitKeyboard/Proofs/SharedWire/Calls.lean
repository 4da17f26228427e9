import SplitKeyboard.Proofs.Parallel
import SplitKeyboard.Proofs.Rounds

/-!
The same calls on a line with a wire for each direction and on one shared wire that echoes.
-/
namespace SplitKeyboard

open Bench (WireEnd ScriptedDevice Rig answerBoth)
open Program (Parallel Comparison Failed Renamed)

namespace Bench.ScriptedDevice

/-- The second device echoes, and may have been asked to skip more often. -/
def Twins (full half : ScriptedDevice) : Prop :=
  full.echo = false ∧ ∃ skips, half = { full with echo := true, skips }

/-- Twins, but for what is waiting on the second. -/
def Astray (full half : ScriptedDevice) : Prop :=
  full.echo = false ∧ ∃ skips incoming, half = { full with echo := true, skips, incoming }

theorem Twins.astray {full half : ScriptedDevice} (twins : full.Twins half) : full.Astray half := by
  obtain ⟨quiet, skips, rfl⟩ := twins
  exact ⟨quiet, skips, full.incoming, rfl⟩

theorem accepted_eq {device : ScriptedDevice} {data : List UInt8}
    (whole : (device.accepted data).length = data.length) : device.accepted data = data := by
  unfold accepted at *
  cases limited : device.writeLimit with
  | none => rfl
  | some limit =>
    rw [limited] at whole
    exact List.take_of_length_le (whole ▸ List.length_take_le limit data)

/-- Both devices take the same of a write. If that is all of it, it comes back ahead of everything on
the second device, and neither device is out of order. -/
theorem Twins.write {full half : ScriptedDevice} (twins : full.Twins half) (data : List UInt8)
    (timeout : UInt32) :
    (answer (.write data timeout) half).1 = (answer (.write data timeout) full).1 ∧
      (answer (.write data timeout) full).2.Astray (answer (.write data timeout) half).2 ∧
      ((answer (.write data timeout) full).1 = some data.length →
        (answer (.write data timeout) half).2.fault = false ∧
        (answer (.write data timeout) half).2.incoming =
          data ++ (answer (.write data timeout) full).2.incoming) := by
  obtain ⟨quiet, skips, rfl⟩ := twins
  by_cases broken : full.fault
  · simp only [answer, broken, if_true]
    exact ⟨trivial, ⟨quiet, skips, full.incoming, rfl⟩, by simp⟩
  · simp only [answer, broken, Bool.false_eq_true, if_false]
    refine ⟨rfl, ⟨quiet, skips, full.accepted data ++ full.incoming, ?_⟩, ?_⟩
    · simp [accept, accepted, quiet]
    · intro whole
      have same : full.accepted data = data := accepted_eq (Option.some.inj whole)
      refine ⟨by simp [accept], ?_⟩
      simp only [accept, quiet, Bool.false_eq_true, if_false, if_true]
      exact congrArg (· ++ full.incoming) same

theorem Astray.twins {full half : ScriptedDevice} (astray : full.Astray half)
    (same : half.incoming = full.incoming) : full.Twins half := by
  obtain ⟨quiet, skips, incoming, rfl⟩ := astray
  cases same
  exact ⟨quiet, skips, rfl⟩

/-- Dropping an echo that has come back in full. -/
theorem Astray.drop {full half : ScriptedDevice} {data : List UInt8} (astray : full.Astray half)
    (sane : half.fault = false) (echo : half.incoming = data ++ full.incoming) (timeout : UInt32) :
    (answer (.skip data.length timeout) half).1 = some data.length ∧
      full.Twins (answer (.skip data.length timeout) half).2 := by
  obtain ⟨quiet, skips, incoming, rfl⟩ := astray
  change full.fault = false at sane
  change incoming = data ++ full.incoming at echo
  subst echo
  have calm : ¬ full.fault = true := by simp [sane]
  simp only [answer, if_neg calm, List.length_append, List.drop_left]
  exact ⟨congrArg some (Nat.min_eq_left (Nat.le_add_right _ _)), quiet, skips + 1, rfl⟩

theorem Astray.clear {full half : ScriptedDevice} (astray : full.Astray half) :
    (answer .clear full).2.Twins (answer .clear half).2 := by
  obtain ⟨quiet, skips, incoming, rfl⟩ := astray
  exact ⟨quiet, skips, rfl⟩

theorem Twins.read {full half : ScriptedDevice} (twins : full.Twins half) (count : Nat)
    (timeout : UInt32) :
    (answer (.read count timeout) half).1 = (answer (.read count timeout) full).1 ∧
      (answer (.read count timeout) full).2.Twins (answer (.read count timeout) half).2 := by
  obtain ⟨quiet, skips, rfl⟩ := twins
  by_cases broken : full.fault
  · simp only [answer, broken, if_true]
    exact ⟨trivial, quiet, skips, rfl⟩
  · simp only [answer, broken, Bool.false_eq_true, if_false]
    exact ⟨trivial, quiet, skips, rfl⟩

def comparison : Comparison SerialRequest.Reply Empty ScriptedDevice where
  answer := answer
  watch _ := none
  twins := Twins
  astray := Astray
  astray_of_twins := Twins.astray

end Bench.ScriptedDevice

namespace Link

/-- The same link on a line of this wiring. -/
def wired (link : Link) (duplex : Duplex) : Link := { link with duplex }

end Link

/-- From devices so related, a program on a line with two wires goes as the other does on a shared
wire. -/
abbrev Matches {α β : Type} (start : ScriptedDevice → ScriptedDevice → Prop) (related : α → β → Prop)
    (broken : α → Prop) (p : SerialProgram α) (q : SerialProgram β) : Prop :=
  Parallel ScriptedDevice.comparison start related broken p q

variable (link : Link)

theorem shows_nothing {α : Type} (p : SerialProgram α) (s : ScriptedDevice) :
    (p.trace ScriptedDevice.comparison.answer s).filterMap ScriptedDevice.comparison.watch = [] :=
  List.filterMap_eq_nil_iff.mpr fun _ _ => rfl

namespace Link

/-- What is sent comes back on a shared wire and is dropped, if all of it went out. -/
theorem send_matches (data : List UInt8) :
    Matches ScriptedDevice.Twins (Renamed id) Failed ((link.wired .full).send data)
      ((link.wired .half).send data) := by
  have all (full half : ScriptedDevice) (twins : full.Twins half) :
      let first := ((link.wired .full).send data).run ScriptedDevice.answer full
      let second := ((link.wired .half).send data).run ScriptedDevice.answer half
      second.1 = first.1 ∧ (¬ Failed first.1 → first.2.Twins second.2) ∧ first.2.Astray second.2 := by
    obtain ⟨same, astray, echo⟩ := twins.write data link.timeout
    simp only [send, wired, Program.run, same]
    cases written : (ScriptedDevice.answer (.write data link.timeout) full).1 with
    | none => exact ⟨rfl, fun whole => absurd trivial whole, astray⟩
    | some count =>
      by_cases all : count = data.length
      · obtain ⟨sane, echo⟩ := echo (written.trans (congrArg some all))
        by_cases nothing : data = []
        · have silent : ¬ data ≠ [] := not_not_intro nothing
          have twins := astray.twins (echo.trans (by rw [nothing, List.nil_append]))
          simp only [all, silent, and_false, if_true, if_false, Program.run]
          exact ⟨trivial, fun _ => twins, astray⟩
        · obtain ⟨dropped, twins⟩ := astray.drop sane echo link.timeout
          simp only [all, nothing, ne_eq, not_false_eq_true, and_true, if_true, reduceCtorEq,
            if_false, dropEcho, Program.run, dropped]
          exact ⟨trivial, fun _ => twins, twins.astray⟩
      · simp only [if_neg all]
        exact ⟨rfl, fun whole => absurd trivial whole, astray⟩
  exact ⟨fun twins => (all _ _ twins).1.trans (Program.renamed_id _), fun twins => (all _ _ twins).2.1,
    fun twins => (all _ _ twins).2.2, fun _ => (shows_nothing _ _).trans (shows_nothing _ _).symm⟩

theorem receive_matches (count : Nat) :
    Matches ScriptedDevice.Twins Eq (fun _ => False) ((link.wired .full).receive count)
      ((link.wired .half).receive count) :=
  .ask (fun twins => twins.read count link.timeout) fun _ => .done rfl

theorem receiveToken_matches (timeout : UInt32) :
    Matches ScriptedDevice.Twins Eq (fun _ => False) (receiveToken timeout)
      (receiveToken timeout) :=
  .ask (fun twins => twins.read 1 timeout) fun _ => .done rfl

end Link

/-- What a failed write of the ID is called on a shared wire. All else is called the same. -/
def TransactionError.onSharedWire : TransactionError → TransactionError
  | .linkFault => .noResponse .sendingId
  | error => error

namespace Link

theorem shakeHands_matches (id : TransactionId) :
    Matches ScriptedDevice.Twins (Renamed TransactionError.onSharedWire) Failed
      ((link.wired .full).shakeHands id) ((link.wired .half).shakeHands id) := by
  refine Parallel.bind_except (link.send_matches [id]) ?_ (fun _ => .done_broken rfl trivial)
  intro _
  refine Parallel.bind (link.receive_matches 1) ?_ (fun _ _ _ never => never.elim)
  rintro answer _ rfl _
  cases outcome : answer.result with
  | error error => exact .done rfl
  | ok done =>
    dsimp only
    split
    · exact .done rfl
    · exact .done rfl

theorem sendRequest_matches (request : List UInt8) :
    Matches ScriptedDevice.Twins (Renamed TransactionError.onSharedWire) Failed
      ((link.wired .full).sendRequest request) ((link.wired .half).sendRequest request) := by
  unfold sendRequest
  by_cases nothing : request = []
  · rw [if_pos nothing, if_pos nothing]
    exact .done rfl
  · rw [if_neg nothing, if_neg nothing]
    exact .bind_except (link.send_matches request) (fun _ => .done rfl)
      (fun _ => .done_broken rfl trivial)

theorem receiveReply_matches (replySize : Nat) :
    Matches ScriptedDevice.Twins
      (fun first second => second = (first.1.mapError TransactionError.onSharedWire, first.2))
      (fun _ => False) ((link.wired .full).receiveReply replySize)
      ((link.wired .half).receiveReply replySize) := by
  unfold receiveReply
  by_cases nothing : replySize = 0
  · rw [if_pos nothing, if_pos nothing]
    exact .done rfl
  · rw [if_neg nothing, if_neg nothing]
    refine Parallel.bind (link.receive_matches replySize) ?_ (fun _ _ _ never => never.elim)
    rintro reply _ rfl _
    cases outcome : reply.result with
    | error error => exact .done rfl
    | ok done => exact .done rfl

theorem converse_matches (id : TransactionId) (request : List UInt8) (replySize : Nat) :
    Matches ScriptedDevice.Twins
      (fun first second =>
        second = { first with result := first.result.mapError TransactionError.onSharedWire })
      (fun conversation => Failed conversation.result)
      ((link.wired .full).converse id request replySize)
      ((link.wired .half).converse id request replySize) := by
  refine Parallel.bind_except (link.shakeHands_matches id) ?_ (fun _ => .done_broken rfl trivial)
  intro _
  refine Parallel.bind_except (link.sendRequest_matches request) ?_
    (fun _ => .done_broken rfl trivial)
  intro _
  refine Parallel.bind (link.receiveReply_matches replySize) ?_ (fun _ _ _ never => never.elim)
  rintro ⟨result, reply⟩ _ rfl _
  exact .done rfl

end Link

theorem clear_matches {α β : Type} {related : α → β → Prop} {broken : α → Prop}
    {next : Unit → SerialProgram α} {next' : Unit → SerialProgram β}
    (go : Matches ScriptedDevice.Twins related broken (next ()) (next' ())) :
    Matches ScriptedDevice.Astray related broken (.ask .clear next) (.ask .clear next') :=
  .ask (fun astray => ⟨rfl, astray.clear⟩) fun _ => go

theorem Link.reset_matches :
    Matches ScriptedDevice.Astray Eq (fun _ => False) Link.reset Link.reset :=
  clear_matches (.done rfl)

namespace Initiator

variable {Handler : Type}

def wired (initiator : Initiator Handler) (duplex : Duplex) : Initiator Handler :=
  { initiator with link := initiator.link.wired duplex }

/-- What calls on the two lines come to: the same, but for the wiring and the name of one error. -/
def Alike {α : Type} (first second : Except TransactionError α × Initiator Handler) : Prop :=
  ∃ base : Initiator Handler, first.2 = base.wired .full ∧
    second = (first.1.mapError TransactionError.onSharedWire, base.wired .half)

theorem onSharedWire_of_permit {initiator : Initiator Handler} {now : Millis} {id : TransactionId}
    {error : TransactionError} (refused : initiator.permit now id = .error error) :
    error.onSharedWire = error := by
  unfold permit at refused
  split at refused
  · cases refused
    rfl
  · cases refused
    rfl
  · split at refused
    · cases refused
      rfl
    · cases refused

theorem count_onSharedWire (stats : LinkStats) (error : TransactionError) :
    stats.count (.error error.onSharedWire) = stats.count (.error error) := by
  cases error <;> rfl

theorem transaction_matches (initiator : Initiator Handler) (now : Millis) (id : TransactionId) :
    Matches ScriptedDevice.Twins Alike (fun _ => False)
      ((initiator.wired .full).transaction now id) ((initiator.wired .half).transaction now id) := by
  unfold transaction
  rw [show (initiator.wired .full).permit now id = initiator.permit now id from rfl,
    show (initiator.wired .half).permit now id = initiator.permit now id from rfl]
  cases permitted : initiator.permit now id with
  | error error =>
    refine .done ⟨initiator.book (.error error), rfl, ?_⟩
    rw [Except.mapError, onSharedWire_of_permit permitted]
    rfl
  | ok entry =>
    refine Parallel.bind (initiator.link.converse_matches id (initiator.table.requestOf entry)
      entry.replySize) ?_ ?_
    · rintro ⟨result, answered, reply⟩ _ rfl whole
      cases result with
      | error error => exact absurd trivial whole
      | ok done =>
        exact .done ⟨(initiator.learn now entry ⟨.ok (), answered, reply⟩).book (.ok ()), rfl, rfl⟩
    · rintro ⟨result, answered, reply⟩ _ rfl failed
      cases result with
      | ok done => exact failed.elim
      | error error =>
        refine clear_matches (.done
          ⟨(initiator.learn now entry ⟨.error error, answered, reply⟩).book (.error error), rfl, ?_⟩)
        simp only [Except.mapError, book, count_onSharedWire]
        rfl

theorem sendData_matches (initiator : Initiator Handler) (now : Millis) (id : TransactionId)
    (data : List UInt8) :
    Matches ScriptedDevice.Twins Alike (fun _ => False)
      ((initiator.wired .full).sendData now id data)
      ((initiator.wired .half).sendData now id data) := by
  unfold sendData
  rw [show (initiator.wired .full).table = initiator.table from rfl,
    show (initiator.wired .half).table = initiator.table from rfl]
  cases initiator.table.descriptor? id with
  | none => exact transaction_matches initiator now id
  | some entry =>
    dsimp only
    split
    · exact .done ⟨initiator, rfl, rfl⟩
    · exact transaction_matches { initiator with table := _ } now id

theorem exchange_matches (initiator : Initiator Handler) (now : Millis) (id : TransactionId)
    (data out : List UInt8) :
    Matches ScriptedDevice.Twins
      (fun first second => second.2.1 = first.2.1 ∧ Alike (first.1, first.2.2) (second.1, second.2.2))
      (fun _ => False) ((initiator.wired .full).exchange now id data out)
      ((initiator.wired .half).exchange now id data out) := by
  refine Parallel.bind (sendData_matches initiator now id data) ?_ (fun _ _ _ never => never.elim)
  rintro ⟨result, _⟩ _ ⟨base, rfl, rfl⟩ _
  cases result with
  | error error => exact .done ⟨rfl, base, rfl, rfl⟩
  | ok done =>
    dsimp only [Except.mapError]
    rw [show (base.wired .full).table = base.table from rfl,
      show (base.wired .half).table = base.table from rfl]
    cases base.table.reply? id with
    | none => exact .done ⟨rfl, base, rfl, rfl⟩
    | some reply => exact .done ⟨rfl, base, rfl, rfl⟩

end Initiator

namespace Target

variable {Handler τ : Type} (handle : HandlerCall Handler → τ → List UInt8 × τ)

def wired (target : Target Handler) (duplex : Duplex) : Target Handler :=
  { target with link := target.link.wired duplex }

/-- Polls are compared with their handlers, whose calls are watched. -/
def comparison : Comparison (Program.EitherReply SerialRequest.Reply (@HandlerCall.Reply Handler))
    (HandlerCall Handler) (ScriptedDevice × τ) where
  answer := answerBoth ScriptedDevice.answer handle
  watch := handlerCall?
  twins s t := s.1.Twins t.1 ∧ t.2 = s.2
  astray s t := s.1.Astray t.1 ∧ t.2 = s.2
  astray_of_twins twins := ⟨twins.1.astray, twins.2⟩

abbrev Agrees {α β : Type} (start : ScriptedDevice → ScriptedDevice → Prop) (related : α → β → Prop)
    (broken : α → Prop) (p : ServingProgram Handler α) (q : ServingProgram Handler β) : Prop :=
  Parallel (comparison handle) (fun s t => start s.1 t.1 ∧ t.2 = s.2) related broken p q

section Links

variable {handle} {α β : Type} {start : ScriptedDevice → ScriptedDevice → Prop}
  {related : α → β → Prop} {broken : α → Prop} (link : Link)

/-- A program on the link leaves the handlers alone. -/
theorem run_onLink (p : SerialProgram α) (device : ScriptedDevice) (handlers : τ) :
    (onLink p : ServingProgram Handler α).run (answerBoth ScriptedDevice.answer handle)
        (device, handlers) =
      ((p.run ScriptedDevice.answer device).1, (p.run ScriptedDevice.answer device).2, handlers) := by
  induction p generalizing device with
  | done a => rfl
  | ask request next ih => exact ih _ _

theorem trace_onLink (p : SerialProgram α) (device : ScriptedDevice) (handlers : τ) :
    (onLink p : ServingProgram Handler α).trace (answerBoth ScriptedDevice.answer handle)
        (device, handlers) =
      (p.trace ScriptedDevice.answer device).map Program.Exchange.beside := by
  induction p generalizing device with
  | done a => rfl
  | ask request next ih => exact congrArg (List.cons _) (ih _ _)

theorem onLink_agrees {p : SerialProgram α} {q : SerialProgram β}
    (own : Matches start related broken p q) :
    Agrees handle start related broken (onLink p) (onLink q) := by
  constructor
  case results =>
    rintro ⟨full, _⟩ ⟨half, handlers⟩ ⟨begun, rfl⟩
    simp only [comparison, run_onLink]
    exact own.results begun
  case twins =>
    rintro ⟨full, _⟩ ⟨half, handlers⟩ ⟨begun, rfl⟩
    simp only [comparison, run_onLink]
    exact fun whole => ⟨own.twins begun whole, trivial⟩
  case astray =>
    rintro ⟨full, _⟩ ⟨half, handlers⟩ ⟨begun, rfl⟩
    simp only [comparison, run_onLink]
    exact ⟨own.astray begun, trivial⟩
  case shows =>
    rintro ⟨full, _⟩ ⟨half, handlers⟩ ⟨begun, rfl⟩
    simp only [comparison, trace_onLink, handlerCall?_beside]

theorem handler_agrees {next : List UInt8 → ServingProgram Handler α}
    {next' : List UInt8 → ServingProgram Handler β} (call : HandlerCall Handler)
    (go : ∀ output, Agrees handle ScriptedDevice.Twins related broken (next output) (next' output)) :
    Agrees handle ScriptedDevice.Twins related broken (.ask (.inr call) next)
      (.ask (.inr call) next') := by
  refine Parallel.ask ?_ go
  rintro ⟨full, _⟩ ⟨half, handlers⟩ ⟨begun, rfl⟩
  exact ⟨rfl, begun, rfl⟩

theorem runHandler_agrees (table : Table Handler) (entry : Descriptor Handler) :
    Agrees handle ScriptedDevice.Twins Eq (fun _ => False) (runHandler table entry)
      (runHandler table entry) := by
  unfold runHandler
  cases entry.handler with
  | none => exact .done rfl
  | some handler => exact handler_agrees _ fun _ => .done rfl

theorem receiveRequest_agrees (table : Table Handler) (entry : Descriptor Handler) :
    Agrees handle ScriptedDevice.Twins Eq (fun _ => False)
      (receiveRequest (link.wired .full) table entry)
      (receiveRequest (link.wired .half) table entry) := by
  unfold receiveRequest
  by_cases nothing : entry.requestSize = 0
  · rw [if_pos nothing, if_pos nothing]
    exact .done rfl
  · rw [if_neg nothing, if_neg nothing]
    refine Parallel.bind (onLink_agrees (link.receive_matches entry.requestSize)) ?_
      (fun _ _ _ never => never.elim)
    rintro request _ rfl _
    cases outcome : request.result with
    | error error => exact .done rfl
    | ok done => exact .done rfl

theorem sendReply_agrees (table : Table Handler) (entry : Descriptor Handler) :
    Agrees handle ScriptedDevice.Twins Eq (· = false) (sendReply (link.wired .full) table entry)
      (sendReply (link.wired .half) table entry) := by
  unfold sendReply
  by_cases nothing : entry.replySize = 0
  · rw [if_pos nothing, if_pos nothing]
    exact .done rfl
  · rw [if_neg nothing, if_neg nothing]
    exact .bind_except (onLink_agrees (link.send_matches _)) (fun _ => .done rfl)
      (fun _ => .done_broken rfl rfl)

theorem serve_agrees (table : Table Handler) (entry : Descriptor Handler) (id : TransactionId) :
    Agrees handle ScriptedDevice.Twins Eq (fun outcome => Failed outcome.1)
      (serve (link.wired .full) table entry id) (serve (link.wired .half) table entry id) := by
  refine Parallel.bind_except (onLink_agrees (link.send_matches _)) ?_
    (fun _ => .done_broken rfl trivial)
  intro _
  refine Parallel.bind (receiveRequest_agrees link table entry) ?_ (fun _ _ _ never => never.elim)
  rintro ⟨received, asked⟩ _ rfl _
  cases received with
  | false => exact .done rfl
  | true =>
    refine Parallel.bind (runHandler_agrees asked entry) ?_ (fun _ _ _ never => never.elim)
    rintro answered _ rfl _
    refine Parallel.bind (sendReply_agrees link answered entry) ?_ ?_
    · rintro sent _ rfl whole
      cases sent with
      | false => exact absurd rfl whole
      | true => exact .done rfl
    · rintro sent _ rfl failed
      cases failed
      exact .done_broken rfl trivial

end Links

theorem react_agrees (target : Target Handler) :
    Agrees handle ScriptedDevice.Twins Eq (fun outcome => Failed outcome.1)
      (target.wired .full).react (target.wired .half).react := by
  refine Parallel.bind (onLink_agrees (Link.receiveToken_matches target.idleTimeout)) ?_
    (fun _ _ _ never => never.elim)
  rintro token _ rfl _
  cases token with
  | error error => exact .done rfl
  | ok came =>
    cases came with
    | none => exact .done rfl
    | some id =>
      dsimp only
      rw [show (target.wired .full).table = target.table from rfl,
        show (target.wired .half).table = target.table from rfl]
      cases target.table.resolve id with
      | error error => cases error <;> exact .done rfl
      | ok entry => exact serve_agrees target.link target.table entry id

/-- A poll on the two lines comes to the same, but for the wiring. -/
theorem poll_agrees (target : Target Handler) :
    Agrees handle ScriptedDevice.Twins
      (fun first second => ∃ base : Target Handler, first.2 = base.wired .full ∧
        second = (first.1, base.wired .half))
      (fun _ => False) (target.wired .full).poll (target.wired .half).poll := by
  refine Parallel.bind (react_agrees handle target) ?_ ?_
  · rintro ⟨result, table⟩ _ rfl whole
    cases result with
    | error error => exact absurd trivial whole
    | ok event => exact .done ⟨{ target with table }, rfl, rfl⟩
  · rintro ⟨result, table⟩ _ rfl failed
    cases result with
    | ok event => exact failed.elim
    | error error =>
      refine Parallel.bind (onLink_agrees Link.reset_matches) ?_
        (fun _ _ _ never => never.elim)
      rintro _ _ rfl _
      exact .done ⟨{ target with table }, rfl, rfl⟩

end Target
end SplitKeyboard
