import SplitKeyboard.Firmware.Housekeeping
import SplitKeyboard.KeyScan
import SplitKeyboard.Settings.Basic
import SplitKeyboard.Uart.Stream

/-!
Both halves at work, in virtual time. Three tasks share the clock: the key scan and the
housekeeping of the initiator, and the server of the target. Their UARTs are joined by a cable that
can be pulled. A task runs until it has to wait, for its next tick or for a byte, and in each
millisecond all of them take turns until nothing moves any more. Whoever waits for a byte gives way
to the others for a turn, however short the wait.
-/
namespace SplitKeyboard.Firmware
open Uart (StreamRequest)

/-- The wires between the halves, with the bytes that have arrived and are not yet read. -/
structure Cable where
  plugged : Bool := true
  toInitiator : List UInt8 := []
  toTarget : List UInt8 := []
  initiatorSent : Array UInt8 := #[]
  targetSent : Array UInt8 := #[]

namespace Cable

def received (cable : Cable) : Role → List UInt8
  | .initiator => cable.toInitiator
  | .target => cable.toTarget

def setReceived (cable : Cable) (half : Role) (bytes : List UInt8) : Cable :=
  match half with
  | .initiator => { cable with toInitiator := bytes }
  | .target => { cable with toTarget := bytes }

/-- Puts bytes where a half receives them, whatever the cable does. -/
def inject (cable : Cable) (half : Role) (bytes : List UInt8) : Cable :=
  cable.setReceived half (cable.received half ++ bytes)

/-- Writes bytes at a half. They reach the other one only through a plugged cable. -/
def write (cable : Cable) (half : Role) (data : List UInt8) : Cable :=
  let logged := match half with
    | .initiator => { cable with initiatorSent := cable.initiatorSent ++ data }
    | .target => { cable with targetSent := cable.targetSent ++ data }
  if cable.plugged then
    match half with
    | .initiator => logged.inject .target data
    | .target => logged.inject .initiator data
  else logged

/-- How the UART of a half answers at the given uptime; nothing while the caller has to wait. A wait
gives way at least once: it only runs out for a caller who has been waiting since an earlier turn,
so even a wait of no length lets the other half move before it ends. -/
def answer (half : Role) (uptime : Nat) (waited : Bool) :
    (request : StreamRequest) → Cable → Option (request.Reply × Cable)
  | .uptime, cable => some (uptime, cable)
  | .write data _, cable =>
    if more : 0 < data.length then some (.accepted data.length more, cable.write half data)
    else some (.timedOut, cable)
  | .read count deadline, cable =>
    let waiting := cable.received half
    if waiting ≠ [] then
      some (.bytes (waiting.take count), cable.setReceived half (waiting.drop count))
    else if waited ∧ deadline ≤ uptime then some (.timedOut, cable)
    else none
  | .drain, cable => some ((), cable.setReceived half [])

/-- Counts that change whenever a byte is written, read or dropped. -/
def activity (cable : Cable) : Nat × Nat × Nat × Nat :=
  (cable.initiatorSent.size, cable.targetSent.size, cable.toInitiator.length,
    cable.toTarget.length)

end Cable

def scanPeriod : Nat := 5

def housekeepingPeriod : Nat := 10

/-- Housekeeping under way, down to its stream calls. Once it is done it waits for its tick. -/
abbrev HousekeepingTask :=
  Program (StreamRequest ⊕ BoardRequest)
    (Program.EitherReply StreamRequest.Reply BoardRequest.Reply)
    (Housekeeping × Initiator Service)

abbrev ServingTask :=
  Program (StreamRequest ⊕ HandlerCall Service)
    (Program.EitherReply StreamRequest.Reply HandlerCall.Reply)
    (Except TargetError TargetEvent × Target Service)

structure Published where
  state : SharedState := {}
  bestSpeed : UInt8 := 0
  report : Option LinkStatus := none

structure Halves where
  uptime : Nat
  cable : Cable
  keys : List Bool := List.replicate keyCount false
  published : Published := {}
  peer : Peer := {}
  scan : KeyScan := {}
  nextScan : Nat
  housekeeping : HousekeepingTask
  nextHousekeeping : Nat
  serving : ServingTask

namespace Halves

def startRound (keeper : Housekeeping) (initiator : Initiator Service) : HousekeepingTask :=
  (keeper.round.refineState serveHousekeeping initiator).refineLeft Uart.serve

def startPoll (target : Target Service) : ServingTask := target.poll.refineLeft Uart.serve

/-- Both halves at the moment at which their tasks start. The first ticks are a period away. -/
def start (config : LinkConfig) (uptime : Nat) (plugged : Bool) : Halves :=
  { uptime
    cable := { plugged }
    nextScan := uptime + scanPeriod
    housekeeping := .done ({}, .ofConfig config table)
    nextHousekeeping := uptime + housekeepingPeriod
    serving := startPoll (.ofConfig config table) }

/-- Scans the keys for every tick that is due, and publishes what came of it. -/
def pollScan (halves : Halves) : Halves :=
  if halves.uptime < halves.nextScan then halves
  else
    let due := (halves.uptime - halves.nextScan) / scanPeriod + 1
    let now : Millis := UInt32.ofNat halves.uptime
    let scan := due.repeat (fun scan => scan.scan now halves.keys) halves.scan
    { halves with
      scan
      nextScan := halves.nextScan + due * scanPeriod
      published := { halves.published with
        state := scan.shared
        bestSpeed := UInt8.ofNat scan.speed.best } }

def answerHousekeeping (uptime : Nat) (waited : Bool) :
    (request : StreamRequest ⊕ BoardRequest) → Cable × Published →
      Option (Program.EitherReply StreamRequest.Reply BoardRequest.Reply request ×
        (Cable × Published))
  | .inl request, (cable, published) =>
    (cable.answer .initiator uptime waited request).map fun (reply, cable) =>
      (reply, (cable, published))
  | .inr .clock, state => some (UInt32.ofNat uptime, state)
  | .inr .localState, state => some (state.2.state, state)
  | .inr .localSpeed, state => some (state.2.bestSpeed, state)
  | .inr (.report status), (cable, published) =>
    some ((), (cable, { published with report := some status }))

def runHousekeeping (halves : Halves) : Halves :=
  let (housekeeping, (cable, published)) :=
    halves.housekeeping.resume (answerHousekeeping halves.uptime) (halves.cable, halves.published)
  { halves with housekeeping, cable, published }

/-- Runs housekeeping and starts up to `rounds` more rounds for ticks that are due. A round that
took longer than its period is followed at once by the next. -/
def pollHousekeepingFor : (rounds : Nat) → Halves → Halves
  | 0, halves => halves.runHousekeeping
  | rounds + 1, halves =>
    let halves := halves.runHousekeeping
    match halves.housekeeping with
    | .ask _ _ => halves
    | .done (keeper, initiator) =>
      if halves.uptime < halves.nextHousekeeping then halves
      else
        pollHousekeepingFor rounds { halves with
          housekeeping := startRound keeper initiator
          nextHousekeeping := halves.nextHousekeeping + housekeepingPeriod }

def dueRounds (halves : Halves) : Nat :=
  (halves.uptime + housekeepingPeriod - halves.nextHousekeeping) / housekeepingPeriod

def pollHousekeeping (halves : Halves) : Halves := pollHousekeepingFor halves.dueRounds halves

def answerServing (uptime : Nat) (waited : Bool) :
    (request : StreamRequest ⊕ HandlerCall Service) → Cable × Peer →
      Option (Program.EitherReply StreamRequest.Reply HandlerCall.Reply request × (Cable × Peer))
  | .inl request, (cable, peer) =>
    (cable.answer .target uptime waited request).map fun (reply, cable) => (reply, (cable, peer))
  | .inr call, (cable, peer) =>
    let (output, peer) := Service.handle uptime call peer
    some (output, (cable, peer))

def pollServingFor : (polls : Nat) → Halves → Halves
  | 0, halves => halves
  | polls + 1, halves =>
    let (serving, (cable, peer)) :=
      halves.serving.resume (answerServing halves.uptime) (halves.cable, halves.peer)
    match serving with
    | .ask _ _ => { halves with serving, cable, peer }
    | .done (_, target) =>
      pollServingFor polls { halves with serving := startPoll target, cable, peer }

/-- Runs the server until it waits for a byte. Every poll that ends took a byte or ran out of
time, and a new one only runs out of time later, so the bytes at hand bound the polls. -/
def pollServing (halves : Halves) : Halves :=
  pollServingFor (halves.cable.toTarget.length + 3) halves

/-- Runs all tasks in turn until nothing has moved for two turns. -/
def settle : (turns quiet : Nat) → Halves → Halves
  | 0, _, halves => halves
  | turns + 1, quiet, halves =>
    let after := halves.pollScan.pollHousekeeping.pollServing
    if after.cable.activity = halves.cable.activity then
      if quiet = 0 then settle turns 1 after else after
    else settle turns 0 after

/-- More turns than the tasks can keep each other busy for. At least every other turn moves a byte
that was there before or that a round of housekeeping has brought about, and a round holds at most
three conversations of a few bytes each. -/
def turnLimit (halves : Halves) : Nat :=
  128 * (halves.dueRounds + 2) +
    4 * (halves.cable.toTarget.length + halves.cable.toInitiator.length)

inductive Event where
  | key (number : Nat) (down : Bool)
  | cable (plugged : Bool)
  | inject (half : Role) (bytes : List UInt8)

def apply (halves : Halves) : Event → Halves
  | .key number down => { halves with keys := halves.keys.set number down }
  | .cable plugged => { halves with cable := { halves.cable with plugged } }
  | .inject half bytes => { halves with cable := halves.cable.inject half bytes }

structure View where
  own : SharedState
  ownSpeed : UInt8
  peer : SharedState
  peerSpeed : UInt8
  deriving DecidableEq

def view (halves : Halves) : View :=
  ⟨halves.published.state, halves.published.bestSpeed, halves.peer.state, halves.peer.bestSpeed⟩

/-- An entry of the timeline: a view that differs from the one before, or a report on the link. -/
inductive Entry where
  | view (time : Nat) (view : View)
  | report (time : Nat) (status : LinkStatus)

/-- One millisecond: what happens from outside comes first. -/
def tick (halves : Halves) (events : List Event) : Halves :=
  let halves := events.foldl apply halves
  settle halves.turnLimit 0 halves

def entriesAt (time : Nat) (before : Option View) (halves : Halves) : List Entry :=
  (if before = some halves.view then [] else [.view time halves.view]) ++
    (halves.published.report.map (Entry.report time)).toList

/-- Runs `left` more milliseconds from `time` on. Events are given with their times. -/
def runFrom (events : List (Nat × Event)) :
    (left time : Nat) → Option View → Halves → List Entry × Halves
  | 0, _, _, halves => ([], halves)
  | left + 1, time, before, halves =>
    let now := (events.filter (·.1 == time)).map (·.2)
    let halves := halves.tick now
    let entries := entriesAt time before halves
    let (rest, last) := runFrom events left (time + 1) (some halves.view)
      { halves with
        uptime := halves.uptime + 1
        published := { halves.published with report := none } }
    (entries ++ rest, last)

/-- Runs both halves for a time and returns the timeline and how they end up. The first and the
last millisecond both count. -/
def run (config : LinkConfig) (uptime : Nat) (plugged : Bool) (duration : Nat)
    (events : List (Nat × Event)) : List Entry × Halves :=
  runFrom events (duration + 1) 0 none (start config uptime plugged)

end Halves
end SplitKeyboard.Firmware
