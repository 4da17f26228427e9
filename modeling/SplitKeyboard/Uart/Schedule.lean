import SplitKeyboard.Uart.Stream

/-!
A byte stream whose input arrives on a schedule. Time passes only while a caller waits: it jumps to
the moment at which something arrives, or to the deadline if that is earlier. What arrives exactly
at the deadline is still in time.
-/
namespace SplitKeyboard.Uart

inductive Arrival where
  | bytes (bytes : List UInt8)
  | fault
  | endOfInput
  /-- Asking whether there is something to read fails until a read has passed over this. -/
  | readyFault
  deriving DecidableEq

inductive Acceptance where
  | all
  | atMost (count : Nat)
  | fault
  /-- Takes nothing, ever: the write waits until its deadline. -/
  | block
  deriving DecidableEq

inductive StreamCall where
  | read (asked got : Nat)
  | readFault (asked : Nat)
  | readEnd (asked : Nat)
  | write (asked accepted : Nat)
  | writeFault (asked : Nat)
  deriving DecidableEq

structure Schedule where
  now : Nat := 0
  leftover : List UInt8 := []
  /-- What is still to come, each with the earliest time at which it does. -/
  arrivals : List (Nat × Arrival)
  acceptances : List Acceptance
  sent : List UInt8 := []
  calls : List StreamCall := []
  deriving DecidableEq

namespace Schedule

def note (stream : Schedule) (call : StreamCall) : Schedule :=
  { stream with calls := call :: stream.calls }

def readFrom (stream : Schedule) (bytes : List UInt8) (count : Nat) : StreamRead × Schedule :=
  let taken := bytes.take count
  (.bytes taken, { stream with leftover := bytes.drop count }.note (.read count taken.length))

/-- Lets time pass until something arrives, but not beyond the deadline; whether it arrived. -/
def await (stream : Schedule) (time deadline : Nat) : Bool × Schedule :=
  if time ≤ stream.now then (true, stream)
  else if time ≤ deadline then (true, { stream with now := time })
  else (false, { stream with now := max stream.now deadline })

/-- Reads the next of the arrivals in a list. One that only concerns readiness is passed over. -/
def readNext (stream : Schedule) (count deadline : Nat) :
    List (Nat × Arrival) → StreamRead × Schedule
  | [] => (.timedOut, { stream with now := max stream.now deadline, arrivals := [] })
  | (time, arrival) :: rest =>
    match stream.await time deadline with
    | (false, stream) => (.timedOut, { stream with arrivals := (time, arrival) :: rest })
    | (true, stream) =>
      let after := { stream with arrivals := rest }
      match arrival with
      | .bytes bytes => after.readFrom bytes count
      | .fault => (.fault, after.note (.readFault count))
      | .endOfInput => (.bytes [], after.note (.readEnd count))
      | .readyFault => readNext stream count deadline rest

/-- One stream read: leftover bytes first, then whatever arrives. -/
def read (stream : Schedule) (count deadline : Nat) : StreamRead × Schedule :=
  if stream.leftover = [] then stream.readNext count deadline stream.arrivals
  else stream.readFrom stream.leftover count

def accept (stream : Schedule) (data : List UInt8) (count : Nat) : Schedule :=
  let taken := data.take count
  { stream with sent := stream.sent ++ taken }.note (.write data.length taken.length)

/-- One stream write against a list of acceptances. A stream that takes nothing is asked again at
once. -/
def writeNext (stream : Schedule) (data : List UInt8) (deadline : Nat) :
    List Acceptance → StreamWrite × Schedule
  | [] =>
    let after := { stream with acceptances := [] }.accept data data.length
    if more : 0 < data.length then (.accepted data.length more, after) else (.timedOut, after)
  | .all :: rest =>
    let after := { stream with acceptances := rest }.accept data data.length
    if more : 0 < data.length then (.accepted data.length more, after) else (.timedOut, after)
  | .atMost count :: rest =>
    let after := { stream with acceptances := rest }.accept data count
    if more : 0 < (data.take count).length then (.accepted _ more, after)
    else writeNext after data deadline rest
  | .fault :: rest =>
    (.fault, { stream with acceptances := rest }.note (.writeFault data.length))
  | .block :: rest =>
    (.timedOut, { stream with acceptances := rest, now := max stream.now deadline })

/-- Reads and forgets, in pieces, as long as something is there. It stops at a fault. -/
def drainArrivals (stream : Schedule) : List (Nat × Arrival) → Schedule
  | [] => { stream with arrivals := [] }
  | (time, arrival) :: rest =>
    if stream.now < time then { stream with arrivals := (time, arrival) :: rest }
    else
      match arrival with
      | .bytes bytes => drainArrivals (drainBytes stream bytes) rest
      | .endOfInput => drainArrivals (stream.note (.readEnd drainChunk)) rest
      | .fault => { stream with arrivals := rest }.note (.readFault drainChunk)
      | .readyFault => { stream with arrivals := (time, arrival) :: rest }
where
  drainBytes (stream : Schedule) (bytes : List UInt8) : Schedule :=
    let stream := stream.note (.read drainChunk (min bytes.length drainChunk))
    if bytes.length ≤ drainChunk then stream else drainBytes stream (bytes.drop drainChunk)
  termination_by bytes.length
  decreasing_by
    have : 0 < drainChunk := by decide
    simp only [List.length_drop]
    omega

def drain (stream : Schedule) : Schedule :=
  let leftover := stream.leftover
  let stream := { stream with leftover := [] }
  (if leftover = [] then stream else drainArrivals.drainBytes stream leftover).drainArrivals
    stream.arrivals

def answer (request : StreamRequest) (stream : Schedule) : request.Reply × Schedule :=
  match request with
  | .uptime => (stream.now, stream)
  | .write data deadline => stream.writeNext data deadline stream.acceptances
  | .read count deadline => stream.read count deadline
  | .drain => ((), stream.drain)

def call (stream : Schedule) (request : SerialRequest) : request.Reply × Schedule :=
  (serve request).run answer stream

def wait (stream : Schedule) (ms : Nat) : Schedule := { stream with now := stream.now + ms }

end Schedule
end SplitKeyboard.Uart
