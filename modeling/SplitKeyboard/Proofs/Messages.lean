import SplitKeyboard.Bench.Wire
import SplitKeyboard.Handshake
import SplitKeyboard.Link
import SplitKeyboard.Proofs.Agenda

/-!
What passes between the halves in a transaction that goes well. It is one list of messages, and each
half sees it from its own end: its own messages as writes, whose echo it drops on a half-duplex
line, and the others as reads.
-/
namespace SplitKeyboard

open Bench (WireEnd)

/-- Bytes that are written at once, and by whom. -/
structure Message where
  sender : WireEnd
  data : List UInt8
  deriving DecidableEq

namespace Message

/-- A payload as a message. An empty one is not sent. -/
def payload (sender : WireEnd) (data : List UInt8) : List Message :=
  if data = [] then [] else [⟨sender, data⟩]

def ofTransaction (id : TransactionId) (request reply : List UInt8) : List Message :=
  ⟨.near, [id]⟩ :: ⟨.far, [handshakeToken id]⟩ :: (payload .near request ++ payload .far reply)

def bytesFrom (side : WireEnd) (messages : List Message) : List UInt8 :=
  (messages.filter fun message => message.sender = side).flatMap data

theorem bytesFrom_append (side : WireEnd) (first last : List Message) :
    bytesFrom side (first ++ last) = bytesFrom side first ++ bytesFrom side last := by
  simp only [bytesFrom, List.filter_append, List.flatMap_append]

@[simp] theorem bytesFrom_payload_same (side : WireEnd) (data : List UInt8) :
    bytesFrom side (payload side data) = data := by
  by_cases empty : data = []
  · simp [bytesFrom, payload, empty]
  · simp [bytesFrom, payload, empty]

@[simp] theorem bytesFrom_payload_other {side sender : WireEnd} (apart : sender ≠ side)
    (data : List UInt8) : bytesFrom side (payload sender data) = [] := by
  by_cases empty : data = []
  · simp [bytesFrom, payload, empty]
  · simp [bytesFrom, payload, empty, apart]

theorem bytesFrom_near_ofTransaction (id : TransactionId) (request reply : List UInt8) :
    bytesFrom .near (ofTransaction id request reply) = id :: request := by
  have rest := bytesFrom_append .near (payload .near request) (payload .far reply)
  rw [bytesFrom_payload_same, bytesFrom_payload_other (by decide), List.append_nil] at rest
  simpa [ofTransaction, bytesFrom] using rest

theorem bytesFrom_far_ofTransaction (id : TransactionId) (request reply : List UInt8) :
    bytesFrom .far (ofTransaction id request reply) = handshakeToken id :: reply := by
  have rest := bytesFrom_append .far (payload .near request) (payload .far reply)
  rw [bytesFrom_payload_same, bytesFrom_payload_other (by decide), List.nil_append] at rest
  simpa [ofTransaction, bytesFrom] using rest

end Message

inductive Act where
  | wrote (data : List UInt8)
  | dropped (count : Nat)
  | took (data : List UInt8)
  deriving DecidableEq

/-- The call and its reply, when it may wait this long. -/
def Act.exchange (timeout : UInt32) : Act → SerialExchange
  | .wrote data => ⟨.write data timeout, some data.length⟩
  | .dropped count => ⟨.skip count timeout, some count⟩
  | .took data => ⟨.read data.length timeout, ⟨data, some data.length⟩⟩

/-- What a message is to an end. -/
def Message.acts (duplex : Duplex) (side : WireEnd) (message : Message) : List Act :=
  if message.sender = side then
    .wrote message.data :: if duplex = .half then [.dropped message.data.length] else []
  else [.took message.data]

def Message.view (duplex : Duplex) (side : WireEnd) (messages : List Message) : List Act :=
  messages.flatMap (acts duplex side)

@[simp] theorem Message.view_append (duplex : Duplex) (side : WireEnd) (first last : List Message) :
    view duplex side (first ++ last) = view duplex side first ++ view duplex side last :=
  List.flatMap_append

namespace Link

/-- The calls that messages mean to an end of the link, if all goes well. -/
def plays (link : Link) (side : WireEnd) (messages : List Message) : List SerialExchange :=
  (Message.view link.duplex side messages).map (Act.exchange link.timeout)

@[simp] theorem plays_append (link : Link) (side : WireEnd) (first last : List Message) :
    link.plays side (first ++ last) = link.plays side first ++ link.plays side last := by
  simp only [plays, Message.view_append, List.map_append]

theorem send_plays (link : Link) (side : WireEnd) {data : List UInt8} (some_data : data ≠ []) :
    Program.Leads (link.send data) (link.plays side [⟨side, data⟩]) (.done (.ok ())) := by
  unfold send
  by_cases half : link.duplex = .half
  · have calls : link.plays side [⟨side, data⟩] = [⟨.write data link.timeout, some data.length⟩,
        ⟨.skip data.length link.timeout, some data.length⟩] := by
      simp [plays, Message.view, Message.acts, half, Act.exchange]
    rw [calls]
    apply Program.Leads.ask
    simp only [if_true, if_pos (And.intro half some_data), dropEcho]
    apply Program.Leads.ask
    simp only [if_true]
    exact .stay _
  · have calls : link.plays side [⟨side, data⟩] = [⟨.write data link.timeout, some data.length⟩] := by
      simp [plays, Message.view, Message.acts, half, Act.exchange]
    rw [calls]
    apply Program.Leads.ask
    simp only [if_true, if_neg (fun both : link.duplex = .half ∧ data ≠ [] => half both.1)]
    exact .stay _

theorem receive_plays (link : Link) (side sender : WireEnd) (apart : sender ≠ side)
    (data : List UInt8) :
    Program.Leads (link.receive data.length) (link.plays side [⟨sender, data⟩])
      (.done ⟨data, .ok ()⟩) := by
  have calls : link.plays side [⟨sender, data⟩] =
      [⟨.read data.length link.timeout, ⟨data, some data.length⟩⟩] := by
    simp [plays, Message.view, Message.acts, apart, Act.exchange]
  rw [calls]
  apply Program.Leads.ask
  simp only [if_true]
  exact .stay _

end Link
end SplitKeyboard
