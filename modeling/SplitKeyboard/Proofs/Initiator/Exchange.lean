import SplitKeyboard.Proofs.Initiator.Calls
import SplitKeyboard.Proofs.Messages

/-!
A transaction that goes well, seen from the initiator. If the other half does its part, the calls of
a transaction are what its messages mean to the near end, and the reply ends up in the table.
-/
namespace SplitKeyboard

section Conversation

variable {link : Link} {id : TransactionId} {request reply : List UInt8}

namespace Link

theorem shakeHands_plays (link : Link) (id : TransactionId) :
    Program.Leads (link.shakeHands id)
      (link.plays .near [⟨.near, [id]⟩, ⟨.far, [handshakeToken id]⟩]) (.done (.ok ())) := by
  have sent := link.send_plays .near (List.cons_ne_nil id [])
  have received := link.receive_plays .near .far (by decide) [handshakeToken id]
  have split := link.plays_append .near [⟨.near, [id]⟩] [⟨.far, [handshakeToken id]⟩]
  rw [List.singleton_append] at split
  rw [split]
  apply sent.seq
  rw [← List.append_nil (link.plays .near [⟨.far, [handshakeToken id]⟩])]
  apply received.seq
  simp only [List.headD_cons, isHandshakeReply_iff.mpr, if_true]
  exact .stay _

theorem sendRequest_plays (link : Link) (request : List UInt8) :
    Program.Leads (link.sendRequest request) (link.plays .near (Message.payload .near request))
      (.done (.ok ())) := by
  unfold sendRequest Message.payload
  split
  · exact .stay _
  · next some_request =>
    rw [← List.append_nil (link.plays .near [⟨.near, request⟩])]
    exact (link.send_plays .near some_request).seq (.stay _)

theorem receiveReply_plays (link : Link) (reply : List UInt8) :
    Program.Leads (link.receiveReply reply.length)
      (link.plays .near (Message.payload .far reply)) (.done (.ok (), reply)) := by
  unfold receiveReply Message.payload
  by_cases nothing : reply = []
  · rw [if_pos (List.length_eq_zero_iff.mpr nothing), if_pos nothing, nothing]
    exact .stay _
  · rw [if_neg (nothing ∘ List.length_eq_zero_iff.mp), if_neg nothing,
      ← List.append_nil (link.plays .near [⟨.far, reply⟩])]
    exact (link.receive_plays .near .far (by decide) reply).seq (.stay _)

theorem converse_plays (link : Link) (id : TransactionId) (request reply : List UInt8) :
    Program.Leads (link.converse id request reply.length)
      (link.plays .near (Message.ofTransaction id request reply))
      (.done ⟨.ok (), true, reply⟩) := by
  have split := link.plays_append .near [⟨.near, [id]⟩, ⟨.far, [handshakeToken id]⟩]
    (Message.payload .near request ++ Message.payload .far reply)
  rw [List.cons_append, List.singleton_append, plays_append] at split
  rw [Message.ofTransaction, split]
  apply (link.shakeHands_plays id).seq
  apply (link.sendRequest_plays request).seq
  rw [← List.append_nil (link.plays .near (Message.payload .far reply))]
  exact (link.receiveReply_plays reply).seq (.stay _)

end Link
end Conversation

namespace Initiator

variable {Handler : Type} {initiator : Initiator Handler} {now : Millis} {id : TransactionId}
  {entry : Descriptor Handler} {reply : List UInt8}

/-- The initiator after a transaction that brought this reply. -/
def afterReply (initiator : Initiator Handler) (now : Millis) (entry : Descriptor Handler)
    (reply : List UInt8) : Initiator Handler :=
  (initiator.learn now entry ⟨.ok (), true, reply⟩).book (.ok ())

theorem transaction_plays (now : Millis) (found : initiator.table.descriptor? id = some entry)
    (ready : initiator.tooSoon now = false) (full : reply.length = entry.replySize) :
    Program.Leads (initiator.transaction now id)
      (initiator.link.plays .near
        (Message.ofTransaction id (initiator.table.requestOf entry) reply))
      (.done (.ok (), initiator.afterReply now entry reply)) := by
  have conversed := initiator.link.converse_plays id (initiator.table.requestOf entry) reply
  rw [full] at conversed
  unfold transaction
  rw [permit_eq_ok_iff.mpr ⟨found, ready⟩, ← List.append_nil (initiator.link.plays _ _)]
  exact conversed.seq (.stay _)

@[simp] theorem table_afterReply :
    (initiator.afterReply now entry reply).table = initiator.table.writeReply entry reply := rfl

@[simp] theorem link_afterReply :
    (initiator.afterReply now entry reply).link = initiator.link := rfl

/-- A reply of the right size is all that the table then holds of the reply. -/
theorem reply?_afterReply (built : initiator.table.Built)
    (found : initiator.table.descriptor? id = some entry) (full : reply.length = entry.replySize) :
    (initiator.afterReply now entry reply).table.reply? id = some reply := by
  rw [table_afterReply]
  exact built.reply?_writeReply found full

theorem request?_afterReply (found : initiator.table.descriptor? id = some entry) :
    (initiator.afterReply now entry reply).table.request? id =
      some (initiator.table.requestOf entry) := by
  rw [table_afterReply]
  exact Table.request?_writeReply found reply

end Initiator
end SplitKeyboard
