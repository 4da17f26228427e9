/-!
The handshake that opens a transaction. The initiator sends one byte, the ID, and the target
answers with one byte that only this ID produces.
-/
namespace SplitKeyboard

/-- Names a transaction by the single byte that opens it on the line. -/
abbrev TransactionId := UInt8

def handshakeMask : UInt8 := 7

/-- The byte with which the target accepts `id`. It is never the ID itself, so an echo of the ID
cannot pass for an answer. -/
def handshakeToken (id : TransactionId) : UInt8 := id ^^^ handshakeMask

def isHandshakeReply (id : TransactionId) (byte : UInt8) : Bool := byte == handshakeToken id

theorem isHandshakeReply_iff {id : TransactionId} {byte : UInt8} :
    isHandshakeReply id byte = true ↔ byte = handshakeToken id := by
  simp [isHandshakeReply]

end SplitKeyboard
