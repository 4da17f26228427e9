import SplitKeyboard.Bench.ScriptedDevice
import SplitKeyboard.Proofs.Messages

/-!
Scripted devices that neither fail nor run out. Such a device answers as the messages of an exchange
say, when what the other end sends in them is waiting in it.
-/
namespace SplitKeyboard

open Bench (WireEnd)

namespace Bench.ScriptedDevice

/-- A device that takes and delivers everything, and echoes just on a half-duplex line. -/
structure Sound (duplex : Duplex) (device : ScriptedDevice) : Prop where
  unlimited : device.writeLimit = none
  faultless : device.fault = false
  echoes : device.echo = decide (duplex = .half)

section Sound

variable {device : ScriptedDevice} {duplex : Duplex} {data rest : List UInt8}

theorem Sound.write (sound : device.Sound duplex) (data : List UInt8) (timeout : UInt32) :
    ∃ after, answer (.write data timeout) device = (some data.length, after) ∧
      after.Sound duplex ∧ after.sent = device.sent ++ data ∧
      after.incoming = (if duplex = .half then data else []) ++ device.incoming := by
  obtain ⟨unlimited, faultless, echoes⟩ := sound
  refine ⟨{ device with
    writes := device.writes + 1
    sent := device.sent ++ data
    incoming := (if duplex = .half then data else []) ++ device.incoming }, ?_,
    ⟨unlimited, faultless, echoes⟩, rfl, rfl⟩
  by_cases half : duplex = .half
  · simp [answer, accept, accepted, unlimited, faultless, echoes, half]
  · simp [answer, accept, accepted, unlimited, faultless, echoes, half]

theorem Sound.skip (sound : device.Sound duplex) (incoming : device.incoming = data ++ rest)
    (timeout : UInt32) :
    ∃ after, answer (.skip data.length timeout) device = (some data.length, after) ∧
      after.Sound duplex ∧ after.sent = device.sent ∧ after.incoming = rest := by
  obtain ⟨unlimited, faultless, echoes⟩ := sound
  refine ⟨{ device with skips := device.skips + 1, incoming := rest }, ?_,
    ⟨unlimited, faultless, echoes⟩, rfl, rfl⟩
  simp [answer, faultless, incoming]

theorem Sound.read (sound : device.Sound duplex) (incoming : device.incoming = data ++ rest)
    (timeout : UInt32) :
    ∃ after, answer (.read data.length timeout) device = (⟨data, some data.length⟩, after) ∧
      after.Sound duplex ∧ after.sent = device.sent ∧ after.incoming = rest := by
  obtain ⟨unlimited, faultless, echoes⟩ := sound
  refine ⟨{ device with reads := device.reads + 1, incoming := rest }, ?_,
    ⟨unlimited, faultless, echoes⟩, rfl, rfl⟩
  simp [answer, faultless, incoming]

/-- A read takes what there is if this is too little. -/
theorem Sound.read_short {count : Nat} (sound : device.Sound duplex)
    (few : device.incoming.length < count) (timeout : UInt32) :
    ∃ after, answer (.read count timeout) device =
        (⟨device.incoming, some device.incoming.length⟩, after) ∧
      after.Sound duplex ∧ after.sent = device.sent ∧ after.incoming = [] := by
  obtain ⟨unlimited, faultless, echoes⟩ := sound
  refine ⟨{ device with reads := device.reads + 1, incoming := [] }, ?_,
    ⟨unlimited, faultless, echoes⟩, rfl, rfl⟩
  simp [answer, faultless, List.take_of_length_le (Nat.le_of_lt few),
    List.drop_of_length_le (Nat.le_of_lt few)]

theorem Sound.clear (sound : device.Sound duplex) :
    (answer .clear device).2.Sound duplex ∧ (answer .clear device).2.sent = device.sent ∧
      (answer .clear device).2.incoming = [] :=
  ⟨⟨sound.unlimited, sound.faultless, sound.echoes⟩, rfl, rfl⟩

end Sound

variable {device : ScriptedDevice} {link : Link}

/-- A message that is written, or is the next to come, makes a sound device answer as it should. -/
theorem answers_message {side : WireEnd} {message : Message} {rest : List UInt8}
    (sound : device.Sound link.duplex)
    (incoming : device.incoming = Message.bytesFrom side.other [message] ++ rest) :
    ∃ after : ScriptedDevice, Program.Answers answer (link.plays side [message]) device after ∧
      after.Sound link.duplex ∧ after.sent = device.sent ++ Message.bytesFrom side [message] ∧
      after.incoming = rest := by
  obtain ⟨sender, data⟩ := message
  by_cases own : sender = side
  · have others : sender ≠ side.other := by
      rw [own]
      exact side.other_ne.symm
    rw [show Message.bytesFrom side.other [⟨sender, data⟩] = [] by simp [Message.bytesFrom, others],
      List.nil_append] at incoming
    rw [show Message.bytesFrom side [⟨sender, data⟩] = data by simp [Message.bytesFrom, own]]
    obtain ⟨wrote, writes, still, sent, echo⟩ := sound.write data link.timeout
    by_cases half : link.duplex = .half
    · rw [if_pos half, incoming] at echo
      obtain ⟨after, skips, ends, kept, left⟩ := still.skip echo link.timeout
      refine ⟨after, ?_, ends, kept.trans sent, left⟩
      simp [Link.plays, Message.view, Message.acts, own, half, Act.exchange, Program.Answers, writes,
        skips]
    · rw [if_neg half, List.nil_append, incoming] at echo
      refine ⟨wrote, ?_, still, sent, echo⟩
      simp [Link.plays, Message.view, Message.acts, own, half, Act.exchange, Program.Answers, writes]
  · have others : sender = side.other := WireEnd.eq_other own
    rw [show Message.bytesFrom side.other [⟨sender, data⟩] = data by
      simp [Message.bytesFrom, others]] at incoming
    rw [show Message.bytesFrom side [⟨sender, data⟩] = [] by simp [Message.bytesFrom, own],
      List.append_nil]
    obtain ⟨after, reads, ends, kept, left⟩ := sound.read incoming link.timeout
    refine ⟨after, ?_, ends, kept, left⟩
    simp [Link.plays, Message.view, Message.acts, own, Act.exchange, Program.Answers, reads]

theorem answers_plays (link : Link) (side : WireEnd) (messages : List Message) {rest : List UInt8}
    (sound : device.Sound link.duplex)
    (incoming : device.incoming = Message.bytesFrom side.other messages ++ rest) :
    ∃ after : ScriptedDevice, Program.Answers answer (link.plays side messages) device after ∧
      after.Sound link.duplex ∧ after.sent = device.sent ++ Message.bytesFrom side messages ∧
      after.incoming = rest := by
  induction messages generalizing device with
  | nil => exact ⟨device, rfl, sound, (List.append_nil _).symm, incoming⟩
  | cons message messages ih =>
    have split := Message.bytesFrom_append side.other [message] messages
    rw [List.singleton_append] at split
    rw [split, List.append_assoc] at incoming
    obtain ⟨middle, first, still, sent, left⟩ := answers_message sound incoming
    obtain ⟨after, others, ends, more, none_left⟩ := ih still left
    refine ⟨after, ?_, ends, ?_, none_left⟩
    · have calls := link.plays_append side [message] messages
      rw [List.singleton_append] at calls
      rw [calls]
      exact first.append others
    · rw [more, sent, List.append_assoc, ← Message.bytesFrom_append, List.singleton_append]

end Bench.ScriptedDevice
end SplitKeyboard
