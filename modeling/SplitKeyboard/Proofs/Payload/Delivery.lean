import SplitKeyboard.Payload.Records
import SplitKeyboard.Proofs.Payload.RoundTrip
import SplitKeyboard.Proofs.RemoteCalls
import SplitKeyboard.Proofs.Target.Stream

/-!
A typed value on its way to the other half. It is written at the front of a request of zeros, and
these bytes are all that a handler there needs to have the same value again.
-/
namespace SplitKeyboard

open Bench (Rig ScriptedDevice)

variable {schema : Schema} {v : schema.Value} {bytes : List UInt8}

theorem decodePayload_written (sendable : schema.Sendable) (counted : schema.Counted v)
    (written : schema.Written v bytes)
    (small : bytes.length < UInt64.size) (rest : List UInt8) :
    decodePayload schema (bytes ++ rest) = .ok v := by
  rw [decodePayload, Schema.decode_written sendable counted written small]

theorem decodePayload_cut {part : List UInt8} (sendable : schema.Sendable)
    (counted : schema.Counted v) (written : schema.Written v bytes) (small : bytes.length < UInt64.size)
    (cut : part <+: bytes) (shorter : part ≠ bytes) :
    decodePayload schema part = .error .encoding := by
  rw [decodePayload, Schema.decode_cut sendable counted written small cut shorter]

namespace Initiator

variable {Handler : Type} {initiator : Initiator Handler} {now : Millis} {id : TransactionId}
  {entry : Descriptor Handler}

/-- A value that does not fit is refused. -/
theorem sendValue_large (found : initiator.table.descriptor? id = some entry)
    (written : schema.Written v bytes) (large : entry.requestSize < bytes.length) :
    ∃ after, initiator.sendValue now id schema v =
      .done (.error (.payloadTooLarge (entry.requestSize + 1) entry.requestSize), after) := by
  have room : (List.replicate entry.requestSize (0 : UInt8)).length = entry.requestSize :=
    List.length_replicate
  have full := encodePayload_full written (by rwa [room])
  rw [room] at full
  generalize encoded : encodePayload schema v (List.replicate entry.requestSize 0) = made at full
  obtain ⟨result, buffer⟩ := made
  cases full
  refine ⟨{ initiator with table := initiator.table.writeRequest entry buffer }, ?_⟩
  simp only [sendValue, found, encoded]

/-- A value that fits is sent as its bytes are, with zeros behind them. -/
theorem sendValue_fitting (found : initiator.table.descriptor? id = some entry)
    (written : schema.Written v bytes) (fits : bytes.length ≤ entry.requestSize) :
    initiator.sendValue now id schema v =
      (initiator.filled now id entry bytes).transaction now id := by
  have room : bytes.length ≤ (List.replicate entry.requestSize (0 : UInt8)).length := by
    rwa [List.length_replicate]
  have encoded := encodePayload_fits written room
  rw [List.drop_replicate] at encoded
  rw [filled_eq found]
  simp only [sendValue, found, encoded, zeroPadded]

/-- All that a value with success puts on the wire. -/
theorem sendValue_writes {σ : Type} {answer : SerialAnswer σ} {s : σ}
    (built : initiator.table.Built) (found : initiator.table.descriptor? id = some entry)
    (written : schema.Written v bytes)
    (fine : ((initiator.sendValue now id schema v).run answer s).1.1 = .ok ()) :
    bytes.length ≤ entry.requestSize ∧
      writes ((initiator.sendValue now id schema v).trace answer s) =
        allWrites id (bytes ++ List.replicate (entry.requestSize - bytes.length) 0) := by
  by_cases large : entry.requestSize < bytes.length
  · have refused : ∃ after, initiator.sendValue now id schema v = .done (_, after) :=
      sendValue_large found written large
    obtain ⟨after, refused⟩ := refused
    rw [refused] at fine
    cases fine
  · have fits := Nat.le_of_not_lt large
    have sends : initiator.Sends now id entry bytes := sendData_sends built found fits
    have same : initiator.sendValue now id schema v = initiator.sendData now id bytes :=
      (sendValue_fitting found written fits).trans sends.same.symm
    rw [same] at fine ⊢
    exact ⟨fits, (sends.wire answer s).2 fine⟩

end Initiator

/-- A target that is given an ID and its request serves it with one call of the handler, which sees
the request. -/
theorem Bench.Rig.watch_request {Handler τ : Type}
    (handle : HandlerCall Handler → τ → List UInt8 × τ) {rig : Rig Handler ScriptedDevice τ}
    {id : TransactionId} {entry : Descriptor Handler} {handler : Handler} {request : List UInt8}
    (built : rig.target.table.Built) (sound : rig.device.Sound rig.target.link.duplex)
    (found : rig.target.table.descriptor? id = some entry) (handled : entry.handler = some handler)
    (full : request.length = entry.requestSize) (incoming : rig.device.incoming = id :: request) :
    ∃ output, (rig.watch handle).1 = ⟨.ok (.served id), [⟨handler, request, output⟩]⟩ := by
  have queued : rig.device.incoming = id :: (request ++ []) := by rw [List.append_nil, incoming]
  have makes : rig.Makes handle _ := makes_complete built sound queued found full
  obtain ⟨device, watched, _⟩ := makes.watched
  rw [watched, Target.turn_complete handle rig.handlers found full]
  refine ⟨(rig.target.table.writeRequest entry request).replyOf entry, ?_⟩
  simp only [handled, Option.toList_some, List.map_cons, List.map_nil,
    built.requestOf_writeRequest found full]

/-- What becomes of a value with these bytes. -/
structure Travels (schema : Schema) (v : schema.Value) (bytes : List UInt8) : Prop where
  only : ∀ other, schema.Written v other → other = bytes
  /-- Into a buffer with room for them the bytes are written, and the rest of it stays. -/
  fits : ∀ buffer : List UInt8, bytes.length ≤ buffer.length →
    encodePayload schema v buffer = (.ok bytes.length, bytes ++ buffer.drop bytes.length)
  /-- Any other buffer is reported as too small by one byte. -/
  full : ∀ buffer : List UInt8, buffer.length < bytes.length →
    (encodePayload schema v buffer).1 = .error (.payloadTooLarge (buffer.length + 1) buffer.length)
  /-- Whatever is behind the bytes, they are read as the value. -/
  read : bytes.length < UInt64.size → ∀ rest, decodePayload schema (bytes ++ rest) = .ok v
  /-- A part of them is read as nothing. -/
  cut : bytes.length < UInt64.size → ∀ part, part <+: bytes → part ≠ bytes →
    decodePayload schema part = .error .encoding
  /-- When the value is sent with success, all that was written lets a target with a like entry call
  its handler once, and the handler reads the value in what it is given. -/
  delivered : ∀ {Handler Other σ τ : Type} (initiator : Initiator Handler) (now : Millis)
    (id : TransactionId) (entry : Descriptor Handler), initiator.table.Built →
    initiator.table.descriptor? id = some entry → ∀ (answer : SerialAnswer σ) (s : σ),
    let sending := initiator.sendValue now id schema v
    (sending.run answer s).1.1 = .ok () →
    ∀ (handle : HandlerCall Other → τ → List UInt8 × τ) (rig : Rig Other ScriptedDevice τ)
      (own : Descriptor Other) (handler : Other), rig.target.table.Built →
    rig.device.Sound rig.target.link.duplex → rig.target.table.descriptor? id = some own →
    own.requestSize = entry.requestSize → own.handler = some handler →
    rig.device.incoming = (writes (sending.trace answer s)).flatten →
    ∃ call, (rig.watch handle).1 = ⟨.ok (.served id), [call]⟩ ∧ call.handler = handler ∧
      decodePayload schema call.input = .ok v

theorem travels_of_written (sendable : schema.Sendable) (counted : schema.Counted v)
    (written : schema.Written v bytes) : Travels schema v bytes := by
  constructor
  case only => exact fun other => written.unique
  case fits => exact fun buffer => encodePayload_fits written
  case full => exact fun buffer => encodePayload_full written
  case read => exact decodePayload_written sendable counted written
  case cut => exact fun small part => decodePayload_cut sendable counted written small
  case delivered =>
    intro Handler Other σ τ initiator now id entry built found answer s sending fine handle rig own
      handler own_built sound own_found sizes handled incoming
    obtain ⟨fits, wire⟩ := Initiator.sendValue_writes built found written fine
    have small : bytes.length < UInt64.size := by
      have within := built.entry_le found
      have arena := built.laid.arena_lt
      unfold maxSize at arena
      omega
    have full : (bytes ++ List.replicate (entry.requestSize - bytes.length) 0).length =
        own.requestSize := by
      rw [List.length_append, List.length_replicate, sizes]
      omega
    rw [wire, flatten_allWrites] at incoming
    obtain ⟨output, watched⟩ := Rig.watch_request handle own_built sound own_found handled full incoming
    exact ⟨_, watched, rfl, decodePayload_written sendable counted written small _⟩

/-- What becomes of the values of a type that is sent field by field. -/
structure Carried (α : Type) [Payload α] : Prop where
  travels : ∀ a : α, ∃ bytes, (Payload.schema α).Written (Payload.toValue a) bytes ∧
    Travels (Payload.schema α) (Payload.toValue a) bytes
  back : ∀ (a : α) bytes, (Payload.schema α).Written (Payload.toValue a) bytes →
    bytes.length < UInt64.size → ∀ rest,
    (decodePayload (Payload.schema α) (bytes ++ rest)).map Payload.ofValue = .ok a

theorem carried_of_sendable {α : Type} [Payload α] (sendable : (Payload.schema α).Sendable)
    (solid : (Payload.schema α).Solid) : Carried α := by
  constructor
  case travels =>
    intro a
    obtain ⟨bytes, written⟩ := Schema.exists_written sendable (Payload.toValue a)
    have counted := Schema.counted_of_solid solid (Payload.toValue a)
    exact ⟨bytes, written, travels_of_written sendable counted written⟩
  case back =>
    intro a bytes written small rest
    have counted := Schema.counted_of_solid solid (Payload.toValue a)
    rw [decodePayload_written sendable counted written small, Except.map, Payload.ofValue_toValue]

/-- Every value that can be written at all arrives as it was sent, fixed arrays of any length and the
keyboard's own types among them. A length must fit its word, which only has to be asked of sequences
whose elements take no bytes. -/
theorem payload_travels :
    (∀ schema : Schema, schema.Sendable → ∀ v : schema.Value, schema.Counted v →
      ∃ bytes, schema.Written v bytes ∧ Travels schema v bytes) ∧
    (∀ schema : Schema, schema.Solid → ∀ v : schema.Value, schema.Counted v) ∧
    (∀ (element : Schema) count, element.Sendable → (element.vector count).Sendable) ∧
    Carried SharedState ∧ Carried Role ∧ Carried LinkConfig := by
  have six : 6 ≤ UInt32.size := by decide
  have two : 2 ≤ UInt32.size := by decide
  refine ⟨?_, fun schema => Schema.counted_of_solid, fun element count sendable => ?_, ?_, ?_, ?_⟩
  · intro schema sendable v counted
    obtain ⟨bytes, written⟩ := Schema.exists_written sendable v
    exact ⟨bytes, written, travels_of_written sendable counted written⟩
  · exact Schema.sendable_vector sendable count
  · exact carried_of_sendable ⟨trivial, trivial, trivial⟩ ⟨trivial, trivial, trivial⟩
  · exact carried_of_sendable two trivial
  · exact carried_of_sendable ⟨⟨six, two⟩, trivial, trivial, trivial⟩
      ⟨⟨trivial, trivial⟩, trivial, trivial, trivial⟩

/-- A pair of a number of two groups and a text, in a request with room to spare. -/
theorem payload_travels_pair :
    let schema : Schema := .pair (.unsigned .w32) .text
    let table (handler : Option Unit) : Table Unit :=
      [.register 1 8 0 handler].foldl Table.edit (.empty 2 8)
    let answer : SerialAnswer Unit := fun request _ =>
      match request with
      | .write data _ => (some data.length, ())
      | .read _ _ => (⟨[6], some 1⟩, ())
      | .skip count _ => (some count, ())
      | .clear => ((), ())
    let sending := (Initiator.ofConfig {} (table none)).sendValue 0 1 schema (300#32, "on")
    let rig : Rig Unit ScriptedDevice Unit :=
      ⟨.ofConfig {} (table (some ())),
        { incoming := (writes (sending.trace answer ())).flatten, echo := true }, ()⟩
    (sending.run answer ()).1.1 = .ok () ∧
      rig.device.incoming = [1, 172, 2, 2, 111, 110, 0, 0, 0] ∧
      ∃ call, (rig.watch fun call _ => (call.output, ())).1 = ⟨.ok (.served 1), [call]⟩ ∧
        decodePayload schema call.input = .ok (300#32, "on") := by
  intro schema table answer sending rig
  have nothing : (Table.empty 2 8 : Table Unit).Built := .empty 2 (by decide)
  have built (handler : Option Unit) : (table handler).Built :=
    (Table.directory_edits nothing rfl rfl rfl [.register 1 8 0 handler]).1
  have found : (Initiator.ofConfig {} (table none)).table.descriptor? 1 =
      some ⟨1, 0, 8, 0, .idle, none⟩ := rfl
  have number : Varint.Spells 300 [172, 2] :=
    ⟨[172], 2, rfl, by simp, by simp, by simp, rfl⟩
  have length : Varint.Spells 2 [2] := ⟨[], 2, rfl, by simp, by simp, by simp, rfl⟩
  have written : schema.Written (300#32, "on") [172, 2, 2, 111, 110] :=
    ⟨[172, 2], [2, 111, 110], number, ⟨[2], length, rfl⟩, rfl⟩
  have fine : (sending.run answer ()).1.1 = .ok () := by
    have same : sending = _ := Initiator.sendValue_fitting found written (by decide)
    rw [same]
    rfl
  have wire : rig.device.incoming = [1, 172, 2, 2, 111, 110, 0, 0, 0] :=
    congrArg List.flatten (Initiator.sendValue_writes (built none) found written fine).2
  obtain ⟨bytes, _, travels⟩ := payload_travels.1 schema ⟨trivial, trivial⟩ (300#32, "on")
    ⟨trivial, trivial⟩
  obtain ⟨call, watched, _, reads⟩ := travels.delivered (Initiator.ofConfig {} (table none)) 0 1
    _ (built none) found answer () fine (fun call _ => (call.output, ())) rig
    ⟨1, 0, 8, 0, .idle, some ()⟩ () (built (some ())) ⟨rfl, rfl, rfl⟩ rfl rfl rfl rfl
  exact ⟨fine, wire, call, watched, reads⟩

end SplitKeyboard
