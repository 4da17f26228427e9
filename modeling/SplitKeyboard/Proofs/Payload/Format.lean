import Mathlib.Data.List.Basic
import SplitKeyboard.Proofs.Payload.Varint
import SplitKeyboard.RemoteCall

/-!
The payload format, said without a writer or a reader: which bytes a value of a schema is written as.
A value that can be sent is written in exactly one way. The writer writes these bytes if they fit into
the buffer, and else reports that they do not.
-/
namespace SplitKeyboard

theorem ofBitVec_eq_ofNat (v : BitVec 8) : UInt8.ofBitVec v = UInt8.ofNat v.toNat := by
  apply UInt8.toNat_inj.mp
  simp

/-- One character takes as many bytes as its code needs. -/
theorem length_singleton_toUTF8 (c : Char) :
    (String.singleton c).toUTF8.data.toList.length = c.utf8Size := by
  have size : (String.singleton c).utf8ByteSize = c.utf8Size := by simp
  exact size

namespace Schema

/-- The bytes that a value is written as. Single bytes stand for themselves, wider numbers are
spelled in groups of seven bits, and whatever has a length has it in front. -/
def Written : (schema : Schema) → schema.Value → List UInt8 → Prop
  | .unsigned width, v, bytes =>
    if width = .w8 then bytes = [UInt8.ofNat v.toNat] else Varint.Spells v.toNat bytes
  | .signed width, v, bytes =>
    if width = .w8 then bytes = [UInt8.ofNat v.toNat]
    else Varint.Spells (Varint.zigzag v.toInt) bytes
  | .boolean, v, bytes => bytes = [if v then 1 else 0]
  | .text, v, bytes =>
    ∃ length, Varint.Spells v.utf8ByteSize length ∧ bytes = length ++ v.toUTF8.data.toList
  | .character, v, bytes =>
    ∃ length, Varint.Spells v.utf8Size length ∧
      bytes = length ++ (String.singleton v).toUTF8.data.toList
  | .sequence element, values, bytes =>
    ∃ length parts, Varint.Spells values.length length ∧
      List.Forall₂ element.Written values parts ∧ bytes = length ++ parts.flatten
  | .optional _, none, bytes => bytes = [0]
  | .optional element, some v, bytes => ∃ content, element.Written v content ∧ bytes = 1 :: content
  | .nothing, _, bytes => bytes = []
  | .pair first second, (v, w), bytes =>
    ∃ front back, first.Written v front ∧ second.Written w back ∧ bytes = front ++ back
  | .choice _, v, bytes => Varint.Spells v.val bytes
  | .stream _, _, _ => False

/-- Every value can be written, because it has no sequence whose length is not known, and read back,
because the number of a choice fits its word. -/
def Sendable : Schema → Prop
  | .sequence element | .optional element => element.Sendable
  | .pair first second => first.Sendable ∧ second.Sendable
  | .choice count => count ≤ UInt32.size
  | .stream _ => False
  | _ => True

/-- Its values take no bytes. -/
def Hollow : Schema → Prop
  | .nothing => True
  | .pair first second => first.Hollow ∧ second.Hollow
  | _ => False

/-- The elements of all its sequences take bytes. -/
def Solid : Schema → Prop
  | .sequence element => ¬ element.Hollow ∧ element.Solid
  | .optional element => element.Solid
  | .pair first second => first.Solid ∧ second.Solid
  | _ => True

/-- Elements that take no bytes are no more than a length can tell. It tells the number of any others
that there is room for. -/
def Counted : (schema : Schema) → schema.Value → Prop
  | .sequence element, values =>
    (element.Hollow → values.length < UInt64.size) ∧ ∀ v ∈ values, element.Counted v
  | .optional element, v => ∀ value ∈ v, element.Counted value
  | .pair first second, (v, w) => first.Counted v ∧ second.Counted w
  | _, _ => True

variable {schema element : Schema}

theorem sendable_array (sendable : element.Sendable) (extra : Nat) :
    (array element extra).Sendable := by
  induction extra with
  | zero => exact sendable
  | succ extra ih => exact ⟨sendable, ih⟩

theorem sendable_vector (sendable : element.Sendable) (count : Nat) :
    (vector element count).Sendable := by
  cases count with
  | zero => exact trivial
  | succ extra => exact sendable_array sendable extra

/-- Only elements that take no bytes have to be counted. -/
theorem counted_of_solid (solid : schema.Solid) (v : schema.Value) : schema.Counted v := by
  induction schema with
  | sequence element ih => exact ⟨fun hollow => absurd hollow solid.1, fun v _ => ih solid.2 v⟩
  | optional element ih => exact fun value _ => ih solid value
  | pair first second ih_first ih_second =>
    exact ⟨ih_first solid.1 v.1, ih_second solid.2 v.2⟩
  | unsigned | signed | boolean | text | character | nothing | choice | stream => exact trivial

theorem exists_written (sendable : schema.Sendable) (v : schema.Value) :
    ∃ bytes, schema.Written v bytes := by
  induction schema with
  | unsigned width =>
    cases width with
    | w8 => exact ⟨_, rfl⟩
    | _ => exact ⟨_, Varint.spells_encode _⟩
  | signed width =>
    cases width with
    | w8 => exact ⟨_, rfl⟩
    | _ => exact ⟨_, Varint.spells_encode _⟩
  | boolean => exact ⟨_, rfl⟩
  | text => exact ⟨_, _, Varint.spells_encode _, rfl⟩
  | character => exact ⟨_, _, Varint.spells_encode _, rfl⟩
  | sequence element ih =>
    have parts : ∃ parts, List.Forall₂ element.Written v parts := by
      induction v with
      | nil => exact ⟨[], .nil⟩
      | cons value values inner =>
        obtain ⟨part, written⟩ := ih sendable value
        obtain ⟨parts, all⟩ := inner
        exact ⟨part :: parts, .cons written all⟩
    obtain ⟨parts, all⟩ := parts
    exact ⟨_, _, parts, Varint.spells_encode _, all, rfl⟩
  | optional element ih =>
    cases v with
    | none => exact ⟨_, rfl⟩
    | some value =>
      obtain ⟨content, written⟩ := ih sendable value
      exact ⟨_, content, written, rfl⟩
  | nothing => exact ⟨_, rfl⟩
  | pair first second ih_first ih_second =>
    obtain ⟨v, w⟩ := v
    obtain ⟨front, written_front⟩ := ih_first sendable.1 v
    obtain ⟨back, written_back⟩ := ih_second sendable.2 w
    exact ⟨_, front, back, written_front, written_back, rfl⟩
  | choice count => exact ⟨_, Varint.spells_encode _⟩
  | stream element ih => exact sendable.elim

/-- The items of a value are its bytes, in pieces. -/
theorem Written.items {v : schema.Value} {bytes : List UInt8} (written : schema.Written v bytes) :
    ∃ pieces : List (List UInt8), schema.items v = pieces.map .whole ∧ pieces.flatten = bytes := by
  induction schema generalizing bytes with
  | unsigned width =>
    cases width with
    | w8 =>
      cases written
      exact ⟨[_], congrArg (fun byte => [PayloadItem.whole [byte]]) (ofBitVec_eq_ofNat v), rfl⟩
    | _ => exact ⟨[_], rfl, by simpa using (Varint.eq_encode_of_spells written).symm⟩
  | signed width =>
    cases width with
    | w8 =>
      cases written
      exact ⟨[_], congrArg (fun byte => [PayloadItem.whole [byte]]) (ofBitVec_eq_ofNat v), rfl⟩
    | _ => exact ⟨[_], rfl, by simpa using (Varint.eq_encode_of_spells written).symm⟩
  | boolean =>
    cases written
    exact ⟨[_], rfl, List.append_nil _⟩
  | text =>
    obtain ⟨length, spells, rfl⟩ := written
    cases Varint.eq_encode_of_spells spells
    refine ⟨[Varint.encode v.utf8ByteSize, v.toUTF8.data.toList], rfl, ?_⟩
    rw [List.flatten_cons, List.flatten_singleton]
  | character =>
    obtain ⟨length, spells, rfl⟩ := written
    cases Varint.eq_encode_of_spells spells
    refine ⟨[Varint.encode v.utf8Size, (String.singleton v).toUTF8.data.toList], ?_, ?_⟩
    · rw [Schema.items, PayloadItem.text, length_singleton_toUTF8]
      rfl
    · rw [List.flatten_cons, List.flatten_singleton]
  | sequence element ih =>
    obtain ⟨length, parts, spells, all, rfl⟩ := written
    have contents : ∃ pieces : List (List UInt8),
        v.flatMap element.items = pieces.map .whole ∧ pieces.flatten = parts.flatten := by
      clear spells
      induction all with
      | nil => exact ⟨[], rfl, rfl⟩
      | cons first _ inner =>
        obtain ⟨front, items_front, flat_front⟩ := ih first
        obtain ⟨back, items_back, flat_back⟩ := inner
        refine ⟨front ++ back, ?_, ?_⟩
        · rw [List.flatMap_cons, items_front, items_back, List.map_append]
        · rw [List.flatten_append, flat_front, flat_back, List.flatten_cons]
    obtain ⟨pieces, items, flat⟩ := contents
    cases Varint.eq_encode_of_spells spells
    refine ⟨Varint.encode v.length :: pieces, ?_, ?_⟩
    · rw [Schema.items, items, List.map_cons]
      rfl
    · rw [List.flatten_cons, flat]
  | optional element ih =>
    cases v with
    | none =>
      cases written
      exact ⟨[[0]], rfl, rfl⟩
    | some value =>
      obtain ⟨content, inner, rfl⟩ := written
      obtain ⟨pieces, items, flat⟩ := ih inner
      refine ⟨[1] :: pieces, ?_, ?_⟩
      · rw [Schema.items, items, List.map_cons]
      · rw [List.flatten_cons, flat]
        rfl
  | nothing =>
    cases written
    exact ⟨[], rfl, rfl⟩
  | pair first second ih_first ih_second =>
    obtain ⟨v, w⟩ := v
    obtain ⟨front, back, written_front, written_back, rfl⟩ := written
    obtain ⟨pieces, items_front, rfl⟩ := ih_first written_front
    obtain ⟨more, items_back, rfl⟩ := ih_second written_back
    refine ⟨pieces ++ more, ?_, List.flatten_append⟩
    rw [Schema.items, items_front, items_back, List.map_append]
  | choice count => exact ⟨[_], rfl, by simpa using (Varint.eq_encode_of_spells written).symm⟩
  | stream element ih => exact written.elim

/-- A value is written in one way only. -/
theorem Written.unique {v : schema.Value} {bytes other : List UInt8}
    (written : schema.Written v bytes) (again : schema.Written v other) : other = bytes := by
  obtain ⟨pieces, items, rfl⟩ := written.items
  obtain ⟨more, same, rfl⟩ := again.items
  rw [items] at same
  have injective : Function.Injective PayloadItem.whole := fun _ _ => PayloadItem.whole.inj
  rw [List.map_injective_iff.mpr injective same]

theorem Written.ne_nil {v : schema.Value} {bytes : List UInt8}
    (written : schema.Written v bytes) (full : ¬ schema.Hollow) : bytes ≠ [] := by
  induction schema generalizing bytes with
  | unsigned width | signed width =>
    cases width with
    | w8 => exact written ▸ List.cons_ne_nil _ _
    | _ => exact Varint.eq_encode_of_spells written ▸ Varint.encode_ne_nil _
  | boolean => exact written ▸ List.cons_ne_nil _ _
  | text | character =>
    obtain ⟨length, spells, rfl⟩ := written
    rw [Varint.eq_encode_of_spells spells]
    exact List.append_ne_nil_of_left_ne_nil (Varint.encode_ne_nil _) _
  | sequence element ih =>
    obtain ⟨length, parts, spells, _, rfl⟩ := written
    rw [Varint.eq_encode_of_spells spells]
    exact List.append_ne_nil_of_left_ne_nil (Varint.encode_ne_nil _) _
  | optional element ih =>
    cases v with
    | none => exact written ▸ List.cons_ne_nil _ _
    | some value =>
      obtain ⟨content, _, rfl⟩ := written
      exact List.cons_ne_nil _ _
  | nothing => exact absurd trivial full
  | pair first second ih_first ih_second =>
    obtain ⟨v, w⟩ := v
    obtain ⟨front, back, written_front, written_back, rfl⟩ := written
    by_cases hollow : first.Hollow
    · have some_byte := ih_second written_back fun both => full ⟨hollow, both⟩
      exact List.append_ne_nil_of_right_ne_nil _ some_byte
    · exact List.append_ne_nil_of_left_ne_nil (ih_first written_front hollow) _
  | choice count => exact Varint.eq_encode_of_spells written ▸ Varint.encode_ne_nil _
  | stream element ih => exact written.elim

end Schema

/-- Pieces are written one behind the other if there is room for all of them. -/
theorem PayloadItem.writeAll_whole (capacity : Nat) (written : List UInt8)
    (pieces : List (List UInt8)) :
    (written.length + pieces.flatten.length ≤ capacity →
      writeAll capacity written (pieces.map .whole) = (.ok (), written ++ pieces.flatten)) ∧
    (capacity < written.length + pieces.flatten.length → written.length ≤ capacity →
      (writeAll capacity written (pieces.map .whole)).1 = .error .bufferFull) := by
  induction pieces generalizing written with
  | nil =>
    simp only [List.flatten_nil, List.length_nil, Nat.add_zero, List.map_nil, List.append_nil]
    exact ⟨fun _ => rfl, fun full room => absurd room (Nat.not_le_of_lt full)⟩
  | cons piece pieces ih =>
    obtain ⟨fits, full⟩ := ih (written ++ piece)
    simp only [List.length_append, List.append_assoc] at fits full
    simp only [List.flatten_cons, List.length_append, List.map_cons, writeAll]
    constructor
    · intro room
      rw [if_pos (by omega), fits (by omega)]
    · intro large _
      split
      · exact full (by omega) (by assumption)
      · rfl

section Encode

variable {schema : Schema} {v : schema.Value} {bytes : List UInt8}

/-- A value that fits is at the front of the buffer, and what is behind it stays. -/
theorem encodePayload_fits (written : schema.Written v bytes) {buffer : List UInt8}
    (fits : bytes.length ≤ buffer.length) :
    encodePayload schema v buffer = (.ok bytes.length, bytes ++ buffer.drop bytes.length) := by
  obtain ⟨pieces, items, rfl⟩ := written.items
  have all := (PayloadItem.writeAll_whole buffer.length [] pieces).1 (by simpa using fits)
  simp only [encodePayload, Schema.encodeInto, items, all, List.nil_append]
  rfl

theorem encodePayload_full (written : schema.Written v bytes) {buffer : List UInt8}
    (large : buffer.length < bytes.length) :
    (encodePayload schema v buffer).1 =
      .error (.payloadTooLarge (buffer.length + 1) buffer.length) := by
  obtain ⟨pieces, items, rfl⟩ := written.items
  have stops := (PayloadItem.writeAll_whole buffer.length [] pieces).2 (by simpa using large)
    (Nat.zero_le _)
  simp only [encodePayload, Schema.encodeInto, items, stops]
  rfl

end Encode

end SplitKeyboard
