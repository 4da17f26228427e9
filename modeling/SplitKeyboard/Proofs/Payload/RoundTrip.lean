import SplitKeyboard.Payload.Decode
import SplitKeyboard.Proofs.Payload.Format

/-!
Reading back what was written. A reader that has found a value finds the same one whatever bytes come
behind, and leaves these alone. So the bytes of a value are read as that value with anything behind
them, and no part of them that ends early is read as a value at all.
-/
namespace SplitKeyboard

theorem Width.bits_ne_zero (width : Width) : width.bits ≠ 0 := by
  cases width <;> decide

namespace Schema

variable {schema element : Schema} {bytes rest : List UInt8}

theorem decode_unsigned {width : Width} (wide : width ≠ .w8) :
    (unsigned width).decode bytes = (Varint.decode width.bits bytes).map
      fun (n, rest) => (BitVec.ofNat width.bits n, rest) := by
  cases width with
  | w8 => exact absurd rfl wide
  | _ => rfl

theorem decode_signed {width : Width} (wide : width ≠ .w8) :
    (signed width).decode bytes = (Varint.decode width.bits bytes).map
      fun (n, rest) => (BitVec.ofInt width.bits (Varint.unzigzag n), rest) := by
  cases width with
  | w8 => exact absurd rfl wide
  | _ => rfl

/-- A byte in front is a flag or it is not. -/
theorem flag_cases (bytes : List UInt8) :
    (∃ rest, bytes = 0 :: rest) ∨ (∃ rest, bytes = 1 :: rest) ∨
      (∀ rest, bytes = 0 :: rest → False) ∧ ∀ rest, bytes = 1 :: rest → False := by
  by_cases zero : ∃ rest, bytes = 0 :: rest
  · exact .inl zero
  · by_cases one : ∃ rest, bytes = 1 :: rest
    · exact .inr (.inl one)
    · exact .inr (.inr ⟨not_exists.mp zero, not_exists.mp one⟩)

section Extension

theorem takeBytes_append {n : Nat} {content : List UInt8} (more : List UInt8)
    (found : takeBytes n bytes = some (content, rest)) :
    takeBytes n (bytes ++ more) = some (content, rest ++ more) := by
  unfold takeBytes at found ⊢
  split at found
  · next enough =>
    cases found
    rw [if_pos (by rw [List.length_append]; omega), List.take_append_of_le_length enough,
      List.drop_append_of_le_length enough]
  · cases found

theorem decodeText_append {longest : Nat} {s : String} (more : List UInt8)
    (found : decodeText longest bytes = some (s, rest)) :
    decodeText longest (bytes ++ more) = some (s, rest ++ more) := by
  unfold decodeText at found ⊢
  obtain ⟨⟨length, behind⟩, size, found⟩ := Option.bind_eq_some_iff.mp found
  rw [Varint.decode_append more size]
  dsimp only at found
  simp only [Option.bind_eq_bind, Option.bind_some]
  split at found
  · cases found
  · next short =>
    obtain ⟨⟨content, left⟩, taken, found⟩ := Option.bind_eq_some_iff.mp found
    obtain ⟨decoded, valid, same⟩ := Option.bind_eq_some_iff.mp found
    cases same
    rw [if_neg short, takeBytes_append more taken]
    simp only [Option.bind_some, valid]
    rfl

theorem decodeMany_append {α : Type} {decode : List UInt8 → Option (α × List UInt8)}
    (more : List UInt8)
    (each : ∀ {bytes rest : List UInt8} {v : α}, decode bytes = some (v, rest) →
      decode (bytes ++ more) = some (v, rest ++ more))
    {n : Nat} {values : List α} (found : decodeMany decode n bytes = some (values, rest)) :
    decodeMany decode n (bytes ++ more) = some (values, rest ++ more) := by
  induction n generalizing bytes values with
  | zero =>
    cases found
    rfl
  | succ n ih =>
    obtain ⟨⟨value, behind⟩, first, found⟩ := Option.bind_eq_some_iff.mp found
    obtain ⟨⟨others, left⟩, tail, same⟩ := Option.bind_eq_some_iff.mp found
    cases same
    rw [decodeMany, each first]
    simp only [Option.bind_eq_bind, Option.bind_some, ih tail]
    rfl

/-- A number that is read, and the rest of the bytes with it. -/
theorem map_decode_append {α : Type} {bits : Nat} (value : Nat → α) {v : α} (more : List UInt8)
    (found : (Varint.decode bits bytes).map (fun (n, rest) => (value n, rest)) = some (v, rest)) :
    (Varint.decode bits (bytes ++ more)).map (fun (n, rest) => (value n, rest)) =
      some (v, rest ++ more) := by
  obtain ⟨⟨n, behind⟩, number, same⟩ := Option.map_eq_some_iff.mp found
  cases same
  rw [Varint.decode_append more number]
  rfl

theorem head_append {α : Type} {value : UInt8 → α} {v : α} (more : List UInt8)
    (found : bytes.head?.map (fun byte => (value byte, bytes.tail)) = some (v, rest)) :
    (bytes ++ more).head?.map (fun byte => (value byte, (bytes ++ more).tail)) =
      some (v, rest ++ more) := by
  cases bytes with
  | nil => cases found
  | cons byte bytes =>
    cases found
    rfl

/-- What comes behind a value is left alone. -/
theorem decode_append {v : schema.Value} (more : List UInt8)
    (found : schema.decode bytes = some (v, rest)) :
    schema.decode (bytes ++ more) = some (v, rest ++ more) := by
  induction schema generalizing bytes rest with
  | unsigned width =>
    by_cases byte : width = .w8
    · subst byte
      exact head_append more found
    · rw [decode_unsigned byte] at found ⊢
      exact map_decode_append (BitVec.ofNat width.bits) more found
  | signed width =>
    by_cases byte : width = .w8
    · subst byte
      exact head_append more found
    · rw [decode_signed byte] at found ⊢
      exact map_decode_append (fun n => BitVec.ofInt width.bits (Varint.unzigzag n)) more found
  | boolean =>
    rcases flag_cases bytes with ⟨behind, rfl⟩ | ⟨behind, rfl⟩ | ⟨zero, one⟩
    · cases found
      rfl
    · cases found
      rfl
    · rw [decode] at found
      · cases found
      · exact zero
      · exact one
  | text => exact decodeText_append more found
  | character =>
    obtain ⟨⟨decoded, behind⟩, inner, found⟩ := Option.bind_eq_some_iff.mp found
    obtain ⟨c, first, same⟩ := Option.bind_eq_some_iff.mp found
    cases same
    rw [decode, decodeText_append more inner]
    simp only [Option.bind_eq_bind, Option.bind_some, first]
    rfl
  | sequence element ih =>
    obtain ⟨⟨length, behind⟩, size, found⟩ := Option.bind_eq_some_iff.mp found
    rw [decode, Varint.decode_append more size]
    exact decodeMany_append more ih found
  | optional element ih =>
    rcases flag_cases bytes with ⟨behind, rfl⟩ | ⟨behind, rfl⟩ | ⟨zero, one⟩
    · cases found
      rfl
    · obtain ⟨⟨value, behind⟩, inner, same⟩ := Option.map_eq_some_iff.mp found
      cases same
      rw [List.cons_append, decode, ih inner]
      rfl
    · rw [decode] at found
      · cases found
      · exact zero
      · exact one
  | nothing =>
    cases found
    rfl
  | pair first second ih_first ih_second =>
    obtain ⟨⟨v, middle⟩, front, found⟩ := Option.bind_eq_some_iff.mp found
    obtain ⟨⟨w, behind⟩, back, same⟩ := Option.bind_eq_some_iff.mp found
    cases same
    rw [decode, ih_first front]
    simp only [Option.bind_eq_bind, Option.bind_some, ih_second back]
    rfl
  | choice count =>
    obtain ⟨⟨index, behind⟩, number, found⟩ := Option.bind_eq_some_iff.mp found
    rw [decode, Varint.decode_append more number]
    simp only [Option.bind_eq_bind, Option.bind_some]
    dsimp only at found
    split at found
    · next valid =>
      cases found
      rw [dif_pos valid]
      rfl
    · cases found
  | stream element ih => cases found

end Extension

section Written

/-- A number that fits its type is read back from its spelling. -/
theorem decode_spells {bits n : Nat} {spelling : List UInt8} (spells : Varint.Spells n spelling)
    (rest : List UInt8) (fits : n < 1 <<< bits) (wide : bits ≠ 0) :
    Varint.decode bits (spelling ++ rest) = some (n, rest) := by
  rw [Varint.eq_encode_of_spells spells]
  exact Varint.decode_encode rest fits wide

/-- A byte is read as it is, with or without a sign. -/
theorem decode_byte {v : BitVec 8} (written : bytes = [UInt8.ofNat v.toNat]) (rest : List UInt8) :
    (bytes ++ rest).head?.map (fun byte => (byte.toBitVec, (bytes ++ rest).tail)) =
      some (v, rest) := by
  rw [written, ← ofBitVec_eq_ofNat]
  rfl

/-- Signed numbers keep within their width when they are put in order of magnitude. -/
theorem zigzag_toInt_lt {bits : Nat} (v : BitVec bits) (wide : bits ≠ 0) :
    Varint.zigzag v.toInt < 1 <<< bits := by
  have above : 2 * v.toInt < 2 ^ bits := BitVec.two_mul_toInt_lt
  have below : -2 ^ bits ≤ 2 * v.toInt := BitVec.le_two_mul_toInt
  have even : (2 : Int) ^ bits = 2 * 2 ^ (bits - 1) := by
    rw [← Int.pow_succ', Nat.sub_add_cancel (by omega)]
  have cast : ((2 ^ bits : Nat) : Int) = 2 ^ bits := by norm_cast
  rw [Nat.one_shiftLeft, Varint.zigzag]
  split <;> omega

theorem fromUTF8?_toUTF8 (s : String) : String.fromUTF8? s.toUTF8 = some s := by
  have valid : s.toUTF8.IsValidUTF8 := s.isValidUTF8
  rw [String.fromUTF8?, dif_pos valid]
  rfl

theorem decodeText_written {longest : Nat} {s : String} {length : List UInt8}
    (spells : Varint.Spells s.utf8ByteSize length) (rest : List UInt8)
    (short : s.utf8ByteSize ≤ longest) (small : s.utf8ByteSize < UInt64.size) :
    decodeText longest (length ++ s.toUTF8.data.toList ++ rest) = some (s, rest) := by
  have size : s.toUTF8.data.toList.length = s.utf8ByteSize := rfl
  have taken : takeBytes s.utf8ByteSize (s.toUTF8.data.toList ++ rest) =
      some (s.toUTF8.data.toList, rest) := by
    rw [takeBytes, if_pos (by rw [List.length_append]; omega), ← size, List.take_left,
      List.drop_left]
  have back : String.fromUTF8? ⟨s.toUTF8.data.toList.toArray⟩ = some s := fromUTF8?_toUTF8 s
  rw [decodeText, List.append_assoc, decode_spells spells _ small (by decide)]
  simp only [Option.bind_eq_bind, Option.bind_some, if_neg (Nat.not_lt.mpr short), taken, back]
  rfl

/-- A sequence has no more elements than bytes if no element is empty. -/
theorem length_le_of_written {values : List element.Value} {parts : List (List UInt8)}
    (full : ¬ element.Hollow) (all : List.Forall₂ element.Written values parts) :
    values.length ≤ parts.flatten.length := by
  induction all with
  | nil => exact Nat.zero_le _
  | cons first _ ih =>
    have some_byte := List.length_pos_iff.mpr (first.ne_nil full)
    rw [List.length_cons, List.flatten_cons, List.length_append]
    omega

theorem decodeMany_written {decode : List UInt8 → Option (element.Value × List UInt8)}
    {values : List element.Value} {parts : List (List UInt8)} (rest : List UInt8)
    (all : List.Forall₂ element.Written values parts)
    (each : ∀ v part, v ∈ values → part ∈ parts → element.Written v part → ∀ rest,
      decode (part ++ rest) = some (v, rest)) :
    decodeMany decode values.length (parts.flatten ++ rest) = some (values, rest) := by
  induction all with
  | nil => rfl
  | @cons value part values parts first _ ih =>
    have front := each value part (.head _) (.head _) first (parts.flatten ++ rest)
    have back := ih fun v part known member => each v part (.tail _ known) (.tail _ member)
    rw [List.length_cons, decodeMany, List.flatten_cons, List.append_assoc, front]
    simp only [Option.bind_eq_bind, Option.bind_some, back]
    rfl

/-- A value is read back from its bytes, whatever comes behind them. -/
theorem decode_written {v : schema.Value} (sendable : schema.Sendable)
    (counted : schema.Counted v) (written : schema.Written v bytes) (small : bytes.length < UInt64.size) (rest : List UInt8) :
    schema.decode (bytes ++ rest) = some (v, rest) := by
  have word : UInt64.size = 1 <<< 64 := rfl
  induction schema generalizing bytes rest with
  | unsigned width =>
    by_cases byte : width = .w8
    · subst byte
      exact decode_byte written rest
    · rw [Written, if_neg byte] at written
      have back : BitVec.ofNat width.bits v.toNat = v := by
        rw [BitVec.ofNat_toNat, BitVec.setWidth_eq]
      have fits : v.toNat < 1 <<< width.bits := Nat.one_shiftLeft _ ▸ v.isLt
      rw [decode_unsigned byte, decode_spells written rest fits width.bits_ne_zero]
      exact congrArg (fun v => some (v, rest)) back
  | signed width =>
    by_cases byte : width = .w8
    · subst byte
      exact decode_byte written rest
    · rw [Written, if_neg byte] at written
      have fits := zigzag_toInt_lt v width.bits_ne_zero
      have back : BitVec.ofInt width.bits (Varint.unzigzag (Varint.zigzag v.toInt)) = v := by
        rw [Varint.unzigzag_zigzag, BitVec.ofInt_toInt]
      rw [decode_signed byte, decode_spells written rest fits width.bits_ne_zero]
      exact congrArg (fun v => some (v, rest)) back
  | boolean =>
    cases written
    cases v <;> rfl
  | text =>
    obtain ⟨length, spells, rfl⟩ := written
    have content : v.toUTF8.data.toList.length = v.utf8ByteSize := rfl
    rw [List.length_append, content] at small
    exact decodeText_written spells rest (by omega) (by omega)
  | character =>
    obtain ⟨length, spells, rfl⟩ := written
    have bytes : (String.singleton v).utf8ByteSize = v.utf8Size := by simp
    have few := v.utf8Size_le_four
    have four : 4 < UInt64.size := by decide
    rw [← bytes] at spells
    rw [decode, decodeText_written spells rest (by omega) (by omega)]
    simp only [Option.bind_eq_bind, Option.bind_some, String.toList_singleton, List.head?_cons]
    rfl
  | sequence element ih =>
    obtain ⟨length, parts, spells, all, rfl⟩ := written
    rw [List.length_append] at small
    have few : v.length < UInt64.size := by
      by_cases hollow : element.Hollow
      · exact counted.1 hollow
      · have parted := length_le_of_written hollow all
        omega
    rw [decode, List.append_assoc, decode_spells spells _ (by omega) (by decide)]
    refine decodeMany_written rest all fun value part known member inner rest => ?_
    have within : part.length ≤ parts.flatten.length :=
      (List.sublist_flatten_of_mem member).length_le
    exact ih sendable (counted.2 value known) inner (by omega) rest
  | optional element ih =>
    cases v with
    | none =>
      cases written
      rfl
    | some value =>
      obtain ⟨content, inner, rfl⟩ := written
      rw [List.length_cons] at small
      rw [List.cons_append, decode, ih sendable (counted value rfl) inner (by omega)]
      rfl
  | nothing =>
    cases written
    rfl
  | pair first second ih_first ih_second =>
    obtain ⟨v, w⟩ := v
    obtain ⟨front, back, written_front, written_back, rfl⟩ := written
    rw [List.length_append] at small
    rw [decode, List.append_assoc, ih_first sendable.1 counted.1 written_front (by omega)]
    simp only [Option.bind_eq_bind, Option.bind_some]
    rw [ih_second sendable.2 counted.2 written_back (by omega)]
    rfl
  | choice count =>
    have fits : v.val < 2 ^ 32 := Nat.lt_of_lt_of_le v.isLt sendable
    rw [decode, decode_spells written rest fits (by decide)]
    simp only [Option.bind_eq_bind, Option.bind_some, dif_pos v.isLt]
    rfl
  | stream element ih => exact sendable.elim

/-- A part of a value that ends early is no value. -/
theorem decode_cut {v : schema.Value} {part : List UInt8} (sendable : schema.Sendable)
    (counted : schema.Counted v) (written : schema.Written v bytes) (small : bytes.length < UInt64.size)
    (cut : part <+: bytes) (shorter : part ≠ bytes) : schema.decode part = none := by
  obtain ⟨missing, rfl⟩ := cut
  cases found : schema.decode part with
  | none => rfl
  | some read =>
    -- With the missing bytes behind it, the part would leave them as well as nothing.
    have left := decode_append missing found
    have whole := decode_written sendable counted written small []
    rw [List.append_nil, left] at whole
    have nothing : read.2 ++ missing = [] := congrArg Prod.snd (Option.some.inj whole)
    have full := (List.append_eq_nil_iff.mp nothing).2
    exact absurd (by rw [full, List.append_nil]) shorter

end Written

end Schema
end SplitKeyboard
