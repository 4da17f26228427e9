import Mathlib.Tactic.Common
import SplitKeyboard.Payload.Varint

/-!
How a number is spelled in groups of seven bits, said without the writer. Each number has exactly
one spelling, which is what the writer writes. A reader that has found a number finds the same one
whatever bytes come behind.
-/
namespace SplitKeyboard.Varint

/-- The number that groups of seven bits stand for, lowest group first. -/
def valueOf (bytes : List UInt8) : Nat :=
  bytes.foldr (fun byte high => byte.toNat % 128 + 128 * high) 0

/-- The shortest way to write a number: every byte but the last has its high bit set, and the last
group is not empty unless it is the only one. -/
def Spells (n : Nat) (bytes : List UInt8) : Prop :=
  ∃ front last, bytes = front ++ [last] ∧ (∀ byte ∈ front, 128 ≤ byte.toNat) ∧ last.toNat < 128 ∧
    (front ≠ [] → last ≠ 0) ∧ valueOf bytes = n

theorem spells_encode (n : Nat) : Spells n (encode n) := by
  induction n using encode.induct with
  | case1 n small =>
    have byte := toNat_ofNat_of_lt (by omega : n < 256)
    refine ⟨[], UInt8.ofNat n, ?_, by simp, by omega, by simp, ?_⟩
    · rw [encode, if_pos small, List.nil_append]
    · rw [encode, if_pos small, valueOf, List.foldr_cons, List.foldr_nil, byte]
      omega
  | case2 n big ih =>
    obtain ⟨front, last, high, marked, ended, shortest, value⟩ := ih
    have byte := toNat_ofNat_of_lt (by omega : n % 128 + 128 < 256)
    have written : encode n = UInt8.ofNat (n % 128 + 128) :: encode (n / 128) := by
      rw [encode, if_neg big]
    refine ⟨UInt8.ofNat (n % 128 + 128) :: front, last, ?_, ?_, ended, ?_, ?_⟩
    · rw [written, high, List.cons_append]
    · intro one member
      rcases List.mem_cons.mp member with rfl | member
      · omega
      · exact marked one member
    · -- A last group that was the only one is not empty, because the number has more than one group.
      rintro - rfl
      by_cases alone : front = []
      · rw [high, alone] at value
        simp only [valueOf, List.nil_append, List.foldr_cons, List.foldr_nil,
          UInt8.toNat_zero] at value
        omega
      · exact shortest alone rfl
    · rw [written, valueOf, List.foldr_cons, ← valueOf, value, byte]
      omega

theorem eq_encode_of_spells {n : Nat} {bytes : List UInt8} (spells : Spells n bytes) :
    bytes = encode n := by
  obtain ⟨front, last, rfl, marked, ended, shortest, value⟩ := spells
  induction front generalizing n with
  | nil =>
    simp only [valueOf, List.nil_append, List.foldr_cons, List.foldr_nil] at value
    have same : last.toNat = n := by omega
    rw [encode, if_pos (by omega), ← same, UInt8.ofNat_toNat, List.nil_append]
  | cons byte front ih =>
    rw [List.cons_append, valueOf, List.foldr_cons, ← valueOf] at value
    have high := ih (fun one member => marked one (List.mem_cons_of_mem _ member))
      (fun _ => shortest (List.cons_ne_nil _ _)) rfl
    have mark := marked byte (List.mem_cons_self ..)
    have size := byte.toNat_lt
    have more : valueOf (front ++ [last]) ≠ 0 := by
      intro none_left
      rw [none_left, encode, if_pos (by omega)] at high
      have ends := congrArg List.getLast? high
      rw [List.getLast?_concat] at ends
      exact shortest (List.cons_ne_nil _ _) (Option.some.inj ends)
    have low : n % 128 + 128 = byte.toNat := by omega
    have rest : n / 128 = valueOf (front ++ [last]) := by omega
    rw [encode, if_neg (by omega), low, rest, ← high, UInt8.ofNat_toNat, List.cons_append]

theorem encode_ne_nil (n : Nat) : encode n ≠ [] := by
  rw [encode]
  split <;> exact List.cons_ne_nil _ _

theorem decodeWithin_append {limit n : Nat} {bytes rest : List UInt8} (more : List UInt8)
    (found : decodeWithin limit bytes = some (n, rest)) :
    decodeWithin limit (bytes ++ more) = some (n, rest ++ more) := by
  induction limit generalizing bytes n with
  | zero => cases found
  | succ limit ih =>
    cases bytes with
    | nil => cases found
    | cons byte bytes =>
      rw [decodeWithin] at found
      rw [List.cons_append, decodeWithin]
      split at found
      · next single =>
        cases found
        rw [if_pos single]
      · next marked =>
        obtain ⟨⟨high, after⟩, inner, same⟩ := Option.map_eq_some_iff.mp found
        cases same
        rw [if_neg marked, ih inner]
        rfl

/-- What comes behind a number is left alone. -/
theorem decode_append {bits n : Nat} {bytes rest : List UInt8} (more : List UInt8)
    (found : decode bits bytes = some (n, rest)) :
    decode bits (bytes ++ more) = some (n, rest ++ more) := by
  obtain ⟨inner, small⟩ := Option.filter_eq_some_iff.mp found
  rw [decode, decodeWithin_append more inner]
  exact Option.filter_eq_some_iff.mpr ⟨rfl, small⟩

end SplitKeyboard.Varint
