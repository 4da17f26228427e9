/-!
Numbers as bytes of seven bits each, lowest first, every byte but the last with its high bit set.
A reader is told how wide the number's type is: it takes no more bytes than that width can need
and refuses a value that the type cannot hold. Main statement: `decode_encode`.
-/
namespace SplitKeyboard.Varint

def encode (n : Nat) : List UInt8 :=
  if n < 128 then [UInt8.ofNat n] else UInt8.ofNat (n % 128 + 128) :: encode (n / 128)
termination_by n
decreasing_by omega

/-- The number in at most `limit` leading bytes, and the bytes after it. Zero groups at the top are
allowed as long as they fit. -/
def decodeWithin : (limit : Nat) → List UInt8 → Option (Nat × List UInt8)
  | 0, _ => none
  | _ + 1, [] => none
  | limit + 1, byte :: rest =>
    if byte.toNat < 128 then some (byte.toNat, rest)
    else (decodeWithin limit rest).map fun (high, after) => (byte.toNat - 128 + 128 * high, after)

def maxLength (bits : Nat) : Nat := (bits + 6) / 7

/-- The number of at most `bits` bits at the front, and the bytes after it. -/
def decode (bits : Nat) (bytes : List UInt8) : Option (Nat × List UInt8) :=
  (decodeWithin (maxLength bits) bytes).filter fun (n, _) => n < 1 <<< bits

/-- Signed numbers in order of magnitude, so that those near zero stay short: 0, -1, 1, -2, 2, … -/
def zigzag (z : Int) : Nat := if 0 ≤ z then 2 * z.toNat else 2 * (-z).toNat - 1

def unzigzag (n : Nat) : Int := if n % 2 = 0 then (n / 2 : Nat) else -((n + 1) / 2 : Nat)

theorem unzigzag_zigzag (z : Int) : unzigzag (zigzag z) = z := by
  unfold unzigzag zigzag
  split <;> split <;> omega

theorem toNat_ofNat_of_lt {n : Nat} (small : n < 256) : (UInt8.ofNat n).toNat = n := by
  simp [Nat.mod_eq_of_lt small]

theorem shiftLeft_add_seven (n : Nat) : 1 <<< (n + 7) = 128 * 1 <<< n := by
  rw [Nat.one_shiftLeft, Nat.one_shiftLeft, Nat.pow_add]
  omega

theorem shiftLeft_le_shiftLeft {m n : Nat} (le : m ≤ n) : 1 <<< m ≤ 1 <<< n := by
  rw [Nat.one_shiftLeft, Nat.one_shiftLeft]
  exact Nat.pow_le_pow_right (by omega) le

theorem decodeWithin_encode {limit n : Nat} (rest : List UInt8) (fits : n < 1 <<< (7 * limit)) :
    limit ≠ 0 → decodeWithin limit (encode n ++ rest) = some (n, rest) := by
  induction limit generalizing n with
  | zero => intro h; exact absurd rfl h
  | succ limit ih =>
    intro _
    rw [encode]
    split
    · rename_i small
      simp [decodeWithin, toNat_ofNat_of_lt (by omega : n < 256), small]
    · rename_i big
      have byte := toNat_ofNat_of_lt (by omega : n % 128 + 128 < 256)
      have high : n / 128 < 1 <<< (7 * limit) := by
        rw [show 7 * (limit + 1) = 7 * limit + 7 by omega, shiftLeft_add_seven] at fits
        exact Nat.div_lt_of_lt_mul fits
      have more : limit ≠ 0 := by
        rintro rfl
        simp at high
        omega
      rw [List.cons_append, decodeWithin, byte, if_neg (by omega), ih high more]
      simp only [Option.map_some, Option.some.injEq, Prod.mk.injEq, and_true]
      omega

/-- Reading what was written gives the number back and leaves what follows it alone. -/
theorem decode_encode {bits n : Nat} (rest : List UInt8) (fits : n < 1 <<< bits)
    (wide : bits ≠ 0) : decode bits (encode n ++ rest) = some (n, rest) := by
  have more : n < 1 <<< (7 * maxLength bits) :=
    Nat.lt_of_lt_of_le fits (shiftLeft_le_shiftLeft (by unfold maxLength; omega))
  rw [decode, decodeWithin_encode rest more (by unfold maxLength; omega)]
  simp [Option.filter, fits]

end SplitKeyboard.Varint
