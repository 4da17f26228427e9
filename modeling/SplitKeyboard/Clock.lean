/-!
Milliseconds that wrap. A clock reading is a 32-bit word, so time differences are taken modulo
2^32 and stay right across the wrap as long as the two readings are less than 2^32 ms apart.
-/
namespace SplitKeyboard

abbrev Millis := UInt32

/-- The time from `start` to `now`, modulo 2^32. -/
def Millis.since (start now : Millis) : UInt32 := now - start

theorem Millis.since_toNat (start now : Millis) :
    (Millis.since start now).toNat = (now.toNat + (UInt32.size - start.toNat)) % UInt32.size := by
  rw [Millis.since, UInt32.toNat_sub, Nat.add_comm]

end SplitKeyboard
