/-!
# Little-endian numbers

Numbers in memory have their lowest byte first.
-/

namespace KernelProbe.LittleEndian

/-- The number that the bytes hold. -/
def value : List UInt8 → Nat
  | [] => 0
  | b :: r => b.toNat + 256 * value r

/-- The lowest `count` bytes of a number. -/
def bytes : (count n : Nat) → List UInt8
  | 0, _ => []
  | count + 1, n => n.toUInt8 :: bytes count (n / 256)

@[simp]
theorem length_bytes (count n : Nat) : (bytes count n).length = count := by
  induction count generalizing n with
  | zero => rfl
  | succ count ih => simp [bytes, ih]

end KernelProbe.LittleEndian
