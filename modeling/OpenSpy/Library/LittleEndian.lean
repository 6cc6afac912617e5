import Mathlib.Data.UInt
import Mathlib.Tactic.Common

/-!
# Little-endian numbers

The bytes of a number from its lowest to its highest, as many as the type of the number has, and
the number of some bytes.
-/

namespace LittleEndian

/-- The lowest `width` bytes of a number. -/
def toBytes : Nat → Nat → List UInt8
  | 0, _ => []
  | width + 1, value => UInt8.ofNat value :: toBytes width (value / 256)

/-- The number of some bytes. -/
def toNat : List UInt8 → Nat
  | [] => 0
  | byte :: bytes => byte.toNat + 256 * toNat bytes

@[simp] theorem to_bytes_length (width value : Nat) : (toBytes width value).length = width := by
  induction width generalizing value with
  | zero => rfl
  | succ width ih => simp [toBytes, ih]

/-- A number that fits is the number of its bytes. -/
theorem to_nat_to_bytes {width value : Nat} (h : value < 256 ^ width) :
    toNat (toBytes width value) = value := by
  induction width generalizing value with
  | zero =>
      rw [Nat.pow_zero] at h
      exact (Nat.lt_one_iff.mp h).symm
  | succ width ih =>
      have hrest : value / 256 < 256 ^ width := by
        rw [Nat.pow_succ] at h
        exact Nat.div_lt_of_lt_mul (by rwa [Nat.mul_comm])
      rw [toBytes, toNat, ih hrest, UInt8.toNat_ofNat']
      omega

end LittleEndian
