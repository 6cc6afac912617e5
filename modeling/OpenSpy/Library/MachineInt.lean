import Mathlib.Data.Int.ModEq
import Mathlib.Tactic.Common

/-!
# Machine integers

A C++ `int` is an integer of its range and a `size_t` a natural number below `2 ^ 64`. `int32`
and `sizeT` are the conversions to them.
-/

namespace MachineInt

/-- Conversion to `int`, which wraps around. -/
def int32 (value : Int) : Int :=
  value.bmod (2 ^ 32)

/-- Conversion to `size_t`. -/
def sizeT (value : Int) : Nat :=
  (value % 2 ^ 64).toNat

/-- The range of `int`. -/
theorem int32_range (value : Int) : -2 ^ 31 ≤ int32 value ∧ int32 value < 2 ^ 31 :=
  ⟨Int.le_bmod (by decide), Int.bmod_lt (by decide)⟩

/-- A value in the range of `int` is unchanged. -/
theorem int32_eq_self {value : Int} (hlow : -2 ^ 31 ≤ value) (hhigh : value < 2 ^ 31) :
    int32 value = value :=
  Int.bmod_eq_of_le (by omega) (by omega)

/-- A value above the range of `int` wraps around once. -/
theorem int32_eq_sub {value : Int} (hlow : 2 ^ 31 ≤ value) (hhigh : value < 3 * 2 ^ 31) :
    int32 value = value - 2 ^ 32 := by
  rw [int32, Int.bmod_eq_iff (by decide)]
  omega

/-- The conversion wraps by multiples of `2 ^ 32`. -/
theorem int32_mod (value : Int) : int32 value ≡ value [ZMOD 2 ^ 32] := by
  rw [int32, Int.ModEq, Int.bmod_def]
  omega

/-- A value in the range of `size_t` is unchanged. -/
theorem size_t_eq_self {value : Int} (hlow : 0 ≤ value) (hhigh : value < 2 ^ 64) :
    (sizeT value : Int) = value := by
  unfold sizeT
  omega

/-- The conversion agrees with the value modulo `2 ^ 32`, too. -/
theorem size_t_mod (value : Int) : (sizeT value : Int) ≡ value [ZMOD 2 ^ 32] := by
  unfold sizeT Int.ModEq
  omega

end MachineInt
