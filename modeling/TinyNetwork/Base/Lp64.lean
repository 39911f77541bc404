import Mathlib

/-!
# Integer conversions on an LP64 target

`int` has 32 bits, `size_t` and `ptrdiff_t` have 64.  A `size_t` is a natural number below
`2 ^ 64`, an `int` an integer between `-2 ^ 31` and `2 ^ 31 - 1`.  Narrowing to `int` and sums of
`int`s are taken modulo `2 ^ 32`, sums and differences of `size_t`s modulo `2 ^ 64`; an `int` that
meets a `size_t` is converted to `size_t`, so a negative one becomes huge.
-/

namespace TinyNetwork

namespace Lp64

/-- Narrowing to `int`. -/
def toInt (n : ℤ) : ℤ := (BitVec.ofInt 32 n).toInt

/-- The sum of two `int`s. -/
def addInt (a b : ℤ) : ℤ := toInt (a + b)

/-- Conversion to `size_t`. -/
def toSize (n : ℤ) : ℕ := (BitVec.ofInt 64 n).toNat

/-- The sum of two `size_t`s. -/
def addSize (a b : ℕ) : ℕ := (a + b) % 2 ^ 64

/-- The difference of two `size_t`s. -/
def subSize (a b : ℕ) : ℕ := toSize ((a : ℤ) - b)

theorem toInt_eq (n : ℤ) : toInt n = (n + 2 ^ 31) % 2 ^ 32 - 2 ^ 31 := by
  rw [toInt, BitVec.toInt_ofInt, Int.bmod_def]
  split_ifs <;> omega

theorem toSize_eq (n : ℤ) : toSize n = (n % 2 ^ 64).toNat := by
  rw [toSize, BitVec.toNat_ofInt]
  rfl

theorem toInt_of_lt {n : ℤ} (h₀ : 0 ≤ n) (h : n < 2 ^ 31) : toInt n = n := by
  rw [toInt_eq]; omega

theorem toSize_natCast {n : ℕ} (h : n < 2 ^ 64) : toSize n = n := by
  rw [toSize_eq]; omega

/-- A length that fits in an `int` survives the round trip through one. -/
theorem toSize_toInt_of_lt {n : ℕ} (h : n < 2 ^ 31) : toSize (toInt n) = n := by
  rw [toInt_of_lt (by omega) (by omega), toSize_natCast (by omega)]

/-- A length that passes through an `int` is sign-extended from its low 32 bits. -/
theorem toSize_toInt (n : ℕ) :
    toSize (toInt n) =
      if n % 2 ^ 32 < 2 ^ 31 then n % 2 ^ 32 else 2 ^ 64 - 2 ^ 32 + n % 2 ^ 32 := by
  rw [toSize_eq, toInt_eq]
  split_ifs with h <;> omega

theorem toSize_addInt_of_lt {a b : ℕ} (h : a + b < 2 ^ 31) : toSize (addInt a b) = a + b := by
  rw [addInt, ← Int.natCast_add, toSize_toInt_of_lt h]

/-- A sum of lengths that wraps around as an `int` is a huge `size_t`. -/
theorem le_toSize_addInt {a b : ℕ} (ha : a < 2 ^ 31) (hb : b < 2 ^ 31) (h : 2 ^ 31 ≤ a + b) :
    2 ^ 63 ≤ toSize (addInt a b) := by
  rw [addInt, ← Int.natCast_add, toSize_toInt]
  split_ifs <;> omega

theorem addSize_of_lt {a b : ℕ} (h : a + b < 2 ^ 64) : addSize a b = a + b := by
  unfold addSize; omega

theorem subSize_of_le {a b : ℕ} (h : b ≤ a) (ha : a < 2 ^ 64) : subSize a b = a - b := by
  rw [subSize, toSize_eq]; omega

end Lp64

end TinyNetwork
