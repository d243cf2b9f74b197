import Mathlib.Data.Int.ModEq
import Mathlib.Data.Rat.Floor

/-!
# 64-bit integers

Sums, products and conversions of 64-bit integers wrap around. They are modelled by integers, and
`wrapInt64` is applied where the program stores a result.
-/
namespace NewApi

/-- The 64-bit integer that an integer is stored as. -/
def wrapInt64 (n : ℤ) : ℤ := (n + 2 ^ 63) % 2 ^ 64 - 2 ^ 63

theorem wrapInt64_range (n : ℤ) : -2 ^ 63 ≤ wrapInt64 n ∧ wrapInt64 n < 2 ^ 63 := by
  unfold wrapInt64
  omega

theorem wrapInt64_eq_iff (n m : ℤ) :
    wrapInt64 n = m ↔ n ≡ m [ZMOD 2 ^ 64] ∧ -2 ^ 63 ≤ m ∧ m < 2 ^ 63 := by
  unfold wrapInt64 Int.ModEq
  omega

theorem wrapInt64_eq_self {n : ℤ} (hlow : -2 ^ 63 ≤ n) (hhigh : n < 2 ^ 63) : wrapInt64 n = n := by
  unfold wrapInt64
  omega

/-- The integer part of a decimal, as a 64-bit integer. -/
def intPart (x : ℚ) : ℤ := wrapInt64 (x.num.tdiv x.den)

theorem wrapInt64_eq_zero_iff {n : ℤ} : wrapInt64 n = 0 ↔ (2 ^ 64 : ℤ) ∣ n := by
  unfold wrapInt64
  omega

theorem intPart_of_nonneg {x : ℚ} (hx : 0 ≤ x) : intPart x = wrapInt64 ⌊x⌋ := by
  have hnum : 0 ≤ x.num := Rat.num_nonneg.mpr hx
  rw [intPart, Int.tdiv_eq_ediv_of_nonneg hnum, Rat.floor_def']

theorem intPart_intCast (n : ℤ) : intPart n = wrapInt64 n := by simp [intPart]

theorem intPart_natCast {n : ℕ} (hn : n < 2 ^ 63) : intPart (n : ℚ) = n := by
  rw [intPart_of_nonneg (Nat.cast_nonneg n), Int.floor_natCast, wrapInt64_eq_iff]
  exact ⟨Int.ModEq.refl _, by omega, by exact_mod_cast hn⟩

end NewApi
