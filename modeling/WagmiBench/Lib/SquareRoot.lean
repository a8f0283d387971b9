import Mathlib.Analysis.Real.Sqrt
import Mathlib.Data.Rat.Lemmas

/-!
# Integer square roots of rationals

The floor of a square root is the integer square root of the floor, and its ceiling is one more
unless the floor's root is exact. How a multiple of a square root compares with a rational is decided
by the signs and one inequality between integers.
-/

namespace WagmiBench.Lib

/-- The integer square root of the floor. -/
def isqrtFloor (x : ℚ) : ℕ := ⌊x⌋.toNat.sqrt

variable {x : ℚ}

theorem isqrtFloor_sq_le (hx : 0 ≤ x) : (isqrtFloor x : ℚ) ^ 2 ≤ x := by
  have hfloor : ((⌊x⌋.toNat : ℤ)) = ⌊x⌋ := Int.toNat_of_nonneg (Int.floor_nonneg.mpr hx)
  have hroot : ((isqrtFloor x * isqrtFloor x : ℕ) : ℤ) ≤ ⌊x⌋ :=
    hfloor ▸ Int.ofNat_le.mpr (Nat.sqrt_le _)
  have := Int.le_floor.mp hroot
  push_cast at this
  rwa [pow_two]

theorem lt_isqrtFloor_succ_sq (hx : 0 ≤ x) : x < ((isqrtFloor x : ℚ) + 1) ^ 2 := by
  have hfloor : ((⌊x⌋.toNat : ℤ)) = ⌊x⌋ := Int.toNat_of_nonneg (Int.floor_nonneg.mpr hx)
  have hroot : ⌊x⌋ < (((isqrtFloor x + 1) * (isqrtFloor x + 1) : ℕ) : ℤ) :=
    hfloor ▸ Int.ofNat_lt.mpr (Nat.lt_succ_sqrt _)
  have := Int.floor_lt.mp hroot
  push_cast at this
  rwa [pow_two]

/-- **The floor may be taken first.** -/
theorem floor_sqrt (hx : 0 ≤ x) : ⌊√(x : ℝ)⌋ = isqrtFloor x := by
  rw [Int.floor_eq_iff]
  refine ⟨Real.le_sqrt_of_sq_le ?_, ?_⟩
  · exact_mod_cast isqrtFloor_sq_le hx
  · rw [Real.sqrt_lt' (by positivity)]
    exact_mod_cast lt_isqrtFloor_succ_sq hx

/-- A ceiling is told from the floor by whether the root is exact. -/
theorem ceil_sqrt (hx : 0 ≤ x) : ⌈√(x : ℝ)⌉ =
    if (isqrtFloor x : ℚ) ^ 2 = x then (isqrtFloor x : ℤ) else isqrtFloor x + 1 := by
  split
  · rename_i hexact
    have hroot : √(x : ℝ) = isqrtFloor x := by
      conv_lhs => rw [← hexact]
      push_cast
      exact Real.sqrt_sq (Nat.cast_nonneg _)
    rw [hroot, Int.ceil_natCast]
  · rename_i hexact
    rw [Int.ceil_eq_iff]
    push_cast
    constructor
    · have hlt := lt_of_le_of_ne (isqrtFloor_sq_le hx) hexact
      rw [add_sub_cancel_right, Real.lt_sqrt (Nat.cast_nonneg _)]
      exact_mod_cast hlt
    · rw [Real.sqrt_le_left (by positivity)]
      exact_mod_cast (lt_isqrtFloor_succ_sq hx).le

/-! ## Multiples of a root -/

/-- `n * √d ≤ a`, between integers: the signs of `n` and `a`, and the squares cross-multiplied. -/
def ScaledRootLe (n : ℤ) (a d : ℚ) : Prop :=
  if 0 ≤ n then 0 ≤ a.num ∧ n ^ 2 * (d.num * a.den ^ 2) ≤ a.num ^ 2 * d.den
  else a.num < 0 → a.num ^ 2 * d.den ≤ n ^ 2 * (d.num * a.den ^ 2)

instance (n : ℤ) (a d : ℚ) : Decidable (ScaledRootLe n a d) :=
  inferInstanceAs (Decidable (ite _ _ _))

theorem scaled_sq_le_iff (n : ℤ) (a d : ℚ) : (n : ℚ) ^ 2 * d ≤ a ^ 2 ↔
    n ^ 2 * (d.num * a.den ^ 2) ≤ a.num ^ 2 * d.den := by
  have hd : (0 : ℚ) < d.den := by exact_mod_cast d.den_pos
  have ha : (0 : ℚ) < (a.den : ℚ) ^ 2 := by
    have : (0 : ℚ) < a.den := by exact_mod_cast a.den_pos
    positivity
  conv_lhs => rw [← Rat.num_div_den a, ← Rat.num_div_den d]
  rw [div_pow, ← mul_div_assoc, div_le_div_iff₀ hd ha, mul_assoc]
  exact_mod_cast Iff.rfl

theorem sq_le_scaled_iff (n : ℤ) (a d : ℚ) : a ^ 2 ≤ (n : ℚ) ^ 2 * d ↔
    a.num ^ 2 * d.den ≤ n ^ 2 * (d.num * a.den ^ 2) := by
  have hd : (0 : ℚ) < d.den := by exact_mod_cast d.den_pos
  have ha : (0 : ℚ) < (a.den : ℚ) ^ 2 := by
    have : (0 : ℚ) < a.den := by exact_mod_cast a.den_pos
    positivity
  conv_lhs => rw [← Rat.num_div_den a, ← Rat.num_div_den d]
  rw [div_pow, ← mul_div_assoc, div_le_div_iff₀ ha hd, mul_assoc]
  exact_mod_cast Iff.rfl

/-- **The integers decide it.** -/
theorem scaledRootLe_iff {n : ℤ} {a d : ℚ} (hd : 0 < d) :
    ScaledRootLe n a d ↔ (n : ℝ) * √(d : ℝ) ≤ a := by
  have hd' : (0 : ℝ) ≤ d := by exact_mod_cast hd.le
  rw [ScaledRootLe]
  split
  · rename_i hn
    have hroot : (n : ℝ) * √(d : ℝ) = √((n : ℝ) ^ 2 * d) := by
      rw [Real.sqrt_mul (sq_nonneg _), Real.sqrt_sq (by exact_mod_cast hn)]
    rw [hroot, Real.sqrt_le_iff, Rat.num_nonneg, ← scaled_sq_le_iff]
    exact_mod_cast Iff.rfl
  · rename_i hn
    have hroot : (n : ℝ) * √(d : ℝ) = -√((n : ℝ) ^ 2 * d) := by
      have hneg : (n : ℝ) ≤ 0 := by exact_mod_cast (not_le.mp hn).le
      rw [Real.sqrt_mul (sq_nonneg _), Real.sqrt_sq_eq_abs, abs_of_nonpos hneg]
      ring
    rw [hroot, Rat.num_neg, ← sq_le_scaled_iff]
    by_cases ha : a < 0
    · have hpos : (0 : ℝ) < -a := by
        have : (a : ℝ) < 0 := by exact_mod_cast ha
        linarith
      rw [neg_le, Real.le_sqrt' hpos, neg_sq]
      simp only [ha, true_implies]
      exact_mod_cast Iff.rfl
    · have hnonneg : (0 : ℝ) ≤ a := by exact_mod_cast not_lt.mp ha
      simp only [ha, false_implies, true_iff]
      exact (neg_nonpos.mpr (Real.sqrt_nonneg _)).trans hnonneg

end WagmiBench.Lib
