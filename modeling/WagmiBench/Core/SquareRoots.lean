import WagmiBench.Core.Metrics
import WagmiBench.Core.Rounding
import WagmiBench.Lib.SquareRoot

/-!
# Exact square roots

`ceil_sqrt_fraction` and `floor_ratio_over_sqrt` are the ceiling and the floor they are named after,
and with them the square-root impact of a fill and the Sortino ratio are rounded once, from the real
number.
-/

namespace WagmiBench.Core

open WagmiBench.Lib

/-- The root both helpers take. -/
theorem sqrt_floorFraction (v : ℚ) : (floorFraction v).toNat.sqrt = isqrtFloor v := by
  rw [floorFraction_eq_floor, isqrtFloor]

theorem sqrt_ediv (v : ℚ) : (v.num / v.den).toNat.sqrt = isqrtFloor v := sqrt_floorFraction v

theorem ceilSqrtFraction_eq {v : ℚ} (hv : 0 ≤ v) :
    ceilSqrtFraction v = .ok ⌈√(v : ℝ)⌉ := by
  have hexact : (isqrtFloor v : ℤ) * isqrtFloor v * v.den = v.num ↔ (isqrtFloor v : ℚ) ^ 2 = v := by
    have hden : (v.den : ℚ) ≠ 0 := by exact_mod_cast v.den_nz
    conv_rhs => rw [← Rat.num_div_den v, eq_div_iff hden, pow_two, Rat.num_div_den]
    exact_mod_cast Iff.rfl
  rw [ceilSqrtFraction, require_pos hv, ceil_sqrt hv]
  simp only [ok_bind, sqrt_ediv, hexact]
  split <;> rfl

/-- A root is exact only in an integer. -/
theorem isqrtFloor_exact_iff (v : ℚ) :
    v.den = 1 ∧ (isqrtFloor v : ℤ) * isqrtFloor v = v.num ↔ (isqrtFloor v : ℚ) ^ 2 = v := by
  constructor
  · rintro ⟨hden, hnum⟩
    have hint : v = v.num := by
      conv_lhs => rw [← Rat.num_div_den v, hden, Nat.cast_one, div_one]
    rw [pow_two]
    conv_rhs => rw [hint, ← hnum]
    push_cast
    ring
  · intro h
    have hint : v = ((isqrtFloor v * isqrtFloor v : ℕ) : ℤ) := by
      push_cast
      rw [← pow_two, h]
    constructor
    · rw [hint, Rat.den_intCast]
    · conv_rhs => rw [hint, Rat.num_intCast]
      push_cast
      ring

theorem floorRatioOverSqrt_eq {a d : ℚ} (hd : 0 < d) :
    floorRatioOverSqrt a d = .ok ⌊(a : ℝ) / √(d : ℝ)⌋ := by
  have hsquared : 0 ≤ a * a / d := div_nonneg (mul_self_nonneg a) hd.le
  have hroot : √((a * a / d : ℚ) : ℝ) = |(a : ℝ)| / √(d : ℝ) := by
    push_cast
    rw [Real.sqrt_div (mul_self_nonneg _), Real.sqrt_mul_self_eq_abs]
  rw [floorRatioOverSqrt, require_pos hd]
  simp only [ok_bind, sqrt_floorFraction, isqrtFloor_exact_iff]
  by_cases ha : 0 ≤ a
  · have habs : |(a : ℝ)| = a := abs_of_nonneg (by exact_mod_cast ha)
    rw [if_pos ha, ← habs, ← hroot, floor_sqrt hsquared]
    rfl
  · have habs : (a : ℝ) / √(d : ℝ) = -√((a * a / d : ℚ) : ℝ) := by
      have : (a : ℝ) < 0 := by exact_mod_cast not_le.mp ha
      rw [hroot, abs_of_neg this]
      ring
    rw [if_neg ha, habs, Int.floor_neg, ceil_sqrt hsquared]
    rfl

/-! ## The helpers -/

theorem ceilSqrtFraction_isLeast {x : ℚ} (hx : 0 ≤ x) :
    IsLeast {m : ℤ | 0 ≤ m ∧ x ≤ (m : ℚ) ^ 2} ⌈√(x : ℝ)⌉ := by
  obtain ⟨-, hnonneg, hle, least⟩ := ceilSqrtFraction_eq_ok (ceilSqrtFraction_eq hx)
  refine ⟨⟨hnonneg, by rwa [pow_two]⟩, ?_⟩
  rintro m ⟨hm, hxm⟩
  exact least m hm (by rwa [pow_two] at hxm)

theorem floorRatioOverSqrt_isGreatest {a d : ℚ} (hd : 0 < d) :
    IsGreatest {m : ℤ | ScaledRootLe m a d} ⌊(a : ℝ) / √(d : ℝ)⌋ := by
  have hroot : (0 : ℝ) < √(d : ℝ) := Real.sqrt_pos.mpr (by exact_mod_cast hd)
  have hiff : ∀ m : ℤ, ScaledRootLe m a d ↔ m ≤ ⌊(a : ℝ) / √(d : ℝ)⌋ := fun m => by
    rw [scaledRootLe_iff hd, Int.le_floor, le_div_iff₀ hroot]
  exact ⟨(hiff _).mpr le_rfl, fun m hm => (hiff m).mp hm⟩

/-- **The square-root helpers are exact.** The first is the least integer whose square is not below
its argument. The second is the greatest integer not above the ratio, as a real number and, with the
signs told apart, in integers: `n * √d ≤ a < (n + 1) * √d`. -/
theorem squareRoots_exact :
    (∀ x : ℚ, 0 ≤ x → ∃ n : ℤ, ceilSqrtFraction x = .ok n ∧
      IsLeast {m : ℤ | 0 ≤ m ∧ x ≤ (m : ℚ) ^ 2} n) ∧
    ∀ a d : ℚ, 0 < d → ∃ n : ℤ, floorRatioOverSqrt a d = .ok n ∧
      IsGreatest {m : ℤ | (m : ℝ) ≤ a / √(d : ℝ)} n ∧
      IsGreatest {m : ℤ | ScaledRootLe m a d} n ∧
      ScaledRootLe n a d ∧ ¬ ScaledRootLe (n + 1) a d := by
  refine ⟨fun x hx => ⟨_, ceilSqrtFraction_eq hx, ceilSqrtFraction_isLeast hx⟩, fun a d hd => ?_⟩
  have hgreatest := floorRatioOverSqrt_isGreatest (a := a) hd
  have hfloor : IsGreatest {m : ℤ | (m : ℝ) ≤ a / √(d : ℝ)} ⌊(a : ℝ) / √(d : ℝ)⌋ :=
    ⟨Int.floor_le ((a : ℝ) / √(d : ℝ)), fun m hm => Int.le_floor.mpr hm⟩
  refine ⟨_, floorRatioOverSqrt_eq hd, hfloor, hgreatest, hgreatest.1, fun hnext => ?_⟩
  have := hgreatest.2 hnext
  omega

/-- The root of two, and a negative ratio that is no integer. -/
theorem squareRoots_of_two :
    (∃ n : ℤ, ceilSqrtFraction 2 = .ok n ∧ IsLeast {m : ℤ | 0 ≤ m ∧ (2 : ℚ) ≤ (m : ℚ) ^ 2} n) ∧
    ∃ n : ℤ, floorRatioOverSqrt (-1) 2 = .ok n ∧
      IsGreatest {m : ℤ | (m : ℝ) ≤ ((-1 : ℚ) : ℝ) / √((2 : ℚ) : ℝ)} n ∧
      IsGreatest {m : ℤ | ScaledRootLe m (-1) 2} n ∧
      ScaledRootLe n (-1) 2 ∧ ¬ ScaledRootLe (n + 1) (-1) 2 :=
  ⟨squareRoots_exact.1 2 (by norm_num), squareRoots_exact.2 (-1) 2 (by norm_num)⟩

/-! ## What rests on them -/

/-- The impact of a fill under the square-root model, rounded up once. -/
theorem impactTicks_sqrt {refPxTicks filledQtyBase1e8 barVolumeBase1e8 impactCoeff1e8 r : ℤ}
    (h : impactTicks refPxTicks filledQtyBase1e8 barVolumeBase1e8 impactCoeff1e8 .sqrt = .ok r) :
    r = ⌈(refPxTicks : ℝ) * (impactCoeff1e8 / RATE_SCALE) *
      √(filledQtyBase1e8 / barVolumeBase1e8 : ℝ)⌉ := by
  simp only [impactTicks, bind_ok_iff, require_eq_ok] at h
  obtain ⟨-, href, -, ⟨hfilled, hcoeff⟩, h⟩ := h
  split at h
  · rename_i hzero
    obtain rfl := Except.ok.inj h
    rcases hzero with hzero | hzero <;> simp [hzero]
  · simp only [bind_ok_iff, require_eq_ok] at h
    obtain ⟨-, hvolume, -, -, h⟩ := h
    have hscale : (0 : ℝ) ≤ refPxTicks * (impactCoeff1e8 / RATE_SCALE) := by
      have : (0 : ℝ) ≤ refPxTicks := by exact_mod_cast href.le
      have : (0 : ℝ) ≤ impactCoeff1e8 := by exact_mod_cast hcoeff
      positivity
    have hsquare : (((refPxTicks * refPxTicks * impactCoeff1e8 * impactCoeff1e8 *
        filledQtyBase1e8 : ℤ) / (RATE_SCALE * RATE_SCALE * barVolumeBase1e8 : ℤ) : ℚ) : ℝ) =
        (refPxTicks * (impactCoeff1e8 / RATE_SCALE)) ^ 2 *
          (filledQtyBase1e8 / barVolumeBase1e8 : ℝ) := by
      have : (barVolumeBase1e8 : ℝ) ≠ 0 := by exact_mod_cast hvolume.ne'
      push_cast
      field_simp
    rw [ceilSqrtFraction_eq (ceilSqrtFraction_eq_ok h).1, hsquare,
      Real.sqrt_mul (sq_nonneg _), Real.sqrt_sq hscale] at h
    exact (Except.ok.inj h).symm

/-- The Sortino ratio, rounded down once. -/
theorem sortino1e8_eq {returns : List ℚ} {r : ℤ} (h : sortino1e8 returns = .ok r) :
    r = ⌊((returns.sum / returns.length * RATE_SCALE : ℚ) : ℝ) /
      √(((returns.map fun value => min value 0 * min value 0).sum / returns.length : ℚ) : ℝ)⌋ := by
  simp only [sortino1e8, bind_ok_iff, require_eq_ok] at h
  obtain ⟨-, -, -, hpos, h⟩ := h
  rw [floorRatioOverSqrt_eq hpos] at h
  exact (Except.ok.inj h).symm

end WagmiBench.Core
