import Mathlib.Data.Nat.Sqrt
import WagmiBench.Core.Math

/-!
# Rounding

`floorFraction`, `ceilFraction` and `ceilSqrtFraction` as the mathematical floor, ceiling and least
upper integer root, and what follows for the order of rounded values.
-/

namespace WagmiBench.Core

open WagmiBench.Lib

theorem ceilFraction_eq_ceil (q : ℚ) : ceilFraction q = ⌈q⌉ := by
  rw [ceilFraction, ← neg_neg ⌈q⌉, ← Int.floor_neg, ← floorFraction_eq_floor, floorFraction,
    Rat.num_neg_eq_neg_num, Rat.den_neg_eq_den]

theorem floorFraction_mono {p q : ℚ} (h : p ≤ q) : floorFraction p ≤ floorFraction q := by
  rw [floorFraction_eq_floor, floorFraction_eq_floor]
  exact Int.floor_le_floor h

theorem ceilFraction_mono {p q : ℚ} (h : p ≤ q) : ceilFraction p ≤ ceilFraction q := by
  rw [ceilFraction_eq_ceil, ceilFraction_eq_ceil]
  exact Int.ceil_le_ceil h

theorem ceilFraction_nonneg {q : ℚ} (h : 0 ≤ q) : 0 ≤ ceilFraction q := by
  rw [ceilFraction_eq_ceil]
  exact Int.ceil_nonneg h

/-- `ceil_sqrt_fraction` is the least integer whose square is not below the value. -/
theorem ceilSqrtFraction_eq_ok {v : ℚ} {r : ℤ} (h : ceilSqrtFraction v = .ok r) :
    0 ≤ v ∧ 0 ≤ r ∧ v ≤ r * r ∧ ∀ k : ℤ, 0 ≤ k → v ≤ k * k → r ≤ k := by
  simp only [ceilSqrtFraction, bind_ok_iff, require_eq_ok] at h
  obtain ⟨-, hv, h⟩ := h
  refine ⟨hv, ?_⟩
  set s : ℕ := (v.num / v.den).toNat.sqrt with hs
  have hfloor : ((v.num / v.den).toNat : ℤ) = ⌊v⌋ := by
    rw [← floorFraction_eq_floor, floorFraction, Int.toNat_of_nonneg]
    exact Int.ediv_nonneg (Rat.num_nonneg.mpr hv) (by positivity)
  have hle : ((s * s : ℕ) : ℚ) ≤ v := by
    have hsq : ((s * s : ℕ) : ℤ) ≤ ⌊v⌋ := hfloor ▸ Int.ofNat_le.mpr (Nat.sqrt_le _)
    exact_mod_cast Int.le_floor.mp hsq
  have hlt : v < ((s + 1) * (s + 1) : ℕ) := by
    have hsq : ⌊v⌋ < (((s + 1) * (s + 1) : ℕ) : ℤ) :=
      hfloor ▸ Int.ofNat_lt.mpr (Nat.lt_succ_sqrt _)
    exact_mod_cast Int.floor_lt.mp hsq
  have below : ∀ k : ℤ, 0 ≤ k → v ≤ k * k → (s : ℤ) ≤ k := by
    intro k hk hvk
    by_contra hks
    have hmul : k * k < s * s := by nlinarith
    have : ((k * k : ℤ) : ℚ) < ((s * s : ℤ) : ℚ) := by exact_mod_cast hmul
    push_cast at this hle
    linarith
  split at h
  · rename_i hexact
    obtain rfl := Except.ok.inj h
    have heq : v = s * s := by
      rw [← Rat.num_div_den v, ← hexact]
      push_cast
      field_simp
    exact ⟨by positivity, by rw [heq]; push_cast; exact le_rfl, below⟩
  · rename_i hexact
    obtain rfl := Except.ok.inj h
    refine ⟨by positivity, by push_cast at hlt ⊢; linarith, fun k hk hvk => ?_⟩
    have hne : (s : ℤ) ≠ k := by
      rintro rfl
      apply hexact
      have heq : v = s * s := le_antisymm (by exact_mod_cast hvk) (by exact_mod_cast hle)
      have hden : (v.den : ℚ) ≠ 0 := by exact_mod_cast v.den_nz
      have hnum : (v.num : ℚ) = s * s * v.den := by
        rw [← heq, Rat.mul_den_eq_num]
      exact_mod_cast hnum.symm
    have := below k hk hvk
    omega

theorem ceilSqrtFraction_mono {v w : ℚ} {r t : ℤ} (h : v ≤ w) (hr : ceilSqrtFraction v = .ok r)
    (ht : ceilSqrtFraction w = .ok t) : r ≤ t := by
  obtain ⟨-, -, -, least⟩ := ceilSqrtFraction_eq_ok hr
  obtain ⟨-, hnonneg, hle, -⟩ := ceilSqrtFraction_eq_ok ht
  exact least t hnonneg (h.trans hle)

end WagmiBench.Core
