import WagmiBench.Core.Rounding

/-!
# Liquidation triggers

The trigger of `liquidation_price_ticks` is a rounded solution of `equity = maintenance` for one unit
of an isolated position. Where the adverse extreme of a bar stays clear of the trigger, the equity
stays above the maintenance on the whole bar; where it does not, one more tick brings it there.
-/

namespace WagmiBench.Core

open WagmiBench.Lib

/-- Equity of one unit: the margin `entry / leverage` and what the price moved in its favour. -/
def isolatedEquity (entry leverage1e4 positionSign : ℤ) (price : ℚ) : ℚ :=
  entry * LEVERAGE_SCALE / leverage1e4 + positionSign * (price - entry)

/-- Maintenance of one unit. -/
def exactMaintenance (rate1e8 : ℤ) (price : ℚ) : ℚ := price * rate1e8 / RATE_SCALE

/-- The price at which a unit has exactly its maintenance left. -/
def exactTrigger (entry leverage1e4 positionSign rate1e8 : ℤ) : ℚ :=
  entry * ((leverage1e4 - positionSign * LEVERAGE_SCALE : ℤ) / (leverage1e4 : ℚ)) /
    ((RATE_SCALE - positionSign * rate1e8 : ℤ) / (RATE_SCALE : ℚ))

section Trigger

variable {entry lev rate : ℤ}

/-- Equity exceeds maintenance by the scaled distance of the price from the exact trigger. -/
theorem equity_sub_maintenance {s : ℤ} (hs : s = -1 ∨ s = 1) (hlev : 0 < lev)
    (hrate : 0 ≤ rate ∧ rate < RATE_SCALE) (price : ℚ) :
    isolatedEquity entry lev s price - exactMaintenance rate price =
      (RATE_SCALE - s * rate : ℤ) / (RATE_SCALE : ℚ) *
        (s * (price - exactTrigger entry lev s rate)) := by
  have hlev' : (lev : ℚ) ≠ 0 := by exact_mod_cast hlev.ne'
  have hrate' : (0 : ℚ) ≤ rate ∧ (rate : ℚ) < 100_000_000 :=
    ⟨by exact_mod_cast hrate.1, by exact_mod_cast hrate.2⟩
  simp only [isolatedEquity, exactMaintenance, exactTrigger]
  rcases hs with rfl | rfl
  · have hden : (100_000_000 + rate : ℚ) ≠ 0 := by linarith
    push_cast
    simp only [neg_mul, one_mul, sub_neg_eq_add]
    field_simp
    ring
  · have hden : (100_000_000 - rate : ℚ) ≠ 0 := by linarith
    push_cast
    simp only [one_mul]
    field_simp
    ring

/-- On the safe side of the exact trigger, and only there, equity is above maintenance. -/
theorem maintenance_lt_equity {s : ℤ} (hs : s = -1 ∨ s = 1) (hlev : 0 < lev)
    (hrate : 0 ≤ rate ∧ rate < RATE_SCALE) {price : ℚ} :
    exactMaintenance rate price < isolatedEquity entry lev s price ↔
      0 < s * (price - exactTrigger entry lev s rate) := by
  have scale : (0 : ℚ) < (RATE_SCALE - s * rate : ℤ) / (RATE_SCALE : ℚ) := by
    have hpos : 0 < RATE_SCALE - s * rate := by rcases hs with rfl | rfl <;> omega
    exact div_pos (by exact_mod_cast hpos) (by norm_num)
  rw [← sub_pos, equity_sub_maintenance hs hlev hrate, mul_pos_iff_of_pos_left scale]

/-- A long at or below 1x is safe at every positive price. -/
theorem exactTrigger_nonpos (hentry : 0 < entry) (hlev : 0 < lev)
    (hrate : 0 ≤ rate ∧ rate < RATE_SCALE) :
    exactTrigger entry lev 1 rate ≤ 0 ↔ lev ≤ LEVERAGE_SCALE := by
  have hden : (0 : ℚ) < ((RATE_SCALE - 1 * rate : ℤ) : ℚ) / (RATE_SCALE : ℚ) :=
    div_pos (by exact_mod_cast (by omega : 0 < RATE_SCALE - 1 * rate)) (by norm_num)
  rw [exactTrigger, div_le_iff₀ hden, zero_mul, ← not_lt,
    mul_pos_iff_of_pos_left (by exact_mod_cast hentry : (0 : ℚ) < entry),
    div_pos_iff_of_pos_right (by exact_mod_cast hlev : (0 : ℚ) < lev), not_lt]
  norm_cast
  omega

theorem liquidationPriceTicks_long (hentry : 0 < entry) (hlev : 0 < lev)
    (hrate : 0 ≤ rate ∧ rate < RATE_SCALE) :
    liquidationPriceTicks entry 1 lev rate =
      .ok (if lev ≤ LEVERAGE_SCALE then 0 else ⌈exactTrigger entry lev 1 rate⌉) := by
  have hden : (0 : ℚ) < ((RATE_SCALE - 1 * rate : ℤ) : ℚ) / (RATE_SCALE : ℚ) :=
    div_pos (by exact_mod_cast (by omega : 0 < RATE_SCALE - 1 * rate)) (by norm_num)
  have numerator := exactTrigger_nonpos hentry hlev hrate
  rw [exactTrigger, div_le_iff₀ hden, zero_mul] at numerator
  simp only [one_mul] at numerator
  simp only [liquidationPriceTicks, require_pos hentry, require_pos hlev, require_pos hrate,
    ok_bind, or_true, require_pos, zero_lt_one, if_true, numerator,
    exactTrigger, one_mul, ceilFraction_eq_ceil, pure_eq_ok]
  split <;> rfl

theorem liquidationPriceTicks_short (hentry : 0 < entry) (hlev : 0 < lev)
    (hrate : 0 ≤ rate ∧ rate < RATE_SCALE) :
    liquidationPriceTicks entry (-1) lev rate = .ok ⌊exactTrigger entry lev (-1) rate⌋ := by
  simp only [liquidationPriceTicks, require_pos hentry, require_pos hlev, require_pos hrate,
    ok_bind, true_or, require_pos, exactTrigger, floorFraction_eq_floor, pure_eq_ok]
  norm_num

end Trigger

/-- The adverse extreme of a bar for a signed position. -/
def adverseExtreme (qty low high : ℤ) : ℤ := if 0 < qty then low else high

/-- **Never late, at most one tick early.** A position that a bar does not flag keeps its equity above
its maintenance at every price of the bar; one that it flags loses it one tick beyond the adverse
extreme; and a long at or below 1x is never flagged. -/
theorem liquidation_timely {qty entry lev rate low high : ℤ} (hqty : qty ≠ 0) (hentry : 0 < entry)
    (hlev : 0 < lev) (hrate : 0 ≤ rate ∧ rate < RATE_SCALE) (hlow : 0 < low) (hbar : low ≤ high) :
    ∃ liqPx crossed, liquidationPriceTicks entry (sign qty) lev rate = .ok liqPx ∧
      liquidationCrossed qty liqPx high low = .ok crossed ∧
      (crossed = false → ∀ price : ℚ, low ≤ price → price ≤ high →
        exactMaintenance rate price < isolatedEquity entry lev (sign qty) price) ∧
      (crossed = true → ∃ price : ℚ, price = adverseExtreme qty low high - sign qty ∧
        isolatedEquity entry lev (sign qty) price ≤ exactMaintenance rate price) ∧
      (0 < qty → lev ≤ LEVERAGE_SCALE → crossed = false ∧ ∀ price : ℚ, 0 < price →
        exactMaintenance rate price < isolatedEquity entry lev (sign qty) price) := by
  have hhigh : 0 < high := by omega
  rcases lt_or_gt_of_ne hqty with hneg | hpos
  · -- a short, whose trigger is the exact one rounded down
    have hsign : sign qty = -1 := by simp [sign, hneg, hneg.le]
    have hside : adverseExtreme qty low high = high := if_neg (by omega)
    rw [hsign, hside]
    have hcross : ∀ liqPx : ℤ, liquidationCrossed qty liqPx high low =
        .ok (decide (liqPx ≤ high)) := fun liqPx => by
      simp only [liquidationCrossed, require_pos (⟨hhigh, hlow⟩ : 0 < high ∧ 0 < low),
        require_pos hbar, ok_bind, if_neg (by omega : ¬ 0 < qty), if_pos hneg, pure_eq_ok]
    refine ⟨_, _, liquidationPriceTicks_short hentry hlev hrate, hcross _, ?_, ?_, by omega⟩
    · intro hclear price _ hprice
      have hclear : high < ⌊exactTrigger entry lev (-1) rate⌋ := by simpa using hclear
      have hfloor := Int.floor_le (exactTrigger entry lev (-1) rate)
      have hcast : (high : ℚ) < ⌊exactTrigger entry lev (-1) rate⌋ := by exact_mod_cast hclear
      rw [maintenance_lt_equity (.inl rfl) hlev hrate]
      push_cast
      linarith
    · intro hflag
      have hflag : ⌊exactTrigger entry lev (-1) rate⌋ ≤ high := by simpa using hflag
      have hfloor := Int.lt_floor_add_one (exactTrigger entry lev (-1) rate)
      have hcast : (⌊exactTrigger entry lev (-1) rate⌋ : ℚ) ≤ high := by exact_mod_cast hflag
      refine ⟨_, rfl, not_lt.mp ?_⟩
      rw [maintenance_lt_equity (.inl rfl) hlev hrate]
      push_cast
      linarith
  · -- a long, whose trigger is the exact one rounded up, or none
    have hsign : sign qty = 1 := by simp [sign, hpos]
    have hside : adverseExtreme qty low high = low := if_pos hpos
    rw [hsign, hside]
    have hcross : ∀ liqPx : ℤ, liquidationCrossed qty liqPx high low =
        .ok (decide (0 < liqPx ∧ low ≤ liqPx)) := fun liqPx => by
      simp only [liquidationCrossed, require_pos (⟨hhigh, hlow⟩ : 0 < high ∧ 0 < low),
        require_pos hbar, ok_bind, if_pos hpos, pure_eq_ok]
    have hnone := exactTrigger_nonpos hentry hlev hrate
    refine ⟨_, _, liquidationPriceTicks_long hentry hlev hrate, hcross _, ?_, ?_, ?_⟩
    · intro hclear price hprice _
      have hlow' : (0 : ℚ) < low := by exact_mod_cast hlow
      rw [maintenance_lt_equity (.inr rfl) hlev hrate]
      split at hclear
      · rename_i hle
        have := hnone.mpr hle
        push_cast
        linarith
      · rename_i hgt
        have hceil := Int.le_ceil (exactTrigger entry lev 1 rate)
        have htrigger : 0 < ⌈exactTrigger entry lev 1 rate⌉ :=
          Int.ceil_pos.mpr (not_le.mp fun h => hgt (hnone.mp h))
        have hclear : ⌈exactTrigger entry lev 1 rate⌉ < low := by
          simpa [htrigger] using hclear
        have hcast : (⌈exactTrigger entry lev 1 rate⌉ : ℚ) < low := by exact_mod_cast hclear
        push_cast
        linarith
    · intro hflag
      split at hflag
      · simp at hflag
      · have hflag : low ≤ ⌈exactTrigger entry lev 1 rate⌉ := by
          have := of_decide_eq_true hflag
          exact this.2
        have hceil := Int.ceil_lt_add_one (exactTrigger entry lev 1 rate)
        have hcast : (low : ℚ) ≤ ⌈exactTrigger entry lev 1 rate⌉ := by exact_mod_cast hflag
        refine ⟨_, rfl, not_lt.mp ?_⟩
        rw [maintenance_lt_equity (.inr rfl) hlev hrate]
        push_cast
        linarith
    · intro _ hle
      refine ⟨by simp [hle], fun price hprice => ?_⟩
      have := hnone.mpr hle
      rw [maintenance_lt_equity (.inr rfl) hlev hrate]
      push_cast
      linarith

/-- A three times long that a bar flags, and a 1x long that it does not. -/
theorem liquidation_timely_at_10000 :
    (∃ liqPx crossed, liquidationPriceTicks 10_000 (sign 1) 30_000 1_000_000 = .ok liqPx ∧
      liquidationCrossed 1 liqPx 10_500 6_700 = .ok crossed ∧
      (crossed = true → ∃ price : ℚ, price = adverseExtreme 1 6_700 10_500 - sign 1 ∧
        isolatedEquity 10_000 30_000 (sign 1) price ≤ exactMaintenance 1_000_000 price)) ∧
    ∃ liqPx crossed, liquidationPriceTicks 10_000 (sign 1) 10_000 1_000_000 = .ok liqPx ∧
      liquidationCrossed 1 liqPx 10_500 1 = .ok crossed ∧ crossed = false := by
  constructor
  · obtain ⟨liqPx, crossed, hliq, hcrossed, -, hflag, -⟩ := @liquidation_timely 1 10_000 30_000
      1_000_000 6_700 10_500 (by decide) (by decide) (by decide) (by decide) (by decide) (by decide)
    exact ⟨liqPx, crossed, hliq, hcrossed, hflag⟩
  · obtain ⟨liqPx, crossed, hliq, hcrossed, -, -, hsafe⟩ := @liquidation_timely 1 10_000 10_000
      1_000_000 1 10_500 (by decide) (by decide) (by decide) (by decide) (by decide) (by decide)
    exact ⟨liqPx, crossed, hliq, hcrossed, (hsafe (by decide) (by decide)).1⟩

end WagmiBench.Core
