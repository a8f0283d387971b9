import WagmiBench.Core.Rounding

/-!
# Costs and the multiplier

What `calculate_fill` computes, step by step, and that every step is monotone in the cost
multiplier: the higher multiplier fills the same quantity at a worse price for a higher fee rate.
-/

namespace WagmiBench.Core

open WagmiBench.Lib

/-! ## Scaled rates and charges -/

/-- A base rate under a multiplier. -/
def scaledRate (baseRate multiplier1e4 : ℤ) : ℤ :=
  ⌈((baseRate * multiplier1e4 : ℤ) : ℚ) / COST_MULTIPLIER_SCALE⌉

/-- An amount charged at a rate: half spread ticks on a price, a fee on a notional. -/
def charged (amount rate1e8 : ℤ) : ℤ := ⌈((amount * rate1e8 : ℤ) : ℚ) / RATE_SCALE⌉

section Charges

variable {base rate rate' multiplier multiplier' amount amount' : ℤ}

theorem applyCostMultiplier_eq_ok :
    applyCostMultiplier base multiplier = .ok rate ↔
      0 ≤ base ∧ 0 < multiplier ∧ rate = scaledRate base multiplier := by
  simp only [applyCostMultiplier, bind_ok_iff, require_eq_ok, exists_and_left, exists_const,
    pure_eq_ok, Except.ok.injEq, ceilFraction_eq_ceil, scaledRate, eq_comm (a := rate)]

theorem feeMicro_eq_ok {fee : ℤ} :
    feeMicro amount rate = .ok fee ↔ (0 ≤ amount ∧ 0 ≤ rate) ∧ fee = charged amount rate := by
  simp only [feeMicro, bind_ok_iff, require_eq_ok, exists_const, pure_eq_ok, Except.ok.injEq,
    ceilFraction_eq_ceil, charged, eq_comm (a := fee)]

theorem halfSpreadTicks_eq_ok {ticks : ℤ} :
    halfSpreadTicks amount rate = .ok ticks ↔
      0 < amount ∧ 0 ≤ rate ∧ ticks = charged amount rate := by
  simp only [halfSpreadTicks, bind_ok_iff, require_eq_ok, exists_and_left, exists_const,
    pure_eq_ok, Except.ok.injEq, ceilFraction_eq_ceil, charged, eq_comm (a := ticks)]

theorem scaledRate_nonneg (hbase : 0 ≤ base) (hm : 0 < multiplier) :
    0 ≤ scaledRate base multiplier :=
  Int.ceil_nonneg (div_nonneg (by exact_mod_cast mul_nonneg hbase hm.le) (by norm_num))

theorem scaledRate_mono (hbase : 0 ≤ base) (hm : multiplier ≤ multiplier') :
    scaledRate base multiplier ≤ scaledRate base multiplier' := by
  have hmul : base * multiplier ≤ base * multiplier' := mul_le_mul_of_nonneg_left hm hbase
  exact Int.ceil_le_ceil (div_le_div_of_nonneg_right (by exact_mod_cast hmul) (by norm_num))

theorem charged_nonneg (hamount : 0 ≤ amount) (hrate : 0 ≤ rate) : 0 ≤ charged amount rate :=
  Int.ceil_nonneg (div_nonneg (by exact_mod_cast mul_nonneg hamount hrate) (by norm_num))

theorem charged_mono (hamount : 0 ≤ amount) (hrate : 0 ≤ rate) (ha : amount ≤ amount')
    (hr : rate ≤ rate') : charged amount rate ≤ charged amount' rate' := by
  have hmul : amount * rate ≤ amount' * rate' := mul_le_mul ha hr hrate (hamount.trans ha)
  exact Int.ceil_le_ceil (div_le_div_of_nonneg_right (by exact_mod_cast hmul) (by norm_num))

/-- What is left after a charge at a rate of at most one: it grows with the amount and shrinks with
the rate. -/
theorem sub_charged_mono (hamount : 0 ≤ amount') (ha : amount' ≤ amount) (hr : rate ≤ rate')
    (hone : rate' ≤ RATE_SCALE) : amount' - charged amount' rate' ≤ amount - charged amount rate := by
  -- both sides are floors of `amount * (1 - rate)`
  have left : ∀ a r : ℤ, a - charged a r = ⌊((a * (RATE_SCALE - r) : ℤ) : ℚ) / RATE_SCALE⌋ := by
    intro a r
    have hexact : ((a * (RATE_SCALE - r) : ℤ) : ℚ) / RATE_SCALE =
        a + -(((a * r : ℤ) : ℚ) / RATE_SCALE) := by
      push_cast
      ring
    rw [hexact, Int.floor_intCast_add, Int.floor_neg, charged, sub_eq_add_neg]
  have hmul : amount' * (RATE_SCALE - rate') ≤ amount * (RATE_SCALE - rate) :=
    mul_le_mul ha (by omega) (by omega) (hamount.trans ha)
  rw [left, left]
  exact Int.floor_le_floor (div_le_div_of_nonneg_right (by exact_mod_cast hmul) (by norm_num))

end Charges

/-! ## Impact -/

section Impact

variable {ref filled volume coeff coeff' ticks ticks' : ℤ} {model : ImpactModel}

theorem impactTicks_nonneg (h : impactTicks ref filled volume coeff model = .ok ticks) :
    0 ≤ ticks := by
  simp only [impactTicks, bind_ok_iff, require_eq_ok] at h
  obtain ⟨-, href, -, ⟨hfilled, hcoeff⟩, h⟩ := h
  split at h
  · exact (Except.ok.inj h).le
  · simp only [bind_ok_iff, require_eq_ok] at h
    obtain ⟨-, hvolume, -, -, h⟩ := h
    cases model with
    | linear =>
      rw [← Except.ok.inj h]
      exact ceilFraction_nonneg (div_nonneg (by exact_mod_cast by positivity)
        (by exact_mod_cast by positivity))
    | sqrt => exact (ceilSqrtFraction_eq_ok h).2.1

/-- A higher coefficient never moves the price less. -/
theorem impactTicks_mono (hcoeff : coeff ≤ coeff')
    (h : impactTicks ref filled volume coeff model = .ok ticks)
    (h' : impactTicks ref filled volume coeff' model = .ok ticks') : ticks ≤ ticks' := by
  have hnonneg := impactTicks_nonneg h'
  simp only [impactTicks, bind_ok_iff, require_eq_ok] at h h'
  obtain ⟨-, href, -, ⟨hfilled, hc⟩, h⟩ := h
  obtain ⟨-, -, -, -, h'⟩ := h'
  split at h
  · exact (Except.ok.inj h).symm.le.trans hnonneg
  · rename_i hsome
    rw [if_neg (by omega)] at h'
    simp only [bind_ok_iff, require_eq_ok] at h h'
    obtain ⟨-, hvolume, -, -, h⟩ := h
    obtain ⟨-, -, -, -, h'⟩ := h'
    cases model with
    | linear =>
      have hmul : ref * coeff * filled ≤ ref * coeff' * filled := by gcongr
      rw [← Except.ok.inj h, ← Except.ok.inj h']
      exact ceilFraction_mono (div_le_div_of_nonneg_right (by exact_mod_cast hmul)
        (by exact_mod_cast by positivity))
    | sqrt =>
      have hmul : ref * ref * coeff * coeff * filled ≤ ref * ref * coeff' * coeff' * filled := by
        have hc' : 0 ≤ coeff' := by omega
        gcongr
      exact ceilSqrtFraction_mono (div_le_div_of_nonneg_right (by exact_mod_cast hmul)
        (by exact_mod_cast by positivity)) h h'

end Impact

/-! ## The fill -/

/-- What a calculated fill is made of. -/
structure FillComputed (fill : FillCalculation) (side : Side)
    (requested volume cap step ref tick spread impact : ℤ) (model : ImpactModel)
    (taker multiplier : ℤ) : Prop where
  bases : 0 ≤ spread ∧ 0 ≤ impact ∧ 0 ≤ taker
  multiplier_pos : 0 < multiplier
  prices : 0 < ref ∧ 0 < tick
  side_eq : fill.side = side
  ref_open : fill.refOpenPxTicks = ref
  quantities : participationFill requested volume cap step = .ok fill.quantities
  halfSpread : fill.halfSpreadTicks = charged ref (scaledRate spread multiplier)
  impact : impactTicks ref fill.quantities.filledQtyBase1e8 volume (scaledRate impact multiplier)
    model = .ok fill.impactTicks
  price_pos : 0 < fill.fillPxTicks
  price : fill.fillPxTicks = if side = .buy then ref + (fill.halfSpreadTicks + fill.impactTicks)
    else ref - (fill.halfSpreadTicks + fill.impactTicks)
  notional : fill.notionalMicro =
    |fill.quantities.filledQtyBase1e8| * fill.fillPxTicks * tick / QTY_SCALE
  reference : fill.referenceNotionalMicro =
    |fill.quantities.filledQtyBase1e8| * ref * tick / QTY_SCALE
  fee : fill.feeMicro = charged fill.notionalMicro (scaledRate taker multiplier)
  slippage : fill.slippage1e8 = ⌊(((fill.fillPxTicks - ref) * RATE_SCALE : ℤ) : ℚ) / ref⌋

section Fill

variable {side : Side} {requested volume cap step ref tick spread impact : ℤ} {model : ImpactModel}
  {taker multiplier multiplier' : ℤ} {fill fill' : FillCalculation}

theorem calculateFill_computed (h : calculateFill side requested volume cap step ref tick spread
    impact model taker multiplier = .ok fill) :
    FillComputed fill side requested volume cap step ref tick spread impact model taker multiplier := by
  simp only [calculateFill, bind_ok_iff, pure_eq_ok, Except.ok.injEq, applyCostMultiplier_eq_ok,
    halfSpreadTicks_eq_ok, feeMicro_eq_ok, fillPriceTicks, notionalMicro, slippage1e8,
    require_eq_ok, floorFraction_eq_floor] at h
  obtain ⟨quantities, hq, _, ⟨hspread, hm, rfl⟩, _, ⟨himpact, -, rfl⟩, _, ⟨htaker, -, rfl⟩, _,
    ⟨href, -, rfl⟩, ticks, hticks, px, ⟨-, -, -, -, -, hpx, rfl⟩, _, ⟨-, ⟨-, htick⟩, rfl⟩, _,
    ⟨-, -, rfl⟩, _, ⟨-, rfl⟩, _, ⟨-, -, rfl⟩, rfl⟩ := h
  exact ⟨⟨hspread, himpact, htaker⟩, hm, ⟨href, htick⟩, rfl, rfl, hq, rfl, hticks, hpx, rfl, rfl, rfl,
    rfl, rfl⟩

/-- The price moves against the taker by the spread and the impact. -/
theorem FillComputed.adverse (h : FillComputed fill side requested volume cap step ref tick
    spread impact model taker multiplier) : 0 ≤ fill.halfSpreadTicks ∧ 0 ≤ fill.impactTicks :=
  ⟨h.halfSpread ▸ charged_nonneg h.prices.1.le (scaledRate_nonneg h.bases.1 h.multiplier_pos),
    impactTicks_nonneg h.impact⟩

theorem FillComputed.notional_nonneg (h : FillComputed fill side requested volume cap step
    ref tick spread impact model taker multiplier) : 0 ≤ fill.notionalMicro := by
  rw [h.notional]
  exact Int.ediv_nonneg (mul_nonneg (mul_nonneg (abs_nonneg _) h.price_pos.le) h.prices.2.le)
    (by decide)

/-- The notional of one quantity follows the price. -/
theorem notional_mono {qty px px' tick : ℤ} (htick : 0 < tick) (h : px ≤ px') :
    |qty| * px * tick / QTY_SCALE ≤ |qty| * px' * tick / QTY_SCALE :=
  Int.ediv_le_ediv (by decide)
    (mul_le_mul_of_nonneg_right (mul_le_mul_of_nonneg_left h (abs_nonneg _)) htick.le)

/-- Further from the reference price on the same side is no less slippage. -/
theorem abs_slippage_mono {ref a b : ℤ} (href : 0 < ref) (h : 0 ≤ a ∧ a ≤ b ∨ b ≤ a ∧ a ≤ 0) :
    |⌊((a * RATE_SCALE : ℤ) : ℚ) / ref⌋| ≤ |⌊((b * RATE_SCALE : ℤ) : ℚ) / ref⌋| := by
  have href' : (0 : ℚ) ≤ ref := by exact_mod_cast href.le
  have mono : ∀ {x y : ℤ}, x ≤ y →
      ⌊((x * RATE_SCALE : ℤ) : ℚ) / ref⌋ ≤ ⌊((y * RATE_SCALE : ℤ) : ℚ) / ref⌋ := fun hxy =>
    Int.floor_le_floor (div_le_div_of_nonneg_right
      (by exact_mod_cast mul_le_mul_of_nonneg_right hxy (by decide : (0 : ℤ) ≤ RATE_SCALE)) href')
  have zero : ⌊((0 * RATE_SCALE : ℤ) : ℚ) / ref⌋ = 0 := by simp
  rcases h with ⟨ha, hab⟩ | ⟨hba, ha⟩
  · rw [abs_of_nonneg (zero ▸ mono ha), abs_of_nonneg (zero ▸ mono (ha.trans hab))]
    exact mono hab
  · rw [abs_of_nonpos (zero ▸ mono ha), abs_of_nonpos (zero ▸ mono (hba.trans ha)), neg_le_neg_iff]
    exact mono hba

/-- **Higher cost multipliers never help.** Two fills of one order under a lower and a higher
multiplier have the same quantities; the higher one buys dearer and for more, sells cheaper and for
less, and slips at least as far from the reference price. -/
theorem calculateFill_costs_mono
    (h : calculateFill side requested volume cap step ref tick spread impact model taker multiplier =
      .ok fill)
    (h' : calculateFill side requested volume cap step ref tick spread impact model taker
      multiplier' = .ok fill') (hm : multiplier ≤ multiplier') :
    fill'.quantities = fill.quantities ∧
      (side = .buy → fill.fillPxTicks ≤ fill'.fillPxTicks ∧ fill.feeMicro ≤ fill'.feeMicro ∧
        fill.notionalMicro + fill.feeMicro ≤ fill'.notionalMicro + fill'.feeMicro) ∧
      (side = .sell → fill'.fillPxTicks ≤ fill.fillPxTicks ∧
        ∀ rate, applyCostMultiplier taker multiplier' = .ok rate → rate ≤ RATE_SCALE →
          fill'.notionalMicro - fill'.feeMicro ≤ fill.notionalMicro - fill.feeMicro) ∧
      |fill.slippage1e8| ≤ |fill'.slippage1e8| := by
  have c := calculateFill_computed h
  have c' := calculateFill_computed h'
  obtain ⟨hspread, himpact, htaker⟩ := c.bases
  have same : fill'.quantities = fill.quantities :=
    Except.ok.inj (c'.quantities.symm.trans c.quantities)
  have spreads : fill.halfSpreadTicks ≤ fill'.halfSpreadTicks := by
    rw [c.halfSpread, c'.halfSpread]
    exact charged_mono c.prices.1.le (scaledRate_nonneg hspread c.multiplier_pos) le_rfl
      (scaledRate_mono hspread hm)
  have impacts : fill.impactTicks ≤ fill'.impactTicks := by
    have := c'.impact
    rw [same] at this
    exact impactTicks_mono (scaledRate_mono himpact hm) c.impact this
  have fees := scaledRate_mono htaker hm
  obtain ⟨hs, hi⟩ := c.adverse
  refine ⟨same, fun hside => ?_, fun hside => ?_, ?_⟩
  · have price : fill.fillPxTicks ≤ fill'.fillPxTicks := by
      rw [c.price, c'.price, if_pos hside, if_pos hside]
      omega
    have notional : fill.notionalMicro ≤ fill'.notionalMicro := by
      rw [c.notional, c'.notional, same]
      exact notional_mono c.prices.2 price
    have fee : fill.feeMicro ≤ fill'.feeMicro := by
      rw [c.fee, c'.fee]
      exact charged_mono c.notional_nonneg (scaledRate_nonneg htaker c.multiplier_pos) notional fees
    exact ⟨price, fee, by omega⟩
  · have hsell : side ≠ .buy := by rw [hside]; decide
    have price : fill'.fillPxTicks ≤ fill.fillPxTicks := by
      rw [c.price, c'.price, if_neg hsell, if_neg hsell]
      omega
    refine ⟨price, fun rate hrate hone => ?_⟩
    obtain ⟨-, -, rfl⟩ := applyCostMultiplier_eq_ok.mp hrate
    rw [c.fee, c'.fee]
    refine sub_charged_mono c'.notional_nonneg ?_ fees hone
    rw [c.notional, c'.notional, same]
    exact notional_mono c.prices.2 price
  · rw [c.slippage, c'.slippage, c.price, c'.price]
    split
    · exact abs_slippage_mono c.prices.1 (.inl ⟨by omega, by omega⟩)
    · exact abs_slippage_mono c.prices.1 (.inr ⟨by omega, by omega⟩)

/-- One order to sell under once and under twice the base costs. -/
theorem calculateFill_costs_mono_stress :
    ∃ primary stress, calculateFill .sell 1_000 1_000_000 100_000_000 10 10_000 10_000 50_000 1_000
        .linear 45_000 10_000 = .ok primary ∧
      calculateFill .sell 1_000 1_000_000 100_000_000 10 10_000 10_000 50_000 1_000 .linear 45_000
        20_000 = .ok stress ∧
      stress.quantities = primary.quantities ∧ stress.fillPxTicks ≤ primary.fillPxTicks := by
  have primary : Returns (calculateFill .sell 1_000 1_000_000 100_000_000 10 10_000 10_000 50_000
    1_000 .linear 45_000 10_000) := by decide +kernel
  have stress : Returns (calculateFill .sell 1_000 1_000_000 100_000_000 10 10_000 10_000 50_000
    1_000 .linear 45_000 20_000) := by decide +kernel
  obtain ⟨primary, h⟩ := primary
  obtain ⟨stress, h'⟩ := stress
  have mono := calculateFill_costs_mono h h' (by decide)
  exact ⟨primary, stress, h, h', mono.1, (mono.2.2.1 rfl).1⟩

end Fill

end WagmiBench.Core
