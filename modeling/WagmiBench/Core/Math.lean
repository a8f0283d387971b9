import Mathlib.Data.Rat.Floor
import WagmiBench.Core.Exceptions

/-!
# Exact exchange arithmetic

`core/math.py` and the value objects of `core/models.py`. Money, prices, quantities, leverage and
rates are integers; `Fraction` is an exact rational and enters only through `floorFraction` and
`ceilFraction`. Python's `//` is floor division, which for the positive divisors used here is
`Int` division.
-/

namespace WagmiBench.Core

open WagmiBench.Lib

abbrev RATE_SCALE : ℤ := 100_000_000
abbrev QTY_SCALE : ℤ := 100_000_000
abbrev LEVERAGE_SCALE : ℤ := 10_000
abbrev COST_MULTIPLIER_SCALE : ℤ := 10_000

/-- `core.models.Side` -/
inductive Side where
  | buy
  | sell
  deriving DecidableEq, Repr

/-- `core.models.ImpactModel` -/
inductive ImpactModel where
  | linear
  | sqrt
  deriving DecidableEq, Repr

/-! ## Rounding -/

/-- Floor an exact rational, including negative values. -/
def floorFraction (value : ℚ) : ℤ := value.num / value.den

theorem floorFraction_eq_floor (q : ℚ) : floorFraction q = ⌊q⌋ := (Rat.floor_def q).symm

/-- Ceil an exact rational, including negative values. -/
def ceilFraction (value : ℚ) : ℤ := -(-value.num / value.den)

/-- `ceil(dividend / divisor)` for a positive divisor. -/
def ceilDiv (dividend divisor : ℤ) : Py ℤ := do
  require (0 < divisor) (.valueError "divisor must be positive")
  return -(-dividend / divisor)

/-- Round toward zero to an integer step. -/
def floorToStep (value step : ℤ) : Py ℤ := do
  require (0 < step) (.valueError "step must be positive")
  let magnitude := |value| / step * step
  return if 0 ≤ value then magnitude else -magnitude

/-- `ceil(sqrt(value))` exactly, for a non-negative rational. -/
def ceilSqrtFraction (value : ℚ) : Py ℤ := do
  require (0 ≤ value) (.valueError "square root input must be non-negative")
  let floorRoot : ℤ := (value.num / value.den).toNat.sqrt
  if floorRoot * floorRoot * value.den = value.num then
    return floorRoot
  return floorRoot + 1

/-- Scale a non-negative cost rate, rounding a fractional cost upward. -/
def applyCostMultiplier (baseRate multiplier1e4 : ℤ) : Py ℤ := do
  require (0 ≤ baseRate) (.valueError "base cost rate must be non-negative")
  require (0 < multiplier1e4) (.valueError "cost multiplier and scale must be positive")
  return ceilFraction ((baseRate * multiplier1e4 : ℤ) / COST_MULTIPLIER_SCALE)

/-! ## Sizing -/

/-- Size a target before applying the venue quantity step. -/
def rawTargetQuantityBase1e8 (targetLev1e4 equityMicro refPxTicks tickSizeMicro : ℤ) : Py ℤ := do
  require (0 ≤ equityMicro) (.valueError "equity must be non-negative")
  require (0 < refPxTicks ∧ 0 < tickSizeMicro)
    (.valueError "reference price and tick size must be positive")
  let rawAbs := floorFraction
    ((|targetLev1e4| * equityMicro * QTY_SCALE : ℤ) /
      (LEVERAGE_SCALE * refPxTicks * tickSizeMicro : ℤ))
  return if 0 ≤ targetLev1e4 then rawAbs else -rawAbs

/-- Size a signed leverage target at the next-bar reference price: the exact raw quantity is
floored, then rounded toward zero to the venue quantity step. -/
def targetQuantityBase1e8 (targetLev1e4 equityMicro refPxTicks tickSizeMicro qtyStepBase1e8 : ℤ) :
    Py ℤ := do
  let raw ← rawTargetQuantityBase1e8 targetLev1e4 equityMicro refPxTicks tickSizeMicro
  floorToStep raw qtyStepBase1e8

/-! ## Participation -/

/-- `core.models.FillQuantity`: the participation-capped split of one requested order. The checks
of `__post_init__` are its fields. -/
structure FillQuantity where
  requestedQtyBase1e8 : ℤ
  capacityQtyBase1e8 : ℤ
  filledQtyBase1e8 : ℤ
  cancelledQtyBase1e8 : ℤ
  nonneg : 0 ≤ requestedQtyBase1e8 ∧ 0 ≤ capacityQtyBase1e8 ∧ 0 ≤ filledQtyBase1e8 ∧
    0 ≤ cancelledQtyBase1e8
  filled_le_capacity : filledQtyBase1e8 ≤ capacityQtyBase1e8
  filled_add_cancelled : filledQtyBase1e8 + cancelledQtyBase1e8 = requestedQtyBase1e8
  deriving DecidableEq

/-- `FillQuantity.__post_init__` -/
def FillQuantity.make (requested capacity filled cancelled : ℤ) : Py FillQuantity :=
  if hn : 0 ≤ requested ∧ 0 ≤ capacity ∧ 0 ≤ filled ∧ 0 ≤ cancelled then
    if hc : filled ≤ capacity then
      if hs : filled + cancelled = requested then
        .ok ⟨requested, capacity, filled, cancelled, hn, hc, hs⟩
      else .error (.valueError "filled and cancelled quantities must equal requested quantity")
    else .error (.valueError "filled quantity exceeds participation capacity")
  else .error (.valueError "fill quantities must be non-negative")

/-- The maximum step-rounded quantity available in the fill bar. -/
def participationCapacityBase1e8 (barVolumeBase1e8 participationCap1e8 qtyStepBase1e8 : ℤ) :
    Py ℤ := do
  require (0 ≤ barVolumeBase1e8) (.valueError "bar volume must be non-negative")
  require (0 ≤ participationCap1e8 ∧ participationCap1e8 ≤ RATE_SCALE)
    (.valueError "participation cap must be between zero and rate scale")
  let rawCapacity := floorFraction ((barVolumeBase1e8 * participationCap1e8 : ℤ) / RATE_SCALE)
  floorToStep rawCapacity qtyStepBase1e8

/-- Split a non-negative request into filled and permanently cancelled quantity. -/
def participationFill
    (requestedQtyBase1e8 barVolumeBase1e8 participationCap1e8 qtyStepBase1e8 : ℤ) :
    Py FillQuantity := do
  require (0 ≤ requestedQtyBase1e8) (.valueError "requested quantity must be non-negative")
  let capacity ← participationCapacityBase1e8 barVolumeBase1e8 participationCap1e8 qtyStepBase1e8
  let filled ← floorToStep (min requestedQtyBase1e8 capacity) qtyStepBase1e8
  FillQuantity.make requestedQtyBase1e8 capacity filled (requestedQtyBase1e8 - filled)

/-! ## Fill price, notional and fee -/

/-- Worst-side half spread with agent-adverse ceil rounding. -/
def halfSpreadTicks (refPxTicks halfSpread1e8 : ℤ) : Py ℤ := do
  require (0 < refPxTicks) (.valueError "reference price must be positive")
  require (0 ≤ halfSpread1e8) (.valueError "half spread must be non-negative")
  return ceilFraction ((refPxTicks * halfSpread1e8 : ℤ) / RATE_SCALE)

/-- Non-negative impact ticks with one final adverse ceil: `ref * coeff * participation` under
`linear`, `ref * coeff * sqrt(participation)` under `sqrt`. -/
def impactTicks (refPxTicks filledQtyBase1e8 barVolumeBase1e8 impactCoeff1e8 : ℤ)
    (impactModel : ImpactModel) : Py ℤ := do
  require (0 < refPxTicks) (.valueError "reference price must be positive")
  require (0 ≤ filledQtyBase1e8 ∧ 0 ≤ impactCoeff1e8)
    (.valueError "quantity and impact coefficient must be non-negative")
  if filledQtyBase1e8 = 0 ∨ impactCoeff1e8 = 0 then
    return 0
  require (0 < barVolumeBase1e8) (.valueError "positive fill requires positive bar volume")
  require (filledQtyBase1e8 ≤ barVolumeBase1e8)
    (.valueError "filled quantity cannot exceed bar volume")
  match impactModel with
  | .linear =>
    return ceilFraction ((refPxTicks * impactCoeff1e8 * filledQtyBase1e8 : ℤ) /
      (RATE_SCALE * barVolumeBase1e8 : ℤ))
  | .sqrt =>
    ceilSqrtFraction
      ((refPxTicks * refPxTicks * impactCoeff1e8 * impactCoeff1e8 * filledQtyBase1e8 : ℤ) /
        (RATE_SCALE * RATE_SCALE * barVolumeBase1e8 : ℤ))

/-- Apply spread and impact against the taker. -/
def fillPriceTicks (side : Side) (refPxTicks spreadTicks modeledImpactTicks : ℤ) : Py ℤ := do
  require (0 < refPxTicks) (.valueError "reference price must be positive")
  require (0 ≤ spreadTicks ∧ 0 ≤ modeledImpactTicks)
    (.valueError "spread and impact must be non-negative")
  let adjustment := spreadTicks + modeledImpactTicks
  let price := if side = .buy then refPxTicks + adjustment else refPxTicks - adjustment
  require (0 < price) (.valueError "modeled sell fill price must remain positive")
  return price

/-- Value an absolute quantity at a tick price, flooring to micro-quote. -/
def notionalMicro (qtyBase1e8 pxTicks tickSizeMicro : ℤ) : Py ℤ := do
  require (0 < pxTicks ∧ 0 < tickSizeMicro)
    (.valueError "price, tick size, and quantity scale must be positive")
  return |qtyBase1e8| * pxTicks * tickSizeMicro / QTY_SCALE

/-- Charge a fee with agent-adverse ceil rounding. -/
def feeMicro (fillNotionalMicro feeRate1e8 : ℤ) : Py ℤ := do
  require (0 ≤ fillNotionalMicro ∧ 0 ≤ feeRate1e8)
    (.valueError "notional and fee rate must be non-negative")
  return ceilFraction ((fillNotionalMicro * feeRate1e8 : ℤ) / RATE_SCALE)

/-- Signed fill-vs-reference slippage, flooring the exact ratio. -/
def slippage1e8 (fillPxTicks refPxTicks : ℤ) : Py ℤ := do
  require (0 < fillPxTicks ∧ 0 < refPxTicks)
    (.valueError "fill and reference prices must be positive")
  return floorFraction (((fillPxTicks - refPxTicks) * RATE_SCALE : ℤ) / refPxTicks)

/-- `core.models.FillCalculation` -/
structure FillCalculation where
  side : Side
  quantities : FillQuantity
  refOpenPxTicks : ℤ
  halfSpreadTicks : ℤ
  impactTicks : ℤ
  fillPxTicks : ℤ
  notionalMicro : ℤ
  referenceNotionalMicro : ℤ
  feeMicro : ℤ
  slippage1e8 : ℤ
  deriving DecidableEq

/-- Calculate a participation-capped fill under one cost profile. -/
def calculateFill (side : Side)
    (requestedQtyBase1e8 barVolumeBase1e8 participationCap1e8 qtyStepBase1e8 refPxTicks
      tickSizeMicro halfSpread1e8 impactCoeff1e8 : ℤ) (impactModel : ImpactModel)
    (takerFeeRate1e8 costMultiplier1e4 : ℤ) : Py FillCalculation := do
  let quantities ← participationFill requestedQtyBase1e8 barVolumeBase1e8 participationCap1e8
    qtyStepBase1e8
  let scaledSpread ← applyCostMultiplier halfSpread1e8 costMultiplier1e4
  let scaledImpact ← applyCostMultiplier impactCoeff1e8 costMultiplier1e4
  let scaledFee ← applyCostMultiplier takerFeeRate1e8 costMultiplier1e4
  let spreadTicks ← halfSpreadTicks refPxTicks scaledSpread
  let modeledImpactTicks ← impactTicks refPxTicks quantities.filledQtyBase1e8 barVolumeBase1e8
    scaledImpact impactModel
  let fillPx ← fillPriceTicks side refPxTicks spreadTicks modeledImpactTicks
  let fillNotional ← notionalMicro quantities.filledQtyBase1e8 fillPx tickSizeMicro
  let referenceNotional ← notionalMicro quantities.filledQtyBase1e8 refPxTicks tickSizeMicro
  let fee ← feeMicro fillNotional scaledFee
  let slippage ← slippage1e8 fillPx refPxTicks
  return {
    side
    quantities
    refOpenPxTicks := refPxTicks
    halfSpreadTicks := spreadTicks
    impactTicks := modeledImpactTicks
    fillPxTicks := fillPx
    notionalMicro := fillNotional
    referenceNotionalMicro := referenceNotional
    feeMicro := fee
    slippage1e8 := slippage }

/-! ## Profit, funding and margin -/

/-- Mark an open signed position, flooring to micro-quote. -/
def unrealizedPnlMicro (positionQtyBase1e8 entryPxTicks markPxTicks tickSizeMicro : ℤ) :
    Py ℤ := do
  require (0 < entryPxTicks ∧ 0 < markPxTicks ∧ 0 < tickSizeMicro)
    (.valueError "entry, mark, and tick size must be positive")
  return (markPxTicks - entryPxTicks) * positionQtyBase1e8 * tickSizeMicro / QTY_SCALE

/-- Realize PnL for an absolute closed quantity from a long or short. -/
def realizedPnlMicro
    (positionSign closedQtyBase1e8 entryPxTicks closePxTicks tickSizeMicro : ℤ) : Py ℤ := do
  require (positionSign = -1 ∨ positionSign = 1) (.valueError "position sign must be -1 or 1")
  require (0 ≤ closedQtyBase1e8) (.valueError "closed quantity must be non-negative")
  require (0 < entryPxTicks ∧ 0 < closePxTicks ∧ 0 < tickSizeMicro)
    (.valueError "entry, close, and tick size must be positive")
  let signedClosed := positionSign * closedQtyBase1e8
  return (closePxTicks - entryPxTicks) * signedClosed * tickSizeMicro / QTY_SCALE

/-- Signed account funding flow (negative means the agent paid). The venue amount is ceiled before
sign inversion: charges round up and credits round down in magnitude. -/
def fundingCashFlowMicro (positionQtyBase1e8 indexPxTicks tickSizeMicro fundingRate1e8 : ℤ) :
    Py ℤ := do
  require (0 < indexPxTicks ∧ 0 < tickSizeMicro)
    (.valueError "index price and tick size must be positive")
  let venueAmount := ceilFraction
    ((positionQtyBase1e8 * indexPxTicks * tickSizeMicro * fundingRate1e8 : ℤ) /
      (QTY_SCALE * RATE_SCALE : ℤ))
  return -venueAmount

/-- Apply the pack's venue-era funding floor and cap exactly. -/
def clampFundingRate1e8 (observedRate1e8 floor1e8 cap1e8 : ℤ) : Py ℤ := do
  require (floor1e8 ≤ cap1e8) (.valueError "funding floor must not exceed cap")
  return min (max observedRate1e8 floor1e8) cap1e8

/-- Informational isolated margin: `floor(entry notional / target leverage)`. -/
def marginUsedMicro (positionQtyBase1e8 entryPxTicks tickSizeMicro targetLeverage1e4 : ℤ) :
    Py ℤ := do
  if positionQtyBase1e8 = 0 then
    return 0
  require (0 < entryPxTicks ∧ 0 < tickSizeMicro)
    (.valueError "entry price and tick size must be positive")
  require (0 < targetLeverage1e4) (.valueError "target leverage magnitude must be positive")
  return floorFraction
    ((|positionQtyBase1e8| * entryPxTicks * tickSizeMicro * LEVERAGE_SCALE : ℤ) /
      (QTY_SCALE * targetLeverage1e4 : ℤ))

/-- Required maintenance at mark notional, rounded upward. -/
def maintenanceMarginMicro (positionQtyBase1e8 markPxTicks tickSizeMicro maintenanceRate1e8 : ℤ) :
    Py ℤ := do
  if positionQtyBase1e8 = 0 then
    return 0
  require (0 < markPxTicks ∧ 0 < tickSizeMicro)
    (.valueError "mark price and tick size must be positive")
  require (0 ≤ maintenanceRate1e8) (.valueError "maintenance rate must be non-negative")
  return ceilFraction
    ((|positionQtyBase1e8| * markPxTicks * tickSizeMicro * maintenanceRate1e8 : ℤ) /
      (QTY_SCALE * RATE_SCALE : ℤ))

/-- Pinned isolated-margin maintenance crossing price. Long triggers round upward, short triggers
round downward; a long at or below 1x has no reachable positive trigger and returns zero. -/
def liquidationPriceTicks (entryPxTicks positionSign targetLeverage1e4 maintenanceRate1e8 : ℤ) :
    Py ℤ := do
  require (0 < entryPxTicks) (.valueError "entry price must be positive")
  require (positionSign = -1 ∨ positionSign = 1) (.valueError "position sign must be -1 or 1")
  require (0 < targetLeverage1e4) (.valueError "target leverage magnitude must be positive")
  require (0 ≤ maintenanceRate1e8 ∧ maintenanceRate1e8 < RATE_SCALE)
    (.valueError "maintenance rate must be in [0, rate_scale)")
  if 0 < positionSign then
    let numerator : ℚ :=
      entryPxTicks * ((targetLeverage1e4 - LEVERAGE_SCALE : ℤ) / (targetLeverage1e4 : ℚ))
    if numerator ≤ 0 then
      return 0
    return ceilFraction (numerator / ((RATE_SCALE - maintenanceRate1e8 : ℤ) / (RATE_SCALE : ℚ)))
  let numerator : ℚ :=
    entryPxTicks * ((targetLeverage1e4 + LEVERAGE_SCALE : ℤ) / (targetLeverage1e4 : ℚ))
  return floorFraction (numerator / ((RATE_SCALE + maintenanceRate1e8 : ℤ) / (RATE_SCALE : ℚ)))

/-- Distance from current price to liquidation, divided by current price. -/
def distanceToLiquidation1e8 (currentPxTicks liquidationPxTicks positionSign : ℤ) : Py ℤ := do
  require (0 < currentPxTicks) (.valueError "current price must be positive")
  require (positionSign = -1 ∨ positionSign = 1) (.valueError "position sign must be -1 or 1")
  if 0 < positionSign then
    if liquidationPxTicks ≤ 0 then
      return RATE_SCALE
    return floorFraction (((currentPxTicks - liquidationPxTicks) * RATE_SCALE : ℤ) / currentPxTicks)
  require (0 < liquidationPxTicks) (.valueError "short liquidation price must be positive")
  return floorFraction (((liquidationPxTicks - currentPxTicks) * RATE_SCALE : ℤ) / currentPxTicks)

/-- Check the adverse intra-bar mark extreme, including gap-through. -/
def liquidationCrossed (positionQtyBase1e8 liquidationPxTicks markHighTicks markLowTicks : ℤ) :
    Py Bool := do
  require (0 < markHighTicks ∧ 0 < markLowTicks)
    (.valueError "mark high and low must be positive")
  require (markLowTicks ≤ markHighTicks) (.valueError "mark low cannot exceed mark high")
  if 0 < positionQtyBase1e8 then
    return decide (0 < liquidationPxTicks ∧ markLowTicks ≤ liquidationPxTicks)
  if positionQtyBase1e8 < 0 then
    return decide (liquidationPxTicks ≤ markHighTicks)
  return false

/-- Charge the liquidation penalty on conservative close-price notional. -/
def liquidationPenaltyMicro (positionQtyBase1e8 closePxTicks tickSizeMicro penaltyRate1e8 : ℤ) :
    Py ℤ := do
  let closeNotional ← notionalMicro positionQtyBase1e8 closePxTicks tickSizeMicro
  feeMicro closeNotional penaltyRate1e8

/-- `_sign` of `core/engine.py`. -/
def sign (value : ℤ) : ℤ :=
  if 0 < value then 1 else if value < 0 then -1 else 0

end WagmiBench.Core
