import WagmiBench.Core.Math

/-!
# Metrics

`core/metrics.py`: exact rational statistics of a NAV series, floored to the fixed-point scale.
-/

namespace WagmiBench.Core

open WagmiBench.Lib

/-- Per-bar arithmetic returns of consecutive NAVs. -/
def returnsOf : List ℤ → Py (List ℚ)
  | previous :: current :: navs => do
    require (0 < previous) (.undefinedMetric "bar return is undefined after non-positive NAV")
    let rest ← returnsOf (current :: navs)
    return ((current - previous : ℤ) : ℚ) / previous :: rest
  | _ => return []

/-- Per-bar arithmetic returns using exact rational NAV ratios. -/
def barReturns (navsMicro : List ℤ) : Py (List ℚ) := do
  require (2 ≤ navsMicro.length) (.valueError "at least two NAV observations are required")
  returnsOf navsMicro

/-- Floor total return to the fixed-point scale. -/
def netReturn1e8 (finalNavMicro startingNavMicro : ℤ) : Py ℤ := do
  require (0 < startingNavMicro) (.valueError "starting NAV must be positive")
  return floorFraction (((finalNavMicro - startingNavMicro) * RATE_SCALE : ℤ) / startingNavMicro)

/-- One step of the drawdown scan: the running peak and the largest drawdown so far. -/
def drawdownStep (acc : ℤ × ℚ) (nav : ℤ) : Py (ℤ × ℚ) := do
  let peak := max acc.1 nav
  require (0 < peak) (.undefinedMetric "drawdown is undefined without a positive peak")
  return (peak, max acc.2 (((peak - nav) * RATE_SCALE : ℤ) / peak))

/-- Peak-to-close maximum drawdown, floored to fixed point. -/
def maxDrawdown1e8 (navsMicro : List ℤ) : Py ℤ := do
  match navsMicro with
  | [] => .error (.valueError "NAV series cannot be empty")
  | first :: _ => do
    require (0 < first) (.valueError "initial NAV must be positive")
    let (_, maximum) ← navsMicro.foldlM drawdownStep (first, 0)
    return floorFraction maximum

/-- `floor(numerator / sqrt(denominator))` exactly. -/
def floorRatioOverSqrt (numerator denominator : ℚ) : Py ℤ := do
  require (0 < denominator) (.undefinedMetric "square-root denominator must be positive")
  let squared := numerator * numerator / denominator
  let rootFloor : ℤ := (floorFraction squared).toNat.sqrt
  if 0 ≤ numerator then
    return rootFloor
  let exact := squared.den = 1 ∧ rootFloor * rootFloor = squared.num
  return -(if exact then rootFloor else rootFloor + 1)

/-- Mean return over root-mean-square negative-part downside deviation. -/
def sortino1e8 (returns : List ℚ) : Py ℤ := do
  require (returns ≠ []) (.valueError "return series cannot be empty")
  let total := returns.sum
  let downsideSquares := (returns.map fun value => min value 0 * min value 0).sum
  let count : ℚ := returns.length
  let meanReturn := total / count
  let meanSquaredDownside := downsideSquares / count
  require (0 < meanSquaredDownside)
    (.undefinedMetric "Sortino is undefined when downside deviation is zero")
  floorRatioOverSqrt (meanReturn * RATE_SCALE) meanSquaredDownside

/-- Mean of the worst `ceil(5% * n)` bar returns, floored. -/
def cvar5 (returns : List ℚ) : Py ℤ := do
  require (returns ≠ []) (.valueError "return series cannot be empty")
  let tailCount ← ceilDiv returns.length 20
  let worst := (returns.insertionSort (· ≤ ·)).take tailCount.toNat
  return floorFraction (worst.sum * RATE_SCALE / tailCount)

/-- Nearest-rank percentile with rank `max(1, ceil(p * n))`. -/
def nearestRank (values : List ℤ) (percentileNum percentileDen : ℤ) : Py ℤ := do
  require (values ≠ []) (.valueError "nearest-rank input cannot be empty")
  require (0 < percentileDen ∧ 0 ≤ percentileNum ∧ percentileNum ≤ percentileDen)
    (.valueError "percentile must be between zero and one")
  let ordered := values.insertionSort (· ≤ ·)
  let rank := max 1 (← ceilDiv (percentileNum * ordered.length) percentileDen)
  match ordered[(rank - 1).toNat]? with
  | some value => return value
  | none => .error .indexError

/-- `core.models.DistanceStatistics` -/
structure DistanceStatistics where
  minIntrabar1e8 : Option ℤ
  p05Close1e8 : Option ℤ
  p25Close1e8 : Option ℤ
  medianClose1e8 : Option ℤ
  deriving DecidableEq

/-- `min(values)` -/
def minimum : List ℤ → Py ℤ
  | [] => .error (.valueError "min() arg is an empty sequence")
  | value :: values => .ok (values.foldl min value)

/-- The distance summary from close and wick distances. -/
def distanceStatistics (closeDistances1e8 intrabarDistances1e8 : List ℤ) :
    Py DistanceStatistics := do
  if closeDistances1e8 = [] then
    require (intrabarDistances1e8 = [])
      (.valueError "intrabar distances cannot exist without in-position closes")
    return ⟨none, none, none, none⟩
  require (intrabarDistances1e8 ≠ [])
    (.valueError "in-position closes require intra-bar distances")
  let lowest ← minimum intrabarDistances1e8
  let p05 ← nearestRank closeDistances1e8 1 20
  let p25 ← nearestRank closeDistances1e8 1 4
  let median ← nearestRank closeDistances1e8 1 2
  return ⟨some lowest, some p05, some p25, some median⟩

/-- Floor summed absolute fill notional divided by starting NAV. -/
def turnover1e8 (turnoverNotionalMicro startingNavMicro : ℤ) : Py ℤ := do
  require (0 ≤ turnoverNotionalMicro) (.valueError "turnover notional must be non-negative")
  require (0 < startingNavMicro) (.valueError "starting NAV must be positive")
  return floorFraction ((turnoverNotionalMicro * RATE_SCALE : ℤ) / startingNavMicro)

end WagmiBench.Core
