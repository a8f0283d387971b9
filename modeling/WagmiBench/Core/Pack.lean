import WagmiBench.Core.Config
import WagmiBench.Core.Math

/-!
# Scenario packs

The typed side of `core/pack.py`: market descriptors, the four series of a market and the scheduled
clock. What loading checks about a descriptor and about the series of one market are fields here.
-/

namespace WagmiBench.Core

open WagmiBench.Lib

/-- The exact stored row behind an emitted value. -/
structure RowProvenance where
  market : Text
  role : Text
  path : Text
  rowIndex : ℕ
  ts : ℤ
  availableAt : ℤ
  deriving DecidableEq

structure BarRow where
  ts : ℤ
  availableAt : ℤ
  o : ℤ
  h : ℤ
  l : ℤ
  c : ℤ
  vBase1e8 : ℤ
  provenance : RowProvenance
  deriving DecidableEq

structure FundingRow where
  ts : ℤ
  availableAt : ℤ
  rate1e8 : ℤ
  provenance : RowProvenance
  deriving DecidableEq

structure FundingSpec where
  intervalMs : ℤ
  settlementOffsetsMs : List ℤ
  cap1e8 : ℤ
  floor1e8 : ℤ
  interval_pos : 1 ≤ intervalMs
  offsets_ne_nil : settlementOffsetsMs ≠ []
  offsets_nonneg : ∀ o ∈ settlementOffsetsMs, 0 ≤ o
  deriving DecidableEq

structure MarginTier where
  notionalCapMicro : ℤ
  initialRate1e8 : ℤ
  maintenanceRate1e8 : ℤ
  cap_pos : 1 ≤ notionalCapMicro
  initial_rate_pos : 1 ≤ initialRate1e8
  maintenance_rate_pos : 1 ≤ maintenanceRate1e8
  deriving DecidableEq

structure MarketSpec where
  aliasName : Text
  tickSizeMicro : ℤ
  qtyStepBase1e8 : ℤ
  minNotionalMicro : ℤ
  makerFeeRate1e8 : ℤ
  takerFeeRate1e8 : ℤ
  leverageCapLev1e4 : ℤ
  marginTiers : List MarginTier
  liquidationPenalty1e8 : ℤ
  funding : FundingSpec
  halfSpread1e8 : ℤ
  impactModel : ImpactModel
  impactCoeff1e8 : ℤ
  participationCap1e8 : ℤ
  costProfileMultipliers1e4 : List (Text × ℤ)
  tick_size_pos : 1 ≤ tickSizeMicro
  qty_step_pos : 1 ≤ qtyStepBase1e8
  min_notional_nonneg : 0 ≤ minNotionalMicro
  maker_fee_nonneg : 0 ≤ makerFeeRate1e8
  taker_fee_nonneg : 0 ≤ takerFeeRate1e8
  leverage_cap_pos : 1 ≤ leverageCapLev1e4
  margin_tiers_ne_nil : marginTiers ≠ []
  liquidation_penalty_nonneg : 0 ≤ liquidationPenalty1e8
  half_spread_nonneg : 0 ≤ halfSpread1e8
  impact_coeff_nonneg : 0 ≤ impactCoeff1e8
  participation_cap_pos : 1 ≤ participationCap1e8
  multipliers_pos : ∀ p ∈ costProfileMultipliers1e4, 1 ≤ p.2
  deriving DecidableEq

/-- `spec.cost_profile_multipliers_1e4.get(profile)` -/
def MarketSpec.multiplier (spec : MarketSpec) (profile : Text) : Option ℤ :=
  (spec.costProfileMultipliers1e4.find? fun p => p.1 = profile).map Prod.snd

/-- One market's never-conflated source streams: trade, mark and index rows share one strictly
increasing list of timestamps, and the funding timestamps increase. -/
structure MarketData where
  spec : MarketSpec
  trade : List BarRow
  mark : List BarRow
  index : List BarRow
  funding : List FundingRow
  mark_ts : mark.map BarRow.ts = trade.map BarRow.ts
  index_ts : index.map BarRow.ts = trade.map BarRow.ts
  trade_increasing : (trade.map BarRow.ts).Pairwise (· < ·)
  funding_increasing : (funding.map FundingRow.ts).Pairwise (· < ·)
  deriving DecidableEq

namespace MarketData

variable (market : MarketData)

theorem mark_length : market.mark.length = market.trade.length := by
  simpa using congrArg List.length market.mark_ts

theorem index_length : market.index.length = market.trade.length := by
  simpa using congrArg List.length market.index_ts

def availableTrade (clockTs : ℤ) : List BarRow := market.trade.filter (·.availableAt ≤ clockTs)
def availableMark (clockTs : ℤ) : List BarRow := market.mark.filter (·.availableAt ≤ clockTs)
def availableIndex (clockTs : ℤ) : List BarRow := market.index.filter (·.availableAt ≤ clockTs)
def availableFunding (clockTs : ℤ) : List FundingRow :=
  market.funding.filter (·.availableAt ≤ clockTs)

end MarketData

/-- `rows[i]` for a non-negative index. -/
def rowAt (rows : List BarRow) (i : ℕ) : Py BarRow :=
  match rows[i]? with
  | some row => .ok row
  | none => .error .indexError

/-- The deterministic engine-facing subset of a pack. Markets are keyed by their alias. -/
structure PackData where
  packId : Text
  contentHash : Text
  windowStartTs : ℤ
  windowEndTs : ℤ
  decisionBarMs : ℤ
  warmupBars : ℕ
  defaultLookback : EffectiveLookback
  markets : List (Text × MarketData)
  manifest : List (Text × Json)
  window_start_nonneg : 0 ≤ windowStartTs
  window_ordered : windowStartTs < windowEndTs
  decision_bar_pos : 1 ≤ decisionBarMs
  markets_ne_nil : markets ≠ []
  deriving DecidableEq

namespace PackData

variable (pack : PackData)

/-- `tuple(sorted(self.markets))` -/
def marketAliases : List Text := sortTexts (pack.markets.map Prod.fst)

/-- The length of the shortest trade series. -/
def shortest : List (Text × MarketData) → ℕ
  | [] => 0
  | [(_, market)] => market.trade.length
  | (_, market) :: markets => min market.trade.length (shortest markets)

/-- Number of actionable bars, retaining one final holding bar. -/
def barsTotal : Py ℕ := do
  let total : ℤ := shortest pack.markets - pack.warmupBars - 1
  require (1 ≤ total) (.packError "pack has no actionable decision bars")
  return total.toNat

def market (name : Text) : Py MarketData :=
  match pack.markets.find? fun m => m.1 = name with
  | some (_, market) => .ok market
  | none => .error (.packError ("unknown market: " ++ Text.show name))

/-- The scheduled close for `turn`, from the pack window and the decision interval only. -/
def clockRealTs (turn : ℕ) : Py ℤ := do
  let total ← pack.barsTotal
  require (turn < total)
    (.packError s!"turn {turn} is outside episode range 0..{total - 1}")
  let closeNumber : ℤ := pack.warmupBars + turn + 1
  let clock := pack.windowStartTs + closeNumber * pack.decisionBarMs
  require (clock ≤ pack.windowEndTs) (.packError "scheduled virtual clock exceeds pack window")
  return clock

end PackData

theorem barsTotal_eq_ok {pack : PackData} {turns : ℕ} :
    pack.barsTotal = .ok turns ↔
      1 ≤ turns ∧ PackData.shortest pack.markets = turns + pack.warmupBars + 1 := by
  simp only [PackData.barsTotal, bind_ok_iff, require_eq_ok, pure_eq_ok, Except.ok.injEq]
  constructor
  · rintro ⟨-, h, rfl⟩
    omega
  · rintro ⟨h, heq⟩
    exact ⟨(), by omega, by omega⟩

theorem clockRealTs_eq_ok {pack : PackData} {turn : ℕ} {ts : ℤ} :
    pack.clockRealTs turn = .ok ts ↔ (∃ turns, pack.barsTotal = .ok turns ∧ turn < turns) ∧
      ts = pack.windowStartTs + (pack.warmupBars + turn + 1) * pack.decisionBarMs ∧
      ts ≤ pack.windowEndTs := by
  simp only [PackData.clockRealTs, bind_ok_iff, require_eq_ok, pure_eq_ok, Except.ok.injEq]
  constructor
  · rintro ⟨turns, hturns, -, hlt, -, hle, rfl⟩
    exact ⟨⟨turns, hturns, hlt⟩, rfl, hle⟩
  · rintro ⟨⟨turns, hturns, hlt⟩, rfl, hle⟩
    exact ⟨turns, hturns, (), hlt, (), hle, rfl⟩

end WagmiBench.Core
