import WagmiBench.Core.Pack

/-!
# Observations

`core/observation.py`: what an agent is shown at a turn. An `Observation` is the typed form of the
`observation/v1` document and `Observation.toJson` the document itself. Rows are selected by
`available_at` against the clock, and the build rechecks both its row provenance and every number
it derived from a mark.
-/

namespace WagmiBench.Core

open WagmiBench.Lib

abbrev DAY_MS : ℤ := 86_400_000
abbrev LEV_SCALE_1E4 : ℤ := 10_000

/-! ## Engine state an observation exposes -/

/-- Engine state needed to expose one market position. -/
structure PositionState where
  qtyBase1e8 : ℤ
  entryPxTicks : Option ℤ
  marginMicro : ℤ
  liqPxTicks : Option ℤ
  margin_nonneg : 0 ≤ marginMicro
  flat : qtyBase1e8 = 0 → entryPxTicks = none ∧ liqPxTicks = none ∧ marginMicro = 0
  held : qtyBase1e8 ≠ 0 → (∃ e ∈ entryPxTicks, 0 ≤ e) ∧ ∃ l ∈ liqPxTicks, 0 ≤ l

namespace PositionState

/-- `PositionState()` -/
def none : PositionState := ⟨0, .none, 0, .none, le_rfl, fun _ => ⟨rfl, rfl, rfl⟩, absurd rfl⟩

/-- `PositionState.__post_init__` -/
def make (qtyBase1e8 : ℤ) (entryPxTicks : Option ℤ) (marginMicro : ℤ) (liqPxTicks : Option ℤ) :
    Py PositionState := do
  let ⟨hm⟩ ← check (0 ≤ marginMicro)
    (.observationError "margin_micro must be an integer >= 0")
  if hq : qtyBase1e8 = 0 then
    let ⟨hp⟩ ← check (entryPxTicks = .none ∧ liqPxTicks = .none)
      (.observationError "flat positions must use null prices")
    let ⟨hz⟩ ← check (marginMicro = 0)
      (.observationError "flat positions must use zero margin")
    return ⟨qtyBase1e8, entryPxTicks, marginMicro, liqPxTicks, hm,
      fun _ => ⟨hp.1, hp.2, hz⟩, fun h => absurd hq h⟩
  else
    let ⟨hp⟩ ← check ((∃ e ∈ entryPxTicks, 0 ≤ e) ∧ ∃ l ∈ liqPxTicks, 0 ≤ l)
      (.observationError
        "non-flat positions require non-negative entry and liquidation prices")
    return ⟨qtyBase1e8, entryPxTicks, marginMicro, liqPxTicks, hm, fun h => absurd h hq,
      fun _ => hp⟩

end PositionState

/-- Non-derived account fields; NAV is derived from the selected mark rows. -/
structure AccountState where
  cashMicro : ℤ
  realizedPnlMicro : ℤ

/-- Current consumption of the episode-level risk budgets. -/
structure RiskState where
  drawdownUsed1e8 : ℤ
  turnoverUsed1e8 : ℤ
  killSwitchActive : Bool
  drawdown_nonneg : 0 ≤ drawdownUsed1e8
  turnover_nonneg : 0 ≤ turnoverUsed1e8

/-- `RiskState.__post_init__` -/
def RiskState.make (drawdownUsed1e8 turnoverUsed1e8 : ℤ) (killSwitchActive : Bool) :
    Py RiskState := do
  let ⟨hd⟩ ← check (0 ≤ drawdownUsed1e8)
    (.observationError "drawdown_used_1e8 must be an integer >= 0")
  let ⟨ht⟩ ← check (0 ≤ turnoverUsed1e8)
    (.observationError "turnover_used_1e8 must be an integer >= 0")
  return ⟨drawdownUsed1e8, turnoverUsed1e8, killSwitchActive, hd, ht⟩

/-! ## The document -/

/-- `BarRow.observation_mapping` -/
structure BarView where
  ts : ℤ
  availableAt : ℤ
  o : ℤ
  h : ℤ
  l : ℤ
  c : ℤ
  vBase1e8 : ℤ

/-- `FundingRow.observation_mapping` -/
structure FundingPrint where
  ts : ℤ
  rate1e8 : ℤ

structure FundingView where
  intervalMs : ℤ
  nextSettlementTs : ℤ
  cap1e8 : ℤ
  floor1e8 : ℤ
  prints : List FundingPrint

structure MarketView where
  tickSizeMicro : ℤ
  qtyStepBase1e8 : ℤ
  minNotionalMicro : ℤ
  takerFeeRate1e8 : ℤ
  leverageCapLev1e4 : ℤ
  lastMarkPxTicks : ℤ
  lastIndexPxTicks : ℤ
  bars : List BarView
  funding : FundingView

structure PositionView where
  qtyBase1e8 : ℤ
  entryPxTicks : Option ℤ
  upnlMicro : ℤ
  marginMicro : ℤ
  liqPxTicks : Option ℤ
  distToLiq1e8 : Option ℤ

/-- One entry of `risk.constraints`. -/
structure Constraint where
  constraintId : Text
  type : Text
  scope : Text
  limit : ℤ
  used : ℤ
  unit : Text

structure EpisodeView where
  episodeId : Text
  turn : ℕ
  barIndex : ℕ
  barsTotal : ℕ
  barsRemaining : ℤ
  decisionBarMs : ℤ
  responseDeadlineMs : ℤ

/-- The `observation/v1` document. -/
structure Observation where
  episode : EpisodeView
  clockTs : ℤ
  markets : List (Text × MarketView)
  position : List (Text × PositionView)
  navMicro : ℤ
  cashMicro : ℤ
  realizedPnlMicro : ℤ
  constraints : List Constraint
  killSwitchActive : Bool

section Documents

/-- A text literal as a JSON string. -/
abbrev jsonStr (s : String) : Json := .str (txt s)

/-- An object with literal keys. -/
abbrev jsonObj (members : List (String × Json)) : Json :=
  .obj (members.map fun m => (txt m.1, m.2))

def BarView.toJson (bar : BarView) : Json :=
  jsonObj [("ts", .int bar.ts), ("available_at", .int bar.availableAt), ("o", .int bar.o),
    ("h", .int bar.h), ("l", .int bar.l), ("c", .int bar.c), ("v_base_1e8", .int bar.vBase1e8)]

def FundingPrint.toJson (p : FundingPrint) : Json :=
  jsonObj [("ts", .int p.ts), ("rate_1e8", .int p.rate1e8)]

def FundingView.toJson (f : FundingView) : Json :=
  jsonObj [("interval_ms", .int f.intervalMs), ("next_settlement_ts", .int f.nextSettlementTs),
    ("cap_1e8", .int f.cap1e8), ("floor_1e8", .int f.floor1e8),
    ("prints", .arr (f.prints.map FundingPrint.toJson))]

def MarketView.toJson (m : MarketView) : Json :=
  jsonObj [("tick_size_micro", .int m.tickSizeMicro), ("qty_step_base_1e8", .int m.qtyStepBase1e8),
    ("min_notional_micro", .int m.minNotionalMicro),
    ("taker_fee_rate_1e8", .int m.takerFeeRate1e8),
    ("leverage_cap_lev_1e4", .int m.leverageCapLev1e4),
    ("last_mark_px_ticks", .int m.lastMarkPxTicks),
    ("last_index_px_ticks", .int m.lastIndexPxTicks),
    ("bars", .arr (m.bars.map BarView.toJson)), ("funding", m.funding.toJson)]

def PositionView.toJson (p : PositionView) : Json :=
  jsonObj [("qty_base_1e8", .int p.qtyBase1e8), ("entry_px_ticks", jsonOptInt p.entryPxTicks),
    ("upnl_micro", .int p.upnlMicro), ("margin_micro", .int p.marginMicro),
    ("liq_px_ticks", jsonOptInt p.liqPxTicks), ("dist_to_liq_1e8", jsonOptInt p.distToLiq1e8)]

def Constraint.toJson (c : Constraint) : Json :=
  jsonObj [("constraint_id", .str c.constraintId), ("type", .str c.type), ("scope", .str c.scope),
    ("limit", .int c.limit), ("used", .int c.used), ("unit", .str c.unit)]

def EpisodeView.toJson (e : EpisodeView) : Json :=
  jsonObj [("episode_id", .str e.episodeId), ("turn", .int e.turn), ("bar_index", .int e.barIndex),
    ("bars_total", .int e.barsTotal), ("bars_remaining", .int e.barsRemaining),
    ("decision_bar_ms", .int e.decisionBarMs),
    ("response_deadline_ms", .int e.responseDeadlineMs)]

/-- The document as JSON. -/
def Observation.toJson (obs : Observation) : Json :=
  jsonObj [("schema", jsonStr "observation/v1"), ("episode", obs.episode.toJson),
    ("clock_ts", .int obs.clockTs),
    ("markets", .obj (obs.markets.map fun m => (m.1, m.2.toJson))),
    ("position", .obj (obs.position.map fun p => (p.1, p.2.toJson))),
    ("account", jsonObj [("nav_micro", .int obs.navMicro), ("cash_micro", .int obs.cashMicro),
      ("realized_pnl_micro", .int obs.realizedPnlMicro)]),
    ("risk", jsonObj [("constraints", .arr (obs.constraints.map Constraint.toJson)),
      ("kill_switch_active", .bool obs.killSwitchActive)])]

end Documents

/-! ## Building -/

/-- `rows[-n:]` for a positive `n`. -/
def takeLast {α : Type} (n : ℕ) (rows : List α) : List α := rows.drop (rows.length - n)

/-- Stored rows behind every emitted market-data surface. -/
structure MarketObservationProvenance where
  tradeRows : List RowProvenance
  markRow : RowProvenance
  indexRow : RowProvenance
  fundingRows : List RowProvenance

/-- The document plus its provenance proof. -/
structure ObservationBuild where
  document : Observation
  realClockTs : ℤ
  rebaseOffsetMs : ℤ
  provenance : List (Text × MarketObservationProvenance)

namespace Observe

def barView (offsetMs : ℤ) (row : BarRow) : Py BarView := do
  let ts ← rebaseTimestamp row.ts offsetMs
  let availableAt ← rebaseTimestamp row.availableAt offsetMs
  return ⟨ts, availableAt, row.o, row.h, row.l, row.c, row.vBase1e8⟩

def fundingPrint (offsetMs : ℤ) (row : FundingRow) : Py FundingPrint := do
  let ts ← rebaseTimestamp row.ts offsetMs
  return ⟨ts, row.rate1e8⟩

/-- `_upnl_micro`: signed PnL floors, including negative values. -/
def upnlMicro (position : PositionState) (markPxTicks tickSizeMicro : ℤ) : ℤ :=
  if position.qtyBase1e8 = 0 then 0
  else position.qtyBase1e8 * (markPxTicks - position.entryPxTicks.getD 0) * tickSizeMicro /
    RATE_SCALE

/-- `_distance_to_liquidation_1e8` -/
def distanceToLiquidation1e8 (position : PositionState) (markPxTicks : ℤ) : Py (Option ℤ) := do
  if position.qtyBase1e8 = 0 then
    return none
  require (0 < markPxTicks)
    (.observationError "non-flat position cannot be observed at a non-positive mark")
  return some (|markPxTicks - position.liqPxTicks.getD 0| * RATE_SCALE / markPxTicks)

/-- `_notional_micro` -/
def notionalMicro (position : PositionState) (markPxTicks tickSizeMicro : ℤ) : ℤ :=
  |position.qtyBase1e8| * markPxTicks * tickSizeMicro / RATE_SCALE

/-- `_next_settlement_real_ts` -/
def nextSettlementRealTs (clockTs : ℤ) (settlementOffsetsMs : List ℤ) : Py ℤ := do
  match settlementOffsetsMs with
  | [] => .error (.observationError "funding settlement schedule is empty")
  | first :: _ =>
    let dayStart := clockTs / DAY_MS * DAY_MS
    match settlementOffsetsMs.find? fun offset => clockTs < dayStart + offset with
    | some offset => return dayStart + offset
    | none => return dayStart + DAY_MS + first

/-- `_last_available_bar` -/
def lastAvailableBar (rows : List BarRow) (name : Text) (role : String) : Py BarRow :=
  match rows.getLast? with
  | some row => .ok row
  | none => .error (.observationError (Text.show name ++ s!" has no available {role} row"))

/-- `_position_document` -/
def positionDocument (position : PositionState) (markPxTicks tickSizeMicro : ℤ) :
    Py (PositionView × ℤ) := do
  let upnl := upnlMicro position markPxTicks tickSizeMicro
  let distance ← distanceToLiquidation1e8 position markPxTicks
  return (⟨position.qtyBase1e8, position.entryPxTicks, upnl, position.marginMicro,
    position.liqPxTicks, distance⟩, upnl)

/-- What `_market_document` returns. -/
structure MarketDocument where
  document : MarketView
  markRow : BarRow
  indexRow : BarRow
  tradeRows : List BarRow
  fundingRows : List FundingRow

/-- `_market_document` -/
def marketDocument (market : MarketData) (clock : VirtualClock) (lookback : EffectiveLookback) :
    Py MarketDocument := do
  let tradeRows := takeLast lookback.bars.toNat (market.availableTrade clock.realTs)
  let markRow ← lastAvailableBar (market.availableMark clock.realTs) market.spec.aliasName "mark"
  let indexRow ← lastAvailableBar (market.availableIndex clock.realTs) market.spec.aliasName
    "index"
  let fundingRows := if lookback.fundingPrints = 0 then []
    else takeLast lookback.fundingPrints.toNat (market.availableFunding clock.realTs)
  require (tradeRows ≠ []) (.observationError
    (Text.show market.spec.aliasName ++ " has no available trade lookback"))
  let offset := clock.rebaseOffsetMs
  let nextSettlement ← nextSettlementRealTs clock.realTs market.spec.funding.settlementOffsetsMs
  let bars ← tradeRows.mapM (barView offset)
  let nextSettlementTs ← rebaseTimestamp nextSettlement offset
  let prints ← fundingRows.mapM (fundingPrint offset)
  let document : MarketView :=
    { tickSizeMicro := market.spec.tickSizeMicro
      qtyStepBase1e8 := market.spec.qtyStepBase1e8
      minNotionalMicro := market.spec.minNotionalMicro
      takerFeeRate1e8 := market.spec.takerFeeRate1e8
      leverageCapLev1e4 := market.spec.leverageCapLev1e4
      lastMarkPxTicks := markRow.c
      lastIndexPxTicks := indexRow.c
      bars
      funding :=
        { intervalMs := market.spec.funding.intervalMs
          nextSettlementTs
          cap1e8 := market.spec.funding.cap1e8
          floor1e8 := market.spec.funding.floor1e8
          prints } }
  return { document, markRow, indexRow, tradeRows, fundingRows }

/-- `_risk_constraints` -/
def riskConstraints (config : EpisodeConfig) (pack : PackData) (notionalsMicro : List (Text × ℤ))
    (navMicro : ℤ) (risk : RiskState) : Py (List Constraint) := do
  require (0 < navMicro) (.observationError "NAV must be positive while observations continue")
  let gross : Constraint :=
    ⟨txt "lev-gross", txt "leverage_cap_gross", txt "account", config.leverageCapGrossLev1e4,
      (notionalsMicro.map Prod.snd).sum * LEV_SCALE_1E4 / navMicro, txt "lev_1e4"⟩
  let perMarket ← notionalsMicro.mapM fun (name, notional) => do
    let market ← pack.market name
    return ⟨txt "lev-" ++ name, txt "leverage_cap_market", name, market.spec.leverageCapLev1e4,
      notional * LEV_SCALE_1E4 / navMicro, txt "lev_1e4"⟩
  let turnover := match config.turnoverCap1e8 with
    | some cap => [⟨txt "turnover", txt "turnover_cap", txt "account", cap, risk.turnoverUsed1e8,
        txt "1e8"⟩]
    | none => []
  let drawdown : Constraint :=
    ⟨txt "drawdown-ks", txt "drawdown_kill_switch", txt "account", config.drawdownKillSwitch1e8,
      risk.drawdownUsed1e8, txt "1e8"⟩
  return gross :: perMarket ++ turnover ++ [drawdown]

/-- What one market contributes to a build. -/
structure MarketBuild where
  view : MarketView
  position : PositionView
  notional : ℤ
  marginAndUpnl : ℤ
  provenance : MarketObservationProvenance

/-- The body of the loop over `pack.market_aliases`. -/
def marketBuild (pack : PackData) (positions : List (Text × PositionState))
    (effective : EffectiveLookback) (clock : VirtualClock) (name : Text) :
    Py (Text × MarketBuild) := do
  let market ← pack.market name
  let doc ← marketDocument market clock effective
  let position := ((positions.find? fun p => p.1 = name).map Prod.snd).getD .none
  let (positionView, upnl) ← positionDocument position doc.markRow.c market.spec.tickSizeMicro
  return (name,
    { view := doc.document
      position := positionView
      notional := notionalMicro position doc.markRow.c market.spec.tickSizeMicro
      marginAndUpnl := position.marginMicro + upnl
      provenance := ⟨doc.tradeRows.map (·.provenance), doc.markRow.provenance,
        doc.indexRow.provenance, doc.fundingRows.map (·.provenance)⟩ })

/-- `ObservationBuild.assert_no_future_sources`, for one market. -/
def assertNoFutureSources (realClockTs : ℤ) (name : Text) (sources : MarketObservationProvenance) :
    Py Unit :=
  let rows := sources.tradeRows ++ [sources.markRow, sources.indexRow] ++ sources.fundingRows
  match rows.find? fun source => realClockTs < source.availableAt with
  | some source => .error (.observationError
      (Text.show name ++ "/" ++ Text.show source.role ++ s!"[{source.rowIndex}] is from the future"))
  | none => .ok ()

/-- `ObservationBuild.assert_single_mark_invariant`, for one market: what it adds to the expected
NAV. -/
def assertSingleMark (name : Text) (market : MarketView) (position : PositionView) : Py ℤ := do
  let mark := market.lastMarkPxTicks
  let (expectedUpnl, expectedDistance) ← (do
    if position.qtyBase1e8 = 0 then
      return (0, none)
    match position.entryPxTicks with
    | none => .error (.observationError
        (Text.show name ++ ": non-flat position has no entry price"))
    | some entry =>
      let expectedUpnl := position.qtyBase1e8 * (mark - entry) * market.tickSizeMicro / RATE_SCALE
      match position.liqPxTicks with
      | some liquidation =>
        require (0 < mark) (.observationError
          (Text.show name ++ ": non-flat position has invalid mark/liquidation"))
        return (expectedUpnl, some (|mark - liquidation| * RATE_SCALE / mark))
      | none => .error (.observationError
          (Text.show name ++ ": non-flat position has invalid mark/liquidation")) :
    Py (ℤ × Option ℤ))
  require (position.upnlMicro = expectedUpnl) (.observationError
    (Text.show name ++ ": uPnL does not derive from last_mark_px_ticks"))
  require (position.distToLiq1e8 = expectedDistance) (.observationError
    (Text.show name ++ ": liquidation distance uses a different mark"))
  return position.marginMicro + expectedUpnl

end Observe

/-- The checks a finished build makes of itself. -/
def ObservationBuild.assertInvariants (build : ObservationBuild) : Py Unit := do
  let _ ← build.provenance.mapM fun (name, sources) =>
    Observe.assertNoFutureSources build.realClockTs name sources
  let parts ← (build.document.markets.zip build.document.position).mapM
    fun ((name, market), (_, position)) => Observe.assertSingleMark name market position
  require (build.document.navMicro = build.document.cashMicro + parts.sum)
    (.observationError "account NAV violates the single-mark invariant")

/-- `EPISODE_ID_PATTERN`: `ep_` and sixteen lowercase hexadecimal digits. -/
def isEpisodeId (id : Text) : Bool :=
  txt "ep_" <+: id && id.length == 19 &&
    (id.drop 3).all fun c => isDigit c || (0x61 ≤ c.val && c.val ≤ 0x66)

/-- Build one observation and its provenance proof. -/
def buildObservation (pack : PackData) (config : EpisodeConfig) (episodeId : Text) (turn : ℕ)
    (account : AccountState) (positions : List (Text × PositionState)) (risk : RiskState) :
    Py ObservationBuild := do
  require (isEpisodeId episodeId)
    (.observationError "episode_id must match ep_<16 lowercase hex>")
  let barsTotal ← pack.barsTotal
  require (turn < barsTotal) (.observationError "turn is outside the episode")
  let unknown := (positions.map Prod.fst).filter fun p => p ∉ pack.marketAliases
  require (unknown = []) (.observationError
    ("positions contain unknown markets: " ++ joinNames (sortTexts unknown)))
  let effective ← config.effectiveLookback pack.defaultLookback.bars
    pack.defaultLookback.fundingPrints
  let _ ← pack.marketAliases.mapM fun name => do
    let market ← pack.market name
    config.validateCostProfiles market.spec.costProfileMultipliers1e4
  let realTs ← pack.clockRealTs turn
  let clock ← VirtualClock.forWindow pack.windowStartTs realTs
  let builds ← pack.marketAliases.mapM (Observe.marketBuild pack positions effective clock)
  let navMicro := account.cashMicro + (builds.map fun b => b.2.marginAndUpnl).sum
  let constraints ← Observe.riskConstraints config pack (builds.map fun b => (b.1, b.2.notional))
    navMicro risk
  let document : Observation :=
    { episode :=
        { episodeId
          turn
          barIndex := turn
          barsTotal
          barsRemaining := barsTotal - turn - 1
          decisionBarMs := pack.decisionBarMs
          responseDeadlineMs := config.responseDeadlineMs }
      clockTs := clock.rebasedTs
      markets := builds.map fun b => (b.1, b.2.view)
      position := builds.map fun b => (b.1, b.2.position)
      navMicro
      cashMicro := account.cashMicro
      realizedPnlMicro := account.realizedPnlMicro
      constraints
      killSwitchActive := risk.killSwitchActive }
  let build : ObservationBuild :=
    { document
      realClockTs := clock.realTs
      rebaseOffsetMs := clock.rebaseOffsetMs
      provenance := builds.map fun b => (b.1, b.2.provenance) }
  build.assertInvariants
  return build

end WagmiBench.Core
