import WagmiBench.Core.Metrics
import WagmiBench.Harness.Protocol

/-!
# Engine state

The dataclasses of `core/engine.py` and the pure functions on them: accounts, snapshots, counters,
and the events of a run, each event with a typed payload and its stored JSON form.
-/

namespace WagmiBench.Core

open WagmiBench.Lib WagmiBench.Harness

abbrev NEAR_LIQ_THRESHOLD_1E8 : ℤ := 5_000_000
abbrev MAX_IJSON_INT : ℤ := 2 ^ 53 - 1

/-! ## Accounts -/

/-- `_Account` -/
structure Account where
  positionQtyBase1e8 : ℤ
  entryPxTicks : ℤ
  targetLeverage1e4 : ℤ
  cashMicro : ℤ
  feesCumMicro : ℤ
  fundingCumMicro : ℤ
  realizedPriceCumMicro : ℤ
  liquidationPenaltyCumMicro : ℤ
  turnoverNotionalMicro : ℤ
  fillCostCumMicro : ℤ
  killSwitchActive : Bool
  deriving DecidableEq, Repr

/-- `_Account(cash_micro=starting_nav_micro)` -/
def Account.start (startingNavMicro : ℤ) : Account :=
  ⟨0, 0, 0, startingNavMicro, 0, 0, 0, 0, 0, 0, false⟩

/-- The account without its position. -/
def Account.flat (account : Account) : Account :=
  { account with positionQtyBase1e8 := 0, entryPxTicks := 0, targetLeverage1e4 := 0 }

/-- `_realized_pnl` -/
def Account.realizedPnl (account : Account) : ℤ :=
  account.realizedPriceCumMicro - account.feesCumMicro - account.fundingCumMicro -
    account.liquidationPenaltyCumMicro

/-- `_maintenance_rate` -/
def maintenanceRate (spec : MarketSpec) (notional : ℤ) : ℤ :=
  match spec.marginTiers.find? fun tier => notional ≤ tier.notionalCapMicro with
  | some tier => tier.maintenanceRate1e8
  | none => (spec.marginTiers.getLast spec.margin_tiers_ne_nil).maintenanceRate1e8

/-- `_upnl` -/
def upnl (account : Account) (markTicks : ℤ) (spec : MarketSpec) : Py ℤ :=
  if account.positionQtyBase1e8 = 0 then .ok 0
  else unrealizedPnlMicro account.positionQtyBase1e8 account.entryPxTicks markTicks
    spec.tickSizeMicro

/-! ## Snapshots -/

/-- `_Snapshot` -/
structure Snapshot where
  barIndex : ℕ
  absoluteBarIndex : ℕ
  closeTs : ℤ
  positionQtyBase1e8 : ℤ
  entryPxTicks : Option ℤ
  markCloseTicks : ℤ
  upnlMicro : ℤ
  cashMicro : ℤ
  navMicro : ℤ
  feesCumMicro : ℤ
  fundingCumMicro : ℤ
  realizedPriceCumMicro : ℤ
  liquidationPenaltyCumMicro : ℤ
  marginMicro : ℤ
  maintenanceMarginMicro : ℤ
  liquidationPxTicks : Option ℤ
  distanceToLiquidation1e8 : Option ℤ
  minIntrabarDistance1e8 : Option ℤ
  deriving DecidableEq, Repr

/-- What `_snapshot` computes only for a held position. -/
structure PositionRisk where
  entry : Option ℤ
  margin : ℤ
  maintenance : ℤ
  liquidation : Option ℤ
  distance : Option ℤ
  minDistance : Option ℤ

/-- The position part of `_snapshot`. -/
def positionRisk (account : Account) (spec : MarketSpec) (mark : BarRow) : Py PositionRisk := do
  if account.positionQtyBase1e8 = 0 then
    return ⟨none, 0, 0, none, none, none⟩
  let positionSign := sign account.positionQtyBase1e8
  let markNotional ← notionalMicro account.positionQtyBase1e8 mark.c spec.tickSizeMicro
  let rate := maintenanceRate spec markNotional
  let liquidation ← liquidationPriceTicks account.entryPxTicks positionSign
    account.targetLeverage1e4 rate
  let distance ← distanceToLiquidation1e8 mark.c liquidation positionSign
  let adverse := if 0 < positionSign then mark.l else mark.h
  let minDistance ← distanceToLiquidation1e8 adverse liquidation positionSign
  let margin ← marginUsedMicro account.positionQtyBase1e8 account.entryPxTicks spec.tickSizeMicro
    account.targetLeverage1e4
  let maintenance ← maintenanceMarginMicro account.positionQtyBase1e8 mark.c spec.tickSizeMicro
    rate
  return ⟨some account.entryPxTicks, margin, maintenance, some liquidation, some distance,
    some minDistance⟩

/-- `_snapshot` -/
def snapshot (account : Account) (market : MarketData) (absoluteBarIndex relativeBarIndex : ℕ)
    (closeTs : Option ℤ) : Py Snapshot := do
  let mark ← rowAt market.mark absoluteBarIndex
  let upnl ← upnl account mark.c market.spec
  let risk ← positionRisk account market.spec mark
  let closeTs ← match closeTs with
    | some ts => pure ts
    | none => (·.availableAt) <$> rowAt market.trade absoluteBarIndex
  return {
    barIndex := relativeBarIndex
    absoluteBarIndex
    closeTs
    positionQtyBase1e8 := account.positionQtyBase1e8
    entryPxTicks := risk.entry
    markCloseTicks := mark.c
    upnlMicro := upnl
    cashMicro := account.cashMicro
    navMicro := account.cashMicro + upnl
    feesCumMicro := account.feesCumMicro
    fundingCumMicro := account.fundingCumMicro
    realizedPriceCumMicro := account.realizedPriceCumMicro
    liquidationPenaltyCumMicro := account.liquidationPenaltyCumMicro
    marginMicro := risk.margin
    maintenanceMarginMicro := risk.maintenance
    liquidationPxTicks := risk.liquidation
    distanceToLiquidation1e8 := risk.distance
    minIntrabarDistance1e8 := risk.minDistance }

/-- `run.snapshots`: never empty, oldest first. -/
structure SnapshotLog where
  earlier : List Snapshot
  last : Snapshot
  deriving DecidableEq

namespace SnapshotLog

def all (log : SnapshotLog) : List Snapshot := log.earlier ++ [log.last]

/-- `run.snapshots.append(s)` -/
def push (log : SnapshotLog) (s : Snapshot) : SnapshotLog := ⟨log.all, s⟩

/-- `run.snapshots[-1] = s` -/
def replaceLast (log : SnapshotLog) (s : Snapshot) : SnapshotLog := { log with last := s }

/-- `max(row.nav_micro for row in snapshots)` -/
def peakNav (log : SnapshotLog) : ℤ :=
  (log.earlier.map Snapshot.navMicro).foldr max log.last.navMicro

@[simp] theorem push_last (log : SnapshotLog) (s : Snapshot) : (log.push s).last = s := rfl

@[simp] theorem push_earlier (log : SnapshotLog) (s : Snapshot) :
    (log.push s).earlier = log.all := rfl

@[simp] theorem push_all (log : SnapshotLog) (s : Snapshot) :
    (log.push s).all = log.all ++ [s] := rfl

@[simp] theorem replaceLast_last (log : SnapshotLog) (s : Snapshot) :
    (log.replaceLast s).last = s := rfl

@[simp] theorem replaceLast_earlier (log : SnapshotLog) (s : Snapshot) :
    (log.replaceLast s).earlier = log.earlier := rfl

end SnapshotLog

/-- `_drawdown_1e8` -/
def drawdown1e8 (snapshots : SnapshotLog) : Py ℤ := do
  let peak := snapshots.peakNav
  require (0 < peak) (.engineError "episode NAV has no positive peak")
  return floorFraction (((peak - snapshots.last.navMicro) * RATE_SCALE : ℤ) / peak)

/-- `_Counters` -/
structure Counters where
  turns : ℕ
  invalidActions : ℕ
  missedDecisions : ℕ
  gateBlocks : ℕ
  postKillSwitchAttempts : ℕ
  liquidations : ℕ
  killSwitchFired : Bool
  deriving DecidableEq, Repr

/-- `_Counters()` -/
def Counters.zero : Counters := ⟨0, 0, 0, 0, 0, 0, false⟩

/-- `totals.reason` -/
inductive EndReason where
  | completed
  | liquidated
  deriving DecidableEq, Repr

def EndReason.wire : EndReason → Text
  | .completed => txt "completed"
  | .liquidated => txt "liquidated"

/-- `_Totals` -/
structure Totals where
  reason : EndReason
  finalTurn : ℤ
  finalNavMicro : ℤ
  turnoverNotionalMicro : ℤ
  fillCostCumMicro : ℤ
  feesCumMicro : ℤ
  fundingCumMicro : ℤ
  liquidationPenaltyCumMicro : ℤ
  deriving DecidableEq, Repr

/-! ## Decisions -/

/-- Why a turn ended without an action. -/
inductive RejectReason where
  | malformed (reason : ActionReason)
  | timeout
  | agentError
  deriving DecidableEq, Repr

def RejectReason.wire : RejectReason → Text
  | .malformed reason => reason.wire
  | .timeout => txt "timeout"
  | .agentError => txt "agent_error"

/-- The payload of `ActionRejected`. -/
structure Rejection where
  reason : RejectReason
  detail : Text
  validatorError : Option Text
  attempts : ℕ
  deriving DecidableEq

/-- The payload of `EgressBlocked`, as `_drain_harness_events` lets it through. -/
structure BlockFact where
  destination : Text
  port : Option ℤ
  protocol : Text
  count : ℤ
  deriving DecidableEq

/-- `_TurnDecision`: it has a parsed action or a rejection, never neither. -/
structure TurnDecision where
  responses : List AgentReply
  harnessEvents : List BlockFact
  outcome : ParsedAction ⊕ Rejection
  rawSha256 : Option Text

/-- `decision.parsed` -/
def TurnDecision.parsed (decision : TurnDecision) : Option ParsedAction :=
  match decision.outcome with
  | .inl action => some action
  | .inr _ => none

/-! ## Events -/

/-- A gate's verdict on one order. -/
structure RiskCheck where
  constraintId : Text
  constraintType : Text
  scope : Text
  observed : ℤ
  limit : ℤ
  unit : Text
  passed : Bool

structure AgentResponded where
  attempt : ℕ
  rawRef : Text
  rawSha256 : Text
  rawBytes : ℕ
  latencyMs : ℤ
  httpStatus : Option ℤ
  /-- Input and output tokens. -/
  tokenUsage : Option (ℤ × ℤ)
  transport : Text

structure FundingApplied where
  market : Text
  settlementTs : ℤ
  rate1e8 : ℤ
  indexPxTicks : ℤ
  positionQtyBase1e8 : ℤ
  amountMicro : ℤ

structure OrderFilled where
  market : Text
  side : Side
  requestedQtyBase1e8 : ℤ
  qtyBase1e8 : ℤ
  refOpenPxTicks : ℤ
  halfSpreadTicks : ℤ
  impactTicks : ℤ
  fillPxTicks : ℤ
  notionalMicro : ℤ
  feeMicro : ℤ
  slippage1e8 : ℤ

/-- Why an order, or the rest of one, was not executed. -/
inductive CancelReason where
  | participationCap
  | minNotional
  | maxSlippageExceeded
  | qtyRounding
  deriving DecidableEq, Repr

def CancelReason.wire : CancelReason → Text
  | .participationCap => txt "participation_cap"
  | .minNotional => txt "min_notional"
  | .maxSlippageExceeded => txt "max_slippage_exceeded"
  | .qtyRounding => txt "qty_rounding"

structure OrderCancelled where
  market : Text
  reason : CancelReason
  requestedQtyBase1e8 : ℤ
  cancelledQtyBase1e8 : ℤ
  detail : Text

/-- `_margin_payload` -/
structure MarginUpdate where
  market : Text
  markPxTicks : ℤ
  markHighTicks : ℤ
  markLowTicks : ℤ
  positionQtyBase1e8 : ℤ
  entryPxTicks : Option ℤ
  marginMicro : ℤ
  maintenanceMarginMicro : ℤ
  upnlMicro : ℤ
  liqPxTicks : Option ℤ
  distToLiq1e8 : Option ℤ
  minIntrabarDistToLiq1e8 : Option ℤ

/-- The adverse extreme a long or a short is marked at. -/
inductive Trigger where
  | markLow
  | markHigh
  deriving DecidableEq, Repr

def Trigger.wire : Trigger → Text
  | .markLow => txt "mark_low"
  | .markHigh => txt "mark_high"

structure LiquidationTriggered where
  market : Text
  trigger : Trigger
  triggerPxTicks : ℤ
  liqPxTicks : ℤ
  closePxTicks : ℤ
  positionQtyBase1e8 : ℤ
  penaltyMicro : ℤ
  lossMicro : ℤ

structure NearLiquidation where
  market : Text
  trigger : Trigger
  markExtremePxTicks : ℤ
  liqPxTicks : ℤ
  minIntrabarDistToLiq1e8 : ℤ

structure KillSwitchTriggered where
  drawdown1e8 : ℤ
  limit1e8 : ℤ
  peakNavMicro : ℤ
  navMicro : ℤ
  flattenOrderSeqs : List ℕ

/-- An event's type and payload. -/
inductive Payload where
  | observationEmitted (observationSha256 observationRef : Text)
  | agentResponded (p : AgentResponded)
  | egressBlocked (p : BlockFact)
  | actionParsed (p : ParsedAction)
  | actionRejected (p : Rejection)
  | fundingApplied (p : FundingApplied)
  | riskCheck (p : RiskCheck)
  | postKillSwitchAttempt (targetLev1e4 : List (Text × ℤ)) (rawSha256 : Option Text)
  | orderFilled (p : OrderFilled)
  | orderCancelled (p : OrderCancelled)
  | marginUpdate (p : MarginUpdate)
  | liquidationTriggered (p : LiquidationTriggered)
  | nearLiquidation (p : NearLiquidation)
  | killSwitchTriggered (p : KillSwitchTriggered)
  | episodeEnd (reason : EndReason) (finalTurn finalNavMicro : ℤ) (metricsSha256 : Text)

/-- Who observed an event. -/
inductive EventSource where
  | engine
  | harness
  deriving DecidableEq, Repr

/-- An event before it has its place in the stream. -/
structure Draft where
  ts : ℤ
  turn : Option ℕ
  barIndex : Option ℕ
  source : EventSource
  payload : Payload

/-- One event of the stream. -/
structure Event extends Draft where
  seq : ℕ

/-- `_emit` -/
def emit (events : List Event) (draft : Draft) : List Event :=
  events ++ [{ draft with seq := events.length }]

/-- A sequence of `_emit` calls. -/
def emitAll (events : List Event) (drafts : List Draft) : List Event := drafts.foldl emit events

/-- An engine event at a turn. -/
abbrev engineDraft (ts : ℤ) (turn barIndex : ℕ) (payload : Payload) : Draft :=
  ⟨ts, some turn, some barIndex, .engine, payload⟩

/-! ## Events as JSON -/

section Documents

/-- An optional text as JSON. -/
def jsonOptStr : Option Text → Json
  | none => .null
  | some t => .str t

def Side.wire : Side → Text
  | .buy => txt "buy"
  | .sell => txt "sell"

def jsonTargets (targets : List (Text × ℤ)) : Json := .obj (targets.map fun t => (t.1, .int t.2))

def jsonTokenUsage : Option (ℤ × ℤ) → Json
  | none => .null
  | some (input, output) => jsonObj [("input_tokens", .int input), ("output_tokens", .int output)]

def Payload.type : Payload → Text
  | .observationEmitted .. => txt "ObservationEmitted"
  | .agentResponded _ => txt "AgentResponded"
  | .egressBlocked _ => txt "EgressBlocked"
  | .actionParsed _ => txt "ActionParsed"
  | .actionRejected _ => txt "ActionRejected"
  | .fundingApplied _ => txt "FundingApplied"
  | .riskCheck _ => txt "RiskCheck"
  | .postKillSwitchAttempt .. => txt "PostKillSwitchAttempt"
  | .orderFilled _ => txt "OrderFilled"
  | .orderCancelled _ => txt "OrderCancelled"
  | .marginUpdate _ => txt "MarginUpdate"
  | .liquidationTriggered _ => txt "LiquidationTriggered"
  | .nearLiquidation _ => txt "NearLiquidation"
  | .killSwitchTriggered _ => txt "KillSwitchTriggered"
  | .episodeEnd .. => txt "EpisodeEnd"

def AgentResponded.toJson (p : AgentResponded) : Json :=
  jsonObj [("attempt", .int p.attempt), ("raw_ref", .str p.rawRef),
    ("raw_sha256", .str p.rawSha256), ("raw_bytes", .int p.rawBytes),
    ("latency_ms", .int p.latencyMs), ("http_status", jsonOptInt p.httpStatus),
    ("token_usage", jsonTokenUsage p.tokenUsage), ("transport", .str p.transport)]

def BlockFact.toJson (p : BlockFact) : Json :=
  jsonObj [("destination", .str p.destination), ("port", jsonOptInt p.port),
    ("protocol", .str p.protocol), ("count", .int p.count)]

def Rejection.toJson (p : Rejection) : Json :=
  jsonObj [("reason", .str p.reason.wire), ("detail", .str p.detail),
    ("validator_error", jsonOptStr p.validatorError), ("attempts", .int p.attempts)]

def FundingApplied.toJson (p : FundingApplied) : Json :=
  jsonObj [("market", .str p.market), ("settlement_ts", .int p.settlementTs),
    ("rate_1e8", .int p.rate1e8), ("index_px_ticks", .int p.indexPxTicks),
    ("position_qty_base_1e8", .int p.positionQtyBase1e8), ("amount_micro", .int p.amountMicro)]

def RiskCheck.toJson (p : RiskCheck) : Json :=
  jsonObj [("constraint_id", .str p.constraintId), ("constraint_type", .str p.constraintType),
    ("scope", .str p.scope), ("observed", .int p.observed), ("limit", .int p.limit),
    ("unit", .str p.unit), ("verdict", jsonStr (if p.passed then "pass" else "block"))]

def OrderFilled.toJson (p : OrderFilled) : Json :=
  jsonObj [("market", .str p.market), ("side", .str p.side.wire),
    ("requested_qty_base_1e8", .int p.requestedQtyBase1e8), ("qty_base_1e8", .int p.qtyBase1e8),
    ("ref_open_px_ticks", .int p.refOpenPxTicks), ("half_spread_ticks", .int p.halfSpreadTicks),
    ("impact_ticks", .int p.impactTicks), ("fill_px_ticks", .int p.fillPxTicks),
    ("notional_micro", .int p.notionalMicro), ("fee_micro", .int p.feeMicro),
    ("slippage_1e8", .int p.slippage1e8), ("cost_profile", jsonStr "primary")]

def OrderCancelled.toJson (p : OrderCancelled) : Json :=
  jsonObj [("market", .str p.market), ("reason", .str p.reason.wire),
    ("requested_qty_base_1e8", .int p.requestedQtyBase1e8),
    ("cancelled_qty_base_1e8", .int p.cancelledQtyBase1e8), ("detail", .str p.detail)]

def MarginUpdate.toJson (p : MarginUpdate) : Json :=
  jsonObj [("market", .str p.market), ("mark_px_ticks", .int p.markPxTicks),
    ("mark_high_ticks", .int p.markHighTicks), ("mark_low_ticks", .int p.markLowTicks),
    ("position_qty_base_1e8", .int p.positionQtyBase1e8),
    ("entry_px_ticks", jsonOptInt p.entryPxTicks), ("margin_micro", .int p.marginMicro),
    ("maintenance_margin_micro", .int p.maintenanceMarginMicro),
    ("upnl_micro", .int p.upnlMicro), ("liq_px_ticks", jsonOptInt p.liqPxTicks),
    ("dist_to_liq_1e8", jsonOptInt p.distToLiq1e8),
    ("min_intrabar_dist_to_liq_1e8", jsonOptInt p.minIntrabarDistToLiq1e8)]

def LiquidationTriggered.toJson (p : LiquidationTriggered) : Json :=
  jsonObj [("market", .str p.market), ("trigger", .str p.trigger.wire),
    ("trigger_px_ticks", .int p.triggerPxTicks), ("liq_px_ticks", .int p.liqPxTicks),
    ("close_px_ticks", .int p.closePxTicks),
    ("position_qty_base_1e8", .int p.positionQtyBase1e8),
    ("penalty_micro", .int p.penaltyMicro), ("loss_micro", .int p.lossMicro)]

def NearLiquidation.toJson (p : NearLiquidation) : Json :=
  jsonObj [("market", .str p.market), ("trigger", .str p.trigger.wire),
    ("mark_extreme_px_ticks", .int p.markExtremePxTicks), ("liq_px_ticks", .int p.liqPxTicks),
    ("min_intrabar_dist_to_liq_1e8", .int p.minIntrabarDistToLiq1e8),
    ("threshold_1e8", .int NEAR_LIQ_THRESHOLD_1E8)]

def KillSwitchTriggered.toJson (p : KillSwitchTriggered) : Json :=
  jsonObj [("drawdown_1e8", .int p.drawdown1e8), ("limit_1e8", .int p.limit1e8),
    ("peak_nav_micro", .int p.peakNavMicro), ("nav_micro", .int p.navMicro),
    ("flatten_order_seqs", .arr (p.flattenOrderSeqs.map fun n => .int n))]

def Payload.toJson : Payload → Json
  | .observationEmitted sha ref =>
    jsonObj [("observation_sha256", .str sha), ("observation_ref", .str ref)]
  | .agentResponded p => p.toJson
  | .egressBlocked p => p.toJson
  | .actionParsed p => .obj p.toMapping
  | .actionRejected p => p.toJson
  | .fundingApplied p => p.toJson
  | .riskCheck p => p.toJson
  | .postKillSwitchAttempt targets raw =>
    jsonObj [("target_lev_1e4", jsonTargets targets), ("raw_sha256", jsonOptStr raw)]
  | .orderFilled p => p.toJson
  | .orderCancelled p => p.toJson
  | .marginUpdate p => p.toJson
  | .liquidationTriggered p => p.toJson
  | .nearLiquidation p => p.toJson
  | .killSwitchTriggered p => p.toJson
  | .episodeEnd reason finalTurn finalNav sha =>
    jsonObj [("reason", .str reason.wire), ("final_turn", .int finalTurn),
      ("final_nav_micro", .int finalNav), ("metrics_sha256", .str sha)]

def EventSource.wire : EventSource → Text
  | .engine => txt "engine"
  | .harness => txt "harness"

def jsonOptNat : Option ℕ → Json
  | none => .null
  | some n => .int n

/-- The stored form of an event. -/
def Event.toJson (e : Event) : Json :=
  jsonObj [("schema", jsonStr "event/v1"), ("seq", .int e.seq), ("ts", .int e.ts),
    ("turn", jsonOptNat e.turn), ("bar_index", jsonOptNat e.barIndex),
    ("source", .str e.source.wire), ("type", .str e.payload.type),
    ("payload", e.payload.toJson)]

end Documents

end WagmiBench.Core
