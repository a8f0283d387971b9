import WagmiBench.Core.Engine.Decision

/-!
# One turn of a profile simulation

The body of the turn loop of `_run_profile` after the decision is known: coincident funding, gates
and fill, funding inside the holding bar, liquidation, the closing snapshot and the kill switch.
Each phase returns what it does to the economic state together with the events it would emit;
`collectEvidence` appears exactly where the source consults it for something other than emitting.
-/

namespace WagmiBench.Core

open WagmiBench.Lib WagmiBench.Harness WagmiBench.Spec

/-- What `_run_profile` fixes before its loop. -/
structure ProfileEnv where
  pack : PackData
  config : EpisodeConfig
  aliasName : Text
  market : MarketData
  multiplier : ℤ

/-- The economic state of a profile simulation. -/
structure ProfileCore where
  account : Account
  counters : Counters
  snapshots : SnapshotLog
  terminal : Bool
  lastTurn : ℤ

/-- A turn's place in the series and on the clock. -/
structure TurnClock where
  turn : ℕ
  decisionAbs : ℕ
  decisionTs : ℤ
  holdingCloseTs : ℤ

/-- `fill_abs` -/
abbrev TurnClock.fillAbs (clock : TurnClock) : ℕ := clock.decisionAbs + 1

/-! ## Funding -/

/-- `_applied_funding`: the applied rate, the index price, the cash flow and the account after it. -/
def appliedFunding (account : Account) (market : MarketData) (row : FundingRow) :
    Py (ℤ × ℤ × ℤ × Account) := do
  let appliedRate ← clampFundingRate1e8 row.rate1e8 market.spec.funding.floor1e8
    market.spec.funding.cap1e8
  match market.index.find? fun r => r.ts = row.ts with
  | none => .error (.engineError ("funding settlement has no exact index-price row: market=" ++
      Text.show market.spec.aliasName ++ s!" ts={row.ts}"))
  | some indexRow => do
    let cashFlow ← fundingCashFlowMicro account.positionQtyBase1e8 indexRow.o
      market.spec.tickSizeMicro appliedRate
    return (appliedRate, indexRow.o, cashFlow,
      { account with
        cashMicro := account.cashMicro + cashFlow
        fundingCumMicro := account.fundingCumMicro - cashFlow })

section Phases

variable (env : ProfileEnv) (clock : TurnClock)

/-- One settlement, charged at `ts`. -/
def settleFunding (ts : ℤ) (row : FundingRow) (account : Account) : Py (Account × Draft) := do
  let (appliedRate, indexPx, cashFlow, account) ← appliedFunding account env.market row
  return (account, engineDraft ts clock.turn (clock.turn + 1) (.fundingApplied
    { market := env.aliasName
      settlementTs := ts
      rate1e8 := appliedRate
      indexPxTicks := indexPx
      positionQtyBase1e8 := account.positionQtyBase1e8
      amountMicro := cashFlow }))

/-- A settlement exactly at the fill instant, on the position carried into it. -/
def coincidentFunding (account : Account) : Py (Account × List Draft) :=
  match env.market.funding.find? fun row => row.ts = clock.decisionTs with
  | none => .ok (account, [])
  | some row => do
    let (account, draft) ← settleFunding env clock clock.decisionTs row account
    return (account, [draft])

/-- Settlements strictly inside the holding bar, on the position held after the fill. -/
def holdingFunding : List FundingRow → Account → Py (Account × List Draft)
  | [], account => .ok (account, [])
  | row :: rows, account =>
    if clock.decisionTs < row.ts ∧ row.ts < clock.holdingCloseTs then do
      let (account, draft) ← settleFunding env clock row.ts row account
      let (account, drafts) ← holdingFunding rows account
      return (account, draft :: drafts)
    else holdingFunding rows account

/-! ## Sizing and gates -/

/-- What an action asks for, against the account and the fill bar. -/
structure Sizing where
  targetLev : ℤ
  grossTarget : ℤ
  requestedDelta : ℤ
  rawRequestedDelta : ℤ
  projectedTurnover : ℤ

def sizeAction (account : Account) (action : ParsedAction) : Py Sizing := do
  let targetLev := ((action.targetLev1e4.find? fun t => t.1 = env.aliasName).map Prod.snd).getD 0
  let grossTarget := (action.targetLev1e4.map fun t => |t.2|).sum
  let markRow ← rowAt env.market.mark clock.decisionAbs
  let decisionUpnl ← upnl account markRow.c env.market.spec
  let navAtDecision := account.cashMicro + decisionUpnl
  let fillRow ← rowAt env.market.trade clock.fillAbs
  let requestedTargetQty ← targetQuantityBase1e8 targetLev navAtDecision fillRow.o
    env.market.spec.tickSizeMicro env.market.spec.qtyStepBase1e8
  let rawTargetQty ← rawTargetQuantityBase1e8 targetLev navAtDecision fillRow.o
    env.market.spec.tickSizeMicro
  let requestedDelta := requestedTargetQty - account.positionQtyBase1e8
  let rawRequestedDelta := rawTargetQty - account.positionQtyBase1e8
  let projectedNotional ← notionalMicro requestedDelta fillRow.o env.market.spec.tickSizeMicro
  let projectedTurnover ← turnover1e8 (account.turnoverNotionalMicro + projectedNotional)
    env.config.startingNavMicro
  return ⟨targetLev, grossTarget, requestedDelta, rawRequestedDelta, projectedTurnover⟩

/-- `checks`, in the order they are made. -/
def riskChecks (account : Account) (sizing : Sizing) (drawdownUsed : ℤ) : List RiskCheck :=
  let market : RiskCheck :=
    ⟨txt "lev-" ++ env.aliasName, txt "leverage_cap_market", env.aliasName, |sizing.targetLev|,
      env.market.spec.leverageCapLev1e4, txt "lev_1e4",
      |sizing.targetLev| ≤ env.market.spec.leverageCapLev1e4⟩
  let gross : RiskCheck :=
    ⟨txt "lev-gross", txt "leverage_cap_gross", txt "account", sizing.grossTarget,
      env.config.leverageCapGrossLev1e4, txt "lev_1e4",
      sizing.grossTarget ≤ env.config.leverageCapGrossLev1e4⟩
  let turnover : List RiskCheck := match env.config.turnoverCap1e8 with
    | some cap => [⟨txt "turnover", txt "turnover_cap", txt "account", sizing.projectedTurnover,
        cap, txt "1e8", sizing.projectedTurnover ≤ cap⟩]
    | none => []
  let drawdown : RiskCheck :=
    ⟨txt "drawdown-ks", txt "drawdown_kill_switch", txt "account", drawdownUsed,
      env.config.drawdownKillSwitch1e8, txt "1e8",
      !account.killSwitchActive || sizing.targetLev = 0⟩
  market :: gross :: turnover ++ [drawdown]

/-! ## Orders -/

/-- What a fill realizes: nothing unless it closes, reduces or turns a held position. -/
def realizedByFill (account : Account) (signedFillQty fillPxTicks : ℤ) (spec : MarketSpec) :
    Py ℤ :=
  let oldPosition := account.positionQtyBase1e8
  let newPosition := oldPosition + signedFillQty
  if oldPosition ≠ 0 ∧ (newPosition = 0 ∨ sign newPosition ≠ sign oldPosition ∨
      |newPosition| < |oldPosition|) then
    realizedPnlMicro (sign oldPosition) (min |oldPosition| |signedFillQty|)
      account.entryPxTicks fillPxTicks spec.tickSizeMicro
  else .ok 0

/-- `_apply_position_fill` -/
def applyPositionFill (account : Account)
    (signedFillQty fillPxTicks requestedTargetLeverage1e4 fee fillNotional referenceNotional : ℤ)
    (requestFullyFilled : Bool) (spec : MarketSpec) : Py Account := do
  let oldPosition := account.positionQtyBase1e8
  let newPosition := oldPosition + signedFillQty
  let realized ← realizedByFill account signedFillQty fillPxTicks spec
  let account := { account with
    cashMicro := account.cashMicro + (realized - fee)
    feesCumMicro := account.feesCumMicro + fee
    realizedPriceCumMicro := account.realizedPriceCumMicro + realized
    turnoverNotionalMicro := account.turnoverNotionalMicro + fillNotional
    fillCostCumMicro := account.fillCostCumMicro + |fillNotional - referenceNotional| }
  if newPosition = 0 then
    return account.flat
  if oldPosition = 0 ∨ sign newPosition ≠ sign oldPosition then
    return { account with
      positionQtyBase1e8 := newPosition
      entryPxTicks := fillPxTicks
      targetLeverage1e4 := |requestedTargetLeverage1e4| }
  let grown := decide (|oldPosition| < |newPosition|)
  let entry := if grown then
      (account.entryPxTicks * |oldPosition| + fillPxTicks * |signedFillQty|) / |newPosition|
    else account.entryPxTicks
  return { account with
    positionQtyBase1e8 := newPosition
    entryPxTicks := entry
    targetLeverage1e4 := if grown || requestFullyFilled then |requestedTargetLeverage1e4|
      else account.targetLeverage1e4 }

/-- `filled_qty if side == "buy" else -filled_qty` -/
def FillCalculation.signedQty (fill : FillCalculation) : ℤ :=
  if fill.side = .buy then fill.quantities.filledQtyBase1e8 else -fill.quantities.filledQtyBase1e8

/-- The cancellation ladder of one calculated fill. -/
def cancelReason (fill : FillCalculation) (action : ParsedAction) : Option CancelReason :=
  if fill.quantities.filledQtyBase1e8 = 0 then some .participationCap
  else if fill.notionalMicro < env.market.spec.minNotionalMicro then some .minNotional
  else if ∃ bps ∈ action.maxSlippageBps, bps * 10_000 < |fill.slippage1e8| then
    some .maxSlippageExceeded
  else none

/-- The event of a turn's own order phase. -/
abbrev orderDraft (payload : Payload) : Draft :=
  engineDraft clock.decisionTs clock.turn (clock.turn + 1) payload

/-- The executed part of an order. -/
def filledPayload (fill : FillCalculation) (requested : ℤ) : Payload :=
  .orderFilled
    { market := env.aliasName
      side := fill.side
      requestedQtyBase1e8 := requested
      qtyBase1e8 := fill.quantities.filledQtyBase1e8
      refOpenPxTicks := fill.refOpenPxTicks
      halfSpreadTicks := fill.halfSpreadTicks
      impactTicks := fill.impactTicks
      fillPxTicks := fill.fillPxTicks
      notionalMicro := fill.notionalMicro
      feeMicro := fill.feeMicro
      slippage1e8 := fill.slippage1e8 }

/-- The unfilled rest of a participation-capped order. -/
def partialCancel (fill : FillCalculation) (requested volume : ℤ) : List Draft :=
  if fill.quantities.cancelledQtyBase1e8 = 0 then []
  else [orderDraft clock (.orderCancelled
    { market := env.aliasName
      reason := .participationCap
      requestedQtyBase1e8 := requested
      cancelledQtyBase1e8 := fill.quantities.cancelledQtyBase1e8
      detail := txt "participation_cap: requested_qty " ++ decimalInt requested ++
        txt " > cap_qty " ++ decimalInt fill.quantities.capacityQtyBase1e8 ++
        txt " (participation_cap_1e8 " ++ decimalInt env.market.spec.participationCap1e8 ++
        txt " x fill-bar volume " ++ decimalInt volume ++ txt ", floored to qty_step " ++
        decimalInt env.market.spec.qtyStepBase1e8 ++ txt ")" })]

/-- An order cancelled as a whole. -/
def fullCancel (reason : CancelReason) (requested : ℤ) : Draft :=
  orderDraft clock (.orderCancelled
    { market := env.aliasName
      reason
      requestedQtyBase1e8 := requested
      cancelledQtyBase1e8 := requested
      detail := reason.wire ++ txt ": requested_qty " ++ decimalInt requested ++
        txt " not executed" })

/-- An unblocked order for a non-zero quantity: cancelled as a whole, or filled up to capacity. -/
def executeOrder (account : Account) (action : ParsedAction) (sizing : Sizing) :
    Py (Account × List Draft) := do
  let side := if 0 < sizing.requestedDelta then Side.buy else Side.sell
  let requested := |sizing.requestedDelta|
  let fillRow ← rowAt env.market.trade clock.fillAbs
  let spec := env.market.spec
  let fill ← calculateFill side requested fillRow.vBase1e8 spec.participationCap1e8
    spec.qtyStepBase1e8 fillRow.o spec.tickSizeMicro spec.halfSpread1e8 spec.impactCoeff1e8
    spec.impactModel spec.takerFeeRate1e8 env.multiplier
  match cancelReason env fill action with
  | some reason => return (account, [fullCancel env clock reason requested])
  | none => do
    let account ← applyPositionFill account fill.signedQty fill.fillPxTicks sizing.targetLev
      fill.feeMicro fill.notionalMicro fill.referenceNotionalMicro
      (fill.quantities.cancelledQtyBase1e8 = 0) spec
    return (account, orderDraft clock (filledPayload env fill requested) ::
      partialCancel env clock fill requested fillRow.vBase1e8)

/-- A quantity lost to rounding. -/
def roundingCancel (sizing : Sizing) : Draft :=
  orderDraft clock (.orderCancelled
    { market := env.aliasName
      reason := .qtyRounding
      requestedQtyBase1e8 := |sizing.rawRequestedDelta|
      cancelledQtyBase1e8 := |sizing.rawRequestedDelta|
      detail := txt "qty_rounding: raw target delta " ++ decimalInt |sizing.rawRequestedDelta| ++
        txt " rounded to zero at qty_step " ++ decimalInt env.market.spec.qtyStepBase1e8 })

/-- An unblocked order whose rounded quantity is already held. The evidence flag decides here which
branch runs: with evidence a quantity lost to rounding is reported, otherwise the position takes
the requested leverage as its label. -/
def relabel (collectEvidence : Bool) (account : Account) (sizing : Sizing) :
    Account × List Draft :=
  if sizing.rawRequestedDelta ≠ 0 ∧ collectEvidence then
    (account, [roundingCancel env clock sizing])
  else if account.positionQtyBase1e8 ≠ 0 then
    ({ account with targetLeverage1e4 := |sizing.targetLev| }, [])
  else (account, [])

/-- The counters after the gates: one block for each failed check. -/
def countGates (counters : Counters) (checks : List RiskCheck) (postKill : Bool) : Counters :=
  { counters with
    gateBlocks := counters.gateBlocks + (checks.filter fun c => !c.passed).length
    postKillSwitchAttempts := counters.postKillSwitchAttempts + if postKill then 1 else 0 }

/-- The events of the gates. -/
def gateDrafts (checks : List RiskCheck) (postKill : Bool) (action : ParsedAction)
    (rawSha256 : Option Text) : List Draft :=
  (checks.map fun c => engineDraft clock.decisionTs clock.turn clock.turn (.riskCheck c)) ++
    if postKill then
      [engineDraft clock.decisionTs clock.turn clock.turn
        (.postKillSwitchAttempt action.targetLev1e4 rawSha256)]
    else []

/-- What follows the gates: an order, the relabelling, or nothing when blocked. -/
def orderPhase (collectEvidence blocked : Bool) (account : Account) (action : ParsedAction)
    (sizing : Sizing) : Py (Account × List Draft) :=
  if blocked then .ok (account, [])
  else if sizing.requestedDelta ≠ 0 then executeOrder env clock account action sizing
  else .ok (relabel env clock collectEvidence account sizing)

/-- A parsed action: the gates, then the order or the relabelling. -/
def processAction (collectEvidence : Bool) (account : Account) (counters : Counters)
    (action : ParsedAction) (rawSha256 : Option Text) (drawdownUsed : ℤ) :
    Py (Account × Counters × List Draft) := do
  let sizing ← sizeAction env clock account action
  let checks := riskChecks env account sizing drawdownUsed
  let blocked := checks.any fun c => !c.passed
  let postKill := blocked && account.killSwitchActive && decide (sizing.targetLev ≠ 0)
  let (account, orderDrafts) ← orderPhase env clock collectEvidence blocked account action sizing
  return (account, countGates counters checks postKill,
    gateDrafts clock checks postKill action rawSha256 ++ orderDrafts)

/-! ## Margin, liquidation and the kill switch -/

/-- `_margin_payload` -/
def marginPayload (account : Account) : Py MarginUpdate := do
  let mark ← rowAt env.market.mark clock.fillAbs
  if account.positionQtyBase1e8 = 0 then
    return ⟨env.market.spec.aliasName, mark.c, mark.h, mark.l, 0, none, 0, 0, 0, none, none, none⟩
  let s ← snapshot account env.market clock.fillAbs 0 none
  return ⟨env.market.spec.aliasName, mark.c, mark.h, mark.l, account.positionQtyBase1e8,
    some account.entryPxTicks, s.marginMicro, s.maintenanceMarginMicro, s.upnlMicro,
    s.liquidationPxTicks, s.distanceToLiquidation1e8, s.minIntrabarDistance1e8⟩

/-- The event of a turn's closing phase. -/
abbrev closeDraft (payload : Payload) : Draft :=
  engineDraft clock.holdingCloseTs clock.turn (clock.turn + 1) payload

/-- A `MarginUpdate`, whose payload is computed only to be emitted. -/
def marginDrafts (collectEvidence : Bool) (account : Account) : Py (List Draft) :=
  if collectEvidence then do
    let payload ← marginPayload env clock account
    return [closeDraft clock (.marginUpdate payload)]
  else .ok []

/-- The liquidation price of a held position against the closing mark of the holding bar. -/
def triggerPrice (account : Account) (mark : BarRow) : Py ℤ := do
  let markNotional ← notionalMicro account.positionQtyBase1e8 mark.c env.market.spec.tickSizeMicro
  liquidationPriceTicks account.entryPxTicks (sign account.positionQtyBase1e8)
    account.targetLeverage1e4 (maintenanceRate env.market.spec markNotional)

/-- The adverse extreme of a mark bar for the held position. -/
def adverse (account : Account) (mark : BarRow) : ℤ :=
  if 0 < account.positionQtyBase1e8 then mark.l else mark.h

/-- Which extreme that is. -/
def adverseTrigger (account : Account) : Trigger :=
  if 0 < account.positionQtyBase1e8 then .markLow else .markHigh

/-- Close the position at the adverse extreme, with the penalty. -/
def liquidate (account : Account) (mark : BarRow) (liqPx : ℤ) : Py (Account × Draft) := do
  let closePx := adverse account mark
  let spec := env.market.spec
  let oldPosition := account.positionQtyBase1e8
  let realized ← realizedPnlMicro (sign oldPosition) |oldPosition| account.entryPxTicks closePx
    spec.tickSizeMicro
  let penalty ← liquidationPenaltyMicro oldPosition closePx spec.tickSizeMicro
    spec.liquidationPenalty1e8
  let closeNotional ← notionalMicro oldPosition closePx spec.tickSizeMicro
  let closed := { account with
    cashMicro := account.cashMicro + (realized - penalty)
    realizedPriceCumMicro := account.realizedPriceCumMicro + realized
    liquidationPenaltyCumMicro := account.liquidationPenaltyCumMicro + penalty
    turnoverNotionalMicro := account.turnoverNotionalMicro + closeNotional }
  return (closed.flat, closeDraft clock (.liquidationTriggered
    { market := env.aliasName
      trigger := adverseTrigger account
      triggerPxTicks := closePx
      liqPxTicks := liqPx
      closePxTicks := closePx
      positionQtyBase1e8 := oldPosition
      penaltyMicro := penalty
      lossMicro := realized - penalty }))

/-- A wick that came close to the trigger. -/
def nearLiquidationDrafts (account : Account) (mark : BarRow) (liqPx minimumDistance : ℤ) :
    List Draft :=
  if minimumDistance < NEAR_LIQ_THRESHOLD_1E8 then
    [closeDraft clock (.nearLiquidation
      { market := env.aliasName
        trigger := adverseTrigger account
        markExtremePxTicks := adverse account mark
        liqPxTicks := liqPx
        minIntrabarDistToLiq1e8 := minimumDistance })]
  else []

/-- The liquidation check of the holding bar: the account after it, whether it was liquidated, and
the event. -/
def liquidationPhase (account : Account) : Py (Account × Bool × List Draft) :=
  if account.positionQtyBase1e8 = 0 then .ok (account, false, [])
  else do
    let mark ← rowAt env.market.mark clock.fillAbs
    let liqPx ← triggerPrice env account mark
    let crossed ← liquidationCrossed account.positionQtyBase1e8 liqPx mark.h mark.l
    if crossed then
      let (account, draft) ← liquidate env clock account mark liqPx
      return (account, true, [draft])
    else
      let minimumDistance ← distanceToLiquidation1e8 (adverse account mark) liqPx
        (sign account.positionQtyBase1e8)
      return (account, false, nearLiquidationDrafts env clock account mark liqPx minimumDistance)

/-- Close a held position at the closing mark, with a fee and no spread. -/
def flatten (account : Account) : Py (Account × Draft) := do
  let mark ← rowAt env.market.mark clock.fillAbs
  let spec := env.market.spec
  let oldPosition := account.positionQtyBase1e8
  let closePx := mark.c
  let closeNotional ← notionalMicro oldPosition closePx spec.tickSizeMicro
  let feeRate ← applyCostMultiplier spec.takerFeeRate1e8 env.multiplier
  let closeFee ← feeMicro closeNotional feeRate
  let realized ← realizedPnlMicro (sign oldPosition) |oldPosition| account.entryPxTicks closePx
    spec.tickSizeMicro
  let closed := { account with
    cashMicro := account.cashMicro + (realized - closeFee)
    realizedPriceCumMicro := account.realizedPriceCumMicro + realized
    feesCumMicro := account.feesCumMicro + closeFee
    turnoverNotionalMicro := account.turnoverNotionalMicro + closeNotional }
  return (closed.flat, closeDraft clock (.orderFilled
    { market := env.aliasName
      side := if 0 < oldPosition then .sell else .buy
      requestedQtyBase1e8 := |oldPosition|
      qtyBase1e8 := |oldPosition|
      refOpenPxTicks := closePx
      halfSpreadTicks := 0
      impactTicks := 0
      fillPxTicks := closePx
      notionalMicro := closeNotional
      feeMicro := closeFee
      slippage1e8 := 0 }))

/-- The kill switch is armed for good. -/
def Account.kill (account : Account) : Account := { account with killSwitchActive := true }

/-- `KillSwitchTriggered`, with the NAVs it triggered on. -/
def killDraft (snapshots : SnapshotLog) (triggerDrawdown : ℤ) (flattenOrderSeqs : List ℕ) : Draft :=
  closeDraft clock (.killSwitchTriggered
    { drawdown1e8 := triggerDrawdown
      limit1e8 := env.config.drawdownKillSwitch1e8
      peakNavMicro := snapshots.peakNav
      navMicro := snapshots.last.navMicro
      flattenOrderSeqs })

/-- The drawdown kill switch at the close of the holding bar. `nextSeq` is the length of the event
stream, which the forced order's sequence number is taken from. -/
def killSwitchPhase (collectEvidence terminal : Bool) (account : Account)
    (snapshots : SnapshotLog) (nextSeq : ℕ) :
    Py (Account × Bool × SnapshotLog × List Draft) := do
  let triggerDrawdown ← drawdown1e8 snapshots
  if terminal = false ∧ account.killSwitchActive = false ∧
      env.config.drawdownKillSwitch1e8 ≤ triggerDrawdown then
    if account.positionQtyBase1e8 ≠ 0 then
      let (account, filled) ← flatten env clock account
      let s ← snapshot account env.market clock.fillAbs (clock.turn + 1)
        (some clock.holdingCloseTs)
      let margin ← marginDrafts env clock collectEvidence account
      return (account.kill, true, snapshots.replaceLast s,
        filled :: margin ++ [killDraft env clock snapshots triggerDrawdown [nextSeq]])
    else
      return (account.kill, true, snapshots, [killDraft env clock snapshots triggerDrawdown []])
  else
    return (account, false, snapshots, [])

/-! ## The turn -/

/-- The decision is counted, and recorded as an event. -/
def countDecision (counters : Counters) (decision : TurnDecision) : Counters × Draft :=
  let counters := { counters with turns := counters.turns + 1 }
  match decision.outcome with
  | .inl action =>
    (counters, engineDraft clock.decisionTs clock.turn clock.turn (.actionParsed action))
  | .inr rejection =>
    let counters := match rejection.reason with
      | .timeout | .agentError => { counters with missedDecisions := counters.missedDecisions + 1 }
      | .malformed _ => { counters with invalidActions := counters.invalidActions + 1 }
    (counters, engineDraft clock.decisionTs clock.turn clock.turn (.actionRejected rejection))

/-- `if parsed is not None:` the action is processed. -/
def actionPhase (collectEvidence : Bool) (account : Account) (counters : Counters)
    (decision : TurnDecision) (drawdownUsed : ℤ) : Py (Account × Counters × List Draft) :=
  match decision.parsed with
  | some action =>
    processAction env clock collectEvidence account counters action decision.rawSha256 drawdownUsed
  | none => .ok (account, counters, [])

/-- The turn up to the close of its holding bar: decision, funding, order, funding. -/
def openPhase (collectEvidence : Bool) (account : Account) (counters : Counters)
    (decision : TurnDecision) (drawdownUsed : ℤ) : Py (Account × Counters × List Draft) := do
  let (counters, decisionDraft) := countDecision clock counters decision
  let (account, coincident) ← coincidentFunding env clock account
  let (account, counters, orders) ← actionPhase env clock collectEvidence account counters decision
    drawdownUsed
  let (account, inside) ← holdingFunding env clock env.market.funding account
  return (account, counters, decisionDraft :: coincident ++ orders ++ inside)

/-- The close of the holding bar: margin, liquidation, snapshot, kill switch. -/
def closePhase (collectEvidence : Bool) (account : Account) (counters : Counters)
    (snapshots : SnapshotLog) (nextSeq : ℕ) : Py (ProfileCore × List Draft) := do
  let margin ← marginDrafts env clock (collectEvidence && decide (account.positionQtyBase1e8 ≠ 0))
    account
  let (account, liquidated, liquidation) ← liquidationPhase env clock account
  let counters := if liquidated then { counters with liquidations := counters.liquidations + 1 }
    else counters
  let s ← snapshot account env.market clock.fillAbs (clock.turn + 1) (some clock.holdingCloseTs)
  let (account, killed, snapshots, kill) ← killSwitchPhase env clock collectEvidence liquidated
    account (snapshots.push s) (nextSeq + margin.length + liquidation.length)
  let counters := if killed then { counters with killSwitchFired := true } else counters
  let last ← marginDrafts env clock (liquidated && collectEvidence) account
  return (⟨account, counters, snapshots, liquidated, clock.turn⟩,
    margin ++ liquidation ++ kill ++ last)

/-- What a turn does once its decision is known. `nextSeq` is the length of the event stream. -/
def settleTurn (collectEvidence : Bool) (core : ProfileCore) (decision : TurnDecision)
    (drawdownUsed : ℤ) (nextSeq : ℕ) : Py (ProfileCore × List Draft) := do
  let (account, counters, opening) ← openPhase env clock collectEvidence core.account core.counters
    decision drawdownUsed
  let (core, closing) ← closePhase env clock collectEvidence account counters core.snapshots
    (nextSeq + opening.length)
  return (core, opening ++ closing)

end Phases

end WagmiBench.Core
