import WagmiBench.Core.Engine.Turn

/-!
# Profile runs and episodes

The turn loop of `_run_profile` over an agent or over a recorded decision trace, the ledger rows and
metrics computed from its snapshots, and `run_episode`, which simulates the primary profile with the
agent and the stress profile over the primary's decisions.
-/

namespace WagmiBench.Core

open WagmiBench.Lib WagmiBench.Harness WagmiBench.Spec

/-! ## The turn loop -/

/-- Where the decisions of a profile come from. -/
inductive DecisionSource (σ : Type) where
  | agent (agent : Agent σ)
  | replay (decisions : List TurnDecision)

/-- `_ProfileRun` while it grows, with the agent's own state. -/
structure ProfileState (σ : Type) where
  core : ProfileCore
  events : List Event
  decisions : List TurnDecision
  observations : List Observation
  rawBlobs : List (Text × Bytes)
  agent : σ

/-- `_position_for_observation` -/
def positionForObservation (account : Account) (s : Snapshot) : Py PositionState :=
  if account.positionQtyBase1e8 = 0 then .ok .none
  else PositionState.make account.positionQtyBase1e8 (some account.entryPxTicks) s.marginMicro
    s.liquidationPxTicks

/-- `f"observations/{turn:04d}.json"` -/
def observationRef (turn : ℕ) : Text := txt "observations/" ++ decimalPad 4 turn ++ txt ".json"

/-- `f"raw/{turn:04d}-a{attempt}.txt"` -/
def rawRef (turn attempt : ℕ) : Text :=
  txt "raw/" ++ decimalPad 4 turn ++ txt "-a" ++ decimal attempt ++ txt ".txt"

section Loop

variable {σ : Type} (sha : Sha256) (limits : Json.Limits) (env : ProfileEnv) (episodeId : Text)
  (collectEvidence : Bool)

/-- The `AgentResponded` events of a turn, attempts numbered from `attempt`. -/
def responseDrafts (clock : TurnClock) : ℕ → List AgentReply → Py (List Draft)
  | _, [] => .ok []
  | attempt, reply :: replies => do
    let tokenUsage ← extractTokenUsage limits reply.body
    let rest ← responseDrafts clock (attempt + 1) replies
    return ⟨clock.decisionTs, some clock.turn, some clock.turn, .harness, .agentResponded
      { attempt
        rawRef := rawRef clock.turn attempt
        rawSha256 := sha.prefixed reply.body
        rawBytes := reply.body.length
        latencyMs := reply.latencyMs
        httpStatus := reply.httpStatus
        tokenUsage
        transport := reply.transport }⟩ :: rest

/-- The raw blobs of a turn. -/
def responseBlobs (turn : ℕ) : ℕ → List AgentReply → List (Text × Bytes)
  | _, [] => []
  | attempt, reply :: replies =>
    (rawRef turn attempt, reply.body) :: responseBlobs turn (attempt + 1) replies

/-- The evidence of one decision: observation, responses and harness facts. -/
def recordDecision (clock : TurnClock) (observation : Observation) (decision : TurnDecision)
    (state : ProfileState σ) : Py (ProfileState σ) := do
  let observationBytes ← canonicalBytes observation.toJson
  let emitted := engineDraft clock.decisionTs clock.turn clock.turn
    (.observationEmitted (sha.prefixed observationBytes) (observationRef clock.turn))
  let responses ← responseDrafts sha limits clock 1 decision.responses
  let facts ← harnessDrafts decision.harnessEvents clock.decisionTs (some clock.turn)
    (some clock.turn)
  return { state with
    observations := state.observations ++ [observation]
    rawBlobs := state.rawBlobs ++ responseBlobs clock.turn 1 decision.responses
    events := emitAll state.events (emitted :: responses ++ facts) }

/-- The observation of a turn. -/
def observeTurn (clock : TurnClock) (core : ProfileCore) (drawdownUsed turnoverUsed : ℤ) :
    Py Observation := do
  let account := core.account
  let current := core.snapshots.last
  let freeCash := account.cashMicro - current.marginMicro
  let position ← positionForObservation account current
  let risk ← RiskState.make drawdownUsed turnoverUsed account.killSwitchActive
  let build ← buildObservation env.pack env.config episodeId clock.turn
    ⟨freeCash, account.realizedPnl⟩ [(env.aliasName, position)] risk
  return build.document

/-- The decision of a turn, from the agent or from the trace. -/
def decideTurn (source : DecisionSource σ) (clock : TurnClock) (drawdownUsed turnoverUsed : ℤ)
    (state : ProfileState σ) : Py (TurnDecision × ProfileState σ) :=
  match source with
  | .agent agent => do
    let observation ← observeTurn env episodeId clock state.core drawdownUsed turnoverUsed
    let (decision, s) ← requestDecision sha limits agent observation env.config
      env.pack.marketAliases state.agent
    let state := { state with agent := s, decisions := state.decisions ++ [decision] }
    if collectEvidence then
      let state ← recordDecision sha limits clock observation decision state
      return (decision, state)
    return (decision, state)
  | .replay decisions =>
    match decisions[clock.turn]? with
    | none => .error (.engineError "recorded decision trace ended before the episode")
    | some decision => .ok (decision, state)

/-- The clock of a turn. -/
def turnClock (turn : ℕ) : Py TurnClock := do
  let decisionTs ← env.pack.clockRealTs turn
  return ⟨turn, env.pack.warmupBars + turn, decisionTs, decisionTs + env.pack.decisionBarMs⟩

/-- The body of the turn loop. -/
def turnBody (source : DecisionSource σ) (turn : ℕ) (state : ProfileState σ) :
    Py (ProfileState σ) := do
  let clock ← turnClock env turn
  let drawdownUsed ← drawdown1e8 state.core.snapshots
  let turnoverUsed ← turnover1e8 state.core.account.turnoverNotionalMicro
    env.config.startingNavMicro
  let (decision, state) ← decideTurn sha limits env episodeId collectEvidence source clock
    drawdownUsed turnoverUsed state
  let (core, drafts) ← settleTurn env clock collectEvidence state.core decision drawdownUsed
    state.events.length
  return { state with
    core
    events := if collectEvidence then emitAll state.events drafts else state.events }

/-- `if terminal: break` -/
def ProfileState.stopped (state : ProfileState σ) : Bool := state.core.terminal

/-- The state before the first turn. -/
def startState (s : σ) : Py (ProfileState σ) := do
  let account := Account.start env.config.startingNavMicro
  let closeTs ← env.pack.clockRealTs 0
  let first ← snapshot account env.market env.pack.warmupBars 0 (some closeTs)
  return ⟨⟨account, .zero, ⟨[], first⟩, false, -1⟩, [], [], [], [], s⟩

/-- `_ProfileRun` once it is finished. -/
structure ProfileRun (σ : Type) extends ProfileState σ where
  totals : Totals

/-- `run.totals` -/
def finalTotals (core : ProfileCore) : Totals where
  reason := if core.terminal then .liquidated else .completed
  finalTurn := core.lastTurn
  finalNavMicro := core.snapshots.last.navMicro
  turnoverNotionalMicro := core.account.turnoverNotionalMicro
  fillCostCumMicro := core.account.fillCostCumMicro
  feesCumMicro := core.account.feesCumMicro
  fundingCumMicro := core.account.fundingCumMicro
  liquidationPenaltyCumMicro := core.account.liquidationPenaltyCumMicro

/-- The loop of `_run_profile` and its totals. -/
def runLoop (source : DecisionSource σ) (s : σ) : Py (ProfileRun σ) := do
  let start ← startState env s
  let turns ← env.pack.barsTotal
  let state ← loopFrom (turnBody sha limits env episodeId collectEvidence source)
    ProfileState.stopped turns 0 start
  return { state with totals := finalTotals state.core }

end Loop

/-- The checks `_run_profile` makes before its loop. -/
def profileEnv (pack : PackData) (config : EpisodeConfig) (profile : Text) : Py ProfileEnv :=
  match pack.marketAliases with
  | [name] => do
    let market ← pack.market name
    match market.spec.multiplier profile with
    | some multiplier => return ⟨pack, config, name, market, multiplier⟩
    | none => .error (.engineError ("pack does not declare cost profile " ++ Text.show profile))
  | _ => .error (.engineError "V1 engine supports exactly one market per scenario pack")

/-- `_run_profile` -/
def runProfile {σ : Type} (sha : Sha256) (limits : Json.Limits) (pack : PackData)
    (config : EpisodeConfig) (profile episodeId : Text) (source : DecisionSource σ) (s : σ)
    (collectEvidence : Bool) : Py (ProfileRun σ) := do
  let env ← profileEnv pack config profile
  runLoop sha limits env episodeId collectEvidence source s

/-! ## Ledger rows -/

/-- One row of a ledger; its positions map has the one market. -/
structure LedgerRow where
  ts : ℤ
  barIndex : ℕ
  turn : Option ℕ
  profile : Text
  navMicro : ℤ
  cashMicro : ℤ
  realizedPnlMicro : ℤ
  dNavMicro : ℤ
  dPricePnlMicro : ℤ
  dFundingMicro : ℤ
  dFeesMicro : ℤ
  dLiqPenaltyMicro : ℤ
  aliasName : Text
  qtyBase1e8 : ℤ
  entryPxTicks : Option ℤ
  markPxTicks : ℤ
  upnlMicro : ℤ
  marginMicro : ℤ
  maintenanceMarginMicro : ℤ
  liqPxTicks : Option ℤ
  distToLiq1e8 : Option ℤ
  deriving DecidableEq, Repr

/-- The stored form of a ledger row. -/
def LedgerRow.toJson (row : LedgerRow) : Json :=
  jsonObj [("ts", .int row.ts), ("bar_index", .int row.barIndex), ("turn", jsonOptNat row.turn),
    ("profile", .str row.profile), ("nav_micro", .int row.navMicro),
    ("cash_micro", .int row.cashMicro), ("realized_pnl_micro", .int row.realizedPnlMicro),
    ("d_nav_micro", .int row.dNavMicro), ("d_price_pnl_micro", .int row.dPricePnlMicro),
    ("d_funding_micro", .int row.dFundingMicro), ("d_fees_micro", .int row.dFeesMicro),
    ("d_liq_penalty_micro", .int row.dLiqPenaltyMicro),
    ("positions", .obj [(row.aliasName,
      jsonObj [("qty_base_1e8", .int row.qtyBase1e8),
        ("entry_px_ticks", jsonOptInt row.entryPxTicks),
        ("mark_px_ticks", .int row.markPxTicks), ("upnl_micro", .int row.upnlMicro),
        ("margin_micro", .int row.marginMicro),
        ("maintenance_margin_micro", .int row.maintenanceMarginMicro),
        ("liq_px_ticks", jsonOptInt row.liqPxTicks),
        ("dist_to_liq_1e8", jsonOptInt row.distToLiq1e8)])])]

/-- The delta of one bar: NAV, price, funding, fees, penalty. -/
structure LedgerDelta where
  nav : ℤ
  price : ℤ
  funding : ℤ
  fees : ℤ
  penalty : ℤ

/-- The deltas of a snapshot against the one before it. -/
def ledgerDelta : Option Snapshot → Snapshot → LedgerDelta
  | none, _ => ⟨0, 0, 0, 0, 0⟩
  | some previous, s =>
    { nav := s.navMicro - previous.navMicro
      funding := -(s.fundingCumMicro - previous.fundingCumMicro)
      fees := -(s.feesCumMicro - previous.feesCumMicro)
      penalty := -(s.liquidationPenaltyCumMicro - previous.liquidationPenaltyCumMicro)
      price := s.upnlMicro - previous.upnlMicro + s.realizedPriceCumMicro -
        previous.realizedPriceCumMicro }

/-- The row of a snapshot after `previous`. -/
def ledgerRowOf (profile aliasName : Text) (previous : Option Snapshot) (s : Snapshot) :
    LedgerRow where
  ts := s.closeTs
  barIndex := s.barIndex
  turn := if s.barIndex = 0 then none else some (s.barIndex - 1)
  profile := profile
  navMicro := s.navMicro
  cashMicro := s.cashMicro
  realizedPnlMicro := s.realizedPriceCumMicro - s.feesCumMicro - s.fundingCumMicro -
    s.liquidationPenaltyCumMicro
  dNavMicro := (ledgerDelta previous s).nav
  dPricePnlMicro := (ledgerDelta previous s).price
  dFundingMicro := (ledgerDelta previous s).funding
  dFeesMicro := (ledgerDelta previous s).fees
  dLiqPenaltyMicro := (ledgerDelta previous s).penalty
  aliasName := aliasName
  qtyBase1e8 := s.positionQtyBase1e8
  entryPxTicks := s.entryPxTicks
  markPxTicks := s.markCloseTicks
  upnlMicro := s.upnlMicro
  marginMicro := s.marginMicro
  maintenanceMarginMicro := s.maintenanceMarginMicro
  liqPxTicks := s.liquidationPxTicks
  distToLiq1e8 := s.distanceToLiquidation1e8

/-- One ledger row, refused when its deltas do not add up. -/
def ledgerRow (profile aliasName : Text) (previous : Option Snapshot) (s : Snapshot) :
    Py LedgerRow := do
  let d := ledgerDelta previous s
  require (d.nav = d.price + d.funding + d.fees + d.penalty)
    (.engineError s!"MATH-2 ledger invariant failed at bar {s.barIndex}")
  return ledgerRowOf profile aliasName previous s

/-- The rows of the snapshots after `previous`. -/
def ledgerRowsFrom (profile aliasName : Text) : Option Snapshot → List Snapshot → Py (List LedgerRow)
  | _, [] => .ok []
  | previous, s :: rest => do
    let row ← ledgerRow profile aliasName previous s
    let rows ← ledgerRowsFrom profile aliasName (some s) rest
    return row :: rows

/-- `_ledger_rows` -/
def ledgerRows (snapshots : SnapshotLog) (profile aliasName : Text) : Py (List LedgerRow) :=
  ledgerRowsFrom profile aliasName none snapshots.all

/-! ## Metrics -/

/-- The metrics of one profile. -/
structure ProfileMetrics where
  netReturn1e8 : ℤ
  maxDrawdown1e8 : ℤ
  sortino1e8 : ℤ
  cvar51e8 : ℤ
  fundingPaidMicro : ℤ
  feesPaidMicro : ℤ
  fillCostMicro : ℤ
  turnover1e8 : ℤ
  distances : DistanceStatistics
  equityCurveRef : Text
  deriving DecidableEq

/-- The Sortino ratio, zero where it is undefined. -/
def sortinoOrZero (returns : List ℚ) : Py ℤ :=
  match sortino1e8 returns with
  | .error (.undefinedMetric _) => .ok 0
  | result => result

/-- `_profile_metrics` -/
def profileMetrics (snapshots : SnapshotLog) (totals : Totals) (startingNavMicro : ℤ)
    (equityCurveRef : Text) : Py ProfileMetrics := do
  let navs := snapshots.all.map Snapshot.navMicro
  let returns ← barReturns navs
  let inPosition := snapshots.all.filter fun s => s.positionQtyBase1e8 ≠ 0
  let distances ← distanceStatistics (inPosition.filterMap Snapshot.distanceToLiquidation1e8)
    (inPosition.filterMap Snapshot.minIntrabarDistance1e8)
  let sortino ← sortinoOrZero returns
  let netReturn ← netReturn1e8 totals.finalNavMicro startingNavMicro
  let maxDrawdown ← maxDrawdown1e8 navs
  let cvar ← cvar5 returns
  let turnover ← turnover1e8 totals.turnoverNotionalMicro startingNavMicro
  return {
    netReturn1e8 := netReturn
    maxDrawdown1e8 := maxDrawdown
    sortino1e8 := sortino
    cvar51e8 := cvar
    fundingPaidMicro := -totals.fundingCumMicro
    feesPaidMicro := -totals.feesCumMicro
    fillCostMicro := -totals.fillCostCumMicro
    turnover1e8 := turnover
    distances
    equityCurveRef }

inductive SurvivalVerdict where
  | liquidated
  | killedFlat
  | survived
  deriving DecidableEq, Repr

def SurvivalVerdict.wire : SurvivalVerdict → Text
  | .liquidated => txt "liquidated"
  | .killedFlat => txt "killed_flat"
  | .survived => txt "survived"

/-- `metrics.profile_invariant` -/
structure ProfileInvariant where
  bars : ℕ
  turns : ℕ
  invalidActions : ℕ
  missedDecisions : ℕ
  gateBlocks : ℕ
  postKillSwitchAttempts : ℕ
  egressBlockedCount : ℤ
  liquidated : Bool
  killSwitchFired : Bool
  survivalVerdict : SurvivalVerdict
  deriving DecidableEq

/-- The count an event adds to `egress_blocked_count`. -/
def Event.egressCount (e : Event) : Option ℤ :=
  match e.payload with
  | .egressBlocked fact => some fact.count
  | _ => none

/-- One step of the sum of `egress_blocked_count`. -/
def addEgress (total count : ℤ) : Py ℤ := do
  require (1 ≤ count) (.engineError "EgressBlocked event count is invalid")
  require (total + count ≤ MAX_IJSON_INT)
    (.engineError "egress_blocked_count exceeds the I-JSON safe range")
  return total + count

/-- `_profile_invariant` -/
def profileInvariant {σ : Type} (run : ProfileState σ) : Py ProfileInvariant := do
  let counters := run.core.counters
  let liquidated := decide (0 < counters.liquidations)
  let verdict : SurvivalVerdict := if liquidated then .liquidated
    else if counters.killSwitchFired then .killedFlat else .survived
  let egressBlockedCount ← (run.events.filterMap Event.egressCount).foldlM addEgress 0
  return {
    bars := run.core.snapshots.all.length
    turns := counters.turns
    invalidActions := counters.invalidActions
    missedDecisions := counters.missedDecisions
    gateBlocks := counters.gateBlocks
    postKillSwitchAttempts := counters.postKillSwitchAttempts
    egressBlockedCount
    liquidated
    killSwitchFired := counters.killSwitchFired
    survivalVerdict := verdict }

/-- `metrics/v1` -/
structure Metrics where
  runId : Text
  primary : ProfileMetrics
  stress2x : ProfileMetrics
  invariant : ProfileInvariant
  deriving DecidableEq

def ProfileMetrics.toJson (m : ProfileMetrics) : Json :=
  jsonObj [("net_return_1e8", .int m.netReturn1e8), ("max_drawdown_1e8", .int m.maxDrawdown1e8),
    ("sortino_1e8", .int m.sortino1e8), ("cvar5_1e8", .int m.cvar51e8),
    ("funding_paid_micro", .int m.fundingPaidMicro), ("fees_paid_micro", .int m.feesPaidMicro),
    ("fill_cost_micro", .int m.fillCostMicro), ("turnover_1e8", .int m.turnover1e8),
    ("dist_to_liq_min_1e8", jsonOptInt m.distances.minIntrabar1e8),
    ("dist_to_liq_p05_1e8", jsonOptInt m.distances.p05Close1e8),
    ("dist_to_liq_p25_1e8", jsonOptInt m.distances.p25Close1e8),
    ("dist_to_liq_median_1e8", jsonOptInt m.distances.medianClose1e8),
    ("equity_curve_ref", .str m.equityCurveRef)]

def ProfileInvariant.toJson (i : ProfileInvariant) : Json :=
  jsonObj [("bars", .int i.bars), ("turns", .int i.turns),
    ("invalid_actions", .int i.invalidActions), ("missed_decisions", .int i.missedDecisions),
    ("gate_blocks", .int i.gateBlocks),
    ("post_kill_switch_attempts", .int i.postKillSwitchAttempts),
    ("egress_blocked_count", .int i.egressBlockedCount), ("liquidated", .bool i.liquidated),
    ("kill_switch_fired", .bool i.killSwitchFired),
    ("survival_verdict", .str i.survivalVerdict.wire)]

def Metrics.toJson (m : Metrics) : Json :=
  jsonObj [("schema", jsonStr "metrics/v1"), ("run_id", .str m.runId),
    ("claim_label", jsonStr "survival-stress"),
    ("profiles", jsonObj [("primary", m.primary.toJson), ("stress_2x", m.stress2x.toJson)]),
    ("profile_invariant", m.invariant.toJson)]

/-! ## Episodes -/

/-- `EpisodeResult` -/
structure EpisodeResult where
  events : List Event
  observations : List Observation
  rawBlobs : List (Text × Bytes)
  ledgerPrimary : List LedgerRow
  ledgerStress2x : List LedgerRow
  metrics : Metrics
  pack : PackData
  config : EpisodeConfig
  runId : Text
  episodeId : Text

abbrev PRIMARY : Text := txt "primary"
abbrev STRESS_2X : Text := txt "stress_2x"

section Episode

variable {σ : Type} (sha : Sha256) (limits : Json.Limits) (pack : PackData) (agent : Agent σ)
  (config : EpisodeConfig) (runId episodeId : Text)

/-- The primary simulation, driven by the agent. -/
def runPrimary (s : σ) : Py (ProfileRun σ) :=
  runProfile sha limits pack config PRIMARY episodeId (.agent agent) s true

/-- The stress simulation, over the primary's decisions. -/
def runStress (decisions : List TurnDecision) : Py (ProfileRun Unit) :=
  runProfile sha limits pack config STRESS_2X episodeId (.replay decisions) () false

/-- What `run_episode` does with its two finished simulations. -/
def finishEpisode (primary : ProfileRun σ) (stress : ProfileRun Unit) : Py EpisodeResult := do
  let (drained, _) ← drainHarnessEvents agent primary.agent
  let closeTs := primary.core.snapshots.last.closeTs
  let facts ← harnessDrafts drained closeTs none none
  let events := emitAll primary.events facts
  let invariant ← profileInvariant { primary.toProfileState with events }
  let primaryMetrics ← profileMetrics primary.core.snapshots primary.totals
    config.startingNavMicro (txt "ledger.jsonl")
  let stressMetrics ← profileMetrics stress.core.snapshots stress.totals
    config.startingNavMicro (txt "ledger_stress_2x.jsonl")
  let metrics : Metrics := ⟨runId, primaryMetrics, stressMetrics, invariant⟩
  let metricsBytes ← canonicalBytes metrics.toJson
  let metricsSha := sha.prefixed (metricsBytes ++ [0x0A])
  let events := emit events ⟨closeTs, none, none, .engine, .episodeEnd primary.totals.reason
    primary.totals.finalTurn primary.totals.finalNavMicro metricsSha⟩
  let aliasName := pack.marketAliases.headD []
  let ledgerPrimary ← ledgerRows primary.core.snapshots PRIMARY aliasName
  let ledgerStress2x ← ledgerRows stress.core.snapshots STRESS_2X aliasName
  return {
    events
    observations := primary.observations
    rawBlobs := primary.rawBlobs
    ledgerPrimary
    ledgerStress2x
    metrics
    pack
    config
    runId
    episodeId }

/-- `run_episode` on a loaded pack. -/
def runEpisode (s : σ) : Py EpisodeResult := do
  let market ← pack.market (pack.marketAliases.headD [])
  config.validateCostProfiles market.spec.costProfileMultipliers1e4
  require (config.costProfiles = [PRIMARY, STRESS_2X])
    (.engineError "V1 requires primary and stress_2x cost profiles")
  let primary ← runPrimary sha limits pack agent config episodeId s
  let stress ← runStress sha limits pack config episodeId primary.decisions
  finishEpisode sha pack agent config runId episodeId primary stress

end Episode

end WagmiBench.Core
