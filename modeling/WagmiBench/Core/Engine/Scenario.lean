import WagmiBench.Core.Engine.Episode

/-!
# Scenarios

Small packs built from a list of quotes: hourly bars from the epoch on, one market, no warmup, every
series quoted alike. The series of a scenario are aligned by construction, so a scenario is a pack
whatever its quotes are. The scripted agent answers with one target after the other.
-/

namespace WagmiBench.Core

open WagmiBench.Lib WagmiBench.Spec WagmiBench.Harness

abbrev HOUR : ℤ := 3_600_000

/-- Open, high, low and close of one bar. -/
structure Quote where
  o : ℤ
  h : ℤ
  l : ℤ
  c : ℤ

/-- The bar at which a price stands still. -/
def Quote.still (px : ℤ) : Quote := ⟨px, px, px, px⟩

/-- What a scenario fixes: its quotes, when and at which rate funding settles, and its costs. -/
structure Scenario where
  first : Quote
  rest : List Quote
  /-- Settlement times with their rates. -/
  settlements : List (ℤ × ℤ)
  halfSpread1e8 : ℕ
  takerFee1e8 : ℕ
  penalty1e8 : ℕ
  maintenance1e8 : ℕ
  stress1e4 : ℕ
  maintenance_pos : 1 ≤ maintenance1e8
  stress_pos : 1 ≤ stress1e4
  increasing : (settlements.map Prod.fst).Pairwise (· < ·)

namespace Scenario

variable (scenario : Scenario)

abbrev ALIAS : Text := txt "BTC"

def quotes : List Quote := scenario.first :: scenario.rest

/-- The opening time of bar `i`. -/
def openTs (i : ℕ) : ℤ := HOUR * i

theorem openTs_increasing (n : ℕ) : ((List.range n).map openTs).Pairwise (· < ·) := by
  rw [List.pairwise_map]
  refine List.pairwise_lt_range.imp fun h => ?_
  simp only [openTs, HOUR]
  omega

/-- One bar of a series. -/
def bar (role : String) (volume : ℤ) (row : Quote × ℕ) : BarRow :=
  let (quote, i) := row
  let path := txt role ++ txt ".jsonl"
  ⟨openTs i, openTs (i + 1), quote.o, quote.h, quote.l, quote.c, volume,
    ⟨ALIAS, txt role, path, i, openTs i, openTs (i + 1)⟩⟩

def series (role : String) (volume : ℤ) : List BarRow :=
  scenario.quotes.zipIdx.map (bar role volume)

/-- Every series opens its bars at the same times. -/
theorem series_ts (role : String) (volume : ℤ) :
    (scenario.series role volume).map BarRow.ts =
      (List.range scenario.quotes.length).map openTs := by
  rw [series, List.map_map, List.range_eq_range', ← List.zipIdx_map_snd 0 scenario.quotes,
    List.map_map]
  rfl

def settlement (row : (ℤ × ℤ) × ℕ) : FundingRow :=
  let ((ts, rate), i) := row
  ⟨ts, ts, rate, ⟨ALIAS, txt "funding", txt "funding.jsonl", i, ts, ts⟩⟩

theorem settlements_ts : (scenario.settlements.zipIdx.map settlement).map FundingRow.ts =
    scenario.settlements.map Prod.fst := by
  rw [List.map_map, ← List.zipIdx_map_fst 0 scenario.settlements, List.map_map]
  simp [settlement, Function.comp_def]

def spec : MarketSpec where
  aliasName := ALIAS
  tickSizeMicro := 10_000
  qtyStepBase1e8 := 1_000
  minNotionalMicro := 0
  makerFeeRate1e8 := 0
  takerFeeRate1e8 := scenario.takerFee1e8
  leverageCapLev1e4 := 1_000_000
  marginTiers := [⟨9_007_199_254_740_991, 2 * scenario.maintenance1e8, scenario.maintenance1e8,
    by decide, by have := scenario.maintenance_pos; omega,
    by have := scenario.maintenance_pos; omega⟩]
  liquidationPenalty1e8 := scenario.penalty1e8
  funding := ⟨28_800_000, [0, 28_800_000, 57_600_000], 300_000, -300_000, by decide, by decide,
    by decide⟩
  halfSpread1e8 := scenario.halfSpread1e8
  impactModel := .linear
  impactCoeff1e8 := 0
  participationCap1e8 := 100_000_000
  costProfileMultipliers1e4 := [(PRIMARY, 10_000), (STRESS_2X, scenario.stress1e4)]
  tick_size_pos := by decide
  qty_step_pos := by decide
  min_notional_nonneg := by decide
  maker_fee_nonneg := by decide
  taker_fee_nonneg := by omega
  leverage_cap_pos := by decide
  margin_tiers_ne_nil := by simp
  liquidation_penalty_nonneg := by omega
  half_spread_nonneg := by omega
  impact_coeff_nonneg := by decide
  participation_cap_pos := by decide
  multipliers_pos := by
    have := scenario.stress_pos
    simp
    omega

abbrev VOLUME : ℤ := 1_000_000_000_000

def market : MarketData where
  spec := scenario.spec
  trade := scenario.series "trade" VOLUME
  mark := scenario.series "mark" 0
  index := scenario.series "index" 0
  funding := scenario.settlements.zipIdx.map settlement
  mark_ts := by rw [series_ts, series_ts]
  index_ts := by rw [series_ts, series_ts]
  trade_increasing := by rw [series_ts]; exact openTs_increasing _
  funding_increasing := by rw [settlements_ts]; exact scenario.increasing

theorem zero_nonneg : (0 : ℤ) ≤ 0 := le_rfl

def pack : PackData where
  packId := txt "scenario"
  contentHash := txt "scenario"
  windowStartTs := 0
  windowEndTs := openTs scenario.quotes.length
  decisionBarMs := HOUR
  warmupBars := 0
  defaultLookback := ⟨1, 0, by decide, zero_nonneg⟩
  markets := [(ALIAS, scenario.market)]
  manifest := []
  window_start_nonneg := zero_nonneg
  window_ordered := by
    simp only [openTs, quotes, List.length_cons, HOUR]
    omega
  decision_bar_pos := by decide
  markets_ne_nil := by simp

theorem retries_nonneg : (0 : ℤ) ≤ 1 := by decide

/-- A configuration with a drawdown limit; every other limit is out of the way. -/
def config (drawdownLimit1e8 : ℕ) : EpisodeConfig where
  startingNavMicro := 10_000_000_000
  leverageCapGrossLev1e4 := 1_000_000
  drawdownKillSwitch1e8 := drawdownLimit1e8 + 1
  lookbackBars := none
  fundingPrints := none
  responseDeadlineMs := 1_000
  seed := 0
  costProfiles := [PRIMARY, STRESS_2X]
  turnoverCap1e8 := none
  parseFailureRetries := 1
  starting_nav_pos := by decide
  leverage_cap_pos := by decide
  drawdown_limit_pos := by omega
  lookback_bars_pos := by simp [OptionAtLeast]
  funding_prints_nonneg := by simp [OptionAtLeast]
  response_deadline_pos := by decide
  seed_nonneg := by decide
  turnover_cap_nonneg := by simp [OptionAtLeast]
  parse_failure_retries_nonneg := retries_nonneg
  cost_profiles_ne_nil := by simp
  cost_profiles_nonempty := by simp [txt]
  cost_profiles_nodup := by simp
  cost_profiles_complete := by simp

/-- The simulation of a scenario under a multiplier. -/
def env (config : EpisodeConfig) (multiplier : ℤ) : ProfileEnv :=
  ⟨scenario.pack, config, ALIAS, scenario.market, multiplier⟩

theorem marketAliases_pack : scenario.pack.marketAliases = [ALIAS] := rfl

theorem market_pack : scenario.pack.market ALIAS = .ok scenario.market := by
  simp [PackData.market, pack]

theorem profileEnv_primary (config : EpisodeConfig) :
    profileEnv scenario.pack config PRIMARY = .ok (scenario.env config 10_000) := by
  simp [profileEnv, marketAliases_pack, market_pack, MarketSpec.multiplier, market, spec, env,
    pure_eq_ok]

theorem profileEnv_stress (config : EpisodeConfig) :
    profileEnv scenario.pack config STRESS_2X = .ok (scenario.env config scenario.stress1e4) := by
  simp [profileEnv, marketAliases_pack, market_pack, MarketSpec.multiplier, market, spec, env,
    pure_eq_ok]

/-! ## Decisions and agents -/

/-- A decision for a target, with a slippage limit if there is one. -/
def acting (targetLev1e4 : ℤ) (maxSlippageBps : Option ℤ) : TurnDecision :=
  ⟨[], [], .inl ⟨[(ALIAS, targetLev1e4)], maxSlippageBps, 1⟩, none⟩

/-- A turn without an answer. -/
def missed : TurnDecision :=
  ⟨[], [], .inr ⟨.timeout, txt "timeout", none, 1⟩, none⟩

/-- A reply that asks for a target, with a slippage limit if there is one. -/
def actionBody (target : String × Option ℤ) : Bytes :=
  let members := [("schema", jsonStr "action/v1"), ("target", jsonObj [("BTC", jsonStr target.1)])]
  let limit := match target.2 with
    | some bps => [("max_slippage_bps", Json.int bps)]
    | none => []
  (utf8Encode (jsonObj (members ++ limit)).emit).getD []

/-- The agent that answers with the bodies of a script, and with nothing once they are used up. -/
def scripted (bodies : List Bytes) : Agent ℕ where
  decide n _ := (.reply ⟨bodies.getD n [], 0, none, txt "in_process"⟩, n + 1)
  drain := none

/-! ## A hash -/

/-- A checksum of bytes. -/
def checksum (raw : Bytes) : ℕ :=
  raw.foldl (fun h b => (h * 257 + b.toNat + 1) % (2 ^ 256 - 189)) 0

/-- A function in the place of SHA-256. -/
def sha : Sha256 where
  prefixed raw := HASH_PREFIX ++ hex64 (checksum raw)
  isHash raw := isHash_hex64 (checksum raw)

/-- The fill that a payload reports. -/
def filled : Payload → Option OrderFilled
  | .orderFilled f => some f
  | _ => none

theorem filled_eq_some {p : Payload} {f : OrderFilled} : filled p = some f ↔ p = .orderFilled f := by
  cases p <;> simp [filled]

theorem limits_depth : 16 ≤ 1_000 := by decide

theorem limits_digits : 640 ≤ 4_300 := by decide

/-- The limits of the standard interpreter. -/
def limits : Json.Limits where
  maxDepth := 1_000
  depth_ge := limits_depth
  digits_ge := limits_digits

/-! ## Two scenarios -/

theorem onePercent_pos : 1 ≤ 1_000_000 := by decide

theorem doubled_pos : 1 ≤ 20_000 := by decide

theorem unsettled_increasing : (([] : List (ℤ × ℤ)).map Prod.fst).Pairwise (· < ·) := .nil

/-- A price that stands still, with a settlement at the first decision. -/
def steady : Scenario :=
  ⟨.still 10_000, [.still 10_000, .still 10_000], [(HOUR, 1_000)], 50_000, 45_000, 1_000_000,
    1_000_000, 20_000, onePercent_pos, doubled_pos, by decide⟩

/-- A price that halves in the third bar. -/
def crash : Scenario :=
  ⟨.still 10_000, [.still 10_000, ⟨10_000, 10_000, 5_000, 6_000⟩, .still 6_000], [], 50_000,
    45_000, 1_000_000, 1_000_000, 20_000, onePercent_pos, doubled_pos, unsettled_increasing⟩

abbrev EPISODE_ID : Text := txt "ep_0123456789abcdef"

/-- An episode of the steady scenario: a long of one times the equity, then replies without an
action. -/
def steadyEpisode : Py EpisodeResult :=
  runEpisode sha limits steady.pack (scripted [actionBody ("1", none)]) (config 50_000_000)
    (txt "run") EPISODE_ID 0

theorem steadyEpisode_returns : Returns steadyEpisode := by decide +kernel

end Scenario

end WagmiBench.Core
