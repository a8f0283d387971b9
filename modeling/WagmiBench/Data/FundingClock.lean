import WagmiBench.Core.Engine.Inversion
import WagmiBench.Core.Engine.Solvency
import WagmiBench.Data.Accepted
import WagmiBench.Data.ScenarioDirectory

/-!
# The settlement clock and the decision grid

A settlement is priced at the open of the index bar with its timestamp. The index rows of an
accepted pack stand on the decision grid, and nothing aligns the settlement clock to it. So a
settlement at a decision has its row, and one strictly inside a holding bar has none.
-/

namespace WagmiBench.Data

open WagmiBench.Lib WagmiBench.Spec WagmiBench.Core

/-- What `_applied_funding` raises for a settlement without an index row. -/
def missingIndex (market : MarketData) (row : FundingRow) : PyError :=
  .engineError ("funding settlement has no exact index-price row: market=" ++
    Text.show market.spec.aliasName ++ s!" ts={row.ts}")

/-- The settlement falls strictly inside the holding bar. -/
abbrev Inside (clock : TurnClock) (row : FundingRow) : Prop :=
  clock.decisionTs < row.ts ∧ row.ts < clock.holdingCloseTs

/-! ## Accepted packs -/

section Load

variable {ext : Externals} {sha : Sha256} {limits : Json.Limits} {directory : Directory}
  {verifyIntegrity : Bool}

/-- The funding bounds of an accepted pack are a floor and a cap. -/
theorem loadPack_fundingBounds {pack : PackData}
    (hload : loadPack sha limits verifyIntegrity directory = .ok pack)
    (hvalid : Returns (validatePack ext sha limits directory)) :
    ∀ market ∈ pack.markets,
      market.2.spec.funding.floor1e8 ≤ market.2.spec.funding.cap1e8 := by
  have hl := loadPack_loaded hload
  obtain ⟨v⟩ := validatePack_validated hvalid
  obtain ⟨specs, files, selected, hspecs, -, -, hmarkets⟩ := hl.markets
  intro market hmarket
  obtain ⟨⟨name, spec⟩, hspec, hloaded⟩ := mapM_mem hmarkets hmarket
  rw [(loadMarket_eq_ok hloaded).2.1]
  -- the descriptor the loader read is one the validator checked
  obtain ⟨_, raw, _, policy, -, -, hread, hpolicy, -⟩ :=
    Loaded.descriptor_of_spec v (hl.manifest_eq v) hspecs hspec
  simp only [fundingPolicy, bind_ok_iff, object_eq_ok, integer_eq_ok, require_eq_ok] at hpolicy
  obtain ⟨funding, hfunding, _, -, _, -, _, -, -, -, -, -, -, -, -, -, _, -, -, -, floor, hfloor, cap,
    hcap, -, hbounds, -⟩ := hpolicy
  simp only [marketSpec, bind_ok_iff, asObject_eq_ok, asInt_eq_ok, pure_eq_ok, Except.ok.injEq]
    at hread
  obtain ⟨funding', hfunding', _, -, _, -, _, -, _, -, _, -, _, -, _, -, _, -, ⟨_⟩, -, _, -, _, -, _,
    -, _, -, _, -, _, -, _, -, _, -, _, -, _, -, cap', hcap', floor', hfloor', _, -, _, -, _, -,
    rfl⟩ := hread
  obtain rfl : funding = funding' := by simpa using hfunding.symm.trans hfunding'
  obtain rfl : cap = cap' := HasInt.unique hcap hcap'
  obtain rfl : floor = floor' := HasInt.unique hfloor hfloor'
  dsimp only
  omega

end Load

/-! ## The index rows of a grid -/

section Grid

variable {pack : PackData} {market : MarketData} {turn : ℕ} {ts : ℤ}

theorem shortest_le {markets : List (Text × MarketData)} {item : Text × MarketData}
    (h : item ∈ markets) : PackData.shortest markets ≤ item.2.trade.length := by
  induction markets with
  | nil => simp at h
  | cons first rest ih =>
    cases rest with
    | nil =>
      obtain rfl := List.mem_singleton.mp h
      exact le_rfl
    | cons second rest =>
      rcases List.mem_cons.mp h with rfl | h
      · exact min_le_left _ _
      · exact (min_le_right _ _).trans (ih h)

/-- The index row of a decision. -/
theorem OnGrid.index_at (h : OnGrid pack market) (hmarket : ∃ name, (name, market) ∈ pack.markets)
    (hts : pack.clockRealTs turn = .ok ts) : ∃ row ∈ market.index, row.ts = ts := by
  obtain ⟨⟨turns, hturns, hlt⟩, rfl, -⟩ := clockRealTs_eq_ok.mp hts
  obtain ⟨name, hmem⟩ := hmarket
  have hshortest := shortest_le hmem
  rw [(barsTotal_eq_ok.mp hturns).2] at hshortest
  have hrange := market.index_ts.trans h.trade_ts
  have hlength : market.index.length = market.trade.length := by
    simpa using congrArg List.length market.index_ts
  have hi : pack.warmupBars + turn + 1 < market.index.length := by
    dsimp only at hshortest
    omega
  refine ⟨market.index[pack.warmupBars + turn + 1], List.getElem_mem hi, ?_⟩
  have hat : (rangeStep pack.windowStartTs pack.windowEndTs pack.decisionBarMs)[
      pack.warmupBars + turn + 1]? = some market.index[pack.warmupBars + turn + 1].ts := by
    rw [← hrange, List.getElem?_map, List.getElem?_eq_getElem hi]
    rfl
  rw [rangeStep_getElem hat]
  push_cast
  ring

/-- No index row falls strictly between two decisions. -/
theorem OnGrid.index_outside (h : OnGrid pack market) (hts : pack.clockRealTs turn = .ok ts)
    {row : BarRow} (hrow : row ∈ market.index) :
    ¬ (ts < row.ts ∧ row.ts < ts + pack.decisionBarMs) := by
  obtain ⟨-, rfl, -⟩ := clockRealTs_eq_ok.mp hts
  rintro ⟨hlow, hhigh⟩
  obtain ⟨i, hi⟩ := List.mem_iff_getElem?.mp hrow
  have hat : (rangeStep pack.windowStartTs pack.windowEndTs pack.decisionBarMs)[i]? =
      some row.ts := by
    rw [← h.trade_ts, ← market.index_ts, List.getElem?_map, hi]
    rfl
  rw [rangeStep_getElem hat] at hlow hhigh
  have hstep := pack.decision_bar_pos
  -- `i` would lie strictly between two neighbours
  have hgt : (pack.warmupBars + turn + 1 : ℤ) < i := by
    by_contra hle
    have := mul_le_mul_of_nonneg_right (not_lt.mp hle) (show (0 : ℤ) ≤ pack.decisionBarMs by omega)
    linarith
  have hlt : (i : ℤ) < pack.warmupBars + turn + 1 + 1 := by
    by_contra hge
    have := mul_le_mul_of_nonneg_right (not_lt.mp hge) (show (0 : ℤ) ≤ pack.decisionBarMs by omega)
    linarith
  omega

end Grid

/-! ## What a turn settles -/

section Turn

variable {env : ProfileEnv} {clock : TurnClock} {account : Account} {row : FundingRow}

/-- A computation that does not raise for want of an index row. -/
def Indexed {α : Type} (p : Py α) : Prop := ∀ market row, p ≠ .error (missingIndex market row)

theorem indexed_ok {α : Type} (a : α) : Indexed (.ok a : Py α) := fun _ _ h => by simp at h

theorem indexed_require {c : Prop} [Decidable c] {message : String} :
    Indexed (require c (.valueError message) : Py Unit) := by
  intro market row h
  unfold require at h
  split at h <;> simp [missingIndex] at h

theorem Indexed.bind {α β : Type} {p : Py α} {f : α → Py β} (hp : Indexed p)
    (hf : ∀ a, Indexed (f a)) : Indexed (p >>= f) := by
  intro market row h
  cases p with
  | ok a => exact hf a market row h
  | error e => exact hp market row (congrArg Except.error (Except.error.inj h))

theorem appliedFunding_indexed {market : MarketData} (h : ∃ r ∈ market.index, r.ts = row.ts) :
    Indexed (appliedFunding account market row) := by
  obtain ⟨r, hr, hts⟩ := h
  obtain ⟨found, hfound⟩ : ∃ found, market.index.find? (fun r => r.ts = row.ts) = some found :=
    Option.isSome_iff_exists.mp (List.find?_isSome.mpr ⟨r, hr, by simpa using hts⟩)
  simp only [appliedFunding, hfound]
  exact (indexed_require.bind fun _ => indexed_ok _).bind fun _ =>
    (indexed_require.bind fun _ => indexed_ok _).bind fun _ => indexed_ok _

theorem appliedFunding_missing {market : MarketData}
    (hbounds : market.spec.funding.floor1e8 ≤ market.spec.funding.cap1e8)
    (h : ∀ r ∈ market.index, r.ts ≠ row.ts) :
    appliedFunding account market row = .error (missingIndex market row) := by
  have hnone : market.index.find? (fun r => r.ts = row.ts) = none :=
    List.find?_eq_none.mpr fun r hr => by simpa using h r hr
  simp [appliedFunding, clampFundingRate1e8, hnone, require_pos hbounds, missingIndex]

/-- The settlement at a decision has its index row. -/
theorem coincidentFunding_indexed (h : ∃ r ∈ env.market.index, r.ts = clock.decisionTs) :
    Indexed (coincidentFunding env clock account) := by
  unfold coincidentFunding
  split
  · exact indexed_ok _
  · rename_i row hrow
    have hts : row.ts = clock.decisionTs := by simpa using List.find?_some hrow
    exact ((appliedFunding_indexed (hts ▸ h)).bind fun _ => indexed_ok _).bind fun _ => indexed_ok _

/-- A scan that meets no settlement inside the holding bar applies none. -/
theorem holdingFunding_outside {rows : List FundingRow} (h : ∀ row ∈ rows, ¬ Inside clock row) :
    holdingFunding env clock rows account = .ok (account, []) := by
  induction rows with
  | nil => rfl
  | cons row rows ih =>
    rw [holdingFunding, if_neg (h row (List.mem_cons_self ..))]
    exact ih fun r hr => h r (List.mem_cons_of_mem _ hr)

/-- A scan that meets one raises at the first, whatever the account. -/
theorem holdingFunding_missing
    (hbounds : env.market.spec.funding.floor1e8 ≤ env.market.spec.funding.cap1e8)
    (houtside : ∀ r ∈ env.market.index,
      ¬ (clock.decisionTs < r.ts ∧ r.ts < clock.holdingCloseTs))
    {rows : List FundingRow} (h : ∃ row ∈ rows, Inside clock row) :
    ∃ row ∈ rows, Inside clock row ∧
      ∀ account, holdingFunding env clock rows account = .error (missingIndex env.market row) := by
  induction rows with
  | nil => simp at h
  | cons first rows ih =>
    by_cases hfirst : Inside clock first
    · refine ⟨first, List.mem_cons_self .., hfirst, fun account => ?_⟩
      have hmissing : ∀ r ∈ env.market.index, r.ts ≠ first.ts := fun r hr heq =>
        houtside r hr (heq ▸ hfirst)
      rw [holdingFunding, if_pos hfirst, settleFunding,
        appliedFunding_missing hbounds hmissing]
      rfl
    · obtain ⟨row, hrow, hinside⟩ := h
      have hrest : row ∈ rows := by
        rcases List.mem_cons.mp hrow with rfl | hrest
        · exact absurd hinside hfirst
        · exact hrest
      obtain ⟨row, hrow, hinside, hraise⟩ := ih ⟨row, hrest, hinside⟩
      refine ⟨row, List.mem_cons_of_mem _ hrow, hinside, fun account => ?_⟩
      rw [holdingFunding, if_neg hfirst]
      exact hraise account

end Turn

/-! ## Runs -/

section Run

variable {σ : Type} {ext : Externals} {sha : Sha256} {limits : Json.Limits}
  {verifyIntegrity collectEvidence : Bool} {directory : Directory} {pack : PackData}
  {config : EpisodeConfig} {profile episodeId : Text} {source : DecisionSource σ}
  {env : ProfileEnv} {start : ProfileState σ}

/-- The turn entered in `state` is decided and gets through its order. -/
def OrderPlaced (sha : Sha256) (limits : Json.Limits) (env : ProfileEnv) (episodeId : Text)
    (collectEvidence : Bool) (source : DecisionSource σ) (state : ProfileState σ)
    (clock : TurnClock) : Prop :=
  ∃ drawdownUsed turnoverUsed decision asked funded coincident traded counters orders,
    drawdown1e8 state.core.snapshots = .ok drawdownUsed ∧
    turnover1e8 state.core.account.turnoverNotionalMicro env.config.startingNavMicro =
      .ok turnoverUsed ∧
    decideTurn sha limits env episodeId collectEvidence source clock drawdownUsed turnoverUsed
      state = .ok (decision, asked) ∧
    coincidentFunding env clock state.core.account = .ok (funded, coincident) ∧
    actionPhase env clock collectEvidence funded
      (countDecision clock state.core.counters decision).1 decision drawdownUsed =
        .ok (traded, counters, orders)

/-- What aborts the scan of a turn that got through its order aborts the turn. -/
theorem OrderPlaced.turnBody_raises {turn : ℕ} {state : ProfileState σ} {clock : TurnClock}
    (h : OrderPlaced sha limits env episodeId collectEvidence source state clock)
    (hclock : turnClock env turn = .ok clock) {e : PyError}
    (hraise : ∀ account, holdingFunding env clock env.market.funding account = .error e) :
    turnBody sha limits env episodeId collectEvidence source turn state = .error e := by
  obtain ⟨drawdown, turnover, decision, asked, funded, coincident, traded, counters, orders,
    hdrawdown, hturnover, hdec, hfund, haction⟩ := h
  simp only [turnBody, hclock, hdrawdown, hturnover, hdec, ok_bind, settleTurn, openPhase,
    decideTurn_core hdec, hfund, haction, hraise traded, raise_bind]

/-- On an accepted pack, a settlement inside a holding bar aborts the scan. -/
theorem holdingFunding_missing_of_accepted
    (hload : loadPack sha limits verifyIntegrity directory = .ok pack)
    (hvalid : Returns (validatePack ext sha limits directory))
    (henv : profileEnv pack config profile = .ok env) {turn : ℕ} {clock : TurnClock}
    (hclock : turnClock env turn = .ok clock) (hinside : ∃ row ∈ env.market.funding, Inside clock row) :
    ∃ row ∈ env.market.funding, Inside clock row ∧ ∀ account,
      holdingFunding env clock env.market.funding account = .error (missingIndex env.market row) := by
  obtain ⟨rfl, rfl, -, hmarket, -⟩ := profileEnv_eq_ok henv
  have hgrid : OnGrid env.pack env.market :=
    loadPack_onGrid hload hvalid _ (PackData.market_mem hmarket)
  obtain ⟨hts, -, -, hclose⟩ := turnClock_eq_ok hclock
  exact holdingFunding_missing (loadPack_fundingBounds hload hvalid _ (PackData.market_mem hmarket))
    (fun r hr => hclose ▸ hgrid.index_outside hts hr) hinside

/-- **Settlements and index rows.** On an accepted pack, no settlement that a run applies lacks its
index row exactly when no settlement falls strictly inside the holding bar of a turn it enters. Such
a settlement aborts the run in the turn it falls in, once the turn's order is through. -/
theorem funding_indexed_iff
    (hload : loadPack sha limits verifyIntegrity directory = .ok pack)
    (hvalid : Returns (validatePack ext sha limits directory))
    (henv : profileEnv pack config profile = .ok env) :
    ((∀ turn state clock,
        TurnReach sha limits env episodeId collectEvidence source start turn state →
        state.stopped = false → turnClock env turn = .ok clock → ∀ account,
          Indexed (coincidentFunding env clock account) ∧
          Indexed (holdingFunding env clock env.market.funding account)) ↔
      ∀ turn state clock,
        TurnReach sha limits env episodeId collectEvidence source start turn state →
        state.stopped = false → turnClock env turn = .ok clock →
        ∀ row ∈ env.market.funding, ¬ Inside clock row) ∧
    ∀ turn state clock,
      TurnReach sha limits env episodeId collectEvidence source start turn state →
      state.stopped = false → turnClock env turn = .ok clock →
      OrderPlaced sha limits env episodeId collectEvidence source state clock →
      (∃ row ∈ env.market.funding, Inside clock row) →
      ∃ row ∈ env.market.funding, Inside clock row ∧
        turnBody sha limits env episodeId collectEvidence source turn state =
          .error (missingIndex env.market row) := by
  refine ⟨⟨fun hindexed turn state clock hreach hgo hclock row hrow hinside => ?_,
    fun hout turn state clock hreach hgo hclock account => ⟨?_, ?_⟩⟩,
    fun turn state clock hreach hgo hclock hplaced hinside => ?_⟩
  · obtain ⟨first, -, -, hraise⟩ :=
      holdingFunding_missing_of_accepted hload hvalid henv hclock ⟨row, hrow, hinside⟩
    exact (hindexed turn state clock hreach hgo hclock state.core.account).2 _ _
      (hraise state.core.account)
  · obtain ⟨rfl, rfl, -, hmarket, -⟩ := profileEnv_eq_ok henv
    have hmem := PackData.market_mem hmarket
    have hgrid : OnGrid env.pack env.market := loadPack_onGrid hload hvalid _ hmem
    exact coincidentFunding_indexed (hgrid.index_at ⟨_, hmem⟩ (turnClock_eq_ok hclock).1)
  · rw [holdingFunding_outside (hout turn state clock hreach hgo hclock)]
    exact indexed_ok _
  · obtain ⟨row, hrow, hrowInside, hraise⟩ :=
      holdingFunding_missing_of_accepted hload hvalid henv hclock hinside
    exact ⟨row, hrow, hrowInside, hplaced.turnBody_raises hclock hraise⟩

end Run

end WagmiBench.Data

namespace WagmiBench.Core.Scenario

open WagmiBench.Lib WagmiBench.Spec WagmiBench.Data

/-! ## Settlements between the bars -/

/-- A document with members replaced. -/
def replaceMembers (value : Json) (members : List (Text × Json)) : Json :=
  match value with
  | .obj old => .obj (old.map fun m => (m.1, (Json.lookup m.1 members).getD m.2))
  | other => other

/-- A standing price over two hourly bars, settled every half hour. -/
def halfHourly : Scenario :=
  ⟨.still 10_000, [.still 10_000],
    [(0, 0), (1_800_000, 0), (3_600_000, 0), (5_400_000, 0)], 50_000, 0, 0, 1_000_000, 20_000,
    onePercent_pos, doubled_pos, by decide⟩

/-- The specification of a market that settles every half hour. -/
def halfHourlySpec : MarketSpec :=
  { halfHourly.spec with
    funding := ⟨1_800_000, (List.range 48).map fun i => 1_800_000 * i, 300_000, -300_000, by decide,
      by decide, by decide⟩ }

/-- The directory of the scenario, for an instrument with that settlement clock. -/
def halfHourlyDirectory : Directory := fun path =>
  if path = txt "manifest.json" then
    .file (document (replaceMembers halfHourly.manifestDocument
      [(txt "markets", .obj [(ALIAS, replaceMembers (descriptor halfHourlySpec)
        [(txt "instrument", jsonStr "binance-um:ETHUSDT")])])]))
  else halfHourly.directory path

theorem halfHourly_accepted : ∃ pack env, loadPack sha limits true halfHourlyDirectory = .ok pack ∧
    Returns (validatePack scenarioExternals sha limits halfHourlyDirectory) ∧
    profileEnv pack (config 90_000_000) PRIMARY = .ok env ∧
    ∃ start turns clock, startState env () = .ok start ∧ start.stopped = false ∧
      pack.barsTotal = .ok turns ∧ turnClock env 0 = .ok clock ∧
      OrderPlaced sha limits env [] false (.replay [missed]) start clock ∧
      ∃ row ∈ env.market.funding, Inside clock row := by
  have returned : Returns (do
      let pack ← loadPack sha limits true halfHourlyDirectory
      let _ ← validatePack scenarioExternals sha limits halfHourlyDirectory
      let env ← profileEnv pack (config 90_000_000) PRIMARY
      let start ← startState env ()
      let turns ← pack.barsTotal
      let clock ← turnClock env 0
      let drawdown ← drawdown1e8 start.core.snapshots
      let turnover ← turnover1e8 start.core.account.turnoverNotionalMicro
        env.config.startingNavMicro
      let decided ← decideTurn sha limits env [] false (.replay [missed]) clock drawdown turnover
        start
      let funded ← coincidentFunding env clock start.core.account
      let traded ← actionPhase env clock false funded.1
        (countDecision clock start.core.counters decided.1).1 decided.1 drawdown
      require (start.stopped = false ∧ ∃ row ∈ env.market.funding, Inside clock row)
        (.engineError "outside")
      return (turns, traded)) := by decide +kernel
  obtain ⟨_, returned⟩ := returned
  simp only [bind_ok_iff, require_eq_ok] at returned
  obtain ⟨pack, hload, _, hvalid, env, henv, start, hstart, turns, hturns, clock, hclock, drawdown,
    hdrawdown, turnover, hturnover, ⟨decision, asked⟩, hdec, ⟨funded, coincident⟩, hfund,
    ⟨traded, counters, orders⟩, haction, _, ⟨hgo, hinside⟩, -⟩ := returned
  exact ⟨pack, env, hload, ⟨_, hvalid⟩, henv, start, turns, clock, hstart, hgo, hturns, hclock,
    ⟨drawdown, turnover, decision, asked, funded, coincident, traded, counters, orders, hdrawdown,
      hturnover, hdec, hfund, haction⟩, hinside⟩

/-- An accepted pack whose first holding bar has a settlement in its middle: the run is aborted. -/
theorem halfHourly_missing_index : ∃ pack env row,
    loadPack sha limits true halfHourlyDirectory = .ok pack ∧
    Returns (validatePack scenarioExternals sha limits halfHourlyDirectory) ∧
    profileEnv pack (config 90_000_000) PRIMARY = .ok env ∧ row ∈ env.market.funding ∧
    runProfile sha limits pack (config 90_000_000) PRIMARY [] (.replay [missed]) () false =
      .error (missingIndex env.market row) := by
  obtain ⟨pack, env, hload, hvalid, henv, start, turns, clock, hstart, hgo, hturns, hclock, hplaced,
    hinside⟩ := halfHourly_accepted
  obtain ⟨row, hrow, -, hraise⟩ :=
    holdingFunding_missing_of_accepted hload hvalid henv hclock hinside
  have hbody := hplaced.turnBody_raises hclock hraise
  have hpos : 0 < turns := (barsTotal_eq_ok.mp hturns).1
  have hpack := (profileEnv_eq_ok henv).1
  refine ⟨pack, env, row, hload, hvalid, henv, hrow, ?_⟩
  rw [runProfile, henv, ok_bind, runLoop, hstart, ok_bind, hpack, hturns, ok_bind,
    loopFrom_error_of_reach .start hpos hgo hbody, raise_bind]

/-- The surge, whose settlements are all at decisions or outside its run. -/
theorem surge_indexed : ∃ start : ProfileState Unit,
    startState (surge.loadedEnv (config 90_000_000) 10_000) () = .ok start ∧
    ((∀ turn state clock,
        TurnReach sha limits (surge.loadedEnv (config 90_000_000) 10_000) [] false
          (.replay [acting 10_000 none]) start turn state →
        state.stopped = false →
        turnClock (surge.loadedEnv (config 90_000_000) 10_000) turn = .ok clock → ∀ account,
          Indexed (coincidentFunding (surge.loadedEnv (config 90_000_000) 10_000) clock account) ∧
          Indexed (holdingFunding (surge.loadedEnv (config 90_000_000) 10_000) clock
            (surge.loadedEnv (config 90_000_000) 10_000).market.funding account)) ↔
      ∀ turn state clock,
        TurnReach sha limits (surge.loadedEnv (config 90_000_000) 10_000) [] false
          (.replay [acting 10_000 none]) start turn state →
        state.stopped = false →
        turnClock (surge.loadedEnv (config 90_000_000) 10_000) turn = .ok clock →
        ∀ row ∈ (surge.loadedEnv (config 90_000_000) 10_000).market.funding, ¬ Inside clock row) := by
  have returned : Returns (startState (surge.loadedEnv (config 90_000_000) 10_000) ()) := by
    rw [returns_iff_isOk]
    decide +kernel
  obtain ⟨start, hstart⟩ := returned
  exact ⟨start, hstart, (funding_indexed_iff surge_accepted.loads surge_accepted.valid
    (show profileEnv surge.loaded (config 90_000_000) PRIMARY =
      .ok (surge.loadedEnv (config 90_000_000) 10_000) from rfl)).1⟩

end WagmiBench.Core.Scenario
