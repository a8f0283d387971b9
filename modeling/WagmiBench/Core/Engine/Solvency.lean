import WagmiBench.Core.Engine.Position
import WagmiBench.Core.Engine.Stress
import WagmiBench.Core.Engine.Verdict

/-!
# Solvency

The liquidation trigger is computed from the entry price and the leverage label of a position alone,
the NAV from everything the account has paid and earned: the trigger may lie beyond the price at which
the NAV is used up. A run whose holding bars never get there, and whose settlements and forced closes
cost less than the account has, keeps its NAV positive at the start of every turn.
-/

namespace WagmiBench.Core

open WagmiBench.Lib WagmiBench.Harness WagmiBench.Spec WagmiBench.Data

/-! ## The NAV at a price -/

/-- The NAV of an account with its position marked at `px`. -/
def Account.navAt (account : Account) (spec : MarketSpec) (px : ℤ) : ℤ :=
  account.cashMicro +
    (px - account.entryPxTicks) * account.positionQtyBase1e8 * spec.tickSizeMicro / QTY_SCALE

theorem upnl_navAt {account : Account} {spec : MarketSpec} {px u : ℤ}
    (h : upnl account px spec = .ok u) : account.navAt spec px = account.cashMicro + u := by
  unfold upnl at h
  split at h
  · rename_i hq
    obtain rfl := Except.ok.inj h
    simp [Account.navAt, hq]
  · obtain ⟨-, rfl⟩ := unrealizedPnlMicro_eq_ok.mp h
    rfl

/-- No price of a bar marks an account lower than the adverse extreme. -/
theorem navAt_adverse_le {account : Account} {spec : MarketSpec} {mark : BarRow}
    (hlow : mark.l ≤ mark.c) (hhigh : mark.c ≤ mark.h) :
    account.navAt spec (adverse account mark) ≤ account.navAt spec mark.c := by
  have htick : 0 ≤ spec.tickSizeMicro := by
    have := spec.tick_size_pos
    omega
  have worth : (adverse account mark - account.entryPxTicks) * account.positionQtyBase1e8 ≤
      (mark.c - account.entryPxTicks) * account.positionQtyBase1e8 := by
    unfold adverse
    split
    · exact mul_le_mul_of_nonneg_right (by omega) (by omega)
    · exact mul_le_mul_of_nonpos_right (by omega) (by omega)
  exact add_le_add_right (Int.ediv_le_ediv (by decide) (mul_le_mul_of_nonneg_right worth htick)) _

/-- The peak of a log with another snapshot. -/
theorem SnapshotLog.peakNav_push (log : SnapshotLog) (s : Snapshot) :
    (log.push s).peakNav = max log.peakNav s.navMicro := by
  have fold : ∀ (navs : List ℤ) (a b : ℤ), (navs ++ [a]).foldr max b = max (navs.foldr max a) b := by
    intro navs a b
    induction navs with
    | nil => rfl
    | cons nav navs ih => rw [List.cons_append, List.foldr_cons, ih, List.foldr_cons, max_assoc]
  simp only [SnapshotLog.peakNav, push_last, push_earlier, SnapshotLog.all, List.map_append,
    List.map_cons, List.map_nil, fold]

/-! ## Turns that are covered -/

section Turns

variable {env : ProfileEnv} {clock : TurnClock} {collectEvidence : Bool} {core core' : ProfileCore}
  {decision : TurnDecision} {drawdownUsed : ℤ}

/-- What a turn asks of the account: a settlement at the decision leaves a NAV that is no debt; at the
worst price the holding bar visits, the account carried into it is solvent or liquidated; and a forced
close costs less than the NAV it closes. -/
structure Covered (env : ProfileEnv) (clock : TurnClock) (collectEvidence : Bool)
    (core : ProfileCore) (decision : TurnDecision) (drawdownUsed : ℤ) : Prop where
  funded : ∀ account drafts mark, coincidentFunding env clock core.account = .ok (account, drafts) →
    env.market.mark[clock.decisionAbs]? = some mark → 0 ≤ account.navAt env.market.spec mark.c
  triggered : ∀ account counters drafts mark,
    openPhase env clock collectEvidence core.account core.counters decision drawdownUsed =
      .ok (account, counters, drafts) →
    env.market.mark[clock.fillAbs]? = some mark →
    Crosses env clock collectEvidence core decision drawdownUsed ∨
      0 < account.navAt env.market.spec (adverse account mark)
  closed : ∀ account counters drafts mark fee,
    openPhase env clock collectEvidence core.account core.counters decision drawdownUsed =
      .ok (account, counters, drafts) →
    env.market.mark[clock.fillAbs]? = some mark → account.positionQtyBase1e8 ≠ 0 →
    account.killSwitchActive = false → ClosingFee env account mark.c fee →
    DrawnDown env.config.drawdownKillSwitch1e8 RATE_SCALE
      (max core.snapshots.peakNav (account.navAt env.market.spec mark.c))
      (account.navAt env.market.spec mark.c) →
    fee < account.navAt env.market.spec mark.c

/-- Step lemma: a covered turn that does not liquidate leaves a positive NAV. -/
theorem settleTurn_solvent {nextSeq : ℕ} {drafts : List Draft}
    (hohlc : ∀ mark ∈ env.market.mark, mark.l ≤ mark.c ∧ mark.c ≤ mark.h)
    (hcovered : Covered env clock collectEvidence core decision drawdownUsed)
    (halive : core'.terminal = false)
    (h : settleTurn env clock collectEvidence core decision drawdownUsed nextSeq =
      .ok (core', drafts)) : 0 < core'.snapshots.last.navMicro := by
  have uncrossed : ¬ Crosses env clock collectEvidence core decision drawdownUsed := by
    rw [← settleTurn_terminal h, halive]
    simp
  obtain ⟨account, counters, opening, closing, hopen, hclose, -⟩ := settleTurn_eq_ok h
  obtain ⟨margin, closed, liquidated, liquidation, s, killed, kill, last, -, hliq, hs, hk, -, -,
    hterminal, -⟩ := closePhase_eq_ok hclose
  obtain rfl : liquidated = false := hterminal ▸ halive
  obtain rfl : closed = account := by
    obtain ⟨-, rfl, -⟩ | ⟨-, _, _, -, -, ⟨-, h, -⟩ | ⟨-, -, rfl, -⟩⟩ := liquidationPhase_eq_ok hliq
    · rfl
    · cases h
    · rfl
  obtain ⟨taken, -, -, -, mark, _, hmark, -, hupnl, -⟩ := snapshot_eq_ok hs
  have hnav : s.navMicro = closed.navAt env.market.spec mark.c := by
    rw [taken.nav, taken.cash, upnl_navAt hupnl]
  obtain ⟨hlow, hhigh⟩ := hohlc mark (List.mem_of_getElem? hmark)
  have solvent : 0 < s.navMicro := by
    rw [hnav]
    exact ((hcovered.triggered _ _ _ _ hopen hmark).resolve_left uncrossed).trans_le
      (navAt_adverse_le hlow hhigh)
  obtain ⟨drawdown, hdrawdown, ⟨-, -, -, hsnapshots, -⟩ | ⟨-, -, -, -, hsnapshots, -⟩ |
    ⟨⟨-, hactive, hreached⟩, hq, -, flat, filled, s', margin', hflat, hs', -, -, hsnapshots, -⟩⟩ :=
    killSwitchPhase_eq_ok hk
  · rw [hsnapshots]
    exact solvent
  · rw [hsnapshots]
    exact solvent
  · -- the forced close is paid from the NAV it closes
    obtain ⟨mark', fee, hmark', hfee, hnav'⟩ := flatten_nav hq hs hflat hs'
    obtain rfl : mark = mark' := Option.some.inj (hmark.symm.trans hmark')
    have hdrawn := (drawdown1e8_eq_ok hdrawdown).2.mp hreached
    rw [SnapshotLog.peakNav_push, SnapshotLog.push_last, hnav] at hdrawn
    have paid := hcovered.closed _ _ _ _ fee hopen hmark hq hactive hfee hdrawn
    rw [hsnapshots]
    change 0 < s'.navMicro
    omega

end Turns

/-! ## What an observation marks the account at -/

/-- The NAV the observation of a turn is built with, once its markets are. -/
def ObservedNav (env : ProfileEnv) (turn : ℕ) (core : ProfileCore) (nav : ℤ) : Prop :=
  ∃ position realTs clock effective builds,
    positionForObservation core.account core.snapshots.last = .ok position ∧
    env.pack.clockRealTs turn = .ok realTs ∧
    VirtualClock.forWindow env.pack.windowStartTs realTs = .ok clock ∧
    env.pack.marketAliases.mapM
      (Observe.marketBuild env.pack [(env.aliasName, position)] effective clock) = .ok builds ∧
    nav = core.account.cashMicro - core.snapshots.last.marginMicro +
      (builds.map fun b => b.2.marginAndUpnl).sum

theorem PackData.market_mem {pack : PackData} {name : Text} {market : MarketData}
    (h : pack.market name = .ok market) : (name, market) ∈ pack.markets := by
  unfold PackData.market at h
  split at h
  · rename_i found hfind
    obtain rfl := Except.ok.inj h
    have hname := List.find?_some hfind
    simp only [decide_eq_true_eq] at hname
    exact hname ▸ List.mem_of_find?_eq_some hfind
  · simp at h

/-- The mark an observation of a turn is built on is the closing mark of its decision. -/
theorem marketBuild_eq_ok {pack : PackData} {positions : List (Text × PositionState)}
    {effective : EffectiveLookback} {clock : VirtualClock} {name : Text} {market : MarketData}
    {turn : ℕ} {build : Text × Observe.MarketBuild} {mark : BarRow}
    (hmarket : pack.market name = .ok market) (hgrid : OnGrid pack market)
    (hclock : pack.clockRealTs turn = .ok clock.realTs)
    (hmark : market.mark[pack.warmupBars + turn]? = some mark)
    (h : Observe.marketBuild pack positions effective clock name = .ok build) :
    let position := ((positions.find? fun p => p.1 = name).map Prod.snd).getD .none
    build.2.marginAndUpnl = position.marginMicro +
      Observe.upnlMicro position mark.c market.spec.tickSizeMicro := by
  simp only [Observe.marketBuild, Observe.marketDocument, Observe.positionDocument, bind_ok_iff,
    hmarket, Except.ok.injEq, exists_eq_left', require_eq_ok, pure_eq_ok] at h
  obtain ⟨doc, ⟨markRow, hrow, indexRow, -, -, -, -, -, -, -, -, -, -, -, rfl⟩, _, ⟨-, -, rfl⟩, rfl⟩ :=
    h
  obtain ⟨-, havailable, -⟩ := hgrid.available hclock
  have hlast : (market.availableMark clock.realTs).getLast? = some mark := by
    rw [havailable, List.getLast?_take, Nat.add_sub_cancel, hmark]
    simp
  rw [Observe.lastAvailableBar, hlast] at hrow
  obtain rfl := Except.ok.inj hrow
  rfl

theorem PositionState.make_eq_ok {qty : ℤ} {entry : Option ℤ} {margin : ℤ} {liq : Option ℤ}
    {position : PositionState} (h : PositionState.make qty entry margin liq = .ok position) :
    position.qtyBase1e8 = qty ∧ position.entryPxTicks = entry ∧ position.marginMicro = margin := by
  unfold PositionState.make at h
  obtain ⟨⟨hm⟩, -, h⟩ := bind_ok_iff.mp h
  dsimp only at h
  split at h
  · obtain ⟨_, -, h⟩ := bind_ok_iff.mp h
    obtain ⟨_, -, h⟩ := bind_ok_iff.mp h
    obtain rfl := Except.ok.inj h
    exact ⟨rfl, rfl, rfl⟩
  · obtain ⟨_, -, h⟩ := bind_ok_iff.mp h
    obtain rfl := Except.ok.inj h
    exact ⟨rfl, rfl, rfl⟩

/-- What an observed position is worth, with its margin given back. -/
theorem positionForObservation_worth {account : Account} {market : MarketData} {i k : ℕ} {ts : ℤ}
    {s : Snapshot} {mark : BarRow} {position : PositionState}
    (hs : snapshot account market i k (some ts) = .ok s) (hmark : market.mark[i]? = some mark)
    (h : positionForObservation account s = .ok position) :
    account.cashMicro - s.marginMicro +
      (position.marginMicro + Observe.upnlMicro position mark.c market.spec.tickSizeMicro) =
      s.navMicro := by
  obtain ⟨taken, -, -, -, mark', risk, hmark', -, hupnl, hrisk, -, hmargin, -⟩ := snapshot_eq_ok hs
  obtain rfl : mark = mark' := Option.some.inj (hmark.symm.trans hmark')
  rw [taken.nav, taken.cash]
  unfold positionForObservation at h
  unfold upnl at hupnl
  split at h
  · rename_i hq
    obtain rfl := Except.ok.inj h
    rw [if_pos hq] at hupnl
    rw [← Except.ok.inj hupnl, hmargin]
    simp only [positionRisk, if_pos hq, pure_eq_ok, Except.ok.injEq] at hrisk
    rw [← hrisk]
    simp [PositionState.none, Observe.upnlMicro]
  · rename_i hq
    obtain ⟨hqty, hentry, hmargin'⟩ := PositionState.make_eq_ok h
    rw [if_neg hq] at hupnl
    obtain ⟨-, hu⟩ := unrealizedPnlMicro_eq_ok.mp hupnl
    rw [Observe.upnlMicro, hqty, if_neg hq, hentry, hmargin', hu, Option.getD_some,
      mul_comm account.positionQtyBase1e8]
    ring

section Loop

variable {σ : Type} {sha : Sha256} {limits : Json.Limits} {env : ProfileEnv} {episodeId : Text}
  {collectEvidence : Bool} {source : DecisionSource σ} {start state : ProfileState σ}

/-- Run lemma: every observation of a run is built with the NAV of the last snapshot. -/
theorem TurnReach.observedNav {s : σ} (hgrid : OnGrid env.pack env.market)
    (haliases : env.pack.marketAliases = [env.aliasName])
    (hmarket : env.pack.market env.aliasName = .ok env.market)
    (hstart : startState env s = .ok start) {turn : ℕ}
    (h : TurnReach sha limits env episodeId collectEvidence source start turn state) {nav : ℤ}
    (hnav : ObservedNav env turn state.core nav) : nav = state.core.snapshots.last.navMicro := by
  obtain ⟨position, realTs, clock, effective, builds, hposition, hts, hclock, hbuilds, rfl⟩ := hnav
  have marked := TurnReach.marked hstart h
  obtain ⟨-, -, -, -, mark, _, hmark, -⟩ := snapshot_eq_ok marked
  have hreal : clock.realTs = realTs := by
    simp only [VirtualClock.forWindow, bind_ok_iff] at hclock
    obtain ⟨offset, -, hclock⟩ := hclock
    split at hclock
    · obtain rfl := Except.ok.inj hclock
      rfl
    · simp at hclock
  rw [haliases, mapM_eq_ok] at hbuilds
  obtain ⟨build, rest, hbuild, hrest, rfl⟩ := List.forall₂_cons_left_iff.mp hbuilds
  obtain rfl := List.forall₂_nil_left_iff.mp hrest
  have worth := marketBuild_eq_ok hmarket hgrid (hreal ▸ hts) hmark hbuild
  have here : (([(env.aliasName, position)].find? fun p => p.1 = env.aliasName).map Prod.snd).getD
      .none = position := by simp
  rw [here] at worth
  simp only [List.map_cons, List.map_nil, List.sum_cons, List.sum_nil, add_zero, worth]
  exact positionForObservation_worth marked hmark hposition

/-- Every turn of a run is covered. -/
def RunCovered (sha : Sha256) (limits : Json.Limits) (env : ProfileEnv) (episodeId : Text)
    (collectEvidence : Bool) (source : DecisionSource σ) (start : ProfileState σ) : Prop :=
  ∀ turn state decision clock drawdownUsed,
    TurnReach sha limits env episodeId collectEvidence source start turn state →
    state.stopped = false → turnClock env turn = .ok clock →
    drawdown1e8 state.core.snapshots = .ok drawdownUsed →
    Decides sha limits env episodeId collectEvidence source turn state decision →
    Covered env clock collectEvidence state.core decision drawdownUsed

/-- The NAV of a state at the start of a turn is positive, and so is every NAV before it: none of the
three places that ask for that refuses. -/
structure Solvent (env : ProfileEnv) (turn : ℕ) (core : ProfileCore) : Prop where
  nav : 0 < core.snapshots.last.navMicro
  marked : ∃ mark u, env.market.mark[env.pack.warmupBars + turn]? = some mark ∧
    upnl core.account mark.c env.market.spec = .ok u ∧
    core.snapshots.last.navMicro = core.account.cashMicro + u
  observed : ∀ nav, ObservedNav env turn core nav → 0 < nav
  returns : 1 ≤ turn → Returns (barReturns core.snapshots.navs)

/-- The equity the orders of a turn are sized on is no debt. -/
def SizedOnEquity (env : ProfileEnv) (turn : ℕ) (core : ProfileCore) : Prop :=
  ∀ clock account drafts mark u, turnClock env turn = .ok clock →
    coincidentFunding env clock core.account = .ok (account, drafts) →
    env.market.mark[clock.decisionAbs]? = some mark →
    upnl account mark.c env.market.spec = .ok u → 0 ≤ account.cashMicro + u

theorem returnsOf_returns {navs : List ℤ} (h : ∀ nav ∈ navs, 0 < nav) : Returns (returnsOf navs) := by
  induction navs with
  | nil => exact returns_ok _
  | cons nav navs ih =>
    cases navs with
    | nil => exact returns_ok _
    | cons next navs =>
      exact (returns_require (h nav (by simp))).bind fun _ _ =>
        (ih fun v hv => h v (List.mem_cons_of_mem _ hv)).bind fun _ _ => returns_ok _

/-- Run lemma: a covered run has only positive NAVs while it is not liquidated. -/
theorem RunCovered.navs_pos {s : σ}
    (hohlc : ∀ mark ∈ env.market.mark, mark.l ≤ mark.c ∧ mark.c ≤ mark.h)
    (hstart : startState env s = .ok start)
    (hcovered : RunCovered sha limits env episodeId collectEvidence source start) {turn : ℕ}
    (h : TurnReach sha limits env episodeId collectEvidence source start turn state)
    (hrunning : state.core.terminal = false) : ∀ nav ∈ state.core.snapshots.navs, 0 < nav := by
  induction h with
  | start =>
    obtain ⟨ts, first, -, hfirst, rfl⟩ := startState_eq_ok hstart
    obtain ⟨taken, -, -, -, mark, _, -, -, hupnl, -⟩ := snapshot_eq_ok hfirst
    have hnav := env.config.starting_nav_pos
    have worth : first.navMicro = env.config.startingNavMicro := by
      rw [taken.nav, taken.cash, ← upnl_navAt hupnl]
      simp [Account.navAt, Account.start]
    simp only [SnapshotLog.navs, SnapshotLog.all, List.nil_append, List.map_cons, List.map_nil,
      List.mem_singleton, forall_eq, worth]
    omega
  | @step t s s' hreach hstop hbody ih =>
    obtain ⟨clock, drawdown, turnover, decision, asked, drafts, hclock, hdrawdown, hturnover, hdec,
      hsettle, -⟩ := turnBody_eq_ok hbody
    have covered := hcovered t s decision clock drawdown hreach hstop hclock hdrawdown
      ⟨clock, drawdown, turnover, asked, hclock, hdrawdown, hturnover, hdec⟩
    have navs : s'.core.snapshots.navs = s.core.snapshots.navs ++
        [s'.core.snapshots.last.navMicro] := by
      rw [SnapshotLog.navs, SnapshotLog.all, (settleTurn_snapshot hsettle).2]
      simp [SnapshotLog.navs]
    intro nav hmem
    rw [navs] at hmem
    rcases List.mem_append.mp hmem with hmem | hmem
    · exact ih hstop nav hmem
    · obtain rfl := List.mem_singleton.mp hmem
      exact settleTurn_solvent hohlc covered hrunning hsettle

end Loop

/-- **Solvency while trading.** On an accepted pack, a covered run is solvent at the start of every
turn that is not liquidated, and every turn it decides sizes its orders on an equity that is no
debt. -/
theorem solvent_while_trading {σ : Type} {ext : Externals} {sha : Sha256} {limits : Json.Limits}
    {verifyIntegrity collectEvidence : Bool} {directory : Directory} {pack : PackData}
    {config : EpisodeConfig} {profile episodeId : Text} {source : DecisionSource σ} {s : σ}
    {env : ProfileEnv} {start state : ProfileState σ} {turn : ℕ}
    (hload : loadPack sha limits verifyIntegrity directory = .ok pack)
    (hvalid : Returns (validatePack ext sha limits directory))
    (henv : profileEnv pack config profile = .ok env) (hstart : startState env s = .ok start)
    (hcovered : RunCovered sha limits env episodeId collectEvidence source start)
    (h : TurnReach sha limits env episodeId collectEvidence source start turn state)
    (hrunning : state.core.terminal = false) :
    Solvent env turn state.core ∧
      ((∃ decision, Decides sha limits env episodeId collectEvidence source turn state decision) →
        SizedOnEquity env turn state.core) := by
  obtain ⟨rfl, rfl, haliases, hmarket, -⟩ := profileEnv_eq_ok henv
  have hgrid : OnGrid env.pack env.market :=
    loadPack_onGrid hload hvalid _ (PackData.market_mem hmarket)
  have hohlc : ∀ mark ∈ env.market.mark, mark.l ≤ mark.c ∧ mark.c ≤ mark.h := fun mark hmark => by
    obtain ⟨-, hlow, -, -, hhigh⟩ := hgrid.ohlc env.market.mark (by simp) mark hmark
    exact ⟨hlow, hhigh⟩
  have positive := hcovered.navs_pos hohlc hstart h hrunning
  have hnav : 0 < state.core.snapshots.last.navMicro :=
    positive _ (List.mem_map_of_mem (SnapshotLog.mem_all.mpr (.inr rfl)))
  obtain ⟨taken, -, -, -, mark, _, hmark, -, hupnl, -⟩ :=
    snapshot_eq_ok (TurnReach.marked hstart h)
  refine ⟨⟨hnav, ⟨mark, _, hmark, hupnl, by rw [taken.nav, taken.cash]⟩, fun nav hobserved => ?_,
    fun hturn => ?_⟩, ?_⟩
  · rw [h.observedNav hgrid haliases hmarket hstart hobserved]
    exact hnav
  · refine (returns_require ?_).bind fun _ _ => returnsOf_returns positive
    have := (h.logged hstart).count
    rw [SnapshotLog.navs, List.length_map]
    omega
  · rintro ⟨decision, clock, drawdown, turnover, asked, hclock, hdrawdown, hturnover, hdec⟩
    intro clock' account drafts mark' u hclock' hfund hmark' hu
    obtain rfl : clock = clock' := Except.ok.inj (hclock.symm.trans hclock')
    have covered := hcovered turn state decision clock drawdown h hrunning hclock hdrawdown
      ⟨clock, drawdown, turnover, asked, hclock, hdrawdown, hturnover, hdec⟩
    rw [← upnl_navAt hu]
    exact covered.funded account drafts mark' hfund hmark'

open Scenario in
/-- A long of one times the equity into the surge: its turn is covered, and the next one starts
solvent. -/
theorem surge_solvent :
    ∃ (start state : ProfileState Unit),
      TurnReach sha limits (surge.loadedEnv (config 90_000_000) 10_000) EPISODE_ID false
        (.replay [acting 10_000 none]) start 1 state ∧
      Solvent (surge.loadedEnv (config 90_000_000) 10_000) 1 state.core := by
  have returned : Returns (do
      let env := surge.loadedEnv (config 90_000_000) 10_000
      let start ← startState env ()
      let clock ← turnClock env 0
      let funded ← coincidentFunding env clock start.core.account
      let drawdown ← drawdown1e8 start.core.snapshots
      let opened ← openPhase env clock false start.core.account start.core.counters
        (acting 10_000 none) drawdown
      let decided ← rowAt env.market.mark clock.decisionAbs
      let mark ← rowAt env.market.mark clock.fillAbs
      let nav := opened.1.navAt env.market.spec mark.c
      require (0 ≤ funded.1.navAt env.market.spec decided.c ∧
        0 < opened.1.navAt env.market.spec (adverse opened.1 mark) ∧
        ¬ DrawnDown env.config.drawdownKillSwitch1e8 RATE_SCALE
          (max start.core.snapshots.peakNav nav) nav) (.engineError "not covered")
      let state ← turnBody sha limits env EPISODE_ID false (.replay [acting 10_000 none]) 0 start
      require (start.stopped = false ∧ state.core.terminal = false) (.engineError "stopped")) := by
    decide +kernel
  obtain ⟨_, returned⟩ := returned
  simp only [bind_ok_iff, require_eq_ok, rowAt_eq_ok] at returned
  obtain ⟨start, hstart, clock, hclock, ⟨funded, _⟩, hfund, drawdown, hdrawdown,
    ⟨account, counters, _⟩, hopen, decided, hdecided, mark, hmark, _, ⟨hfunded, hworst, hhigh⟩, state,
    hstate, hgo, hrunning⟩ := returned
  have hreach := Reach.step .start hgo hstate
  have hcovered : RunCovered sha limits (surge.loadedEnv (config 90_000_000) 10_000) EPISODE_ID false
      (.replay [acting 10_000 none]) start := by
    rintro turn st decision clock' drawdown' hst - hclock' hdrawdown' ⟨c, _, _, _, hc, -, -, hdec⟩
    obtain ⟨hdec, -⟩ := decideTurn_replay_eq_ok hdec
    rw [(turnClock_eq_ok hc).2.1] at hdec
    obtain rfl : turn = 0 := by
      have := (List.getElem?_eq_some_iff.mp hdec).1
      simpa using this
    obtain rfl := hst.unique .start
    obtain rfl : acting 10_000 none = decision := by simpa using hdec
    obtain rfl : clock = clock' := Except.ok.inj (hclock.symm.trans hclock')
    obtain rfl : drawdown = drawdown' := Except.ok.inj (hdrawdown.symm.trans hdrawdown')
    refine ⟨fun a _ m ha hm => ?_, fun a _ _ m ha hm => .inr ?_, fun a _ _ m _ ha hm _ _ _ hlow => ?_⟩
    · obtain ⟨rfl, rfl⟩ := Prod.mk.inj (Except.ok.inj (hfund.symm.trans ha))
      obtain rfl := Option.some.inj (hdecided.symm.trans hm)
      exact hfunded
    · obtain ⟨rfl, -⟩ := Prod.mk.inj (Except.ok.inj (hopen.symm.trans ha))
      obtain rfl := Option.some.inj (hmark.symm.trans hm)
      exact hworst
    · obtain ⟨rfl, -⟩ := Prod.mk.inj (Except.ok.inj (hopen.symm.trans ha))
      obtain rfl := Option.some.inj (hmark.symm.trans hm)
      exact absurd hlow hhigh
  have henv : profileEnv surge.loaded (config 90_000_000) PRIMARY =
      .ok (surge.loadedEnv (config 90_000_000) 10_000) := rfl
  exact ⟨start, state, hreach, (solvent_while_trading surge_accepted.loads surge_accepted.valid henv
    hstart hcovered hreach hrunning).1⟩

open Scenario in
/-- A long raised to three times the equity at the top of the surge: on the way down it loses more than
the account has before its trigger, and the run is aborted by the next observation, without a
liquidation. -/
theorem surge_insolvent :
    loadPack sha limits true surge.directory = .ok surge.loaded ∧
      Returns (validatePack scenarioExternals sha limits surge.directory) ∧ surge.market.Sound ∧
      (∃ start state, startState (surge.loadedEnv (config 90_000_000) 10_000) 0 = .ok start ∧
        TurnReach sha limits (surge.loadedEnv (config 90_000_000) 10_000) EPISODE_ID true
          (.agent (scripted [actionBody ("1", none), actionBody ("3", none)])) start 2 state ∧
        state.core.terminal = false ∧ state.core.snapshots.last.navMicro ≤ 0) ∧
      Raises (runPrimary sha limits surge.loaded
        (scripted [actionBody ("1", none), actionBody ("3", none)]) (config 90_000_000) EPISODE_ID 0)
        (.observationError "NAV must be positive while observations continue") := by
  refine ⟨surge_accepted.loads, surge_accepted.valid, by decide +kernel, ?_, by decide +kernel⟩
  have returned : Returns (do
      let env := surge.loadedEnv (config 90_000_000) 10_000
      let source := DecisionSource.agent (scripted [actionBody ("1", none), actionBody ("3", none)])
      let start ← startState env 0
      let first ← turnBody sha limits env EPISODE_ID true source 0 start
      let second ← turnBody sha limits env EPISODE_ID true source 1 first
      require ((start.stopped = false ∧ first.stopped = false) ∧ second.core.terminal = false ∧
        second.core.snapshots.last.navMicro ≤ 0) (.engineError "solvent")) := by decide +kernel
  obtain ⟨_, returned⟩ := returned
  simp only [bind_ok_iff, require_eq_ok] at returned
  obtain ⟨start, hstart, first, hfirst, second, hsecond, ⟨hgo, hgo'⟩, hrunning, hnav⟩ := returned
  exact ⟨start, second, hstart, .step (.step .start hgo hfirst) hgo' hsecond, hrunning, hnav⟩

end WagmiBench.Core
