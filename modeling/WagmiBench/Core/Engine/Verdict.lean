import WagmiBench.Core.Engine.Log
import WagmiBench.Lib.Drawdown

/-!
# The verdict and the drawdown metric

The kill switch compares the floored drawdown of each close with the limit; the metric floors the
largest drawdown of the stored series once. The two series differ in the bar at which the switch
closed a position, whose stored NAV is lower by exactly the fee. Without a liquidation the switch has
fired if and only if the metric reaches the limit.
-/

namespace WagmiBench.Core

open WagmiBench.Lib WagmiBench.Harness WagmiBench.Spec

/-! ## The two computations -/

theorem le_floor_div_iff {limit x peak : ℤ} (hpeak : 0 < peak) :
    limit ≤ ⌊((x : ℤ) : ℚ) / peak⌋ ↔ limit * peak ≤ x := by
  have hpeak' : (0 : ℚ) < peak := by exact_mod_cast hpeak
  rw [Int.le_floor, le_div_iff₀ hpeak']
  exact_mod_cast Iff.rfl

/-- The scan of the metric reaches the limit where the series breaches it. -/
theorem drawdownScan_breaches {navs : List ℤ} {peak limit : ℤ} {maximum : ℚ} (hpeak : 0 < peak) :
    ∃ r, navs.foldlM drawdownStep (peak, maximum) = .ok r ∧
      ((limit : ℚ) ≤ r.2 ↔ (limit : ℚ) ≤ maximum ∨ Breaches limit RATE_SCALE peak navs) := by
  induction navs generalizing peak maximum with
  | nil => exact ⟨_, rfl, by simp [Breaches]⟩
  | cons nav navs ih =>
    have hmax : 0 < max peak nav := lt_max_of_lt_left hpeak
    have hmax' : (0 : ℚ) < (max peak nav : ℤ) := by exact_mod_cast hmax
    obtain ⟨r, hr, hiff⟩ := @ih (max peak nav)
      (max maximum (((max peak nav - nav) * RATE_SCALE : ℤ) / (max peak nav : ℤ))) hmax
    refine ⟨r, ?_, ?_⟩
    · rw [List.foldlM_cons, drawdownStep, require_pos hmax]
      exact hr
    · rw [hiff, le_max_iff, le_div_iff₀ hmax', Breaches, or_assoc]
      refine or_congr_right (or_congr_left ?_)
      exact_mod_cast Iff.rfl

/-- The metric of a series with a positive start returns, and reaches a positive limit where the
series breaches it. -/
theorem maxDrawdown_breaches {first limit : ℤ} {navs : List ℤ} (hfirst : 0 < first)
    (hlimit : 0 < limit) :
    ∃ m, maxDrawdown1e8 (first :: navs) = .ok m ∧
      (limit ≤ m ↔ Breaches limit RATE_SCALE first (first :: navs)) := by
  obtain ⟨r, hr, hiff⟩ := @drawdownScan_breaches (first :: navs) first limit 0 hfirst
  refine ⟨⌊r.2⌋, ?_, ?_⟩
  · simp only [maxDrawdown1e8, require_pos hfirst, ok_bind, hr, pure_eq_ok, floorFraction_eq_floor]
  · rw [Int.le_floor, hiff, or_iff_right]
    exact_mod_cast not_le.mpr hlimit

/-- The NAVs of a log. -/
def SnapshotLog.navs (log : SnapshotLog) : List ℤ := log.all.map Snapshot.navMicro

/-- The peak of a log is the running peak of its NAVs. -/
theorem SnapshotLog.peakNav_eq {log : SnapshotLog} {first : ℤ} (h : first ∈ log.navs) :
    log.peakNav = runningPeak first log.navs := by
  refine eq_of_forall_ge_iff fun x => ?_
  have upper : log.peakNav ≤ x ↔ ∀ v ∈ log.navs, v ≤ x := by
    have : ∀ (navs : List ℤ) (last : ℤ), navs.foldr max last ≤ x ↔
        (∀ v ∈ navs, v ≤ x) ∧ last ≤ x := by
      intro navs last
      induction navs with
      | nil => simp
      | cons nav navs ih => simp [ih, and_assoc]
    rw [SnapshotLog.peakNav, this]
    simp [SnapshotLog.navs, SnapshotLog.all, or_imp, forall_and]
  rw [upper, runningPeak_le_iff]
  exact ⟨fun hall => ⟨hall first h, hall⟩, fun hall => hall.2⟩

/-- The drawdown of a close reaches the limit where its NAV is drawn down from the peak. -/
theorem drawdown1e8_eq_ok {log : SnapshotLog} {drawdown limit : ℤ}
    (h : drawdown1e8 log = .ok drawdown) :
    0 < log.peakNav ∧
      (limit ≤ drawdown ↔ DrawnDown limit RATE_SCALE log.peakNav log.last.navMicro) := by
  simp only [drawdown1e8, bind_ok_iff, require_eq_ok, pure_eq_ok, Except.ok.injEq,
    floorFraction_eq_floor] at h
  obtain ⟨-, hpeak, rfl⟩ := h
  exact ⟨hpeak, le_floor_div_iff hpeak⟩

/-! ## What the switch does to the NAV -/

section Phases

variable {env : ProfileEnv} {clock : TurnClock} {account after : Account} {drafts : List Draft}
  {collectEvidence : Bool}

theorem sign_mul_abs (q : ℤ) : sign q * |q| = q := by
  unfold sign
  rcases lt_trichotomy q 0 with h | rfl | h
  · simp [h, not_lt.mpr h.le, abs_of_neg h]
  · simp
  · simp [h, abs_of_pos h]

theorem feeMicro_nonneg {notional rate fee : ℤ} (h : feeMicro notional rate = .ok fee) :
    0 ≤ fee := by
  simp only [feeMicro, bind_ok_iff, require_eq_ok, pure_eq_ok, Except.ok.injEq] at h
  obtain ⟨-, ⟨hnotional, hrate⟩, rfl⟩ := h
  have hnum : (0 : ℚ) ≤ ((notional * rate : ℤ) : ℚ) / (RATE_SCALE : ℤ) :=
    div_nonneg (by exact_mod_cast mul_nonneg hnotional hrate) (by norm_num)
  have : -(((notional * rate : ℤ) : ℚ) / (RATE_SCALE : ℤ)).num ≤ 0 := by
    simpa using Rat.num_nonneg.mpr hnum
  unfold ceilFraction
  have hdiv := Int.ediv_le_ediv (by positivity : (0 : ℤ) <
    (((notional * rate : ℤ) : ℚ) / (RATE_SCALE : ℤ)).den) this
  rw [Int.zero_ediv] at hdiv
  omega

/-- The fee of closing an account's position at `px`. -/
def ClosingFee (env : ProfileEnv) (account : Account) (px fee : ℤ) : Prop :=
  ∃ rate, applyCostMultiplier env.market.spec.takerFeeRate1e8 env.multiplier = .ok rate ∧
    feeMicro (|account.positionQtyBase1e8| * px * env.market.spec.tickSizeMicro / QTY_SCALE) rate =
      .ok fee

theorem ClosingFee.nonneg {px fee : ℤ} (h : ClosingFee env account px fee) : 0 ≤ fee := by
  obtain ⟨rate, -, hfee⟩ := h
  exact feeMicro_nonneg hfee

/-- **The forced close moves the NAV by exactly minus its fee.** What it realizes at the closing mark
is the unrealized profit it was marked at, rounded the same way. -/
theorem flatten_nav {flat : Account} {filled : Draft} {i k : ℕ} {ts : ℤ} {s s' : Snapshot}
    (hq : account.positionQtyBase1e8 ≠ 0)
    (hs : snapshot account env.market clock.fillAbs i (some ts) = .ok s)
    (hflat : flatten env clock account = .ok (flat, filled))
    (hs' : snapshot flat env.market clock.fillAbs k (some ts) = .ok s') :
    ∃ mark fee, env.market.mark[clock.fillAbs]? = some mark ∧ ClosingFee env account mark.c fee ∧
      s'.navMicro = s.navMicro - fee := by
  obtain ⟨taken, -, -, -, mark, _, hmark, -, hupnl, -⟩ := snapshot_eq_ok hs
  obtain ⟨mark', fee, realized, hmark', hfee, hrealized, rfl, -⟩ := flatten_eq_ok hflat
  obtain ⟨taken', -, -, -, _, _, -, -, hupnl', -⟩ := snapshot_eq_ok hs'
  obtain rfl : mark = mark' := Option.some.inj (hmark.symm.trans hmark')
  rw [upnl, if_neg hq] at hupnl
  obtain ⟨-, hmarked⟩ := unrealizedPnlMicro_eq_ok.mp hupnl
  simp only [realizedPnlMicro, bind_ok_iff, pure_eq_ok, Except.ok.injEq] at hrealized
  obtain ⟨-, -, -, -, -, -, hclosed⟩ := hrealized
  have zero : s'.upnlMicro = 0 := by simpa [upnl, Account.flat, eq_comm] using hupnl'
  have same : realized = s.upnlMicro := by
    rw [← hclosed, hmarked, sign_mul_abs]
  refine ⟨mark, fee, hmark, hfee, ?_⟩
  rw [taken'.nav, taken'.cash, zero, taken.nav, taken.cash, same]
  ring

/-- What the switch has seen: it has fired exactly when the stored series breaches the limit. -/
structure ProfileCore.Watched (startingNav limit : ℤ) (core : ProfileCore) : Prop where
  first : core.snapshots.navs.head? = some startingNav
  armed : core.counters.killSwitchFired = true ↔ core.account.killSwitchActive = true
  breached : core.counters.killSwitchFired = true ↔
    Breaches limit RATE_SCALE startingNav core.snapshots.navs

theorem SnapshotLog.navs_push (log : SnapshotLog) (s : Snapshot) :
    (log.push s).navs = log.navs ++ [s.navMicro] := by
  simp [SnapshotLog.navs]

theorem SnapshotLog.navs_replaceLast (log : SnapshotLog) (s s' : Snapshot) :
    ((log.push s).replaceLast s').navs = log.navs ++ [s'.navMicro] := by
  simp [SnapshotLog.navs, SnapshotLog.all, SnapshotLog.replaceLast, SnapshotLog.push]

/-- The pushed close is drawn down from the peak exactly when it adds a breach. -/
theorem peakNav_push {log : SnapshotLog} {s : Snapshot} {first : ℤ}
    (h : log.navs.head? = some first) :
    (log.push s).peakNav = max (runningPeak first log.navs) s.navMicro := by
  have hmem : first ∈ (log.push s).navs := by
    rw [SnapshotLog.navs_push]
    exact List.mem_append_left _ (List.mem_of_head? h)
  rw [SnapshotLog.peakNav_eq hmem, SnapshotLog.navs_push, runningPeak_append]
  rfl

/-- Step lemma: a turn without a liquidation keeps the switch and the series in agreement. -/
theorem settleTurn_watched {startingNav : ℤ} {core core' : ProfileCore} {decision : TurnDecision}
    {drawdownUsed : ℤ} {nextSeq : ℕ} (hnav : 0 < startingNav)
    (hw : core.Watched startingNav env.config.drawdownKillSwitch1e8)
    (halive : core'.terminal = false)
    (h : settleTurn env clock collectEvidence core decision drawdownUsed nextSeq =
      .ok (core', drafts)) : core'.Watched startingNav env.config.drawdownKillSwitch1e8 := by
  have hlimit : 0 < env.config.drawdownKillSwitch1e8 := by
    have := env.config.drawdown_limit_pos
    omega
  obtain ⟨account, counters, opening, closing, hopen, hclose, -⟩ := settleTurn_eq_ok h
  obtain ⟨margin, closed, liquidated, liquidation, s, killed, kill, last, -, hliq, hs, hk, -,
    hcounters, hterminal, -⟩ := closePhase_eq_ok hclose
  obtain rfl : liquidated = false := hterminal ▸ halive
  have hactive : closed.killSwitchActive = core.account.killSwitchActive := by
    rw [liquidationPhase_killSwitch hliq, openPhase_rule (openStep_killSwitch _) hopen rfl]
  have hfired : core'.counters.killSwitchFired = (core.counters.killSwitchFired || killed) := by
    rw [hcounters, (openPhase_counters hopen).1]
  have hpeak := peakNav_push (s := s) hw.first
  have hpeak_pos : 0 < runningPeak startingNav core.snapshots.navs := hnav.trans_le le_runningPeak
  have head : ∀ nav, (core.snapshots.navs ++ [nav]).head? = some startingNav := fun nav => by
    rw [List.head?_append, hw.first]
    rfl
  obtain ⟨drawdown, hdrawdown, ⟨hidle, haccount, rfl, hsnapshots, -⟩ |
    ⟨⟨-, -, hreached⟩, -, haccount, rfl, hsnapshots, -⟩ |
    ⟨⟨-, -, hreached⟩, hq, rfl, flat, filled, s', margin', hflat, hs', -, haccount, hsnapshots, -⟩⟩ :=
    killSwitchPhase_eq_ok hk
  · -- the switch does not fire: it had, or the close stays above the limit
    have hreached : env.config.drawdownKillSwitch1e8 ≤ drawdown ↔ DrawnDown
        env.config.drawdownKillSwitch1e8 RATE_SCALE (core.snapshots.push s).peakNav s.navMicro :=
      (drawdown1e8_eq_ok hdrawdown).2
    rw [hpeak] at hreached
    refine ⟨?_, ?_, ?_⟩
    · rw [hsnapshots, SnapshotLog.navs_push]
      exact head _
    · rw [hfired, Bool.or_false, haccount, hactive]
      exact hw.armed
    · rw [hfired, Bool.or_false, hsnapshots, SnapshotLog.navs_push, breaches_append_singleton,
        hw.breached]
      refine ⟨.inl, fun hb => hb.elim id fun hdrawn => ?_⟩
      have hlow := hreached.mpr hdrawn
      rw [← hw.breached, hw.armed, ← hactive]
      by_contra hoff
      exact hidle ⟨rfl, by simpa using hoff, hlow⟩
  · have hdrawn := (drawdown1e8_eq_ok hdrawdown).2.mp hreached
    rw [hpeak] at hdrawn
    refine ⟨?_, ?_, ?_⟩
    · rw [hsnapshots, SnapshotLog.navs_push]
      exact head _
    · rw [hfired, haccount]
      simp [Account.kill]
    · rw [hfired, hsnapshots, SnapshotLog.navs_push, breaches_append_singleton]
      exact ⟨fun _ => .inr hdrawn, fun _ => by simp⟩
  · have hdrawn := (drawdown1e8_eq_ok hdrawdown).2.mp hreached
    rw [hpeak] at hdrawn
    obtain ⟨mark, fee, -, hclosing, hnav'⟩ := flatten_nav hq hs hflat hs'
    have hfee := hclosing.nonneg
    have hlower : s'.navMicro ≤ s.navMicro := by omega
    have hdrawn' := hdrawn.of_le hlower hlimit (by decide) hpeak_pos
    refine ⟨?_, ?_, ?_⟩
    · rw [hsnapshots, SnapshotLog.navs_replaceLast]
      exact head _
    · rw [hfired, haccount]
      simp [Account.kill]
    · rw [hfired, hsnapshots, SnapshotLog.navs_replaceLast, breaches_append_singleton]
      exact ⟨fun _ => .inr hdrawn', fun _ => by simp⟩

end Phases

/-! ## Runs -/

section Loop

variable {σ : Type} {sha : Sha256} {limits : Json.Limits} {env : ProfileEnv} {episodeId : Text}
  {collectEvidence : Bool} {source : DecisionSource σ} {start state : ProfileState σ}

theorem startState_watched {s : σ} (hstart : startState env s = .ok start) :
    start.core.Watched env.config.startingNavMicro env.config.drawdownKillSwitch1e8 := by
  have hlimit := env.config.drawdown_limit_pos
  have hnav := env.config.starting_nav_pos
  obtain ⟨ts, first, -, hfirst, rfl⟩ := startState_eq_ok hstart
  obtain ⟨taken, -, -, -, _, _, -, -, hupnl, -⟩ := snapshot_eq_ok hfirst
  have flat : first.upnlMicro = 0 := by simpa [upnl, Account.start, eq_comm] using hupnl
  have hfirst_nav : first.navMicro = env.config.startingNavMicro := by
    rw [taken.nav, taken.cash, flat]
    simp [Account.start]
  refine ⟨by simp [SnapshotLog.navs, SnapshotLog.all, hfirst_nav],
    by simp [Counters.zero, Account.start], ?_⟩
  simp only [Counters.zero, SnapshotLog.navs, SnapshotLog.all, List.nil_append, List.map_cons,
    List.map_nil, hfirst_nav, Breaches, max_self, sub_self, zero_mul, or_false, Bool.false_eq_true,
    false_iff, not_le]
  exact mul_pos (by omega) (by omega)

/-- Run lemma: in every state that was not liquidated the switch and the series agree. -/
theorem TurnReach.watched {s : σ} (hstart : startState env s = .ok start) {turn : ℕ}
    (h : TurnReach sha limits env episodeId collectEvidence source start turn state)
    (halive : state.core.terminal = false) :
    state.core.Watched env.config.startingNavMicro env.config.drawdownKillSwitch1e8 := by
  have hnav := env.config.starting_nav_pos
  induction h with
  | start => exact startState_watched hstart
  | step hreach hstop hbody ih =>
    obtain ⟨_, _, _, _, _, _, -, -, -, -, hsettle, -⟩ := turnBody_eq_ok hbody
    exact settleTurn_watched (by omega) (ih hstop) halive hsettle

/-- A liquidated state counts its liquidation. -/
theorem TurnReach.liquidations_pos {turn : ℕ}
    (h : TurnReach sha limits env episodeId collectEvidence source start turn state)
    (hstart : start.core.terminal = false) (hend : state.core.terminal = true) :
    0 < state.core.counters.liquidations := by
  cases h with
  | start => simp [hstart] at hend
  | step _ _ hbody =>
    obtain ⟨_, _, _, _, _, _, -, -, -, -, hsettle, -⟩ := turnBody_eq_ok hbody
    obtain ⟨_, _, _, _, -, hclose, -⟩ := settleTurn_eq_ok hsettle
    obtain ⟨_, _, _, _, _, _, _, _, -, -, -, -, -, hcounters, hterminal, -⟩ := closePhase_eq_ok hclose
    rw [hcounters, ← hterminal, hend]
    simp

end Loop

/-- A finished run without a liquidation: its metric can be computed, and reaches the limit exactly
when its switch fired. -/
theorem runProfile_watched {σ : Type} {sha : Sha256} {limits : Json.Limits} {pack : PackData}
    {config : EpisodeConfig} {profile episodeId : Text} {source : DecisionSource σ} {s : σ}
    {collectEvidence : Bool} {run : ProfileRun σ}
    (h : runProfile sha limits pack config profile episodeId source s collectEvidence = .ok run)
    (halive : run.core.terminal = false) :
    ∃ m, maxDrawdown1e8 run.core.snapshots.navs = .ok m ∧
      (run.core.counters.killSwitchFired = true ↔ config.drawdownKillSwitch1e8 ≤ m) := by
  obtain ⟨env, henv, hloop⟩ := runProfile_eq_ok h
  obtain ⟨-, rfl, -⟩ := profileEnv_eq_ok henv
  obtain ⟨start, turns, k, hstart, -, -, hreach, -, -⟩ := runLoop_eq_ok hloop
  have watched := TurnReach.watched hstart hreach halive
  have hnav := env.config.starting_nav_pos
  have hlimit := env.config.drawdown_limit_pos
  obtain ⟨rest, hrest⟩ := List.head?_eq_some_iff.mp watched.first
  obtain ⟨m, hm, hiff⟩ := @maxDrawdown_breaches env.config.startingNavMicro
    env.config.drawdownKillSwitch1e8 rest (by omega) (by omega)
  rw [← hrest] at hm hiff
  exact ⟨m, hm, watched.breached.trans hiff.symm⟩

/-- Whether a finished run was liquidated is what its counters say. -/
theorem runProfile_alive {σ : Type} {sha : Sha256} {limits : Json.Limits} {pack : PackData}
    {config : EpisodeConfig} {profile episodeId : Text} {source : DecisionSource σ} {s : σ}
    {collectEvidence : Bool} {run : ProfileRun σ}
    (h : runProfile sha limits pack config profile episodeId source s collectEvidence = .ok run)
    (hcount : run.core.counters.liquidations = 0) : run.core.terminal = false := by
  obtain ⟨env, henv, hloop⟩ := runProfile_eq_ok h
  obtain ⟨start, turns, k, hstart, -, -, hreach, -, -⟩ := runLoop_eq_ok hloop
  obtain ⟨_, _, -, -, rfl⟩ := startState_eq_ok hstart
  by_contra hend
  have := TurnReach.liquidations_pos hreach rfl (by simpa using hend)
  omega

/-- **The verdict and the drawdown metric agree.** In every finished run without a liquidation the
metric of the stored series can be computed, and the kill switch fired if and only if it reaches the
limit; so an episode reported as survived has a maximum drawdown below the limit, and one reported as
killed a maximum drawdown at or above it. -/
theorem verdict_agrees {σ : Type} {sha : Sha256} {limits : Json.Limits} {pack : PackData}
    {config : EpisodeConfig} {episodeId : Text} :
    (∀ (profile : Text) (source : DecisionSource σ) (s : σ) (collectEvidence : Bool)
      (run : ProfileRun σ),
      runProfile sha limits pack config profile episodeId source s collectEvidence = .ok run →
      run.core.terminal = false →
      ∃ m, maxDrawdown1e8 (run.core.snapshots.all.map Snapshot.navMicro) = .ok m ∧
        (run.core.counters.killSwitchFired = true ↔ config.drawdownKillSwitch1e8 ≤ m)) ∧
    ∀ (agent : Agent σ) (runId : Text) (s : σ) (result : EpisodeResult),
      runEpisode sha limits pack agent config runId episodeId s = .ok result →
      (result.metrics.invariant.survivalVerdict = .survived →
        result.metrics.primary.maxDrawdown1e8 < config.drawdownKillSwitch1e8) ∧
      (result.metrics.invariant.survivalVerdict = .killedFlat →
        config.drawdownKillSwitch1e8 ≤ result.metrics.primary.maxDrawdown1e8) := by
  refine ⟨fun profile source s collectEvidence run hrun halive => runProfile_watched hrun halive,
    fun agent runId s result hepisode => ?_⟩
  obtain ⟨-, primary, stress, hprimary, -, hfinish⟩ := runEpisode_eq_ok hepisode
  obtain ⟨_, _, _, invariant, _, pm, sm, -, -, hinvariant, hpm, -, -, hmetrics, -⟩ :=
    finishEpisode_eq_ok hfinish
  have hdrawdown : maxDrawdown1e8 primary.core.snapshots.navs = .ok pm.maxDrawdown1e8 := by
    simp only [profileMetrics, bind_ok_iff, pure_eq_ok, Except.ok.injEq] at hpm
    obtain ⟨_, -, _, -, _, -, _, -, m, hm, _, -, _, -, rfl⟩ := hpm
    exact hm
  have hverdict : invariant.survivalVerdict =
      if 0 < primary.core.counters.liquidations then .liquidated
      else if primary.core.counters.killSwitchFired then .killedFlat else .survived := by
    simp only [profileInvariant, bind_ok_iff, pure_eq_ok, Except.ok.injEq] at hinvariant
    obtain ⟨_, -, rfl⟩ := hinvariant
    simp
  rw [hmetrics, hverdict]
  by_cases hliquidated : 0 < primary.core.counters.liquidations
  · simp [hliquidated]
  · obtain ⟨m, hm, hfired⟩ := runProfile_watched hprimary (runProfile_alive hprimary (by omega))
    obtain rfl : pm.maxDrawdown1e8 = m := Except.ok.inj (hdrawdown.symm.trans hm)
    simp only [hliquidated, if_false]
    cases hkill : primary.core.counters.killSwitchFired with
    | true => simpa using hfired.mp hkill
    | false => simpa [hkill] using hfired

/-- The crash kills a long of one times the equity at a limit of thirty percent, and the steady
episode is judged by its drawdown. -/
theorem scenarios_verdict_agrees :
    (∃ run : ProfileRun Unit,
      runProfile Scenario.sha Scenario.limits Scenario.crash.pack (Scenario.config 30_000_000) PRIMARY
        [] (.replay [Scenario.acting 10_000 none, Scenario.missed, Scenario.missed]) () false =
          .ok run ∧
      ∃ m, maxDrawdown1e8 (run.core.snapshots.all.map Snapshot.navMicro) = .ok m ∧ 30_000_001 ≤ m) ∧
    ∃ result, Scenario.steadyEpisode = .ok result ∧
      (result.metrics.invariant.survivalVerdict = .survived →
        result.metrics.primary.maxDrawdown1e8 < 50_000_001) := by
  constructor
  · have returned : Returns (do
        let run ← runProfile (σ := Unit) Scenario.sha Scenario.limits Scenario.crash.pack
          (Scenario.config 30_000_000) PRIMARY []
          (.replay [Scenario.acting 10_000 none, Scenario.missed, Scenario.missed]) () false
        require (run.core.terminal = false ∧ run.core.counters.killSwitchFired = true)
          (.engineError "not killed")
        return run) := by decide +kernel
    obtain ⟨_, returned⟩ := returned
    simp only [bind_ok_iff, require_eq_ok] at returned
    obtain ⟨run, hrun, _, ⟨halive, hkilled⟩, -⟩ := returned
    obtain ⟨m, hm, hfired⟩ := verdict_agrees.1 PRIMARY _ () false run hrun halive
    exact ⟨run, hrun, m, hm, hfired.mp hkilled⟩
  · obtain ⟨result, h⟩ := Scenario.steadyEpisode_returns
    exact ⟨result, h, (verdict_agrees.2 _ _ _ result h).1⟩

end WagmiBench.Core
