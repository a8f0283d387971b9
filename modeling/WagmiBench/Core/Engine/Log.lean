import WagmiBench.Core.Engine.Conservation

/-!
# The log of a run

What the snapshots and the running totals of a profile run always satisfy: one snapshot for each turn
and one before them, a turnover that never falls, a peak no lower than the starting NAV. The measures
a turn begins with can therefore be computed at every turn.
-/

namespace WagmiBench.Core

open WagmiBench.Lib WagmiBench.Harness WagmiBench.Spec

/-! ## Turnover and peak NAV -/

theorem notional_nonneg {qty px tick : ℤ} (h : 0 < px ∧ 0 < tick) :
    0 ≤ |qty| * px * tick / QTY_SCALE :=
  Int.ediv_nonneg (mul_nonneg (mul_nonneg (abs_nonneg _) h.1.le) h.2.le) (by decide)

theorem calculateFill_notional_nonneg {side : Side} {requested volume cap step ref tick spread
    impact : ℤ} {model : ImpactModel} {taker multiplier : ℤ} {fill : FillCalculation}
    (h : calculateFill side requested volume cap step ref tick spread impact model taker
      multiplier = .ok fill) : 0 ≤ fill.notionalMicro := by
  simp only [calculateFill, bind_ok_iff, pure_eq_ok, Except.ok.injEq, notionalMicro_eq_ok] at h
  obtain ⟨_, -, _, -, _, -, _, -, _, -, _, -, _, -, _, ⟨hpos, rfl⟩, _, -, _, -, _, -, rfl⟩ := h
  exact notional_nonneg hpos

section Phases

variable {env : ProfileEnv} {clock : TurnClock} {account after : Account} {drafts : List Draft}
  {collectEvidence : Bool}

/-- Turnover never falls before the close. -/
theorem openStep_turnover (floor : ℤ) :
    OpenStep env clock collectEvidence fun a => floor ≤ a.turnoverNotionalMicro where
  funding hsettle ha := by
    obtain ⟨_, _, _, happly, -⟩ := settleFunding_eq_ok hsettle
    obtain ⟨-, -, -, rfl⟩ := appliedFunding_eq_ok happly
    exact ha
  fill _ _ _ hfill _ hfilled ha := by
    have := calculateFill_notional_nonneg hfill
    rw [(applyPositionFill_effect hfilled).turnover]
    omega
  label _ _ hrelabel ha := by
    rw [(relabel_eq hrelabel).1]
    exact ha

theorem liquidationPhase_turnover {liquidated : Bool}
    (h : liquidationPhase env clock account = .ok (after, liquidated, drafts)) :
    account.turnoverNotionalMicro ≤ after.turnoverNotionalMicro := by
  obtain ⟨-, rfl, -, -⟩ | ⟨hq, mark, liqPx, hmark, -, ⟨hcrossed, -, draft, hliq, -⟩ |
    ⟨-, -, rfl, -⟩⟩ := liquidationPhase_eq_ok h
  · exact le_rfl
  · obtain ⟨hh, hl, -⟩ := liquidationCrossed_eq_ok hcrossed
    obtain ⟨realized, penalty, notional, -, -, rfl, rfl, -⟩ := liquidate_eq_ok hliq
    have htick := env.market.spec.tick_size_pos
    have : 0 ≤ |account.positionQtyBase1e8| * adverse account mark *
        env.market.spec.tickSizeMicro / QTY_SCALE :=
      notional_nonneg ⟨adverse_pos hh hl, by omega⟩
    simp only
    omega
  · exact le_rfl

theorem killSwitchPhase_turnover {terminal killed : Bool} {snapshots snapshots' : SnapshotLog}
    {nextSeq : ℕ}
    (h : killSwitchPhase env clock collectEvidence terminal account snapshots nextSeq =
      .ok (after, killed, snapshots', drafts)) :
    account.turnoverNotionalMicro ≤ after.turnoverNotionalMicro := by
  obtain ⟨drawdown, -, ⟨-, rfl, -⟩ | ⟨-, -, rfl, -⟩ |
    ⟨-, -, -, flat, filled, s, margin, hflat, hs, -, rfl, -, -⟩⟩ := killSwitchPhase_eq_ok h
  · exact le_rfl
  · exact le_rfl
  · obtain ⟨mark, fee, realized, -, -, hrealized, rfl, -⟩ := flatten_eq_ok hflat
    simp only [realizedPnlMicro, bind_ok_iff, require_eq_ok] at hrealized
    obtain ⟨-, -, -, -, -, ⟨-, hclose, htick⟩, -⟩ := hrealized
    have : 0 ≤ |account.positionQtyBase1e8| * mark.c * env.market.spec.tickSizeMicro / QTY_SCALE :=
      notional_nonneg ⟨hclose, htick⟩
    simp only [Account.kill]
    omega

/-- Turnover never falls. -/
theorem settleTurn_turnover {core core' : ProfileCore} {decision : TurnDecision}
    {drawdownUsed : ℤ} {nextSeq : ℕ}
    (h : settleTurn env clock collectEvidence core decision drawdownUsed nextSeq =
      .ok (core', drafts)) :
    core.account.turnoverNotionalMicro ≤ core'.account.turnoverNotionalMicro := by
  obtain ⟨account, counters, opening, closing, ho, hc, -⟩ := settleTurn_eq_ok h
  obtain ⟨margin, closed, liquidated, liquidation, s, killed, kill, last, -, hl, -, hk, -⟩ :=
    closePhase_eq_ok hc
  calc core.account.turnoverNotionalMicro
      ≤ account.turnoverNotionalMicro := openPhase_rule (openStep_turnover _) ho le_rfl
    _ ≤ closed.turnoverNotionalMicro := liquidationPhase_turnover hl
    _ ≤ core'.account.turnoverNotionalMicro := killSwitchPhase_turnover hk

/-! ## Who arms the switch -/

theorem openStep_killSwitch (active : Bool) :
    OpenStep env clock collectEvidence fun a => a.killSwitchActive = active where
  funding hsettle ha := by
    obtain ⟨_, _, _, happly, -⟩ := settleFunding_eq_ok hsettle
    obtain ⟨-, -, -, rfl⟩ := appliedFunding_eq_ok happly
    exact ha
  fill _ _ _ _ _ hfilled ha := (applyPositionFill_effect hfilled).killSwitch.trans ha
  label _ _ hrelabel ha := by
    rw [(relabel_eq hrelabel).1]
    exact ha

theorem liquidationPhase_killSwitch {liquidated : Bool}
    (h : liquidationPhase env clock account = .ok (after, liquidated, drafts)) :
    after.killSwitchActive = account.killSwitchActive := by
  obtain ⟨-, rfl, -⟩ | ⟨-, mark, liqPx, -, -, ⟨-, -, draft, hliq, -⟩ | ⟨-, -, rfl, -⟩⟩ :=
    liquidationPhase_eq_ok h
  · rfl
  · obtain ⟨realized, penalty, notional, -, -, -, rfl, -⟩ := liquidate_eq_ok hliq
    rfl
  · rfl

/-- The opening phases count the decision and the gates, and nothing else. -/
theorem openPhase_counters {counters counters' : Counters} {decision : TurnDecision}
    {drawdownUsed : ℤ}
    (h : openPhase env clock collectEvidence account counters decision drawdownUsed =
      .ok (after, counters', drafts)) :
    counters'.killSwitchFired = counters.killSwitchFired ∧
      counters'.liquidations = counters.liquidations := by
  obtain ⟨funded, traded, coincident, orders, inside, -, haction, -, -⟩ := openPhase_eq_ok h
  have counted : ∀ c : Counters,
      (countDecision clock c decision).1.killSwitchFired = c.killSwitchFired ∧
        (countDecision clock c decision).1.liquidations = c.liquidations := fun c => by
    obtain ⟨_, _, action | ⟨reason, _, _, _⟩, _⟩ := decision
    · exact ⟨rfl, rfl⟩
    · cases reason <;> exact ⟨rfl, rfl⟩
  obtain ⟨-, -, rfl, -⟩ | ⟨action, -, hprocess⟩ := actionPhase_eq_ok haction
  · exact counted counters
  · obtain ⟨sizing, orders, -, -, rfl, -⟩ := processAction_eq_ok hprocess
    exact counted counters

end Phases

/-- No snapshot has a higher NAV than the peak. -/
theorem SnapshotLog.le_peakNav {log : SnapshotLog} {s : Snapshot} (h : s ∈ log.all) :
    s.navMicro ≤ log.peakNav := by
  unfold SnapshotLog.peakNav
  rcases SnapshotLog.mem_all.mp h with h | rfl
  · have hmem : s.navMicro ∈ log.earlier.map Snapshot.navMicro := List.mem_map_of_mem h
    generalize log.earlier.map Snapshot.navMicro = navs at hmem
    induction navs with
    | nil => simp at hmem
    | cons nav navs ih =>
      rcases List.mem_cons.mp hmem with rfl | hmem
      · exact le_max_left _ _
      · exact (ih hmem).trans (le_max_right _ _)
  · generalize log.earlier.map Snapshot.navMicro = navs
    induction navs with
    | nil => exact le_rfl
    | cons nav navs ih => exact ih.trans (le_max_right _ _)

section Phases

variable {env : ProfileEnv} {clock : TurnClock} {drafts : List Draft} {collectEvidence : Bool}

/-- The last snapshot after a turn is the one of the account it leaves, at the closing mark. -/
theorem settleTurn_marked {core core' : ProfileCore} {decision : TurnDecision} {drawdownUsed : ℤ}
    {nextSeq : ℕ}
    (h : settleTurn env clock collectEvidence core decision drawdownUsed nextSeq =
      .ok (core', drafts)) :
    snapshot core'.account env.market clock.fillAbs (clock.turn + 1) (some clock.holdingCloseTs) =
      .ok core'.snapshots.last := by
  obtain ⟨account, counters, opening, closing, -, hclose, -⟩ := settleTurn_eq_ok h
  obtain ⟨margin, closed, liquidated, liquidation, s, killed, kill, last, -, -, hs, hk, -⟩ :=
    closePhase_eq_ok hclose
  obtain ⟨drawdown, -, ⟨-, haccount, -, hsnapshots, -⟩ | ⟨-, -, haccount, -, hsnapshots, -⟩ |
    ⟨-, -, -, flat, filled, s', margin', -, hs', -, haccount, hsnapshots, -⟩⟩ :=
    killSwitchPhase_eq_ok hk
  · rw [haccount, hsnapshots]
    exact hs
  · rw [haccount, hsnapshots]
    exact hs
  · rw [haccount, hsnapshots]
    exact hs'

end Phases

/-- What holds at the start of every turn: one snapshot for each turn taken and one before them, the
first of them at the starting NAV, and a turnover that is no debt. -/
structure ProfileCore.Logged (startingNav : ℤ) (turn : ℕ) (core : ProfileCore) : Prop where
  count : core.snapshots.all.length = turn + 1
  first : ∃ s ∈ core.snapshots.all, s.navMicro = startingNav
  turnover : 0 ≤ core.account.turnoverNotionalMicro

section Loop

variable {σ : Type} {sha : Sha256} {limits : Json.Limits} {env : ProfileEnv} {episodeId : Text}
  {collectEvidence : Bool} {source : DecisionSource σ} {start state state' : ProfileState σ}

/-- Run lemma: every state the turn loop reaches is logged so. -/
theorem TurnReach.logged {s : σ} (hstart : startState env s = .ok start) {turn : ℕ}
    (h : TurnReach sha limits env episodeId collectEvidence source start turn state) :
    state.core.Logged env.config.startingNavMicro turn := by
  refine Reach.invariant (I := fun t st => st.core.Logged env.config.startingNavMicro t) ?_ ?_ h
  · obtain ⟨ts, first, -, hfirst, rfl⟩ := startState_eq_ok hstart
    obtain ⟨taken, -, -, -, mark, _, -, -, hupnl, -⟩ := snapshot_eq_ok hfirst
    have flat : first.upnlMicro = 0 := by simpa [upnl, Account.start, eq_comm] using hupnl
    refine ⟨rfl, ⟨first, by simp [SnapshotLog.all], ?_⟩, le_rfl⟩
    rw [taken.nav, taken.cash, flat]
    simp [Account.start]
  · intro t st st' _ hlogged _ hbody
    obtain ⟨clock, drawdown, turnover, decision, asked, drafts, -, -, -, -, hsettle, -⟩ :=
      turnBody_eq_ok hbody
    have earlier := (settleTurn_snapshot hsettle).2
    obtain ⟨first, hfirst, hnav⟩ := hlogged.first
    refine ⟨?_, ⟨first, SnapshotLog.mem_all.mpr (.inl (earlier ▸ hfirst)), hnav⟩,
      hlogged.turnover.trans (settleTurn_turnover hsettle)⟩
    rw [SnapshotLog.all, List.length_append, earlier, hlogged.count]
    rfl

/-- Run lemma: the last snapshot of a state is the one of its account, at the mark that closes when
the turn is decided. -/
theorem TurnReach.marked {s : σ} (hstart : startState env s = .ok start) {turn : ℕ}
    (h : TurnReach sha limits env episodeId collectEvidence source start turn state) :
    snapshot state.core.account env.market (env.pack.warmupBars + turn) turn
      (some (env.pack.windowStartTs + (env.pack.warmupBars + turn + 1) * env.pack.decisionBarMs)) =
      .ok state.core.snapshots.last := by
  cases h with
  | start =>
    obtain ⟨ts, first, hts, hfirst, rfl⟩ := startState_eq_ok hstart
    obtain ⟨-, rfl, -⟩ := clockRealTs_eq_ok.mp hts
    exact hfirst
  | @step t _ _ _ _ hbody =>
    obtain ⟨clock, _, _, _, _, _, hclock, -, -, -, hsettle, -⟩ := turnBody_eq_ok hbody
    obtain ⟨hts, hturn, habs, hclose⟩ := turnClock_eq_ok hclock
    obtain ⟨-, hdecision, -⟩ := clockRealTs_eq_ok.mp hts
    have marked := settleTurn_marked hsettle
    rw [hclose, hdecision, TurnClock.fillAbs, habs, hturn] at marked
    have later : env.pack.windowStartTs +
        (env.pack.warmupBars + (t + 1 : ℕ) + 1) * env.pack.decisionBarMs =
        env.pack.windowStartTs + (env.pack.warmupBars + t + 1) * env.pack.decisionBarMs +
          env.pack.decisionBarMs := by
      push_cast
      ring
    rw [later]
    exact marked

/-- Run lemma: the last turn of a state is the one before the turn it enters. -/
theorem TurnReach.lastTurn {s : σ} (hstart : startState env s = .ok start) {turn : ℕ}
    (h : TurnReach sha limits env episodeId collectEvidence source start turn state) :
    state.core.lastTurn = turn - 1 := by
  cases h with
  | start =>
    obtain ⟨_, _, -, -, rfl⟩ := startState_eq_ok hstart
    rfl
  | step _ _ hbody =>
    obtain ⟨clock, _, _, _, _, _, hclock, -, -, -, hsettle, -⟩ := turnBody_eq_ok hbody
    obtain ⟨_, _, _, _, -, hclose, -⟩ := settleTurn_eq_ok hsettle
    obtain ⟨_, _, _, _, _, _, _, _, -, -, -, -, -, -, -, hlast, -⟩ := closePhase_eq_ok hclose
    rw [hlast, (turnClock_eq_ok hclock).2.1]
    push_cast
    ring

/-- A finished run took at least one turn. -/
theorem runLoop_last_eq_ok {s : σ} {run : ProfileRun σ}
    (h : runLoop sha limits env episodeId collectEvidence source s = .ok run) :
    ∃ start turns last, startState env s = .ok start ∧ env.pack.barsTotal = .ok turns ∧
      last < turns ∧
      TurnReach sha limits env episodeId collectEvidence source start (last + 1)
        run.toProfileState ∧
      (last + 1 = turns ∨ run.core.terminal = true) ∧ run.core.lastTurn = last ∧
      run.totals = finalTotals run.core := by
  obtain ⟨start, turns, k, hstart, hturns, hk, hreach, hend, htotals⟩ := runLoop_eq_ok h
  have hpos := (barsTotal_eq_ok.mp hturns).1
  have hk_pos : k ≠ 0 := by
    rintro rfl
    obtain ⟨_, _, -, -, rfl⟩ := startState_eq_ok hstart
    have alive := hreach.unique .start
    rcases hend with hend | hend
    · omega
    · simp [alive] at hend
  obtain ⟨last, rfl⟩ := Nat.exists_eq_succ_of_ne_zero hk_pos
  refine ⟨start, turns, last, hstart, hturns, by omega, hreach, hend, ?_, htotals⟩
  rw [TurnReach.lastTurn hstart hreach]
  push_cast
  ring

/-- The drawdown and the turnover of a logged state can be computed. -/
theorem ProfileCore.Logged.measures {config : EpisodeConfig} {turn : ℕ} {core : ProfileCore}
    (h : core.Logged config.startingNavMicro turn) :
    Returns (drawdown1e8 core.snapshots) ∧
      Returns (turnover1e8 core.account.turnoverNotionalMicro config.startingNavMicro) := by
  have hnav := config.starting_nav_pos
  obtain ⟨first, hfirst, heq⟩ := h.first
  have hpeak : 0 < core.snapshots.peakNav :=
    lt_of_lt_of_le (by omega) (SnapshotLog.le_peakNav hfirst)
  exact ⟨(returns_require hpeak).bind fun _ _ => returns_ok _,
    ⟨_, turnover1e8_eq_ok.mpr ⟨⟨h.turnover, by omega⟩, rfl⟩⟩⟩

end Loop

end WagmiBench.Core
