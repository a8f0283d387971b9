import WagmiBench.Core.Engine.Attribution
import WagmiBench.Core.Engine.Solvency
import WagmiBench.Core.Rounding
import WagmiBench.Data.ScenarioDirectory

/-!
# What an observation shows

An observation derives the account and its position anew, from the last mark available at the
decision. That mark is the closing mark of the last snapshot, and a position that was not liquidated
closed on the safe side of its trigger, so the distance an observation computes without a sign is the
one the snapshot computed with it. What is shown at turn `t` is row `t` of the ledger.
-/

namespace WagmiBench.Core

open WagmiBench.Lib WagmiBench.Harness WagmiBench.Spec WagmiBench.Data

/-- The observation shows what the ledger row records; its cash is the row's without the margin. -/
structure SameStory (obs : Observation) (row : LedgerRow) : Prop where
  turn : obs.episode.turn = row.barIndex
  nav : obs.navMicro = row.navMicro
  realized : obs.realizedPnlMicro = row.realizedPnlMicro
  cash : obs.cashMicro = row.cashMicro - row.marginMicro
  position : obs.position = [(row.aliasName, ⟨row.qtyBase1e8, row.entryPxTicks, row.upnlMicro,
    row.marginMicro, row.liqPxTicks, row.distToLiq1e8⟩)]

/-! ## The safe side of the trigger -/

/-- The distance of a held position is that of its mark to its trigger, on either side. -/
def Snapshot.Safe (s : Snapshot) : Prop :=
  ∀ liq, s.liquidationPxTicks = some liq →
    s.distanceToLiquidation1e8 = some (|s.markCloseTicks - liq| * RATE_SCALE / s.markCloseTicks)

section Phases

variable {env : ProfileEnv} {clock : TurnClock} {collectEvidence : Bool} {account : Account}
  {drafts : List Draft}

theorem positionRisk_flat {spec : MarketSpec} {mark : BarRow} {risk : PositionRisk}
    (hflat : account.positionQtyBase1e8 = 0) (h : positionRisk account spec mark = .ok risk) :
    risk = ⟨none, 0, 0, none, none, none⟩ := by
  simp only [positionRisk, if_pos hflat, pure_eq_ok, Except.ok.injEq] at h
  exact h.symm

theorem snapshot_safe_of_flat {market : MarketData} {i k : ℕ} {ts : ℤ} {s : Snapshot}
    (hflat : account.positionQtyBase1e8 = 0)
    (h : snapshot account market i k (some ts) = .ok s) : s.Safe := by
  obtain ⟨-, -, -, -, mark, risk, -, -, -, hrisk, -, -, -, hliq, -, -⟩ := snapshot_eq_ok h
  obtain rfl := positionRisk_flat hflat hrisk
  intro liq hsome
  simp [hliq] at hsome

theorem floorFraction_ratio (a b : ℤ) (hb : 0 < b) :
    floorFraction ((a : ℚ) / b) = a / b := by
  rw [floorFraction_eq_floor]
  lift b to ℕ using hb.le
  exact Rat.floor_intCast_div_natCast a b

/-- The distance computed with a sign, for a mark on the safe side. -/
theorem distance_eq_abs {px liq qty distance : ℤ} (hne : qty ≠ 0) (hliq : 0 ≤ liq)
    (hlong : 0 < qty → liq < px) (hshort : qty < 0 → px < liq)
    (h : distanceToLiquidation1e8 px liq (sign qty) = .ok distance) :
    distance = |px - liq| * RATE_SCALE / px := by
  simp only [distanceToLiquidation1e8, bind_ok_iff, require_eq_ok] at h
  obtain ⟨-, hpx, -, -, h⟩ := h
  rcases lt_or_gt_of_ne hne with hneg | hpos
  · have hside := hshort hneg
    rw [sign_eq_neg_one.mpr hneg, if_neg (by decide)] at h
    simp only [bind_ok_iff, require_eq_ok, pure_eq_ok, Except.ok.injEq,
      floorFraction_ratio _ _ hpx] at h
    obtain ⟨-, -, rfl⟩ := h
    rw [abs_of_neg (by omega), neg_sub]
  · have hside := hlong hpos
    have hsign : sign qty = 1 := by simp [sign, hpos]
    rw [hsign, if_pos (by decide)] at h
    split at h
    · rename_i hzero
      obtain rfl : liq = 0 := by omega
      rw [← Except.ok.inj h, sub_zero, abs_of_pos hpx, Int.mul_ediv_cancel_left _ hpx.ne']
    · simp only [pure_eq_ok, Except.ok.injEq, floorFraction_ratio _ _ hpx] at h
      rw [← h, abs_of_pos (by omega)]

/-- A trigger price is no debt. -/
theorem liquidationPriceTicks_nonneg {entry side lev rate px : ℤ}
    (h : liquidationPriceTicks entry side lev rate = .ok px) : 0 ≤ px := by
  obtain ⟨hentry, -, hlev, hrate, hone⟩ := liquidationPriceTicks_eq_ok h
  simp only [liquidationPriceTicks, bind_ok_iff, require_eq_ok] at h
  obtain ⟨-, -, -, -, -, -, -, -, h⟩ := h
  have left : (0 : ℚ) ≤ ((RATE_SCALE - rate : ℤ) : ℚ) / (RATE_SCALE : ℚ) :=
    div_nonneg (by exact_mod_cast (by omega : 0 ≤ RATE_SCALE - rate)) (by norm_num)
  have right : (0 : ℚ) ≤ ((RATE_SCALE + rate : ℤ) : ℚ) / (RATE_SCALE : ℚ) :=
    div_nonneg (by exact_mod_cast (by omega : 0 ≤ RATE_SCALE + rate)) (by norm_num)
  split at h
  · split at h
    · exact (Except.ok.inj h).le
    · rename_i hpos
      rw [← Except.ok.inj h]
      exact ceilFraction_nonneg (div_nonneg (not_le.mp hpos).le left)
  · rw [← Except.ok.inj h, floorFraction_eq_floor]
    have hentry' : (0 : ℚ) ≤ entry := by exact_mod_cast hentry.le
    have hlev' : (0 : ℚ) ≤ lev := by exact_mod_cast hlev.le
    have hsum : (0 : ℚ) ≤ (lev + LEVERAGE_SCALE : ℤ) := by
      exact_mod_cast add_nonneg hlev.le (by decide : (0 : ℤ) ≤ LEVERAGE_SCALE)
    exact Int.floor_nonneg.mpr (div_nonneg (mul_nonneg hentry' (div_nonneg hsum hlev')) right)

/-- A position that its bar did not cross closes on the safe side. -/
theorem snapshot_safe_of_uncrossed {mark : BarRow} {k : ℕ} {ts liqPx : ℤ} {s : Snapshot}
    (hohlc : mark.l ≤ mark.c ∧ mark.c ≤ mark.h) (hq : account.positionQtyBase1e8 ≠ 0)
    (hmark : env.market.mark[clock.fillAbs]? = some mark)
    (htrigger : triggerPrice env account mark = .ok liqPx)
    (hcrossed : liquidationCrossed account.positionQtyBase1e8 liqPx mark.h mark.l = .ok false)
    (h : snapshot account env.market clock.fillAbs k (some ts) = .ok s) : s.Safe := by
  obtain ⟨-, -, -, -, mark', risk, hmark', hclose, -, hrisk, -, -, -, hliq, hdistance, -⟩ :=
    snapshot_eq_ok h
  obtain rfl : mark = mark' := Option.some.inj (hmark.symm.trans hmark')
  simp only [triggerPrice, bind_ok_iff] at htrigger
  obtain ⟨notional, hnotional, htrigger⟩ := htrigger
  simp only [positionRisk, if_neg hq, hnotional, ok_bind, htrigger, bind_ok_iff] at hrisk
  obtain ⟨distance, hd, _, -, _, -, _, -, hrisk⟩ := hrisk
  obtain rfl := Except.ok.inj hrisk
  intro liq hsome
  obtain rfl : liqPx = liq := by simpa [hliq] using hsome
  obtain ⟨-, hlow, -, hiff⟩ := liquidationCrossed_eq_ok hcrossed
  have uncrossed : ¬ ((0 < account.positionQtyBase1e8 ∧ 0 < liqPx ∧ mark.l ≤ liqPx) ∨
      (account.positionQtyBase1e8 < 0 ∧ liqPx ≤ mark.h)) := fun h =>
    absurd (hiff.mpr h) (by decide)
  have hnonneg := liquidationPriceTicks_nonneg htrigger
  rw [hdistance, hclose]
  exact congrArg some (distance_eq_abs hq hnonneg (fun hlong => by omega) (fun hshort => by omega) hd)

/-- Step lemma: the last snapshot after a turn is safe. -/
theorem settleTurn_safe {core core' : ProfileCore} {decision : TurnDecision} {drawdownUsed : ℤ}
    {nextSeq : ℕ} (hohlc : ∀ mark ∈ env.market.mark, mark.l ≤ mark.c ∧ mark.c ≤ mark.h)
    (h : settleTurn env clock collectEvidence core decision drawdownUsed nextSeq =
      .ok (core', drafts)) : core'.snapshots.last.Safe := by
  obtain ⟨account, counters, opening, closing, -, hclose, -⟩ := settleTurn_eq_ok h
  obtain ⟨margin, closed, liquidated, liquidation, s, killed, kill, last, -, hliq, hs, hk, -⟩ :=
    closePhase_eq_ok hclose
  have safe : s.Safe := by
    obtain ⟨hflat, rfl, -⟩ | ⟨hq, mark, liqPx, hmark, htrigger, ⟨-, -, draft, hdraft, -⟩ |
      ⟨hcrossed, -, rfl, -⟩⟩ := liquidationPhase_eq_ok hliq
    · exact snapshot_safe_of_flat hflat hs
    · obtain ⟨_, _, _, -, -, -, rfl, -⟩ := liquidate_eq_ok hdraft
      exact snapshot_safe_of_flat rfl hs
    · exact snapshot_safe_of_uncrossed (hohlc mark (List.mem_of_getElem? hmark)) hq hmark htrigger
        hcrossed hs
  obtain ⟨drawdown, -, ⟨-, -, -, hsnapshots, -⟩ | ⟨-, -, -, -, hsnapshots, -⟩ |
    ⟨-, -, -, flat, filled, s', margin', hflat, hs', -, -, hsnapshots, -⟩⟩ :=
    killSwitchPhase_eq_ok hk
  · rw [hsnapshots]
    exact safe
  · rw [hsnapshots]
    exact safe
  · obtain ⟨_, _, _, -, -, -, rfl, -⟩ := flatten_eq_ok hflat
    rw [hsnapshots]
    exact snapshot_safe_of_flat rfl hs'

end Phases

/-! ## The document of a turn -/

section Document

variable {env : ProfileEnv} {episodeId : Text} {clock : TurnClock} {core : ProfileCore}
  {drawdownUsed turnoverUsed : ℤ} {obs : Observation}

theorem PositionState.make_liq {qty : ℤ} {entry : Option ℤ} {margin : ℤ} {liq : Option ℤ}
    {position : PositionState} (h : PositionState.make qty entry margin liq = .ok position) :
    position.liqPxTicks = liq := by
  unfold PositionState.make at h
  obtain ⟨⟨hm⟩, -, h⟩ := bind_ok_iff.mp h
  dsimp only at h
  split at h
  · obtain ⟨_, -, h⟩ := bind_ok_iff.mp h
    obtain ⟨_, -, h⟩ := bind_ok_iff.mp h
    obtain rfl := Except.ok.inj h
    rfl
  · obtain ⟨_, -, h⟩ := bind_ok_iff.mp h
    obtain rfl := Except.ok.inj h
    rfl

/-- What a turn observes: its position on the mark of the decision, and the NAV that adds up. -/
theorem observeTurn_eq_ok (haliases : env.pack.marketAliases = [env.aliasName])
    (h : observeTurn env episodeId clock core drawdownUsed turnoverUsed = .ok obs) :
    ∃ position realTs virtual effective build,
      positionForObservation core.account core.snapshots.last = .ok position ∧
      env.pack.clockRealTs clock.turn = .ok realTs ∧
      VirtualClock.forWindow env.pack.windowStartTs realTs = .ok virtual ∧
      Observe.marketBuild env.pack [(env.aliasName, position)] effective virtual env.aliasName =
        .ok build ∧
      obs.episode.turn = clock.turn ∧
      obs.cashMicro = core.account.cashMicro - core.snapshots.last.marginMicro ∧
      obs.navMicro = core.account.cashMicro - core.snapshots.last.marginMicro +
        build.2.marginAndUpnl ∧
      obs.realizedPnlMicro = core.account.realizedPnl ∧
      obs.position = [(build.1, build.2.position)] := by
  simp only [observeTurn, buildObservation, bind_ok_iff, require_eq_ok, haliases, mapM_eq_ok,
    pure_eq_ok, Except.ok.injEq] at h
  obtain ⟨position, hposition, _, -, _, ⟨-, -, _, -, -, -, -, -, effective, -, -, -, realTs, hts, virtual,
    hvirtual, builds, hbuilds, _, -, -, -, rfl⟩, rfl⟩ := h
  obtain ⟨build, rest, hbuild, hrest, rfl⟩ := List.forall₂_cons_left_iff.mp hbuilds
  obtain rfl := List.forall₂_nil_left_iff.mp hrest
  exact ⟨position, realTs, virtual, effective, build, hposition, hts, hvirtual, hbuild, rfl, rfl,
    by simp, rfl, rfl⟩

/-- The position a market is shown with, on the closing mark of the decision. -/
theorem marketBuild_position {pack : PackData} {position : PositionState}
    {effective : EffectiveLookback} {virtual : VirtualClock} {name : Text} {market : MarketData}
    {turn : ℕ} {build : Text × Observe.MarketBuild} {mark : BarRow}
    (hmarket : pack.market name = .ok market) (hgrid : OnGrid pack market)
    (hclock : pack.clockRealTs turn = .ok virtual.realTs)
    (hmark : market.mark[pack.warmupBars + turn]? = some mark)
    (h : Observe.marketBuild pack [(name, position)] effective virtual name = .ok build) :
    build.1 = name ∧ Observe.positionDocument position mark.c market.spec.tickSizeMicro =
      .ok (build.2.position, Observe.upnlMicro position mark.c market.spec.tickSizeMicro) := by
  rw [Observe.marketBuild, hmarket, ok_bind] at h
  obtain ⟨doc, hdoc, h⟩ := bind_ok_iff.mp h
  obtain ⟨⟨view, u⟩, hview, h⟩ := bind_ok_iff.mp h
  obtain rfl := Except.ok.inj h
  simp only [Observe.marketDocument, bind_ok_iff, require_eq_ok, pure_eq_ok, Except.ok.injEq] at hdoc
  obtain ⟨markRow, hrow, indexRow, -, _, -, _, -, bars, -, _, -, prints, -, rfl⟩ := hdoc
  obtain ⟨-, havailable, -⟩ := hgrid.available hclock
  have hlast : (market.availableMark virtual.realTs).getLast? = some mark := by
    rw [havailable, List.getLast?_take, Nat.add_sub_cancel, hmark]
    simp
  rw [Observe.lastAvailableBar, hlast] at hrow
  obtain rfl := Except.ok.inj hrow
  have here : (([(name, position)].find? fun p => p.1 = name).map Prod.snd).getD .none =
      position := by simp
  rw [here] at hview
  have hu : u = Observe.upnlMicro position mark.c market.spec.tickSizeMicro := by
    simp only [Observe.positionDocument, bind_ok_iff, pure_eq_ok, Except.ok.injEq,
      Prod.mk.injEq] at hview
    obtain ⟨_, -, -, rfl⟩ := hview
    rfl
  exact ⟨rfl, hu ▸ hview⟩

/-- The position document of a safe snapshot holds what the snapshot holds. -/
theorem positionDocument_of_snapshot {account : Account} {market : MarketData} {i k : ℕ} {ts u : ℤ}
    {s : Snapshot} {mark : BarRow} {position : PositionState} {view : PositionView}
    (hs : snapshot account market i k (some ts) = .ok s) (hsafe : s.Safe)
    (hmark : market.mark[i]? = some mark) (hposition : positionForObservation account s = .ok position)
    (h : Observe.positionDocument position mark.c market.spec.tickSizeMicro = .ok (view, u)) :
    view = ⟨s.positionQtyBase1e8, s.entryPxTicks, s.upnlMicro, s.marginMicro, s.liquidationPxTicks,
      s.distanceToLiquidation1e8⟩ := by
  obtain ⟨taken, -, -, -, mark', risk, hmark', hclose, hupnl, hrisk, hentry, hmargin, -, hliq,
    hdistance, -⟩ := snapshot_eq_ok hs
  obtain rfl : mark = mark' := Option.some.inj (hmark.symm.trans hmark')
  simp only [Observe.positionDocument, bind_ok_iff, pure_eq_ok, Except.ok.injEq, Prod.mk.injEq] at h
  obtain ⟨distance, hd, rfl, -⟩ := h
  unfold positionForObservation at hposition
  unfold upnl at hupnl
  split at hposition
  · rename_i hq
    obtain rfl := Except.ok.inj hposition
    obtain rfl := positionRisk_flat hq hrisk
    rw [if_pos hq] at hupnl
    simp only [Observe.distanceToLiquidation1e8, PositionState.none, if_true, pure_eq_ok,
      Except.ok.injEq] at hd
    rw [hentry, hmargin, hliq, hdistance, taken.position, hq, ← Except.ok.inj hupnl, ← hd]
    rfl
  · rename_i hq
    obtain ⟨hqty, hentry', hmargin'⟩ := PositionState.make_eq_ok hposition
    have hliq' := PositionState.make_liq hposition
    rw [if_neg hq] at hupnl
    obtain ⟨-, hu⟩ := unrealizedPnlMicro_eq_ok.mp hupnl
    simp only [positionRisk, if_neg hq, bind_ok_iff, pure_eq_ok, Except.ok.injEq] at hrisk
    obtain ⟨_, -, liq, -, dist, -, _, -, margin, -, _, -, rfl⟩ := hrisk
    have hsome : s.liquidationPxTicks = some liq := hliq
    simp only [Observe.distanceToLiquidation1e8, hqty, if_neg hq, bind_ok_iff, require_eq_ok,
      pure_eq_ok, Except.ok.injEq] at hd
    obtain ⟨-, -, rfl⟩ := hd
    rw [hsafe liq hsome, hclose, hqty, hentry', hmargin', hliq', hsome, taken.position, hentry, hu,
      Observe.upnlMicro, hqty, if_neg hq, hentry', Option.getD_some, Option.getD_some,
      mul_comm account.positionQtyBase1e8]

end Document

/-! ## Runs -/

section Loop

variable {σ : Type} {sha : Sha256} {limits : Json.Limits} {env : ProfileEnv} {episodeId : Text}
  {collectEvidence : Bool} {source : DecisionSource σ} {start state : ProfileState σ}

/-- Run lemma: the last snapshot of every state is safe. -/
theorem TurnReach.safe {s : σ} (hohlc : ∀ mark ∈ env.market.mark, mark.l ≤ mark.c ∧ mark.c ≤ mark.h)
    (hstart : startState env s = .ok start) {turn : ℕ}
    (h : TurnReach sha limits env episodeId collectEvidence source start turn state) :
    state.core.snapshots.last.Safe := by
  cases h with
  | start =>
    obtain ⟨ts, first, -, hfirst, rfl⟩ := startState_eq_ok hstart
    exact snapshot_safe_of_flat rfl hfirst
  | step _ _ hbody =>
    obtain ⟨_, _, _, _, _, _, -, -, -, -, hsettle, -⟩ := turnBody_eq_ok hbody
    exact settleTurn_safe hohlc hsettle

/-- What a turn observes is the row of the last snapshot. -/
theorem TurnReach.observed {s : σ} (hgrid : OnGrid env.pack env.market)
    (haliases : env.pack.marketAliases = [env.aliasName])
    (hmarket : env.pack.market env.aliasName = .ok env.market)
    (hstart : startState env s = .ok start) {turn : ℕ}
    (h : TurnReach sha limits env episodeId collectEvidence source start turn state)
    {clock : TurnClock} {drawdownUsed turnoverUsed : ℤ} {obs : Observation}
    (hclock : turnClock env turn = .ok clock)
    (hobs : observeTurn env episodeId clock state.core drawdownUsed turnoverUsed = .ok obs)
    (profile : Text) (previous : Option Snapshot) :
    SameStory obs (ledgerRowOf profile env.aliasName previous state.core.snapshots.last) := by
  have hohlc : ∀ mark ∈ env.market.mark, mark.l ≤ mark.c ∧ mark.c ≤ mark.h := fun mark hmark => by
    obtain ⟨-, hlow, -, -, hhigh⟩ := hgrid.ohlc env.market.mark (by simp) mark hmark
    exact ⟨hlow, hhigh⟩
  have marked := TurnReach.marked hstart h
  obtain ⟨taken, hindex, -, -, mark, _, hmark, -⟩ := snapshot_eq_ok marked
  obtain ⟨position, realTs, virtual, effective, build, hposition, hts, hvirtual, hbuild, hturn, hcash,
    hnav, hrealized, hview⟩ := observeTurn_eq_ok haliases hobs
  rw [(turnClock_eq_ok hclock).2.1] at hts hturn
  have hreal : virtual.realTs = realTs := by
    simp only [VirtualClock.forWindow, bind_ok_iff] at hvirtual
    obtain ⟨offset, -, hvirtual⟩ := hvirtual
    split at hvirtual
    · obtain rfl := Except.ok.inj hvirtual
      rfl
    · simp at hvirtual
  obtain ⟨hname, hdocument⟩ := marketBuild_position hmarket hgrid (hreal ▸ hts) hmark hbuild
  have hshown := positionDocument_of_snapshot marked (TurnReach.safe hohlc hstart h) hmark hposition
    hdocument
  refine ⟨hturn.trans hindex.symm, ?_, ?_, ?_, ?_⟩
  · refine h.observedNav hgrid haliases hmarket hstart ⟨position, realTs, virtual, effective, [build],
      hposition, hts, hvirtual, ?_, by simpa using hnav⟩
    rw [haliases, mapM_eq_ok]
    exact .cons hbuild .nil
  · rw [hrealized, Account.realizedPnl]
    simp only [ledgerRowOf, taken.realized, taken.fees, taken.funding, taken.penalty]
  · rw [hcash, ← taken.cash]
    rfl
  · rw [hview, hname, hshown]
    rfl

/-- Run lemma: the observations of a run are those of its turns, each beside the snapshot its turn
begins with. -/
theorem TurnReach.observations {agent : Agent σ} (hstart : start.observations = [])
    (hfirst : start.core.snapshots.all = [start.core.snapshots.last]) {turn : ℕ}
    (h : TurnReach sha limits env episodeId true (.agent agent) start turn state) :
    state.core.snapshots.all.length = turn + 1 ∧ state.observations.length = turn ∧
      ∀ t obs, state.observations[t]? = some obs → ∃ earlier clock drawdownUsed turnoverUsed,
        TurnReach sha limits env episodeId true (.agent agent) start t earlier ∧
        turnClock env t = .ok clock ∧
        observeTurn env episodeId clock earlier.core drawdownUsed turnoverUsed = .ok obs ∧
        state.core.snapshots.all[t]? = some earlier.core.snapshots.last := by
  induction h with
  | start => simp [hstart, hfirst]
  | @step t st st' hreach hgo hbody ih =>
    obtain ⟨hcount, hlength, hshown⟩ := ih
    obtain ⟨clock, drawdown, turnover, decision, asked, drafts, hclock, -, -, hdec, hsettle, hstate⟩ :=
      turnBody_eq_ok hbody
    obtain ⟨obs, s, hobs, -, ⟨-, hrecord⟩ | ⟨hno, -⟩⟩ := decideTurn_agent_eq_ok hdec
    · obtain ⟨_, _, _, -, -, -, rfl⟩ := recordDecision_eq_ok hrecord
      have hall : st'.core.snapshots.all = st.core.snapshots.all ++ [st'.core.snapshots.last] := by
        rw [SnapshotLog.all, (settleTurn_snapshot hsettle).2]
      have hobservations : st'.observations = st.observations ++ [obs] := by rw [hstate]
      refine ⟨by rw [hall]; simp [hcount], by rw [hobservations]; simp [hlength], fun k o ho => ?_⟩
      rw [hobservations] at ho
      rw [hall]
      rcases Nat.lt_or_ge k t with hlt | hge
      · rw [List.getElem?_append_left (by omega)] at ho ⊢
        exact hshown k o ho
      · obtain rfl : k = t := by
          have := (List.getElem?_eq_some_iff.mp ho).1
          simp only [List.length_append, List.length_singleton] at this
          omega
        obtain rfl : obs = o := by simpa [← hlength] using ho
        refine ⟨st, clock, drawdown, turnover, hreach, hclock, hobs, ?_⟩
        rw [List.getElem?_append_left (by omega)]
        have : st.core.snapshots.earlier.length = k := by
          simpa [SnapshotLog.all] using hcount
        simp [SnapshotLog.all, ← this]
    · simp at hno

end Loop

/-- **One story.** On an accepted pack, every observation an episode showed its agent is the row of the
primary ledger with its turn's bar index: the same NAV, realized profit and position, and the row's
cash without its margin. -/
theorem observations_tell_ledger {σ : Type} {ext : Externals} {sha : Sha256} {limits : Json.Limits}
    {verifyIntegrity : Bool} {directory : Directory} {pack : PackData} {agent : Agent σ}
    {config : EpisodeConfig} {runId episodeId : Text} {s : σ} {result : EpisodeResult}
    (hload : loadPack sha limits verifyIntegrity directory = .ok pack)
    (hvalid : Returns (validatePack ext sha limits directory))
    (h : runEpisode sha limits pack agent config runId episodeId s = .ok result) :
    ∀ t obs, result.observations[t]? = some obs → obs.episode.turn = t ∧
      (∃ row ∈ result.ledgerPrimary, row.barIndex = t) ∧
      ∀ row ∈ result.ledgerPrimary, row.barIndex = t → SameStory obs row := by
  intro t obs hobs
  obtain ⟨-, primary, stress, hprimary, -, hfinish⟩ := runEpisode_eq_ok h
  obtain ⟨_, _, _, _, _, _, _, -, -, -, -, -, -, -, hrows, -, -, hobservations, -⟩ :=
    finishEpisode_eq_ok hfinish
  obtain ⟨env, henv, hloop⟩ := runProfile_eq_ok hprimary
  obtain ⟨start, turns, k, hstart, -, -, hreach, -, -⟩ := runLoop_eq_ok hloop
  obtain ⟨rfl, rfl, haliases, hmarket, -⟩ := profileEnv_eq_ok henv
  have hgrid : OnGrid env.pack env.market :=
    loadPack_onGrid hload hvalid _ (PackData.market_mem hmarket)
  rw [haliases, List.headD_cons] at hrows
  obtain ⟨_, _, -, -, hfresh⟩ := startState_eq_ok hstart
  rw [hobservations] at hobs
  obtain ⟨-, -, hshown⟩ := hreach.observations (by rw [hfresh]) (by rw [hfresh]; rfl)
  obtain ⟨earlier, clock, _, _, hearlier, hclock, hview, hat⟩ := hshown t obs hobs
  have same := hearlier.observed hgrid haliases hmarket hstart hclock hview
  have numbered := (hreach.attributed hstart).numbered
  have hindex := numbered t _ hat
  have story : ∀ row ∈ result.ledgerPrimary, row.barIndex = t → SameStory obs row := by
    intro row hrow hbar
    obtain ⟨k, hk⟩ := List.mem_iff_getElem?.mp hrow
    obtain ⟨previous, s, -, hs, rfl⟩ := ledgerRows_getElem hrows hk
    obtain rfl : k = t := (numbered k s hs).symm.trans hbar
    obtain rfl : s = earlier.core.snapshots.last := Option.some.inj (hs.symm.trans hat)
    exact same PRIMARY previous
  refine ⟨?_, ?_, story⟩
  · rw [(same PRIMARY none).turn]
    exact hindex
  · have hlength : t < result.ledgerPrimary.length := by
      rw [ledgerRows_eq_ok hrows]
      have := (List.getElem?_eq_some_iff.mp hat).1
      simp only [List.length_zipWith, List.length_cons, List.length_map]
      omega
    refine ⟨result.ledgerPrimary[t], List.getElem_mem hlength, ?_⟩
    obtain ⟨previous, s, -, hs, hrow⟩ := ledgerRows_getElem hrows (List.getElem?_eq_getElem hlength)
    rw [hrow]
    exact numbered t s hs

open Scenario in
/-- A long of one times the equity, held up to the top of the surge and down again. -/
theorem surge_observations_tell_ledger : ∃ result,
    runEpisode sha limits surge.loaded (scripted [actionBody ("1", none)]) (config 90_000_000)
        (txt "run") EPISODE_ID 0 = .ok result ∧ result.observations ≠ [] ∧
      ∀ t obs, result.observations[t]? = some obs → obs.episode.turn = t ∧
        (∃ row ∈ result.ledgerPrimary, row.barIndex = t) ∧
        ∀ row ∈ result.ledgerPrimary, row.barIndex = t → SameStory obs row := by
  have returned : Returns (do
      let result ← runEpisode sha limits surge.loaded (scripted [actionBody ("1", none)])
        (config 90_000_000) (txt "run") EPISODE_ID 0
      require (result.observations ≠ []) (.engineError "observed")
      pure result) := by decide +kernel
  obtain ⟨result, returned⟩ := returned
  simp only [bind_ok_iff, require_eq_ok, pure_eq_ok, Except.ok.injEq] at returned
  obtain ⟨_, h, -, hobserved, rfl⟩ := returned
  exact ⟨_, h, hobserved, observations_tell_ledger surge_accepted.loads surge_accepted.valid h⟩

end WagmiBench.Core
