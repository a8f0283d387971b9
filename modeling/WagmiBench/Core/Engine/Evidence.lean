import WagmiBench.Core.Engine.Attribution
import WagmiBench.Core.Engine.Trace

/-!
# Runs with and without evidence

`collectEvidence` should decide what is emitted and nothing else. Two places decide more: the
relabelling of a position whose rounded target is already held, and a margin payload that is
computed, and may raise, only to be emitted. Turns that avoid both agree with and without evidence,
and so do runs all of whose turns avoid them.
-/

namespace WagmiBench.Core

open WagmiBench.Lib WagmiBench.Harness WagmiBench.Spec

/-! ## The two conditions on a turn -/

/-- An unblocked order whose rounded quantity is already held was not lost to rounding, or has no
position to relabel, or asks for the label the position carries. -/
def LabelSettled (env : ProfileEnv) (clock : TurnClock) (core : ProfileCore)
    (decision : TurnDecision) (drawdownUsed : ℤ) : Prop :=
  ∀ funded drafts action sizing, coincidentFunding env clock core.account = .ok (funded, drafts) →
    decision.parsed = some action → sizeAction env clock funded action = .ok sizing →
    anyFailed (riskChecks env funded sizing drawdownUsed) = false → sizing.requestedDelta = 0 →
    sizing.rawRequestedDelta = 0 ∨ funded.positionQtyBase1e8 = 0 ∨
      funded.targetLeverage1e4 = |sizing.targetLev|

/-- A short held into the bar has a positive trigger price. -/
def TriggerPositive (env : ProfileEnv) (clock : TurnClock) (core : ProfileCore)
    (decision : TurnDecision) (drawdownUsed : ℤ) : Prop :=
  ∀ account counters drafts mark liqPx,
    openPhase env clock false core.account core.counters decision drawdownUsed =
      .ok (account, counters, drafts) →
    account.positionQtyBase1e8 < 0 → env.market.mark[clock.fillAbs]? = some mark →
    triggerPrice env account mark = .ok liqPx → 0 < liqPx

section Decidable

variable {env : ProfileEnv} {clock : TurnClock} {core : ProfileCore} {decision : TurnDecision}
  {drawdownUsed : ℤ}

instance : Decidable (LabelSettled env clock core decision drawdownUsed) :=
  decidable_of_iff (∀ result ∈ (coincidentFunding env clock core.account).toOption,
      ∀ action ∈ decision.parsed, ∀ sizing ∈ (sizeAction env clock result.1 action).toOption,
      anyFailed (riskChecks env result.1 sizing drawdownUsed) = false → sizing.requestedDelta = 0 →
      sizing.rawRequestedDelta = 0 ∨ result.1.positionQtyBase1e8 = 0 ∨
        result.1.targetLeverage1e4 = |sizing.targetLev|)
    ⟨fun h funded drafts action sizing hfunded haction hsizing =>
        h (funded, drafts) (toOption_eq_some.mpr hfunded) action haction sizing
          (toOption_eq_some.mpr hsizing),
      fun h result hfunded action haction sizing hsizing =>
        h result.1 result.2 action sizing (toOption_eq_some.mp hfunded) haction
          (toOption_eq_some.mp hsizing)⟩

instance : Decidable (TriggerPositive env clock core decision drawdownUsed) :=
  decidable_of_iff (∀ result ∈
      (openPhase env clock false core.account core.counters decision drawdownUsed).toOption,
      result.1.positionQtyBase1e8 < 0 → ∀ mark ∈ env.market.mark[clock.fillAbs]?,
      ∀ liqPx ∈ (triggerPrice env result.1 mark).toOption, 0 < liqPx)
    ⟨fun h account counters drafts mark liqPx hopen hshort hmark hliq =>
        h (account, counters, drafts) (toOption_eq_some.mpr hopen) hshort mark hmark liqPx
          (toOption_eq_some.mpr hliq),
      fun h result hopen hshort mark hmark liqPx hliq =>
        h result.1 result.2.1 result.2.2 mark liqPx (toOption_eq_some.mp hopen) hshort hmark
          (toOption_eq_some.mp hliq)⟩

end Decidable

/-! ## Margin payloads that can be computed -/

section Phases

variable {env : ProfileEnv} {clock : TurnClock} {account : Account}

theorem distanceToLiquidation_returns {current liqPx positionSign : ℤ} (h : 0 < current)
    (hsign : positionSign = -1 ∨ positionSign = 1) (hshort : positionSign = -1 → 0 < liqPx) :
    Returns (distanceToLiquidation1e8 current liqPx positionSign) := by
  unfold distanceToLiquidation1e8
  refine (returns_require h).bind fun _ _ => (returns_require hsign).bind fun _ _ => ?_
  rcases hsign with rfl | rfl
  · exact (returns_require (hshort rfl)).bind fun _ _ => returns_ok _
  · by_cases hliq : liqPx ≤ 0
    · simp [hliq, pure_eq_ok]
    · simp [hliq, pure_eq_ok]

/-- The margin payload of a flat account only needs the mark row. -/
theorem marginDrafts_returns_of_flat {collectEvidence : Bool} {mark : BarRow}
    (hq : account.positionQtyBase1e8 = 0) (hmark : env.market.mark[clock.fillAbs]? = some mark) :
    Returns (marginDrafts env clock collectEvidence account) := by
  unfold marginDrafts
  split
  · simp [marginPayload, rowAt_eq_ok.mpr hmark, hq, pure_eq_ok]
  · exact returns_ok _

/-- The risk of a held position can be computed once its trigger price can, on positive marks. -/
theorem positionRisk_returns {mark : BarRow} {liqPx : ℤ}
    (hq : account.positionQtyBase1e8 ≠ 0) (hliq : triggerPrice env account mark = .ok liqPx)
    (hh : 0 < mark.h) (hl : 0 < mark.l) (hshort : account.positionQtyBase1e8 < 0 → 0 < liqPx) :
    Returns (positionRisk account env.market.spec mark) := by
  obtain ⟨hc, hprice⟩ := triggerPrice_eq_ok hliq
  obtain ⟨hentry, hsign, hlev, hrate, hrate'⟩ := liquidationPriceTicks_eq_ok hprice
  have htick := env.market.spec.tick_size_pos
  have hnotional : notionalMicro account.positionQtyBase1e8 mark.c env.market.spec.tickSizeMicro =
      .ok (|account.positionQtyBase1e8| * mark.c * env.market.spec.tickSizeMicro / QTY_SCALE) :=
    notionalMicro_eq_ok.mpr ⟨⟨hc, by omega⟩, rfl⟩
  have hadverse : 0 < adverse account mark := adverse_pos hh hl
  have hshort' := fun h => hshort (sign_eq_neg_one.mp h)
  obtain ⟨near, hnear⟩ := distanceToLiquidation_returns hc hsign hshort'
  obtain ⟨far, hfar⟩ := distanceToLiquidation_returns hadverse hsign hshort'
  have hmargin : Returns (marginUsedMicro account.positionQtyBase1e8 account.entryPxTicks
      env.market.spec.tickSizeMicro account.targetLeverage1e4) := by
    simp [marginUsedMicro, hq, require_pos, hentry, hlev, pure_eq_ok,
      (by omega : 0 < env.market.spec.tickSizeMicro)]
  have hmaintenance : ∀ rate, 0 ≤ rate → Returns (maintenanceMarginMicro account.positionQtyBase1e8
      mark.c env.market.spec.tickSizeMicro rate) := fun rate hrate => by
    simp [maintenanceMarginMicro, hq, require_pos, hc, hrate, pure_eq_ok,
      (by omega : 0 < env.market.spec.tickSizeMicro)]
  obtain ⟨margin, hmargin⟩ := hmargin
  obtain ⟨maintenance, hmaintenance⟩ := hmaintenance _ hrate
  unfold adverse at hfar
  simp [positionRisk, hq, hnotional, hprice, hnear, sign_pos_iff, hfar, hmargin, hmaintenance,
    pure_eq_ok]

/-- So can its margin payload, and its snapshot. -/
theorem marginPayload_returns {mark : BarRow} {liqPx : ℤ}
    (hmark : env.market.mark[clock.fillAbs]? = some mark)
    (hq : account.positionQtyBase1e8 ≠ 0) (hliq : triggerPrice env account mark = .ok liqPx)
    (hh : 0 < mark.h) (hl : 0 < mark.l) (hshort : account.positionQtyBase1e8 < 0 → 0 < liqPx) :
    Returns (marginPayload env clock account) := by
  obtain ⟨hc, hprice⟩ := triggerPrice_eq_ok hliq
  have hentry := (liquidationPriceTicks_eq_ok hprice).1
  have htick := env.market.spec.tick_size_pos
  have hupnl : Returns (upnl account mark.c env.market.spec) :=
    ⟨_, by rw [upnl, if_neg hq]; exact unrealizedPnlMicro_eq_ok.mpr ⟨⟨hentry, hc, by omega⟩, rfl⟩⟩
  obtain ⟨trade, htrade⟩ : ∃ row, env.market.trade[clock.fillAbs]? = some row := by
    have hlt := (List.getElem?_eq_some_iff.mp hmark).1
    exact ⟨_, List.getElem?_eq_getElem (env.market.mark_length ▸ hlt)⟩
  obtain ⟨u, hu⟩ := hupnl
  obtain ⟨risk, hrisk⟩ := positionRisk_returns hq hliq hh hl hshort
  simp [marginPayload, hq, rowAt_eq_ok.mpr hmark, snapshot, hu, hrisk, rowAt_eq_ok.mpr htrade,
    Functor.map, Except.map, pure_eq_ok]

/-! ## Phases with and without evidence -/

theorem relabel_fst {sizing : Sizing}
    (h : sizing.rawRequestedDelta = 0 ∨ account.positionQtyBase1e8 = 0 ∨
      account.targetLeverage1e4 = |sizing.targetLev|) :
    (relabel env clock true account sizing).1 = (relabel env clock false account sizing).1 := by
  by_cases hraw : sizing.rawRequestedDelta = 0
  · simp [relabel, hraw]
  · rcases h.resolve_left hraw with hq | hlabel
    · simp [relabel, hraw, hq]
    · simp [relabel, hraw, ← hlabel]

theorem orderPhase_agree {blocked : Bool} {action : ParsedAction} {sizing : Sizing}
    (h : blocked = false → sizing.requestedDelta = 0 → sizing.rawRequestedDelta = 0 ∨
      account.positionQtyBase1e8 = 0 ∨ account.targetLeverage1e4 = |sizing.targetLev|) :
    Agree (fun a b => a.1 = b.1) (orderPhase env clock true blocked account action sizing)
      (orderPhase env clock false blocked account action sizing) := by
  unfold orderPhase
  split
  · exact rfl
  · rename_i hb
    split
    · exact .refl fun _ _ => rfl
    · rename_i hd
      exact relabel_fst (h (by simpa using hb) (not_not.mp hd))

/-- The opening phases agree on the account and the counters. -/
theorem openPhase_agree {core : ProfileCore} {decision : TurnDecision} {drawdownUsed : ℤ}
    (h : LabelSettled env clock core decision drawdownUsed) :
    Agree (fun a b => a.1 = b.1 ∧ a.2.1 = b.2.1)
      (openPhase env clock true core.account core.counters decision drawdownUsed)
      (openPhase env clock false core.account core.counters decision drawdownUsed) := by
  unfold openPhase
  refine .bind_same fun ⟨funded, coincident⟩ hfunded => ?_
  refine Agree.bind (R := fun a b => a.1 = b.1 ∧ a.2.1 = b.2.1) ?_ ?_
  · unfold actionPhase
    split
    · rename_i action haction
      unfold processAction
      refine .bind_same fun sizing hsizing => ?_
      refine (orderPhase_agree fun hblocked hdelta =>
        h funded coincident action sizing hfunded haction hsizing hblocked hdelta).bind ?_
      rintro ⟨a, l⟩ ⟨b, m⟩ - - rfl
      exact ⟨rfl, rfl⟩
    · exact ⟨rfl, rfl⟩
  · rintro ⟨a, c, l⟩ ⟨b, d, m⟩ - - ⟨rfl, rfl⟩
    exact .bind_same fun _ _ => ⟨rfl, rfl⟩

theorem killSwitchPhase_agree {terminal : Bool} {snapshots : SnapshotLog} {n m : ℕ} :
    Agree (fun a b => a.1 = b.1 ∧ a.2.1 = b.2.1 ∧ a.2.2.1 = b.2.2.1)
      (killSwitchPhase env clock true terminal account snapshots n)
      (killSwitchPhase env clock false terminal account snapshots m) := by
  unfold killSwitchPhase
  refine .bind_same fun drawdown _ => ?_
  split
  · split
    · refine .bind_same fun ⟨flat, filled⟩ hflat => .bind_same fun s _ => ?_
      -- the payload of the flat account can always be computed
      obtain ⟨mark, fee, realized, hmark, -, -, rfl, -⟩ := flatten_eq_ok hflat
      obtain ⟨margin, hmargin⟩ : Returns (marginDrafts env clock true { account.flat with
          cashMicro := account.cashMicro + (realized - fee)
          realizedPriceCumMicro := account.realizedPriceCumMicro + realized
          feesCumMicro := account.feesCumMicro + fee
          turnoverNotionalMicro := account.turnoverNotionalMicro +
            |account.positionQtyBase1e8| * mark.c * env.market.spec.tickSizeMicro / QTY_SCALE }) :=
        marginDrafts_returns_of_flat rfl hmark
      rw [hmargin]
      exact ⟨rfl, rfl, rfl⟩
    · exact ⟨rfl, rfl, rfl⟩
  · exact ⟨rfl, rfl, rfl⟩

/-- A liquidated account is flat. -/
theorem liquidationPhase_flat {after : Account} {drafts : List Draft}
    (h : liquidationPhase env clock account = .ok (after, true, drafts)) :
    after.positionQtyBase1e8 = 0 ∧ ∃ mark, env.market.mark[clock.fillAbs]? = some mark := by
  rcases liquidationPhase_eq_ok h with ⟨-, -, h, -⟩ |
    ⟨-, mark, liqPx, hmark, -, ⟨-, -, draft, hliq, -⟩ | ⟨-, h, -⟩⟩
  · cases h
  · obtain ⟨realized, penalty, notional, -, -, -, rfl, -⟩ := liquidate_eq_ok hliq
    exact ⟨rfl, mark, hmark⟩
  · cases h

/-- What a liquidation check computes, a margin payload can be computed from. -/
theorem marginDrafts_returns_of_liquidation {collectEvidence : Bool}
    {result : Account × Bool × List Draft}
    (h : liquidationPhase env clock account = .ok result)
    (hshort : ∀ mark liqPx, account.positionQtyBase1e8 < 0 →
      env.market.mark[clock.fillAbs]? = some mark → triggerPrice env account mark = .ok liqPx →
        0 < liqPx) :
    Returns (marginDrafts env clock
      (collectEvidence && decide (account.positionQtyBase1e8 ≠ 0)) account) := by
  unfold marginDrafts
  split
  · rename_i hevidence
    have hq : account.positionQtyBase1e8 ≠ 0 := by simp_all
    obtain ⟨after, liquidated, drafts⟩ := result
    obtain ⟨hq', -⟩ | ⟨-, mark, liqPx, hmark, hliq, hcrossed⟩ := liquidationPhase_eq_ok h
    · exact absurd hq' hq
    · obtain ⟨hh, hl, -⟩ : 0 < mark.h ∧ 0 < mark.l ∧ True := by
        rcases hcrossed with ⟨hc, -⟩ | ⟨hc, -⟩ <;>
          exact ⟨(liquidationCrossed_eq_ok hc).1, (liquidationCrossed_eq_ok hc).2.1, trivial⟩
      obtain ⟨payload, hpayload⟩ := marginPayload_returns hmark hq hliq hh hl fun hq =>
        hshort mark liqPx hq hmark hliq
      simp [hpayload, pure_eq_ok]
  · exact returns_ok _

/-- The closing phases agree on everything but the events, if evidence can compute its payload
wherever the liquidation check returns. -/
theorem closePhase_agree {counters : Counters} {snapshots : SnapshotLog} {n m : ℕ}
    (hpayload : Returns (liquidationPhase env clock account) →
      Returns (marginDrafts env clock (true && decide (account.positionQtyBase1e8 ≠ 0)) account)) :
    Agree (fun a b => a.1 = b.1) (closePhase env clock true account counters snapshots n)
      (closePhase env clock false account counters snapshots m) := by
  unfold closePhase
  -- when the liquidation check raises, neither phase returns
  by_cases hliquidation : Returns (liquidationPhase env clock account)
  · obtain ⟨margin, hmargin⟩ := hpayload hliquidation
    obtain ⟨⟨closed, liquidated, liquidation⟩, hclosed⟩ := hliquidation
    have quiet : marginDrafts env clock (false && decide (account.positionQtyBase1e8 ≠ 0)) account =
        .ok [] := by simp [marginDrafts]
    rw [hmargin, quiet, hclosed]
    simp only [ok_bind]
    refine .bind_same fun s _ => ?_
    refine killSwitchPhase_agree.bind ?_
    rintro ⟨after, killed, log, kill⟩ ⟨_, _, _, kill'⟩ hkill - ⟨rfl, rfl, rfl⟩
    obtain ⟨last, hlast⟩ : Returns (marginDrafts env clock (liquidated && true) after) := by
      cases liquidated with
      | false => exact returns_ok _
      | true =>
        obtain ⟨hflat, mark, hmark⟩ := liquidationPhase_flat hclosed
        obtain ⟨_, -, ⟨-, rfl, -⟩ | ⟨h, -⟩ | ⟨h, -⟩⟩ := killSwitchPhase_eq_ok hkill
        · exact marginDrafts_returns_of_flat hflat hmark
        · exact absurd h.1 (by simp)
        · exact absurd h.1 (by simp)
    have silent : marginDrafts env clock (liquidated && false) after = .ok [] := by
      simp [marginDrafts]
    rw [hlast, silent]
    exact rfl
  · obtain ⟨e, he⟩ : ∃ e, liquidationPhase env clock account = .error e := by
      cases h : liquidationPhase env clock account with
      | error e => exact ⟨e, rfl⟩
      | ok r => exact absurd ⟨r, h⟩ hliquidation
    rw [he]
    cases marginDrafts env clock (true && decide (account.positionQtyBase1e8 ≠ 0)) account <;>
      exact trivial

/-- Whatever the turn holds into its bar, evidence can compute a payload for it wherever the
liquidation check returns. -/
def PayloadComputable (env : ProfileEnv) (clock : TurnClock) (core : ProfileCore)
    (decision : TurnDecision) (drawdownUsed : ℤ) : Prop :=
  ∀ account counters drafts,
    openPhase env clock false core.account core.counters decision drawdownUsed =
      .ok (account, counters, drafts) → Returns (liquidationPhase env clock account) →
    Returns (marginDrafts env clock (true && decide (account.positionQtyBase1e8 ≠ 0)) account)

theorem TriggerPositive.payloadComputable {core : ProfileCore} {decision : TurnDecision}
    {drawdownUsed : ℤ} (h : TriggerPositive env clock core decision drawdownUsed) :
    PayloadComputable env clock core decision drawdownUsed := by
  rintro account counters drafts hopen ⟨_, hliquidation⟩
  exact marginDrafts_returns_of_liquidation hliquidation fun mark liqPx =>
    h account counters drafts mark liqPx hopen

/-- **One turn.** Outside the two conditions evidence decides nothing about a turn's outcome. -/
theorem settleTurn_agree {core : ProfileCore} {decision : TurnDecision} {drawdownUsed : ℤ}
    {n m : ℕ} (hlabel : LabelSettled env clock core decision drawdownUsed)
    (hpayload : PayloadComputable env clock core decision drawdownUsed) :
    Agree (fun a b => a.1 = b.1) (settleTurn env clock true core decision drawdownUsed n)
      (settleTurn env clock false core decision drawdownUsed m) := by
  unfold settleTurn
  refine (openPhase_agree hlabel).bind ?_
  rintro ⟨account, counters, opening⟩ ⟨_, _, opening'⟩ - hopen ⟨rfl, rfl⟩
  refine (closePhase_agree (hpayload account counters opening' hopen)).bind ?_
  rintro ⟨core, closing⟩ ⟨_, closing'⟩ - - rfl
  exact rfl

/-- A turn that returned with evidence has computed the payload. -/
theorem payloadComputable_of_settleTurn {core : ProfileCore} {decision : TurnDecision}
    {drawdownUsed : ℤ} {n : ℕ} (hlabel : LabelSettled env clock core decision drawdownUsed)
    (h : Returns (settleTurn env clock true core decision drawdownUsed n)) :
    PayloadComputable env clock core decision drawdownUsed := by
  intro account counters drafts hopen _
  obtain ⟨⟨core', l⟩, hsettle⟩ := h
  obtain ⟨account', counters', opening, closing, hopen', hclose, -⟩ := settleTurn_eq_ok hsettle
  have same := openPhase_agree hlabel
  rw [hopen, hopen', agree_ok] at same
  obtain ⟨margin, _, _, _, _, _, _, _, hmargin, -⟩ := closePhase_eq_ok hclose
  obtain rfl : account' = account := same.1
  exact ⟨margin, hmargin⟩

end Phases

/-! ## Runs -/

/-- Every turn a run over a decision trace takes without evidence meets `Safe`. -/
def EveryTurn {σ : Type} (sha : Sha256) (limits : Json.Limits) (env : ProfileEnv)
    (episodeId : Text) (decisions : List TurnDecision) (s : σ)
    (Safe : ProfileEnv → TurnClock → ProfileCore → TurnDecision → ℤ → Prop) : Prop :=
  ∀ start turn state clock drawdownUsed decision, startState env s = .ok start →
    TurnReach sha limits env episodeId false (.replay decisions) start turn state →
    state.core.terminal = false → turnClock env turn = .ok clock →
    drawdown1e8 state.core.snapshots = .ok drawdownUsed → decisions[turn]? = some decision →
    Safe env clock state.core decision drawdownUsed

section Runs

variable {σ : Type} {sha : Sha256} {limits : Json.Limits} {env : ProfileEnv} {episodeId : Text}
  {decisions : List TurnDecision} {s : σ}

/-- The snapshots, totals and counters of a run. -/
def ProfileRun.outcome (run : ProfileRun σ) : SnapshotLog × Totals × Counters :=
  (run.core.snapshots, run.totals, run.core.counters)

/-- Step lemma: over one trace the bodies of the two loops agree on the economic state. -/
theorem turnBody_agree {turn : ℕ} {a b : ProfileState σ} (hab : a.core = b.core)
    (hsafe : ∀ clock drawdownUsed decision, turnClock env turn = .ok clock →
      drawdown1e8 b.core.snapshots = .ok drawdownUsed → decisions[turn]? = some decision →
      LabelSettled env clock b.core decision drawdownUsed ∧
        TriggerPositive env clock b.core decision drawdownUsed) :
    Agree (fun a b => a.core = b.core)
      (turnBody sha limits env episodeId true (.replay decisions) turn a)
      (turnBody sha limits env episodeId false (.replay decisions) turn b) := by
  unfold turnBody
  refine .bind_same fun clock hclock => ?_
  rw [hab]
  refine .bind_same fun drawdown hdrawdown => .bind_same fun turnover _ => ?_
  obtain ⟨-, hturn, -, -⟩ := turnClock_eq_ok hclock
  simp only [decideTurn]
  cases hd : decisions[clock.turn]? with
  | none => exact trivial
  | some decision =>
    simp only [ok_bind, hab]
    obtain ⟨hlabel, htrigger⟩ := hsafe clock drawdown decision hclock hdrawdown (hturn ▸ hd)
    refine (settleTurn_agree hlabel htrigger.payloadComputable).bind ?_
    rintro ⟨core, drafts⟩ ⟨_, drafts'⟩ - - rfl
    exact rfl

/-- Run lemma: runs over one trace whose turns avoid both conditions agree. -/
theorem runLoop_agree
    (hsafe : EveryTurn sha limits env episodeId decisions s fun env clock core decision drawdown =>
      LabelSettled env clock core decision drawdown ∧
        TriggerPositive env clock core decision drawdown) :
    Agree (fun a b => a.outcome = b.outcome)
      (runLoop sha limits env episodeId true (.replay decisions) s)
      (runLoop sha limits env episodeId false (.replay decisions) s) := by
  unfold runLoop
  refine .bind_same fun start hstart => .bind_same fun turns _ => ?_
  refine (Agree.loop (R := fun _ a b => a.core = b.core) rfl (fun t a b h => ?_) ?_).bind ?_
  · exact congrArg ProfileCore.terminal h
  · intro t a b _ _ hb hab hstop
    exact turnBody_agree hab fun clock drawdown decision hclock hdrawdown hdecision =>
      hsafe start t b clock drawdown decision hstart hb hstop hclock hdrawdown hdecision
  · rintro a b - - ⟨_, hab⟩
    exact congrArg (fun core => (core.snapshots, finalTotals core, core.counters)) hab

/-- Step lemma: a turn of the agent with evidence is matched by the replay of its decision
without. -/
theorem turnBody_replay_of_agent {agent : Agent σ} {turn : ℕ} {a a' : ProfileState σ}
    {b : ProfileState Unit} {decisions : List TurnDecision} (hab : a.core = b.core)
    (ha : turnBody sha limits env episodeId true (.agent agent) turn a = .ok a')
    (htrace : ∀ decision, a'.decisions = a.decisions ++ [decision] →
      decisions[turn]? = some decision)
    (hsafe : ∀ clock drawdownUsed decision, turnClock env turn = .ok clock →
      drawdown1e8 b.core.snapshots = .ok drawdownUsed → decisions[turn]? = some decision →
      LabelSettled env clock b.core decision drawdownUsed) :
    ∃ b', turnBody sha limits env episodeId false (.replay decisions) turn b = .ok b' ∧
      a'.core = b'.core := by
  obtain ⟨clock, drawdown, turnover, decision, asked, drafts, hclock, hdrawdown, hturnover, -,
    hsettle, hdecisions⟩ := turnBody_agent_eq_ok ha
  have hdecision := htrace decision hdecisions
  rw [hab] at hdrawdown hturnover hsettle
  obtain ⟨-, hturn, -, -⟩ := turnClock_eq_ok hclock
  have hlabel := hsafe clock drawdown decision hclock hdrawdown hdecision
  have hagree := settleTurn_agree (n := asked.events.length) (m := b.events.length) hlabel
    (payloadComputable_of_settleTurn hlabel ⟨_, hsettle⟩)
  obtain ⟨⟨core, drafts'⟩, hsettle', hcore⟩ := (agree_iff.mp hagree).1 _ hsettle
  refine ⟨{ b with core }, ?_, hcore⟩
  simp [turnBody, hclock, hdrawdown, hturnover, decideTurn, hturn, hdecision, hsettle', pure_eq_ok]

/-- Run lemma: the replay of a finished agent run ends in the same economic state. -/
theorem runLoop_replay_of_agent {agent : Agent σ} {run : ProfileRun σ} {replayed : ProfileRun Unit}
    (hrun : runLoop sha limits env episodeId true (.agent agent) s = .ok run)
    (hreplay : runLoop sha limits env episodeId false (.replay run.decisions) () = .ok replayed)
    (hsafe : EveryTurn sha limits env episodeId run.decisions () LabelSettled) :
    replayed.core = run.core ∧ replayed.totals = run.totals := by
  obtain ⟨start, turns, last, hstart, hturns, hlast, hreach, hend, htotals⟩ := runLoop_eq_ok hrun
  obtain ⟨start', turns', last', hstart', hturns', hlast', hreach', hend', htotals'⟩ :=
    runLoop_eq_ok hreplay
  obtain rfl : turns = turns' := Except.ok.inj (hturns.symm.trans hturns')
  obtain rfl := Except.ok.inj ((startState_core hstart).symm.trans hstart')
  -- every state of the first run has a state of the replay beside it
  have matched : ∀ {t : ℕ} {a : ProfileState σ},
      TurnReach sha limits env episodeId true (.agent agent) start t a → t ≤ last →
      ∃ b, TurnReach sha limits env episodeId false (.replay run.decisions)
        ⟨start.core, [], [], [], [], ()⟩ t b ∧ a.core = b.core := by
    intro t a ha
    induction ha with
    | start => exact fun _ => ⟨_, .start, rfl⟩
    | @step t a a' ha hstop hbody ih =>
      intro ht
      obtain ⟨b, hb, hab⟩ := ih (by omega)
      have hstop' : b.stopped = false := by
        rw [ProfileState.stopped, ← hab]
        exact hstop
      obtain ⟨b', hb', hab'⟩ := turnBody_replay_of_agent hab hbody
        (fun decision => hreach.decision_at (startState_decisions hstart) (by omega) ha hstop hbody)
        fun clock drawdown decision hclock hdrawdown hdecision =>
          hsafe _ t b clock drawdown decision hstart' hb hstop' hclock hdrawdown hdecision
      exact ⟨b', .step hb hstop' hb', hab'⟩
  obtain ⟨b, hb, hab⟩ := matched hreach le_rfl
  have hfinal : loopFrom (turnBody sha limits env episodeId false (.replay run.decisions))
      ProfileState.stopped turns 0 ⟨start.core, [], [], [], [], ()⟩ = .ok b :=
    loopFrom_of_reach hb hlast (hend.imp_right fun h => by
      rw [ProfileState.stopped, ← hab]
      exact h)
  have hfinal' := loopFrom_of_reach hreach' hlast' hend'
  rw [hfinal] at hfinal'
  obtain rfl := Except.ok.inj hfinal'
  exact ⟨hab.symm, by rw [htotals', htotals, hab]⟩

end Runs

/-- Ledgers of the same snapshots differ in the profile label only. -/
theorem ledgerRows_relabel {snapshots : SnapshotLog} {p q aliasName : Text}
    {rows rows' : List LedgerRow} (h : ledgerRows snapshots p aliasName = .ok rows)
    (h' : ledgerRows snapshots q aliasName = .ok rows') :
    rows' = rows.map fun row => { row with profile := q } := by
  rw [ledgerRows_eq_ok h, ledgerRows_eq_ok h', List.map_zipWith]
  rfl

/-- **Evidence is neutral where both conditions hold.** Over one decision trace and one multiplier,
a run with evidence and a run without have the same snapshots, totals and counters, provided every
turn is settled in its label and triggers its shorts at positive prices. When the two profiles of a
pack share their multiplier, the ledgers of an episode whose turns are settled in their label differ
in the profile column only. -/
theorem runProfile_evidence_neutral {σ : Type} {sha : Sha256} {limits : Json.Limits}
    {pack : PackData} {config : EpisodeConfig} {episodeId : Text} :
    (∀ (profile profile' : Text) (env : ProfileEnv) (decisions : List TurnDecision) (s : σ),
      profileEnv pack config profile = .ok env → profileEnv pack config profile' = .ok env →
      (EveryTurn sha limits env episodeId decisions s fun env clock core decision drawdown =>
        LabelSettled env clock core decision drawdown ∧
          TriggerPositive env clock core decision drawdown) →
      (runProfile sha limits pack config profile episodeId (.replay decisions) s true).toOption.map
          ProfileRun.outcome =
        (runProfile sha limits pack config profile' episodeId (.replay decisions) s
          false).toOption.map ProfileRun.outcome) ∧
    ∀ (agent : Agent σ) (runId : Text) (s : σ) (result : EpisodeResult) (primary : ProfileRun σ)
      (env : ProfileEnv),
      runEpisode sha limits pack agent config runId episodeId s = .ok result →
      runPrimary sha limits pack agent config episodeId s = .ok primary →
      profileEnv pack config PRIMARY = .ok env → profileEnv pack config STRESS_2X = .ok env →
      EveryTurn sha limits env episodeId primary.decisions () LabelSettled →
      result.ledgerStress2x = result.ledgerPrimary.map fun row => { row with profile := STRESS_2X } := by
  constructor
  · intro profile profile' env decisions s henv henv' hsafe
    simp only [runProfile, henv, henv', ok_bind]
    exact (runLoop_agree hsafe).map_toOption
  · intro agent runId s result primary env hepisode hprimary henv henv' hsafe
    obtain ⟨-, primary', stress, hprimary', hstress, hfinish⟩ := runEpisode_eq_ok hepisode
    obtain rfl : primary = primary' := Except.ok.inj (hprimary.symm.trans hprimary')
    obtain ⟨_, _, _, _, _, _, _, -, -, -, -, -, -, -, hrows, hrows', -⟩ := finishEpisode_eq_ok hfinish
    simp only [runPrimary, runProfile, henv, ok_bind] at hprimary
    simp only [runStress, runProfile, henv', ok_bind] at hstress
    rw [(runLoop_replay_of_agent hprimary hstress hsafe).1] at hrows'
    exact ledgerRows_relabel hrows hrows'

/-- Over a trace of one decision only the first turn has to be looked at. -/
theorem everyTurn_singleton {σ : Type} {sha : Sha256} {limits : Json.Limits} {env : ProfileEnv}
    {episodeId : Text} {decision : TurnDecision} {s : σ}
    {Safe : ProfileEnv → TurnClock → ProfileCore → TurnDecision → ℤ → Prop}
    (h : ∀ start clock drawdownUsed, startState env s = .ok start → turnClock env 0 = .ok clock →
      drawdown1e8 start.core.snapshots = .ok drawdownUsed →
      Safe env clock start.core decision drawdownUsed) :
    EveryTurn sha limits env episodeId [decision] s Safe := by
  intro start turn state clock drawdownUsed d hstart hreach _ hclock hdrawdown hd
  obtain ⟨hlt, hd⟩ := List.getElem?_eq_some_iff.mp hd
  obtain rfl : turn = 0 := by simpa using hlt
  obtain rfl := hreach.unique .start
  obtain rfl : decision = d := by simpa using hd
  exact h _ clock drawdownUsed hstart hclock hdrawdown

/-- A price at which a target of 1.9802 rounds to the quantity a target of 2 bought at 10 000. -/
def rounding : Scenario :=
  ⟨.still 10_000, [.still 10_000, ⟨10_000, 10_101, 10_000, 10_101⟩, .still 10_101], [], 0, 0, 0,
    1_000_000, 10_000, Scenario.onePercent_pos, by decide, Scenario.unsettled_increasing⟩

/-- Where a quantity is lost to rounding, the position keeps its label with evidence and takes the
new one without. -/
theorem rounding_evidence_matters :
    let run := fun evidence => (runProfile (σ := Unit) Scenario.sha Scenario.limits rounding.pack
      (Scenario.config 90_000_000) PRIMARY [] (.replay [Scenario.acting 20_000 none,
        Scenario.missed, Scenario.acting 19_802 none]) () evidence).toOption.map ProfileRun.outcome
    (run true).isSome ∧ (run false).isSome ∧ run true ≠ run false := by
  decide +kernel

/-- One turn at a standing price, under profiles with the same costs. -/
def single : Scenario := { Scenario.steady with
  rest := [.still 10_000]
  stress1e4 := 10_000
  stress_pos := by decide }

/-- The single turn satisfies both conditions, for a traced short and for an agent's long. -/
theorem single_evidence_neutral :
    let env := single.env (Scenario.config 90_000_000) 10_000
    let run := fun evidence => (runProfile (σ := Unit) Scenario.sha Scenario.limits single.pack
      (Scenario.config 90_000_000) PRIMARY [] (.replay [Scenario.acting (-20_000) none]) ()
      evidence).toOption.map ProfileRun.outcome
    ((run true).isSome ∧ run true = run false) ∧
      ∃ result, runEpisode Scenario.sha Scenario.limits single.pack
          (Scenario.scripted [Scenario.actionBody ("1", none)]) env.config (txt "run")
          (txt "ep_0123456789abcdef") 0 = .ok result ∧
        result.ledgerStress2x =
          result.ledgerPrimary.map fun row => { row with profile := STRESS_2X } := by
  intro env run
  refine ⟨⟨by decide +kernel, ?_⟩, ?_⟩
  · refine runProfile_evidence_neutral.1 PRIMARY PRIMARY env _ () (Scenario.profileEnv_primary _ _)
      (Scenario.profileEnv_primary _ _) (everyTurn_singleton fun start clock drawdown hstart hclock
        hdrawdown => ?_)
    have checked : ∀ first ∈ (startState env ()).toOption, ∀ clock ∈ (turnClock env 0).toOption,
        ∀ drawdown ∈ (drawdown1e8 first.core.snapshots).toOption,
        LabelSettled env clock first.core (Scenario.acting (-20_000) none) drawdown ∧
        TriggerPositive env clock first.core (Scenario.acting (-20_000) none) drawdown := by
      decide +kernel
    exact checked start (toOption_eq_some.mpr hstart) clock (toOption_eq_some.mpr hclock) drawdown
      (toOption_eq_some.mpr hdrawdown)
  · have returned : Returns (runEpisode Scenario.sha Scenario.limits single.pack
        (Scenario.scripted [Scenario.actionBody ("1", none)]) env.config (txt "run")
        (txt "ep_0123456789abcdef") 0) := by decide +kernel
    obtain ⟨result, hresult⟩ := returned
    obtain ⟨-, primary, -, hprimary, -, -⟩ := runEpisode_eq_ok hresult
    have checked : ∀ primary ∈ (runPrimary Scenario.sha Scenario.limits single.pack
        (Scenario.scripted [Scenario.actionBody ("1", none)]) env.config
        (txt "ep_0123456789abcdef") 0).toOption, primary.decisions.length = 1 ∧
        ∀ d ∈ primary.decisions, ∀ first ∈ (startState env ()).toOption,
        ∀ clock ∈ (turnClock env 0).toOption,
        ∀ drawdown ∈ (drawdown1e8 first.core.snapshots).toOption,
        LabelSettled env clock first.core d drawdown := by decide +kernel
    obtain ⟨hlength, hlabel⟩ := checked primary (toOption_eq_some.mpr hprimary)
    obtain ⟨d, hd⟩ := List.length_eq_one_iff.mp hlength
    refine ⟨result, hresult, runProfile_evidence_neutral.2 _ _ _ _ primary env hresult hprimary
      (Scenario.profileEnv_primary _ _) (Scenario.profileEnv_stress _ _) ?_⟩
    rw [hd]
    exact everyTurn_singleton fun start clock drawdown hstart hclock hdrawdown =>
      hlabel d (by simp [hd]) start (toOption_eq_some.mpr hstart) clock
        (toOption_eq_some.mpr hclock) drawdown (toOption_eq_some.mpr hdrawdown)

end WagmiBench.Core
