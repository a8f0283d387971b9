import WagmiBench.Core.Engine.Attribution
import WagmiBench.Core.Engine.Orders
import WagmiBench.Harness.Scripted

/-!
# Restated targets

A baseline restates one leverage every turn, and every turn sizes it anew from the equity and the
next open. So the position it opened stays only while that equity still buys the same quantity, or
while something refuses the order for the difference.
-/

namespace WagmiBench.Core

open WagmiBench.Lib WagmiBench.Harness WagmiBench.Spec

/-! ## Fills of the agent -/

/-- The event is a fill of the agent's own order in turn `turn`. The forced order of the kill switch
fills at the close of its holding bar. -/
structure Event.IsAgentFill (env : ProfileEnv) (turn : ℕ) (e : Event) : Prop where
  turn_eq : e.turn = some turn
  filled : ∃ f, e.payload = .orderFilled f
  stamped : ∃ clock, turnClock env turn = .ok clock ∧ e.ts = clock.decisionTs

/-- It fills all of the order, which leaves the position at the computed target. -/
def Event.IsFullFill (env : ProfileEnv) (turn : ℕ) (e : Event) : Prop :=
  e.IsAgentFill env turn ∧ ∃ f, e.payload = .orderFilled f ∧ f.qtyBase1e8 = f.requestedQtyBase1e8

/-! ## What keeps a position -/

/-- Why nothing is executed for a leverage `lev` whose quantity at the open of `fillRow` is
`target`. -/
inductive Unexecuted (env : ProfileEnv) (account : Account) (lev : ℤ) (fillRow : BarRow)
    (target : ℤ) : Prop
  /-- The target is what is held. -/
  | held (h : target = account.positionQtyBase1e8)
  /-- The kill switch lets nothing through. -/
  | killed (hactive : account.killSwitchActive = true) (hlev : lev ≠ 0)
  /-- The difference would take the turnover past its cap. -/
  | turnover {cap notional used : ℤ} (hcap : env.config.turnoverCap1e8 = some cap)
      (hnotional : notionalMicro (target - account.positionQtyBase1e8) fillRow.o
        env.market.spec.tickSizeMicro = .ok notional)
      (hused : turnover1e8 (account.turnoverNotionalMicro + notional)
        env.config.startingNavMicro = .ok used)
      (hover : cap < used)
  /-- The bar has no volume for the difference, or what it has is below the smallest order. -/
  | small {fill : FillCalculation}
      (hfill : calculateFill (if 0 < target - account.positionQtyBase1e8 then .buy else .sell)
        |target - account.positionQtyBase1e8| fillRow.vBase1e8 env.market.spec.participationCap1e8
        env.market.spec.qtyStepBase1e8 fillRow.o env.market.spec.tickSizeMicro
        env.market.spec.halfSpread1e8 env.market.spec.impactCoeff1e8 env.market.spec.impactModel
        env.market.spec.takerFeeRate1e8 env.multiplier = .ok fill)
      (hsmall : fill.quantities.filledQtyBase1e8 = 0 ∨
        fill.notionalMicro < env.market.spec.minNotionalMicro)

/-- An account that enters turn `turn` keeps its position under a restated leverage: what the
leverage buys of the equity at the next open, once coincident funding is paid, is not executed. -/
def Rests (env : ProfileEnv) (turn : ℕ) (account : Account) (lev : ℤ) : Prop :=
  ∃ clock funded coincident markRow fillRow profit target,
    turnClock env turn = .ok clock ∧
    coincidentFunding env clock account = .ok (funded, coincident) ∧
    env.market.mark[clock.decisionAbs]? = some markRow ∧
    env.market.trade[clock.fillAbs]? = some fillRow ∧
    upnl funded markRow.c env.market.spec = .ok profit ∧
    LargestTarget lev (funded.cashMicro + profit) fillRow.o env.market.spec.tickSizeMicro
      env.market.spec.qtyStepBase1e8 target ∧
    Unexecuted env funded lev fillRow target

section Target

variable {lev equity px tick step target target' : ℤ}

theorem LargestTarget.eq_zero (hpx : 0 < px) (htick : 0 < tick)
    (h : LargestTarget 0 equity px tick step target) : target = 0 := by
  have hwithin := h.within
  rw [abs_zero, Int.cast_zero, zero_div, zero_mul, exactNotional] at hwithin
  by_contra hne
  have hpos : (0 : ℚ) < ((|target| * px * tick : ℤ) : ℚ) := by
    exact_mod_cast mul_pos (mul_pos (abs_pos.mpr hne) hpx) htick
  have := div_pos hpos (by norm_num : (0 : ℚ) < (QTY_SCALE : ℚ))
  linarith

/-- A leverage has one largest target. -/
theorem LargestTarget.unique (hpx : 0 < px) (htick : 0 < tick)
    (h : LargestTarget lev equity px tick step target)
    (h' : LargestTarget lev equity px tick step target') : target = target' := by
  have habs : |target| = |target'| :=
    le_antisymm (h'.largest _ h.on_step h.within) (h.largest _ h'.on_step h'.within)
  rcases lt_trichotomy lev 0 with hneg | rfl | hpos
  · rwa [abs_of_nonpos (nonpos_of_mul_nonneg_left h.side hneg),
      abs_of_nonpos (nonpos_of_mul_nonneg_left h'.side hneg), neg_inj] at habs
  · rw [h.eq_zero hpx htick, h'.eq_zero hpx htick]
  · rwa [abs_of_nonneg (nonneg_of_mul_nonneg_left h.side hpos),
      abs_of_nonneg (nonneg_of_mul_nonneg_left h'.side hpos)] at habs

end Target

/-! ## One turn -/

section Order

variable {env : ProfileEnv} {clock : TurnClock} {account after : Account} {action : ParsedAction}
  {sizing : Sizing} {drafts : List Draft} {collectEvidence : Bool} {lev : ℤ}

/-- The action restates the leverage `lev`, without a slippage limit. -/
structure ParsedAction.Restates (action : ParsedAction) (aliasName : Text) (lev : ℤ) : Prop where
  target_eq : action.targetLev1e4 = [(aliasName, lev)]
  slippage_eq : action.maxSlippageBps = none

/-- Within both caps, only the turnover cap and the kill switch block a restated leverage. -/
theorem riskChecks_failed_iff (haction : action.Restates env.aliasName lev)
    (hmarket : |lev| ≤ env.market.spec.leverageCapLev1e4)
    (hgross : |lev| ≤ env.config.leverageCapGrossLev1e4) {drawdownUsed : ℤ}
    (hsizing : sizeAction env clock account action = .ok sizing) :
    sizing.targetLev = lev ∧ (anyFailed (riskChecks env account sizing drawdownUsed) = true ↔
      (∃ cap, env.config.turnoverCap1e8 = some cap ∧ cap < sizing.projectedTurnover) ∨
        account.killSwitchActive = true ∧ lev ≠ 0) := by
  have hlev : sizing.targetLev = lev ∧ sizing.grossTarget = |lev| := by
    simp only [sizeAction, bind_ok_iff, pure_eq_ok, Except.ok.injEq] at hsizing
    obtain ⟨_, -, _, -, _, -, _, -, _, -, _, -, _, -, rfl⟩ := hsizing
    simp [haction.target_eq]
  refine ⟨hlev.1, ?_⟩
  simp only [anyFailed, riskChecks, hlev.1, hlev.2]
  cases hcap : env.config.turnoverCap1e8 with
  | none => simp [hmarket, hgross]
  | some cap => simp [hmarket, hgross]

/-- What an unblocked order executes. -/
theorem orderPhase_fills_iff (haction : action.Restates env.aliasName lev)
    (h : orderPhase env clock collectEvidence false account action sizing = .ok (after, drafts)) :
    (∃ d ∈ drafts, ∃ f, d.payload = .orderFilled f) ↔
      sizing.requestedDelta ≠ 0 ∧ ∃ fillRow fill, env.market.trade[clock.fillAbs]? = some fillRow ∧
        orderFill env sizing fillRow = .ok fill ∧ fill.quantities.filledQtyBase1e8 ≠ 0 ∧
        env.market.spec.minNotionalMicro ≤ fill.notionalMicro := by
  obtain ⟨hblocked, -⟩ | ⟨-, hne, horder⟩ | ⟨-, hzero, hrelabel⟩ := orderPhase_eq_ok h
  · simp at hblocked
  · obtain ⟨fillRow, fill, hrow, hfill, hcases⟩ := executeOrder_eq_ok horder
    have hladder : cancelReason env fill action = none ↔
        fill.quantities.filledQtyBase1e8 ≠ 0 ∧
          env.market.spec.minNotionalMicro ≤ fill.notionalMicro := by
      unfold cancelReason
      simp only [haction.slippage_eq, Option.mem_def, reduceCtorEq, false_and, exists_false,
        if_false]
      split_ifs with hfilled hnotional
      · simp [hfilled]
      · simp [hnotional]
      · simp [hfilled, not_lt.mp hnotional]
    have hunique : (∃ fillRow fill, env.market.trade[clock.fillAbs]? = some fillRow ∧
        orderFill env sizing fillRow = .ok fill ∧ fill.quantities.filledQtyBase1e8 ≠ 0 ∧
        env.market.spec.minNotionalMicro ≤ fill.notionalMicro) ↔
          cancelReason env fill action = none := by
      rw [hladder]
      constructor
      · rintro ⟨fillRow', fill', hrow', hfill', hexecuted⟩
        obtain rfl := Option.some.inj (hrow.symm.trans hrow')
        obtain rfl := Except.ok.inj (hfill.symm.trans hfill')
        exact hexecuted
      · exact fun hexecuted => ⟨fillRow, fill, hrow, hfill, hexecuted⟩
    rw [hunique]
    obtain ⟨reason, hreason, -, rfl⟩ | ⟨hreason, -, rfl⟩ := hcases
    · simp [fullCancel, hreason]
    · exact ⟨fun _ => ⟨hne, hreason⟩, fun _ => ⟨_, List.mem_cons_self .., _, rfl⟩⟩
  · refine ⟨?_, fun h => absurd hzero h.1⟩
    rintro ⟨d, hd, f, hf⟩
    unfold relabel at hrelabel
    split at hrelabel
    · obtain ⟨-, rfl⟩ := Prod.mk.inj hrelabel
      obtain rfl := List.mem_singleton.mp hd
      cases hf
    · split at hrelabel <;>
      · obtain ⟨-, rfl⟩ := Prod.mk.inj hrelabel
        cases hd

/-- A restated leverage fills just where nothing refuses it. -/
theorem processAction_fills_iff (haction : action.Restates env.aliasName lev)
    (hmarket : |lev| ≤ env.market.spec.leverageCapLev1e4)
    (hgross : |lev| ≤ env.config.leverageCapGrossLev1e4)
    {counters counters' : Counters} {rawSha256 : Option Text} {drawdownUsed : ℤ}
    (h : processAction env clock collectEvidence account counters action rawSha256 drawdownUsed =
      .ok (after, counters', drafts)) :
    ∃ markRow fillRow profit target, env.market.mark[clock.decisionAbs]? = some markRow ∧
      env.market.trade[clock.fillAbs]? = some fillRow ∧
      upnl account markRow.c env.market.spec = .ok profit ∧
      LargestTarget lev (account.cashMicro + profit) fillRow.o env.market.spec.tickSizeMicro
        env.market.spec.qtyStepBase1e8 target ∧ 0 < fillRow.o ∧
      ((∃ d ∈ drafts, ∃ f, d.payload = .orderFilled f) ↔
        ¬ Unexecuted env account lev fillRow target) := by
  obtain ⟨sizing, orders, hsizing, hphase, -, rfl⟩ := processAction_eq_ok h
  obtain ⟨hlev, hblocked⟩ := @riskChecks_failed_iff _ _ _ _ _ _ haction hmarket hgross drawdownUsed
    hsizing
  obtain ⟨-, markRow, fillRow, profit, target, hmark, hrow, hprofit, htarget, hdelta, notional,
    hnotional, hused⟩ := sizeAction_sized hsizing
  rw [hlev] at htarget
  rw [hdelta] at hnotional
  refine ⟨markRow, fillRow, profit, target, hmark, hrow, hprofit, htarget,
    (notionalMicro_eq_ok.mp hnotional).1.1, ?_⟩
  have hgates : (∃ d ∈ gateDrafts clock (riskChecks env account sizing drawdownUsed)
      (anyFailed (riskChecks env account sizing drawdownUsed) && account.killSwitchActive &&
        decide (sizing.targetLev ≠ 0)) action rawSha256 ++ orders, ∃ f,
        d.payload = .orderFilled f) ↔ ∃ d ∈ orders, ∃ f, d.payload = .orderFilled f := by
    constructor
    · rintro ⟨d, hd, f, hf⟩
      rcases List.mem_append.mp hd with hd | hd
      · exact absurd hf (gateDrafts_unfilled hd f)
      · exact ⟨d, hd, f, hf⟩
    · exact fun ⟨d, hd, hf⟩ => ⟨d, List.mem_append_right _ hd, hf⟩
  rw [hgates]
  cases hfailed : anyFailed (riskChecks env account sizing drawdownUsed) with
  | true =>
    rw [hfailed] at hphase
    obtain ⟨-, -, rfl⟩ | ⟨hpassed, -⟩ | ⟨hpassed, -⟩ := orderPhase_eq_ok hphase
    · refine ⟨fun ⟨d, hd, _⟩ => (by cases hd), fun hne => absurd ?_ hne⟩
      rcases hblocked.mp hfailed with ⟨cap, hcap, hover⟩ | ⟨hactive, hne⟩
      · exact .turnover hcap hnotional hused hover
      · exact .killed hactive hne
    · cases hpassed
    · cases hpassed
  | false =>
    have hpassed := mt hblocked.mpr (by rw [hfailed]; decide)
    push Not at hpassed
    rw [hfailed] at hphase
    rw [orderPhase_fills_iff haction hphase]
    constructor
    · rintro ⟨hne, fillRow', fill, hrow', hfill, hfilled, hnotional'⟩ hunexecuted
      obtain rfl := Option.some.inj (hrow.symm.trans hrow')
      cases hunexecuted with
      | held h => exact hne (by rw [hdelta, h, sub_self])
      | killed hactive hlev => exact hlev (hpassed.2 hactive)
      | turnover hcap hnotional' hused' hover =>
        obtain rfl := Except.ok.inj (hnotional.symm.trans hnotional')
        obtain rfl := Except.ok.inj (hused.symm.trans hused')
        exact absurd (hpassed.1 _ hcap) (not_le.mpr hover)
      | small hfill' hsmall =>
        rw [orderFill, hdelta] at hfill
        obtain rfl := Except.ok.inj (hfill.symm.trans hfill')
        exact hsmall.elim hfilled (not_lt.mpr hnotional')
    · intro hexecuted
      have hne : sizing.requestedDelta ≠ 0 := fun hzero => hexecuted (.held (by omega))
      refine ⟨hne, ?_⟩
      obtain ⟨hblocked', -⟩ | ⟨-, -, horder⟩ | ⟨-, hzero, -⟩ := orderPhase_eq_ok hphase
      · cases hblocked'
      · obtain ⟨fillRow', fill, hrow', hfill, -⟩ := executeOrder_eq_ok horder
        obtain rfl := Option.some.inj (hrow.symm.trans hrow')
        have hfill' := hfill
        rw [orderFill, hdelta] at hfill'
        refine ⟨fillRow, fill, hrow, hfill, fun hzero => hexecuted (.small hfill' (.inl hzero)), ?_⟩
        exact not_lt.mp fun hlt => hexecuted (.small hfill' (.inr hlt))
      · exact absurd hzero hne

/-! ### Where a turn fills -/

/-- The draft fills an order. -/
def Draft.IsFill (d : Draft) : Prop := ∃ f, d.payload = .orderFilled f

theorem settleFunding_unfilled {ts : ℤ} {row : FundingRow} {draft : Draft}
    (h : settleFunding env clock ts row account = .ok (after, draft)) : ¬ draft.IsFill := by
  obtain ⟨rate, indexPx, flow, -, rfl⟩ := settleFunding_eq_ok h
  rintro ⟨f, hf⟩
  cases hf

theorem coincidentFunding_unfilled
    (h : coincidentFunding env clock account = .ok (after, drafts)) : ∀ d ∈ drafts, ¬ d.IsFill := by
  obtain ⟨-, -, rfl⟩ | ⟨row, draft, -, hsettle, rfl⟩ := coincidentFunding_eq_ok h
  · simp
  · simpa using settleFunding_unfilled hsettle

theorem holdingFunding_unfilled {rows : List FundingRow}
    (h : holdingFunding env clock rows account = .ok (after, drafts)) :
    ∀ d ∈ drafts, ¬ d.IsFill := by
  induction rows generalizing account drafts with
  | nil =>
    simp only [holdingFunding, Except.ok.injEq, Prod.mk.injEq] at h
    obtain ⟨-, rfl⟩ := h
    simp
  | cons row rows ih =>
    obtain ⟨next, draft, rest, hsettle, hrest, rfl⟩ | hrest := holdingFunding_cons_eq_ok h
    · exact List.forall_mem_cons.mpr ⟨settleFunding_unfilled hsettle, ih hrest⟩
    · exact ih hrest

/-- At the instant of its decision a turn fills its own order only. -/
theorem settleTurn_fills {core core' : ProfileCore} {decision : TurnDecision} {drawdownUsed : ℤ}
    {nextSeq : ℕ} (hclose : clock.decisionTs < clock.holdingCloseTs)
    (h : settleTurn env clock collectEvidence core decision drawdownUsed nextSeq =
      .ok (core', drafts)) :
    ∃ funded coincident traded counters' orders,
      coincidentFunding env clock core.account = .ok (funded, coincident) ∧
      actionPhase env clock collectEvidence funded (countDecision clock core.counters decision).1
        decision drawdownUsed = .ok (traded, counters', orders) ∧
      ((∃ d ∈ drafts, d.IsFill ∧ d.ts = clock.decisionTs) ↔ ∃ d ∈ orders, d.IsFill) := by
  obtain ⟨opened, counters, opening, closing, hopen, hclosing, rfl⟩ := settleTurn_eq_ok h
  obtain ⟨funded, traded, coincident, orders, inside, hfund, haction, hinside, rfl⟩ :=
    openPhase_eq_ok hopen
  refine ⟨funded, coincident, traded, counters, orders, hfund, haction, ?_⟩
  constructor
  · rintro ⟨d, hd, hfill, hts⟩
    simp only [List.mem_append, List.mem_cons] at hd
    rcases hd with (((rfl | hd) | hd) | hd) | hd
    · obtain ⟨f, hf⟩ := hfill
      have hkind := (@countDecision_draft clock core.counters decision).1
      rw [hf] at hkind
      exact hkind.elim
    · exact absurd hfill (coincidentFunding_unfilled hfund d hd)
    · exact ⟨d, hd, hfill⟩
    · exact absurd hfill (holdingFunding_unfilled hinside d hd)
    · have := (closePhase_drafts hclosing d hd).2.ts_eq
      omega
  · rintro ⟨d, hd, hfill⟩
    exact ⟨d, by simp [hd], hfill, (actionPhase_drafts haction d hd).2.ts_eq⟩

end Order

/-! ## Runs of a baseline -/

section Loop

variable {sha : Sha256} {limits : Json.Limits} {env : ProfileEnv} {episodeId : Text}
  {baseline : ConstantTargetAgent} {start state next last : ProfileState Unit}

/-- What the engine reads of the baseline restates its target. -/
theorem reading_restates (haliases : env.pack.marketAliases = [env.aliasName]) {read : ParsedAction}
    (h : baseline.reading limits env.pack.marketAliases = some read) :
    read.Restates env.aliasName baseline.targetLev1e4 := by
  obtain ⟨hmarket, rfl⟩ := baseline.reading_eq_some h
  rw [haliases, List.mem_singleton] at hmarket
  exact ⟨by rw [hmarket], rfl⟩

/-- The target is within both leverage caps. -/
structure WithinCaps (env : ProfileEnv) (lev : ℤ) : Prop where
  aliases : env.pack.marketAliases = [env.aliasName]
  market : |lev| ≤ env.market.spec.leverageCapLev1e4
  gross : |lev| ≤ env.config.leverageCapGrossLev1e4

/-- **One turn of a baseline.** It fills the agent's order just where its bytes are read as an action
and the account does not rest. -/
theorem turnBody_agentFill_iff (hcaps : WithinCaps env baseline.targetLev1e4) {turn : ℕ}
    (h : turnBody sha limits env episodeId true (.agent baseline.agent) turn state = .ok next) :
    ∃ added, next.events = state.events ++ added ∧ (∀ e ∈ added, e.turn = some turn) ∧
      ((∃ e ∈ added, e.IsAgentFill env turn) ↔
        baseline.reading limits env.pack.marketAliases ≠ none ∧
          ¬ Rests env turn state.core.account baseline.targetLev1e4) := by
  obtain ⟨clock, drawdown, turnover, decision, asked, drafts, hclock, hdrawdown, hturnover, hdec,
    hsettle, hnext⟩ := turnBody_eq_ok h
  obtain ⟨-, rfl, -, hcloseTs⟩ := turnClock_eq_ok hclock
  have hclose : clock.decisionTs < clock.holdingCloseTs := by
    have := env.pack.decision_bar_pos
    omega
  obtain ⟨observation, s, -, hrequest, -⟩ := decideTurn_agent_eq_ok hdec
  have hparsed := baseline.requestDecision_reading hrequest
  obtain ⟨evidence, hevents, hevidence⟩ := decideTurn_events hdec
  obtain ⟨added, hadded, hmap⟩ := emitAll_eq_append state.events (evidence ++ drafts)
  obtain ⟨funded, coincident, traded, counters', orders, hfund, haction, hfills⟩ :=
    settleTurn_fills hclose hsettle
  refine ⟨added, ?_, ?_, ?_⟩
  · rw [← hadded, hnext, emitAll_append, ← hevents]
    rfl
  · intro e he
    have hd : e.toDraft ∈ evidence ++ drafts := hmap ▸ List.mem_map_of_mem he
    rcases List.mem_append.mp hd with hd | hd
    · exact (hevidence _ hd).2
    · exact (settleTurn_booked hsettle).stamped _ hd
  · have hadded_fill : (∃ e ∈ added, e.IsAgentFill env clock.turn) ↔ ∃ d ∈ orders, d.IsFill := by
      rw [← hfills]
      constructor
      · rintro ⟨e, he, -, ⟨f, hf⟩, clock', hclock', hts⟩
        obtain rfl := Except.ok.inj (hclock.symm.trans hclock')
        have hd : e.toDraft ∈ evidence ++ drafts := hmap ▸ List.mem_map_of_mem he
        refine ⟨e.toDraft, (List.mem_append.mp hd).resolve_left fun hd => ?_, ⟨f, hf⟩, hts⟩
        have hkind := (hevidence _ hd).1
        rw [hf] at hkind
        exact hkind.elim
      · rintro ⟨d, hd, hfill, hts⟩
        have hmem : d ∈ added.map Event.toDraft := hmap ▸ List.mem_append_right _ hd
        obtain ⟨e, he, rfl⟩ := List.mem_map.mp hmem
        exact ⟨e, he, (settleTurn_booked hsettle).stamped _ hd, hfill, clock, hclock, hts⟩
    rw [hadded_fill]
    obtain ⟨hnone, -, -, rfl⟩ | ⟨action, hread, hprocess⟩ := actionPhase_eq_ok haction
    · rw [← hparsed, hnone]
      simp
    · have hrestates := reading_restates hcaps.aliases (hparsed.symm.trans hread)
      obtain ⟨markRow, fillRow, profit, target, hmark, hrow, hprofit, htarget, hpos, hiff⟩ :=
        processAction_fills_iff hrestates hcaps.market hcaps.gross hprocess
      have hrests : Rests env clock.turn state.core.account baseline.targetLev1e4 ↔
          Unexecuted env funded baseline.targetLev1e4 fillRow target := by
        constructor
        · rintro ⟨clock', funded', _, markRow', fillRow', profit', target', hclock', hfund', hmark',
            hrow', hprofit', htarget', hunexecuted⟩
          obtain rfl := Except.ok.inj (hclock.symm.trans hclock')
          obtain rfl := (Prod.mk.inj (Except.ok.inj (hfund.symm.trans hfund'))).1
          obtain rfl := Option.some.inj (hmark.symm.trans hmark')
          obtain rfl := Option.some.inj (hrow.symm.trans hrow')
          obtain rfl := Except.ok.inj (hprofit.symm.trans hprofit')
          rwa [htarget.unique hpos (by have := env.market.spec.tick_size_pos; omega) htarget']
        · exact fun hunexecuted => ⟨clock, funded, coincident, markRow, fillRow, profit, target,
            hclock, hfund, hmark, hrow, hprofit, htarget, hunexecuted⟩
      rw [hrests, ← hparsed, hread]
      simpa [Draft.IsFill] using hiff

/-- **A run of a baseline.** The turns of a run that fill the agent's order are those that read an
action from its bytes and are entered by an account that does not rest. -/
theorem TurnReach.agentFill_iff (hcaps : WithinCaps env baseline.targetLev1e4) {s : Unit}
    (hstart : startState env s = .ok start) {n : ℕ}
    (h : TurnReach sha limits env episodeId true (.agent baseline.agent) start n last) (turn : ℕ) :
    (∃ e ∈ last.events, e.IsAgentFill env turn) ↔
      turn < n ∧ baseline.reading limits env.pack.marketAliases ≠ none ∧
        ∀ before, TurnReach sha limits env episodeId true (.agent baseline.agent) start turn before →
          ¬ Rests env turn before.core.account baseline.targetLev1e4 := by
  have stamped : (∀ e ∈ last.events, ∃ k < n, e.turn = some k) ∧
      ((∃ e ∈ last.events, e.IsAgentFill env turn) ↔
        turn < n ∧ baseline.reading limits env.pack.marketAliases ≠ none ∧
          ∀ before, TurnReach sha limits env episodeId true (.agent baseline.agent) start turn
            before → ¬ Rests env turn before.core.account baseline.targetLev1e4) := by
    induction h with
    | start =>
      obtain ⟨ts, first, -, -, rfl⟩ := startState_eq_ok hstart
      simp
    | @step t before after hreach hstop hbody ih =>
      obtain ⟨hold, ih⟩ := ih
      obtain ⟨added, hevents, hadded, hfills⟩ := turnBody_agentFill_iff hcaps hbody
      rw [hevents]
      refine ⟨fun e he => ?_, ?_⟩
      · rcases List.mem_append.mp he with he | he
        · obtain ⟨k, hk, hturn⟩ := hold e he
          exact ⟨k, by omega, hturn⟩
        · exact ⟨t, by omega, hadded e he⟩
      · have hsplit : (∃ e ∈ before.events ++ added, e.IsAgentFill env turn) ↔
            (∃ e ∈ before.events, e.IsAgentFill env turn) ∨ ∃ e ∈ added, e.IsAgentFill env turn := by
          simp only [List.mem_append, or_and_right, exists_or]
        rw [hsplit, ih]
        rcases lt_trichotomy turn t with hlt | rfl | hgt
        · have hnone : ¬ ∃ e ∈ added, e.IsAgentFill env turn := by
            rintro ⟨e, he, hturn, -⟩
            obtain rfl := Option.some.inj ((hadded e he).symm.trans hturn)
            exact lt_irrefl _ hlt
          simp [hnone, hlt, show turn < t + 1 by omega]
        · rw [hfills]
          simp only [lt_irrefl, false_and, false_or, Nat.lt_succ_self, true_and]
          exact and_congr_right fun _ =>
            ⟨fun hrests before' hreach' => hreach.unique hreach' ▸ hrests, fun h => h _ hreach⟩
        · have hnone : ¬ ∃ e ∈ added, e.IsAgentFill env turn := by
            rintro ⟨e, he, hturn, -⟩
            obtain rfl := Option.some.inj ((hadded e he).symm.trans hturn)
            exact lt_irrefl _ hgt
          simp [hnone, show ¬ turn < t by omega, show ¬ turn < t + 1 by omega]
  exact stamped.2

/-- **When a baseline holds its position.** In every run of a baseline within the leverage caps, no
order is filled after one that was filled completely just where every later turn is entered by an
account that rests. -/
theorem baseline_holds_iff {pack : PackData} {config : EpisodeConfig}
    (hprofile : profileEnv pack config PRIMARY = .ok env)
    (hmarket : |baseline.targetLev1e4| ≤ env.market.spec.leverageCapLev1e4)
    (hgross : |baseline.targetLev1e4| ≤ config.leverageCapGrossLev1e4)
    (hstart : startState env () = .ok start) {n : ℕ}
    (h : TurnReach sha limits env episodeId true (.agent baseline.agent) start n last) :
    (∀ k, (∃ e ∈ last.events, e.IsFullFill env k) → ∀ turn, k < turn →
      ¬ ∃ e ∈ last.events, e.IsAgentFill env turn) ↔
    ∀ k, (∃ e ∈ last.events, e.IsFullFill env k) → ∀ turn before, k < turn → turn < n →
      TurnReach sha limits env episodeId true (.agent baseline.agent) start turn before →
      Rests env turn before.core.account baseline.targetLev1e4 := by
  obtain ⟨rfl, rfl, haliases, -⟩ := profileEnv_eq_ok hprofile
  have hfills := TurnReach.agentFill_iff ⟨haliases, hmarket, hgross⟩ hstart h
  refine forall_congr' fun k => forall_congr' fun ⟨e, he, hfill, _⟩ => forall_congr' fun turn => ?_
  have hread := ((hfills k).mp ⟨e, he, hfill⟩).2.1
  rw [hfills turn]
  constructor
  · intro hheld before hk hn hreach
    by_contra hrests
    exact hheld hk ⟨hn, hread, fun before' hreach' => hreach.unique hreach' ▸ hrests⟩
  · rintro hrests hk ⟨hn, -, hmoves⟩
    obtain ⟨before, hreach⟩ := h.earlier hn.le
    exact hmoves before hreach (hrests before hk hn hreach)

end Loop

/-! ## Two baselines -/

namespace Scenario

/-- A price that stands still, in a market without costs. -/
def calm : Scenario :=
  ⟨.still 10_000, [.still 10_000, .still 10_000], [], 0, 0, 1_000_000, 1_000_000, 20_000,
    onePercent_pos, doubled_pos, unsettled_increasing⟩

/-- A price that rises by a tenth after the first fill. -/
def rally : Scenario :=
  ⟨.still 10_000, [.still 10_000, .still 11_000], [], 50_000, 45_000, 1_000_000, 1_000_000, 20_000,
    onePercent_pos, doubled_pos, unsettled_increasing⟩

abbrev buyhold : ConstantTargetAgent := ⟨10_000, ALIAS⟩

abbrev shorthold : ConstantTargetAgent := ⟨-10_000, ALIAS⟩

/-- The event fills an order. -/
def fills (e : Event) : Bool :=
  match e.payload with
  | .orderFilled _ => true
  | _ => false

/-- All of the order is filled. -/
def fillsAll (e : Event) : Bool :=
  match e.payload with
  | .orderFilled f => f.qtyBase1e8 = f.requestedQtyBase1e8
  | _ => false

theorem fills_iff {e : Event} : fills e = true ↔ ∃ f, e.payload = .orderFilled f := by
  unfold fills
  split
  · rename_i f hf
    simp [hf]
  · rename_i hne
    simpa using hne

theorem isFullFill_of_fillsAll {env : ProfileEnv} {turn : ℕ} {e : Event}
    (hturn : e.turn = some turn)
    (hclock : ∃ clock, turnClock env turn = .ok clock ∧ e.ts = clock.decisionTs)
    (h : fillsAll e = true) : e.IsFullFill env turn := by
  unfold fillsAll at h
  split at h
  · rename_i f hf
    exact ⟨⟨hturn, ⟨f, hf⟩, hclock⟩, f, hf, of_decide_eq_true h⟩
  · cases h

end Scenario

/-- A long at a price that stands still rests in its second turn. -/
theorem calm_buyhold_rests :
    let env := Scenario.calm.env (Scenario.config 50_000_000) 10_000
    let source : DecisionSource Unit := .agent Scenario.buyhold.agent
    ∃ start before last, startState env () = .ok start ∧
      TurnReach Scenario.sha Scenario.limits env Scenario.EPISODE_ID true source start 1 before ∧
      TurnReach Scenario.sha Scenario.limits env Scenario.EPISODE_ID true source start 2 last ∧
      (∃ e ∈ last.events, e.IsFullFill env 0) ∧ Rests env 1 before.core.account 10_000 := by
  intro env source
  have returned : Returns (do
      let body := turnBody Scenario.sha Scenario.limits env Scenario.EPISODE_ID true source
      let start ← startState env ()
      let before ← body 0 start
      let last ← body 1 before
      let clock ← turnClock env 0
      require (start.stopped = false ∧ before.stopped = false ∧
        (∃ e ∈ last.events, (e.turn = some 0 ∧ e.ts = clock.decisionTs) ∧
          Scenario.fillsAll e = true) ∧
        ∀ e ∈ last.events, Scenario.fills e = true → e.turn = some 0) (.engineError "not held")
      return (start, before, last, clock)) := by decide +kernel
  obtain ⟨_, returned⟩ := returned
  simp only [bind_ok_iff, require_eq_ok] at returned
  obtain ⟨start, hstart, before, hbefore, last, hlast, clock, hclock, _,
    ⟨hrun, hrun', ⟨e, he, ⟨hturn, hts⟩, hfull⟩, hheld⟩, -⟩ := returned
  have hreach : TurnReach Scenario.sha Scenario.limits env Scenario.EPISODE_ID true source start 1
      before := .step .start hrun hbefore
  have hfirst : ∃ e ∈ last.events, e.IsFullFill env 0 :=
    ⟨e, he, Scenario.isFullFill_of_fillsAll hturn ⟨clock, hclock, hts⟩ hfull⟩
  refine ⟨start, before, last, hstart, hreach, .step hreach hrun' hlast, hfirst, ?_⟩
  have hholds := baseline_holds_iff (Scenario.calm.profileEnv_primary _) (by decide) (by decide)
    hstart (.step hreach hrun' hlast)
  refine hholds.mp ?_ 0 hfirst 1 before (by decide) (by decide) hreach
  rintro k - turn hk ⟨e', he', hturn', hfills, -⟩
  have hzero := hheld e' he' (Scenario.fills_iff.mpr hfills)
  rw [hturn', Option.some.injEq] at hzero
  omega

/-- A short rebalances when the price rises: its second turn buys back what its equity no longer
carries. -/
theorem rally_shorthold_rebalances :
    let env := Scenario.rally.env (Scenario.config 50_000_000) 10_000
    let source : DecisionSource Unit := .agent Scenario.shorthold.agent
    ∃ start last, profileEnv Scenario.rally.pack (Scenario.config 50_000_000) PRIMARY = .ok env ∧
      |Scenario.shorthold.targetLev1e4| ≤ env.market.spec.leverageCapLev1e4 ∧
      |Scenario.shorthold.targetLev1e4| ≤ env.config.leverageCapGrossLev1e4 ∧
      startState env () = .ok start ∧
      TurnReach Scenario.sha Scenario.limits env Scenario.EPISODE_ID true source start 2 last ∧
      (∃ e ∈ last.events, e.IsFullFill env 0) ∧ ∃ e ∈ last.events, e.IsAgentFill env 1 := by
  intro env source
  have returned : Returns (do
      let body := turnBody Scenario.sha Scenario.limits env Scenario.EPISODE_ID true source
      let start ← startState env ()
      let before ← body 0 start
      let last ← body 1 before
      let first ← turnClock env 0
      let second ← turnClock env 1
      require (start.stopped = false ∧ before.stopped = false ∧
        (∃ e ∈ last.events, (e.turn = some 0 ∧ e.ts = first.decisionTs) ∧ Scenario.fillsAll e = true) ∧
        ∃ e ∈ last.events, (e.turn = some 1 ∧ e.ts = second.decisionTs) ∧ Scenario.fills e = true)
        (.engineError "held")
      return (start, before, last, first, second)) := by decide +kernel
  obtain ⟨_, returned⟩ := returned
  simp only [bind_ok_iff, require_eq_ok] at returned
  obtain ⟨start, hstart, before, hbefore, last, hlast, first, hfirst, second, hsecond, _,
    ⟨hrun, hrun', ⟨e, he, ⟨hturn, hts⟩, hfull⟩, e', he', ⟨hturn', hts'⟩, hagain⟩, -⟩ := returned
  exact ⟨start, last, Scenario.rally.profileEnv_primary _, by decide, by decide, hstart,
    .step (.step .start hrun hbefore) hrun' hlast,
    ⟨e, he, Scenario.isFullFill_of_fillsAll hturn ⟨first, hfirst, hts⟩ hfull⟩,
    e', he', hturn', Scenario.fills_iff.mp hagain, second, hsecond, hts'⟩

end WagmiBench.Core
