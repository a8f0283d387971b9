import WagmiBench.Core.Engine.Episode

/-!
# What a finished phase did

One lemma for each phase of a turn: from a phase that returned, what it computed and which of its
branches ran. Every later fact about a turn is derived from these, never from the definitions.
-/

namespace WagmiBench.Core

open WagmiBench.Lib WagmiBench.Harness WagmiBench.Spec

/-! ## Arithmetic -/

theorem notionalMicro_eq_ok {qty px tick n : ℤ} :
    notionalMicro qty px tick = .ok n ↔
      (0 < px ∧ 0 < tick) ∧ n = |qty| * px * tick / QTY_SCALE := by
  simp only [notionalMicro, bind_ok_iff, require_eq_ok, pure_eq_ok, Except.ok.injEq]
  constructor
  · rintro ⟨-, h, rfl⟩
    exact ⟨h, rfl⟩
  · rintro ⟨h, rfl⟩
    exact ⟨(), h, rfl⟩

theorem unrealizedPnlMicro_eq_ok {qty entry mark tick u : ℤ} :
    unrealizedPnlMicro qty entry mark tick = .ok u ↔
      (0 < entry ∧ 0 < mark ∧ 0 < tick) ∧ u = (mark - entry) * qty * tick / QTY_SCALE := by
  simp only [unrealizedPnlMicro, bind_ok_iff, require_eq_ok, pure_eq_ok, Except.ok.injEq]
  constructor
  · rintro ⟨-, h, rfl⟩
    exact ⟨h, rfl⟩
  · rintro ⟨h, rfl⟩
    exact ⟨(), h, rfl⟩

theorem liquidationPriceTicks_eq_ok {entry positionSign lev rate px : ℤ}
    (h : liquidationPriceTicks entry positionSign lev rate = .ok px) :
    0 < entry ∧ (positionSign = -1 ∨ positionSign = 1) ∧ 0 < lev ∧ 0 ≤ rate ∧ rate < RATE_SCALE := by
  simp only [liquidationPriceTicks, bind_ok_iff, require_eq_ok] at h
  obtain ⟨-, h₁, -, h₂, -, h₃, -, h₄, -⟩ := h
  exact ⟨h₁, h₂, h₃, h₄.1, h₄.2⟩

theorem liquidationCrossed_eq_ok {qty liqPx high low : ℤ} {crossed : Bool}
    (h : liquidationCrossed qty liqPx high low = .ok crossed) :
    0 < high ∧ 0 < low ∧ low ≤ high ∧
      (crossed = true ↔ (0 < qty ∧ 0 < liqPx ∧ low ≤ liqPx) ∨ (qty < 0 ∧ liqPx ≤ high)) := by
  simp only [liquidationCrossed, bind_ok_iff, require_eq_ok] at h
  obtain ⟨-, ⟨h₁, h₂⟩, -, h₃, h⟩ := h
  refine ⟨h₁, h₂, h₃, ?_⟩
  split at h
  · rename_i hq
    obtain rfl := Except.ok.inj h
    simp only [decide_eq_true_eq]
    omega
  · split at h
    · obtain rfl := Except.ok.inj h
      simp only [decide_eq_true_eq]
      omega
    · obtain rfl := Except.ok.inj h
      simp only [Bool.false_eq_true, false_iff]
      omega

theorem sign_of_ne_zero {q : ℤ} (hq : q ≠ 0) : sign q = -1 ∨ sign q = 1 := by
  unfold sign
  rcases lt_trichotomy q 0 with h | h | h
  · exact .inl (by simp [h, not_lt.mpr h.le])
  · exact absurd h hq
  · exact .inr (by simp [h])

theorem sign_eq_neg_one {q : ℤ} : sign q = -1 ↔ q < 0 := by
  unfold sign
  split
  · omega
  · split <;> simp_all

theorem sign_pos_iff {q : ℤ} : 0 < sign q ↔ 0 < q := by
  unfold sign
  split
  · simpa
  · split <;> simp_all

theorem turnover1e8_eq_ok {notional startingNav t : ℤ} :
    turnover1e8 notional startingNav = .ok t ↔
      (0 ≤ notional ∧ 0 < startingNav) ∧ t = ⌊((notional * RATE_SCALE : ℤ) : ℚ) / startingNav⌋ := by
  simp only [turnover1e8, bind_ok_iff, require_eq_ok, pure_eq_ok, Except.ok.injEq,
    floorFraction_eq_floor]
  constructor
  · rintro ⟨-, h₁, -, h₂, rfl⟩
    exact ⟨⟨h₁, h₂⟩, rfl⟩
  · rintro ⟨⟨h₁, h₂⟩, rfl⟩
    exact ⟨(), h₁, (), h₂, rfl⟩

theorem rowAt_eq_ok {rows : List BarRow} {i : ℕ} {row : BarRow} :
    rowAt rows i = .ok row ↔ rows[i]? = some row := by
  unfold rowAt
  cases rows[i]? <;> simp

/-! ## Funding -/

/-- A settlement moves cash and the funding total by its flow, and nothing else. -/
theorem appliedFunding_eq_ok {account after : Account} {market : MarketData} {row : FundingRow}
    {rate indexPx flow : ℤ}
    (h : appliedFunding account market row = .ok (rate, indexPx, flow, after)) :
    clampFundingRate1e8 row.rate1e8 market.spec.funding.floor1e8 market.spec.funding.cap1e8 =
        .ok rate ∧
      (∃ indexRow, market.index.find? (fun r => r.ts = row.ts) = some indexRow ∧
        indexPx = indexRow.o) ∧
      fundingCashFlowMicro account.positionQtyBase1e8 indexPx market.spec.tickSizeMicro rate =
        .ok flow ∧
      after = { account with
        cashMicro := account.cashMicro + flow
        fundingCumMicro := account.fundingCumMicro - flow } := by
  simp only [appliedFunding, bind_ok_iff] at h
  obtain ⟨rate', hrate, h⟩ := h
  split at h
  · simp at h
  · rename_i indexRow hindex
    simp only [bind_ok_iff, pure_eq_ok, Except.ok.injEq, Prod.mk.injEq] at h
    obtain ⟨flow', hflow, rfl, rfl, rfl, rfl⟩ := h
    exact ⟨hrate, ⟨indexRow, hindex, rfl⟩, hflow, rfl⟩

section Phases

variable {env : ProfileEnv} {clock : TurnClock} {account after : Account} {drafts : List Draft}
  {collectEvidence : Bool}

/-- The event of one settlement. -/
def fundingDraft (env : ProfileEnv) (clock : TurnClock) (ts rate indexPx flow : ℤ)
    (account : Account) : Draft :=
  engineDraft ts clock.turn (clock.turn + 1) (.fundingApplied
    ⟨env.aliasName, ts, rate, indexPx, account.positionQtyBase1e8, flow⟩)

theorem settleFunding_eq_ok {ts : ℤ} {row : FundingRow} {draft : Draft}
    (h : settleFunding env clock ts row account = .ok (after, draft)) :
    ∃ rate indexPx flow, appliedFunding account env.market row = .ok (rate, indexPx, flow, after) ∧
      draft = fundingDraft env clock ts rate indexPx flow after := by
  simp only [settleFunding, bind_ok_iff] at h
  obtain ⟨⟨rate, indexPx, flow, next⟩, happly, h⟩ := h
  simp only [pure_eq_ok, Except.ok.injEq, Prod.mk.injEq] at h
  obtain ⟨rfl, rfl⟩ := h
  exact ⟨rate, indexPx, flow, happly, rfl⟩

theorem coincidentFunding_eq_ok
    (h : coincidentFunding env clock account = .ok (after, drafts)) :
    (env.market.funding.find? (fun row => row.ts = clock.decisionTs) = none ∧ after = account ∧
        drafts = []) ∨
      ∃ row draft, env.market.funding.find? (fun row => row.ts = clock.decisionTs) = some row ∧
        settleFunding env clock clock.decisionTs row account = .ok (after, draft) ∧
        drafts = [draft] := by
  unfold coincidentFunding at h
  split at h
  · rename_i hnone
    simp only [Except.ok.injEq, Prod.mk.injEq] at h
    exact .inl ⟨hnone, h.1.symm, h.2.symm⟩
  · rename_i row hrow
    simp only [bind_ok_iff] at h
    obtain ⟨⟨next, draft⟩, hsettle, h⟩ := h
    simp only [pure_eq_ok, Except.ok.injEq, Prod.mk.injEq] at h
    obtain ⟨rfl, rfl⟩ := h
    exact .inr ⟨row, draft, hrow, hsettle, rfl⟩

/-- A settlement inside the holding bar, or a row outside it. -/
theorem holdingFunding_cons_eq_ok {row : FundingRow} {rows : List FundingRow}
    (h : holdingFunding env clock (row :: rows) account = .ok (after, drafts)) :
    (∃ next draft rest, settleFunding env clock row.ts row account = .ok (next, draft) ∧
        holdingFunding env clock rows next = .ok (after, rest) ∧ drafts = draft :: rest) ∨
      holdingFunding env clock rows account = .ok (after, drafts) := by
  rw [holdingFunding] at h
  split at h
  · simp only [bind_ok_iff] at h
    obtain ⟨⟨next, draft⟩, hsettle, ⟨last, rest⟩, hrest, h⟩ := h
    simp only [pure_eq_ok, Except.ok.injEq, Prod.mk.injEq] at h
    obtain ⟨rfl, rfl⟩ := h
    exact .inl ⟨next, draft, rest, hsettle, hrest, rfl⟩
  · exact .inr h

/-! ## Orders -/

/-- The fill an unblocked order is priced at. -/
def orderFill (env : ProfileEnv) (sizing : Sizing) (fillRow : BarRow) : Py FillCalculation :=
  calculateFill (if 0 < sizing.requestedDelta then .buy else .sell) |sizing.requestedDelta|
    fillRow.vBase1e8 env.market.spec.participationCap1e8 env.market.spec.qtyStepBase1e8 fillRow.o
    env.market.spec.tickSizeMicro env.market.spec.halfSpread1e8 env.market.spec.impactCoeff1e8
    env.market.spec.impactModel env.market.spec.takerFeeRate1e8 env.multiplier

/-- The account after an executed fill. -/
def filledAccount (env : ProfileEnv) (account : Account) (sizing : Sizing)
    (fill : FillCalculation) : Py Account :=
  applyPositionFill account fill.signedQty fill.fillPxTicks sizing.targetLev fill.feeMicro
    fill.notionalMicro fill.referenceNotionalMicro
    (decide (fill.quantities.cancelledQtyBase1e8 = 0)) env.market.spec

theorem executeOrder_eq_ok {action : ParsedAction} {sizing : Sizing}
    (h : executeOrder env clock account action sizing = .ok (after, drafts)) :
    ∃ fillRow fill, env.market.trade[clock.fillAbs]? = some fillRow ∧
      orderFill env sizing fillRow = .ok fill ∧
      ((∃ reason, cancelReason env fill action = some reason ∧ after = account ∧
          drafts = [fullCancel env clock reason |sizing.requestedDelta|]) ∨
        (cancelReason env fill action = none ∧ filledAccount env account sizing fill = .ok after ∧
          drafts = orderDraft clock (filledPayload env fill |sizing.requestedDelta|) ::
            partialCancel env clock fill |sizing.requestedDelta| fillRow.vBase1e8)) := by
  simp only [executeOrder, bind_ok_iff, rowAt_eq_ok] at h
  obtain ⟨fillRow, hrow, fill, hfill, h⟩ := h
  refine ⟨fillRow, fill, hrow, hfill, ?_⟩
  split at h
  · rename_i reason hreason
    simp only [pure_eq_ok, Except.ok.injEq, Prod.mk.injEq] at h
    exact .inl ⟨reason, hreason, h.1.symm, h.2.symm⟩
  · rename_i hreason
    simp only [bind_ok_iff, pure_eq_ok, Except.ok.injEq, Prod.mk.injEq] at h
    obtain ⟨next, hnext, rfl, rfl⟩ := h
    exact .inr ⟨hreason, hnext, rfl⟩

theorem orderPhase_eq_ok {blocked : Bool} {action : ParsedAction} {sizing : Sizing}
    (h : orderPhase env clock collectEvidence blocked account action sizing = .ok (after, drafts)) :
    (blocked = true ∧ after = account ∧ drafts = []) ∨
      (blocked = false ∧ sizing.requestedDelta ≠ 0 ∧
        executeOrder env clock account action sizing = .ok (after, drafts)) ∨
      (blocked = false ∧ sizing.requestedDelta = 0 ∧
        relabel env clock collectEvidence account sizing = (after, drafts)) := by
  unfold orderPhase at h
  split at h
  · rename_i hb
    simp only [Except.ok.injEq, Prod.mk.injEq] at h
    exact .inl ⟨hb, h.1.symm, h.2.symm⟩
  · rename_i hb
    split at h
    · rename_i hd
      exact .inr (.inl ⟨by simpa using hb, hd, h⟩)
    · rename_i hd
      exact .inr (.inr ⟨by simpa using hb, not_not.mp hd, Except.ok.inj h⟩)

/-- Some gate failed. -/
def anyFailed (checks : List RiskCheck) : Bool := checks.any fun c => !c.passed

theorem processAction_eq_ok {counters counters' : Counters} {action : ParsedAction}
    {rawSha256 : Option Text} {drawdownUsed : ℤ}
    (h : processAction env clock collectEvidence account counters action rawSha256 drawdownUsed =
      .ok (after, counters', drafts)) :
    ∃ sizing orderDrafts, sizeAction env clock account action = .ok sizing ∧
      let checks := riskChecks env account sizing drawdownUsed
      let postKill := anyFailed checks && account.killSwitchActive && decide (sizing.targetLev ≠ 0)
      orderPhase env clock collectEvidence (anyFailed checks) account action sizing =
        .ok (after, orderDrafts) ∧
      counters' = countGates counters checks postKill ∧
      drafts = gateDrafts clock checks postKill action rawSha256 ++ orderDrafts := by
  simp only [processAction, bind_ok_iff] at h
  obtain ⟨sizing, hsizing, ⟨next, orderDrafts⟩, horder, h⟩ := h
  simp only [pure_eq_ok, Except.ok.injEq, Prod.mk.injEq] at h
  obtain ⟨rfl, rfl, rfl⟩ := h
  exact ⟨sizing, orderDrafts, hsizing, horder, rfl, rfl⟩

/-! ## Closing a position -/

theorem liquidate_eq_ok {mark : BarRow} {liqPx : ℤ} {draft : Draft}
    (h : liquidate env clock account mark liqPx = .ok (after, draft)) :
    ∃ realized penalty notional,
      realizedPnlMicro (sign account.positionQtyBase1e8) |account.positionQtyBase1e8|
        account.entryPxTicks (adverse account mark) env.market.spec.tickSizeMicro =
        .ok realized ∧
      liquidationPenaltyMicro account.positionQtyBase1e8 (adverse account mark)
        env.market.spec.tickSizeMicro env.market.spec.liquidationPenalty1e8 = .ok penalty ∧
      notional = |account.positionQtyBase1e8| * adverse account mark *
        env.market.spec.tickSizeMicro / QTY_SCALE ∧
      after = { account.flat with
        cashMicro := account.cashMicro + (realized - penalty)
        realizedPriceCumMicro := account.realizedPriceCumMicro + realized
        liquidationPenaltyCumMicro := account.liquidationPenaltyCumMicro + penalty
        turnoverNotionalMicro := account.turnoverNotionalMicro + notional } ∧
      draft = closeDraft clock (.liquidationTriggered
        ⟨env.aliasName, adverseTrigger account, adverse account mark, liqPx, adverse account mark,
          account.positionQtyBase1e8, penalty, realized - penalty⟩) := by
  simp only [liquidate, bind_ok_iff, notionalMicro_eq_ok] at h
  obtain ⟨realized, hrealized, penalty, hpenalty, notional, ⟨-, rfl⟩, h⟩ := h
  simp only [pure_eq_ok, Except.ok.injEq, Prod.mk.injEq] at h
  obtain ⟨rfl, rfl⟩ := h
  exact ⟨realized, penalty, _, hrealized, hpenalty, rfl, rfl, rfl⟩

theorem triggerPrice_eq_ok {mark : BarRow} {liqPx : ℤ}
    (h : triggerPrice env account mark = .ok liqPx) :
    0 < mark.c ∧
      liquidationPriceTicks account.entryPxTicks (sign account.positionQtyBase1e8)
        account.targetLeverage1e4 (maintenanceRate env.market.spec
          (|account.positionQtyBase1e8| * mark.c * env.market.spec.tickSizeMicro / QTY_SCALE)) =
        .ok liqPx := by
  simp only [triggerPrice, bind_ok_iff, notionalMicro_eq_ok] at h
  obtain ⟨_, ⟨hpos, rfl⟩, h⟩ := h
  exact ⟨hpos.1, h⟩

theorem adverse_pos {mark : BarRow} (hh : 0 < mark.h) (hl : 0 < mark.l) :
    0 < adverse account mark := by
  unfold adverse
  split <;> assumption

theorem liquidationPhase_eq_ok {liquidated : Bool}
    (h : liquidationPhase env clock account = .ok (after, liquidated, drafts)) :
    (account.positionQtyBase1e8 = 0 ∧ after = account ∧ liquidated = false ∧ drafts = []) ∨
      (account.positionQtyBase1e8 ≠ 0 ∧ ∃ mark liqPx,
        env.market.mark[clock.fillAbs]? = some mark ∧ triggerPrice env account mark = .ok liqPx ∧
        ((liquidationCrossed account.positionQtyBase1e8 liqPx mark.h mark.l = .ok true ∧
            liquidated = true ∧
            ∃ draft, liquidate env clock account mark liqPx = .ok (after, draft) ∧
              drafts = [draft]) ∨
          (liquidationCrossed account.positionQtyBase1e8 liqPx mark.h mark.l = .ok false ∧
            liquidated = false ∧ after = account ∧
            ∃ distance, distanceToLiquidation1e8 (adverse account mark) liqPx
                (sign account.positionQtyBase1e8) = .ok distance ∧
              drafts = nearLiquidationDrafts env clock account mark liqPx distance))) := by
  unfold liquidationPhase at h
  split at h
  · rename_i hq
    simp only [Except.ok.injEq, Prod.mk.injEq] at h
    exact .inl ⟨hq, h.1.symm, h.2.1.symm, h.2.2.symm⟩
  · rename_i hq
    simp only [bind_ok_iff, rowAt_eq_ok] at h
    obtain ⟨mark, hmark, liqPx, hliq, crossed, hcrossed, h⟩ := h
    refine .inr ⟨hq, mark, liqPx, hmark, hliq, ?_⟩
    cases crossed with
    | true =>
      simp only [if_true, bind_ok_iff] at h
      obtain ⟨⟨next, draft⟩, hl, h⟩ := h
      simp only [pure_eq_ok, Except.ok.injEq, Prod.mk.injEq] at h
      obtain ⟨rfl, rfl, rfl⟩ := h
      exact .inl ⟨hcrossed, rfl, draft, hl, rfl⟩
    | false =>
      simp only [Bool.false_eq_true, if_false, bind_ok_iff] at h
      obtain ⟨distance, hdistance, h⟩ := h
      simp only [pure_eq_ok, Except.ok.injEq, Prod.mk.injEq] at h
      obtain ⟨rfl, rfl, rfl⟩ := h
      exact .inr ⟨hcrossed, rfl, rfl, distance, hdistance, rfl⟩

theorem flatten_eq_ok {draft : Draft} (h : flatten env clock account = .ok (after, draft)) :
    ∃ mark fee realized, env.market.mark[clock.fillAbs]? = some mark ∧
      (∃ rate, applyCostMultiplier env.market.spec.takerFeeRate1e8 env.multiplier = .ok rate ∧
        feeMicro (|account.positionQtyBase1e8| * mark.c * env.market.spec.tickSizeMicro / QTY_SCALE)
          rate = .ok fee) ∧
      realizedPnlMicro (sign account.positionQtyBase1e8) |account.positionQtyBase1e8|
        account.entryPxTicks mark.c env.market.spec.tickSizeMicro = .ok realized ∧
      let notional := |account.positionQtyBase1e8| * mark.c * env.market.spec.tickSizeMicro /
        QTY_SCALE
      after = { account.flat with
        cashMicro := account.cashMicro + (realized - fee)
        realizedPriceCumMicro := account.realizedPriceCumMicro + realized
        feesCumMicro := account.feesCumMicro + fee
        turnoverNotionalMicro := account.turnoverNotionalMicro + notional } ∧
      draft = closeDraft clock (.orderFilled
        ⟨env.aliasName, if 0 < account.positionQtyBase1e8 then .sell else .buy,
          |account.positionQtyBase1e8|, |account.positionQtyBase1e8|, mark.c, 0, 0, mark.c,
          notional, fee, 0⟩) := by
  simp only [flatten, bind_ok_iff, notionalMicro_eq_ok, rowAt_eq_ok] at h
  obtain ⟨mark, hmark, notional, ⟨-, rfl⟩, rate, hrate, fee, hfee, realized, hrealized, h⟩ := h
  simp only [pure_eq_ok, Except.ok.injEq, Prod.mk.injEq] at h
  obtain ⟨rfl, rfl⟩ := h
  exact ⟨mark, fee, realized, hmark, ⟨rate, hrate, hfee⟩, hrealized, rfl, rfl⟩

theorem marginDrafts_eq_ok (h : marginDrafts env clock collectEvidence account = .ok drafts) :
    (collectEvidence = false ∧ drafts = []) ∨
      (collectEvidence = true ∧ ∃ payload, marginPayload env clock account = .ok payload ∧
        drafts = [closeDraft clock (.marginUpdate payload)]) := by
  unfold marginDrafts at h
  cases collectEvidence with
  | false =>
    simp only [Bool.false_eq_true, if_false, Except.ok.injEq] at h
    exact .inl ⟨rfl, h.symm⟩
  | true =>
    simp only [if_true, bind_ok_iff, pure_eq_ok, Except.ok.injEq] at h
    obtain ⟨payload, hp, rfl⟩ := h
    exact .inr ⟨rfl, payload, hp, rfl⟩

theorem killSwitchPhase_eq_ok {terminal killed : Bool} {snapshots snapshots' : SnapshotLog}
    {nextSeq : ℕ}
    (h : killSwitchPhase env clock collectEvidence terminal account snapshots nextSeq =
      .ok (after, killed, snapshots', drafts)) :
    ∃ drawdown, drawdown1e8 snapshots = .ok drawdown ∧
      let triggers := terminal = false ∧ account.killSwitchActive = false ∧
        env.config.drawdownKillSwitch1e8 ≤ drawdown
      ((¬ triggers ∧ after = account ∧ killed = false ∧ snapshots' = snapshots ∧ drafts = []) ∨
        (triggers ∧ account.positionQtyBase1e8 = 0 ∧ after = account.kill ∧ killed = true ∧
          snapshots' = snapshots ∧ drafts = [killDraft env clock snapshots drawdown []]) ∨
        (triggers ∧ account.positionQtyBase1e8 ≠ 0 ∧ killed = true ∧
          ∃ flat filled s margin, flatten env clock account = .ok (flat, filled) ∧
            snapshot flat env.market clock.fillAbs (clock.turn + 1)
              (some clock.holdingCloseTs) = .ok s ∧
            marginDrafts env clock collectEvidence flat = .ok margin ∧
            after = flat.kill ∧ snapshots' = snapshots.replaceLast s ∧
            drafts = filled :: margin ++
              [killDraft env clock snapshots drawdown [nextSeq]])) := by
  simp only [killSwitchPhase, bind_ok_iff] at h
  obtain ⟨drawdown, hdrawdown, h⟩ := h
  refine ⟨drawdown, hdrawdown, ?_⟩
  split at h
  · rename_i htriggers
    split at h
    · rename_i hq
      simp only [bind_ok_iff] at h
      obtain ⟨⟨flat, filled⟩, hflat, s, hs, margin, hmargin, h⟩ := h
      simp only [pure_eq_ok, Except.ok.injEq, Prod.mk.injEq] at h
      obtain ⟨rfl, rfl, rfl, rfl⟩ := h
      exact .inr (.inr ⟨htriggers, hq, rfl, flat, filled, s, margin, hflat, hs, hmargin, rfl, rfl,
        rfl⟩)
    · rename_i hq
      simp only [pure_eq_ok, Except.ok.injEq, Prod.mk.injEq] at h
      obtain ⟨rfl, rfl, rfl, rfl⟩ := h
      exact .inr (.inl ⟨htriggers, not_not.mp hq, rfl, rfl, rfl, rfl⟩)
  · rename_i htriggers
    simp only [pure_eq_ok, Except.ok.injEq, Prod.mk.injEq] at h
    obtain ⟨rfl, rfl, rfl, rfl⟩ := h
    exact .inl ⟨htriggers, rfl, rfl, rfl, rfl⟩

/-! ## Turns -/

theorem actionPhase_eq_ok {counters counters' : Counters} {decision : TurnDecision}
    {drawdownUsed : ℤ}
    (h : actionPhase env clock collectEvidence account counters decision drawdownUsed =
      .ok (after, counters', drafts)) :
    (decision.parsed = none ∧ after = account ∧ counters' = counters ∧ drafts = []) ∨
      ∃ action, decision.parsed = some action ∧
        processAction env clock collectEvidence account counters action decision.rawSha256
          drawdownUsed = .ok (after, counters', drafts) := by
  unfold actionPhase at h
  split at h
  · rename_i action haction
    exact .inr ⟨action, haction, h⟩
  · rename_i hnone
    simp only [Except.ok.injEq, Prod.mk.injEq] at h
    exact .inl ⟨hnone, h.1.symm, h.2.1.symm, h.2.2.symm⟩

theorem openPhase_eq_ok {counters counters' : Counters} {decision : TurnDecision}
    {drawdownUsed : ℤ}
    (h : openPhase env clock collectEvidence account counters decision drawdownUsed =
      .ok (after, counters', drafts)) :
    ∃ funded traded coincident orders inside,
      coincidentFunding env clock account = .ok (funded, coincident) ∧
      actionPhase env clock collectEvidence funded (countDecision clock counters decision).1 decision
        drawdownUsed = .ok (traded, counters', orders) ∧
      holdingFunding env clock env.market.funding traded = .ok (after, inside) ∧
      drafts = (countDecision clock counters decision).2 :: coincident ++ orders ++ inside := by
  simp only [openPhase, bind_ok_iff] at h
  obtain ⟨⟨funded, coincident⟩, hc, ⟨traded, counters'', orders⟩, ha, ⟨last, inside⟩, hi, h⟩ := h
  simp only [pure_eq_ok, Except.ok.injEq, Prod.mk.injEq] at h
  obtain ⟨rfl, rfl, rfl⟩ := h
  exact ⟨funded, traded, coincident, orders, inside, hc, ha, hi, rfl⟩

/-- What the three ways of changing an account before the close have to preserve. -/
structure OpenStep (env : ProfileEnv) (clock : TurnClock) (collectEvidence : Bool)
    (P : Account → Prop) : Prop where
  funding : ∀ {ts row a b draft}, settleFunding env clock ts row a = .ok (b, draft) → P a → P b
  fill : ∀ {a b action sizing fillRow fill}, sizeAction env clock a action = .ok sizing →
    sizing.requestedDelta ≠ 0 → env.market.trade[clock.fillAbs]? = some fillRow →
    orderFill env sizing fillRow = .ok fill → cancelReason env fill action = none →
    filledAccount env a sizing fill = .ok b → P a → P b
  label : ∀ {a b action sizing drafts}, sizeAction env clock a action = .ok sizing →
    sizing.requestedDelta = 0 → relabel env clock collectEvidence a sizing = (b, drafts) →
    P a → P b

theorem holdingFunding_rule {P : Account → Prop} (h : OpenStep env clock collectEvidence P)
    {rows : List FundingRow} (hrun : holdingFunding env clock rows account = .ok (after, drafts))
    (hP : P account) : P after := by
  induction rows generalizing account drafts with
  | nil =>
    simp only [holdingFunding, Except.ok.injEq, Prod.mk.injEq] at hrun
    exact hrun.1 ▸ hP
  | cons row rows ih =>
    obtain ⟨next, draft, rest, hsettle, hrest, -⟩ | hrest := holdingFunding_cons_eq_ok hrun
    · exact ih hrest (h.funding hsettle hP)
    · exact ih hrest hP

theorem actionPhase_rule {P : Account → Prop} (h : OpenStep env clock collectEvidence P)
    {counters counters' : Counters} {decision : TurnDecision} {drawdownUsed : ℤ}
    (hrun : actionPhase env clock collectEvidence account counters decision drawdownUsed =
      .ok (after, counters', drafts)) (hP : P account) : P after := by
  obtain ⟨-, rfl, -, -⟩ | ⟨action, -, hrun⟩ := actionPhase_eq_ok hrun
  · exact hP
  · obtain ⟨sizing, orderDrafts, hsizing, horder, -, -⟩ := processAction_eq_ok hrun
    obtain ⟨-, rfl, -⟩ | ⟨-, hdelta, horder⟩ | ⟨-, hdelta, hrelabel⟩ := orderPhase_eq_ok horder
    · exact hP
    · obtain ⟨fillRow, fill, hrow, hfill, ⟨_, -, rfl, -⟩ | ⟨hreason, hfilled, -⟩⟩ :=
        executeOrder_eq_ok horder
      · exact hP
      · exact h.fill hsizing hdelta hrow hfill hreason hfilled hP
    · exact h.label hsizing hdelta hrelabel hP

/-- **Invariant rule of the opening phases.** -/
theorem openPhase_rule {P : Account → Prop} (h : OpenStep env clock collectEvidence P)
    {counters counters' : Counters} {decision : TurnDecision} {drawdownUsed : ℤ}
    (hrun : openPhase env clock collectEvidence account counters decision drawdownUsed =
      .ok (after, counters', drafts)) (hP : P account) : P after := by
  obtain ⟨funded, traded, coincident, orders, inside, hfund, haction, hinside, -⟩ :=
    openPhase_eq_ok hrun
  have hfunded : P funded := by
    obtain ⟨-, rfl, -⟩ | ⟨row, draft, -, hsettle, -⟩ := coincidentFunding_eq_ok hfund
    · exact hP
    · exact h.funding hsettle hP
  exact holdingFunding_rule h hinside (actionPhase_rule h haction hfunded)

/-- A relabelled account differs in its label at most. -/
theorem relabel_eq {sizing : Sizing}
    (h : relabel env clock collectEvidence account sizing = (after, drafts)) :
    after = { account with targetLeverage1e4 := after.targetLeverage1e4 } ∧
      (after.targetLeverage1e4 = account.targetLeverage1e4 ∨
        (account.positionQtyBase1e8 ≠ 0 ∧ after.targetLeverage1e4 = |sizing.targetLev|)) := by
  unfold relabel at h
  split at h
  · obtain ⟨rfl, -⟩ := Prod.mk.inj h
    exact ⟨rfl, .inl rfl⟩
  · split at h
    · rename_i hq
      obtain ⟨rfl, -⟩ := Prod.mk.inj h
      exact ⟨rfl, .inr ⟨hq, rfl⟩⟩
    · obtain ⟨rfl, -⟩ := Prod.mk.inj h
      exact ⟨rfl, .inl rfl⟩

theorem closePhase_eq_ok {counters : Counters} {snapshots : SnapshotLog} {nextSeq : ℕ}
    {core : ProfileCore}
    (h : closePhase env clock collectEvidence account counters snapshots nextSeq =
      .ok (core, drafts)) :
    ∃ margin closed liquidated liquidation s killed kill last,
      marginDrafts env clock (collectEvidence && decide (account.positionQtyBase1e8 ≠ 0)) account =
        .ok margin ∧
      liquidationPhase env clock account = .ok (closed, liquidated, liquidation) ∧
      snapshot closed env.market clock.fillAbs (clock.turn + 1) (some clock.holdingCloseTs) =
        .ok s ∧
      killSwitchPhase env clock collectEvidence liquidated closed (snapshots.push s)
        (nextSeq + margin.length + liquidation.length) =
          .ok (core.account, killed, core.snapshots, kill) ∧
      marginDrafts env clock (liquidated && collectEvidence) core.account = .ok last ∧
      core.counters = { counters with
        liquidations := counters.liquidations + if liquidated then 1 else 0
        killSwitchFired := counters.killSwitchFired || killed } ∧
      core.terminal = liquidated ∧ core.lastTurn = clock.turn ∧
      drafts = margin ++ liquidation ++ kill ++ last := by
  simp only [closePhase, bind_ok_iff] at h
  obtain ⟨margin, hm, ⟨closed, liquidated, liquidation⟩, hl, s, hs,
    ⟨account', killed, snapshots', kill⟩, hk, last, hlast, h⟩ := h
  simp only [pure_eq_ok, Except.ok.injEq, Prod.mk.injEq] at h
  obtain ⟨rfl, rfl⟩ := h
  refine ⟨margin, closed, liquidated, liquidation, s, killed, kill, last, hm, hl, hs, hk, hlast,
    ?_, rfl, rfl, rfl⟩
  cases liquidated <;> cases killed <;> simp

theorem settleTurn_eq_ok {core core' : ProfileCore} {decision : TurnDecision} {drawdownUsed : ℤ}
    {nextSeq : ℕ}
    (h : settleTurn env clock collectEvidence core decision drawdownUsed nextSeq =
      .ok (core', drafts)) :
    ∃ account counters opening closing,
      openPhase env clock collectEvidence core.account core.counters decision drawdownUsed =
        .ok (account, counters, opening) ∧
      closePhase env clock collectEvidence account counters core.snapshots
        (nextSeq + opening.length) = .ok (core', closing) ∧
      drafts = opening ++ closing := by
  simp only [settleTurn, bind_ok_iff] at h
  obtain ⟨⟨account, counters, opening⟩, ho, ⟨core'', closing⟩, hc, h⟩ := h
  simp only [pure_eq_ok, Except.ok.injEq, Prod.mk.injEq] at h
  obtain ⟨rfl, rfl⟩ := h
  exact ⟨account, counters, opening, closing, ho, hc, rfl⟩

end Phases

/-- What a snapshot records of its account. -/
structure SnapshotOf (account : Account) (s : Snapshot) : Prop where
  position : s.positionQtyBase1e8 = account.positionQtyBase1e8
  cash : s.cashMicro = account.cashMicro
  nav : s.navMicro = s.cashMicro + s.upnlMicro
  fees : s.feesCumMicro = account.feesCumMicro
  funding : s.fundingCumMicro = account.fundingCumMicro
  realized : s.realizedPriceCumMicro = account.realizedPriceCumMicro
  penalty : s.liquidationPenaltyCumMicro = account.liquidationPenaltyCumMicro

theorem snapshot_eq_ok {account : Account} {market : MarketData} {i k : ℕ} {ts : ℤ} {s : Snapshot}
    (h : snapshot account market i k (some ts) = .ok s) :
    SnapshotOf account s ∧ s.barIndex = k ∧ s.absoluteBarIndex = i ∧ s.closeTs = ts ∧
      ∃ mark risk, market.mark[i]? = some mark ∧ s.markCloseTicks = mark.c ∧
        upnl account mark.c market.spec = .ok s.upnlMicro ∧
        positionRisk account market.spec mark = .ok risk ∧
        s.entryPxTicks = risk.entry ∧ s.marginMicro = risk.margin ∧
        s.maintenanceMarginMicro = risk.maintenance ∧ s.liquidationPxTicks = risk.liquidation ∧
        s.distanceToLiquidation1e8 = risk.distance ∧
        s.minIntrabarDistance1e8 = risk.minDistance := by
  simp only [snapshot, bind_ok_iff, rowAt_eq_ok, pure_eq_ok, Except.ok.injEq] at h
  obtain ⟨mark, hmark, u, hu, risk, hrisk, _, rfl, rfl⟩ := h
  exact ⟨⟨rfl, rfl, rfl, rfl, rfl, rfl, rfl⟩, rfl, rfl, rfl, mark, risk, hmark, rfl, hu, hrisk,
    rfl, rfl, rfl, rfl, rfl, rfl⟩

/-! ## The turn loop -/

section Loop

variable {σ : Type} {sha : Sha256} {limits : Json.Limits} {env : ProfileEnv} {episodeId : Text}
  {collectEvidence : Bool} {source : DecisionSource σ}

theorem turnClock_eq_ok {turn : ℕ} {clock : TurnClock} (h : turnClock env turn = .ok clock) :
    env.pack.clockRealTs turn = .ok clock.decisionTs ∧ clock.turn = turn ∧
      clock.decisionAbs = env.pack.warmupBars + turn ∧
      clock.holdingCloseTs = clock.decisionTs + env.pack.decisionBarMs := by
  simp only [turnClock, bind_ok_iff, pure_eq_ok, Except.ok.injEq] at h
  obtain ⟨ts, hts, rfl⟩ := h
  exact ⟨hts, rfl, rfl, rfl⟩

theorem recordDecision_eq_ok {clock : TurnClock} {observation : Observation}
    {decision : TurnDecision} {state state' : ProfileState σ}
    (h : recordDecision sha limits clock observation decision state = .ok state') :
    ∃ bytes responses facts, canonicalBytes observation.toJson = .ok bytes ∧
      responseDrafts sha limits clock 1 decision.responses = .ok responses ∧
      harnessDrafts decision.harnessEvents clock.decisionTs (some clock.turn) (some clock.turn) =
        .ok facts ∧
      state' = { state with
        observations := state.observations ++ [observation]
        rawBlobs := state.rawBlobs ++ responseBlobs clock.turn 1 decision.responses
        events := emitAll state.events (engineDraft clock.decisionTs clock.turn clock.turn
          (.observationEmitted (sha.prefixed bytes) (observationRef clock.turn)) ::
            responses ++ facts) } := by
  simp only [recordDecision, bind_ok_iff, pure_eq_ok, Except.ok.injEq] at h
  obtain ⟨bytes, hb, responses, hr, facts, hf, rfl⟩ := h
  exact ⟨bytes, responses, facts, hb, hr, hf, rfl⟩

/-- A decision taken from a trace is the trace's entry for the turn. -/
theorem decideTurn_replay_eq_ok {decisions : List TurnDecision} {clock : TurnClock}
    {drawdownUsed turnoverUsed : ℤ} {state state' : ProfileState σ} {decision : TurnDecision}
    (h : decideTurn sha limits env episodeId collectEvidence (.replay decisions) clock drawdownUsed
      turnoverUsed state = .ok (decision, state')) :
    decisions[clock.turn]? = some decision ∧ state' = state := by
  simp only [decideTurn] at h
  split at h
  · simp at h
  · rename_i d hd
    simp only [Except.ok.injEq, Prod.mk.injEq] at h
    exact ⟨by rw [hd, h.1], h.2.symm⟩

/-- A decision asked of an agent: the observation it was shown, its answer, and the evidence. -/
theorem decideTurn_agent_eq_ok {agent : Agent σ} {clock : TurnClock}
    {drawdownUsed turnoverUsed : ℤ} {state state' : ProfileState σ} {decision : TurnDecision}
    (h : decideTurn sha limits env episodeId collectEvidence (.agent agent) clock drawdownUsed
      turnoverUsed state = .ok (decision, state')) :
    ∃ observation s,
      observeTurn env episodeId clock state.core drawdownUsed turnoverUsed = .ok observation ∧
      requestDecision sha limits agent observation env.config env.pack.marketAliases state.agent =
        .ok (decision, s) ∧
      let asked := { state with agent := s, decisions := state.decisions ++ [decision] }
      ((collectEvidence = true ∧
          recordDecision sha limits clock observation decision asked = .ok state') ∨
        (collectEvidence = false ∧ state' = asked)) := by
  simp only [decideTurn, bind_ok_iff] at h
  obtain ⟨observation, ho, ⟨decision', s⟩, hd, h⟩ := h
  cases collectEvidence with
  | true =>
    simp only [if_true, bind_ok_iff, pure_eq_ok, Except.ok.injEq, Prod.mk.injEq] at h
    obtain ⟨state'', hrec, rfl, rfl⟩ := h
    exact ⟨observation, s, ho, hd, .inl ⟨rfl, hrec⟩⟩
  | false =>
    simp only [Bool.false_eq_true, if_false, pure_eq_ok, Except.ok.injEq, Prod.mk.injEq] at h
    obtain ⟨rfl, rfl⟩ := h
    exact ⟨observation, s, ho, hd, .inr ⟨rfl, rfl⟩⟩

/-- Deciding a turn leaves the economic state alone. -/
theorem decideTurn_core {clock : TurnClock} {drawdownUsed turnoverUsed : ℤ}
    {state state' : ProfileState σ} {decision : TurnDecision}
    (h : decideTurn sha limits env episodeId collectEvidence source clock drawdownUsed turnoverUsed
      state = .ok (decision, state')) : state'.core = state.core := by
  cases source with
  | replay decisions =>
    obtain ⟨-, rfl⟩ := decideTurn_replay_eq_ok h
    rfl
  | agent agent =>
    obtain ⟨observation, s, -, -, ⟨-, hrec⟩ | ⟨-, rfl⟩⟩ := decideTurn_agent_eq_ok h
    · obtain ⟨_, _, _, -, -, -, rfl⟩ := recordDecision_eq_ok hrec
      rfl
    · rfl

theorem turnBody_eq_ok {turn : ℕ} {state state' : ProfileState σ}
    (h : turnBody sha limits env episodeId collectEvidence source turn state = .ok state') :
    ∃ clock drawdownUsed turnoverUsed decision asked drafts,
      turnClock env turn = .ok clock ∧ drawdown1e8 state.core.snapshots = .ok drawdownUsed ∧
      turnover1e8 state.core.account.turnoverNotionalMicro env.config.startingNavMicro =
        .ok turnoverUsed ∧
      decideTurn sha limits env episodeId collectEvidence source clock drawdownUsed turnoverUsed
        state = .ok (decision, asked) ∧
      settleTurn env clock collectEvidence state.core decision drawdownUsed asked.events.length =
        .ok (state'.core, drafts) ∧
      state' = { asked with
        core := state'.core
        events := if collectEvidence then emitAll asked.events drafts else asked.events } := by
  simp only [turnBody, bind_ok_iff, pure_eq_ok, Except.ok.injEq] at h
  obtain ⟨clock, hclock, drawdownUsed, hd, turnoverUsed, ht, ⟨decision, asked⟩, hdec, h⟩ := h
  obtain ⟨⟨core, drafts⟩, hsettle, rfl⟩ := h
  rw [decideTurn_core hdec] at hsettle
  exact ⟨clock, drawdownUsed, turnoverUsed, decision, asked, drafts, hclock, hd, ht, hdec, hsettle,
    rfl⟩

theorem startState_eq_ok {s : σ} {start : ProfileState σ} (h : startState env s = .ok start) :
    ∃ ts first, env.pack.clockRealTs 0 = .ok ts ∧
      snapshot (Account.start env.config.startingNavMicro) env.market env.pack.warmupBars 0
        (some ts) = .ok first ∧
      start = ⟨⟨Account.start env.config.startingNavMicro, .zero, ⟨[], first⟩, false, -1⟩, [], [],
        [], [], s⟩ := by
  simp only [startState, bind_ok_iff, pure_eq_ok, Except.ok.injEq] at h
  obtain ⟨ts, hts, first, hfirst, rfl⟩ := h
  exact ⟨ts, first, hts, hfirst, rfl⟩

/-- `TurnReach … t state`: the profile simulation enters turn `t`, or would but for its range, in
`state`. -/
abbrev TurnReach (sha : Sha256) (limits : Json.Limits) (env : ProfileEnv) (episodeId : Text)
    (collectEvidence : Bool) (source : DecisionSource σ) (start : ProfileState σ) :
    ℕ → ProfileState σ → Prop :=
  Reach (turnBody sha limits env episodeId collectEvidence source) ProfileState.stopped start

theorem runLoop_eq_ok {s : σ} {run : ProfileRun σ}
    (h : runLoop sha limits env episodeId collectEvidence source s = .ok run) :
    ∃ start turns k, startState env s = .ok start ∧ env.pack.barsTotal = .ok turns ∧ k ≤ turns ∧
      TurnReach sha limits env episodeId collectEvidence source start k run.toProfileState ∧
      (k = turns ∨ run.core.terminal = true) ∧ run.totals = finalTotals run.core := by
  simp only [runLoop, bind_ok_iff, pure_eq_ok, Except.ok.injEq] at h
  obtain ⟨start, hstart, turns, hturns, state, hloop, rfl⟩ := h
  obtain ⟨k, hk, hr, hend⟩ := loop_reach hloop
  exact ⟨start, turns, k, hstart, hturns, hk, hr, hend, rfl⟩

theorem runProfile_eq_ok {pack : PackData} {config : EpisodeConfig} {profile : Text} {s : σ}
    {run : ProfileRun σ}
    (h : runProfile sha limits pack config profile episodeId source s collectEvidence = .ok run) :
    ∃ env, profileEnv pack config profile = .ok env ∧
      runLoop sha limits env episodeId collectEvidence source s = .ok run :=
  bind_ok_iff.mp h

end Loop

/-- The rows of a ledger, once they could all be written. -/
theorem ledgerRowsFrom_eq_ok {profile aliasName : Text} {previous : Option Snapshot}
    {snapshots : List Snapshot} {rows : List LedgerRow}
    (h : ledgerRowsFrom profile aliasName previous snapshots = .ok rows) :
    rows = List.zipWith (ledgerRowOf profile aliasName) (previous :: snapshots.map some)
      snapshots := by
  induction snapshots generalizing previous rows with
  | nil => simpa [ledgerRowsFrom] using h.symm
  | cons s rest ih =>
    simp only [ledgerRowsFrom, ledgerRow, bind_ok_iff, pure_eq_ok, Except.ok.injEq] at h
    obtain ⟨row, ⟨-, -, rfl⟩, rest', hrest, rfl⟩ := h
    simp [ih hrest]

theorem ledgerRows_eq_ok {profile aliasName : Text} {snapshots : SnapshotLog}
    {rows : List LedgerRow} (h : ledgerRows snapshots profile aliasName = .ok rows) :
    rows = List.zipWith (ledgerRowOf profile aliasName) (none :: snapshots.all.map some)
      snapshots.all :=
  ledgerRowsFrom_eq_ok h

theorem profileEnv_eq_ok {pack : PackData} {config : EpisodeConfig} {profile : Text}
    {env : ProfileEnv} (h : profileEnv pack config profile = .ok env) :
    env.pack = pack ∧ env.config = config ∧ pack.marketAliases = [env.aliasName] ∧
      pack.market env.aliasName = .ok env.market ∧
      env.market.spec.multiplier profile = some env.multiplier := by
  unfold profileEnv at h
  split at h
  · rename_i name hname
    simp only [bind_ok_iff] at h
    obtain ⟨market, hmarket, h⟩ := h
    split at h
    · rename_i multiplier hm
      obtain rfl := Except.ok.inj h
      exact ⟨rfl, rfl, hname, hmarket, hm⟩
    · simp at h
  · simp at h

section Episode

variable {σ : Type} {sha : Sha256} {limits : Json.Limits} {pack : PackData} {agent : Agent σ}
  {config : EpisodeConfig} {runId episodeId : Text}

theorem finishEpisode_eq_ok {primary : ProfileRun σ} {stress : ProfileRun Unit}
    {result : EpisodeResult}
    (h : finishEpisode sha pack agent config runId episodeId primary stress = .ok result) :
    ∃ drained s facts invariant bytes primaryMetrics stressMetrics,
      drainHarnessEvents agent primary.agent = .ok (drained, s) ∧
      harnessDrafts drained primary.core.snapshots.last.closeTs none none = .ok facts ∧
      profileInvariant { primary.toProfileState with events := emitAll primary.events facts } =
        .ok invariant ∧
      profileMetrics primary.core.snapshots primary.totals config.startingNavMicro
        (txt "ledger.jsonl") = .ok primaryMetrics ∧
      profileMetrics stress.core.snapshots stress.totals config.startingNavMicro
        (txt "ledger_stress_2x.jsonl") = .ok stressMetrics ∧
      canonicalBytes result.metrics.toJson = .ok bytes ∧
      result.metrics = ⟨runId, primaryMetrics, stressMetrics, invariant⟩ ∧
      ledgerRows primary.core.snapshots PRIMARY (pack.marketAliases.headD []) =
        .ok result.ledgerPrimary ∧
      ledgerRows stress.core.snapshots STRESS_2X (pack.marketAliases.headD []) =
        .ok result.ledgerStress2x ∧
      result.events = emit (emitAll primary.events facts)
        ⟨primary.core.snapshots.last.closeTs, none, none, .engine, .episodeEnd
          primary.totals.reason primary.totals.finalTurn primary.totals.finalNavMicro
          (sha.prefixed (bytes ++ [0x0A]))⟩ ∧
      result.observations = primary.observations ∧ result.rawBlobs = primary.rawBlobs ∧
      result.pack = pack ∧ result.config = config ∧ result.runId = runId ∧
      result.episodeId = episodeId := by
  simp only [finishEpisode, bind_ok_iff, pure_eq_ok, Except.ok.injEq] at h
  obtain ⟨⟨drained, s⟩, hdrain, facts, hfacts, invariant, hinv, pm, hpm, sm, hsm, bytes, hbytes, lp,
    hlp, ls, hls, rfl⟩ := h
  exact ⟨drained, s, facts, invariant, bytes, pm, sm, hdrain, hfacts, hinv, hpm, hsm, hbytes, rfl,
    hlp, hls, rfl, rfl, rfl, rfl, rfl, rfl, rfl⟩

theorem runEpisode_eq_ok {s : σ} {result : EpisodeResult}
    (h : runEpisode sha limits pack agent config runId episodeId s = .ok result) :
    config.costProfiles = [PRIMARY, STRESS_2X] ∧ ∃ primary stress,
      runPrimary sha limits pack agent config episodeId s = .ok primary ∧
      runStress sha limits pack config episodeId primary.decisions = .ok stress ∧
      finishEpisode sha pack agent config runId episodeId primary stress = .ok result := by
  simp only [runEpisode, bind_ok_iff, require_eq_ok] at h
  obtain ⟨_, -, _, -, -, hprofiles, primary, hp, stress, hs, hf⟩ := h
  exact ⟨hprofiles, primary, stress, hp, hs, hf⟩

end Episode

end WagmiBench.Core
