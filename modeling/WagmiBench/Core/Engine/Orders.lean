import WagmiBench.Core.Costs
import WagmiBench.Core.Engine.Funding
import WagmiBench.Core.Engine.KillSwitch
import WagmiBench.Core.Engine.Position
import WagmiBench.Core.Engine.Scenario

/-!
# Orders

What a parsed action may do to the account of a turn. Its target is the largest quantity on the
step that the leverage allows at the open of the fill bar; the fill moves the position toward that
target, no further than to it, and by no more than a share of the bar's volume. An order that is
blocked or cancelled leaves the account alone. The turnover gate projects at the reference price, so
what a fill adds above its projection is its own spread and impact.
-/

namespace WagmiBench.Core

open WagmiBench.Lib WagmiBench.Harness WagmiBench.Spec

/-- The exact value of an absolute quantity at a price. -/
def exactNotional (qty px tick : ℤ) : ℚ := (|qty| * px * tick : ℤ) / QTY_SCALE

/-- `target` is the signed largest multiple of the step whose exact notional is within the
leverage. -/
structure LargestTarget (lev equity px tick step target : ℤ) : Prop where
  side : 0 ≤ target * lev
  on_step : step ∣ target
  within : exactNotional target px tick ≤ |lev| / (LEVERAGE_SCALE : ℚ) * equity
  largest : ∀ q, step ∣ q → exactNotional q px tick ≤ |lev| / (LEVERAGE_SCALE : ℚ) * equity →
    |q| ≤ |target|

/-- The account keeps everything but its leverage label. -/
def Account.KeptIn (a b : Account) : Prop :=
  b = { a with targetLeverage1e4 := b.targetLeverage1e4 }

/-- What an order that passed the gates does: `a` is the account it finds, `b` the one it leaves. -/
structure Ordered (env : ProfileEnv) (clock : TurnClock) (a b : Account) (lev : ℤ)
    (drafts : List Draft) (markRow fillRow : BarRow) (profit target : ℤ) : Prop where
  decision_mark : env.market.mark[clock.decisionAbs]? = some markRow
  fill_bar : env.market.trade[clock.fillAbs]? = some fillRow
  equity : upnl a markRow.c env.market.spec = .ok profit
  sized : LargestTarget lev (a.cashMicro + profit) fillRow.o env.market.spec.tickSizeMicro
    env.market.spec.qtyStepBase1e8 target
  toward : b.positionQtyBase1e8 ∈ Set.uIcc a.positionQtyBase1e8 target
  filled : ∀ d ∈ drafts, ∀ f, d.payload = .orderFilled f →
    f.qtyBase1e8 = |b.positionQtyBase1e8 - a.positionQtyBase1e8| ∧
    f.qtyBase1e8 ≤ fillRow.vBase1e8 * env.market.spec.participationCap1e8 / RATE_SCALE
  unfilled : (∀ d ∈ drafts, ∀ f, d.payload ≠ .orderFilled f) →
    a.KeptIn b ∧ (target ≠ a.positionQtyBase1e8 → b = a)

/-- The accounts of a turn around its order: `funded` finds it, `traded` is what it leaves, and
`opened` is carried to the close. Only the order and a forced close trade. -/
structure TurnOrder (env : ProfileEnv) (clock : TurnClock) (collectEvidence : Bool)
    (core core' : ProfileCore) (decision : TurnDecision) (drawdownUsed : ℤ)
    (funded traded opened : Account) (orders : List Draft) : Prop where
  funding : ∃ drafts, coincidentFunding env clock core.account = .ok (funded, drafts)
  order : ∃ counters counters', actionPhase env clock collectEvidence funded counters decision
    drawdownUsed = .ok (traded, counters', orders)
  holding : ∃ drafts, holdingFunding env clock env.market.funding traded = .ok (opened, drafts)
  funded_position : funded.positionQtyBase1e8 = core.account.positionQtyBase1e8
  opened_position : opened.positionQtyBase1e8 = traded.positionQtyBase1e8
  closed_position : core'.account.positionQtyBase1e8 = opened.positionQtyBase1e8 ∨
    core'.account.positionQtyBase1e8 = 0

/-! ## The target of an action -/

section Target

variable {lev equity px tick step target : ℤ}

/-- The largest multiple of a step within a magnitude. -/
theorem floorToStep_largest {value q : ℤ} (h : floorToStep value step = .ok target) (hq : step ∣ q)
    (hle : |q| ≤ |value|) : |q| ≤ |target| := by
  simp only [floorToStep, bind_ok_iff, require_eq_ok, pure_eq_ok, Except.ok.injEq] at h
  obtain ⟨-, hstep, rfl⟩ := h
  obtain ⟨k, rfl⟩ := hq
  rw [abs_mul, abs_of_pos hstep, mul_comm] at hle
  have hk : |k| ≤ |value| / step := (Int.le_ediv_iff_mul_le hstep).mpr hle
  have hnonneg : 0 ≤ |value| / step * step :=
    mul_nonneg (Int.ediv_nonneg (abs_nonneg _) hstep.le) hstep.le
  have habs : |if 0 ≤ value then |value| / step * step else -(|value| / step * step)| =
      |value| / step * step := by
    split
    · exact abs_of_nonneg hnonneg
    · rw [abs_neg, abs_of_nonneg hnonneg]
  rw [habs, abs_mul, abs_of_pos hstep, mul_comm]
  exact mul_le_mul_of_nonneg_right hk hstep.le

/-- Rounding toward zero keeps the side. -/
theorem floorToStep_nonpos {value : ℤ} (h : floorToStep value step = .ok target)
    (hvalue : value ≤ 0) : target ≤ 0 := by
  obtain ⟨-, -, -, hzero⟩ := floorToStep_eq_ok h
  simp only [floorToStep, bind_ok_iff, require_eq_ok, pure_eq_ok, Except.ok.injEq] at h
  obtain ⟨-, hstep, h⟩ := h
  rcases hvalue.lt_or_eq with hneg | hflat
  · rw [← h, if_neg (by omega), neg_nonpos]
    exact mul_nonneg (Int.ediv_nonneg (abs_nonneg _) hstep.le) hstep.le
  · exact (hzero hflat).le

/-- The leverage bounds the exact notional of a quantity just where it bounds its magnitude by the
raw target. -/
theorem exactNotional_le_iff (hpx : 0 < px) (htick : 0 < tick) (q : ℤ) :
    exactNotional q px tick ≤ |lev| / (LEVERAGE_SCALE : ℚ) * equity ↔
      |q| ≤ ⌊((|lev| * equity * QTY_SCALE : ℤ) : ℚ) / (LEVERAGE_SCALE * px * tick : ℤ)⌋ := by
  have hpx' : (0 : ℚ) < px := by exact_mod_cast hpx
  have htick' : (0 : ℚ) < tick := by exact_mod_cast htick
  rw [Int.le_floor, exactNotional, div_mul_eq_mul_div, div_le_div_iff₀ (by norm_num) (by norm_num),
    le_div_iff₀ (by push_cast; positivity)]
  push_cast
  constructor <;> intro h <;> nlinarith

/-- The target of an action is the largest one its leverage allows. -/
theorem targetQuantity_largest (h : targetQuantityBase1e8 lev equity px tick step = .ok target) :
    LargestTarget lev equity px tick step target := by
  simp only [targetQuantityBase1e8, rawTargetQuantityBase1e8, bind_ok_iff, require_eq_ok,
    pure_eq_ok, Except.ok.injEq, floorFraction_eq_floor] at h
  obtain ⟨raw, ⟨-, hequity, -, ⟨hpx, htick⟩, hraw⟩, hstep⟩ := h
  obtain ⟨hdvd, hle, hsign, hzero⟩ := floorToStep_eq_ok hstep
  set most := ⌊((|lev| * equity * QTY_SCALE : ℤ) : ℚ) / (LEVERAGE_SCALE * px * tick : ℤ)⌋
    with hmost
  have hpos : (0 : ℚ) < (LEVERAGE_SCALE * px * tick : ℤ) := by
    have : (0 : ℤ) < LEVERAGE_SCALE * px * tick := by positivity
    exact_mod_cast this
  have hmost_nonneg : 0 ≤ most := Int.floor_nonneg.mpr (div_nonneg
    (by exact_mod_cast mul_nonneg (mul_nonneg (abs_nonneg _) hequity) (by decide)) hpos.le)
  have habs : |raw| = most := by
    rw [← hraw]
    split
    · exact abs_of_nonneg hmost_nonneg
    · rw [abs_neg, abs_of_nonneg hmost_nonneg]
  refine ⟨?_, hdvd, ?_, fun q hq hwithin => ?_⟩
  · by_cases hlev : 0 ≤ lev
    · exact mul_nonneg (hsign (by rw [← hraw, if_pos hlev]; exact hmost_nonneg)) hlev
    · have hraw_nonpos : raw ≤ 0 := by
        rw [← hraw, if_neg hlev]
        omega
      exact mul_nonneg_of_nonpos_of_nonpos (floorToStep_nonpos hstep hraw_nonpos) (by omega)
  · rw [exactNotional_le_iff hpx htick, ← hmost, ← habs]
    exact hle
  · rw [exactNotional_le_iff hpx htick, ← hmost, ← habs] at hwithin
    exact floorToStep_largest hstep hq hwithin

end Target

/-! ## One order -/

section Order

variable {env : ProfileEnv} {clock : TurnClock} {a b : Account} {drafts : List Draft}
  {collectEvidence : Bool} {action : ParsedAction} {sizing : Sizing}

theorem FillQuantity.make_capacity {requested capacity filled cancelled : ℤ} {q : FillQuantity}
    (h : FillQuantity.make requested capacity filled cancelled = .ok q) :
    q.capacityQtyBase1e8 = capacity := by
  unfold FillQuantity.make at h
  split at h
  · split at h
    · split at h
      · rw [← Except.ok.inj h]
      · simp at h
    · simp at h
  · simp at h

theorem participationFill_capped {requested volume cap step : ℤ} {q : FillQuantity}
    (h : participationFill requested volume cap step = .ok q) :
    q.filledQtyBase1e8 ≤ volume * cap / RATE_SCALE := by
  simp only [participationFill, participationCapacityBase1e8, bind_ok_iff, require_eq_ok,
    floorFraction_eq_floor] at h
  obtain ⟨-, -, capacity, ⟨-, hvolume, -, hcap, hcapacity⟩, filled, -, hmake⟩ := h
  have hraw : ⌊((volume * cap : ℤ) : ℚ) / RATE_SCALE⌋ = volume * cap / RATE_SCALE :=
    Rat.floor_intCast_div_natCast _ 100_000_000
  obtain ⟨-, hle, -⟩ := floorToStep_eq_ok hcapacity
  rw [hraw, abs_of_nonneg (Int.ediv_nonneg (mul_nonneg hvolume hcap.1) (by decide))] at hle
  have hwithin := q.filled_le_capacity
  rw [FillQuantity.make_capacity hmake] at hwithin
  exact hwithin.trans ((le_abs_self _).trans hle)

theorem sizeAction_sized (h : sizeAction env clock a action = .ok sizing) :
    sizing.targetLev = action.targetFor env.aliasName ∧
    ∃ markRow fillRow profit target, env.market.mark[clock.decisionAbs]? = some markRow ∧
      env.market.trade[clock.fillAbs]? = some fillRow ∧
      upnl a markRow.c env.market.spec = .ok profit ∧
      LargestTarget sizing.targetLev (a.cashMicro + profit) fillRow.o env.market.spec.tickSizeMicro
        env.market.spec.qtyStepBase1e8 target ∧
      sizing.requestedDelta = target - a.positionQtyBase1e8 ∧
      ∃ projected, notionalMicro sizing.requestedDelta fillRow.o env.market.spec.tickSizeMicro =
          .ok projected ∧
        turnover1e8 (a.turnoverNotionalMicro + projected) env.config.startingNavMicro =
          .ok sizing.projectedTurnover := by
  simp only [sizeAction, bind_ok_iff, rowAt_eq_ok, pure_eq_ok, Except.ok.injEq] at h
  obtain ⟨markRow, hmark, profit, hprofit, fillRow, hrow, target, htarget, raw, -, notional,
    hnotional, projected, hprojected, rfl⟩ := h
  exact ⟨rfl, markRow, fillRow, profit, target, hmark, hrow, hprofit,
    targetQuantity_largest htarget, rfl, notional, hnotional, hprojected⟩

/-- An executed fill, as a signed quantity. -/
theorem abs_signedQty (fill : FillCalculation) :
    |fill.signedQty| = fill.quantities.filledQtyBase1e8 := by
  unfold FillCalculation.signedQty
  split
  · exact abs_of_nonneg fill.quantities.nonneg.2.2.1
  · rw [abs_neg, abs_of_nonneg fill.quantities.nonneg.2.2.1]

/-- **One order.** An order that passed the gates moves toward the largest target of its leverage. -/
theorem orderPhase_ordered (hsizing : sizeAction env clock a action = .ok sizing)
    (h : orderPhase env clock collectEvidence false a action sizing = .ok (b, drafts)) :
    ∃ markRow fillRow profit target,
      Ordered env clock a b (action.targetFor env.aliasName) drafts markRow fillRow profit
        target := by
  obtain ⟨hlev, markRow, fillRow, profit, target, hmark, hrow, hprofit, htarget, hdelta, -⟩ :=
    sizeAction_sized hsizing
  rw [hlev] at htarget
  refine ⟨markRow, fillRow, profit, target, ?_⟩
  -- nothing is filled unless the ladder lets the fill through
  have still : a.KeptIn b → (target ≠ a.positionQtyBase1e8 → b = a) →
      (∀ d ∈ drafts, ∀ f, d.payload ≠ .orderFilled f) →
      Ordered env clock a b (action.targetFor env.aliasName) drafts markRow fillRow profit
        target := by
    intro hkept hsame hunfilled
    have hqty : b.positionQtyBase1e8 = a.positionQtyBase1e8 := by rw [hkept]
    exact ⟨hmark, hrow, hprofit, htarget, hqty ▸ Set.left_mem_uIcc,
      fun d hd f hf => absurd hf (hunfilled d hd f), fun _ => ⟨hkept, hsame⟩⟩
  obtain ⟨hblocked, -⟩ | ⟨-, hne, horder⟩ | ⟨-, hzero, hrelabel⟩ := orderPhase_eq_ok h
  · simp at hblocked
  · obtain ⟨fillRow', fill, hrow', hfill, ⟨reason, -, rfl, rfl⟩ | ⟨hreason, hfilled, rfl⟩⟩ :=
      executeOrder_eq_ok horder
    · exact still rfl (fun _ => rfl) (by simp [fullCancel])
    · obtain rfl : fillRow = fillRow' := Option.some.inj (hrow.symm.trans hrow')
      have computed := calculateFill_computed hfill
      have effect := applyPositionFill_effect hfilled
      obtain ⟨⟨hnonzero, hup, hdown⟩, -⟩ := orderFill_toward hdelta hfill hreason
      have hmoved : |b.positionQtyBase1e8 - a.positionQtyBase1e8| =
          fill.quantities.filledQtyBase1e8 := by
        rw [effect.position, add_sub_cancel_left, abs_signedQty]
      refine ⟨hmark, hrow, hprofit, htarget, ?_, ?_, ?_⟩
      · rw [effect.position, Set.mem_uIcc]
        rcases lt_or_gt_of_ne hnonzero with hsell | hbuy
        · exact .inr ⟨hdown hsell, by omega⟩
        · exact .inl ⟨by omega, hup hbuy⟩
      · intro d hd f hf
        rcases List.mem_cons.mp hd with rfl | hd
        · simp only [filledPayload, Payload.orderFilled.injEq] at hf
          rw [← hf, hmoved]
          exact ⟨rfl, participationFill_capped computed.quantities⟩
        · unfold partialCancel at hd
          split at hd
          · simp at hd
          · obtain rfl := List.mem_singleton.mp hd
            simp at hf
      · intro hunfilled
        exact absurd rfl (hunfilled _ (List.mem_cons_self ..) _)
  · have hsame : target = a.positionQtyBase1e8 := by omega
    refine still (relabel_eq hrelabel).1 (fun hne => absurd hsame hne) ?_
    unfold relabel at hrelabel
    split at hrelabel
    · obtain ⟨-, rfl⟩ := Prod.mk.inj hrelabel
      simp [roundingCancel]
    · split at hrelabel <;>
      · obtain ⟨-, rfl⟩ := Prod.mk.inj hrelabel
        simp

/-- The gates fill nothing. -/
theorem gateDrafts_unfilled {checks : List RiskCheck} {postKill : Bool} {raw : Option Text}
    {d : Draft} (h : d ∈ gateDrafts clock checks postKill action raw) (f : OrderFilled) :
    d.payload ≠ .orderFilled f := by
  simp only [gateDrafts, List.mem_append, List.mem_map] at h
  rcases h with ⟨c, -, rfl⟩ | h
  · simp
  · split at h
    · obtain rfl := List.mem_singleton.mp h
      simp
    · simp at h

/-- A parsed action: it is sized, gated, and carried out where no gate blocks it. -/
theorem actionPhase_ordered {counters counters' : Counters} {decision : TurnDecision}
    {drawdownUsed : ℤ}
    (h : actionPhase env clock collectEvidence a counters decision drawdownUsed =
      .ok (b, counters', drafts)) :
    (decision.parsed = none → b = a) ∧
    ∀ action, decision.parsed = some action → ∃ sizing,
      sizeAction env clock a action = .ok sizing ∧
      (anyFailed (riskChecks env a sizing drawdownUsed) = true → b = a) ∧
      (anyFailed (riskChecks env a sizing drawdownUsed) = false →
        ∃ markRow fillRow profit target,
          Ordered env clock a b (action.targetFor env.aliasName) drafts markRow fillRow profit
            target) := by
  obtain ⟨hnone, rfl, -, -⟩ | ⟨action, haction, hprocess⟩ := actionPhase_eq_ok h
  · exact ⟨fun _ => rfl, fun action haction => by simp [hnone] at haction⟩
  · refine ⟨fun hnone => by simp [hnone] at haction, fun action' haction' => ?_⟩
    obtain rfl := Option.some.inj (haction.symm.trans haction')
    obtain ⟨sizing, orders, hsizing, horder, -, rfl⟩ := processAction_eq_ok hprocess
    refine ⟨sizing, hsizing, fun hfailed => ?_, fun hpassed => ?_⟩
    · obtain ⟨-, rfl, -⟩ | ⟨hpassed, -⟩ | ⟨hpassed, -⟩ := orderPhase_eq_ok horder
      · rfl
      · simp [hfailed] at hpassed
      · simp [hfailed] at hpassed
    · rw [hpassed] at horder
      obtain ⟨markRow, fillRow, profit, target, ordered⟩ := orderPhase_ordered hsizing horder
      refine ⟨markRow, fillRow, profit, target, ordered.decision_mark, ordered.fill_bar,
        ordered.equity, ordered.sized, ordered.toward, fun d hd f hf => ?_, fun hunfilled => ?_⟩
      · rcases List.mem_append.mp hd with hd | hd
        · exact absurd hf (gateDrafts_unfilled hd f)
        · exact ordered.filled d hd f hf
      · exact ordered.unfilled fun d hd => hunfilled d (List.mem_append_right _ hd)

/-- The rest of a turn trades nothing but the whole position: funding leaves it, liquidation and the
kill switch end it. -/
theorem closePhase_position {counters : Counters} {snapshots : SnapshotLog} {nextSeq : ℕ}
    {core : ProfileCore}
    (h : closePhase env clock collectEvidence a counters snapshots nextSeq = .ok (core, drafts)) :
    core.account.positionQtyBase1e8 = a.positionQtyBase1e8 ∨
      core.account.positionQtyBase1e8 = 0 := by
  obtain ⟨margin, closed, liquidated, liquidation, s, killed, kill, last, -, hliq, -, hk, -⟩ :=
    closePhase_eq_ok h
  have hclosed : closed.positionQtyBase1e8 = a.positionQtyBase1e8 ∨
      closed.positionQtyBase1e8 = 0 := by
    obtain ⟨-, rfl, -⟩ | ⟨-, mark, liqPx, -, -, ⟨-, -, draft, hdraft, -⟩ | ⟨-, -, rfl, -⟩⟩ :=
      liquidationPhase_eq_ok hliq
    · exact .inl rfl
    · obtain ⟨realized, penalty, notional, -, -, -, rfl, -⟩ := liquidate_eq_ok hdraft
      exact .inr rfl
    · exact .inl rfl
  obtain ⟨drawdown, -, ⟨-, hsame, -⟩ | ⟨-, -, hsame, -⟩ |
    ⟨-, -, -, flat, filled, s, margin, hflat, -, -, hsame, -⟩⟩ := killSwitchPhase_eq_ok hk
  · rwa [hsame]
  · rwa [hsame]
  · obtain ⟨mark, fee, realized, -, -, -, rfl, -⟩ := flatten_eq_ok hflat
    exact .inr (by rw [hsame]; rfl)

theorem settleTurn_order {core core' : ProfileCore} {decision : TurnDecision} {drawdownUsed : ℤ}
    {nextSeq : ℕ}
    (h : settleTurn env clock collectEvidence core decision drawdownUsed nextSeq =
      .ok (core', drafts)) :
    ∃ funded traded opened orders,
      TurnOrder env clock collectEvidence core core' decision drawdownUsed funded traded opened
        orders ∧ orders <:+: drafts := by
  obtain ⟨opened, counters, opening, closing, hopen, hclose, rfl⟩ := settleTurn_eq_ok h
  obtain ⟨funded, traded, coincident, orders, inside, hfund, haction, hinside, rfl⟩ :=
    openPhase_eq_ok hopen
  refine ⟨funded, traded, opened, orders, ⟨⟨_, hfund⟩, ⟨_, _, haction⟩, ⟨_, hinside⟩,
    (coincidentFunding_charges hfund).position_eq.1, (holdingFunding_charges hinside).position_eq.1,
    closePhase_position hclose⟩, ?_⟩
  exact ⟨(countDecision clock core.counters decision).2 :: coincident, inside ++ closing, by simp⟩

end Order

/-! ## Turnover -/

section Turnover

variable {env : ProfileEnv} {clock : TurnClock} {a b : Account} {drafts : List Draft}
  {collectEvidence : Bool} {action : ParsedAction} {sizing : Sizing}

/-- What a fill `f` that takes `a` to `b` leaves of a turnover cap: a sale is under it, a purchase is
but for its spread and impact, which are what it adds to the fill cost. -/
structure TurnoverKept (startingNav cap tick : ℤ) (a b : Account) (f : OrderFilled) : Prop where
  sold : f.side = .sell → ∃ used, turnover1e8 b.turnoverNotionalMicro startingNav = .ok used ∧
    used ≤ cap
  bought : f.side = .buy → ∃ used, turnover1e8
    (b.turnoverNotionalMicro - (b.fillCostCumMicro - a.fillCostCumMicro)) startingNav = .ok used ∧
    used ≤ cap
  cost : b.fillCostCumMicro - a.fillCostCumMicro =
    |f.notionalMicro - |f.qtyBase1e8| * f.refOpenPxTicks * tick / QTY_SCALE|

theorem applyPositionFill_fillCost {signedQty px lev fee notional reference : ℤ} {full : Bool}
    {spec : MarketSpec}
    (h : applyPositionFill a signedQty px lev fee notional reference full spec = .ok b) :
    b.fillCostCumMicro = a.fillCostCumMicro + |notional - reference| := by
  simp only [applyPositionFill, bind_ok_iff] at h
  obtain ⟨realized, -, h⟩ := h
  split at h
  · obtain rfl := Except.ok.inj h
    rfl
  · split at h <;>
    · obtain rfl := Except.ok.inj h
      rfl

/-- A smaller turnover uses less of the cap. -/
theorem turnover1e8_le {notional notional' startingNav used : ℤ} (hnonneg : 0 ≤ notional')
    (hle : notional' ≤ notional) (h : turnover1e8 notional startingNav = .ok used) :
    ∃ used', turnover1e8 notional' startingNav = .ok used' ∧ used' ≤ used := by
  obtain ⟨⟨-, hnav⟩, rfl⟩ := turnover1e8_eq_ok.mp h
  refine ⟨_, turnover1e8_eq_ok.mpr ⟨⟨hnonneg, hnav⟩, rfl⟩, Int.floor_le_floor ?_⟩
  refine div_le_div_of_nonneg_right ?_ (by exact_mod_cast hnav.le)
  exact_mod_cast mul_le_mul_of_nonneg_right hle (by decide)

/-- The turnover gate passed where all gates did. -/
theorem projectedTurnover_le {cap drawdownUsed : ℤ} (hcap : env.config.turnoverCap1e8 = some cap)
    (hpassed : anyFailed (riskChecks env a sizing drawdownUsed) = false) :
    sizing.projectedTurnover ≤ cap := by
  simp only [anyFailed, riskChecks, hcap, List.any_cons, List.any_nil,
    Bool.or_eq_false_iff, List.cons_append, List.nil_append] at hpassed
  simpa using hpassed.2.2.1

/-- What an order executes at its reference price is no more than what was projected for it. -/
theorem orderFill_projected {fillRow : BarRow} {fill : FillCalculation} {projected : ℤ}
    (hprojected : notionalMicro sizing.requestedDelta fillRow.o env.market.spec.tickSizeMicro =
      .ok projected)
    (h : orderFill env sizing fillRow = .ok fill) :
    0 ≤ fill.referenceNotionalMicro ∧ fill.referenceNotionalMicro ≤ projected := by
  have computed := calculateFill_computed h
  obtain ⟨-, -, hnonneg, hsplit, hrest, -⟩ := calculateFill_within h
  obtain ⟨⟨hpx, htick⟩, rfl⟩ := notionalMicro_eq_ok.mp hprojected
  rw [computed.reference, abs_of_nonneg hnonneg]
  refine ⟨Int.ediv_nonneg (mul_nonneg (mul_nonneg hnonneg hpx.le) htick.le) (by decide),
    Int.ediv_le_ediv (by decide) ?_⟩
  gcongr
  omega

/-- An order that passed the gates keeps the turnover cap but for its spread and impact. -/
theorem orderPhase_turnover {cap drawdownUsed : ℤ} (hcap : env.config.turnoverCap1e8 = some cap)
    (hnonneg : 0 ≤ a.turnoverNotionalMicro)
    (hsizing : sizeAction env clock a action = .ok sizing)
    (hpassed : anyFailed (riskChecks env a sizing drawdownUsed) = false)
    (h : orderPhase env clock collectEvidence false a action sizing = .ok (b, drafts)) :
    ∀ d ∈ drafts, ∀ f, d.payload = .orderFilled f →
      TurnoverKept env.config.startingNavMicro cap env.market.spec.tickSizeMicro a b f := by
  intro d hd f hf
  obtain ⟨-, markRow, fillRow, profit, target, -, hrow, -, -, -, projected, hprojected, hused⟩ :=
    sizeAction_sized hsizing
  have hgate := projectedTurnover_le hcap hpassed
  obtain ⟨hblocked, -⟩ | ⟨-, hne, horder⟩ | ⟨-, hzero, hrelabel⟩ := orderPhase_eq_ok h
  · simp at hblocked
  · obtain ⟨fillRow', fill, hrow', hfill, ⟨reason, -, rfl, rfl⟩ | ⟨hreason, hfilled, rfl⟩⟩ :=
      executeOrder_eq_ok horder
    · obtain rfl := List.mem_singleton.mp hd
      simp [fullCancel] at hf
    · obtain rfl : fillRow = fillRow' := Option.some.inj (hrow.symm.trans hrow')
      have computed := calculateFill_computed hfill
      have adverse := computed.adverse
      obtain ⟨hreference, hwithin⟩ := orderFill_projected hprojected hfill
      have hturnover := (applyPositionFill_effect hfilled).turnover
      have hcost := applyPositionFill_fillCost hfilled
      obtain rfl : (⟨env.aliasName, fill.side, |sizing.requestedDelta|,
          fill.quantities.filledQtyBase1e8, fill.refOpenPxTicks, fill.halfSpreadTicks,
          fill.impactTicks, fill.fillPxTicks, fill.notionalMicro, fill.feeMicro,
          fill.slippage1e8⟩ : OrderFilled) = f := by
        rcases List.mem_cons.mp hd with rfl | hd
        · exact Payload.orderFilled.inj hf
        · unfold partialCancel at hd
          split at hd
          · simp at hd
          · obtain rfl := List.mem_singleton.mp hd
            simp at hf
      have kept : ∀ notional, 0 ≤ notional → notional ≤ a.turnoverNotionalMicro + projected →
          ∃ used, turnover1e8 notional env.config.startingNavMicro = .ok used ∧ used ≤ cap :=
        fun notional hpos hle => by
          obtain ⟨used, hok, hused⟩ := turnover1e8_le hpos hle hused
          exact ⟨used, hok, hused.trans hgate⟩
      refine ⟨fun hside => ?_, fun hside => ?_, ?_⟩
      · dsimp only at hside
        have hprice : fill.fillPxTicks ≤ fillRow.o := by
          rw [computed.price, if_neg (by rw [← computed.side_eq, hside]; decide)]
          omega
        have hmono := @notional_mono fill.quantities.filledQtyBase1e8 _ _ _ computed.prices.2 hprice
        rw [← computed.notional, ← computed.reference] at hmono
        have hpos := computed.notional_nonneg
        exact kept _ (by omega) (by omega)
      · dsimp only at hside
        have hprice : fillRow.o ≤ fill.fillPxTicks := by
          rw [computed.price, if_pos (by rw [← computed.side_eq, hside])]
          omega
        have hmono := @notional_mono fill.quantities.filledQtyBase1e8 _ _ _ computed.prices.2 hprice
        rw [← computed.notional, ← computed.reference] at hmono
        rw [hcost, hturnover, abs_of_nonneg (by omega)]
        exact kept _ (by omega) (by omega)
      · dsimp only
        rw [hcost, add_sub_cancel_left, computed.reference, computed.ref_open]
  · unfold relabel at hrelabel
    split at hrelabel
    · obtain ⟨-, rfl⟩ := Prod.mk.inj hrelabel
      obtain rfl := List.mem_singleton.mp hd
      simp [roundingCancel] at hf
    · split at hrelabel <;>
      · obtain ⟨-, rfl⟩ := Prod.mk.inj hrelabel
        simp at hd

end Turnover

/-! ## Runs -/

section Loop

variable {σ : Type} {sha : Sha256} {limits : Json.Limits} {env : ProfileEnv} {episodeId : Text}
  {collectEvidence : Bool} {source : DecisionSource σ} {state next : ProfileState σ}

/-- The order of a turn, in the state it is entered in. -/
theorem TurnDrafts.order {turn : ℕ} {drafts : List Draft}
    (h : TurnDrafts sha limits env episodeId collectEvidence source turn state next drafts) :
    ∃ clock decision drawdownUsed funded traded opened orders,
      turnClock env turn = .ok clock ∧ drawdown1e8 state.core.snapshots = .ok drawdownUsed ∧
      Decides sha limits env episodeId collectEvidence source turn state decision ∧
      TurnOrder env clock collectEvidence state.core next.core decision drawdownUsed funded traded
        opened orders ∧ orders <:+: drafts ∧ 0 ≤ state.core.account.turnoverNotionalMicro := by
  obtain ⟨clock, drawdown, turnover, decision, asked, hclock, hdrawdown, hturnover, hdec, hsettle,
    -⟩ := h
  obtain ⟨funded, traded, opened, orders, horder, hinfix⟩ := settleTurn_order hsettle
  exact ⟨clock, decision, drawdown, funded, traded, opened, orders, hclock, hdrawdown,
    ⟨clock, drawdown, turnover, asked, hclock, hdrawdown, hturnover, hdec⟩, horder, hinfix,
    (turnover1e8_eq_ok.mp hturnover).1.1⟩

/-- **Fills move toward the target.** In every turn of every run, whatever state it is entered in: an
action that passes the gates has the largest target of its leverage, its fill leaves the position
between the old one and that target and takes no more than the share of the bar's volume, and where
nothing is filled the account is as before. A blocked action, and a turn without an action, leave the
account as it is, so what an order did not fill is not executed later. -/
theorem orders_move_toward_target {turn : ℕ} {drafts : List Draft}
    (h : TurnDrafts sha limits env episodeId collectEvidence source turn state next drafts) :
    ∃ clock decision drawdownUsed funded traded opened orders,
      turnClock env turn = .ok clock ∧ drawdown1e8 state.core.snapshots = .ok drawdownUsed ∧
      Decides sha limits env episodeId collectEvidence source turn state decision ∧
      TurnOrder env clock collectEvidence state.core next.core decision drawdownUsed funded traded
        opened orders ∧ orders <:+: drafts ∧
      (decision.parsed = none → traded = funded) ∧
      ∀ action, decision.parsed = some action → ∃ sizing,
        sizeAction env clock funded action = .ok sizing ∧
        (anyFailed (riskChecks env funded sizing drawdownUsed) = true → traded = funded) ∧
        (anyFailed (riskChecks env funded sizing drawdownUsed) = false →
          ∃ markRow fillRow profit target, Ordered env clock funded traded
            (action.targetFor env.aliasName) orders markRow fillRow profit target) := by
  obtain ⟨clock, decision, drawdown, funded, traded, opened, orders, hclock, hdrawdown, hdecides,
    horder, hinfix, -⟩ := h.order
  obtain ⟨counters, counters', haction⟩ := horder.order
  exact ⟨clock, decision, drawdown, funded, traded, opened, orders, hclock, hdrawdown, hdecides,
    horder, hinfix, actionPhase_ordered haction⟩

/-- **The turnover cap.** In every turn of every run under a turnover cap, an order that fills is
under the cap after it if it sells, and under it but for the cost of its own spread and impact if it
buys. -/
theorem turnover_capped {cap : ℤ} (hcap : env.config.turnoverCap1e8 = some cap) {turn : ℕ}
    {drafts : List Draft}
    (h : TurnDrafts sha limits env episodeId collectEvidence source turn state next drafts) :
    ∃ clock decision drawdownUsed funded traded opened orders,
      turnClock env turn = .ok clock ∧ drawdown1e8 state.core.snapshots = .ok drawdownUsed ∧
      Decides sha limits env episodeId collectEvidence source turn state decision ∧
      TurnOrder env clock collectEvidence state.core next.core decision drawdownUsed funded traded
        opened orders ∧ orders <:+: drafts ∧
      ∀ d ∈ orders, ∀ f, d.payload = .orderFilled f →
        TurnoverKept env.config.startingNavMicro cap env.market.spec.tickSizeMicro funded traded
          f := by
  obtain ⟨clock, decision, drawdown, funded, traded, opened, orders, hclock, hdrawdown, hdecides,
    horder, hinfix, hnonneg⟩ := h.order
  obtain ⟨counters, counters', haction⟩ := horder.order
  obtain ⟨_, hfund⟩ := horder.funding
  refine ⟨clock, decision, drawdown, funded, traded, opened, orders, hclock, hdrawdown, hdecides,
    horder, hinfix, fun d hd f hf => ?_⟩
  have hturnover : funded.turnoverNotionalMicro = state.core.account.turnoverNotionalMicro := by
    obtain ⟨-, rfl, -⟩ | ⟨row, draft, -, hsettle, -⟩ := coincidentFunding_eq_ok hfund
    · rfl
    · obtain ⟨_, _, _, happly, -⟩ := settleFunding_eq_ok hsettle
      obtain ⟨-, -, -, rfl⟩ := appliedFunding_eq_ok happly
      rfl
  obtain ⟨-, -, -, rfl⟩ | ⟨action, -, hprocess⟩ := actionPhase_eq_ok haction
  · simp at hd
  · obtain ⟨sizing, filled, hsizing, hphase, -, rfl⟩ := processAction_eq_ok hprocess
    rcases List.mem_append.mp hd with hd | hd
    · exact absurd hf (gateDrafts_unfilled hd f)
    · cases hgates : anyFailed (riskChecks env funded sizing drawdown) with
      | true =>
        obtain ⟨-, -, rfl⟩ | ⟨hpassed, -⟩ | ⟨hpassed, -⟩ := orderPhase_eq_ok hphase
        · simp at hd
        · simp [hgates] at hpassed
        · simp [hgates] at hpassed
      | false =>
        rw [hgates] at hphase
        exact orderPhase_turnover hcap (hturnover ▸ hnonneg) hsizing hgates hphase d hd f hf

end Loop

/-! ## The steady scenario -/

namespace Scenario

/-- A drawdown limit out of reach, and a turnover of at most the starting NAV. -/
def cappedConfig : EpisodeConfig :=
  { config 90_000_000 with
    turnoverCap1e8 := some 100_000_000
    turnover_cap_nonneg := by simp [OptionAtLeast] }

end Scenario

/-- The first order of the steady scenario. -/
theorem steady_moves_toward_target :
    ∃ (start next : ProfileState Unit) (drafts : List Draft),
      startState (Scenario.steady.env Scenario.cappedConfig 10_000) () = .ok start ∧
      TurnDrafts Scenario.sha Scenario.limits (Scenario.steady.env Scenario.cappedConfig 10_000) []
        true (.replay [Scenario.acting 10_000 none]) 0 start next drafts ∧
      0 < next.core.account.positionQtyBase1e8 ∧
      ∃ clock decision drawdownUsed funded traded opened orders,
        TurnOrder (Scenario.steady.env Scenario.cappedConfig 10_000) clock true start.core next.core
          decision drawdownUsed funded traded opened orders ∧
        (decision.parsed = none → traded = funded) := by
  have returned : Returns (do
      let env := Scenario.steady.env Scenario.cappedConfig 10_000
      let start ← startState env ()
      let next ← turnBody Scenario.sha Scenario.limits env [] true
        (.replay [Scenario.acting 10_000 none]) 0 start
      require (0 < next.core.account.positionQtyBase1e8) (.engineError "not held")
      return (start, next)) := by decide +kernel
  obtain ⟨_, returned⟩ := returned
  simp only [bind_ok_iff, require_eq_ok] at returned
  obtain ⟨start, hstart, next, hnext, _, hheld, -⟩ := returned
  obtain ⟨clock, drawdown, turnover, decision, asked, drafts, hdrafts⟩ := turnBody_eq_ok hnext
  have hturn : TurnDrafts Scenario.sha Scenario.limits
      (Scenario.steady.env Scenario.cappedConfig 10_000) [] true
      (.replay [Scenario.acting 10_000 none]) 0 start next drafts :=
    ⟨clock, drawdown, turnover, decision, asked, hdrafts⟩
  obtain ⟨clock, decision, drawdown, funded, traded, opened, orders, -, -, -, horder, -, hnone, -⟩ :=
    orders_move_toward_target hturn
  exact ⟨start, next, drafts, hstart, hturn, hheld, clock, decision, drawdown, funded, traded, opened,
    orders, horder, hnone⟩

/-- Under the cap but for its spread. -/
theorem steady_turnover_capped :
    ∃ (start next : ProfileState Unit) (drafts : List Draft),
      startState (Scenario.steady.env Scenario.cappedConfig 10_000) () = .ok start ∧
      TurnDrafts Scenario.sha Scenario.limits (Scenario.steady.env Scenario.cappedConfig 10_000) []
        true (.replay [Scenario.acting 10_000 none]) 0 start next drafts ∧
      ∃ clock decision drawdownUsed funded traded opened orders,
        TurnOrder (Scenario.steady.env Scenario.cappedConfig 10_000) clock true start.core next.core
          decision drawdownUsed funded traded opened orders ∧
        ∀ d ∈ orders, ∀ f, d.payload = .orderFilled f →
          TurnoverKept 10_000_000_000 100_000_000 10_000 funded traded f := by
  have returned : Returns (do
      let env := Scenario.steady.env Scenario.cappedConfig 10_000
      let start ← startState env ()
      let next ← turnBody Scenario.sha Scenario.limits env [] true
        (.replay [Scenario.acting 10_000 none]) 0 start
      return (start, next)) := by decide +kernel
  obtain ⟨_, returned⟩ := returned
  simp only [bind_ok_iff] at returned
  obtain ⟨start, hstart, next, hnext, -⟩ := returned
  obtain ⟨clock, drawdown, turnover, decision, asked, drafts, hdrafts⟩ := turnBody_eq_ok hnext
  have hturn : TurnDrafts Scenario.sha Scenario.limits
      (Scenario.steady.env Scenario.cappedConfig 10_000) [] true
      (.replay [Scenario.acting 10_000 none]) 0 start next drafts :=
    ⟨clock, drawdown, turnover, decision, asked, hdrafts⟩
  obtain ⟨clock, decision, drawdown, funded, traded, opened, orders, -, -, -, horder, -, hkept⟩ :=
    turnover_capped rfl hturn
  exact ⟨start, next, drafts, hstart, hturn, clock, decision, drawdown, funded, traded, opened,
    orders, horder, hkept⟩

/-- A purchase for the whole cap at the reference price, which the half spread takes past it. -/
theorem steady_turnover_exceeds :
    ∃ (start : ProfileState Unit) (clock : TurnClock) (decision : TurnDecision) (drawdown : ℤ)
      (funded traded : Account) (counters : Counters) (coincident orders : List Draft) (used : ℤ),
      startState (Scenario.steady.env Scenario.cappedConfig 10_000) () = .ok start ∧
      turnClock (Scenario.steady.env Scenario.cappedConfig 10_000) 0 = .ok clock ∧
      drawdown1e8 start.core.snapshots = .ok drawdown ∧
      Decides Scenario.sha Scenario.limits (Scenario.steady.env Scenario.cappedConfig 10_000) []
        true (.replay [Scenario.acting 10_000 none]) 0 start decision ∧
      coincidentFunding (Scenario.steady.env Scenario.cappedConfig 10_000) clock
        start.core.account = .ok (funded, coincident) ∧
      actionPhase (Scenario.steady.env Scenario.cappedConfig 10_000) clock true funded
        start.core.counters decision drawdown = .ok (traded, counters, orders) ∧
      (∃ d ∈ orders, ∃ f, d.payload = .orderFilled f ∧ f.side = .buy) ∧
      Scenario.cappedConfig.turnoverCap1e8 = some 100_000_000 ∧
      turnover1e8 traded.turnoverNotionalMicro Scenario.cappedConfig.startingNavMicro = .ok used ∧
      100_000_000 < used := by
  have returned : Returns (do
      let env := Scenario.steady.env Scenario.cappedConfig 10_000
      let start ← startState env ()
      let clock ← turnClock env 0
      let drawdown ← drawdown1e8 start.core.snapshots
      let turnover ← turnover1e8 start.core.account.turnoverNotionalMicro
        env.config.startingNavMicro
      let decided ← decideTurn Scenario.sha Scenario.limits env [] true
        (.replay [Scenario.acting 10_000 none]) clock drawdown turnover start
      let funded ← coincidentFunding env clock start.core.account
      let traded ← actionPhase env clock true funded.1 start.core.counters decided.1 drawdown
      let used ← turnover1e8 traded.1.turnoverNotionalMicro env.config.startingNavMicro
      require (100_000_000 < used ∧ traded.2.2.any fun d =>
        (Scenario.filled d.payload).any fun f => f.side = .buy) (.engineError "capped")) := by
    decide +kernel
  obtain ⟨_, returned⟩ := returned
  simp only [bind_ok_iff, require_eq_ok] at returned
  obtain ⟨start, hstart, clock, hclock, drawdown, hdrawdown, turnover, hturnover, ⟨decision, asked⟩,
    hdec, ⟨funded, coincident⟩, hfund, ⟨traded, counters, orders⟩, haction, used, hused,
    ⟨hover, hbuy⟩⟩ := returned
  refine ⟨start, clock, decision, drawdown, funded, traded, counters, coincident, orders, used,
    hstart, hclock, hdrawdown, ⟨clock, drawdown, turnover, asked, hclock, hdrawdown, hturnover, hdec⟩,
    hfund, haction, ?_, rfl, hused, hover⟩
  obtain ⟨d, hd, hbuy⟩ := List.any_eq_true.mp hbuy
  obtain ⟨f, hf, hside⟩ := (Option.any_eq_true _ _).mp hbuy
  exact ⟨d, hd, f, Scenario.filled_eq_some.mp hf, of_decide_eq_true hside⟩

end WagmiBench.Core
