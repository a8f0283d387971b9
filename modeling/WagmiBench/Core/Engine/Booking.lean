import WagmiBench.Core.Engine.Inversion

/-!
# Every account movement is booked

A phase of a turn moves the account and drafts events, by separate statements. `Booked` is the
relation both have to satisfy: fees, funding, penalties, turnover and position move by exactly what
the drafted events say, and cash moves by the realized price minus those charges. It is reflexive
and composes along appended drafts, so each phase is shown once and a turn is their composition.
-/

namespace WagmiBench.Core

open WagmiBench.Lib WagmiBench.Harness WagmiBench.Spec

/-! ## What an event books -/

/-- `fee_micro` of an `OrderFilled` event. -/
def Payload.fee : Payload → ℤ
  | .orderFilled p => p.feeMicro
  | _ => 0

/-- `amount_micro` of a `FundingApplied` event. -/
def Payload.fundingAmount : Payload → ℤ
  | .fundingApplied p => p.amountMicro
  | _ => 0

/-- `penalty_micro` of a `LiquidationTriggered` event. -/
def Payload.penalty : Payload → ℤ
  | .liquidationTriggered p => p.penaltyMicro
  | _ => 0

/-- `notional_micro` of an `OrderFilled` event. -/
def Payload.fillNotional : Payload → ℤ
  | .orderFilled p => p.notionalMicro
  | _ => 0

/-- The notional a `LiquidationTriggered` event closes, at its close price. -/
def Payload.closeNotional (tickSizeMicro : ℤ) : Payload → ℤ
  | .liquidationTriggered p => |p.positionQtyBase1e8| * p.closePxTicks * tickSizeMicro / QTY_SCALE
  | _ => 0

/-- The quantity of an `OrderFilled` event, negative for a sell. -/
def Payload.signedFill : Payload → ℤ
  | .orderFilled p => if p.side = .buy then p.qtyBase1e8 else -p.qtyBase1e8
  | _ => 0

/-- The position a `LiquidationTriggered` event closes. -/
def Payload.liquidatedQty : Payload → ℤ
  | .liquidationTriggered p => p.positionQtyBase1e8
  | _ => 0

/-- The sum over drafts of what their payloads book. -/
def bookedSum (f : Payload → ℤ) (drafts : List Draft) : ℤ := (drafts.map fun d => f d.payload).sum

@[simp] theorem bookedSum_nil (f : Payload → ℤ) : bookedSum f [] = 0 := rfl

@[simp] theorem bookedSum_cons (f : Payload → ℤ) (d : Draft) (drafts : List Draft) :
    bookedSum f (d :: drafts) = f d.payload + bookedSum f drafts := by
  simp [bookedSum]

@[simp] theorem bookedSum_append (f : Payload → ℤ) (l m : List Draft) :
    bookedSum f (l ++ m) = bookedSum f l + bookedSum f m := by
  simp [bookedSum]

/-- A payload that moves no money and no position. -/
def Payload.IsNeutral : Payload → Prop
  | .orderFilled _ | .fundingApplied _ | .liquidationTriggered _ => False
  | _ => True

theorem bookedSum_eq_zero {f : Payload → ℤ} (hf : ∀ p : Payload, p.IsNeutral → f p = 0)
    {drafts : List Draft} (h : ∀ d ∈ drafts, d.payload.IsNeutral) : bookedSum f drafts = 0 := by
  induction drafts with
  | nil => rfl
  | cons d drafts ih =>
    rw [bookedSum_cons, hf _ (h d (by simp)), ih fun d' hd' => h d' (by simp [hd'])]
    rfl

/-- An event of the turn that books nothing. -/
def Draft.IsNeutral (turn : ℕ) (d : Draft) : Prop := d.payload.IsNeutral ∧ d.turn = some turn

/-! ## The relation -/

/-- The account moved from `a` to `b` by exactly what the drafts book, all of them at `turn`. -/
structure Booked (turn : ℕ) (tickSizeMicro : ℤ) (a b : Account) (drafts : List Draft) : Prop where
  stamped : ∀ d ∈ drafts, d.turn = some turn
  fees : b.feesCumMicro = a.feesCumMicro + bookedSum Payload.fee drafts
  funding : b.fundingCumMicro = a.fundingCumMicro - bookedSum Payload.fundingAmount drafts
  penalty : b.liquidationPenaltyCumMicro =
    a.liquidationPenaltyCumMicro + bookedSum Payload.penalty drafts
  turnover : b.turnoverNotionalMicro = a.turnoverNotionalMicro +
    bookedSum Payload.fillNotional drafts + bookedSum (Payload.closeNotional tickSizeMicro) drafts
  position : b.positionQtyBase1e8 = a.positionQtyBase1e8 + bookedSum Payload.signedFill drafts -
    bookedSum Payload.liquidatedQty drafts
  cash : b.cashMicro - b.realizedPnl = a.cashMicro - a.realizedPnl

namespace Booked

variable {turn : ℕ} {tick : ℤ} {a b c : Account} {l m : List Draft}

/-- Drafts that book nothing leave the books as they are, whatever label the position carries. -/
theorem of_neutral (h : ∀ d ∈ l, d.IsNeutral turn)
    (hab : b = { a with targetLeverage1e4 := b.targetLeverage1e4 }) : Booked turn tick a b l := by
  have zero : ∀ f : Payload → ℤ, (∀ p : Payload, p.IsNeutral → f p = 0) → bookedSum f l = 0 :=
    fun f hf => bookedSum_eq_zero hf fun d hd => (h d hd).1
  have fee := zero Payload.fee (by rintro (_ | _) <;> simp [Payload.fee, Payload.IsNeutral])
  have funding := zero Payload.fundingAmount
    (by rintro (_ | _) <;> simp [Payload.fundingAmount, Payload.IsNeutral])
  have penalty := zero Payload.penalty
    (by rintro (_ | _) <;> simp [Payload.penalty, Payload.IsNeutral])
  have fill := zero Payload.fillNotional
    (by rintro (_ | _) <;> simp [Payload.fillNotional, Payload.IsNeutral])
  have close := zero (Payload.closeNotional tick)
    (by rintro (_ | _) <;> simp [Payload.closeNotional, Payload.IsNeutral])
  have signed := zero Payload.signedFill
    (by rintro (_ | _) <;> simp [Payload.signedFill, Payload.IsNeutral])
  have liquidated := zero Payload.liquidatedQty
    (by rintro (_ | _) <;> simp [Payload.liquidatedQty, Payload.IsNeutral])
  rw [hab]
  exact ⟨fun d hd => (h d hd).2, by simp [fee], by simp [funding], by simp [penalty],
    by simp [fill, close], by simp [signed, liquidated], rfl⟩

theorem refl (a : Account) : Booked turn tick a a [] := of_neutral (by simp) rfl

/-- Movements compose along appended drafts. -/
theorem trans (h₁ : Booked turn tick a b l) (h₂ : Booked turn tick b c m) :
    Booked turn tick a c (l ++ m) where
  stamped d hd := (List.mem_append.mp hd).elim (h₁.stamped d) (h₂.stamped d)
  fees := by rw [h₂.fees, h₁.fees, bookedSum_append]; ring
  funding := by rw [h₂.funding, h₁.funding, bookedSum_append]; ring
  penalty := by rw [h₂.penalty, h₁.penalty, bookedSum_append]; ring
  turnover := by
    rw [h₂.turnover, h₁.turnover, bookedSum_append, bookedSum_append]
    ring
  position := by
    rw [h₂.position, h₁.position, bookedSum_append, bookedSum_append]
    ring
  cash := h₂.cash.trans h₁.cash

/-- A draft that books nothing may stand in front. -/
theorem neutral_cons {d : Draft} (hd : d.IsNeutral turn) (h : Booked turn tick a b l) :
    Booked turn tick a b (d :: l) :=
  (of_neutral (l := [d]) (by simpa using hd) rfl).trans h

/-- Drafts that book nothing may stand behind. -/
theorem append_neutral (h : Booked turn tick a b l) (hm : ∀ d ∈ m, d.IsNeutral turn) :
    Booked turn tick a b (l ++ m) :=
  h.trans (of_neutral hm rfl)

/-- What the relation asks of a single event. -/
theorem single {d : Draft} (p : Payload) (hd : d.payload = p) (ht : d.turn = some turn)
    (fees : b.feesCumMicro = a.feesCumMicro + p.fee)
    (funding : b.fundingCumMicro = a.fundingCumMicro - p.fundingAmount)
    (penalty : b.liquidationPenaltyCumMicro = a.liquidationPenaltyCumMicro + p.penalty)
    (turnover : b.turnoverNotionalMicro =
      a.turnoverNotionalMicro + p.fillNotional + p.closeNotional tick)
    (position : b.positionQtyBase1e8 = a.positionQtyBase1e8 + p.signedFill - p.liquidatedQty)
    (cash : b.cashMicro - b.realizedPnl = a.cashMicro - a.realizedPnl) :
    Booked turn tick a b [d] := by
  subst hd
  exact ⟨by simpa using ht, by simpa using fees, by simpa using funding, by simpa using penalty,
    by simpa using turnover, by simpa using position, cash⟩

end Booked

/-! ## Funding -/

section Phases

variable {env : ProfileEnv} {clock : TurnClock} {account after : Account} {drafts : List Draft}
  {collectEvidence : Bool}

theorem settleFunding_booked {ts : ℤ} {row : FundingRow} {draft : Draft}
    (h : settleFunding env clock ts row account = .ok (after, draft)) :
    Booked clock.turn env.market.spec.tickSizeMicro account after [draft] := by
  obtain ⟨rate, indexPx, flow, happly, rfl⟩ := settleFunding_eq_ok h
  obtain ⟨-, -, -, rfl⟩ := appliedFunding_eq_ok happly
  refine .single (.fundingApplied _) rfl rfl (by simp [Payload.fee]) rfl
    (by simp [Payload.penalty]) (by simp [Payload.fillNotional, Payload.closeNotional])
    (by simp [Payload.signedFill, Payload.liquidatedQty]) ?_
  simp only [Account.realizedPnl]
  ring

theorem coincidentFunding_booked
    (h : coincidentFunding env clock account = .ok (after, drafts)) :
    Booked clock.turn env.market.spec.tickSizeMicro account after drafts := by
  rcases coincidentFunding_eq_ok h with ⟨-, rfl, rfl⟩ | ⟨row, draft, -, hsettle, rfl⟩
  · exact .refl _
  · exact settleFunding_booked hsettle

theorem holdingFunding_booked {rows : List FundingRow}
    (h : holdingFunding env clock rows account = .ok (after, drafts)) :
    Booked clock.turn env.market.spec.tickSizeMicro account after drafts := by
  induction rows generalizing account drafts with
  | nil =>
    simp only [holdingFunding, Except.ok.injEq, Prod.mk.injEq] at h
    obtain ⟨rfl, rfl⟩ := h
    exact .refl _
  | cons row rows ih =>
    rcases holdingFunding_cons_eq_ok h with ⟨next, draft, rest, hsettle, hrest, rfl⟩ | hrest
    · exact (settleFunding_booked hsettle).trans (ih hrest)
    · exact ih hrest

/-! ## Orders -/

/-- What a fill does to everything but the entry price and the leverage label. -/
structure FillEffect (a b : Account) (signedFillQty fee fillNotional : ℤ) : Prop where
  position : b.positionQtyBase1e8 = a.positionQtyBase1e8 + signedFillQty
  fees : b.feesCumMicro = a.feesCumMicro + fee
  funding : b.fundingCumMicro = a.fundingCumMicro
  penalty : b.liquidationPenaltyCumMicro = a.liquidationPenaltyCumMicro
  turnover : b.turnoverNotionalMicro = a.turnoverNotionalMicro + fillNotional
  cash : b.cashMicro - b.realizedPnl = a.cashMicro - a.realizedPnl
  killSwitch : b.killSwitchActive = a.killSwitchActive

theorem applyPositionFill_effect
    {signedFillQty fillPx targetLev fee fillNotional referenceNotional : ℤ} {full : Bool}
    {spec : MarketSpec}
    (h : applyPositionFill account signedFillQty fillPx targetLev fee fillNotional
      referenceNotional full spec = .ok after) :
    FillEffect account after signedFillQty fee fillNotional := by
  simp only [applyPositionFill, bind_ok_iff] at h
  obtain ⟨realized, -, h⟩ := h
  -- flat, opened or turned, kept on the same side
  split at h
  · obtain rfl := Except.ok.inj h
    constructor <;> simp only [Account.flat, Account.realizedPnl] <;> omega
  · split at h
    · obtain rfl := Except.ok.inj h
      constructor <;> simp only [Account.realizedPnl]
      ring
    · obtain rfl := Except.ok.inj h
      constructor <;> simp only [Account.realizedPnl]
      ring

theorem executeOrder_booked {action : ParsedAction} {sizing : Sizing}
    (h : executeOrder env clock account action sizing = .ok (after, drafts)) :
    Booked clock.turn env.market.spec.tickSizeMicro account after drafts := by
  obtain ⟨fillRow, fill, -, -, ⟨reason, -, rfl, rfl⟩ | ⟨-, hfill, rfl⟩⟩ := executeOrder_eq_ok h
  · exact .of_neutral (by simp [fullCancel, Draft.IsNeutral, Payload.IsNeutral]) rfl
  · have effect := applyPositionFill_effect hfill
    refine Booked.append_neutral (l := [_]) (.single (.orderFilled _) rfl rfl ?_ ?_ ?_ ?_ ?_ effect.cash) ?_
    · exact effect.fees
    · simpa [filledPayload, Payload.fundingAmount] using effect.funding
    · simpa [filledPayload, Payload.penalty] using effect.penalty
    · simpa [filledPayload, Payload.fillNotional, Payload.closeNotional] using effect.turnover
    · simpa [filledPayload, Payload.signedFill, Payload.liquidatedQty,
        FillCalculation.signedQty] using effect.position
    · -- the unfilled rest is a cancellation
      intro d hd
      split at hd
      · simp at hd
      · obtain rfl := List.mem_singleton.mp hd
        exact ⟨trivial, rfl⟩

theorem relabel_booked {sizing : Sizing}
    (h : relabel env clock collectEvidence account sizing = (after, drafts)) :
    Booked clock.turn env.market.spec.tickSizeMicro account after drafts := by
  unfold relabel at h
  split at h
  · obtain ⟨rfl, rfl⟩ := Prod.mk.inj h
    exact .of_neutral (by simp [roundingCancel, Draft.IsNeutral, Payload.IsNeutral]) rfl
  · split at h <;>
    · obtain ⟨rfl, rfl⟩ := Prod.mk.inj h
      exact .of_neutral (by simp) rfl

theorem orderPhase_booked {blocked : Bool} {action : ParsedAction} {sizing : Sizing}
    (h : orderPhase env clock collectEvidence blocked account action sizing = .ok (after, drafts)) :
    Booked clock.turn env.market.spec.tickSizeMicro account after drafts := by
  rcases orderPhase_eq_ok h with ⟨-, rfl, rfl⟩ | ⟨-, -, horder⟩ | ⟨-, -, hrelabel⟩
  · exact .refl _
  · exact executeOrder_booked horder
  · exact relabel_booked hrelabel

theorem gateDrafts_neutral {checks : List RiskCheck} {postKill : Bool} {action : ParsedAction}
    {rawSha256 : Option Text} :
    ∀ d ∈ gateDrafts clock checks postKill action rawSha256, d.IsNeutral clock.turn := by
  intro d hd
  rcases List.mem_append.mp hd with hd | hd
  · obtain ⟨c, -, rfl⟩ := List.mem_map.mp hd
    exact ⟨trivial, rfl⟩
  · split at hd
    · obtain rfl := List.mem_singleton.mp hd
      exact ⟨trivial, rfl⟩
    · simp at hd

theorem actionPhase_booked {counters counters' : Counters} {decision : TurnDecision}
    {drawdownUsed : ℤ}
    (h : actionPhase env clock collectEvidence account counters decision drawdownUsed =
      .ok (after, counters', drafts)) :
    Booked clock.turn env.market.spec.tickSizeMicro account after drafts := by
  rcases actionPhase_eq_ok h with ⟨-, rfl, -, rfl⟩ | ⟨action, -, haction⟩
  · exact .refl _
  · obtain ⟨sizing, orders, -, horder, -, rfl⟩ := processAction_eq_ok haction
    exact Booked.trans (.of_neutral gateDrafts_neutral rfl) (orderPhase_booked horder)

/-! ## Closing a position -/

theorem liquidate_booked {mark : BarRow} {liqPx : ℤ} {draft : Draft}
    (h : liquidate env clock account mark liqPx = .ok (after, draft)) :
    Booked clock.turn env.market.spec.tickSizeMicro account after [draft] := by
  obtain ⟨realized, penalty, notional, -, -, rfl, rfl, rfl⟩ := liquidate_eq_ok h
  refine .single (.liquidationTriggered _) rfl rfl (by simp [Payload.fee, Account.flat])
    (by simp [Payload.fundingAmount, Account.flat]) rfl
    (by simp [Payload.fillNotional, Payload.closeNotional])
    (by simp [Payload.signedFill, Payload.liquidatedQty, Account.flat]) ?_
  simp only [Account.realizedPnl, Account.flat]
  ring

theorem liquidationPhase_booked {liquidated : Bool}
    (h : liquidationPhase env clock account = .ok (after, liquidated, drafts)) :
    Booked clock.turn env.market.spec.tickSizeMicro account after drafts := by
  rcases liquidationPhase_eq_ok h with ⟨-, rfl, -, rfl⟩ |
    ⟨-, mark, liqPx, -, -, ⟨-, -, draft, hliq, rfl⟩ | ⟨-, -, rfl, distance, -, rfl⟩⟩
  · exact .refl _
  · exact liquidate_booked hliq
  · refine .of_neutral (fun d hd => ?_) rfl
    unfold nearLiquidationDrafts at hd
    split at hd
    · obtain rfl := List.mem_singleton.mp hd
      exact ⟨trivial, rfl⟩
    · simp at hd

/-- A forced order books the whole position with the sign that closes it. -/
theorem flatten_booked {draft : Draft} (h : flatten env clock account = .ok (after, draft)) :
    Booked clock.turn env.market.spec.tickSizeMicro account after [draft] := by
  obtain ⟨mark, fee, realized, -, -, -, rfl, rfl⟩ := flatten_eq_ok h
  refine .single (.orderFilled _) rfl rfl rfl (by simp [Payload.fundingAmount, Account.flat])
    (by simp [Payload.penalty, Account.flat])
    (by simp [Payload.fillNotional, Payload.closeNotional]) ?_ ?_
  · simp only [Account.flat, Payload.signedFill, Payload.liquidatedQty]
    rcases lt_or_ge 0 account.positionQtyBase1e8 with hq | hq
    · simp [hq, abs_of_pos hq]
    · simp [not_lt.mpr hq, abs_of_nonpos hq]
  · simp only [Account.realizedPnl, Account.flat]
    ring

theorem marginDrafts_neutral (h : marginDrafts env clock collectEvidence account = .ok drafts) :
    ∀ d ∈ drafts, d.IsNeutral clock.turn := by
  rcases marginDrafts_eq_ok h with ⟨-, rfl⟩ | ⟨-, payload, -, rfl⟩
  · simp
  · simp [Draft.IsNeutral, Payload.IsNeutral]

theorem Booked.kill {turn : ℕ} {tick : ℤ} {a b : Account} {l : List Draft}
    (h : Booked turn tick a b l) : Booked turn tick a b.kill l :=
  ⟨h.stamped, h.fees, h.funding, h.penalty, h.turnover, h.position, h.cash⟩

theorem killSwitchPhase_booked {terminal killed : Bool} {snapshots snapshots' : SnapshotLog}
    {nextSeq : ℕ}
    (h : killSwitchPhase env clock collectEvidence terminal account snapshots nextSeq =
      .ok (after, killed, snapshots', drafts)) :
    Booked clock.turn env.market.spec.tickSizeMicro account after drafts := by
  obtain ⟨drawdown, -, ⟨-, rfl, -, -, rfl⟩ | ⟨-, -, rfl, -, -, rfl⟩ |
    ⟨-, -, -, flat, filled, s, margin, hflat, -, hmargin, rfl, -, rfl⟩⟩ := killSwitchPhase_eq_ok h
  · exact .refl _
  · exact (Booked.of_neutral (by simp [killDraft, Draft.IsNeutral, Payload.IsNeutral]) rfl).kill
  · refine ((flatten_booked hflat).trans (.of_neutral (fun d hd => ?_) rfl)).kill
    rcases List.mem_append.mp hd with hd | hd
    · exact marginDrafts_neutral hmargin d hd
    · obtain rfl := List.mem_singleton.mp hd
      exact ⟨trivial, rfl⟩

/-! ## Turns -/

theorem countDecision_neutral (counters : Counters) (decision : TurnDecision) :
    (countDecision clock counters decision).2.IsNeutral clock.turn := by
  unfold countDecision
  cases decision.outcome <;> exact ⟨trivial, rfl⟩

theorem openPhase_booked {counters counters' : Counters} {decision : TurnDecision}
    {drawdownUsed : ℤ}
    (h : openPhase env clock collectEvidence account counters decision drawdownUsed =
      .ok (after, counters', drafts)) :
    Booked clock.turn env.market.spec.tickSizeMicro account after drafts := by
  obtain ⟨funded, traded, coincident, orders, inside, hc, ha, hi, rfl⟩ := openPhase_eq_ok h
  exact (((coincidentFunding_booked hc).neutral_cons (countDecision_neutral counters decision)).trans
    (actionPhase_booked ha)).trans (holdingFunding_booked hi)

theorem closePhase_booked {counters : Counters} {snapshots : SnapshotLog} {nextSeq : ℕ}
    {core : ProfileCore}
    (h : closePhase env clock collectEvidence account counters snapshots nextSeq =
      .ok (core, drafts)) :
    Booked clock.turn env.market.spec.tickSizeMicro account core.account drafts := by
  obtain ⟨margin, closed, liquidated, liquidation, s, killed, kill, last, hm, hl, -, hk, hlast, -, -,
    -, rfl⟩ := closePhase_eq_ok h
  exact (((Booked.of_neutral (marginDrafts_neutral hm) rfl).trans
    (liquidationPhase_booked hl)).trans (killSwitchPhase_booked hk)).append_neutral
    (marginDrafts_neutral hlast)

/-- **A turn books what it does.** -/
theorem settleTurn_booked {core core' : ProfileCore} {decision : TurnDecision} {drawdownUsed : ℤ}
    {nextSeq : ℕ}
    (h : settleTurn env clock collectEvidence core decision drawdownUsed nextSeq =
      .ok (core', drafts)) :
    Booked clock.turn env.market.spec.tickSizeMicro core.account core'.account drafts := by
  obtain ⟨account, counters, opening, closing, ho, hc, rfl⟩ := settleTurn_eq_ok h
  exact (openPhase_booked ho).trans (closePhase_booked hc)

/-! ## Snapshots of a turn -/

/-- The account a closing phase ends with is the one its last snapshot was taken of. -/
theorem killSwitchPhase_snapshot {terminal killed : Bool} {snapshots snapshots' : SnapshotLog}
    {nextSeq : ℕ} (hlast : SnapshotOf account snapshots.last)
    (h : killSwitchPhase env clock collectEvidence terminal account snapshots nextSeq =
      .ok (after, killed, snapshots', drafts)) :
    SnapshotOf after snapshots'.last ∧ snapshots'.earlier = snapshots.earlier := by
  obtain ⟨drawdown, -, ⟨-, rfl, -, rfl, -⟩ | ⟨-, -, rfl, -, rfl, -⟩ |
    ⟨-, -, -, flat, filled, s, margin, -, hs, -, rfl, rfl, -⟩⟩ := killSwitchPhase_eq_ok h
  · exact ⟨hlast, rfl⟩
  · exact ⟨⟨hlast.position, hlast.cash, hlast.nav, hlast.fees, hlast.funding, hlast.realized,
      hlast.penalty⟩, rfl⟩
  · have taken := (snapshot_eq_ok hs).1
    exact ⟨⟨taken.position, taken.cash, taken.nav, taken.fees, taken.funding, taken.realized,
      taken.penalty⟩, rfl⟩

/-- A turn appends exactly one snapshot, taken of the account it ends with. -/
theorem settleTurn_snapshot {core core' : ProfileCore} {decision : TurnDecision}
    {drawdownUsed : ℤ} {nextSeq : ℕ}
    (h : settleTurn env clock collectEvidence core decision drawdownUsed nextSeq =
      .ok (core', drafts)) :
    SnapshotOf core'.account core'.snapshots.last ∧
      core'.snapshots.earlier = core.snapshots.all := by
  obtain ⟨account, counters, opening, closing, -, hc, rfl⟩ := settleTurn_eq_ok h
  obtain ⟨margin, closed, liquidated, liquidation, s, killed, kill, last, -, -, hs, hk, -, -, -, -,
    -⟩ := closePhase_eq_ok hc
  exact killSwitchPhase_snapshot (by simpa using (snapshot_eq_ok hs).1) hk

end Phases

end WagmiBench.Core
