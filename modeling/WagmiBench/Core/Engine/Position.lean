import WagmiBench.Core.Engine.Drafts
import WagmiBench.Core.Engine.Log

/-!
# How a position is represented

A held position is a multiple of the quantity step, carries a positive leverage label and an entry
price of at least one tick; a flat account carries neither. The representation survives every way an
account changes: partial fills, partial closes to nothing, turns, cancellations, relabelling,
settlements, liquidation and the kill switch. So the functions that divide by the label or start from
the entry price can be computed wherever their other arguments are valid.
-/

namespace WagmiBench.Core

open WagmiBench.Lib WagmiBench.Harness WagmiBench.Spec

/-- The representation of a position. -/
structure Account.Represented (account : Account) (spec : MarketSpec) : Prop where
  onStep : spec.qtyStepBase1e8 ∣ account.positionQtyBase1e8
  flat : account.positionQtyBase1e8 = 0 →
    account.entryPxTicks = 0 ∧ account.targetLeverage1e4 = 0
  held : account.positionQtyBase1e8 ≠ 0 →
    0 < account.targetLeverage1e4 ∧ 1 ≤ account.entryPxTicks

/-! ## Sizing and filling on the step -/

theorem floorToStep_eq_ok {value step q : ℤ} (h : floorToStep value step = .ok q) :
    step ∣ q ∧ |q| ≤ |value| ∧ (0 ≤ value → 0 ≤ q) ∧ (value = 0 → q = 0) := by
  simp only [floorToStep, bind_ok_iff, require_eq_ok, pure_eq_ok, Except.ok.injEq] at h
  obtain ⟨-, hstep, rfl⟩ := h
  have hle : |value| / step * step ≤ |value| := Int.ediv_mul_le _ (by omega)
  have hnonneg : 0 ≤ |value| / step * step :=
    mul_nonneg (Int.ediv_nonneg (abs_nonneg _) hstep.le) hstep.le
  have hdvd : step ∣ |value| / step * step := dvd_mul_left _ _
  split
  · exact ⟨hdvd, by rwa [abs_of_nonneg hnonneg], fun _ => hnonneg, fun hv => by simp [hv]⟩
  · rename_i hneg
    refine ⟨hdvd.neg_right, ?_, fun hv => absurd hv hneg, fun hv => absurd hv.ge hneg⟩
    rwa [abs_neg, abs_of_nonneg hnonneg]

theorem targetQuantity_eq_ok {targetLev equity px tick step target : ℤ}
    (h : targetQuantityBase1e8 targetLev equity px tick step = .ok target) :
    step ∣ target ∧ (target ≠ 0 → targetLev ≠ 0) := by
  simp only [targetQuantityBase1e8, bind_ok_iff] at h
  obtain ⟨raw, hraw, hstep⟩ := h
  obtain ⟨hdvd, -, -, hzero⟩ := floorToStep_eq_ok hstep
  refine ⟨hdvd, fun hne hlev => hne (hzero ?_)⟩
  rw [hlev] at hraw
  simp only [rawTargetQuantityBase1e8, bind_ok_iff, pure_eq_ok, Except.ok.injEq] at hraw
  obtain ⟨-, -, -, -, rfl⟩ := hraw
  simp [floorFraction]

/-- What a fill says about its quantity and its price. -/
structure FillCalculation.Within (fill : FillCalculation) (side : Side) (requested step : ℤ) :
    Prop where
  side_eq : fill.side = side
  onStep : step ∣ fill.quantities.filledQtyBase1e8
  nonneg : 0 ≤ fill.quantities.filledQtyBase1e8
  split : fill.quantities.filledQtyBase1e8 + fill.quantities.cancelledQtyBase1e8 = requested
  rest_nonneg : 0 ≤ fill.quantities.cancelledQtyBase1e8
  price_pos : 1 ≤ fill.fillPxTicks

theorem FillQuantity.make_eq_ok {requested capacity filled cancelled : ℤ} {q : FillQuantity}
    (h : FillQuantity.make requested capacity filled cancelled = .ok q) :
    q.requestedQtyBase1e8 = requested ∧ q.filledQtyBase1e8 = filled ∧
      q.cancelledQtyBase1e8 = cancelled := by
  unfold FillQuantity.make at h
  split at h
  · split at h
    · split at h
      · obtain rfl := Except.ok.inj h
        exact ⟨rfl, rfl, rfl⟩
      · simp at h
    · simp at h
  · simp at h

theorem calculateFill_within {side : Side} {requested volume cap step ref tick spread impact : ℤ}
    {model : ImpactModel} {taker multiplier : ℤ} {fill : FillCalculation}
    (h : calculateFill side requested volume cap step ref tick spread impact model taker
      multiplier = .ok fill) : fill.Within side requested step := by
  simp only [calculateFill, bind_ok_iff, pure_eq_ok, Except.ok.injEq, notionalMicro_eq_ok] at h
  obtain ⟨q, hq, _, -, _, -, _, -, _, -, _, -, px, -, _, ⟨hpos, rfl⟩, _, -, _, -, _, -, rfl⟩ := h
  simp only [participationFill, bind_ok_iff] at hq
  obtain ⟨-, -, capacity, -, filled, hfilled, hmake⟩ := hq
  obtain ⟨hrequested, hfilled_eq, -⟩ := FillQuantity.make_eq_ok hmake
  exact ⟨rfl, hfilled_eq ▸ (floorToStep_eq_ok hfilled).1, q.nonneg.2.2.1,
    q.filled_add_cancelled.trans hrequested, q.nonneg.2.2.2, Int.add_one_le_iff.mpr hpos.1⟩

/-- What an order asks for: from the held position to a target on the step, which is nothing unless
its leverage is not zero. -/
theorem sizeAction_target {env : ProfileEnv} {clock : TurnClock} {account : Account}
    {action : ParsedAction} {sizing : Sizing}
    (h : sizeAction env clock account action = .ok sizing) :
    ∃ target, sizing.requestedDelta = target - account.positionQtyBase1e8 ∧
      env.market.spec.qtyStepBase1e8 ∣ target ∧ (target ≠ 0 → sizing.targetLev ≠ 0) := by
  simp only [sizeAction, bind_ok_iff, pure_eq_ok, Except.ok.injEq] at h
  obtain ⟨markRow, -, decisionUpnl, -, fillRow, -, target, htarget, raw, -, notional, -,
    projected, -, rfl⟩ := h
  exact ⟨target, rfl, targetQuantity_eq_ok htarget⟩

theorem sign_eq_sign_iff {p q : ℤ} (hp : p ≠ 0) (hq : q ≠ 0) :
    sign p = sign q ↔ (0 < p ↔ 0 < q) := by
  unfold sign
  split <;> split <;> (try split) <;> (try split) <;> omega

/-! ## What a fill does to the position -/

/-- The signed quantity of an order's fill moves the position toward its target and no further. -/
structure Toward (position target signedQty : ℤ) : Prop where
  nonzero : signedQty ≠ 0
  up : 0 < signedQty → position + signedQty ≤ target
  down : signedQty < 0 → target ≤ position + signedQty

theorem orderFill_toward {env : ProfileEnv} {account : Account} {sizing : Sizing} {fillRow : BarRow}
    {fill : FillCalculation} {action : ParsedAction} {target : ℤ}
    (hdelta : sizing.requestedDelta = target - account.positionQtyBase1e8)
    (hfill : orderFill env sizing fillRow = .ok fill)
    (hreason : cancelReason env fill action = none) :
    Toward account.positionQtyBase1e8 target fill.signedQty ∧
      env.market.spec.qtyStepBase1e8 ∣ fill.signedQty ∧ 1 ≤ fill.fillPxTicks ∧
      (fill.quantities.cancelledQtyBase1e8 = 0 →
        account.positionQtyBase1e8 + fill.signedQty = target) := by
  have within := calculateFill_within hfill
  obtain ⟨hside, hstep, hnonneg, hsplit, hrest, hpx⟩ := within
  have hne : fill.quantities.filledQtyBase1e8 ≠ 0 := by
    intro hzero
    simp [cancelReason, hzero] at hreason
  unfold FillCalculation.signedQty
  rw [hside]
  by_cases hup : 0 < sizing.requestedDelta
  · rw [abs_of_pos hup] at hsplit
    simp only [hup, if_true]
    exact ⟨⟨hne, fun _ => by omega, fun _ => by omega⟩, hstep, hpx, fun _ => by omega⟩
  · rw [abs_of_nonpos (by omega)] at hsplit
    simp only [hup, if_false, reduceCtorEq]
    exact ⟨⟨by omega, fun _ => by omega, fun _ => by omega⟩, hstep.neg_right, hpx,
      fun _ => by omega⟩

/-- The weighted entry price of an increased position lies between the old entry and the fill. -/
theorem weighted_between {entry px m n : ℤ} (hm : 0 ≤ m) (hn : 0 ≤ n) (hpos : 0 < m + n) :
    min entry px ≤ (entry * m + px * n) / (m + n) ∧
      (entry * m + px * n) / (m + n) ≤ max entry px := by
  constructor
  · refine (Int.le_ediv_iff_mul_le hpos).mpr ?_
    have h₁ := mul_le_mul_of_nonneg_right (min_le_left entry px) hm
    have h₂ := mul_le_mul_of_nonneg_right (min_le_right entry px) hn
    calc min entry px * (m + n) = min entry px * m + min entry px * n := by ring
      _ ≤ entry * m + px * n := add_le_add h₁ h₂
  · refine Int.ediv_le_of_le_mul hpos ?_
    have h₁ := mul_le_mul_of_nonneg_right (le_max_left entry px) hm
    have h₂ := mul_le_mul_of_nonneg_right (le_max_right entry px) hn
    calc entry * m + px * n ≤ max entry px * m + max entry px * n := add_le_add h₁ h₂
      _ = max entry px * (m + n) := by ring

/-- How a fill changes a position: closed, opened or turned, increased, or reduced. -/
inductive FillStep (a b : Account) (signedQty px targetLev : ℤ) (full : Bool) : Prop
  | closed (hnew : a.positionQtyBase1e8 + signedQty = 0) (position : b.positionQtyBase1e8 = 0)
      (entry : b.entryPxTicks = 0) (label : b.targetLeverage1e4 = 0)
  | opened (hnew : a.positionQtyBase1e8 + signedQty ≠ 0)
      (hside : a.positionQtyBase1e8 = 0 ∨
        sign (a.positionQtyBase1e8 + signedQty) ≠ sign a.positionQtyBase1e8)
      (position : b.positionQtyBase1e8 = a.positionQtyBase1e8 + signedQty)
      (entry : b.entryPxTicks = px) (label : b.targetLeverage1e4 = |targetLev|)
  | increased (hnew : a.positionQtyBase1e8 + signedQty ≠ 0) (hold : a.positionQtyBase1e8 ≠ 0)
      (hside : sign (a.positionQtyBase1e8 + signedQty) = sign a.positionQtyBase1e8)
      (hgrown : |a.positionQtyBase1e8| < |a.positionQtyBase1e8 + signedQty|)
      (position : b.positionQtyBase1e8 = a.positionQtyBase1e8 + signedQty)
      (entry : b.entryPxTicks = (a.entryPxTicks * |a.positionQtyBase1e8| + px * |signedQty|) /
        |a.positionQtyBase1e8 + signedQty|)
      (label : b.targetLeverage1e4 = |targetLev|)
  | reduced (hnew : a.positionQtyBase1e8 + signedQty ≠ 0) (hold : a.positionQtyBase1e8 ≠ 0)
      (hside : sign (a.positionQtyBase1e8 + signedQty) = sign a.positionQtyBase1e8)
      (hshrunk : ¬ |a.positionQtyBase1e8| < |a.positionQtyBase1e8 + signedQty|)
      (position : b.positionQtyBase1e8 = a.positionQtyBase1e8 + signedQty)
      (entry : b.entryPxTicks = a.entryPxTicks)
      (label : b.targetLeverage1e4 = if full then |targetLev| else a.targetLeverage1e4)

theorem applyPositionFill_step {a b : Account}
    {signedQty px targetLev fee fillNotional referenceNotional : ℤ} {full : Bool} {spec : MarketSpec}
    (h : applyPositionFill a signedQty px targetLev fee fillNotional referenceNotional full spec =
      .ok b) : FillStep a b signedQty px targetLev full := by
  simp only [applyPositionFill, bind_ok_iff] at h
  obtain ⟨realized, -, h⟩ := h
  split at h
  · rename_i hnew
    obtain rfl := Except.ok.inj h
    exact .closed hnew rfl rfl rfl
  · rename_i hnew
    split at h
    · rename_i hside
      obtain rfl := Except.ok.inj h
      exact .opened hnew hside rfl rfl rfl
    · rename_i hside
      rw [not_or, not_not] at hside
      obtain rfl := Except.ok.inj h
      by_cases hgrown : |a.positionQtyBase1e8| < |a.positionQtyBase1e8 + signedQty|
      · exact .increased hnew hside.1 hside.2 hgrown rfl (by simp [hgrown]) (by simp [hgrown])
      · refine .reduced hnew hside.1 hside.2 hgrown rfl (by simp [hgrown]) ?_
        simp [hgrown]

/-- A position that is increased is increased on its own side. -/
theorem same_side_of_grown {p q : ℤ} (hside : sign (p + q) = sign p) (hp : p ≠ 0) (hnew : p + q ≠ 0)
    (hgrown : |p| < |p + q|) : (0 < p ∧ 0 < q) ∨ (p < 0 ∧ q < 0) := by
  rw [sign_eq_sign_iff hnew hp] at hside
  rcases lt_or_gt_of_ne hp with hneg | hpos
  · rw [abs_of_neg hneg, abs_of_neg (by omega)] at hgrown
    exact .inr ⟨hneg, by omega⟩
  · rw [abs_of_pos hpos, abs_of_pos (hside.mpr hpos)] at hgrown
    exact .inl ⟨hpos, by omega⟩

theorem abs_add_of_same_side {p q : ℤ} (h : (0 < p ∧ 0 < q) ∨ (p < 0 ∧ q < 0)) :
    |p + q| = |p| + |q| := by
  rcases h with ⟨hp, hq⟩ | ⟨hp, hq⟩
  · rw [abs_of_pos hp, abs_of_pos hq, abs_of_pos (by omega)]
  · rw [abs_of_neg hp, abs_of_neg hq, abs_of_neg (by omega)]
    ring

section Phases

variable {env : ProfileEnv} {clock : TurnClock} {account after : Account} {drafts : List Draft}
  {collectEvidence : Bool}

/-- A fill toward the target of an order keeps the representation. -/
theorem fill_represented {a b : Account} {action : ParsedAction} {sizing : Sizing}
    {fillRow : BarRow} {fill : FillCalculation} (hsizing : sizeAction env clock a action = .ok sizing)
    (hfill : orderFill env sizing fillRow = .ok fill)
    (hreason : cancelReason env fill action = none)
    (hfilled : filledAccount env a sizing fill = .ok b) (ha : a.Represented env.market.spec) :
    b.Represented env.market.spec := by
  obtain ⟨target, hdelta, htarget, hlev⟩ := sizeAction_target hsizing
  obtain ⟨toward, hstep, hpx, hfull⟩ := orderFill_toward hdelta hfill hreason
  have onStep := dvd_add ha.onStep hstep
  obtain ⟨hnonzero, hup, hdown⟩ := toward
  have label_pos : target ≠ 0 → 0 < |sizing.targetLev| := fun h => abs_pos.mpr (hlev h)
  cases applyPositionFill_step hfilled with
  | closed hnew position entry label =>
    exact ⟨by simp [position], fun _ => ⟨entry, label⟩, fun h => absurd position h⟩
  | opened hnew hside position entry label =>
    refine ⟨position ▸ onStep, fun h => absurd (position ▸ h) hnew, fun _ => ⟨?_, entry ▸ hpx⟩⟩
    rw [label]
    refine label_pos fun hzero => ?_
    -- an order for nothing cannot open or turn a position
    rcases hside with hflat | hside
    · omega
    · by_cases hp : a.positionQtyBase1e8 = 0
      · omega
      · rw [Ne, sign_eq_sign_iff hnew hp] at hside
        omega
  | increased hnew hold hside hgrown position entry label =>
    obtain ⟨-, hentry⟩ := ha.held hold
    have same := same_side_of_grown hside hold hnew hgrown
    have hsum := abs_add_of_same_side same
    refine ⟨position ▸ onStep, fun h => absurd (position ▸ h) hnew, fun _ => ⟨?_, ?_⟩⟩
    · rw [label]
      exact label_pos fun hzero => by omega
    · rw [entry, hsum]
      exact le_trans (le_min hentry hpx) (weighted_between (abs_nonneg _) (abs_nonneg _)
        (hsum ▸ abs_pos.mpr hnew)).1
  | reduced hnew hold hside hshrunk position entry label =>
    obtain ⟨hlabel, hentry⟩ := ha.held hold
    refine ⟨position ▸ onStep, fun h => absurd (position ▸ h) hnew, fun _ => ⟨?_, entry ▸ hentry⟩⟩
    rw [label]
    split
    · rename_i hdone
      refine label_pos fun hzero => hnew ?_
      rw [hfull (by simpa using hdone), hzero]
    · exact hlabel

/-- Every way an account changes before the close keeps the representation. -/
theorem openStep_represented :
    OpenStep env clock collectEvidence fun a => a.Represented env.market.spec where
  funding hsettle ha := by
    obtain ⟨_, _, _, happly, -⟩ := settleFunding_eq_ok hsettle
    obtain ⟨-, -, -, rfl⟩ := appliedFunding_eq_ok happly
    exact ⟨ha.onStep, ha.flat, ha.held⟩
  fill hsizing _ _ hfill hreason hfilled ha := fill_represented hsizing hfill hreason hfilled ha
  label hsizing hdelta hrelabel ha := by
    obtain ⟨target, htarget, -, hlev⟩ := sizeAction_target hsizing
    obtain ⟨hafter, hlabel | ⟨hq, hlabel⟩⟩ := relabel_eq hrelabel
    · rw [hafter, hlabel]
      exact ha
    · -- the held position is the target, which has a leverage
      rw [hafter, hlabel]
      exact ⟨ha.onStep, fun h => absurd h hq,
        fun _ => ⟨abs_pos.mpr (hlev (by omega)), (ha.held hq).2⟩⟩

theorem Account.flat_represented (account : Account) (spec : MarketSpec) :
    account.flat.Represented spec :=
  ⟨dvd_zero _, fun _ => ⟨rfl, rfl⟩, fun h => absurd rfl h⟩

theorem liquidationPhase_represented {liquidated : Bool} (ha : account.Represented env.market.spec)
    (h : liquidationPhase env clock account = .ok (after, liquidated, drafts)) :
    after.Represented env.market.spec := by
  obtain ⟨-, rfl, -⟩ | ⟨-, mark, liqPx, -, -, ⟨-, -, draft, hliq, -⟩ | ⟨-, -, rfl, -⟩⟩ :=
    liquidationPhase_eq_ok h
  · exact ha
  · obtain ⟨_, _, _, -, -, -, rfl, -⟩ := liquidate_eq_ok hliq
    exact ⟨dvd_zero _, fun _ => ⟨rfl, rfl⟩, fun h => absurd rfl h⟩
  · exact ha

theorem killSwitchPhase_represented {terminal killed : Bool} {snapshots snapshots' : SnapshotLog}
    {nextSeq : ℕ} (ha : account.Represented env.market.spec)
    (h : killSwitchPhase env clock collectEvidence terminal account snapshots nextSeq =
      .ok (after, killed, snapshots', drafts)) : after.Represented env.market.spec := by
  obtain ⟨drawdown, -, ⟨-, rfl, -⟩ | ⟨-, -, rfl, -⟩ |
    ⟨-, -, -, flat, filled, s, margin, hflat, -, -, rfl, -⟩⟩ := killSwitchPhase_eq_ok h
  · exact ha
  · exact ⟨ha.onStep, ha.flat, ha.held⟩
  · obtain ⟨_, _, _, -, -, -, rfl, -⟩ := flatten_eq_ok hflat
    exact ⟨dvd_zero _, fun _ => ⟨rfl, rfl⟩, fun h => absurd rfl h⟩

end Phases

/-! ## The prices a position was built at -/

/-- What the executions of a run say about its position: its quantity, and the prices of the fills
that opened and increased it. -/
structure Basis where
  position : ℤ
  prices : List ℤ

namespace Basis

def start : Basis := ⟨0, []⟩

def filled (basis : Basis) (signedQty px : ℤ) : Basis :=
  let next := basis.position + signedQty
  if next = 0 then start
  else if basis.position = 0 ∨ sign next ≠ sign basis.position then ⟨next, [px]⟩
  else if |basis.position| < |next| then ⟨next, px :: basis.prices⟩
  else ⟨next, basis.prices⟩

/-- A fill changes the basis, a liquidation ends the position. -/
def after (basis : Basis) (p : Payload) : Basis :=
  match p with
  | .orderFilled fill => basis.filled (Payload.signedFill p) fill.fillPxTicks
  | .liquidationTriggered _ => start
  | _ => basis

def through (basis : Basis) (drafts : List Draft) : Basis :=
  drafts.foldl (fun b d => b.after d.payload) basis

variable {basis : Basis}

@[simp] theorem through_nil : basis.through [] = basis := rfl

@[simp] theorem through_cons (d : Draft) (drafts : List Draft) :
    basis.through (d :: drafts) = (basis.after d.payload).through drafts := rfl

@[simp] theorem through_append (l m : List Draft) : basis.through (l ++ m) = (basis.through l).through m :=
  List.foldl_append

/-- The basis is that of the account: its quantity, and prices around its entry. -/
structure Tracks (basis : Basis) (account : Account) : Prop where
  position : basis.position = account.positionQtyBase1e8
  bounded : account.positionQtyBase1e8 ≠ 0 →
    (∃ lo ∈ basis.prices, lo ≤ account.entryPxTicks) ∧ ∃ hi ∈ basis.prices, account.entryPxTicks ≤ hi

theorem start_tracks {account : Account} (h : account.positionQtyBase1e8 = 0) : start.Tracks account :=
  ⟨h.symm, fun hne => absurd h hne⟩

theorem Tracks.fill {a b : Account} {signedQty px targetLev : ℤ} {full : Bool}
    (h : basis.Tracks a) (hstep : FillStep a b signedQty px targetLev full) :
    (basis.filled signedQty px).Tracks b := by
  unfold Basis.filled
  rw [h.position]
  cases hstep with
  | closed hnew position entry label =>
    simp only [hnew, if_true]
    exact start_tracks position
  | opened hnew hside position entry label =>
    simp only [hnew, if_false, if_pos hside]
    exact ⟨position.symm, fun _ => ⟨⟨px, by simp, entry.ge⟩, px, by simp, entry.le⟩⟩
  | increased hnew hold hside hgrown position entry label =>
    simp only [hnew, if_false, if_neg (not_or.mpr ⟨hold, not_not.mpr hside⟩), if_pos hgrown]
    obtain ⟨⟨lo, hlo, hle⟩, hi, hhi, hge⟩ := h.bounded hold
    have hsum := abs_add_of_same_side (same_side_of_grown hside hold hnew hgrown)
    have between := @weighted_between a.entryPxTicks px _ _ (abs_nonneg a.positionQtyBase1e8)
      (abs_nonneg signedQty) (hsum ▸ abs_pos.mpr hnew)
    rw [← hsum, ← entry] at between
    refine ⟨position.symm, fun _ => ⟨?_, ?_⟩⟩
    · rcases min_choice a.entryPxTicks px with hmin | hmin
      · exact ⟨lo, by simp [hlo], hle.trans (hmin ▸ between.1)⟩
      · exact ⟨px, by simp, hmin ▸ between.1⟩
    · rcases max_choice a.entryPxTicks px with hmax | hmax
      · exact ⟨hi, by simp [hhi], (hmax ▸ between.2).trans hge⟩
      · exact ⟨px, by simp, hmax ▸ between.2⟩
  | reduced hnew hold hside hshrunk position entry label =>
    simp only [hnew, if_false, if_neg (not_or.mpr ⟨hold, not_not.mpr hside⟩), if_neg hshrunk]
    exact ⟨position.symm, fun _ => entry ▸ h.bounded hold⟩

end Basis

/-- The drafts take the basis along as the account goes from `a` to `b`. -/
def Tracked (a b : Account) (drafts : List Draft) : Prop :=
  ∀ basis : Basis, basis.Tracks a → (basis.through drafts).Tracks b

/-- An event that is neither a fill nor a liquidation. -/
def Payload.IsUntraded : Payload → Prop
  | .orderFilled _ | .liquidationTriggered _ => False
  | _ => True

namespace Tracked

variable {a b c : Account} {l m : List Draft}

/-- Other events leave the basis, and an account with the same position and entry, alone. -/
theorem of_untraded (h : ∀ d ∈ l, d.payload.IsUntraded)
    (hposition : b.positionQtyBase1e8 = a.positionQtyBase1e8)
    (hentry : b.entryPxTicks = a.entryPxTicks) : Tracked a b l := by
  intro basis hbasis
  have same : basis.through l = basis := by
    induction l with
    | nil => rfl
    | cons d l ih =>
      have hd : basis.after d.payload = basis := by
        have := h d (by simp)
        cases hp : d.payload <;> simp_all [Payload.IsUntraded, Basis.after]
      rw [Basis.through_cons, hd]
      exact ih fun d' hd' => h d' (by simp [hd'])
  rw [same]
  exact ⟨hbasis.position.trans hposition.symm, fun hne => by
    rw [hentry]
    exact hbasis.bounded (hposition ▸ hne)⟩

theorem trans (h₁ : Tracked a b l) (h₂ : Tracked b c m) : Tracked a c (l ++ m) := fun basis hbasis => by
  rw [Basis.through_append]
  exact h₂ _ (h₁ basis hbasis)

theorem kill (h : Tracked a b l) : Tracked a b.kill l := fun basis hbasis =>
  ⟨(h basis hbasis).position, (h basis hbasis).bounded⟩

end Tracked

theorem Payload.IsDecision.isUntraded {p : Payload} (h : p.IsDecision) : p.IsUntraded := by
  cases p <;> trivial

section Tracking

variable {env : ProfileEnv} {clock : TurnClock} {account after : Account} {drafts : List Draft}
  {collectEvidence : Bool}

theorem settleFunding_tracked {ts : ℤ} {row : FundingRow} {draft : Draft}
    (h : settleFunding env clock ts row account = .ok (after, draft)) :
    Tracked account after [draft] := by
  obtain ⟨rate, px, flow, happly, rfl⟩ := settleFunding_eq_ok h
  obtain ⟨-, -, -, rfl⟩ := appliedFunding_eq_ok happly
  exact .of_untraded (by simp [fundingDraft, Payload.IsUntraded]) rfl rfl

theorem coincidentFunding_tracked
    (h : coincidentFunding env clock account = .ok (after, drafts)) :
    Tracked account after drafts := by
  obtain ⟨-, rfl, rfl⟩ | ⟨row, draft, -, hsettle, rfl⟩ := coincidentFunding_eq_ok h
  · exact .of_untraded (by simp) rfl rfl
  · exact settleFunding_tracked hsettle

theorem holdingFunding_tracked {rows : List FundingRow}
    (h : holdingFunding env clock rows account = .ok (after, drafts)) :
    Tracked account after drafts := by
  induction rows generalizing account drafts with
  | nil =>
    simp only [holdingFunding, Except.ok.injEq, Prod.mk.injEq] at h
    obtain ⟨rfl, rfl⟩ := h
    exact .of_untraded (by simp) rfl rfl
  | cons row rows ih =>
    obtain ⟨next, draft, rest, hsettle, hrest, rfl⟩ | hrest := holdingFunding_cons_eq_ok h
    · exact (settleFunding_tracked hsettle).trans (ih hrest)
    · exact ih hrest

theorem executeOrder_tracked {action : ParsedAction} {sizing : Sizing}
    (h : executeOrder env clock account action sizing = .ok (after, drafts)) :
    Tracked account after drafts := by
  obtain ⟨fillRow, fill, -, -, ⟨reason, -, rfl, rfl⟩ | ⟨-, hfilled, rfl⟩⟩ := executeOrder_eq_ok h
  · exact .of_untraded (by simp [fullCancel, Payload.IsUntraded]) rfl rfl
  · refine Tracked.trans (l := [_]) (fun basis hbasis => hbasis.fill (applyPositionFill_step hfilled))
      (.of_untraded (fun d hd => ?_) rfl rfl)
    split at hd
    · simp at hd
    · obtain rfl := List.mem_singleton.mp hd
      trivial

theorem gateDrafts_untraded {checks : List RiskCheck} {postKill : Bool} {action : ParsedAction}
    {rawSha256 : Option Text} :
    ∀ d ∈ gateDrafts clock checks postKill action rawSha256, d.payload.IsUntraded := by
  intro d hd
  rcases List.mem_append.mp hd with hd | hd
  · obtain ⟨c, -, rfl⟩ := List.mem_map.mp hd
    trivial
  · split at hd
    · obtain rfl := List.mem_singleton.mp hd
      trivial
    · simp at hd

theorem relabel_untraded {sizing : Sizing}
    (h : relabel env clock collectEvidence account sizing = (after, drafts)) :
    ∀ d ∈ drafts, d.payload.IsUntraded := by
  unfold relabel at h
  split at h
  · obtain ⟨-, rfl⟩ := Prod.mk.inj h
    simp [roundingCancel, Payload.IsUntraded]
  · split at h <;>
    · obtain ⟨-, rfl⟩ := Prod.mk.inj h
      simp

theorem actionPhase_tracked {counters counters' : Counters} {decision : TurnDecision}
    {drawdownUsed : ℤ}
    (h : actionPhase env clock collectEvidence account counters decision drawdownUsed =
      .ok (after, counters', drafts)) : Tracked account after drafts := by
  obtain ⟨-, rfl, -, rfl⟩ | ⟨action, -, haction⟩ := actionPhase_eq_ok h
  · exact .of_untraded (by simp) rfl rfl
  · obtain ⟨sizing, orders, -, horder, -, rfl⟩ := processAction_eq_ok haction
    refine Tracked.trans (.of_untraded gateDrafts_untraded rfl rfl) ?_
    obtain ⟨-, rfl, rfl⟩ | ⟨-, -, horder⟩ | ⟨-, -, hrelabel⟩ := orderPhase_eq_ok horder
    · exact .of_untraded (by simp) rfl rfl
    · exact executeOrder_tracked horder
    · have hafter := (relabel_eq hrelabel).1
      exact .of_untraded (relabel_untraded hrelabel) (by rw [hafter]) (by rw [hafter])

theorem marginDrafts_untraded (h : marginDrafts env clock collectEvidence account = .ok drafts) :
    ∀ d ∈ drafts, d.payload.IsUntraded := by
  obtain ⟨-, rfl⟩ | ⟨-, payload, -, rfl⟩ := marginDrafts_eq_ok h
  · simp
  · simp [Payload.IsUntraded]

theorem liquidationPhase_tracked {liquidated : Bool}
    (h : liquidationPhase env clock account = .ok (after, liquidated, drafts)) :
    Tracked account after drafts := by
  obtain ⟨-, rfl, -, rfl⟩ | ⟨-, mark, liqPx, -, -, ⟨-, -, draft, hliq, rfl⟩ |
    ⟨-, -, rfl, distance, -, rfl⟩⟩ := liquidationPhase_eq_ok h
  · exact .of_untraded (by simp) rfl rfl
  · obtain ⟨_, _, _, -, -, -, rfl, rfl⟩ := liquidate_eq_ok hliq
    intro basis _
    exact Basis.start_tracks rfl
  · refine .of_untraded (fun d hd => ?_) rfl rfl
    unfold nearLiquidationDrafts at hd
    split at hd
    · obtain rfl := List.mem_singleton.mp hd
      trivial
    · simp at hd

/-- A forced order closes the position it is filled for. -/
theorem flatten_tracked {draft : Draft} (h : flatten env clock account = .ok (after, draft)) :
    Tracked account after [draft] := by
  have booked := (flatten_booked h).position
  obtain ⟨mark, fee, realized, -, -, -, hafter, hdraft⟩ := flatten_eq_ok h
  have flat : after.positionQtyBase1e8 = 0 := by
    rw [hafter]
    rfl
  intro basis hbasis
  have closes : basis.position + Payload.signedFill draft.payload = 0 := by
    rw [hbasis.position]
    simpa [flat, hdraft, Payload.liquidatedQty, eq_comm] using booked
  rw [hdraft] at closes ⊢
  simp only [Basis.through_cons, Basis.through_nil, Basis.after, Basis.filled, closes, if_true]
  exact Basis.start_tracks flat

theorem killSwitchPhase_tracked {terminal killed : Bool} {snapshots snapshots' : SnapshotLog}
    {nextSeq : ℕ}
    (h : killSwitchPhase env clock collectEvidence terminal account snapshots nextSeq =
      .ok (after, killed, snapshots', drafts)) : Tracked account after drafts := by
  obtain ⟨drawdown, -, ⟨-, rfl, -, -, rfl⟩ | ⟨-, -, rfl, -, -, rfl⟩ |
    ⟨-, -, -, flat, filled, s, margin, hflat, -, hmargin, rfl, -, rfl⟩⟩ := killSwitchPhase_eq_ok h
  · exact .of_untraded (by simp) rfl rfl
  · exact .of_untraded (by simp [killDraft, Payload.IsUntraded]) rfl rfl
  · refine ((flatten_tracked hflat).trans (.of_untraded (fun d hd => ?_) rfl rfl)).kill
    rcases List.mem_append.mp hd with hd | hd
    · exact marginDrafts_untraded hmargin d hd
    · obtain rfl := List.mem_singleton.mp hd
      trivial

/-- Step lemma: the drafts of a turn take the basis of its account along. -/
theorem settleTurn_tracked {core core' : ProfileCore} {decision : TurnDecision} {drawdownUsed : ℤ}
    {nextSeq : ℕ}
    (h : settleTurn env clock collectEvidence core decision drawdownUsed nextSeq =
      .ok (core', drafts)) : Tracked core.account core'.account drafts := by
  obtain ⟨opened, counters, opening, closing, hopen, hclose, rfl⟩ := settleTurn_eq_ok h
  obtain ⟨funded, traded, coincident, orders, inside, hfund, haction, hinside, rfl⟩ :=
    openPhase_eq_ok hopen
  obtain ⟨margin, closed, liquidated, liquidation, s, killed, kill, last, hmargin, hliq, -, hk,
    hlast, -, -, -, rfl⟩ := closePhase_eq_ok hclose
  have decided : Tracked core.account core.account
      [(countDecision clock core.counters decision).2] :=
    .of_untraded (by simpa using (countDecision_draft _ _).1.isUntraded) rfl rfl
  have opening := ((decided.trans (coincidentFunding_tracked hfund)).trans
    (actionPhase_tracked haction)).trans (holdingFunding_tracked hinside)
  have closing := (((Tracked.of_untraded (marginDrafts_untraded hmargin) rfl rfl).trans
    (liquidationPhase_tracked hliq)).trans (killSwitchPhase_tracked hk)).trans
    (.of_untraded (marginDrafts_untraded hlast) rfl rfl)
  exact opening.trans closing

end Tracking

/-! ## What can be computed from a represented position -/

/-- The functions of a held position return wherever their other arguments are valid: none of them
can fail for its leverage or for its entry price. -/
structure Account.Priced (account : Account) (spec : MarketSpec) : Prop where
  upnl : ∀ mark, 0 < mark → Returns (upnl account mark spec)
  margin : Returns (marginUsedMicro account.positionQtyBase1e8 account.entryPxTicks
    spec.tickSizeMicro account.targetLeverage1e4)
  liquidation : account.positionQtyBase1e8 ≠ 0 → ∀ rate, 0 ≤ rate → rate < RATE_SCALE →
    Returns (liquidationPriceTicks account.entryPxTicks (sign account.positionQtyBase1e8)
      account.targetLeverage1e4 rate)
  realized : account.positionQtyBase1e8 ≠ 0 → ∀ closed px, 0 ≤ closed → 0 < px →
    Returns (realizedPnlMicro (sign account.positionQtyBase1e8) closed account.entryPxTicks px
      spec.tickSizeMicro)

theorem Account.Represented.priced {account : Account} {spec : MarketSpec}
    (h : account.Represented spec) : account.Priced spec := by
  have htick : 0 < spec.tickSizeMicro := by
    have := spec.tick_size_pos
    omega
  refine ⟨fun mark hmark => ?_, ?_, fun hq rate h₀ h₁ => ?_, fun hq closed px hclosed hpx => ?_⟩
  · unfold Core.upnl
    split
    · exact returns_ok _
    · rename_i hq
      exact ⟨_, unrealizedPnlMicro_eq_ok.mpr ⟨⟨(h.held hq).2, hmark, htick⟩, rfl⟩⟩
  · unfold marginUsedMicro
    split
    · exact returns_ok _
    · rename_i hq
      exact (returns_require ⟨(h.held hq).2, htick⟩).bind fun _ _ =>
        (returns_require (h.held hq).1).bind fun _ _ => returns_ok _
  · obtain ⟨hlev, hentry⟩ := h.held hq
    unfold liquidationPriceTicks
    refine (returns_require hentry).bind fun _ _ => (returns_require (sign_of_ne_zero hq)).bind
      fun _ _ => (returns_require hlev).bind fun _ _ => (returns_require ⟨h₀, h₁⟩).bind fun _ _ => ?_
    split
    · dsimp only
      split <;> exact returns_ok _
    · exact returns_ok _
  · unfold realizedPnlMicro
    exact (returns_require (sign_of_ne_zero hq)).bind fun _ _ => (returns_require hclosed).bind
      fun _ _ => (returns_require ⟨(h.held hq).2, hpx, htick⟩).bind fun _ _ => returns_ok _

/-! ## Runs -/

/-- An account that occurs in a turn: where it begins, after the coincident settlement, after the
order, after the settlements inside the holding bar, after the liquidation check, and where it
ends. -/
inductive TurnAccount (env : ProfileEnv) (clock : TurnClock) (collectEvidence : Bool)
    (core : ProfileCore) (decision : TurnDecision) (drawdownUsed : ℤ) : Account → Prop
  | start : TurnAccount env clock collectEvidence core decision drawdownUsed core.account
  | funded {a : Account} {drafts : List Draft}
      (h : coincidentFunding env clock core.account = .ok (a, drafts)) :
      TurnAccount env clock collectEvidence core decision drawdownUsed a
  | traded {funded a : Account} {counters counters' : Counters} {drafts orders : List Draft}
      (hfund : coincidentFunding env clock core.account = .ok (funded, drafts))
      (h : actionPhase env clock collectEvidence funded counters decision drawdownUsed =
        .ok (a, counters', orders)) :
      TurnAccount env clock collectEvidence core decision drawdownUsed a
  | opened {a : Account} {counters : Counters} {drafts : List Draft}
      (h : openPhase env clock collectEvidence core.account core.counters decision drawdownUsed =
        .ok (a, counters, drafts)) :
      TurnAccount env clock collectEvidence core decision drawdownUsed a
  | closed {opened a : Account} {counters : Counters} {liquidated : Bool}
      {drafts liquidation : List Draft}
      (hopen : openPhase env clock collectEvidence core.account core.counters decision
        drawdownUsed = .ok (opened, counters, drafts))
      (h : liquidationPhase env clock opened = .ok (a, liquidated, liquidation)) :
      TurnAccount env clock collectEvidence core decision drawdownUsed a
  | ended {core' : ProfileCore} {nextSeq : ℕ} {drafts : List Draft}
      (h : settleTurn env clock collectEvidence core decision drawdownUsed nextSeq =
        .ok (core', drafts)) :
      TurnAccount env clock collectEvidence core decision drawdownUsed core'.account

section Steps

variable {env : ProfileEnv} {clock : TurnClock} {collectEvidence : Bool} {core core' : ProfileCore}
  {decision : TurnDecision} {drawdownUsed : ℤ}

/-- Step lemma: a turn keeps the representation. -/
theorem settleTurn_represented {nextSeq : ℕ} {drafts : List Draft}
    (ha : core.account.Represented env.market.spec)
    (h : settleTurn env clock collectEvidence core decision drawdownUsed nextSeq =
      .ok (core', drafts)) : core'.account.Represented env.market.spec := by
  obtain ⟨opened, counters, opening, closing, hopen, hclose, -⟩ := settleTurn_eq_ok h
  obtain ⟨margin, closed, liquidated, liquidation, s, killed, kill, last, -, hliq, -, hk, -⟩ :=
    closePhase_eq_ok hclose
  exact killSwitchPhase_represented (liquidationPhase_represented
    (openPhase_rule openStep_represented hopen ha) hliq) hk

/-- So does every part of it. -/
theorem TurnAccount.represented {a : Account} (ha : core.account.Represented env.market.spec)
    (h : TurnAccount env clock collectEvidence core decision drawdownUsed a) :
    a.Represented env.market.spec := by
  have funding : ∀ {b : Account} {drafts : List Draft},
      coincidentFunding env clock core.account = .ok (b, drafts) →
        b.Represented env.market.spec := fun {b drafts} hfund => by
    obtain ⟨-, rfl, -⟩ | ⟨row, draft, -, hsettle, -⟩ := coincidentFunding_eq_ok hfund
    · exact ha
    · exact (@openStep_represented env clock collectEvidence).funding hsettle ha
  cases h with
  | start => exact ha
  | funded hfund => exact funding hfund
  | traded hfund haction => exact actionPhase_rule openStep_represented haction (funding hfund)
  | opened hopen => exact openPhase_rule openStep_represented hopen ha
  | closed hopen hliq =>
    exact liquidationPhase_represented (openPhase_rule openStep_represented hopen ha) hliq
  | ended hsettle => exact settleTurn_represented ha hsettle

end Steps

section Loop

variable {σ : Type} {sha : Sha256} {limits : Json.Limits} {env : ProfileEnv} {episodeId : Text}
  {collectEvidence : Bool} {source : DecisionSource σ} {start state : ProfileState σ}

theorem TurnReach.represented {s : σ} (hstart : startState env s = .ok start) {turn : ℕ}
    (h : TurnReach sha limits env episodeId collectEvidence source start turn state) :
    state.core.account.Represented env.market.spec := by
  refine Reach.invariant (I := fun _ st => st.core.account.Represented env.market.spec) ?_ ?_ h
  · obtain ⟨_, _, -, -, rfl⟩ := startState_eq_ok hstart
    exact ⟨dvd_zero _, fun _ => ⟨rfl, rfl⟩, fun hne => absurd rfl hne⟩
  · intro t st st' _ ih _ hbody
    obtain ⟨_, _, _, _, _, _, -, -, -, -, hsettle, -⟩ := turnBody_eq_ok hbody
    exact settleTurn_represented ih hsettle

/-- Run lemma: the executions of a run are the basis of its position. -/
theorem Drafted.tracks {s : σ} (hstart : startState env s = .ok start) {turn : ℕ}
    {drafts : List Draft}
    (h : Drafted sha limits env episodeId collectEvidence source start turn state drafts) :
    (Basis.start.through drafts).Tracks state.core.account := by
  induction h with
  | start =>
    obtain ⟨_, _, -, -, rfl⟩ := startState_eq_ok hstart
    exact Basis.start_tracks rfl
  | turn _ _ _ hdrafts ih =>
    obtain ⟨_, _, _, _, _, -, -, -, -, hsettle, -⟩ := hdrafts
    rw [Basis.through_append]
    exact settleTurn_tracked hsettle _ ih

/-- **Representation of positions.** In every reachable state the position is on its step, flat
accounts carry no entry and no label, and held ones a positive label and an entry price between the
prices of the fills that opened and increased the position. In every turn from such a state, whatever
its decision is, every account is represented so, and no function of it can fail for its leverage or
its entry price. -/
theorem position_represented {s : σ} (hstart : startState env s = .ok start) {turn : ℕ}
    (h : TurnReach sha limits env episodeId collectEvidence source start turn state) :
    state.core.account.Represented env.market.spec ∧
    (∀ drafts, Drafted sha limits env episodeId collectEvidence source start turn state drafts →
      state.core.account.positionQtyBase1e8 ≠ 0 →
        (∃ lo ∈ (Basis.start.through drafts).prices, lo ≤ state.core.account.entryPxTicks) ∧
          ∃ hi ∈ (Basis.start.through drafts).prices, state.core.account.entryPxTicks ≤ hi) ∧
    ∀ clock decision drawdownUsed account,
      TurnAccount env clock collectEvidence state.core decision drawdownUsed account →
        account.Represented env.market.spec ∧ account.Priced env.market.spec := by
  have represented := TurnReach.represented hstart h
  refine ⟨represented, fun drafts hdrafts => (hdrafts.tracks hstart).bounded,
    fun clock decision drawdownUsed account haccount => ?_⟩
  have := haccount.represented represented
  exact ⟨this, this.priced⟩

end Loop

/-- After the first turn of the crash scenario the long is held, at the price it was opened at. -/
theorem crash_represented : ∃ (start state : ProfileState Unit) (drafts : List Draft),
    Drafted Scenario.sha Scenario.limits (Scenario.crash.env (Scenario.config 90_000_000) 10_000) []
        true (.replay [Scenario.acting 10_000 none]) start 1 state drafts ∧
      0 < state.core.account.targetLeverage1e4 ∧ 1 ≤ state.core.account.entryPxTicks ∧
      ∃ lo ∈ (Basis.start.through drafts).prices, lo ≤ state.core.account.entryPxTicks := by
  have returned : Returns (do
      let env := Scenario.crash.env (Scenario.config 90_000_000) 10_000
      let start ← startState env ()
      let state ← turnBody Scenario.sha Scenario.limits env [] true
        (.replay [Scenario.acting 10_000 none]) 0 start
      require (start.stopped = false ∧ state.core.account.positionQtyBase1e8 ≠ 0)
        (.engineError "not held")
      return (start, state)) := by decide +kernel
  obtain ⟨_, returned⟩ := returned
  simp only [bind_ok_iff, require_eq_ok] at returned
  obtain ⟨start, hstart, state, hstate, _, ⟨hgo, hheld⟩, -⟩ := returned
  have hreach := Reach.step .start hgo hstate
  obtain ⟨drafts, hdrafts⟩ := TurnReach.drafted hreach
  obtain ⟨represented, bounded, -⟩ := position_represented hstart hreach
  exact ⟨start, state, drafts, hdrafts, (represented.held hheld).1, (represented.held hheld).2,
    (bounded drafts hdrafts hheld).1⟩

end WagmiBench.Core
