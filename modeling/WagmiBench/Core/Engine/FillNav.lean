import WagmiBench.Core.Engine.Position
import WagmiBench.Core.Engine.Scenario

/-!
# Fills and NAV

A fill realizes and re-marks a position with floors, and re-prices an increased one at a floored
weighted entry. The floors of money are against the account. The floor of the weighted entry is
against a short and for a long, by less than one tick of the increased position.
-/

namespace WagmiBench.Core

open WagmiBench.Lib

/-- The profit of a signed quantity between two prices, unrounded. -/
def exactPnl (qty entry mark tick : ℤ) : ℚ := ((mark - entry) * qty * tick : ℤ) / QTY_SCALE

/-- NAV at a mark price, before the profit of the position is rounded. -/
def Account.exactNav (account : Account) (mark tick : ℤ) : ℚ :=
  account.cashMicro + exactPnl account.positionQtyBase1e8 account.entryPxTicks mark tick

/-- The arguments of one `_apply_position_fill`. -/
structure PositionFill where
  signedQty : ℤ
  fillPxTicks : ℤ
  targetLev1e4 : ℤ
  fee : ℤ
  fillNotional : ℤ
  referenceNotional : ℤ
  fullyFilled : Bool

def PositionFill.apply (spec : MarketSpec) (account : Account) (fill : PositionFill) : Py Account :=
  applyPositionFill account fill.signedQty fill.fillPxTicks fill.targetLev1e4 fill.fee
    fill.fillNotional fill.referenceNotional fill.fullyFilled spec

/-- What the floor of the weighted entry adds to the NAV of an increased long, and to nothing else. -/
def entryGain (account : Account) (fill : PositionFill) (tick : ℤ) : ℚ :=
  if 0 < account.positionQtyBase1e8 ∧ 0 < fill.signedQty then
    ((account.entryPxTicks * account.positionQtyBase1e8 + fill.fillPxTicks * fill.signedQty) %
      (account.positionQtyBase1e8 + fill.signedQty) * tick : ℤ) / QTY_SCALE
  else 0

/-! ## One fill -/

theorem floor_exactPnl (qty entry mark tick : ℤ) :
    (mark - entry) * qty * tick / QTY_SCALE = ⌊exactPnl qty entry mark tick⌋ := by
  rw [exactPnl]
  exact (Rat.floor_intCast_div_natCast _ 100_000_000).symm

section Fill

variable {a b : Account} {fill : PositionFill} {spec : MarketSpec} {mark : ℤ}

/-- The fill closes, reduces or turns a held position. -/
def Closes (old signedQty : ℤ) : Prop :=
  old ≠ 0 ∧ (old + signedQty = 0 ∨ sign (old + signedQty) ≠ sign old ∨ |old + signedQty| < |old|)

/-- A fill realizes no more than the exact profit of what it closes, and nothing where it closes
nothing. -/
theorem realizedByFill_eq_ok {signedQty px realized : ℤ}
    (h : realizedByFill a signedQty px spec = .ok realized) :
    (Closes a.positionQtyBase1e8 signedQty ∧ (realized : ℚ) ≤
      exactPnl (sign a.positionQtyBase1e8 * min |a.positionQtyBase1e8| |signedQty|) a.entryPxTicks px
        spec.tickSizeMicro) ∨
    (¬ Closes a.positionQtyBase1e8 signedQty ∧ realized = 0) := by
  unfold realizedByFill at h
  dsimp only at h
  split at h
  · rename_i hcloses
    simp only [realizedPnlMicro, bind_ok_iff, pure_eq_ok, Except.ok.injEq, floor_exactPnl] at h
    obtain ⟨-, -, -, -, -, -, rfl⟩ := h
    exact .inl ⟨hcloses, Int.floor_le _⟩
  · rename_i hkept
    exact .inr ⟨hkept, (Except.ok.inj h).symm⟩

/-- A fill that ends or turns a position closes all of it. -/
theorem closed_all {old signedQty : ℤ} (hold : old ≠ 0)
    (h : old + signedQty = 0 ∨ sign (old + signedQty) ≠ sign old) :
    sign old * min |old| |signedQty| = old := by
  rcases lt_or_gt_of_ne hold with hneg | hpos
  · have hturn : -old ≤ signedQty := by
      rcases h with h | h
      · omega
      · by_contra hlt
        exact h ((sign_eq_neg_one.mpr (by omega)).trans (sign_eq_neg_one.mpr hneg).symm)
    rw [abs_of_neg hneg, abs_of_nonneg (by omega), min_eq_left hturn, sign_eq_neg_one.mpr hneg]
    ring
  · have hturn : old ≤ -signedQty := by
      rcases h with h | h
      · omega
      · by_contra hlt
        exact h (by simp [sign, hpos, show 0 < old + signedQty by omega])
    rw [abs_of_pos hpos, abs_of_nonpos (by omega), min_eq_left hturn]
    simp [sign, hpos]

/-- A fill that reduces a position closes its own quantity. -/
theorem closed_part {old signedQty : ℤ} (hold : old ≠ 0) (hnew : old + signedQty ≠ 0)
    (hside : sign (old + signedQty) = sign old) (hless : |old + signedQty| ≤ |old|) :
    sign old * min |old| |signedQty| = -signedQty := by
  rw [sign_eq_sign_iff hnew hold] at hside
  rcases lt_or_gt_of_ne hold with hneg | hpos
  · rw [abs_of_neg hneg, abs_of_neg (by omega)] at hless
    rw [abs_of_neg hneg, abs_of_nonneg (by omega), min_eq_right (by omega),
      sign_eq_neg_one.mpr hneg]
    ring
  · rw [abs_of_pos hpos, abs_of_pos (by omega)] at hless
    rw [abs_of_pos hpos, abs_of_nonpos (by omega), min_eq_right (by omega)]
    simp [sign, hpos]

theorem applyPositionFill_cash (h : fill.apply spec a = .ok b) :
    ∃ realized, realizedByFill a fill.signedQty fill.fillPxTicks spec = .ok realized ∧
      b.cashMicro = a.cashMicro + (realized - fill.fee) := by
  simp only [PositionFill.apply, applyPositionFill, bind_ok_iff] at h
  obtain ⟨realized, hrealized, h⟩ := h
  refine ⟨realized, hrealized, ?_⟩
  split at h
  · obtain rfl := Except.ok.inj h
    rfl
  · split at h <;>
    · obtain rfl := Except.ok.inj h
      rfl

theorem entryGain_nonneg {tick : ℤ} (htick : 0 < tick) : 0 ≤ entryGain a fill tick := by
  unfold entryGain
  split
  · rename_i hlong
    refine div_nonneg ?_ (by norm_num)
    exact_mod_cast mul_nonneg (Int.emod_nonneg _ (by omega)) htick.le
  · exact le_rfl

/-- What the floor adds is worth less than one tick of the increased long. -/
theorem entryGain_lt {tick : ℤ} (htick : 0 < tick) (hlong : 0 < a.positionQtyBase1e8)
    (hbuy : 0 < fill.signedQty) : entryGain a fill tick <
      ((a.positionQtyBase1e8 + fill.signedQty) * tick : ℤ) / (QTY_SCALE : ℚ) := by
  have hmod := Int.emod_lt_of_pos (a.entryPxTicks * a.positionQtyBase1e8 +
    fill.fillPxTicks * fill.signedQty) (show 0 < a.positionQtyBase1e8 + fill.signedQty by omega)
  rw [entryGain, if_pos ⟨hlong, hbuy⟩]
  refine div_lt_div_of_pos_right ?_ (by norm_num)
  exact_mod_cast mul_lt_mul_of_pos_right hmod htick

/-- The floor of a weighted entry is for a long, by its remainder, and against a short. -/
theorem increased_le {old signedQty entry px mark tick : ℤ} (htick : 0 < tick)
    (hside : (0 < old ∧ 0 < signedQty) ∨ (old < 0 ∧ signedQty < 0))
    {gain : ℚ} (hgain : gain = if 0 < old ∧ 0 < signedQty then
      ((entry * old + px * signedQty) % (old + signedQty) * tick : ℤ) / (QTY_SCALE : ℚ) else 0) :
    exactPnl (old + signedQty) ((entry * |old| + px * |signedQty|) / |old + signedQty|) mark tick ≤
      exactPnl old entry mark tick + exactPnl signedQty px mark tick + gain := by
  have hpos : (0 : ℚ) < QTY_SCALE := by norm_num
  rcases hside with ⟨hold, hqty⟩ | ⟨hold, hqty⟩
  · rw [abs_of_pos hold, abs_of_pos hqty, abs_of_pos (by omega)]
    rw [if_pos ⟨hold, hqty⟩] at hgain
    set n := entry * old + px * signedQty with hn
    have hdiv := Int.emod_add_mul_ediv n (old + signedQty)
    refine le_of_eq ?_
    rw [hgain]
    simp only [exactPnl, ← add_div]
    congr 1
    norm_cast
    linear_combination (-tick) * hdiv - tick * hn
  · rw [abs_of_neg hold, abs_of_neg hqty, abs_of_neg (by omega)]
    rw [if_neg (by omega)] at hgain
    set n := entry * -old + px * -signedQty with hn
    have hdiv := Int.emod_add_mul_ediv n (-(old + signedQty))
    have hmod := Int.emod_nonneg n (show -(old + signedQty) ≠ 0 by omega)
    rw [hgain, add_zero]
    simp only [exactPnl, ← add_div]
    refine div_le_div_of_nonneg_right ?_ hpos.le
    norm_cast
    have := mul_nonneg hmod htick.le
    linear_combination this + tick * hdiv - tick * hn

/-- **One fill.** The unrounded NAV after a fill is at most the one before it plus the exact profit of
the trade, less its fee, plus what the floor of a long's weighted entry adds. -/
theorem applyPositionFill_exactNav_le (mark : ℤ) (h : fill.apply spec a = .ok b) :
    b.exactNav mark spec.tickSizeMicro ≤ a.exactNav mark spec.tickSizeMicro +
      exactPnl fill.signedQty fill.fillPxTicks mark spec.tickSizeMicro - fill.fee +
      entryGain a fill spec.tickSizeMicro := by
  obtain ⟨realized, hrealized, hcash⟩ := applyPositionFill_cash h
  have htick : 0 < spec.tickSizeMicro := by
    have := spec.tick_size_pos
    omega
  have hgain : 0 ≤ entryGain a fill spec.tickSizeMicro := entryGain_nonneg htick
  suffices worth : (realized : ℚ) +
      exactPnl b.positionQtyBase1e8 b.entryPxTicks mark spec.tickSizeMicro ≤
        exactPnl a.positionQtyBase1e8 a.entryPxTicks mark spec.tickSizeMicro +
          exactPnl fill.signedQty fill.fillPxTicks mark spec.tickSizeMicro +
          entryGain a fill spec.tickSizeMicro by
    simp only [Account.exactNav, hcash]
    push_cast
    linarith
  have whole : (a.positionQtyBase1e8 + fill.signedQty = 0 ∨
      sign (a.positionQtyBase1e8 + fill.signedQty) ≠ sign a.positionQtyBase1e8 ∨
      a.positionQtyBase1e8 = 0) → (realized : ℚ) ≤
        exactPnl a.positionQtyBase1e8 a.entryPxTicks fill.fillPxTicks spec.tickSizeMicro := by
    intro hends
    by_cases hold : a.positionQtyBase1e8 = 0
    · rcases realizedByFill_eq_ok hrealized with ⟨hcloses, -⟩ | ⟨-, rfl⟩
      · exact absurd hold hcloses.1
      · simp [hold, exactPnl]
    · have hends' := hends.imp_right fun h => h.resolve_right hold
      rcases realizedByFill_eq_ok hrealized with ⟨-, hle⟩ | ⟨hkept, -⟩
      · rwa [closed_all hold hends'] at hle
      · exact absurd ⟨hold, hends'.imp_right .inl⟩ hkept
  cases applyPositionFill_step h with
  | closed hnew position entry label =>
    have hle := whole (.inl hnew)
    have hqty : fill.signedQty = -a.positionQtyBase1e8 := by omega
    have hsplit : exactPnl a.positionQtyBase1e8 a.entryPxTicks fill.fillPxTicks spec.tickSizeMicro =
        exactPnl a.positionQtyBase1e8 a.entryPxTicks mark spec.tickSizeMicro +
          exactPnl fill.signedQty fill.fillPxTicks mark spec.tickSizeMicro := by
      rw [hqty]
      simp only [exactPnl]
      push_cast
      ring
    have hflat : exactPnl 0 b.entryPxTicks mark spec.tickSizeMicro = 0 := by simp [exactPnl]
    rw [position, hflat]
    linarith
  | opened hnew hside position entry label =>
    have hle := whole (.inr hside.symm)
    have hsplit : exactPnl a.positionQtyBase1e8 a.entryPxTicks fill.fillPxTicks spec.tickSizeMicro +
        exactPnl (a.positionQtyBase1e8 + fill.signedQty) fill.fillPxTicks mark spec.tickSizeMicro =
        exactPnl a.positionQtyBase1e8 a.entryPxTicks mark spec.tickSizeMicro +
          exactPnl fill.signedQty fill.fillPxTicks mark spec.tickSizeMicro := by
      simp only [exactPnl]
      push_cast
      ring
    rw [position, entry]
    linarith
  | increased hnew hold hside hgrown position entry label =>
    have same := same_side_of_grown hside hold hnew hgrown
    have hzero : realized = 0 := by
      rcases realizedByFill_eq_ok hrealized with ⟨⟨-, hcloses⟩, -⟩ | ⟨-, hzero⟩
      · rcases hcloses with h | h | h
        · exact absurd h hnew
        · exact absurd hside h
        · omega
      · exact hzero
    have hle := @increased_le a.positionQtyBase1e8 fill.signedQty a.entryPxTicks fill.fillPxTicks
      mark spec.tickSizeMicro htick same (entryGain a fill spec.tickSizeMicro) rfl
    rw [position, entry, hzero]
    simpa using hle
  | reduced hnew hold hside hshrunk position entry label =>
    have hle : (realized : ℚ) ≤
        exactPnl (-fill.signedQty) a.entryPxTicks fill.fillPxTicks spec.tickSizeMicro := by
      rcases realizedByFill_eq_ok hrealized with ⟨-, hle⟩ | ⟨hkept, rfl⟩
      · rwa [closed_part hold hnew hside (not_lt.mp hshrunk)] at hle
      · -- nothing is closed because nothing is traded
        have hqty : fill.signedQty = 0 := by
          by_contra hne
          refine hkept ⟨hold, .inr (.inr (lt_of_le_of_ne (not_lt.mp hshrunk) fun heq => ?_))⟩
          rw [sign_eq_sign_iff hnew hold] at hside
          rcases abs_eq_abs.mp heq with heq | heq <;> omega
        simp [hqty, exactPnl]
    have hsplit : exactPnl (-fill.signedQty) a.entryPxTicks fill.fillPxTicks spec.tickSizeMicro +
        exactPnl (a.positionQtyBase1e8 + fill.signedQty) a.entryPxTicks mark spec.tickSizeMicro =
        exactPnl a.positionQtyBase1e8 a.entryPxTicks mark spec.tickSizeMicro +
          exactPnl fill.signedQty fill.fillPxTicks mark spec.tickSizeMicro := by
      simp only [exactPnl]
      push_cast
      ring
    rw [position, entry]
    linarith

/-- The NAV an account reports at a mark is its unrounded NAV, floored. -/
theorem upnl_eq_ok {profit : ℤ} (h : upnl a mark spec = .ok profit) :
    a.cashMicro + profit = ⌊a.exactNav mark spec.tickSizeMicro⌋ := by
  rw [Account.exactNav, Int.floor_intCast_add]
  unfold upnl at h
  split at h
  · rename_i hflat
    obtain rfl := Except.ok.inj h
    simp [hflat, exactPnl]
  · simp only [unrealizedPnlMicro, bind_ok_iff, pure_eq_ok, Except.ok.injEq, floor_exactPnl] at h
    obtain ⟨-, -, rfl⟩ := h
    rfl

end Fill

/-! ## Fills one after the other -/

def applyFills (spec : MarketSpec) (account : Account) (fills : List PositionFill) : Py Account :=
  fills.foldlM (PositionFill.apply spec) account

/-- What the floors of the weighted entries add over a sequence of fills. -/
def entryGains (spec : MarketSpec) : Account → List PositionFill → ℚ
  | _, [] => 0
  | account, fill :: rest => entryGain account fill spec.tickSizeMicro +
      match fill.apply spec account with
      | .ok next => entryGains spec next rest
      | .error _ => 0

/-- The exact profit of a sequence of fills at a mark price, less their fees. -/
def exactTrades (fills : List PositionFill) (mark tick : ℤ) : ℚ :=
  (fills.map fun fill => exactPnl fill.signedQty fill.fillPxTicks mark tick - fill.fee).sum

/-- A sequence of fills adds to the unrounded NAV no more than its trades and the floored entries. -/
theorem applyFills_exactNav_le {spec : MarketSpec} {a b : Account} {fills : List PositionFill}
    (mark : ℤ) (h : applyFills spec a fills = .ok b) :
    b.exactNav mark spec.tickSizeMicro ≤ a.exactNav mark spec.tickSizeMicro +
      exactTrades fills mark spec.tickSizeMicro + entryGains spec a fills := by
  induction fills generalizing a with
  | nil =>
    obtain rfl := Except.ok.inj h
    simp [exactTrades, entryGains]
  | cons fill rest ih =>
    simp only [applyFills, List.foldlM_cons, bind_ok_iff] at h
    obtain ⟨next, hfill, hrest⟩ := h
    have first := applyPositionFill_exactNav_le mark hfill
    have later := ih hrest
    simp only [exactTrades, entryGains, hfill, List.map_cons, List.sum_cons] at later ⊢
    linarith

/-- **Rounding across fills.** Marked at any price, the NAV after a fill is at most the unrounded NAV
before it plus the exact profit of the trade, less its fee, plus what the floor of the weighted
entry adds: nothing unless the fill increases a long, and then less than one tick of that long. So it
exceeds the reported NAV before it, with these added, by less than one unit. From the start of an
episode on, the NAV exceeds the starting NAV and the exact trades less their fees by no more than
the floored entries of its increased longs. -/
theorem fills_nav_le (spec : MarketSpec) :
    (∀ (a b : Account) (fill : PositionFill) (mark before after : ℤ),
      fill.apply spec a = .ok b → upnl a mark spec = .ok before → upnl b mark spec = .ok after →
      ((b.cashMicro + after : ℤ) : ℚ) ≤ a.exactNav mark spec.tickSizeMicro +
        exactPnl fill.signedQty fill.fillPxTicks mark spec.tickSizeMicro - fill.fee +
        entryGain a fill spec.tickSizeMicro ∧
      ((b.cashMicro + after : ℤ) : ℚ) < (a.cashMicro + before : ℤ) +
        exactPnl fill.signedQty fill.fillPxTicks mark spec.tickSizeMicro - fill.fee +
        entryGain a fill spec.tickSizeMicro + 1) ∧
    (∀ (a : Account) (fill : PositionFill),
      (¬ (0 < a.positionQtyBase1e8 ∧ 0 < fill.signedQty) →
        entryGain a fill spec.tickSizeMicro = 0) ∧
      (0 < a.positionQtyBase1e8 ∧ 0 < fill.signedQty → entryGain a fill spec.tickSizeMicro <
        ((a.positionQtyBase1e8 + fill.signedQty) * spec.tickSizeMicro : ℤ) / (QTY_SCALE : ℚ))) ∧
    ∀ (startingNav mark profit : ℤ) (fills : List PositionFill) (b : Account),
      applyFills spec (.start startingNav) fills = .ok b → upnl b mark spec = .ok profit →
      ((b.cashMicro + profit : ℤ) : ℚ) ≤ startingNav +
        exactTrades fills mark spec.tickSizeMicro + entryGains spec (.start startingNav) fills := by
  have htick : 0 < spec.tickSizeMicro := by
    have := spec.tick_size_pos
    omega
  refine ⟨fun a b fill mark before after h hbefore hafter => ?_, fun a fill => ⟨?_, ?_⟩,
    fun startingNav mark profit fills b h hprofit => ?_⟩
  · have worth := applyPositionFill_exactNav_le mark h
    have shown : ((b.cashMicro + after : ℤ) : ℚ) ≤ b.exactNav mark spec.tickSizeMicro := by
      rw [upnl_eq_ok hafter]
      exact Int.floor_le _
    have held : a.exactNav mark spec.tickSizeMicro < (a.cashMicro + before : ℤ) + 1 := by
      rw [upnl_eq_ok hbefore]
      exact Int.lt_floor_add_one _
    constructor <;> linarith
  · intro hshort
    rw [entryGain, if_neg hshort]
  · intro hlong
    exact entryGain_lt htick hlong.1 hlong.2
  · have worth := applyFills_exactNav_le mark h
    have shown : ((b.cashMicro + profit : ℤ) : ℚ) ≤ b.exactNav mark spec.tickSizeMicro := by
      rw [upnl_eq_ok hprofit]
      exact Int.floor_le _
    have flat : (Account.start startingNav).exactNav mark spec.tickSizeMicro = startingNav := by
      simp [Account.exactNav, Account.start, exactPnl]
    linarith

/-- One asset bought at 10000 ticks and one more at 10001: the entry is floored to 10000. Half a
unit of profit is dropped from a position of 5000 and regained by the fill that closes it. -/
theorem fills_nav_exceeds :
    (¬ ∀ (spec : MarketSpec) (a b : Account) (fill : PositionFill) (mark before after : ℤ),
      fill.apply spec a = .ok b → upnl a mark spec = .ok before → upnl b mark spec = .ok after →
      ((b.cashMicro + after : ℤ) : ℚ) ≤ (a.cashMicro + before : ℤ) +
        exactPnl fill.signedQty fill.fillPxTicks mark spec.tickSizeMicro - fill.fee) ∧
    (¬ ∀ (spec : MarketSpec) (a b : Account) (fill : PositionFill) (mark before after : ℤ),
      fill.apply spec a = .ok b → upnl a mark spec = .ok before → upnl b mark spec = .ok after →
      ((b.cashMicro + after : ℤ) : ℚ) ≤ (a.cashMicro + before : ℤ) +
        exactPnl fill.signedQty fill.fillPxTicks mark spec.tickSizeMicro - fill.fee +
        entryGain a fill spec.tickSizeMicro) ∧
    ¬ ∀ (spec : MarketSpec) (startingNav mark profit : ℤ) (fills : List PositionFill) (b : Account),
      applyFills spec (.start startingNav) fills = .ok b → upnl b mark spec = .ok profit →
      ((b.cashMicro + profit : ℤ) : ℚ) ≤ startingNav +
        exactTrades fills mark spec.tickSizeMicro := by
  let long (qty px : ℤ) (cash : ℤ) : Account := ⟨qty, px, 10_000, cash, 0, 0, 0, 0, 0, 0, false⟩
  let trade (qty px : ℤ) : PositionFill := ⟨qty, px, 10_000, 0, 0, 0, true⟩
  refine ⟨fun h => ?_, fun h => ?_, fun h => ?_⟩
  · have := h Scenario.steady.spec (long 100_000_000 10_000 0) (long 200_000_000 10_000 0)
      (trade 100_000_000 10_001) 10_001 10_000 20_000 rfl rfl rfl
    norm_num [exactPnl, long, trade, Scenario.steady, Scenario.spec] at this
  · have := h Scenario.steady.spec (long 5_000 10_000 0) ⟨0, 0, 0, 1, 0, 0, 1, 0, 0, 0, false⟩
      (trade (-5_000) 10_002) 10_001 0 0 rfl rfl rfl
    norm_num [exactPnl, entryGain, long, trade, Scenario.steady, Scenario.spec] at this
  · have := h Scenario.steady.spec 0 10_001 20_000 [trade 100_000_000 10_000,
      trade 100_000_000 10_001] (long 200_000_000 10_000 0) rfl rfl
    norm_num [exactPnl, exactTrades, long, trade, Scenario.steady, Scenario.spec] at this

/-- The two purchases, under the bounds. -/
theorem fills_nav_le_purchases :
    let first : PositionFill := ⟨100_000_000, 10_000, 10_000, 0, 0, 0, true⟩
    let second : PositionFill := ⟨100_000_000, 10_001, 10_000, 0, 0, 0, true⟩
    let spec := Scenario.steady.spec
    ∃ a b, applyFills spec (.start 0) [first] = .ok a ∧
      applyFills spec (.start 0) [first, second] = .ok b ∧
      ((b.cashMicro + 20_000 : ℤ) : ℚ) < (a.cashMicro + 10_000 : ℤ) +
        exactPnl second.signedQty second.fillPxTicks 10_001 spec.tickSizeMicro - second.fee +
        entryGain a second spec.tickSizeMicro + 1 ∧
      ((b.cashMicro + 20_000 : ℤ) : ℚ) ≤ ((0 : ℤ) : ℚ) +
        exactTrades [first, second] 10_001 spec.tickSizeMicro +
        entryGains spec (.start 0) [first, second] := by
  intro first second spec
  refine ⟨⟨100_000_000, 10_000, 10_000, 0, 0, 0, 0, 0, 0, 0, false⟩,
    ⟨200_000_000, 10_000, 10_000, 0, 0, 0, 0, 0, 0, 0, false⟩, rfl, rfl, ?_, ?_⟩
  · exact ((fills_nav_le spec).1 _ _ second 10_001 _ _ rfl rfl rfl).2
  · exact (fills_nav_le spec).2.2 0 10_001 20_000 _ _ rfl rfl

end WagmiBench.Core
