import WagmiBench.Core.Engine.Orders

/-!
# The slippage limit

The ladder compares `abs(slippage_1e8)` with the limit of the action, and `slippage_1e8` floors the
signed ratio. The floor takes a sale away from zero, so a sale passes just where it is within the
limit; it takes a purchase toward zero, so a purchase passes up to one unit of `slippage_1e8` beyond.
-/

namespace WagmiBench.Core

open WagmiBench.Lib WagmiBench.Harness WagmiBench.Spec

/-- The exact relative distance between a fill and its reference price is at most `bps` basis
points. -/
def WithinSlippage (fillPxTicks ref bps : ℤ) : Prop := |fillPxTicks - ref| * 10_000 ≤ bps * ref

/-- What the ladder lets through: a sale within the limit, a purchase less than one unit of
`slippage_1e8` beyond it. -/
def PassesSlippage (side : Side) (fillPxTicks ref bps : ℤ) : Prop :=
  match side with
  | .sell => WithinSlippage fillPxTicks ref bps
  | .buy => |fillPxTicks - ref| * RATE_SCALE < (bps * 10_000 + 1) * ref

/-- Within the limit, both sides pass. -/
theorem WithinSlippage.passes {side : Side} {px ref bps : ℤ} (href : 0 < ref)
    (h : WithinSlippage px ref bps) : PassesSlippage side px ref bps := by
  have hscale : RATE_SCALE = 10_000 * 10_000 := by decide
  cases side with
  | sell => exact h
  | buy =>
    change |px - ref| * RATE_SCALE < (bps * 10_000 + 1) * ref
    unfold WithinSlippage at h
    rw [hscale]
    linarith

section Floor

variable {d ref bps : ℤ}

/-- A purchase is compared by its floored ratio. -/
theorem floor_slippage_buy (href : 0 < ref) (hd : 0 ≤ d) :
    |⌊((d * RATE_SCALE : ℤ) : ℚ) / ref⌋| ≤ bps * 10_000 ↔
      |d| * RATE_SCALE < (bps * 10_000 + 1) * ref := by
  have href' : (0 : ℚ) < ref := by exact_mod_cast href
  have hfloor : 0 ≤ ⌊((d * RATE_SCALE : ℤ) : ℚ) / ref⌋ :=
    Int.floor_nonneg.mpr (div_nonneg (by exact_mod_cast mul_nonneg hd (by decide)) href'.le)
  rw [abs_of_nonneg hfloor, abs_of_nonneg hd, ← Int.lt_add_one_iff, Int.floor_lt,
    div_lt_iff₀ href']
  exact_mod_cast Iff.rfl

/-- A sale is compared by the ratio rounded away from zero, which is within an integer limit just
where the ratio is. -/
theorem floor_slippage_sell (href : 0 < ref) (hd : d ≤ 0) :
    |⌊((d * RATE_SCALE : ℤ) : ℚ) / ref⌋| ≤ bps * 10_000 ↔ |d| * 10_000 ≤ bps * ref := by
  have href' : (0 : ℚ) < ref := by exact_mod_cast href
  have hscaled : d * RATE_SCALE ≤ 0 := mul_nonpos_of_nonpos_of_nonneg hd (by decide)
  have hfloor : ⌊((d * RATE_SCALE : ℤ) : ℚ) / ref⌋ ≤ 0 := by
    refine (Int.floor_le_floor (div_nonpos_of_nonpos_of_nonneg ?_ href'.le)).trans_eq Int.floor_zero
    exact_mod_cast hscaled
  have hscale : RATE_SCALE = 10_000 * 10_000 := by decide
  rw [abs_of_nonpos hfloor, abs_of_nonpos hd, neg_le, Int.le_floor, le_div_iff₀ href']
  norm_cast
  rw [hscale]
  constructor <;> intro h <;> nlinarith

end Floor

/-! ## The ladder -/

section Ladder

variable {env : ProfileEnv} {clock : TurnClock} {account after : Account} {action : ParsedAction}
  {sizing : Sizing} {fillRow : BarRow} {fill : FillCalculation} {drafts : List Draft} {bps : ℤ}

/-- The comparison of the ladder, by sides. -/
theorem slippage_passes_iff (hfill : orderFill env sizing fillRow = .ok fill) :
    |fill.slippage1e8| ≤ bps * 10_000 ↔
      PassesSlippage fill.side fill.fillPxTicks fill.refOpenPxTicks bps := by
  have computed := calculateFill_computed hfill
  obtain ⟨hspread, himpact⟩ := computed.adverse
  rw [computed.slippage, computed.ref_open]
  have hprice := computed.price
  cases hside : fill.side with
  | buy =>
    rw [if_pos (by rw [← computed.side_eq, hside])] at hprice
    exact floor_slippage_buy computed.prices.1 (by omega)
  | sell =>
    rw [if_neg (by rw [← computed.side_eq, hside]; decide)] at hprice
    exact floor_slippage_sell computed.prices.1 (by omega)

/-- What one order that passed the gates does under a slippage limit: a fill passes it, and an order
cancelled for it was a candidate that met the other rules and did not. -/
structure SlippageKept (env : ProfileEnv) (clock : TurnClock) (funded : Account)
    (action : ParsedAction) (bps : ℤ) (orders : List Draft) : Prop where
  filled : ∀ d ∈ orders, ∀ f, d.payload = .orderFilled f →
    PassesSlippage f.side f.fillPxTicks f.refOpenPxTicks bps
  cancelled : ∀ d ∈ orders, ∀ c, d.payload = .orderCancelled c → c.reason = .maxSlippageExceeded →
    ∃ sizing fillRow fill, sizeAction env clock funded action = .ok sizing ∧
      env.market.trade[clock.fillAbs]? = some fillRow ∧ orderFill env sizing fillRow = .ok fill ∧
      ¬ PassesSlippage fill.side fill.fillPxTicks fill.refOpenPxTicks bps ∧
      ¬ WithinSlippage fill.fillPxTicks fill.refOpenPxTicks bps

/-- The limit is what separates the last two rungs of the ladder. -/
theorem cancelReason_slippage (hbps : action.maxSlippageBps = some bps) :
    (cancelReason env fill action = none → |fill.slippage1e8| ≤ bps * 10_000) ∧
      (cancelReason env fill action = some .maxSlippageExceeded →
        ¬ |fill.slippage1e8| ≤ bps * 10_000) := by
  unfold cancelReason
  simp only [hbps, Option.mem_def, Option.some.injEq, exists_eq_left']
  split_ifs with hzero hnotional hslippage
  · simp
  · simp
  · exact ⟨by simp, fun _ => by omega⟩
  · exact ⟨fun _ => by omega, by simp⟩

/-- An executed order fills within the limit, and only an order beyond it is cancelled for it. -/
theorem executeOrder_slippage (hbps : action.maxSlippageBps = some bps)
    (hsizing : sizeAction env clock account action = .ok sizing)
    (h : executeOrder env clock account action sizing = .ok (after, drafts)) :
    SlippageKept env clock account action bps drafts := by
  obtain ⟨fillRow, fill, hrow, hfill, ⟨reason, hreason, -, rfl⟩ | ⟨hreason, -, rfl⟩⟩ :=
    executeOrder_eq_ok h
  · refine ⟨fun d hd f hf => ?_, fun d hd c hc hslippage => ?_⟩
    · obtain rfl := List.mem_singleton.mp hd
      simp [fullCancel] at hf
    · obtain rfl := List.mem_singleton.mp hd
      simp only [fullCancel, Payload.orderCancelled.injEq] at hc
      subst hc
      obtain rfl : reason = .maxSlippageExceeded := hslippage
      have hbeyond := mt (slippage_passes_iff hfill).mpr ((cancelReason_slippage hbps).2 hreason)
      have hpos : 0 < fill.refOpenPxTicks := by
        rw [(calculateFill_computed hfill).ref_open]
        exact (calculateFill_computed hfill).prices.1
      exact ⟨sizing, fillRow, fill, hsizing, hrow, hfill, hbeyond,
        fun hwithin => hbeyond (hwithin.passes hpos)⟩
  · have hpasses := (slippage_passes_iff hfill).mp ((cancelReason_slippage hbps).1 hreason)
    refine ⟨fun d hd f hf => ?_, fun d hd c hc hslippage => ?_⟩
    · rcases List.mem_cons.mp hd with rfl | hd
      · simp only [filledPayload, Payload.orderFilled.injEq] at hf
        subst hf
        exact hpasses
      · unfold partialCancel at hd
        split at hd
        · simp at hd
        · obtain rfl := List.mem_singleton.mp hd
          simp at hf
    · rcases List.mem_cons.mp hd with rfl | hd
      · simp [filledPayload] at hc
      · unfold partialCancel at hd
        split at hd
        · simp at hd
        · obtain rfl := List.mem_singleton.mp hd
          simp only [Payload.orderCancelled.injEq] at hc
          subst hc
          simp at hslippage

/-- Drafts that neither fill nor cancel for the limit keep it. -/
theorem SlippageKept.of_silent {orders : List Draft}
    (hfill : ∀ d ∈ orders, ∀ f, d.payload ≠ .orderFilled f)
    (hcancel : ∀ d ∈ orders, ∀ c, d.payload = .orderCancelled c → c.reason ≠ .maxSlippageExceeded) :
    SlippageKept env clock account action bps orders :=
  ⟨fun d hd f hf => absurd hf (hfill d hd f), fun d hd c hc h => absurd h (hcancel d hd c hc)⟩

theorem orderPhase_slippage {collectEvidence blocked : Bool}
    (hbps : action.maxSlippageBps = some bps)
    (hsizing : sizeAction env clock account action = .ok sizing)
    (h : orderPhase env clock collectEvidence blocked account action sizing = .ok (after, drafts)) :
    SlippageKept env clock account action bps drafts := by
  obtain ⟨-, -, rfl⟩ | ⟨-, -, horder⟩ | ⟨-, -, hrelabel⟩ := orderPhase_eq_ok h
  · exact .of_silent (by simp) (by simp)
  · exact executeOrder_slippage hbps hsizing horder
  · unfold relabel at hrelabel
    split at hrelabel
    · obtain ⟨-, rfl⟩ := Prod.mk.inj hrelabel
      refine .of_silent (by simp [roundingCancel]) fun d hd c hc => ?_
      obtain rfl := List.mem_singleton.mp hd
      simp only [roundingCancel, Payload.orderCancelled.injEq] at hc
      subst hc
      simp
    · split at hrelabel <;>
      · obtain ⟨-, rfl⟩ := Prod.mk.inj hrelabel
        exact .of_silent (by simp) (by simp)

/-- Gates neither fill nor cancel. -/
theorem gateDrafts_uncancelled {checks : List RiskCheck} {postKill : Bool} {raw : Option Text}
    {d : Draft} (hd : d ∈ gateDrafts clock checks postKill action raw) (c : OrderCancelled) :
    d.payload ≠ .orderCancelled c := by
  unfold gateDrafts at hd
  rcases List.mem_append.mp hd with hd | hd
  · obtain ⟨check, -, rfl⟩ := List.mem_map.mp hd
    simp
  · split at hd
    · obtain rfl := List.mem_singleton.mp hd
      simp
    · simp at hd

end Ladder

/-! ## Runs -/

section Loop

variable {σ : Type} {sha : Sha256} {limits : Json.Limits} {env : ProfileEnv} {episodeId : Text}
  {collectEvidence : Bool} {source : DecisionSource σ} {state next : ProfileState σ}

/-- **The slippage limit.** In every turn of every run, whatever state it is entered in: under a limit
of `bps` every fill passes it, and every order cancelled for it is a candidate that does not, whose
exact distance from the reference price is beyond `bps` basis points. -/
theorem slippage_limit_kept {turn : ℕ} {drafts : List Draft}
    (h : TurnDrafts sha limits env episodeId collectEvidence source turn state next drafts) :
    ∃ clock decision drawdownUsed funded traded opened orders,
      turnClock env turn = .ok clock ∧ drawdown1e8 state.core.snapshots = .ok drawdownUsed ∧
      Decides sha limits env episodeId collectEvidence source turn state decision ∧
      TurnOrder env clock collectEvidence state.core next.core decision drawdownUsed funded traded
        opened orders ∧ orders <:+: drafts ∧
      ∀ action, decision.parsed = some action → ∀ bps, action.maxSlippageBps = some bps →
        SlippageKept env clock funded action bps orders := by
  obtain ⟨clock, decision, drawdown, funded, traded, opened, orders, hclock, hdrawdown, hdecides,
    horder, hinfix, -⟩ := h.order
  obtain ⟨counters, counters', haction⟩ := horder.order
  refine ⟨clock, decision, drawdown, funded, traded, opened, orders, hclock, hdrawdown, hdecides,
    horder, hinfix, fun action hparsed bps hbps => ?_⟩
  obtain ⟨hnone, -⟩ | ⟨action', haction', hprocess⟩ := actionPhase_eq_ok haction
  · simp [hparsed] at hnone
  · obtain rfl : action = action' := Option.some.inj (hparsed.symm.trans haction')
    obtain ⟨sizing, filled, hsizing, hphase, -, rfl⟩ := processAction_eq_ok hprocess
    have kept := orderPhase_slippage hbps hsizing hphase
    refine ⟨fun d hd f hf => ?_, fun d hd c hc => ?_⟩
    · rcases List.mem_append.mp hd with hd | hd
      · exact absurd hf (gateDrafts_unfilled hd f)
      · exact kept.filled d hd f hf
    · rcases List.mem_append.mp hd with hd | hd
      · exact absurd hc (gateDrafts_uncancelled hd c)
      · exact kept.cancelled d hd c hc

end Loop

/-! ## A price the limit does not divide -/

namespace Scenario

/-- A still price just below twice the scale of basis points, with a spread of one basis point. -/
def narrow : Scenario :=
  ⟨.still 19_999, [.still 19_999, .still 19_999], [], 10_000, 45_000, 1_000_000, 1_000_000, 20_000,
    onePercent_pos, doubled_pos, unsettled_increasing⟩

end Scenario

/-- A purchase at `20_001` over `19_999` under a limit of one basis point. -/
theorem narrow_limit_kept :
    ∃ (start next : ProfileState Unit) (drafts : List Draft),
      startState (Scenario.narrow.env (Scenario.config 50_000_000) 10_000) () = .ok start ∧
      TurnDrafts Scenario.sha Scenario.limits
        (Scenario.narrow.env (Scenario.config 50_000_000) 10_000) [] true
        (.replay [Scenario.acting 10_000 (some 1)]) 0 start next drafts ∧
      0 < next.core.account.positionQtyBase1e8 ∧
      ∃ clock decision drawdownUsed funded traded opened orders,
        TurnOrder (Scenario.narrow.env (Scenario.config 50_000_000) 10_000) clock true start.core
          next.core decision drawdownUsed funded traded opened orders ∧
        ∀ action, decision.parsed = some action → ∀ bps, action.maxSlippageBps = some bps →
          SlippageKept (Scenario.narrow.env (Scenario.config 50_000_000) 10_000) clock funded action
            bps orders := by
  have returned : Returns (do
      let env := Scenario.narrow.env (Scenario.config 50_000_000) 10_000
      let start ← startState env ()
      let next ← turnBody Scenario.sha Scenario.limits env [] true
        (.replay [Scenario.acting 10_000 (some 1)]) 0 start
      require (0 < next.core.account.positionQtyBase1e8) (.engineError "not held")
      return (start, next)) := by decide +kernel
  obtain ⟨_, returned⟩ := returned
  simp only [bind_ok_iff, require_eq_ok] at returned
  obtain ⟨start, hstart, next, hnext, _, hheld, -⟩ := returned
  obtain ⟨clock, drawdown, turnover, decision, asked, drafts, hdrafts⟩ := turnBody_eq_ok hnext
  have hturn : TurnDrafts Scenario.sha Scenario.limits
      (Scenario.narrow.env (Scenario.config 50_000_000) 10_000) [] true
      (.replay [Scenario.acting 10_000 (some 1)]) 0 start next drafts :=
    ⟨clock, drawdown, turnover, decision, asked, hdrafts⟩
  obtain ⟨clock, decision, drawdown, funded, traded, opened, orders, -, -, -, horder, -, hkept⟩ :=
    slippage_limit_kept hturn
  exact ⟨start, next, drafts, hstart, hturn, hheld, clock, decision, drawdown, funded, traded, opened,
    orders, horder, hkept⟩

/-- The agent asks for one basis point at most, and buys further away than that. -/
theorem narrow_buys_beyond_limit :
    ∃ result, runEpisode Scenario.sha Scenario.limits Scenario.narrow.pack
        (Scenario.scripted [Scenario.actionBody ("1", some 1)]) (Scenario.config 50_000_000)
        (txt "run") Scenario.EPISODE_ID 0 = .ok result ∧
      ∃ e ∈ result.events, ∃ f, e.payload = .orderFilled f ∧ f.side = .buy ∧
        ¬ WithinSlippage f.fillPxTicks f.refOpenPxTicks 1 := by
  have returned : Returns (do
      let result ← runEpisode Scenario.sha Scenario.limits Scenario.narrow.pack
        (Scenario.scripted [Scenario.actionBody ("1", some 1)]) (Scenario.config 50_000_000)
        (txt "run") Scenario.EPISODE_ID 0
      require (result.events.any fun e => (Scenario.filled e.payload).any fun f =>
        f.side = .buy ∧ f.refOpenPxTicks < |f.fillPxTicks - f.refOpenPxTicks| * 10_000)
        (.engineError "within")
      return result) := by decide +kernel
  obtain ⟨_, returned⟩ := returned
  simp only [bind_ok_iff, require_eq_ok] at returned
  obtain ⟨result, hresult, _, hany, -⟩ := returned
  obtain ⟨e, he, hbeyond⟩ := List.any_eq_true.mp hany
  obtain ⟨f, hf, hbeyond⟩ := (Option.any_eq_true _ _).mp hbeyond
  obtain ⟨hside, hbeyond⟩ := of_decide_eq_true hbeyond
  refine ⟨result, hresult, e, he, f, Scenario.filled_eq_some.mp hf, hside, ?_⟩
  rw [WithinSlippage, one_mul, not_le]
  exact hbeyond

end WagmiBench.Core
