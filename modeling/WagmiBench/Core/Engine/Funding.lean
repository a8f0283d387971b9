import WagmiBench.Core.Rounding
import WagmiBench.Core.Engine.Drafts
import WagmiBench.Core.Engine.Log
import WagmiBench.Lib.Window

/-!
# Every due settlement is applied once

A turn applies funding on two paths: the settlement at its own decision instant, looked up by
equality, before the order; and the settlements strictly inside its holding bar, after the order.
Together they are the settlements of the window from its decision to the next one, and the windows of
consecutive turns join.
-/

namespace WagmiBench.Core

open WagmiBench.Lib WagmiBench.Harness WagmiBench.Spec

/-! ## Charging an account -/

/-- `row` is charged on the position of `a`, which becomes `b`, and reported as `p`. -/
structure Charge (env : ProfileEnv) (row : FundingRow) (a b : Account) (p : FundingApplied) :
    Prop where
  ts : p.settlementTs = row.ts
  rate : p.rate1e8 = min (max row.rate1e8 env.market.spec.funding.floor1e8)
    env.market.spec.funding.cap1e8
  index : ∃ indexRow ∈ env.market.index, indexRow.ts = row.ts ∧ p.indexPxTicks = indexRow.o
  position : p.positionQtyBase1e8 = a.positionQtyBase1e8
  amount : p.amountMicro = -⌈((a.positionQtyBase1e8 * p.indexPxTicks *
    env.market.spec.tickSizeMicro * p.rate1e8 : ℤ) : ℚ) / 10 ^ 16⌉
  account : b = { a with
    cashMicro := a.cashMicro + p.amountMicro
    fundingCumMicro := a.fundingCumMicro - p.amountMicro }

/-- The rows are charged one after the other. -/
inductive Charges (env : ProfileEnv) :
    List FundingRow → Account → Account → List FundingApplied → Prop
  | done (a : Account) : Charges env [] a a []
  | charge {row : FundingRow} {rows : List FundingRow} {a b c : Account} {p : FundingApplied}
      {settled : List FundingApplied} : Charge env row a b p → Charges env rows b c settled →
      Charges env (row :: rows) a c (p :: settled)

namespace Charges

variable {env : ProfileEnv} {rows : List FundingRow} {a b : Account} {settled : List FundingApplied}

/-- What is reported are the rows that were charged. -/
theorem map_ts (h : Charges env rows a b settled) :
    settled.map FundingApplied.settlementTs = rows.map FundingRow.ts := by
  induction h with
  | done => rfl
  | charge hc _ ih => simp [hc.ts, ih]

/-- Settlements do not trade: the position charged is the same throughout. -/
theorem position_eq (h : Charges env rows a b settled) :
    b.positionQtyBase1e8 = a.positionQtyBase1e8 ∧
      ∀ p ∈ settled, p.positionQtyBase1e8 = a.positionQtyBase1e8 := by
  induction h with
  | done => simp
  | charge hc _ ih =>
    obtain ⟨hb, hsettled⟩ := ih
    have hnext := congrArg Account.positionQtyBase1e8 hc.account
    simp only at hnext
    rw [hnext] at hb hsettled
    exact ⟨hb, by simpa using ⟨hc.position, hsettled⟩⟩

end Charges

section Phases

variable {env : ProfileEnv} {clock : TurnClock} {account after : Account} {drafts : List Draft}
  {collectEvidence : Bool}

theorem settleFunding_charge {row : FundingRow} {draft : Draft}
    (h : settleFunding env clock row.ts row account = .ok (after, draft)) :
    ∃ p, draft.payload = .fundingApplied p ∧ Charge env row account after p := by
  obtain ⟨rate, indexPx, flow, happly, rfl⟩ := settleFunding_eq_ok h
  obtain ⟨hrate, ⟨indexRow, hindex, rfl⟩, hflow, rfl⟩ := appliedFunding_eq_ok happly
  simp only [clampFundingRate1e8, bind_ok_iff, pure_eq_ok, Except.ok.injEq] at hrate
  obtain ⟨-, -, rfl⟩ := hrate
  simp only [fundingCashFlowMicro, bind_ok_iff, pure_eq_ok, Except.ok.injEq,
    ceilFraction_eq_ceil] at hflow
  obtain ⟨-, -, rfl⟩ := hflow
  exact ⟨_, rfl, rfl, rfl, ⟨indexRow, List.mem_of_find?_eq_some hindex,
    by simpa using List.find?_some hindex, rfl⟩, rfl, by norm_num, rfl⟩

/-- The coincident path charges the settlement at the decision instant. -/
theorem coincidentFunding_charges
    (h : coincidentFunding env clock account = .ok (after, drafts)) :
    Charges env (env.market.funding.find? fun row => row.ts = clock.decisionTs).toList account after
      (settlements drafts) := by
  obtain ⟨hnone, rfl, rfl⟩ | ⟨row, draft, hrow, hsettle, rfl⟩ := coincidentFunding_eq_ok h
  · rw [hnone]
    exact .done _
  · have hts : row.ts = clock.decisionTs := by simpa using List.find?_some hrow
    rw [← hts] at hsettle
    obtain ⟨p, hp, hcharge⟩ := settleFunding_charge hsettle
    rw [hrow]
    simpa [settlements, hp, Payload.settlement] using Charges.charge hcharge (.done _)

/-- The scan charges the settlements strictly inside the holding bar. -/
theorem holdingFunding_charges {rows : List FundingRow}
    (h : holdingFunding env clock rows account = .ok (after, drafts)) :
    Charges env (rows.filter fun row => clock.decisionTs < row.ts ∧ row.ts < clock.holdingCloseTs)
      account after (settlements drafts) := by
  induction rows generalizing account drafts with
  | nil =>
    simp only [holdingFunding, Except.ok.injEq, Prod.mk.injEq] at h
    obtain ⟨rfl, rfl⟩ := h
    exact .done _
  | cons row rows ih =>
    rw [holdingFunding] at h
    rw [List.filter_cons]
    split at h
    · rename_i hinside
      simp only [bind_ok_iff, pure_eq_ok, Except.ok.injEq, Prod.mk.injEq] at h
      obtain ⟨⟨next, draft⟩, hsettle, ⟨last, rest⟩, hrest, rfl, rfl⟩ := h
      obtain ⟨p, hp, hcharge⟩ := settleFunding_charge hsettle
      rw [if_pos (by simpa using hinside)]
      have : settlements (draft :: rest) = p :: settlements rest := by
        simp [settlements, hp, Payload.settlement]
      exact this ▸ .charge hcharge (ih hrest)
    · rename_i houtside
      rw [if_neg (by simpa using houtside)]
      exact ih h

/-- How funding moves the account of a turn: the coincident settlement is charged on the position the
turn begins with, the others on the position its order leaves, and nothing is settled elsewhere. -/
structure TurnFunded (env : ProfileEnv) (clock : TurnClock) (collectEvidence : Bool)
    (core core' : ProfileCore) (decision : TurnDecision) (drawdownUsed : ℤ)
    (funded traded opened : Account) (coincident inside : List FundingApplied) : Prop where
  coincident : Charges env (env.market.funding.find? fun row => row.ts = clock.decisionTs).toList
    core.account funded coincident
  order : ∃ counters counters' drafts, actionPhase env clock collectEvidence funded counters decision
    drawdownUsed = .ok (traded, counters', drafts)
  inside : Charges env (env.market.funding.filter fun row =>
    clock.decisionTs < row.ts ∧ row.ts < clock.holdingCloseTs) traded opened inside
  close : ∃ counters nextSeq drafts, closePhase env clock collectEvidence opened counters
    core.snapshots nextSeq = .ok (core', drafts)

/-- Step lemma: what a turn settles. -/
theorem settleTurn_funded {core core' : ProfileCore} {decision : TurnDecision} {drawdownUsed : ℤ}
    {nextSeq : ℕ}
    (h : settleTurn env clock collectEvidence core decision drawdownUsed nextSeq =
      .ok (core', drafts)) :
    ∃ funded traded opened coincident inside,
      TurnFunded env clock collectEvidence core core' decision drawdownUsed funded traded opened
        coincident inside ∧
      settlements drafts = coincident ++ inside := by
  obtain ⟨opened, counters, opening, closing, hopen, hclose, rfl⟩ := settleTurn_eq_ok h
  obtain ⟨funded, traded, coincident, orders, inside, hfund, haction, hinside, rfl⟩ :=
    openPhase_eq_ok hopen
  refine ⟨funded, traded, opened, _, _, ⟨coincidentFunding_charges hfund, ⟨_, _, _, haction⟩,
    holdingFunding_charges hinside, ⟨_, _, _, hclose⟩⟩, ?_⟩
  have decided : settlements [(countDecision clock core.counters decision).2] = [] :=
    settlements_eq_nil fun d hd => by
      obtain rfl := List.mem_singleton.mp hd
      exact (countDecision_draft _ _).1.settlement
  have ordered : settlements orders = [] :=
    settlements_eq_nil fun d hd => (actionPhase_drafts haction d hd).1.settlement
  have closed : settlements closing = [] :=
    settlements_eq_nil fun d hd => (closePhase_drafts hclose d hd).1.settlement
  rw [settlements_append, settlements_append, settlements_append, ordered, closed,
    ← List.singleton_append, settlements_append, decided]
  simp

end Phases

/-! ## Runs -/

section Loop

variable {σ : Type} {sha : Sha256} {limits : Json.Limits} {env : ProfileEnv} {episodeId : Text}
  {collectEvidence : Bool} {source : DecisionSource σ} {start state next : ProfileState σ}

/-- Step lemma: a turn settles the window from its clock to the next one. -/
theorem TurnDrafts.settles_window {turn : ℕ} {drafts : List Draft}
    (h : TurnDrafts sha limits env episodeId collectEvidence source turn state next drafts) {ts : ℤ}
    (hts : env.pack.clockRealTs turn = .ok ts) :
    (settlements drafts).map FundingApplied.settlementTs =
      (window FundingRow.ts ts (ts + env.pack.decisionBarMs) env.market.funding).map
        FundingRow.ts := by
  obtain ⟨clock, drawdown, turnover, decision, asked, hclock, -, -, -, hsettle, -⟩ := h
  obtain ⟨hts', -, -, hclose⟩ := turnClock_eq_ok hclock
  obtain rfl : ts = clock.decisionTs := Except.ok.inj (hts.symm.trans hts')
  obtain ⟨funded, traded, opened, coincident, inside, hfunded, hdrafts⟩ := settleTurn_funded hsettle
  have hbar := env.pack.decision_bar_pos
  rw [hdrafts, List.map_append, hfunded.coincident.map_ts, hfunded.inside.map_ts, ← List.map_append,
    hclose, window_eq_find_append env.market.funding_increasing (by omega)]

/-- Run lemma: the turns before `turn` settle the window from the first clock on. -/
theorem Drafted.window_eq {turn : ℕ} {drafts : List Draft}
    (h : Drafted sha limits env episodeId collectEvidence source start turn state drafts) :
    (settlements drafts).map FundingApplied.settlementTs =
      (window FundingRow.ts (env.pack.windowStartTs + (env.pack.warmupBars + 1) *
          env.pack.decisionBarMs)
        (env.pack.windowStartTs + (env.pack.warmupBars + turn + 1) * env.pack.decisionBarMs)
        env.market.funding).map FundingRow.ts := by
  induction h with
  | start => simp
  | @turn t st st' earlier drafts _ _ _ hdrafts ih =>
    obtain ⟨ts, hts⟩ : ∃ ts, env.pack.clockRealTs t = .ok ts := by
      obtain ⟨clock, _, _, _, _, hclock, -⟩ := hdrafts
      exact ⟨_, (turnClock_eq_ok hclock).1⟩
    have hbar := env.pack.decision_bar_pos
    have hts_eq := (clockRealTs_eq_ok.mp hts).2.1
    have hnext : env.pack.windowStartTs + (env.pack.warmupBars + (t + 1 : ℕ) + 1) *
        env.pack.decisionBarMs = ts + env.pack.decisionBarMs := by
      rw [hts_eq]
      push_cast
      ring
    have hfirst : env.pack.windowStartTs + (env.pack.warmupBars + 1) * env.pack.decisionBarMs ≤ ts := by
      rw [hts_eq]
      nlinarith
    rw [settlements_append, List.map_append, ih, hdrafts.settles_window hts, ← List.map_append,
      hnext, ← hts_eq,
      window_append env.market.funding_increasing hfirst (by omega)]

end Loop

/-- **Every due settlement is applied exactly once.** The settlements a finished run applied are, in
increasing order, those due from its first decision to the end of its last holding bar. In every turn
the coincident one is charged on the position the turn began with, the others on the position its
order left, each for the amount its row, its index price and its position give. -/
theorem runProfile_settles_once {σ : Type} {sha : Sha256} {limits : Json.Limits} {pack : PackData}
    {config : EpisodeConfig} {profile episodeId : Text} {source : DecisionSource σ} {s : σ}
    {collectEvidence : Bool} {run : ProfileRun σ}
    (h : runProfile sha limits pack config profile episodeId source s collectEvidence = .ok run) :
    ∃ env start last first lastTs drafted,
      profileEnv pack config profile = .ok env ∧ startState env s = .ok start ∧
      run.core.lastTurn = (last : ℕ) ∧
      Drafted sha limits env episodeId collectEvidence source start (last + 1) run.toProfileState
        drafted ∧
      pack.clockRealTs 0 = .ok first ∧ pack.clockRealTs last = .ok lastTs ∧
      (settlements drafted).map FundingApplied.settlementTs = (env.market.funding.filter fun row =>
        first ≤ row.ts ∧ row.ts < lastTs + pack.decisionBarMs).map FundingRow.ts ∧
      ((settlements drafted).map FundingApplied.settlementTs).Pairwise (· < ·) ∧
      ∀ turn state next drafts,
        TurnReach sha limits env episodeId collectEvidence source start turn state →
        TurnDrafts sha limits env episodeId collectEvidence source turn state next drafts →
        ∃ clock decision drawdownUsed funded traded opened coincident inside,
          turnClock env turn = .ok clock ∧
          Decides sha limits env episodeId collectEvidence source turn state decision ∧
          TurnFunded env clock collectEvidence state.core next.core decision drawdownUsed funded
            traded opened coincident inside ∧
          settlements drafts = coincident ++ inside := by
  obtain ⟨env, henv, hloop⟩ := runProfile_eq_ok h
  obtain ⟨rfl, -, -⟩ := profileEnv_eq_ok henv
  obtain ⟨start, turns, last, hstart, hturns, hlt, hreach, -, hlast, -⟩ := runLoop_last_eq_ok hloop
  obtain ⟨drafted, hdrafted⟩ := TurnReach.drafted hreach
  obtain ⟨first, _, hfirst, -, -⟩ := startState_eq_ok hstart
  obtain ⟨lastTs, hlastTs⟩ : ∃ ts, env.pack.clockRealTs last = .ok ts := by
    cases hreach with
    | step _ _ hbody =>
      obtain ⟨clock, _, _, _, _, _, hclock, -⟩ := turnBody_eq_ok hbody
      exact ⟨_, (turnClock_eq_ok hclock).1⟩
  have hwindow : (settlements drafted).map FundingApplied.settlementTs =
      (window FundingRow.ts first (lastTs + env.pack.decisionBarMs) env.market.funding).map
        FundingRow.ts := by
    have hfirst_eq := (clockRealTs_eq_ok.mp hfirst).2.1
    have hlast_eq := (clockRealTs_eq_ok.mp hlastTs).2.1
    rw [hdrafted.window_eq, hfirst_eq, hlast_eq]
    push_cast
    ring_nf
  refine ⟨env, start, last, first, lastTs, drafted, henv, hstart, hlast, hdrafted, hfirst, hlastTs,
    hwindow, ?_, fun turn state next drafts _ hdrafts => ?_⟩
  · rw [hwindow]
    exact window_increasing env.market.funding_increasing
  · obtain ⟨clock, drawdown, turnover, decision, asked, hclock, hdrawdown, hturnover, hdec, hsettle,
      -⟩ := hdrafts
    obtain ⟨funded, traded, opened, coincident, inside, hfunded, hsettled⟩ :=
      settleTurn_funded hsettle
    exact ⟨clock, decision, drawdown, funded, traded, opened, coincident, inside, hclock,
      ⟨clock, drawdown, turnover, asked, hclock, hdrawdown, hturnover, hdec⟩, hfunded, hsettled⟩

/-- The steady price with a settlement at each of its two decisions. -/
def twiceFunded : Scenario :=
  { Scenario.steady with
    settlements := [(HOUR, 1_000), (2 * HOUR, 1_000)]
    increasing := by decide }

/-- Both settlements of the scenario are applied, the second one on the long of the first turn. -/
theorem twiceFunded_settles_once : ∃ (run : ProfileRun Unit) (start : ProfileState Unit)
    (drafted : List Draft),
    Drafted Scenario.sha Scenario.limits (twiceFunded.env (Scenario.config 50_000_000) 10_000) [] true
        (.replay [Scenario.acting 10_000 none, Scenario.missed]) start 2 run.toProfileState drafted ∧
      (settlements drafted).map FundingApplied.settlementTs = [HOUR, 2 * HOUR] := by
  have returned : Returns (do
      let run ← runProfile (σ := Unit) Scenario.sha Scenario.limits twiceFunded.pack
        (Scenario.config 50_000_000) PRIMARY []
        (.replay [Scenario.acting 10_000 none, Scenario.missed]) () true
      require (run.core.lastTurn = 1) (.engineError "not finished")
      return run) := by decide +kernel
  obtain ⟨_, returned⟩ := returned
  simp only [bind_ok_iff, require_eq_ok] at returned
  obtain ⟨run, hrun, _, hturn, -⟩ := returned
  obtain ⟨env, start, last, first, lastTs, drafted, henv, -, hlast, hdrafted, hfirst, hlastTs, hts,
    -⟩ := runProfile_settles_once hrun
  obtain rfl : last = 1 := by omega
  obtain rfl : twiceFunded.env (Scenario.config 50_000_000) 10_000 = env :=
    Except.ok.inj ((Scenario.profileEnv_primary _ _).symm.trans henv)
  refine ⟨run, start, drafted, hdrafted, hts.trans ?_⟩
  have clocks : twiceFunded.pack.clockRealTs 0 = .ok HOUR ∧
      twiceFunded.pack.clockRealTs 1 = .ok (2 * HOUR) := by decide +kernel
  obtain rfl := Except.ok.inj (clocks.1.symm.trans hfirst)
  obtain rfl := Except.ok.inj (clocks.2.symm.trans hlastTs)
  decide +kernel

end WagmiBench.Core
