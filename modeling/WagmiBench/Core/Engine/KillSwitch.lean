import WagmiBench.Core.Engine.Attribution
import WagmiBench.Core.Engine.Drafts
import WagmiBench.Core.Engine.Log
import WagmiBench.Core.Engine.Scenario

/-!
# The kill switch is absorbing

An account whose kill switch is armed is flat. A turn of a flat, killed account moves no money and no
position: funding on nothing is nothing, a non-zero target is blocked, a zero target asks for the
position that is already there, and no bar can liquidate it. So the account stays as the switch left
it, whatever the decisions after it are.
-/

namespace WagmiBench.Core

open WagmiBench.Lib WagmiBench.Harness WagmiBench.Spec

/-- The target an action sets for a market. -/
def ParsedAction.targetFor (action : ParsedAction) (name : Text) : ℤ :=
  ((action.targetLev1e4.find? fun t => t.1 = name).map Prod.snd).getD 0

/-- An execution, or the switch itself. -/
def Payload.IsTrade : Payload → Prop
  | .orderFilled _ | .liquidationTriggered _ | .killSwitchTriggered _ => True
  | _ => False

def Payload.isPostKillAttempt : Payload → Bool
  | .postKillSwitchAttempt .. => true
  | _ => false

/-- The evidence of a decision trades nothing. -/
theorem Payload.IsEvidence.quiet {p : Payload} (h : p.IsEvidence) :
    ¬ p.IsTrade ∧ p.isPostKillAttempt = false := by
  cases p <;> first | exact h.elim | exact ⟨id, rfl⟩

/-- A failed gate. -/
def Payload.IsBlock : Payload → Prop
  | .riskCheck check => check.passed = false
  | _ => False

/-! ## Turns of a flat account -/

/-- An account without a position, its kill switch armed. -/
structure Account.IsKilled (account : Account) : Prop where
  flat : account.positionQtyBase1e8 = 0
  active : account.killSwitchActive = true

section Phases

variable {env : ProfileEnv} {clock : TurnClock} {account after : Account} {drafts : List Draft}
  {collectEvidence : Bool}

theorem ceilFraction_zero : ceilFraction 0 = 0 := rfl

theorem fundingCashFlowMicro_flat {px tick rate flow : ℤ}
    (h : fundingCashFlowMicro 0 px tick rate = .ok flow) : flow = 0 := by
  simp only [fundingCashFlowMicro, bind_ok_iff, pure_eq_ok, Except.ok.injEq] at h
  obtain ⟨-, -, rfl⟩ := h
  simp [ceilFraction_zero]

/-- A settlement of a flat account is reported and changes nothing. -/
theorem settleFunding_flat (hflat : account.positionQtyBase1e8 = 0) {ts : ℤ} {row : FundingRow}
    {draft : Draft} (h : settleFunding env clock ts row account = .ok (after, draft)) :
    after = account ∧ ∃ p, draft.payload = .fundingApplied p := by
  obtain ⟨rate, px, flow, happly, rfl⟩ := settleFunding_eq_ok h
  obtain ⟨-, -, hflow, rfl⟩ := appliedFunding_eq_ok happly
  rw [hflat] at hflow
  obtain rfl := fundingCashFlowMicro_flat hflow
  exact ⟨by simp, _, rfl⟩

theorem coincidentFunding_flat (hflat : account.positionQtyBase1e8 = 0)
    (h : coincidentFunding env clock account = .ok (after, drafts)) :
    after = account ∧ ∀ d ∈ drafts, ∃ p, d.payload = .fundingApplied p := by
  obtain ⟨-, rfl, rfl⟩ | ⟨row, draft, -, hsettle, rfl⟩ := coincidentFunding_eq_ok h
  · exact ⟨rfl, by simp⟩
  · obtain ⟨rfl, hdraft⟩ := settleFunding_flat hflat hsettle
    exact ⟨rfl, by simpa using hdraft⟩

theorem holdingFunding_flat (hflat : account.positionQtyBase1e8 = 0) {rows : List FundingRow}
    (h : holdingFunding env clock rows account = .ok (after, drafts)) :
    after = account ∧ ∀ d ∈ drafts, ∃ p, d.payload = .fundingApplied p := by
  induction rows generalizing drafts with
  | nil =>
    simp only [holdingFunding, Except.ok.injEq, Prod.mk.injEq] at h
    obtain ⟨rfl, rfl⟩ := h
    exact ⟨rfl, by simp⟩
  | cons row rows ih =>
    obtain ⟨next, draft, rest, hsettle, hrest, rfl⟩ | hrest := holdingFunding_cons_eq_ok h
    · obtain ⟨rfl, hdraft⟩ := settleFunding_flat hflat hsettle
      obtain ⟨rfl, hdrafts⟩ := ih hrest
      exact ⟨rfl, by simpa using ⟨hdraft, hdrafts⟩⟩
    · exact ih hrest

theorem rawTargetQuantity_zero {equity px tick raw : ℤ}
    (h : rawTargetQuantityBase1e8 0 equity px tick = .ok raw) : raw = 0 := by
  simp only [rawTargetQuantityBase1e8, bind_ok_iff, pure_eq_ok, Except.ok.injEq] at h
  obtain ⟨-, -, -, -, rfl⟩ := h
  simp [floorFraction]

/-- What the sizing of an action says about its target: a zero target asks a flat account for
nothing. -/
theorem sizeAction_eq_ok {action : ParsedAction} {sizing : Sizing}
    (h : sizeAction env clock account action = .ok sizing) :
    sizing.targetLev = action.targetFor env.aliasName ∧
      (sizing.targetLev = 0 → account.positionQtyBase1e8 = 0 → sizing.requestedDelta = 0) := by
  simp only [sizeAction, bind_ok_iff, pure_eq_ok, Except.ok.injEq] at h
  obtain ⟨markRow, -, decisionUpnl, -, fillRow, -, requested, hrequested, raw, -, notional, -,
    projected, -, rfl⟩ := h
  refine ⟨rfl, fun htarget hflat => ?_⟩
  change action.targetFor env.aliasName = 0 at htarget
  change targetQuantityBase1e8 (action.targetFor env.aliasName) _ _ _ _ = _ at hrequested
  rw [htarget] at hrequested
  simp only [targetQuantityBase1e8, bind_ok_iff] at hrequested
  obtain ⟨raw', hraw', hstep⟩ := hrequested
  obtain rfl := rawTargetQuantity_zero hraw'
  simp only [floorToStep, bind_ok_iff, pure_eq_ok, Except.ok.injEq] at hstep
  obtain ⟨-, -, rfl⟩ := hstep
  simp [hflat]

/-- The drawdown gate of an armed switch fails for every non-zero target. -/
theorem riskChecks_killed {sizing : Sizing} {drawdownUsed : ℤ}
    (hactive : account.killSwitchActive = true) (htarget : sizing.targetLev ≠ 0) :
    ∃ check ∈ riskChecks env account sizing drawdownUsed, check.passed = false := by
  refine ⟨_, List.mem_append_right _ (List.mem_singleton_self _), ?_⟩
  simp [hactive, htarget]

theorem anyFailed_iff {checks : List RiskCheck} :
    anyFailed checks = true ↔ ∃ check ∈ checks, check.passed = false := by
  simp [anyFailed]

/-- What an action does to a killed account: nothing, and a non-zero target is blocked by a gate and
reported once. -/
structure KilledAction (account : Account) (counters : Counters) (target : ℤ) (after : Account)
    (counters' : Counters) (drafts : List Draft) : Prop where
  account_eq : after = account
  no_trade : ∀ d ∈ drafts, ¬ d.payload.IsTrade
  attempts : counters'.postKillSwitchAttempts =
    counters.postKillSwitchAttempts + if target ≠ 0 then 1 else 0
  attempt_events : (drafts.filter fun d => d.payload.isPostKillAttempt).length =
    if target ≠ 0 then 1 else 0
  blocks : target ≠ 0 → counters.gateBlocks < counters'.gateBlocks
  block_events : target ≠ 0 → ∃ d ∈ drafts, d.payload.IsBlock

theorem orderPhase_killed (hkilled : account.IsKilled) {action : ParsedAction} {sizing : Sizing}
    {drawdownUsed : ℤ} (hsizing : sizeAction env clock account action = .ok sizing)
    (h : orderPhase env clock collectEvidence
      (anyFailed (riskChecks env account sizing drawdownUsed)) account action sizing =
        .ok (after, drafts)) :
    after = account ∧ ∀ d ∈ drafts, ¬ d.payload.IsTrade ∧ d.payload.isPostKillAttempt = false := by
  obtain ⟨-, hzero⟩ := sizeAction_eq_ok hsizing
  obtain ⟨-, rfl, rfl⟩ | ⟨hfree, hdelta, -⟩ | ⟨-, -, hrelabel⟩ := orderPhase_eq_ok h
  · exact ⟨rfl, by simp⟩
  · -- an unblocked order has target zero, and a flat account then asks for nothing
    have htarget : sizing.targetLev = 0 := by
      by_contra htarget
      have failed : anyFailed (riskChecks env account sizing drawdownUsed) = true :=
        anyFailed_iff.mpr (riskChecks_killed hkilled.active htarget)
      simp [failed] at hfree
    exact absurd (hzero htarget hkilled.flat) hdelta
  · unfold relabel at hrelabel
    split at hrelabel
    · obtain ⟨rfl, rfl⟩ := Prod.mk.inj hrelabel
      exact ⟨rfl, by simp [roundingCancel, Payload.IsTrade, Payload.isPostKillAttempt]⟩
    · rw [if_neg (by simp [hkilled.flat])] at hrelabel
      obtain ⟨rfl, rfl⟩ := Prod.mk.inj hrelabel
      exact ⟨rfl, by simp⟩

theorem processAction_killed (hkilled : account.IsKilled) {counters counters' : Counters}
    {action : ParsedAction} {rawSha256 : Option Text} {drawdownUsed : ℤ}
    (h : processAction env clock collectEvidence account counters action rawSha256 drawdownUsed =
      .ok (after, counters', drafts)) :
    KilledAction account counters (action.targetFor env.aliasName) after counters' drafts := by
  obtain ⟨sizing, orders, hsizing, horder, rfl, rfl⟩ := processAction_eq_ok h
  obtain ⟨htarget, -⟩ := sizeAction_eq_ok hsizing
  obtain ⟨rfl, horders⟩ := orderPhase_killed hkilled hsizing horder
  have attempted : (anyFailed (riskChecks env after sizing drawdownUsed) && after.killSwitchActive &&
      decide (sizing.targetLev ≠ 0)) = decide (action.targetFor env.aliasName ≠ 0) := by
    rw [hkilled.active, ← htarget]
    by_cases hzero : sizing.targetLev = 0
    · simp [hzero]
    · simp [hzero, anyFailed_iff.mpr (riskChecks_killed hkilled.active hzero)]
  have quiet : orders.filter (fun d => d.payload.isPostKillAttempt) = [] :=
    List.filter_eq_nil_iff.mpr fun d hd => by simp [(horders d hd).2]
  have checks_quiet : ∀ checks : List RiskCheck, (checks.map fun c =>
      (engineDraft clock.decisionTs clock.turn clock.turn (.riskCheck c))).filter
        (fun d => d.payload.isPostKillAttempt) = [] := fun checks =>
    List.filter_eq_nil_iff.mpr fun d hd => by
      obtain ⟨c, -, rfl⟩ := List.mem_map.mp hd
      simp [Payload.isPostKillAttempt]
  have failed : action.targetFor env.aliasName ≠ 0 →
      ∃ check ∈ riskChecks env after sizing drawdownUsed, check.passed = false := fun hne =>
    riskChecks_killed hkilled.active (htarget ▸ hne)
  rw [attempted]
  refine ⟨rfl, fun d hd => ?_, ?_, ?_, fun hne => ?_, fun hne => ?_⟩
  · rcases List.mem_append.mp hd with hd | hd
    · rcases List.mem_append.mp hd with hd | hd
      · obtain ⟨c, -, rfl⟩ := List.mem_map.mp hd
        simp [Payload.IsTrade]
      · split at hd <;> simp_all [Payload.IsTrade]
    · exact (horders d hd).1
  · simp [countGates]
  · rw [gateDrafts, List.filter_append, List.filter_append, checks_quiet, quiet]
    by_cases hzero : action.targetFor env.aliasName = 0 <;>
      simp [hzero, Payload.isPostKillAttempt]
  · obtain ⟨check, hcheck, hpassed⟩ := failed hne
    have hmem : check ∈ (riskChecks env after sizing drawdownUsed).filter fun c => !c.passed :=
      List.mem_filter.mpr ⟨hcheck, by simp [hpassed]⟩
    have := List.length_pos_of_mem hmem
    simp only [countGates]
    omega
  · obtain ⟨check, hcheck, hpassed⟩ := failed hne
    exact ⟨engineDraft clock.decisionTs clock.turn clock.turn (.riskCheck check),
      List.mem_append_left _ (List.mem_append_left _ (List.mem_map_of_mem hcheck)), hpassed⟩

/-- The target a decision sets for a market: zero where there is no action. -/
def TurnDecision.targetFor (decision : TurnDecision) (name : Text) : ℤ :=
  (decision.parsed.map fun action => action.targetFor name).getD 0

theorem actionPhase_killed (hkilled : account.IsKilled) {counters counters' : Counters}
    {decision : TurnDecision} {drawdownUsed : ℤ}
    (h : actionPhase env clock collectEvidence account counters decision drawdownUsed =
      .ok (after, counters', drafts)) :
    KilledAction account counters (decision.targetFor env.aliasName) after counters' drafts := by
  obtain ⟨hnone, rfl, rfl, rfl⟩ | ⟨action, haction, h⟩ := actionPhase_eq_ok h
  · have hzero : decision.targetFor env.aliasName = 0 := by simp [TurnDecision.targetFor, hnone]
    exact ⟨rfl, by simp, by simp [hzero], by simp [hzero], fun hne => absurd hzero hne,
      fun hne => absurd hzero hne⟩
  · have htarget : decision.targetFor env.aliasName = action.targetFor env.aliasName := by
      simp [TurnDecision.targetFor, haction]
    exact htarget ▸ processAction_killed hkilled h

theorem countDecision_quiet (counters : Counters) (decision : TurnDecision) :
    (countDecision clock counters decision).1.postKillSwitchAttempts =
        counters.postKillSwitchAttempts ∧
      (countDecision clock counters decision).1.gateBlocks = counters.gateBlocks ∧
      ¬ (countDecision clock counters decision).2.payload.IsTrade ∧
      (countDecision clock counters decision).2.payload.isPostKillAttempt = false := by
  obtain ⟨responses, facts, action | ⟨reason, detail, validator, attempts⟩, sha⟩ := decision
  · simp [countDecision, Payload.IsTrade, Payload.isPostKillAttempt]
  · cases reason <;> simp [countDecision, Payload.IsTrade, Payload.isPostKillAttempt]

theorem openPhase_killed (hkilled : account.IsKilled) {counters counters' : Counters}
    {decision : TurnDecision} {drawdownUsed : ℤ}
    (h : openPhase env clock collectEvidence account counters decision drawdownUsed =
      .ok (after, counters', drafts)) :
    KilledAction account counters (decision.targetFor env.aliasName) after counters' drafts := by
  obtain ⟨funded, traded, coincident, orders, inside, hfund, haction, hinside, rfl⟩ :=
    openPhase_eq_ok h
  obtain ⟨rfl, hcoincident⟩ := coincidentFunding_flat hkilled.flat hfund
  have acted := actionPhase_killed hkilled haction
  obtain rfl := acted.account_eq
  obtain ⟨rfl, hsettled⟩ := holdingFunding_flat hkilled.flat hinside
  obtain ⟨hattempts, hblocks, htrade, hquiet⟩ := @countDecision_quiet clock counters decision
  have funding_quiet : ∀ {l : List Draft}, (∀ d ∈ l, ∃ p, d.payload = .fundingApplied p) →
      l.filter (fun d => d.payload.isPostKillAttempt) = [] := fun hl =>
    List.filter_eq_nil_iff.mpr fun d hd => by
      obtain ⟨p, hp⟩ := hl d hd
      simp [hp, Payload.isPostKillAttempt]
  refine ⟨rfl, fun d hd => ?_, ?_, ?_, fun hne => ?_, fun hne => ?_⟩
  · simp only [List.mem_append, List.mem_cons] at hd
    rcases hd with ((rfl | hd) | hd) | hd
    · exact htrade
    · obtain ⟨p, hp⟩ := hcoincident d hd
      simp [hp, Payload.IsTrade]
    · exact acted.no_trade d hd
    · obtain ⟨p, hp⟩ := hsettled d hd
      simp [hp, Payload.IsTrade]
  · rw [acted.attempts, hattempts]
  · simp [List.filter_append, funding_quiet hcoincident, funding_quiet hsettled,
      acted.attempt_events, hquiet]
  · exact hblocks ▸ acted.blocks hne
  · obtain ⟨d, hd, hblock⟩ := acted.block_events hne
    exact ⟨d, by simp [hd], hblock⟩

/-! ## Closing a killed turn -/

/-- What a snapshot of a flat account stores. -/
structure Snapshot.AtRest (account : Account) (s : Snapshot) : Prop where
  position : s.positionQtyBase1e8 = 0
  cash : s.cashMicro = account.cashMicro
  nav : s.navMicro = account.cashMicro
  fees : s.feesCumMicro = account.feesCumMicro
  funding : s.fundingCumMicro = account.fundingCumMicro

theorem snapshot_atRest (hflat : account.positionQtyBase1e8 = 0) {market : MarketData} {i k : ℕ}
    {ts : ℤ} {s : Snapshot} (h : snapshot account market i k (some ts) = .ok s) :
    s.AtRest account := by
  obtain ⟨taken, -, -, -, mark, _, -, -, hupnl, -⟩ := snapshot_eq_ok h
  have zero : s.upnlMicro = 0 := by simpa [upnl, hflat, eq_comm] using hupnl
  exact ⟨by rw [taken.position, hflat], taken.cash, by rw [taken.nav, taken.cash, zero, add_zero],
    taken.fees, taken.funding⟩

theorem closePhase_killed (hkilled : account.IsKilled) {counters : Counters}
    {snapshots : SnapshotLog} {nextSeq : ℕ} {core : ProfileCore}
    (h : closePhase env clock collectEvidence account counters snapshots nextSeq =
      .ok (core, drafts)) :
    core.account = account ∧ core.terminal = false ∧ drafts = [] ∧
      core.counters.postKillSwitchAttempts = counters.postKillSwitchAttempts ∧
      core.counters.gateBlocks = counters.gateBlocks ∧ core.snapshots.last.AtRest account := by
  obtain ⟨margin, closed, liquidated, liquidation, s, killed, kill, last, hmargin, hliq, hs, hk,
    hlast, hcounters, hterminal, -, rfl⟩ := closePhase_eq_ok h
  obtain ⟨-, rfl, rfl, rfl⟩ | ⟨hq, -⟩ := liquidationPhase_eq_ok hliq
  · have quiet : ∀ evidence, marginDrafts env clock (evidence && decide
        (closed.positionQtyBase1e8 ≠ 0)) closed = .ok [] := fun _ => by
      simp [marginDrafts, hkilled.flat]
    obtain rfl : [] = margin := Except.ok.inj ((quiet collectEvidence).symm.trans hmargin)
    obtain ⟨_, -, ⟨-, haccount, -, hsnapshots, rfl⟩ | ⟨⟨-, hactive, -⟩, -⟩ |
      ⟨⟨-, hactive, -⟩, -⟩⟩ := killSwitchPhase_eq_ok hk
    · have silent : last = [] := by simpa [marginDrafts, eq_comm] using hlast
      refine ⟨haccount, hterminal, by simp [silent], by rw [hcounters], by rw [hcounters], ?_⟩
      rw [hsnapshots]
      exact snapshot_atRest hkilled.flat hs
    · simp [hkilled.active] at hactive
    · simp [hkilled.active] at hactive
  · exact absurd hkilled.flat hq

/-- Step lemma: a turn of a killed account leaves it as it is. -/
theorem settleTurn_killed {core core' : ProfileCore} (hkilled : core.account.IsKilled)
    {decision : TurnDecision} {drawdownUsed : ℤ} {nextSeq : ℕ}
    (h : settleTurn env clock collectEvidence core decision drawdownUsed nextSeq =
      .ok (core', drafts)) :
    KilledAction core.account core.counters (decision.targetFor env.aliasName) core'.account
        core'.counters drafts ∧
      core'.terminal = false ∧ core'.snapshots.last.AtRest core.account := by
  obtain ⟨account, counters, opening, closing, hopen, hclose, rfl⟩ := settleTurn_eq_ok h
  have opened := openPhase_killed hkilled hopen
  obtain rfl := opened.account_eq
  obtain ⟨haccount, hterminal, rfl, hattempts, hblocks, hrest⟩ := closePhase_killed hkilled hclose
  refine ⟨⟨haccount, ?_, ?_, ?_, fun hne => ?_, ?_⟩, hterminal, hrest⟩
  · simpa using opened.no_trade
  · rw [hattempts, opened.attempts]
  · simpa using opened.attempt_events
  · exact hblocks ▸ opened.blocks hne
  · simpa using opened.block_events

/-- The switch is only ever armed on a flat account. -/
theorem settleTurn_arms_flat {core core' : ProfileCore} {decision : TurnDecision}
    {drawdownUsed : ℤ} {nextSeq : ℕ}
    (hflat : core.account.killSwitchActive = true → core.account.positionQtyBase1e8 = 0)
    (h : settleTurn env clock collectEvidence core decision drawdownUsed nextSeq =
      .ok (core', drafts)) :
    core'.account.killSwitchActive = true → core'.account.positionQtyBase1e8 = 0 ∧
      core'.snapshots.last.AtRest core'.account := by
  intro hactive'
  by_cases hactive : core.account.killSwitchActive = true
  · obtain ⟨killed, -, hrest⟩ := settleTurn_killed ⟨hflat hactive, hactive⟩ h
    rw [killed.account_eq]
    exact ⟨hflat hactive, hrest⟩
  · obtain ⟨account, counters, opening, closing, hopen, hclose, -⟩ := settleTurn_eq_ok h
    obtain ⟨margin, closed, liquidated, liquidation, s, killed, kill, last, -, hliq, hs, hk, -⟩ :=
      closePhase_eq_ok hclose
    have hclosed : closed.killSwitchActive ≠ true := by
      rw [liquidationPhase_killSwitch hliq, openPhase_rule (openStep_killSwitch _) hopen rfl]
      exact hactive
    obtain ⟨_, -, ⟨-, haccount, -⟩ | ⟨-, hq, haccount, -, hsnapshots, -⟩ |
      ⟨-, -, -, flat, filled, s', margin', hflatten, hs', -, haccount, hsnapshots, -⟩⟩ :=
      killSwitchPhase_eq_ok hk
    · rw [haccount] at hactive'
      exact absurd hactive' hclosed
    · rw [haccount, hsnapshots]
      have rest := snapshot_atRest hq hs
      exact ⟨hq, rest.position, rest.cash, rest.nav, rest.fees, rest.funding⟩
    · obtain ⟨mark, fee, realized, -, -, -, rfl, -⟩ := flatten_eq_ok hflatten
      rw [haccount, hsnapshots]
      have rest := snapshot_atRest rfl hs'
      exact ⟨rfl, rest.position, rest.cash, rest.nav, rest.fees, rest.funding⟩

end Phases

/-! ## Runs -/

section Loop

variable {σ : Type} {sha : Sha256} {limits : Json.Limits} {env : ProfileEnv} {episodeId : Text}
  {collectEvidence : Bool} {source : DecisionSource σ} {start state next : ProfileState σ}

/-- A turn whose action a gate blocked, and which reported the attempt exactly once. -/
structure BlockedOnce (collectEvidence : Bool) (state next : ProfileState σ) : Prop where
  blocks : state.core.counters.gateBlocks < next.core.counters.gateBlocks
  attempts : next.core.counters.postKillSwitchAttempts =
    state.core.counters.postKillSwitchAttempts + 1
  events : collectEvidence = true → ∃ added, next.events = state.events ++ added ∧
    (added.filter fun e => e.payload.isPostKillAttempt).length = 1 ∧
    ∃ e ∈ added, e.payload.IsBlock

/-- A snapshot that stores a flat account as an earlier one stored it. -/
structure Snapshot.SameAs (s stored : Snapshot) : Prop where
  position : s.positionQtyBase1e8 = 0
  cash : s.cashMicro = stored.cashMicro
  nav : s.navMicro = stored.navMicro
  fees : s.feesCumMicro = stored.feesCumMicro
  funding : s.fundingCumMicro = stored.fundingCumMicro

theorem Snapshot.AtRest.sameAs {account : Account} {stored s : Snapshot}
    (hstored : stored.AtRest account) (hs : s.AtRest account) : s.SameAs stored :=
  ⟨hs.position, hs.cash.trans hstored.cash.symm, hs.nav.trans hstored.nav.symm,
    hs.fees.trans hstored.fees.symm, hs.funding.trans hstored.funding.symm⟩

/-- Run lemma: an armed switch has left its account flat. -/
theorem TurnReach.armed_flat {s : σ} (hstart : startState env s = .ok start) {turn : ℕ}
    (h : TurnReach sha limits env episodeId collectEvidence source start turn state)
    (hactive : state.core.account.killSwitchActive = true) :
    state.core.account.IsKilled ∧ state.core.snapshots.last.AtRest state.core.account := by
  have armed : state.core.account.killSwitchActive = true →
      state.core.account.positionQtyBase1e8 = 0 ∧
        state.core.snapshots.last.AtRest state.core.account := by
    refine Reach.invariant (I := fun _ st => st.core.account.killSwitchActive = true →
      st.core.account.positionQtyBase1e8 = 0 ∧ st.core.snapshots.last.AtRest st.core.account)
      ?_ ?_ h
    · obtain ⟨ts, first, -, -, rfl⟩ := startState_eq_ok hstart
      intro hactive
      simp [Account.start] at hactive
    · intro t st st' _ ih _ hbody
      obtain ⟨_, _, _, _, _, _, -, -, -, -, hsettle, -⟩ := turnBody_eq_ok hbody
      exact settleTurn_arms_flat (fun hactive => (ih hactive).1) hsettle
  exact ⟨⟨(armed hactive).1, hactive⟩, (armed hactive).2⟩

/-- A turn of a killed account: the account stays, one snapshot of it is appended, no trade is
emitted, and a non-zero target is blocked. -/
theorem turnBody_killed {turn : ℕ} (hkilled : state.core.account.IsKilled)
    (h : turnBody sha limits env episodeId collectEvidence source turn state = .ok next) :
    next.core.account = state.core.account ∧
      next.core.snapshots.earlier = state.core.snapshots.all ∧
      next.core.snapshots.last.AtRest state.core.account ∧
      (∃ added, next.events = state.events ++ added ∧ ∀ e ∈ added, ¬ e.payload.IsTrade) ∧
      ∀ decision, Decides sha limits env episodeId collectEvidence source turn state decision →
        decision.targetFor env.aliasName ≠ 0 → BlockedOnce collectEvidence state next := by
  obtain ⟨clock, drawdown, turnover, decision, asked, drafts, hclock, hdrawdown, hturnover, hdec,
    hsettle, hnext⟩ := turnBody_eq_ok h
  obtain ⟨acted, -, hrest⟩ := settleTurn_killed hkilled hsettle
  obtain ⟨evidence, hevents, hevidence⟩ := decideTurn_events hdec
  have quiet : ∀ d ∈ evidence, ¬ d.payload.IsTrade ∧ d.payload.isPostKillAttempt = false :=
    fun d hd => (hevidence d hd).1.quiet
  have appended : next.events =
      emitAll state.events (evidence ++ if collectEvidence then drafts else []) := by
    rw [hnext, emitAll_append, ← hevents]
    cases collectEvidence <;> simp [emitAll]
  obtain ⟨added, hadded, hmap⟩ :=
    emitAll_eq_append state.events (evidence ++ if collectEvidence then drafts else [])
  have payload_mem : ∀ e ∈ added, e.toDraft ∈ evidence ++ if collectEvidence then drafts else [] :=
    fun e he => hmap ▸ List.mem_map_of_mem he
  refine ⟨acted.account_eq, (settleTurn_snapshot hsettle).2, hrest,
    ⟨added, appended.trans hadded, fun e he => ?_⟩, fun decision' hdecides hne => ?_⟩
  · rcases List.mem_append.mp (payload_mem e he) with hd | hd
    · exact (quiet _ hd).1
    · split at hd
      · exact acted.no_trade _ hd
      · simp at hd
  · obtain rfl : decision = decision' := by
      obtain ⟨clock', drawdown', turnover', asked', hclock', hdrawdown', hturnover', hdec'⟩ := hdecides
      obtain rfl : clock = clock' := Except.ok.inj (hclock.symm.trans hclock')
      obtain rfl : drawdown = drawdown' := Except.ok.inj (hdrawdown.symm.trans hdrawdown')
      obtain rfl : turnover = turnover' := Except.ok.inj (hturnover.symm.trans hturnover')
      exact (Prod.mk.inj (Except.ok.inj (hdec.symm.trans hdec'))).1
    refine ⟨acted.blocks hne, by rw [acted.attempts, if_pos hne], ?_⟩
    rintro rfl
    simp only [if_true] at hmap
    refine ⟨added, appended.trans hadded, ?_, ?_⟩
    · have count : ((added.map Event.toDraft).filter fun d => d.payload.isPostKillAttempt).length =
          1 := by
        rw [hmap, List.filter_append, List.length_append, acted.attempt_events, if_pos hne,
          List.filter_eq_nil_iff.mpr fun d hd => by simp [(quiet d hd).2]]
        rfl
      rw [List.filter_map, List.length_map] at count
      exact count
    · obtain ⟨d, hd, hblock⟩ := acted.block_events hne
      have : d ∈ added.map Event.toDraft := hmap ▸ List.mem_append_right _ hd
      obtain ⟨e, he, rfl⟩ := List.mem_map.mp this
      exact ⟨e, he, hblock⟩

/-- What a run holds of an account killed at the start of turn `k`, at the start of turn `turn`. -/
structure Absorbed (k : ℕ) (killed : ProfileState σ) (turn : ℕ) (state : ProfileState σ) : Prop where
  account_eq : state.core.account = killed.core.account
  count : state.core.snapshots.all.length = turn + 1
  rest : ∀ i (s : Snapshot), k ≤ i → state.core.snapshots.all[i]? = some s →
    s.AtRest killed.core.account
  events : ∃ later, state.events = killed.events ++ later ∧ ∀ e ∈ later, ¬ e.payload.IsTrade

/-- Run lemma: a killed account is absorbed. -/
theorem TurnReach.absorbed {s : σ} (hstart : startState env s = .ok start) {k turn : ℕ}
    {killed : ProfileState σ}
    (hk : TurnReach sha limits env episodeId collectEvidence source start k killed)
    (hactive : killed.core.account.killSwitchActive = true)
    (h : TurnReach sha limits env episodeId collectEvidence source start turn state)
    (hle : k ≤ turn) : Absorbed k killed turn state := by
  obtain ⟨hkilled, hrest⟩ := hk.armed_flat hstart hactive
  have base : Absorbed k killed k killed := by
    have hcount : killed.core.snapshots.earlier.length = k := by
      simpa [SnapshotLog.all] using (TurnReach.logged hstart hk).count
    refine ⟨rfl, by simp [SnapshotLog.all, hcount], fun i s hi hs => ?_, [], by simp, by simp⟩
    obtain rfl : i = k := by
      have := (List.getElem?_eq_some_iff.mp hs).1
      simp only [SnapshotLog.all, List.length_append, hcount, List.length_singleton] at this
      omega
    obtain rfl : killed.core.snapshots.last = s := by simpa [SnapshotLog.all, hcount] using hs
    exact hrest
  induction h with
  | start =>
    obtain rfl : k = 0 := by omega
    exact hk.unique .start ▸ base
  | @step t st st' hreach hstop hbody ih =>
    rcases Nat.lt_or_ge t k with hlt | hge
    · obtain rfl : k = t + 1 := by omega
      exact hk.unique (.step hreach hstop hbody) ▸ base
    · have before := ih hge
      obtain ⟨haccount, hearlier, hlast, ⟨added, hadded, hquiet⟩, -⟩ :=
        turnBody_killed (before.account_eq ▸ hkilled) hbody
      obtain ⟨later, hlater, hlaterquiet⟩ := before.events
      refine ⟨haccount.trans before.account_eq, ?_, fun i s hi hs => ?_, later ++ added, ?_, ?_⟩
      · rw [SnapshotLog.all, List.length_append, hearlier, before.count]
        rfl
      · rw [SnapshotLog.all, hearlier] at hs
        rcases Nat.lt_or_ge i (t + 1) with hi' | hi'
        · rw [List.getElem?_append_left (by rw [before.count]; omega)] at hs
          exact before.rest i s hi hs
        · rw [List.getElem?_append_right (by rw [before.count]; omega), before.count] at hs
          obtain ⟨hlt, heq⟩ := List.getElem?_eq_some_iff.mp hs
          simp only [List.getElem_singleton] at heq
          rw [← heq]
          exact before.account_eq ▸ hlast
      · rw [hadded, hlater, List.append_assoc]
      · intro e he
        rcases List.mem_append.mp he with he | he
        · exact hlaterquiet e he
        · exact hquiet e he

/-- **The kill switch is absorbing.** Once the switch is armed at the close of turn `k`, the account
is flat and stays exactly as it is; every snapshot from that bar on stores it like the snapshot of
turn `k`; nothing is executed any more and the switch does not fire again; and every later action
with a non-zero target is blocked and reported exactly once. -/
theorem killSwitch_absorbs {s : σ} (hstart : startState env s = .ok start) {k turn : ℕ}
    {killed : ProfileState σ}
    (hk : TurnReach sha limits env episodeId collectEvidence source start (k + 1) killed)
    (hactive : killed.core.account.killSwitchActive = true)
    (h : TurnReach sha limits env episodeId collectEvidence source start turn state)
    (hle : k + 1 ≤ turn) :
    killed.core.account.positionQtyBase1e8 = 0 ∧ state.core.account = killed.core.account ∧
      (∀ i (r : Snapshot), k + 1 ≤ i → state.core.snapshots.all[i]? = some r →
        r.SameAs killed.core.snapshots.last) ∧
      (∃ later, state.events = killed.events ++ later ∧ ∀ e ∈ later, ¬ e.payload.IsTrade) ∧
      ∀ next decision, state.core.terminal = false →
        turnBody sha limits env episodeId collectEvidence source turn state = .ok next →
        Decides sha limits env episodeId collectEvidence source turn state decision →
        decision.targetFor env.aliasName ≠ 0 → BlockedOnce collectEvidence state next := by
  obtain ⟨hkilled, hrest⟩ := hk.armed_flat hstart hactive
  have absorbed := TurnReach.absorbed hstart hk hactive h hle
  refine ⟨hkilled.flat, absorbed.account_eq, fun i r hi hr => hrest.sameAs (absorbed.rest i r hi hr),
    absorbed.events, fun next decision _ hbody hdecides hne => ?_⟩
  obtain ⟨-, -, -, -, blocked⟩ := turnBody_killed (absorbed.account_eq ▸ hkilled) hbody
  exact blocked decision hdecides hne

end Loop

/-- A long of one times the equity through the crash, asked for again after the switch. -/
def crashTrace : DecisionSource Unit :=
  .replay [Scenario.acting 10_000 none, Scenario.missed, Scenario.acting 10_000 none]

/-- The crash arms a switch at thirty percent; the long asked for after it is blocked once. -/
theorem crash_killSwitch_absorbs :
    let env := Scenario.crash.env (Scenario.config 30_000_000) 10_000
    let body := turnBody Scenario.sha Scenario.limits env [] true crashTrace
    ∃ start killed next, startState env () = .ok start ∧
      Reach body ProfileState.stopped start 2 killed ∧ body 2 killed = .ok next ∧
      killed.core.account.positionQtyBase1e8 = 0 ∧ BlockedOnce true killed next := by
  intro env body
  have returned : Returns (do
      let start ← startState env ()
      let killed ← loopFrom body ProfileState.stopped 2 0 start
      let next ← body 2 killed
      require (killed.core.account.killSwitchActive = true ∧ killed.core.terminal = false)
        (.engineError "not killed")
      return (start, killed, next)) := by decide +kernel
  obtain ⟨_, returned⟩ := returned
  simp only [bind_ok_iff, require_eq_ok] at returned
  obtain ⟨start, hstart, killed, hkilled, next, hnext, _, ⟨hactive, halive⟩, -⟩ := returned
  obtain ⟨k, -, hreach, hend⟩ := loop_reach hkilled
  obtain rfl : k = 2 := hend.resolve_right (by simp [ProfileState.stopped, halive])
  obtain ⟨clock, drawdown, turnover, decision, asked, drafts, hclock, hdrawdown, hturnover, hdec, -⟩ :=
    turnBody_eq_ok hnext
  have hdecision : decision = Scenario.acting 10_000 none := by
    have hturn := (turnClock_eq_ok hclock).2.1
    simpa [hturn, eq_comm] using (decideTurn_replay_eq_ok hdec).1
  obtain ⟨hflat, -, -, -, blocked⟩ := killSwitch_absorbs hstart hreach hactive hreach le_rfl
  refine ⟨start, killed, next, hstart, hreach, hnext, hflat, blocked next decision halive hnext
    ⟨clock, drawdown, turnover, asked, hclock, hdrawdown, hturnover, hdec⟩ ?_⟩
  rw [hdecision]
  decide

end WagmiBench.Core
