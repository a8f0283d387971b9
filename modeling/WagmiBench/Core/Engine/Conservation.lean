import WagmiBench.Core.Engine.Booking
import WagmiBench.Core.Engine.Scenario

/-!
# Conservation over whole runs

The accounting identity of the ledger, carried through every turn of a profile run: NAV is cash plus
unrealized profit, and cash is the starting NAV plus the realized price minus fees, funding and
penalties. With it the ledger rows of a run can always be written.
-/

namespace WagmiBench.Core

open WagmiBench.Lib WagmiBench.Harness WagmiBench.Spec

/-! ## The identity -/

/-- The accounting identity of one snapshot. -/
structure Snapshot.Conserves (startingNav : ℤ) (s : Snapshot) : Prop where
  nav : s.navMicro = s.cashMicro + s.upnlMicro
  cash : s.cashMicro = startingNav + s.realizedPriceCumMicro - s.feesCumMicro -
    s.fundingCumMicro - s.liquidationPenaltyCumMicro

/-- Between two snapshots of one run the four deltas add up to the change of NAV. -/
theorem Snapshot.Conserves.delta_balanced {startingNav : ℤ} {p s : Snapshot}
    (hp : p.Conserves startingNav) (hs : s.Conserves startingNav) :
    (ledgerDelta (some p) s).nav = (ledgerDelta (some p) s).price +
      (ledgerDelta (some p) s).funding + (ledgerDelta (some p) s).fees +
      (ledgerDelta (some p) s).penalty := by
  simp only [ledgerDelta, hp.nav, hs.nav, hp.cash, hs.cash]
  ring

/-- The identity of an account, and of everything its snapshots recorded. -/
structure ProfileCore.Conserves (startingNav : ℤ) (core : ProfileCore) : Prop where
  account : core.account.cashMicro - core.account.realizedPnl = startingNav
  last : SnapshotOf core.account core.snapshots.last
  snapshots : ∀ s ∈ core.snapshots.all, s.Conserves startingNav

theorem SnapshotOf.conserves {account : Account} {s : Snapshot} {startingNav : ℤ}
    (h : SnapshotOf account s) (ha : account.cashMicro - account.realizedPnl = startingNav) :
    s.Conserves startingNav := by
  refine ⟨h.nav, ?_⟩
  rw [h.cash, h.realized, h.fees, h.funding, h.penalty]
  simp only [Account.realizedPnl] at ha
  omega

theorem SnapshotLog.mem_all {log : SnapshotLog} {s : Snapshot} :
    s ∈ log.all ↔ s ∈ log.earlier ∨ s = log.last := by
  simp [SnapshotLog.all]

section Runs

variable {σ : Type} {sha : Sha256} {limits : Json.Limits} {env : ProfileEnv} {episodeId : Text}
  {collectEvidence : Bool} {source : DecisionSource σ} {start state state' : ProfileState σ}

theorem startState_conserves {s : σ} (h : startState env s = .ok start) :
    start.core.Conserves env.config.startingNavMicro := by
  obtain ⟨ts, first, -, hfirst, rfl⟩ := startState_eq_ok h
  have taken := (snapshot_eq_ok hfirst).1
  have zero : (Account.start env.config.startingNavMicro).cashMicro -
      (Account.start env.config.startingNavMicro).realizedPnl = env.config.startingNavMicro := by
    simp [Account.start, Account.realizedPnl]
  refine ⟨zero, taken, fun s hs => ?_⟩
  obtain rfl : s = first := by simpa [SnapshotLog.all] using hs
  exact taken.conserves zero

/-- Step lemma: a turn keeps the identity, and appends one snapshot that has it. -/
theorem turnBody_conserves {startingNav : ℤ} {turn : ℕ}
    (h : turnBody sha limits env episodeId collectEvidence source turn state = .ok state')
    (hc : state.core.Conserves startingNav) : state'.core.Conserves startingNav := by
  obtain ⟨clock, drawdown, turnover, decision, asked, drafts, -, -, -, -, hsettle, -⟩ :=
    turnBody_eq_ok h
  have account := (settleTurn_booked hsettle).cash.trans hc.account
  obtain ⟨last, earlier⟩ := settleTurn_snapshot hsettle
  refine ⟨account, last, fun s hs => ?_⟩
  rcases SnapshotLog.mem_all.mp hs with hs | rfl
  · exact hc.snapshots s (earlier ▸ hs)
  · exact last.conserves account

/-- Run lemma: the identity holds in every state the turn loop reaches. -/
theorem TurnReach.conserves {s : σ} (hstart : startState env s = .ok start) {turn : ℕ}
    (h : TurnReach sha limits env episodeId collectEvidence source start turn state) :
    state.core.Conserves env.config.startingNavMicro :=
  Reach.invariant (I := fun _ st => st.core.Conserves env.config.startingNavMicro)
    (startState_conserves hstart) (fun _ _ _ _ hc _ hb => turnBody_conserves hb hc) h

end Runs

/-- The rows of conserving snapshots can be written, one for each snapshot. -/
theorem ledgerRowsFrom_returns {startingNav : ℤ} (profile aliasName : Text)
    {previous : Option Snapshot} {snapshots : List Snapshot}
    (hp : ∀ p ∈ previous, p.Conserves startingNav)
    (hs : ∀ s ∈ snapshots, s.Conserves startingNav) :
    Returns (ledgerRowsFrom profile aliasName previous snapshots) := by
  induction snapshots generalizing previous with
  | nil => exact ⟨[], rfl⟩
  | cons s rest ih =>
    have hrow : Returns (ledgerRow profile aliasName previous s) := by
      have balanced : (ledgerDelta previous s).nav = (ledgerDelta previous s).price +
          (ledgerDelta previous s).funding + (ledgerDelta previous s).fees +
          (ledgerDelta previous s).penalty := by
        cases previous with
        | none => rfl
        | some p => exact (hp p rfl).delta_balanced (hs s (by simp))
      exact ⟨_, by rw [ledgerRow, require_pos balanced]; rfl⟩
    obtain ⟨row, hrow⟩ := hrow
    obtain ⟨rows, hrows⟩ := @ih (some s) (fun p hp => by
      obtain rfl := Option.some.inj hp
      exact hs _ (by simp)) fun s' hs' => hs s' (by simp [hs'])
    exact ⟨row :: rows, by simp [ledgerRowsFrom, hrow, hrows, pure_eq_ok]⟩

/-- **Conservation.** Every snapshot of a finished profile run satisfies the accounting identity,
every consecutive pair of them balances, and the ledger rows of the run can be written. -/
theorem runProfile_conserves {σ : Type} {sha : Sha256} {limits : Json.Limits} {pack : PackData}
    {config : EpisodeConfig} {profile episodeId : Text} {source : DecisionSource σ} {s : σ}
    {collectEvidence : Bool} {run : ProfileRun σ}
    (h : runProfile sha limits pack config profile episodeId source s collectEvidence = .ok run) :
    (∀ r ∈ run.core.snapshots.all, r.navMicro = r.cashMicro + r.upnlMicro ∧
      r.cashMicro = config.startingNavMicro + r.realizedPriceCumMicro - r.feesCumMicro -
        r.fundingCumMicro - r.liquidationPenaltyCumMicro) ∧
    (∀ p r, [p, r] <:+: run.core.snapshots.all →
      (ledgerDelta (some p) r).nav = (ledgerDelta (some p) r).price +
        (ledgerDelta (some p) r).funding + (ledgerDelta (some p) r).fees +
        (ledgerDelta (some p) r).penalty) ∧
    ∀ rowProfile aliasName, Returns (ledgerRows run.core.snapshots rowProfile aliasName) := by
  obtain ⟨env, henv, hloop⟩ := runProfile_eq_ok h
  obtain ⟨start, turns, k, hstart, -, -, hreach, -, -⟩ := runLoop_eq_ok hloop
  obtain ⟨-, hconfig, -⟩ := profileEnv_eq_ok henv
  have conserves := hreach.conserves hstart
  rw [hconfig] at conserves
  refine ⟨fun r hr => ⟨(conserves.snapshots r hr).nav, (conserves.snapshots r hr).cash⟩,
    fun p r hpr => ?_, fun rowProfile aliasName => ?_⟩
  · have hmem : ∀ q ∈ [p, r], q ∈ run.core.snapshots.all := fun q hq => hpr.subset hq
    exact (conserves.snapshots p (hmem p (by simp))).delta_balanced
      (conserves.snapshots r (hmem r (by simp)))
  · exact ledgerRowsFrom_returns rowProfile aliasName (by simp) conserves.snapshots

/-- A run through a crash: a long is opened, held and liquidated. -/
theorem crash_conserves : ∃ run : ProfileRun Unit,
    runProfile Scenario.sha Scenario.limits Scenario.crash.pack (Scenario.config 90_000_000) PRIMARY
        [] (.replay [Scenario.acting 30_000 none, Scenario.missed]) () false = .ok run ∧
      (∀ r ∈ run.core.snapshots.all, r.navMicro = r.cashMicro + r.upnlMicro ∧
        r.cashMicro = 10_000_000_000 + r.realizedPriceCumMicro - r.feesCumMicro -
          r.fundingCumMicro - r.liquidationPenaltyCumMicro) ∧
      Returns (ledgerRows run.core.snapshots PRIMARY Scenario.ALIAS) := by
  have returned : Returns (runProfile (σ := Unit) Scenario.sha Scenario.limits Scenario.crash.pack
      (Scenario.config 90_000_000) PRIMARY []
      (.replay [Scenario.acting 30_000 none, Scenario.missed]) () false) := by decide +kernel
  obtain ⟨run, hrun⟩ := returned
  obtain ⟨identity, -, written⟩ := runProfile_conserves hrun
  exact ⟨run, hrun, identity, written PRIMARY Scenario.ALIAS⟩

end WagmiBench.Core
