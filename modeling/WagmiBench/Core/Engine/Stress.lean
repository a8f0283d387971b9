import WagmiBench.Core.Engine.Evidence
import WagmiBench.Core.Engine.Log
import WagmiBench.Data.Accepted
import WagmiBench.Data.ScenarioDirectory

/-!
# The stress re-simulation

The stress profile is simulated over the decisions the primary took. It finds one for every turn it
takes, and ends where the primary ends, as long as no turn before the last liquidates one profile
and not the other. A turn that does ends one of the two runs early: then either the trace runs out,
or the two ledgers have different numbers of rows.
-/

namespace WagmiBench.Core

open WagmiBench.Lib WagmiBench.Harness WagmiBench.Spec WagmiBench.Data

/-! ## Two profiles over one trace -/

/-- The holding bar of a turn crosses the trigger price of the position held into it. -/
def Crosses (env : ProfileEnv) (clock : TurnClock) (collectEvidence : Bool) (core : ProfileCore)
    (decision : TurnDecision) (drawdownUsed : ℤ) : Prop :=
  ∃ account counters drafts mark liqPx,
    openPhase env clock collectEvidence core.account core.counters decision drawdownUsed =
      .ok (account, counters, drafts) ∧
    account.positionQtyBase1e8 ≠ 0 ∧ env.market.mark[clock.fillAbs]? = some mark ∧
    triggerPrice env account mark = .ok liqPx ∧
    liquidationCrossed account.positionQtyBase1e8 liqPx mark.h mark.l = .ok true

/-- A turn ends the run exactly when its holding bar crosses the trigger price. -/
theorem settleTurn_terminal {env : ProfileEnv} {clock : TurnClock} {collectEvidence : Bool}
    {core core' : ProfileCore} {decision : TurnDecision} {drawdownUsed : ℤ} {nextSeq : ℕ}
    {drafts : List Draft}
    (h : settleTurn env clock collectEvidence core decision drawdownUsed nextSeq =
      .ok (core', drafts)) :
    core'.terminal = true ↔ Crosses env clock collectEvidence core decision drawdownUsed := by
  obtain ⟨account, counters, opening, closing, hopen, hclose, -⟩ := settleTurn_eq_ok h
  obtain ⟨margin, closed, liquidated, liquidation, s, killed, kill, last, -, hliq, -, -, -, -,
    hterminal, -, -⟩ := closePhase_eq_ok hclose
  rw [hterminal]
  constructor
  · rintro rfl
    obtain ⟨-, -, h, -⟩ | ⟨hq, mark, liqPx, hmark, hpx, ⟨hcrossed, -⟩ | ⟨-, h, -⟩⟩ :=
      liquidationPhase_eq_ok hliq
    · cases h
    · exact ⟨account, counters, opening, mark, liqPx, hopen, hq, hmark, hpx, hcrossed⟩
    · cases h
  · rintro ⟨account', counters', opening', mark', liqPx', hopen', hq', hmark', hpx', hcrossed'⟩
    obtain ⟨rfl, rfl, rfl⟩ : account = account' ∧ counters = counters' ∧ opening = opening' := by
      simpa using hopen.symm.trans hopen'
    obtain ⟨hq, -⟩ | ⟨-, mark, liqPx, hmark, hpx, ⟨-, h, -⟩ | ⟨hcrossed, -⟩⟩ :=
      liquidationPhase_eq_ok hliq
    · exact absurd hq hq'
    · exact h
    · obtain rfl : mark = mark' := Option.some.inj (hmark.symm.trans hmark')
      obtain rfl : liqPx = liqPx' := Except.ok.inj (hpx.symm.trans hpx')
      simpa using hcrossed.symm.trans hcrossed'

section Profile

variable {σ : Type} (sha : Sha256) (limits : Json.Limits) (env : ProfileEnv) (episodeId : Text)
  (collectEvidence : Bool) (source : DecisionSource σ) (s : σ)

/-- A profile takes a turn: it enters it in `state` with its account alive, and the turn returns. -/
def Takes (turn : ℕ) (state : ProfileState σ) : Prop :=
  ∃ start next, startState env s = .ok start ∧
    TurnReach sha limits env episodeId collectEvidence source start turn state ∧
    state.core.terminal = false ∧
    turnBody sha limits env episodeId collectEvidence source turn state = .ok next

/-- The turn entered in `state` crosses the trigger price under `decision`. -/
def CrossesAt (turn : ℕ) (core : ProfileCore) (decision : TurnDecision) : Prop :=
  ∃ clock drawdownUsed, turnClock env turn = .ok clock ∧
    drawdown1e8 core.snapshots = .ok drawdownUsed ∧
    Crosses env clock collectEvidence core decision drawdownUsed

end Profile

section Runs

variable {σ : Type} (sha : Sha256) (limits : Json.Limits) (pack : PackData) (agent : Agent σ)
  (config : EpisodeConfig) (episodeId : Text) (s : σ) (decisions : List TurnDecision)

/-- The stress simulation enters a turn its trace has no decision for, and gets to the point where
it asks for it. -/
def TraceRunsOut : Prop :=
  ∃ env start turns turn state clock drawdownUsed turnoverUsed,
    profileEnv pack config STRESS_2X = .ok env ∧ startState env () = .ok start ∧
    pack.barsTotal = .ok turns ∧ turn < turns ∧
    TurnReach sha limits env episodeId false (.replay decisions) start turn state ∧
    state.core.terminal = false ∧ turnClock env turn = .ok clock ∧
    drawdown1e8 state.core.snapshots = .ok drawdownUsed ∧
    turnover1e8 state.core.account.turnoverNotionalMicro config.startingNavMicro =
      .ok turnoverUsed ∧
    decisions[turn]? = none

/-- In every turn but the last that both profiles take, the holding bar crosses the trigger price of
both accounts or of neither. -/
def LiquidatedTogether : Prop :=
  ∀ primaryEnv stressEnv turns turn p q decision,
    profileEnv pack config PRIMARY = .ok primaryEnv →
    profileEnv pack config STRESS_2X = .ok stressEnv → pack.barsTotal = .ok turns →
    turn + 1 < turns → Takes sha limits primaryEnv episodeId true (.agent agent) s turn p →
    Takes sha limits stressEnv episodeId false (.replay decisions) () turn q →
    decisions[turn]? = some decision →
    (CrossesAt primaryEnv true turn p.core decision ↔
      CrossesAt stressEnv false turn q.core decision)

end Runs

section Loop

variable {σ : Type} {sha : Sha256} {limits : Json.Limits} {env : ProfileEnv} {episodeId : Text}
  {collectEvidence : Bool} {source : DecisionSource σ} {start state next : ProfileState σ}

/-- A turn taken under `decision` leaves a terminal state exactly when it crosses. -/
theorem turnBody_terminal {turn : ℕ} {decision : TurnDecision}
    (hbody : turnBody sha limits env episodeId collectEvidence source turn state = .ok next)
    (hdecision : ∀ clock drawdownUsed turnoverUsed d asked, turnClock env turn = .ok clock →
      decideTurn sha limits env episodeId collectEvidence source clock drawdownUsed turnoverUsed
        state = .ok (d, asked) → next.decisions = asked.decisions → d = decision) :
    next.core.terminal = true ↔ CrossesAt env collectEvidence turn state.core decision := by
  obtain ⟨clock, drawdown, turnover, d, asked, drafts, hclock, hdrawdown, -, hdec, hsettle, hnext⟩ :=
    turnBody_eq_ok hbody
  obtain rfl := hdecision clock drawdown turnover d asked hclock hdec (by rw [hnext])
  rw [settleTurn_terminal hsettle]
  constructor
  · exact fun h => ⟨clock, drawdown, hclock, hdrawdown, h⟩
  · rintro ⟨clock', drawdown', hclock', hdrawdown', h⟩
    obtain rfl : clock = clock' := Except.ok.inj (hclock.symm.trans hclock')
    obtain rfl : drawdown = drawdown' := Except.ok.inj (hdrawdown.symm.trans hdrawdown')
    exact h

theorem turnBody_terminal_replay {decisions : List TurnDecision} {turn : ℕ}
    {decision : TurnDecision}
    (hbody : turnBody sha limits env episodeId collectEvidence (.replay decisions) turn state =
      .ok next) (hd : decisions[turn]? = some decision) :
    next.core.terminal = true ↔ CrossesAt env collectEvidence turn state.core decision :=
  turnBody_terminal hbody fun clock _ _ d asked hclock hdec _ => by
    obtain ⟨-, hturn, -, -⟩ := turnClock_eq_ok hclock
    have := (decideTurn_replay_eq_ok hdec).1
    rw [hturn, hd] at this
    exact (Option.some.inj this).symm

theorem turnBody_terminal_agent {agent : Agent σ} {turn : ℕ} {decision : TurnDecision}
    (hbody : turnBody sha limits env episodeId collectEvidence (.agent agent) turn state =
      .ok next) (hd : next.decisions = state.decisions ++ [decision]) :
    next.core.terminal = true ↔ CrossesAt env collectEvidence turn state.core decision :=
  turnBody_terminal hbody fun clock _ _ d asked _ hdec hnext => by
    rw [decideTurn_agent_decisions hdec, hd] at hnext
    simpa using hnext.symm

/-- A reached state behind the first was entered by a turn that returned, from a running state. -/
theorem TurnReach.pred {turn : ℕ}
    (h : TurnReach sha limits env episodeId collectEvidence source start (turn + 1) next) :
    ∃ state, TurnReach sha limits env episodeId collectEvidence source start turn state ∧
      state.core.terminal = false ∧
      turnBody sha limits env episodeId collectEvidence source turn state = .ok next := by
  cases h with
  | step hreach hstop hbody => exact ⟨_, hreach, hstop, hbody⟩

/-- A run that stopped early has taken a turn. -/
theorem TurnReach.pos_of_terminal {s : σ} (hstart : startState env s = .ok start) {turn : ℕ}
    (h : TurnReach sha limits env episodeId collectEvidence source start turn state)
    (hterminal : state.core.terminal = true) : ∃ k, turn = k + 1 := by
  cases h with
  | start =>
    obtain ⟨_, _, -, -, rfl⟩ := startState_eq_ok hstart
    simp at hterminal
  | step _ _ _ => exact ⟨_, rfl⟩

end Loop

/-! ## The two ledgers -/

theorem ledgerRows_length {profile aliasName : Text} {snapshots : SnapshotLog}
    {rows : List LedgerRow} (h : ledgerRows snapshots profile aliasName = .ok rows) :
    rows.length = snapshots.all.length := by
  rw [ledgerRows_eq_ok h]
  simp

/-- Both ledgers can be written, with the same number of rows. -/
def SameRowCount (pack : PackData) (primary stress : SnapshotLog) : Prop :=
  ∃ rows rows', ledgerRows primary PRIMARY (pack.marketAliases.headD []) = .ok rows ∧
    ledgerRows stress STRESS_2X (pack.marketAliases.headD []) = .ok rows' ∧
    rows.length = rows'.length

section Together

variable {σ : Type} {sha : Sha256} {limits : Json.Limits} {pack : PackData} {agent : Agent σ}
  {config : EpisodeConfig} {episodeId : Text} {s : σ} {primaryEnv stressEnv : ProfileEnv}
  {pstart primary : ProfileState σ} {sstart stress : ProfileState Unit}
  {decisions : List TurnDecision} {turns k j : ℕ}

/-- Where both profiles entered turn `t + 1`, they stopped together there. -/
theorem LiquidatedTogether.stopped_iff
    (h : LiquidatedTogether sha limits pack agent config episodeId s decisions)
    (hpenv : profileEnv pack config PRIMARY = .ok primaryEnv)
    (hsenv : profileEnv pack config STRESS_2X = .ok stressEnv)
    (hpstart : startState primaryEnv s = .ok pstart)
    (hsstart : startState stressEnv () = .ok sstart) (hturns : pack.barsTotal = .ok turns)
    {t : ℕ} (ht : t + 1 < turns) {p : ProfileState σ} {q : ProfileState Unit}
    (hp : TurnReach sha limits primaryEnv episodeId true (.agent agent) pstart (t + 1) p)
    (hq : TurnReach sha limits stressEnv episodeId false (.replay decisions) sstart (t + 1) q)
    (hdecisions : p.decisions <+: decisions) :
    p.core.terminal = true ↔ q.core.terminal = true := by
  obtain ⟨p₀, hp₀, hprun, hpbody⟩ := hp.pred
  obtain ⟨q₀, hq₀, hqrun, hqbody⟩ := hq.pred
  obtain ⟨_, _, _, decision, _, _, -, -, -, -, -, hnew⟩ := turnBody_agent_eq_ok hpbody
  have hlength := hp₀.decisions_length (startState_decisions hpstart)
  have hd : decisions[t]? = some decision := by
    obtain ⟨rest, rfl⟩ := hdecisions
    rw [hnew, List.append_assoc, List.getElem?_append_right hlength.le, hlength, Nat.sub_self]
    rfl
  rw [turnBody_terminal_agent hpbody hnew, turnBody_terminal_replay hqbody hd]
  exact h primaryEnv stressEnv turns t p₀ q₀ decision hpenv hsenv hturns ht
    ⟨pstart, p, hpstart, hp₀, hprun, hpbody⟩ ⟨sstart, q, hsstart, hq₀, hqrun, hqbody⟩ hd

/-- Profiles liquidated together find a decision for every turn. -/
theorem LiquidatedTogether.trace_suffices
    (h : LiquidatedTogether sha limits pack agent config episodeId s primary.decisions)
    (hpenv : profileEnv pack config PRIMARY = .ok primaryEnv)
    (hpstart : startState primaryEnv s = .ok pstart) (hturns : pack.barsTotal = .ok turns)
    (hreach : TurnReach sha limits primaryEnv episodeId true (.agent agent) pstart k primary)
    (hk : k ≤ turns) (hend : k = turns ∨ primary.core.terminal = true) :
    ¬ TraceRunsOut sha limits pack config episodeId primary.decisions := by
  rintro ⟨senv, sstart, turns', t, q, clock, drawdown, turnover, hsenv, hsstart, hturns', ht, hq,
    hqrun, -, -, -, hmissing⟩
  obtain rfl : turns = turns' := Except.ok.inj (hturns.symm.trans hturns')
  -- the trace is as long as the primary run, so that run stopped at or before `t`
  have hkt : k ≤ t := by
    rw [← hreach.decisions_length (startState_decisions hpstart)]
    exact List.getElem?_eq_none_iff.mp hmissing
  have hstopped := hend.resolve_left (by omega)
  obtain ⟨k, rfl⟩ := hreach.pos_of_terminal hpstart hstopped
  obtain ⟨q', hq'⟩ := hq.earlier hkt
  have hq'stopped := (h.stopped_iff hpenv hsenv hpstart hsstart hturns (by omega) hreach hq'
    List.prefix_rfl).mp hstopped
  rcases Nat.lt_or_ge (k + 1) t with hlt | hge
  · have := (hq.not_stop_of_lt hlt hq').1
    simp [ProfileState.stopped, hq'stopped] at this
  · obtain rfl : t = k + 1 := by omega
    obtain rfl := hq'.unique hq
    simp [hqrun] at hq'stopped

/-- Profiles liquidated together end at the same turn. -/
theorem LiquidatedTogether.same_end
    (h : LiquidatedTogether sha limits pack agent config episodeId s primary.decisions)
    (hpenv : profileEnv pack config PRIMARY = .ok primaryEnv)
    (hsenv : profileEnv pack config STRESS_2X = .ok stressEnv)
    (hpstart : startState primaryEnv s = .ok pstart)
    (hsstart : startState stressEnv () = .ok sstart) (hturns : pack.barsTotal = .ok turns)
    (hp : TurnReach sha limits primaryEnv episodeId true (.agent agent) pstart k primary)
    (hk : k ≤ turns) (hpend : k = turns ∨ primary.core.terminal = true)
    (hs : TurnReach sha limits stressEnv episodeId false (.replay primary.decisions) sstart j stress)
    (hj : j ≤ turns) (hsend : j = turns ∨ stress.core.terminal = true) : j = k := by
  rcases Nat.lt_trichotomy j k with hlt | heq | hgt
  · -- the stress run stopped first, so the primary stopped there too
    have hstopped := hsend.resolve_left (by omega)
    obtain ⟨j, rfl⟩ := hs.pos_of_terminal hsstart hstopped
    obtain ⟨p, hp'⟩ := hp.earlier hlt.le
    have hpstopped := (h.stopped_iff hpenv hsenv hpstart hsstart hturns (by omega) hp' hs
      (hp.decisions_prefix hlt.le hp')).mpr hstopped
    have := (hp.not_stop_of_lt hlt hp').1
    simp [ProfileState.stopped, hpstopped] at this
  · exact heq
  · have hstopped := hpend.resolve_left (by omega)
    obtain ⟨k, rfl⟩ := hp.pos_of_terminal hpstart hstopped
    obtain ⟨q, hq⟩ := hs.earlier hgt.le
    have hqstopped := (h.stopped_iff hpenv hsenv hpstart hsstart hturns (by omega) hp hq
      List.prefix_rfl).mp hstopped
    have := (hs.not_stop_of_lt hgt hq).1
    simp [ProfileState.stopped, hqstopped] at this

/-- A turn that liquidates the primary only makes the trace run out. -/
theorem traceRunsOut_of_primary_stopped (hgrid : ∀ m ∈ pack.markets, OnGrid pack m.2)
    (hsenv : profileEnv pack config STRESS_2X = .ok stressEnv)
    (hpstart : startState primaryEnv s = .ok pstart)
    (hsstart : startState stressEnv () = .ok sstart) (hturns : pack.barsTotal = .ok turns)
    (hp : TurnReach sha limits primaryEnv episodeId true (.agent agent) pstart (k + 1) primary)
    (hs : TurnReach sha limits stressEnv episodeId false (.replay primary.decisions) sstart (k + 1)
      stress)
    (hk : k + 1 < turns) (hrunning : stress.core.terminal = false) :
    TraceRunsOut sha limits pack config episodeId primary.decisions := by
  obtain ⟨hpack, hconfig, -⟩ := profileEnv_eq_ok hsenv
  obtain ⟨ts, hts⟩ := clockRealTs_returns hgrid hturns hk
  have hclock : turnClock stressEnv (k + 1) =
      .ok ⟨k + 1, stressEnv.pack.warmupBars + (k + 1), ts, ts + stressEnv.pack.decisionBarMs⟩ := by
    simp [turnClock, hpack, hts, pure_eq_ok]
  have logged := hs.logged hsstart
  rw [hconfig] at logged
  obtain ⟨⟨drawdown, hdrawdown⟩, turnover, hturnover⟩ := logged.measures
  refine ⟨stressEnv, sstart, turns, k + 1, stress, _, drawdown, turnover, hsenv, hsstart, hturns, hk,
    hs, hrunning, hclock, hdrawdown, hturnover, ?_⟩
  rw [List.getElem?_eq_none_iff, hp.decisions_length (startState_decisions hpstart)]

/-- A stopped stress run is what the stress simulation returns. -/
theorem runStress_of_stopped (hsenv : profileEnv pack config STRESS_2X = .ok stressEnv)
    (hsstart : startState stressEnv () = .ok sstart) (hturns : pack.barsTotal = .ok turns)
    (hs : TurnReach sha limits stressEnv episodeId false (.replay decisions) sstart j stress)
    (hj : j ≤ turns) (hstopped : stress.core.terminal = true) :
    ∃ run : ProfileRun Unit, runStress sha limits pack config episodeId decisions = .ok run ∧
      run.core = stress.core := by
  obtain ⟨hpack, -⟩ := profileEnv_eq_ok hsenv
  have hloop := loopFrom_of_reach hs hj (.inr hstopped)
  refine ⟨{ stress with totals := finalTotals stress.core }, ?_, rfl⟩
  simp [runStress, runProfile, hsenv, runLoop, hsstart, hpack, hturns, hloop, pure_eq_ok]

end Together

/-- What the stress simulation raises when its trace runs out. -/
theorem runStress_of_traceRunsOut {sha : Sha256} {limits : Json.Limits} {pack : PackData}
    {config : EpisodeConfig} {episodeId : Text} {decisions : List TurnDecision}
    (h : TraceRunsOut sha limits pack config episodeId decisions) :
    runStress sha limits pack config episodeId decisions =
      .error (.engineError "recorded decision trace ended before the episode") := by
  obtain ⟨env, start, turns, turn, state, clock, drawdown, turnover, henv, hstart, hturns, hturn,
    hreach, hrunning, hclock, hdrawdown, hturnover, hmissing⟩ := h
  obtain ⟨hpack, hconfig, -⟩ := profileEnv_eq_ok henv
  have hcturn := (turnClock_eq_ok hclock).2.1
  have hbody : turnBody sha limits env episodeId false (.replay decisions) turn state =
      .error (.engineError "recorded decision trace ended before the episode") := by
    simp [turnBody, hclock, hdrawdown, hconfig, hturnover, decideTurn, hcturn, hmissing]
  have hloop := loopFrom_error_of_reach hreach hturn hrunning hbody
  simp [runStress, runProfile, henv, runLoop, hstart, hpack, hturns, hloop]

/-- **The stress profile follows the primary.** For an accepted pack and a finished primary run, the
stress simulation never runs out of decisions and always has as many ledger rows, if and only if
every turn but the last liquidates both profiles or neither. -/
theorem stress_follows_primary {σ : Type} {ext : Externals} {sha : Sha256} {limits : Json.Limits}
    {verifyIntegrity : Bool} {directory : Directory} {pack : PackData} {agent : Agent σ}
    {config : EpisodeConfig} {episodeId : Text} {s : σ} {primary : ProfileRun σ}
    (hload : loadPack sha limits verifyIntegrity directory = .ok pack)
    (hvalid : Returns (validatePack ext sha limits directory))
    (hprimary : runPrimary sha limits pack agent config episodeId s = .ok primary) :
    (¬ TraceRunsOut sha limits pack config episodeId primary.decisions ∧
      ∀ stress, runStress sha limits pack config episodeId primary.decisions = .ok stress →
        SameRowCount pack primary.core.snapshots stress.core.snapshots) ↔
      LiquidatedTogether sha limits pack agent config episodeId s primary.decisions := by
  obtain ⟨penv, hpenv, hploop⟩ := runProfile_eq_ok hprimary
  obtain ⟨hpack, -⟩ := profileEnv_eq_ok hpenv
  obtain ⟨pstart, turns, k, hpstart, hturns, hk, hp, hpend, -⟩ := runLoop_eq_ok hploop
  rw [hpack] at hturns
  have hpcount := (hp.logged hpstart).count
  constructor
  · rintro ⟨htrace, hrows⟩ penv' senv turns' t p q decision hpenv' hsenv hturns' ht
      ⟨pstart', p', hpstart', hpt, hprun, hpbody⟩ ⟨sstart, q', hsstart, hqt, hqrun, hqbody⟩ hd
    obtain rfl : penv = penv' := Except.ok.inj (hpenv.symm.trans hpenv')
    obtain rfl : turns = turns' := Except.ok.inj (hturns.symm.trans hturns')
    obtain rfl : pstart = pstart' := Except.ok.inj (hpstart.symm.trans hpstart')
    obtain ⟨htk, -⟩ := hp.left_of_running hpend hk hpt (by omega) hprun
    obtain ⟨_, _, _, d, _, _, -, -, -, -, -, hnew⟩ := turnBody_agent_eq_ok hpbody
    obtain rfl : d = decision := by
      have := hp.decision_at (startState_decisions hpstart) htk hpt hprun hpbody hnew
      simpa [this] using hd
    have hp' := Reach.step hpt hprun hpbody
    have hq' := Reach.step hqt hqrun hqbody
    rw [← turnBody_terminal_agent hpbody hnew, ← turnBody_terminal_replay hqbody hd]
    constructor
    · -- the primary stopped here: had the stress run gone on, its trace would run out
      intro hstopped
      by_contra hrunning
      obtain rfl : k = t + 1 := by
        rcases Nat.lt_or_ge (t + 1) k with hlt | hge
        · have := (hp.not_stop_of_lt hlt hp').1
          simp [ProfileState.stopped, hstopped] at this
        · omega
      obtain rfl := hp'.unique hp
      exact htrace (traceRunsOut_of_primary_stopped (loadPack_onGrid hload hvalid) hsenv
        hpstart hsstart hturns hp hq' ht (by simpa using hrunning))
    · -- the stress run stopped here: had the primary gone on, it would have more rows
      intro hstopped
      by_contra hrunning
      obtain ⟨run, hrun, hcore⟩ := runStress_of_stopped hsenv hsstart hturns hq' ht.le hstopped
      obtain ⟨rows, rows', hr, hr', hsame⟩ := hrows run hrun
      obtain ⟨hlt, -⟩ := hp.left_of_running hpend hk hp' ht
        (by simpa [ProfileState.stopped] using hrunning)
      have hscount := (TurnReach.logged hsstart hq').count
      rw [ledgerRows_length hr, ledgerRows_length hr', hcore, hpcount, hscount] at hsame
      omega
  · intro htogether
    refine ⟨htogether.trace_suffices hpenv hpstart hturns hp hk hpend, fun stress hstress => ?_⟩
    obtain ⟨senv, hsenv, hsloop⟩ := runProfile_eq_ok hstress
    obtain ⟨hspack, -⟩ := profileEnv_eq_ok hsenv
    obtain ⟨sstart, turns', j, hsstart, hturns', hj, hs, hsend, -⟩ := runLoop_eq_ok hsloop
    rw [hspack] at hturns'
    obtain rfl : turns = turns' := Except.ok.inj (hturns.symm.trans hturns')
    obtain rfl := htogether.same_end hpenv hsenv hpstart hsstart hturns hp hk hpend hs hj hsend
    obtain ⟨rows, hr⟩ := ledgerRowsFrom_returns PRIMARY (pack.marketAliases.headD [])
      (by simp : ∀ p ∈ (none : Option Snapshot), _) (hp.conserves hpstart).snapshots
    obtain ⟨rows', hr'⟩ := ledgerRowsFrom_returns STRESS_2X (pack.marketAliases.headD [])
      (by simp : ∀ p ∈ (none : Option Snapshot), _) (hs.conserves hsstart).snapshots
    refine ⟨rows, rows', hr, hr', ?_⟩
    rw [ledgerRows_length hr, ledgerRows_length hr', hpcount, (hs.logged hsstart).count]

open Scenario in
theorem surge_stress_follows_primary :
    ∃ primary, runPrimary sha limits surge.loaded (scripted []) (config 50_000_000) EPISODE_ID 0 =
        .ok primary ∧
      ((¬ TraceRunsOut sha limits surge.loaded (config 50_000_000) EPISODE_ID primary.decisions ∧
        ∀ stress, runStress sha limits surge.loaded (config 50_000_000) EPISODE_ID
            primary.decisions = .ok stress →
          SameRowCount surge.loaded primary.core.snapshots stress.core.snapshots) ↔
        LiquidatedTogether sha limits surge.loaded (scripted []) (config 50_000_000) EPISODE_ID 0
          primary.decisions) := by
  have returned : Returns (runPrimary sha limits surge.loaded (scripted []) (config 50_000_000)
    EPISODE_ID 0) := by decide +kernel
  obtain ⟨primary, hprimary⟩ := returned
  exact ⟨primary, hprimary,
    stress_follows_primary surge_accepted.loads surge_accepted.valid hprimary⟩

/-- What a market needs besides an accepted pack: positive prices, a participation of at most the
whole bar and maintenance rates below one. -/
def MarketData.Sound (market : MarketData) : Prop :=
  (∀ bar ∈ market.trade ++ market.mark ++ market.index, 0 < bar.l) ∧
    market.spec.participationCap1e8 ≤ 100_000_000 ∧
    ∀ tier ∈ market.spec.marginTiers, tier.maintenanceRate1e8 < 100_000_000

instance (market : MarketData) : Decidable market.Sound :=
  inferInstanceAs (Decidable (_ ∧ _ ∧ _))

open Scenario in
/-- A short whose slippage limit lets the primary open it and the stress profile not: the surge
liquidates the primary alone, and the stress simulation runs out of decisions. -/
theorem surge_trace_runs_out :
    loadPack sha limits true surge.directory = .ok surge.loaded ∧
      Returns (validatePack scenarioExternals sha limits surge.directory) ∧
      surge.loaded.markets = [(ALIAS, surge.market)] ∧ surge.market.Sound ∧
      ∃ primary, runPrimary sha limits surge.loaded (scripted [actionBody ("-3", some 7)])
          (config 90_000_000) EPISODE_ID 0 = .ok primary ∧
        Raises (runStress sha limits surge.loaded (config 90_000_000) EPISODE_ID primary.decisions)
          (.engineError "recorded decision trace ended before the episode") := by
  refine ⟨surge_accepted.loads, surge_accepted.valid, rfl, by decide +kernel, ?_⟩
  have returned : Returns (do
      let primary ← runPrimary sha limits surge.loaded (scripted [actionBody ("-3", some 7)])
        (config 90_000_000) EPISODE_ID 0
      require (Raises (runStress sha limits surge.loaded (config 90_000_000) EPISODE_ID
        primary.decisions) (.engineError "recorded decision trace ended before the episode"))
        .indexError) := by
    decide +kernel
  obtain ⟨_, returned⟩ := returned
  obtain ⟨primary, hprimary, hstress⟩ := bind_ok_iff.mp returned
  exact ⟨primary, hprimary, require_eq_ok.mp hstress⟩

end WagmiBench.Core
