import WagmiBench.Core.Engine.Inversion

/-!
# Decision traces

A run driven by an agent appends one decision to its trace in every turn. A replay of the finished
trace therefore finds, at each turn the first run took, the decision that was taken there.
-/

namespace WagmiBench.Core

open WagmiBench.Lib WagmiBench.Harness WagmiBench.Spec

section Loop

variable {σ : Type} {sha : Sha256} {limits : Json.Limits} {env : ProfileEnv} {episodeId : Text}
  {collectEvidence : Bool} {agent : Agent σ} {start state state' : ProfileState σ}

theorem decideTurn_agent_decisions {clock : TurnClock} {drawdownUsed turnoverUsed : ℤ}
    {decision : TurnDecision}
    (h : decideTurn sha limits env episodeId collectEvidence (.agent agent) clock drawdownUsed
      turnoverUsed state = .ok (decision, state')) :
    state'.decisions = state.decisions ++ [decision] := by
  obtain ⟨observation, s, -, -, ⟨-, hrec⟩ | ⟨-, rfl⟩⟩ := decideTurn_agent_eq_ok h
  · obtain ⟨_, _, _, -, -, -, rfl⟩ := recordDecision_eq_ok hrec
    rfl
  · rfl

/-- A turn of an agent: everything it computed, and the decision it appended. -/
theorem turnBody_agent_eq_ok {turn : ℕ}
    (h : turnBody sha limits env episodeId collectEvidence (.agent agent) turn state =
      .ok state') :
    ∃ clock drawdownUsed turnoverUsed decision asked drafts,
      turnClock env turn = .ok clock ∧ drawdown1e8 state.core.snapshots = .ok drawdownUsed ∧
      turnover1e8 state.core.account.turnoverNotionalMicro env.config.startingNavMicro =
        .ok turnoverUsed ∧
      decideTurn sha limits env episodeId collectEvidence (.agent agent) clock drawdownUsed
        turnoverUsed state = .ok (decision, asked) ∧
      settleTurn env clock collectEvidence state.core decision drawdownUsed asked.events.length =
        .ok (state'.core, drafts) ∧
      state'.decisions = state.decisions ++ [decision] := by
  obtain ⟨clock, drawdown, turnover, decision, asked, drafts, hclock, hd, ht, hdec, hsettle, hstate⟩ :=
    turnBody_eq_ok h
  refine ⟨clock, drawdown, turnover, decision, asked, drafts, hclock, hd, ht, hdec, hsettle, ?_⟩
  rw [hstate, ← decideTurn_agent_decisions hdec]

/-- One decision for each turn taken. -/
theorem TurnReach.decisions_length (hstart : start.decisions = []) {turn : ℕ}
    (h : TurnReach sha limits env episodeId collectEvidence (.agent agent) start turn state) :
    state.decisions.length = turn := by
  refine Reach.invariant (I := fun t st => st.decisions.length = t) (by rw [hstart]; rfl) ?_ h
  intro t st st' _ hlength _ hbody
  obtain ⟨_, _, _, decision, _, _, -, -, -, -, -, hdecisions⟩ := turnBody_agent_eq_ok hbody
  rw [hdecisions, List.length_append, hlength, List.length_singleton]

/-- The trace only grows. -/
theorem TurnReach.decisions_prefix {turn k : ℕ} {earlier : ProfileState σ}
    (h : TurnReach sha limits env episodeId collectEvidence (.agent agent) start turn state)
    (hk : k ≤ turn)
    (hearlier : TurnReach sha limits env episodeId collectEvidence (.agent agent) start k earlier) :
    earlier.decisions <+: state.decisions := by
  induction h with
  | start =>
    obtain rfl : k = 0 := by omega
    cases hearlier
    exact List.prefix_rfl
  | @step t s s' hr hs hb ih =>
    rcases Nat.lt_or_ge t k with hlt | hge
    · obtain rfl : k = t + 1 := by omega
      rw [hearlier.unique (.step hr hs hb)]
    · obtain ⟨_, _, _, decision, _, _, -, -, -, -, -, hdecisions⟩ := turnBody_agent_eq_ok hb
      exact (ih hge).trans (hdecisions ▸ List.prefix_append _ _)

/-- At a turn the run took, its finished trace holds the decision taken there. -/
theorem TurnReach.decision_at (hstart : start.decisions = []) {turn last : ℕ}
    {final : ProfileState σ} {decision : TurnDecision}
    (hfinal : TurnReach sha limits env episodeId collectEvidence (.agent agent) start last final)
    (hlt : turn < last)
    (h : TurnReach sha limits env episodeId collectEvidence (.agent agent) start turn state)
    (hstop : state.stopped = false)
    (hbody : turnBody sha limits env episodeId collectEvidence (.agent agent) turn state =
      .ok state')
    (hdecisions : state'.decisions = state.decisions ++ [decision]) :
    final.decisions[turn]? = some decision := by
  obtain ⟨rest, hrest⟩ := hfinal.decisions_prefix (by omega) (.step h hstop hbody)
  have hlength := h.decisions_length hstart
  rw [← hrest, hdecisions, List.append_assoc, List.getElem?_append_right (by omega), hlength,
    Nat.sub_self]
  rfl

/-- A state a finished run reached before its end was left by a turn that returned. -/
theorem TurnReach.left_of_running {source : DecisionSource σ} {turns last turn : ℕ}
    {final : ProfileState σ}
    (hfinal : TurnReach sha limits env episodeId collectEvidence source start last final)
    (hend : last = turns ∨ final.core.terminal = true) (hlast : last ≤ turns)
    (h : TurnReach sha limits env episodeId collectEvidence source start turn state)
    (hturn : turn < turns) (hrunning : state.stopped = false) :
    turn < last ∧ ∃ next,
      turnBody sha limits env episodeId collectEvidence source turn state = .ok next := by
  have hlt : turn < last := by
    rcases Nat.lt_trichotomy turn last with hlt | rfl | hgt
    · exact hlt
    · obtain rfl := h.unique hfinal
      rcases hend with rfl | hend
      · omega
      · simp [ProfileState.stopped, hend] at hrunning
    · obtain ⟨hstop, -⟩ := h.not_stop_of_lt hgt hfinal
      rcases hend with rfl | hend
      · omega
      · simp [ProfileState.stopped, hend] at hstop
  obtain ⟨-, next, hnext, -⟩ := hfinal.not_stop_of_lt hlt h
  exact ⟨hlt, next, hnext⟩

end Loop

theorem startState_decisions {σ : Type} {env : ProfileEnv} {s : σ} {start : ProfileState σ}
    (h : startState env s = .ok start) : start.decisions = [] := by
  obtain ⟨_, _, -, -, rfl⟩ := startState_eq_ok h
  rfl

/-- Starts differ in the driver's own state only. -/
theorem startState_core {σ τ : Type} {env : ProfileEnv} {s : σ} {r : τ}
    {start : ProfileState σ} (h : startState env s = .ok start) :
    startState env r = .ok ⟨start.core, [], [], [], [], r⟩ := by
  obtain ⟨ts, first, hts, hfirst, rfl⟩ := startState_eq_ok h
  simp [startState, hts, hfirst, pure_eq_ok]

end WagmiBench.Core
