import WagmiBench.Core.Engine.Inversion

/-!
# What each phase drafts

The kinds of events a phase of a turn may draft, and their stamps. A turn drafts its decision, the
coincident settlement, the order, the settlements inside the holding bar and its close, in this
order: the first three at the decision, the settlements at their own times, the rest at the close.
-/

namespace WagmiBench.Core

open WagmiBench.Lib WagmiBench.Harness WagmiBench.Spec

/-! ## Kinds of events -/

/-- The event of the decision itself. -/
def Payload.IsDecision : Payload → Prop
  | .actionParsed _ | .actionRejected _ => True
  | _ => False

/-- An event of the gates or of the order. -/
def Payload.IsOrder : Payload → Prop
  | .riskCheck _ | .postKillSwitchAttempt .. | .orderFilled _ | .orderCancelled _ => True
  | _ => False

/-- An event of the close of a holding bar. -/
def Payload.IsClosing : Payload → Prop
  | .marginUpdate _ | .liquidationTriggered _ | .nearLiquidation _ | .orderFilled _
  | .killSwitchTriggered _ => True
  | _ => False

/-- The settlement an event reports. -/
def Payload.settlement : Payload → Option FundingApplied
  | .fundingApplied p => some p
  | _ => none

/-- The settlements among drafts. -/
def settlements (drafts : List Draft) : List FundingApplied :=
  drafts.filterMap fun d => d.payload.settlement

@[simp] theorem settlements_nil : settlements [] = [] := rfl

@[simp] theorem settlements_append (l m : List Draft) :
    settlements (l ++ m) = settlements l ++ settlements m :=
  List.filterMap_append

theorem settlements_eq_nil {drafts : List Draft}
    (h : ∀ d ∈ drafts, d.payload.settlement = none) : settlements drafts = [] :=
  List.filterMap_eq_nil_iff.mpr h

theorem Payload.IsOrder.settlement {p : Payload} (h : p.IsOrder) : p.settlement = none := by
  cases p <;> first | rfl | exact h.elim

theorem Payload.IsClosing.settlement {p : Payload} (h : p.IsClosing) : p.settlement = none := by
  cases p <;> first | rfl | exact h.elim

theorem Payload.IsDecision.settlement {p : Payload} (h : p.IsDecision) : p.settlement = none := by
  cases p <;> first | rfl | exact h.elim

/-- Where and when an engine event of a turn is stamped. -/
structure Draft.Stamped (ts : ℤ) (turn : ℕ) (d : Draft) : Prop where
  ts_eq : d.ts = ts
  turn_eq : d.turn = some turn
  source_eq : d.source = .engine

section Phases

variable {env : ProfileEnv} {clock : TurnClock} {account after : Account} {drafts : List Draft}
  {collectEvidence : Bool}

theorem stamped_engineDraft {ts : ℤ} {turn barIndex : ℕ} {p : Payload} :
    (engineDraft ts turn barIndex p).Stamped ts turn :=
  ⟨rfl, rfl, rfl⟩

theorem countDecision_draft (counters : Counters) (decision : TurnDecision) :
    (countDecision clock counters decision).2.payload.IsDecision ∧
      (countDecision clock counters decision).2.Stamped clock.decisionTs clock.turn := by
  unfold countDecision
  cases decision.outcome <;> exact ⟨trivial, stamped_engineDraft⟩

theorem gateDrafts_drafts {checks : List RiskCheck} {postKill : Bool} {action : ParsedAction}
    {rawSha256 : Option Text} :
    ∀ d ∈ gateDrafts clock checks postKill action rawSha256,
      d.payload.IsOrder ∧ d.Stamped clock.decisionTs clock.turn := by
  intro d hd
  rcases List.mem_append.mp hd with hd | hd
  · obtain ⟨c, -, rfl⟩ := List.mem_map.mp hd
    exact ⟨trivial, stamped_engineDraft⟩
  · split at hd
    · obtain rfl := List.mem_singleton.mp hd
      exact ⟨trivial, stamped_engineDraft⟩
    · simp at hd

theorem executeOrder_drafts {action : ParsedAction} {sizing : Sizing}
    (h : executeOrder env clock account action sizing = .ok (after, drafts)) :
    ∀ d ∈ drafts, d.payload.IsOrder ∧ d.Stamped clock.decisionTs clock.turn := by
  obtain ⟨fillRow, fill, -, -, ⟨reason, -, -, rfl⟩ | ⟨-, -, rfl⟩⟩ := executeOrder_eq_ok h
  · simpa [fullCancel] using ⟨trivial, stamped_engineDraft⟩
  · intro d hd
    rcases List.mem_cons.mp hd with rfl | hd
    · exact ⟨trivial, stamped_engineDraft⟩
    · unfold partialCancel at hd
      split at hd
      · simp at hd
      · obtain rfl := List.mem_singleton.mp hd
        exact ⟨trivial, stamped_engineDraft⟩

theorem relabel_drafts {sizing : Sizing}
    (h : relabel env clock collectEvidence account sizing = (after, drafts)) :
    ∀ d ∈ drafts, d.payload.IsOrder ∧ d.Stamped clock.decisionTs clock.turn := by
  unfold relabel at h
  split at h
  · obtain ⟨-, rfl⟩ := Prod.mk.inj h
    simpa [roundingCancel] using ⟨trivial, stamped_engineDraft⟩
  · split at h <;>
    · obtain ⟨-, rfl⟩ := Prod.mk.inj h
      simp

theorem actionPhase_drafts {counters counters' : Counters} {decision : TurnDecision}
    {drawdownUsed : ℤ}
    (h : actionPhase env clock collectEvidence account counters decision drawdownUsed =
      .ok (after, counters', drafts)) :
    ∀ d ∈ drafts, d.payload.IsOrder ∧ d.Stamped clock.decisionTs clock.turn := by
  obtain ⟨-, -, -, rfl⟩ | ⟨action, -, haction⟩ := actionPhase_eq_ok h
  · simp
  · obtain ⟨sizing, orders, -, horder, -, rfl⟩ := processAction_eq_ok haction
    intro d hd
    rcases List.mem_append.mp hd with hd | hd
    · exact gateDrafts_drafts d hd
    · obtain ⟨-, -, rfl⟩ | ⟨-, -, horder⟩ | ⟨-, -, hrelabel⟩ := orderPhase_eq_ok horder
      · simp at hd
      · exact executeOrder_drafts horder d hd
      · exact relabel_drafts hrelabel d hd

/-! ## The close -/

theorem marginDrafts_drafts (h : marginDrafts env clock collectEvidence account = .ok drafts) :
    ∀ d ∈ drafts, d.payload.IsClosing ∧ d.Stamped clock.holdingCloseTs clock.turn := by
  obtain ⟨-, rfl⟩ | ⟨-, payload, -, rfl⟩ := marginDrafts_eq_ok h
  · simp
  · simpa using ⟨trivial, stamped_engineDraft⟩

theorem liquidationPhase_drafts {liquidated : Bool}
    (h : liquidationPhase env clock account = .ok (after, liquidated, drafts)) :
    ∀ d ∈ drafts, d.payload.IsClosing ∧ d.Stamped clock.holdingCloseTs clock.turn := by
  obtain ⟨-, -, -, rfl⟩ | ⟨-, mark, liqPx, -, -, ⟨-, -, draft, hliq, rfl⟩ |
    ⟨-, -, -, distance, -, rfl⟩⟩ := liquidationPhase_eq_ok h
  · simp
  · obtain ⟨_, _, _, -, -, -, -, rfl⟩ := liquidate_eq_ok hliq
    simpa using ⟨trivial, stamped_engineDraft⟩
  · unfold nearLiquidationDrafts
    split
    · simpa using ⟨trivial, stamped_engineDraft⟩
    · simp

theorem killSwitchPhase_drafts {terminal killed : Bool} {snapshots snapshots' : SnapshotLog}
    {nextSeq : ℕ}
    (h : killSwitchPhase env clock collectEvidence terminal account snapshots nextSeq =
      .ok (after, killed, snapshots', drafts)) :
    ∀ d ∈ drafts, d.payload.IsClosing ∧ d.Stamped clock.holdingCloseTs clock.turn := by
  obtain ⟨drawdown, -, ⟨-, -, -, -, rfl⟩ | ⟨-, -, -, -, -, rfl⟩ |
    ⟨-, -, -, flat, filled, s, margin, hflat, -, hmargin, -, -, rfl⟩⟩ := killSwitchPhase_eq_ok h
  · simp
  · simpa [killDraft] using ⟨trivial, stamped_engineDraft⟩
  · obtain ⟨_, _, _, -, -, -, -, rfl⟩ := flatten_eq_ok hflat
    intro d hd
    rcases List.mem_append.mp hd with hd | hd
    · rcases List.mem_cons.mp hd with rfl | hd
      · exact ⟨trivial, stamped_engineDraft⟩
      · exact marginDrafts_drafts hmargin d hd
    · obtain rfl := List.mem_singleton.mp hd
      exact ⟨trivial, stamped_engineDraft⟩

theorem closePhase_drafts {counters : Counters} {snapshots : SnapshotLog} {nextSeq : ℕ}
    {core : ProfileCore}
    (h : closePhase env clock collectEvidence account counters snapshots nextSeq =
      .ok (core, drafts)) :
    ∀ d ∈ drafts, d.payload.IsClosing ∧ d.Stamped clock.holdingCloseTs clock.turn := by
  obtain ⟨margin, closed, liquidated, liquidation, s, killed, kill, last, hmargin, hliq, -, hk,
    hlast, -, -, -, rfl⟩ := closePhase_eq_ok h
  intro d hd
  simp only [List.mem_append] at hd
  rcases hd with ((hd | hd) | hd) | hd
  · exact marginDrafts_drafts hmargin d hd
  · exact liquidationPhase_drafts hliq d hd
  · exact killSwitchPhase_drafts hk d hd
  · exact marginDrafts_drafts hlast d hd

end Phases

/-! ## Runs -/

section Loop

variable {σ : Type} (sha : Sha256) (limits : Json.Limits) (env : ProfileEnv) (episodeId : Text)
  (collectEvidence : Bool) (source : DecisionSource σ)

/-- The turn entered in `state` is decided by `decision`. -/
def Decides (turn : ℕ) (state : ProfileState σ) (decision : TurnDecision) : Prop :=
  ∃ clock drawdownUsed turnoverUsed asked, turnClock env turn = .ok clock ∧
    drawdown1e8 state.core.snapshots = .ok drawdownUsed ∧
    turnover1e8 state.core.account.turnoverNotionalMicro env.config.startingNavMicro =
      .ok turnoverUsed ∧
    decideTurn sha limits env episodeId collectEvidence source clock drawdownUsed turnoverUsed
      state = .ok (decision, asked)

/-- The turn entered in `state` takes the run to `next` and drafts `drafts`, which are emitted where
evidence is collected. -/
def TurnDrafts (turn : ℕ) (state next : ProfileState σ) (drafts : List Draft) : Prop :=
  ∃ clock drawdownUsed turnoverUsed decision asked,
    turnClock env turn = .ok clock ∧ drawdown1e8 state.core.snapshots = .ok drawdownUsed ∧
    turnover1e8 state.core.account.turnoverNotionalMicro env.config.startingNavMicro =
      .ok turnoverUsed ∧
    decideTurn sha limits env episodeId collectEvidence source clock drawdownUsed turnoverUsed
      state = .ok (decision, asked) ∧
    settleTurn env clock collectEvidence state.core decision drawdownUsed asked.events.length =
      .ok (next.core, drafts) ∧
    next = { asked with
      core := next.core
      events := if collectEvidence then emitAll asked.events drafts else asked.events }

/-- Everything drafted in the turns of a run before the one entered in a state, in order. -/
inductive Drafted (start : ProfileState σ) : ℕ → ProfileState σ → List Draft → Prop
  | start : Drafted start 0 start []
  | turn {turn : ℕ} {state next : ProfileState σ} {earlier drafts : List Draft} :
      Drafted start turn state earlier → state.stopped = false →
      turnBody sha limits env episodeId collectEvidence source turn state = .ok next →
      TurnDrafts sha limits env episodeId collectEvidence source turn state next drafts →
      Drafted start (turn + 1) next (earlier ++ drafts)

variable {sha limits env episodeId collectEvidence source} {start state : ProfileState σ}

theorem TurnReach.drafted {turn : ℕ}
    (h : TurnReach sha limits env episodeId collectEvidence source start turn state) :
    ∃ drafts, Drafted sha limits env episodeId collectEvidence source start turn state drafts := by
  induction h with
  | start => exact ⟨[], .start⟩
  | step hreach hstop hbody ih =>
    obtain ⟨earlier, hearlier⟩ := ih
    obtain ⟨clock, drawdown, turnover, decision, asked, drafts, hdrafts⟩ := turnBody_eq_ok hbody
    exact ⟨_, .turn hearlier hstop hbody ⟨clock, drawdown, turnover, decision, asked, hdrafts⟩⟩

end Loop

end WagmiBench.Core
