import WagmiBench.Core.Engine.Conservation

/-!
# The event stream accounts for the ledger

`Booked` says what one turn's drafts book. Here the same is read off the stored stream of a whole
run: the events stamped with a turn book exactly the step between that turn's two snapshots, and all
of them together book the turnover.
-/

namespace WagmiBench.Core

open WagmiBench.Lib WagmiBench.Harness WagmiBench.Spec

/-! ## Sums over a stream -/

/-- What the events of one turn book. -/
def bookedAt (f : Payload → ℤ) (events : List Event) (turn : ℕ) : ℤ :=
  bookedSum f ((events.map Event.toDraft).filter fun d => d.turn = some turn)

/-- What all events book. -/
def bookedTotal (f : Payload → ℤ) (events : List Event) : ℤ :=
  bookedSum f (events.map Event.toDraft)

theorem emitAll_toDraft (events : List Event) (drafts : List Draft) :
    (emitAll events drafts).map Event.toDraft = events.map Event.toDraft ++ drafts := by
  induction drafts generalizing events with
  | nil => simp [emitAll]
  | cons d drafts ih =>
    have := ih (emit events d)
    simpa [emitAll, emit] using this

/-- What `emitAll` appends, as events. -/
theorem emitAll_eq_append (events : List Event) (drafts : List Draft) :
    ∃ added, emitAll events drafts = events ++ added ∧ added.map Event.toDraft = drafts := by
  induction drafts generalizing events with
  | nil => exact ⟨[], by simp [emitAll], rfl⟩
  | cons d drafts ih =>
    obtain ⟨added, heq, hmap⟩ := ih (emit events d)
    refine ⟨{ d with seq := events.length } :: added, ?_, by simp [hmap]⟩
    change emitAll (emit events d) drafts = _
    rw [heq]
    simp [emit]

theorem emitAll_append (events : List Event) (l m : List Draft) :
    emitAll events (l ++ m) = emitAll (emitAll events l) m := by
  simp [emitAll]

theorem bookedTotal_emitAll (f : Payload → ℤ) (events : List Event) (drafts : List Draft) :
    bookedTotal f (emitAll events drafts) = bookedTotal f events + bookedSum f drafts := by
  rw [bookedTotal, emitAll_toDraft, bookedSum_append, bookedTotal]

/-- Drafts of other turns leave what a turn's events book alone. -/
theorem bookedAt_emitAll_of_ne {f : Payload → ℤ} {events : List Event} {drafts : List Draft}
    {turn : ℕ} (h : ∀ d ∈ drafts, d.turn ≠ some turn) :
    bookedAt f (emitAll events drafts) turn = bookedAt f events turn := by
  have none_kept : drafts.filter (fun d => decide (d.turn = some turn)) = [] :=
    List.filter_eq_nil_iff.mpr fun d hd => by simpa using h d hd
  rw [bookedAt, emitAll_toDraft, List.filter_append, none_kept, List.append_nil, bookedAt]

/-- The first drafts of a turn are all that its events book. -/
theorem bookedAt_emitAll_of_fresh {f : Payload → ℤ} {events : List Event} {drafts : List Draft}
    {turn : ℕ} (hold : ∀ e ∈ events, e.turn ≠ some turn) (hnew : ∀ d ∈ drafts, d.turn = some turn) :
    bookedAt f (emitAll events drafts) turn = bookedSum f drafts := by
  have none_kept : (events.map Event.toDraft).filter (fun d => decide (d.turn = some turn)) = [] := by
    refine List.filter_eq_nil_iff.mpr fun d hd => ?_
    obtain ⟨e, he, rfl⟩ := List.mem_map.mp hd
    simpa using hold e he
  have all_kept : drafts.filter (fun d => decide (d.turn = some turn)) = drafts :=
    List.filter_eq_self.mpr fun d hd => by simpa using hnew d hd
  rw [bookedAt, emitAll_toDraft, List.filter_append, none_kept, all_kept, List.nil_append]

theorem mem_emitAll_turn {events : List Event} {drafts : List Draft} {e : Event}
    (h : e ∈ emitAll events drafts) :
    (∃ e' ∈ events, e'.turn = e.turn) ∨ ∃ d ∈ drafts, d.turn = e.turn := by
  have hmem : e.toDraft ∈ events.map Event.toDraft ++ drafts :=
    emitAll_toDraft events drafts ▸ List.mem_map_of_mem h
  rcases List.mem_append.mp hmem with hmem | hmem
  · obtain ⟨e', he', heq⟩ := List.mem_map.mp hmem
    exact .inl ⟨e', he', by rw [heq]⟩
  · exact .inr ⟨e.toDraft, hmem, rfl⟩

/-! ## Evidence of a decision -/

section Loop

variable {σ : Type} {sha : Sha256} {limits : Json.Limits} {env : ProfileEnv} {episodeId : Text}
  {collectEvidence : Bool} {source : DecisionSource σ}

/-- An event of the decision itself: what was asked, answered and blocked. -/
def Payload.IsEvidence : Payload → Prop
  | .observationEmitted .. | .agentResponded _ | .egressBlocked _ => True
  | _ => False

theorem Payload.IsEvidence.isNeutral {p : Payload} (h : p.IsEvidence) : p.IsNeutral := by
  cases p <;> trivial

theorem responseDrafts_evidence {clock : TurnClock} {attempt : ℕ} {replies : List AgentReply}
    {drafts : List Draft} (h : responseDrafts sha limits clock attempt replies = .ok drafts) :
    ∀ d ∈ drafts, d.payload.IsEvidence ∧ d.turn = some clock.turn := by
  induction replies generalizing attempt drafts with
  | nil =>
    obtain rfl := Except.ok.inj h
    simp
  | cons reply replies ih =>
    simp only [responseDrafts, bind_ok_iff, pure_eq_ok, Except.ok.injEq] at h
    obtain ⟨usage, -, rest, hrest, rfl⟩ := h
    intro d hd
    rcases List.mem_cons.mp hd with rfl | hd
    · exact ⟨trivial, rfl⟩
    · exact ih hrest d hd

theorem harnessDrafts_eq_ok {drained : List BlockFact} {ts : ℤ} {turn barIndex : Option ℕ}
    {drafts : List Draft} (h : harnessDrafts drained ts turn barIndex = .ok drafts) :
    ∀ d ∈ drafts, d.payload.IsEvidence ∧ d.turn = turn := by
  simp only [harnessDrafts, bind_ok_iff, pure_eq_ok, Except.ok.injEq] at h
  obtain ⟨facts, -, rfl⟩ := h
  intro d hd
  obtain ⟨fact, -, rfl⟩ := List.mem_map.mp hd
  exact ⟨trivial, rfl⟩

/-- Deciding a turn only emits evidence of that turn. -/
theorem decideTurn_events {clock : TurnClock} {drawdownUsed turnoverUsed : ℤ}
    {state state' : ProfileState σ} {decision : TurnDecision}
    (h : decideTurn sha limits env episodeId collectEvidence source clock drawdownUsed turnoverUsed
      state = .ok (decision, state')) :
    ∃ drafts, state'.events = emitAll state.events drafts ∧
      ∀ d ∈ drafts, d.payload.IsEvidence ∧ d.turn = some clock.turn := by
  have silent : ∃ drafts, state.events = emitAll state.events drafts ∧
      ∀ d ∈ drafts, d.payload.IsEvidence ∧ d.turn = some clock.turn := ⟨[], rfl, by simp⟩
  cases source with
  | replay decisions =>
    obtain ⟨-, rfl⟩ := decideTurn_replay_eq_ok h
    exact silent
  | agent agent =>
    obtain ⟨observation, s, -, -, ⟨-, hrec⟩ | ⟨-, rfl⟩⟩ := decideTurn_agent_eq_ok h
    · obtain ⟨bytes, responses, facts, -, hresponses, hfacts, rfl⟩ := recordDecision_eq_ok hrec
      refine ⟨_, rfl, fun d hd => ?_⟩
      rcases List.mem_append.mp hd with hd | hd
      · rcases List.mem_cons.mp hd with rfl | hd
        · exact ⟨trivial, rfl⟩
        · exact responseDrafts_evidence hresponses d hd
      · exact harnessDrafts_eq_ok hfacts d hd
    · exact silent

/-- With evidence a turn appends the drafts that book it. -/
theorem turnBody_events {turn : ℕ} {state state' : ProfileState σ}
    (h : turnBody sha limits env episodeId true source turn state = .ok state') :
    ∃ drafts, state'.events = emitAll state.events drafts ∧
      Booked turn env.market.spec.tickSizeMicro state.core.account state'.core.account drafts := by
  obtain ⟨clock, drawdown, turnover, decision, asked, drafts, hclock, -, -, hdec, hsettle, hstate⟩ :=
    turnBody_eq_ok h
  obtain ⟨-, rfl, -, -⟩ := turnClock_eq_ok hclock
  obtain ⟨evidence, hevents, hneutral⟩ := decideTurn_events hdec
  have neutral : ∀ d ∈ evidence, d.IsNeutral clock.turn := fun d hd =>
    ⟨(hneutral d hd).1.isNeutral, (hneutral d hd).2⟩
  refine ⟨evidence ++ drafts, ?_, (Booked.of_neutral neutral rfl).trans (settleTurn_booked hsettle)⟩
  rw [hstate, emitAll_append, ← hevents]
  rfl

/-! ## Snapshots are numbered -/

theorem killSwitchPhase_barIndex {clock : TurnClock} {account after : Account} {drafts : List Draft}
    {terminal killed : Bool} {snapshots snapshots' : SnapshotLog} {nextSeq : ℕ}
    (hlast : snapshots.last.barIndex = clock.turn + 1)
    (h : killSwitchPhase env clock collectEvidence terminal account snapshots nextSeq =
      .ok (after, killed, snapshots', drafts)) : snapshots'.last.barIndex = clock.turn + 1 := by
  obtain ⟨drawdown, -, ⟨-, -, -, rfl, -⟩ | ⟨-, -, -, -, rfl, -⟩ |
    ⟨-, -, -, flat, filled, s, margin, -, hs, -, -, rfl, -⟩⟩ := killSwitchPhase_eq_ok h
  · exact hlast
  · exact hlast
  · exact (snapshot_eq_ok hs).2.1

/-- The snapshot a turn appends carries the number of the bar it closes. -/
theorem settleTurn_barIndex {clock : TurnClock} {core core' : ProfileCore}
    {decision : TurnDecision} {drawdownUsed : ℤ} {nextSeq : ℕ} {drafts : List Draft}
    (h : settleTurn env clock collectEvidence core decision drawdownUsed nextSeq =
      .ok (core', drafts)) : core'.snapshots.last.barIndex = clock.turn + 1 := by
  obtain ⟨account, counters, opening, closing, -, hc, rfl⟩ := settleTurn_eq_ok h
  obtain ⟨margin, closed, liquidated, liquidation, s, killed, kill, last, -, -, hs, hk, -⟩ :=
    closePhase_eq_ok hc
  exact killSwitchPhase_barIndex (by simpa using (snapshot_eq_ok hs).2.1) hk

end Loop

/-! ## The run invariant -/

/-- The step between two snapshots is what the events of the turn between them book. -/
structure StepBooked (events : List Event) (turn : ℕ) (p r : Snapshot) : Prop where
  fees : r.feesCumMicro = p.feesCumMicro + bookedAt Payload.fee events turn
  funding : r.fundingCumMicro = p.fundingCumMicro - bookedAt Payload.fundingAmount events turn
  penalty : r.liquidationPenaltyCumMicro =
    p.liquidationPenaltyCumMicro + bookedAt Payload.penalty events turn
  position : r.positionQtyBase1e8 = p.positionQtyBase1e8 + bookedAt Payload.signedFill events turn -
    bookedAt Payload.liquidatedQty events turn

/-- What the stream and the snapshots of a run say about each other before turn `turn`. -/
structure Attributed (tick : ℤ) (turn : ℕ) (events : List Event) (core : ProfileCore) : Prop where
  count : core.snapshots.earlier.length = turn
  last : SnapshotOf core.account core.snapshots.last
  numbered : ∀ k (s : Snapshot), core.snapshots.all[k]? = some s → s.barIndex = k
  stamped : ∀ e ∈ events, ∃ k < turn, e.turn = some k
  steps : ∀ k (p r : Snapshot), core.snapshots.all[k]? = some p →
    core.snapshots.all[k + 1]? = some r → StepBooked events k p r
  turnover : core.account.turnoverNotionalMicro =
    bookedTotal Payload.fillNotional events + bookedTotal (Payload.closeNotional tick) events

namespace Attributed

variable {tick : ℤ} {turn : ℕ} {events : List Event} {core core' : ProfileCore}
  {drafts : List Draft}

theorem all_length (h : Attributed tick turn events core) :
    core.snapshots.all.length = turn + 1 := by
  simp [SnapshotLog.all, h.count]

theorem all_last (h : Attributed tick turn events core) :
    core.snapshots.all[turn]? = some core.snapshots.last := by
  simp [SnapshotLog.all, ← h.count]

/-- A turn that appends one numbered snapshot and the drafts that book it keeps the invariant. -/
theorem step (h : Attributed tick turn events core)
    (hbooked : Booked turn tick core.account core'.account drafts)
    (hlast : SnapshotOf core'.account core'.snapshots.last)
    (hearlier : core'.snapshots.earlier = core.snapshots.all)
    (hnumber : core'.snapshots.last.barIndex = turn + 1) :
    Attributed tick (turn + 1) (emitAll events drafts) core' := by
  have hall : core'.snapshots.all = core.snapshots.all ++ [core'.snapshots.last] := by
    rw [SnapshotLog.all, hearlier]
  have hlength := h.all_length
  -- the snapshots before the appended one keep their places
  have old : ∀ {k : ℕ} {s : Snapshot}, core'.snapshots.all[k]? = some s →
      (k ≤ turn ∧ core.snapshots.all[k]? = some s) ∨ (k = turn + 1 ∧ s = core'.snapshots.last) := by
    intro k s hs
    rw [hall] at hs
    rcases Nat.lt_or_ge k (turn + 1) with hk | hk
    · rw [List.getElem?_append_left (by omega)] at hs
      exact .inl ⟨by omega, hs⟩
    · rw [List.getElem?_append_right (by omega), hlength] at hs
      simp only [List.getElem?_singleton, Option.ite_none_right_eq_some, Option.some.injEq] at hs
      obtain ⟨hk', rfl⟩ := hs
      exact .inr ⟨by omega, rfl⟩
  have fresh : ∀ e ∈ events, e.turn ≠ some turn := by
    intro e he heq
    obtain ⟨k, hk, hturn⟩ := h.stamped e he
    rw [hturn, Option.some.injEq] at heq
    omega
  refine ⟨by rw [hearlier, hlength], hlast, fun k s hs => ?_, fun e he => ?_, fun k p r hp hr => ?_,
    ?_⟩
  · rcases old hs with ⟨-, hs⟩ | ⟨rfl, rfl⟩
    · exact h.numbered k s hs
    · exact hnumber
  · rcases mem_emitAll_turn he with ⟨e', he', heq⟩ | ⟨d, hd, heq⟩
    · obtain ⟨k, hk, hturn⟩ := h.stamped e' he'
      exact ⟨k, by omega, heq ▸ hturn⟩
    · exact ⟨turn, by omega, heq ▸ hbooked.stamped d hd⟩
  · rcases old hr with ⟨hk, hr⟩ | ⟨hk, rfl⟩
    · -- an earlier step, which the new drafts do not touch
      have hp' := (old hp).resolve_right (by omega)
      have kept : ∀ f, bookedAt f (emitAll events drafts) k = bookedAt f events k := fun f =>
        bookedAt_emitAll_of_ne fun d hd => by
          rw [hbooked.stamped d hd, ne_eq, Option.some.injEq]
          omega
      have before := h.steps k p r hp'.2 hr
      exact ⟨by rw [kept]; exact before.fees, by rw [kept]; exact before.funding,
        by rw [kept]; exact before.penalty, by rw [kept, kept]; exact before.position⟩
    · -- the step of this turn
      obtain rfl : k = turn := by omega
      have hp' := (old hp).resolve_right (by omega)
      obtain rfl : core.snapshots.last = p := Option.some.inj (h.all_last.symm.trans hp'.2)
      have new : ∀ f, bookedAt f (emitAll events drafts) k = bookedSum f drafts := fun f =>
        bookedAt_emitAll_of_fresh fresh hbooked.stamped
      exact ⟨by rw [new, hlast.fees, h.last.fees, hbooked.fees],
        by rw [new, hlast.funding, h.last.funding, hbooked.funding],
        by rw [new, hlast.penalty, h.last.penalty, hbooked.penalty],
        by rw [new, new, hlast.position, h.last.position, hbooked.position]⟩
  · rw [bookedTotal_emitAll, bookedTotal_emitAll, hbooked.turnover, h.turnover]
    ring

end Attributed

section Runs

variable {σ : Type} {sha : Sha256} {limits : Json.Limits} {env : ProfileEnv} {episodeId : Text}
  {source : DecisionSource σ} {start state state' : ProfileState σ}

theorem startState_attributed {s : σ} (h : startState env s = .ok start) :
    Attributed env.market.spec.tickSizeMicro 0 start.events start.core := by
  obtain ⟨ts, first, -, hfirst, rfl⟩ := startState_eq_ok h
  obtain ⟨taken, number, -⟩ := snapshot_eq_ok hfirst
  refine ⟨rfl, taken, fun k s hs => ?_, by simp, fun k p r hp hr => ?_, rfl⟩
  · simp only [SnapshotLog.all, List.nil_append, List.getElem?_singleton,
      Option.ite_none_right_eq_some, Option.some.injEq] at hs
    obtain ⟨rfl, rfl⟩ := hs
    exact number
  · simp [SnapshotLog.all] at hr

/-- Step lemma: with evidence, every turn keeps the stream and the snapshots in agreement. -/
theorem turnBody_attributed {tick : ℤ} (htick : env.market.spec.tickSizeMicro = tick) {turn : ℕ}
    (h : turnBody sha limits env episodeId true source turn state = .ok state')
    (hs : Attributed tick turn state.events state.core) :
    Attributed tick (turn + 1) state'.events state'.core := by
  obtain ⟨drafts, hevents, hbooked⟩ := turnBody_events h
  obtain ⟨clock, drawdown, turnover, decision, asked, _, hclock, -, -, -, hsettle, -⟩ :=
    turnBody_eq_ok h
  obtain ⟨-, rfl, -, -⟩ := turnClock_eq_ok hclock
  obtain ⟨hlast, hearlier⟩ := settleTurn_snapshot hsettle
  rw [hevents]
  exact hs.step (htick ▸ hbooked) hlast hearlier (settleTurn_barIndex hsettle)

/-- Run lemma: they agree in every state the turn loop reaches. -/
theorem TurnReach.attributed {s : σ} (hstart : startState env s = .ok start) {turn : ℕ}
    (h : TurnReach sha limits env episodeId true source start turn state) :
    Attributed env.market.spec.tickSizeMicro turn state.events state.core :=
  Reach.invariant (I := fun t st => Attributed env.market.spec.tickSizeMicro t st.events st.core)
    (startState_attributed hstart) (fun _ _ _ _ hs _ hb => turnBody_attributed rfl hb hs) h

end Runs

/-! ## Ledger rows -/

/-- Row `k` of a ledger is the row of snapshot `k` after the one before it. -/
theorem ledgerRows_getElem {profile aliasName : Text} {snapshots : SnapshotLog}
    {rows : List LedgerRow} (h : ledgerRows snapshots profile aliasName = .ok rows) {k : ℕ}
    {row : LedgerRow} (hrow : rows[k]? = some row) :
    ∃ previous s, (none :: snapshots.all.map some)[k]? = some previous ∧
      snapshots.all[k]? = some s ∧ row = ledgerRowOf profile aliasName previous s := by
  rw [ledgerRows_eq_ok h, List.getElem?_zipWith_eq_some] at hrow
  obtain ⟨previous, s, hp, hs, rfl⟩ := hrow
  exact ⟨previous, s, hp, hs, rfl⟩

/-- The row after a booked step reports what the events of its turn book. -/
theorem StepBooked.ledgerRow {events : List Event} {turn : ℕ} {p r : Snapshot}
    (h : StepBooked events turn p r) (profile aliasName : Text) :
    let row := ledgerRowOf profile aliasName (some p) r
    row.dFeesMicro = -bookedAt Payload.fee events turn ∧
      row.dFundingMicro = bookedAt Payload.fundingAmount events turn ∧
      row.dLiqPenaltyMicro = -bookedAt Payload.penalty events turn ∧
      row.qtyBase1e8 - p.positionQtyBase1e8 = bookedAt Payload.signedFill events turn -
        bookedAt Payload.liquidatedQty events turn := by
  refine ⟨?_, ?_, ?_, ?_⟩ <;>
    simp only [ledgerRowOf, ledgerDelta, h.fees, h.funding, h.penalty, h.position] <;> ring

/-- The events `run_episode` adds after the last turn: harness facts and the end. -/
theorem bookedAt_finish {f : Payload → ℤ} {events : List Event} {facts : List Draft} {last : Draft}
    {turn : ℕ} (hfacts : ∀ d ∈ facts, d.turn = none) (hlast : last.turn = none) :
    bookedAt f (emit (emitAll events facts) last) turn = bookedAt f events turn := by
  have : emit (emitAll events facts) last = emitAll events (facts ++ [last]) := by
    simp [emitAll]
  rw [this]
  refine bookedAt_emitAll_of_ne fun d hd => ?_
  rcases List.mem_append.mp hd with hd | hd
  · simp [hfacts d hd]
  · obtain rfl := List.mem_singleton.mp hd
    simp [hlast]

theorem bookedTotal_finish {f : Payload → ℤ} (hf : ∀ p : Payload, p.IsNeutral → f p = 0)
    {events : List Event} {facts : List Draft} {last : Draft}
    (hfacts : ∀ d ∈ facts, d.payload.IsNeutral) (hlast : last.payload.IsNeutral) :
    bookedTotal f (emit (emitAll events facts) last) = bookedTotal f events := by
  have : emit (emitAll events facts) last = emitAll events (facts ++ [last]) := by
    simp [emitAll]
  rw [this, bookedTotal_emitAll, bookedSum_append, bookedSum_eq_zero hf hfacts, bookedSum_cons,
    bookedSum_nil, hf _ hlast]
  ring

theorem profileMetrics_turnover {snapshots : SnapshotLog} {totals : Totals} {startingNav : ℤ}
    {ref : Text} {m : ProfileMetrics} (h : profileMetrics snapshots totals startingNav ref = .ok m) :
    turnover1e8 totals.turnoverNotionalMicro startingNav = .ok m.turnover1e8 := by
  simp only [profileMetrics, bind_ok_iff, pure_eq_ok, Except.ok.injEq] at h
  obtain ⟨_, -, _, -, _, -, _, -, _, -, _, -, turnover, hturnover, rfl⟩ := h
  exact hturnover

/-- The finished primary simulation of an episode, whose events and snapshots agree. -/
theorem runPrimary_attributed {σ : Type} {sha : Sha256} {limits : Json.Limits} {pack : PackData}
    {agent : Agent σ} {config : EpisodeConfig} {episodeId : Text} {s : σ} {primary : ProfileRun σ}
    (h : runPrimary sha limits pack agent config episodeId s = .ok primary) :
    ∃ turn market, pack.market (pack.marketAliases.headD []) = .ok market ∧
      primary.totals = finalTotals primary.core ∧
      Attributed market.spec.tickSizeMicro turn primary.events primary.core := by
  obtain ⟨env, henv, hloop⟩ := runProfile_eq_ok h
  obtain ⟨start, turns, k, hstart, -, -, hreach, -, htotals⟩ := runLoop_eq_ok hloop
  obtain ⟨-, -, halias, hmarket, -⟩ := profileEnv_eq_ok henv
  refine ⟨k, env.market, ?_, htotals, hreach.attributed hstart⟩
  rw [halias]
  exact hmarket

/-- **Attribution.** The primary event stream is a complete account of the primary ledger: every
row's fees, funding, penalty and change of position are the sums over the events of its turn, and
the reported turnover is the floor of all executed notionals over the starting NAV. -/
theorem runEpisode_attributes {σ : Type} {sha : Sha256} {limits : Json.Limits} {pack : PackData}
    {agent : Agent σ} {config : EpisodeConfig} {runId episodeId : Text} {s : σ}
    {result : EpisodeResult}
    (h : runEpisode sha limits pack agent config runId episodeId s = .ok result) :
    (∀ row, result.ledgerPrimary[0]? = some row → row.turn = none) ∧
    (∀ turn previous row, result.ledgerPrimary[turn]? = some previous →
      result.ledgerPrimary[turn + 1]? = some row → row.turn = some turn ∧
      row.dFeesMicro = -bookedAt Payload.fee result.events turn ∧
      row.dFundingMicro = bookedAt Payload.fundingAmount result.events turn ∧
      row.dLiqPenaltyMicro = -bookedAt Payload.penalty result.events turn ∧
      row.qtyBase1e8 - previous.qtyBase1e8 = bookedAt Payload.signedFill result.events turn -
        bookedAt Payload.liquidatedQty result.events turn) ∧
    ∃ market, pack.market (pack.marketAliases.headD []) = .ok market ∧
      result.metrics.primary.turnover1e8 =
        ⌊((100_000_000 * (bookedTotal Payload.fillNotional result.events +
          bookedTotal (Payload.closeNotional market.spec.tickSizeMicro) result.events) : ℤ) : ℚ) /
            config.startingNavMicro⌋ := by
  obtain ⟨-, primary, stress, hprimary, -, hfinish⟩ := runEpisode_eq_ok h
  obtain ⟨drained, _, facts, invariant, bytes, pm, sm, -, hfacts, -, hpm, -, -, hmetrics, hrows, -,
    hevents, -⟩ := finishEpisode_eq_ok hfinish
  obtain ⟨last, market, hmarket, htotals, hrun⟩ := runPrimary_attributed hprimary
  have neutral := harnessDrafts_eq_ok hfacts
  have at_turn : ∀ f turn, bookedAt f result.events turn = bookedAt f primary.events turn :=
    fun f turn => hevents ▸ bookedAt_finish (fun d hd => (neutral d hd).2) rfl
  refine ⟨fun row hrow => ?_, fun turn previous row hprevious hrow => ?_, market, hmarket, ?_⟩
  · obtain ⟨_, s, -, hs, rfl⟩ := ledgerRows_getElem hrows hrow
    simp [ledgerRowOf, hrun.numbered _ _ hs]
  · obtain ⟨_, p, -, hp, rfl⟩ := ledgerRows_getElem hrows hprevious
    obtain ⟨before, r, hbefore, hr, rfl⟩ := ledgerRows_getElem hrows hrow
    obtain rfl : some p = before := by simpa [hp] using hbefore
    have booked := (hrun.steps turn p r hp hr).ledgerRow PRIMARY (pack.marketAliases.headD [])
    simp only [at_turn]
    exact ⟨by simp [ledgerRowOf, hrun.numbered _ _ hr], booked⟩
  · have total : ∀ f, (∀ p : Payload, p.IsNeutral → f p = 0) →
        bookedTotal f result.events = bookedTotal f primary.events := fun f hf =>
      hevents ▸ bookedTotal_finish hf (fun d hd => (neutral d hd).1.isNeutral) trivial
    rw [total Payload.fillNotional
        (by rintro (_ | _) <;> simp [Payload.fillNotional, Payload.IsNeutral]),
      total (Payload.closeNotional market.spec.tickSizeMicro)
        (by rintro (_ | _) <;> simp [Payload.closeNotional, Payload.IsNeutral])]
    have hturnover := (turnover1e8_eq_ok.mp (profileMetrics_turnover hpm)).2
    rw [hmetrics, hturnover, htotals, finalTotals, hrun.turnover, mul_comm]

/-- The steady episode is fully attributed. -/
theorem steadyEpisode_attributes : ∃ result, Scenario.steadyEpisode = .ok result ∧
    ∀ turn previous row, result.ledgerPrimary[turn]? = some previous →
      result.ledgerPrimary[turn + 1]? = some row →
      row.dFeesMicro = -bookedAt Payload.fee result.events turn ∧
      row.qtyBase1e8 - previous.qtyBase1e8 = bookedAt Payload.signedFill result.events turn -
        bookedAt Payload.liquidatedQty result.events turn := by
  obtain ⟨result, h⟩ := Scenario.steadyEpisode_returns
  refine ⟨result, h, fun turn previous row hprevious hrow => ?_⟩
  obtain ⟨-, fees, -, -, position⟩ := (runEpisode_attributes h).2.1 turn previous row hprevious hrow
  exact ⟨fees, position⟩

end WagmiBench.Core
