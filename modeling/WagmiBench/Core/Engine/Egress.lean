import WagmiBench.Core.Engine.Attribution
import WagmiBench.Core.Engine.Coalesce
import WagmiBench.Core.Engine.Drafts

/-!
# The egress count of a run

Facts are drained after each attempt, coalesced into the events of their turn, and drained once more
after the last one. Where the agent's state tells what it has handed over, state and stream agree
whenever a run enters a turn, and `egress_blocked_count` is all that was handed over.
-/

namespace WagmiBench.Core

open WagmiBench.Lib WagmiBench.Harness WagmiBench.Spec

/-! ## What the stream counts -/

/-- What an event adds to `egress_blocked_count`. -/
def Payload.egress : Payload → ℤ
  | .egressBlocked fact => fact.count
  | _ => 0

theorem sum_egressCount (events : List Event) :
    (events.filterMap Event.egressCount).sum = bookedTotal Payload.egress events := by
  induction events with
  | nil => rfl
  | cons e events ih =>
    have head : bookedTotal Payload.egress (e :: events) =
        e.payload.egress + bookedTotal Payload.egress events := by
      simp [bookedTotal]
    rw [head, ← ih]
    cases hp : e.payload <;> simp [Event.egressCount, Payload.egress, hp]

/-- The sum of `_profile_invariant`, where no check fails. -/
theorem foldlM_addEgress {counts : List ℤ} {total result : ℤ}
    (h : counts.foldlM addEgress total = .ok result) : result = total + counts.sum := by
  induction counts generalizing total with
  | nil =>
    obtain rfl := Except.ok.inj h
    simp
  | cons count counts ih =>
    rw [List.foldlM_cons, bind_ok_iff] at h
    obtain ⟨next, hnext, h⟩ := h
    simp only [addEgress, bind_ok_iff, require_eq_ok, pure_eq_ok, Except.ok.injEq] at hnext
    obtain ⟨-, -, -, -, rfl⟩ := hnext
    rw [ih h, List.sum_cons, add_assoc]

theorem profileInvariant_egress {σ : Type} {run : ProfileState σ} {invariant : ProfileInvariant}
    (h : profileInvariant run = .ok invariant) :
    invariant.egressBlockedCount = bookedTotal Payload.egress run.events := by
  simp only [profileInvariant, bind_ok_iff, pure_eq_ok, Except.ok.injEq] at h
  obtain ⟨count, hcount, rfl⟩ := h
  rw [← sum_egressCount]
  simpa using foldlM_addEgress hcount

/-- Drafts that report no egress. -/
theorem bookedSum_egress_eq_zero {drafts : List Draft} (h : ∀ d ∈ drafts, d.payload.egress = 0) :
    bookedSum Payload.egress drafts = 0 :=
  List.sum_eq_zero fun n hn => by
    obtain ⟨d, hd, rfl⟩ := List.mem_map.mp hn
    exact h d hd

/-- The drafts of drained facts count what was drained. -/
theorem harnessDrafts_egress {drained : List BlockFact} {ts : ℤ} {turn barIndex : Option ℕ}
    {drafts : List Draft} (hchecked : ∀ fact ∈ drained, fact.Checked)
    (h : harnessDrafts drained ts turn barIndex = .ok drafts) :
    bookedSum Payload.egress drafts = blockedCount drained := by
  simp only [harnessDrafts, bind_ok_iff, pure_eq_ok, Except.ok.injEq] at h
  obtain ⟨facts, hfacts, rfl⟩ := h
  rw [← (coalesceHarnessEvents_totals hchecked hfacts).2, bookedSum, blockedCount, List.map_map]
  rfl

/-! ## Turns settle without egress -/

section Phases

variable {env : ProfileEnv} {clock : TurnClock} {account after : Account} {drafts : List Draft}
  {collectEvidence : Bool}

theorem Payload.IsDecision.egress {p : Payload} (h : p.IsDecision) : p.egress = 0 := by
  cases p <;> first | rfl | exact h.elim

theorem Payload.IsOrder.egress {p : Payload} (h : p.IsOrder) : p.egress = 0 := by
  cases p <;> first | rfl | exact h.elim

theorem Payload.IsClosing.egress {p : Payload} (h : p.IsClosing) : p.egress = 0 := by
  cases p <;> first | rfl | exact h.elim

theorem settleFunding_egress {ts : ℤ} {row : FundingRow} {draft : Draft}
    (h : settleFunding env clock ts row account = .ok (after, draft)) :
    draft.payload.egress = 0 := by
  obtain ⟨rate, indexPx, flow, -, rfl⟩ := settleFunding_eq_ok h
  rfl

theorem holdingFunding_egress {rows : List FundingRow}
    (h : holdingFunding env clock rows account = .ok (after, drafts)) :
    ∀ d ∈ drafts, d.payload.egress = 0 := by
  induction rows generalizing account drafts with
  | nil =>
    obtain ⟨-, rfl⟩ := Prod.mk.inj (Except.ok.inj h)
    simp
  | cons row rows ih =>
    rcases holdingFunding_cons_eq_ok h with ⟨next, draft, rest, hsettle, hrest, rfl⟩ | hrest
    · exact List.forall_mem_cons.mpr ⟨settleFunding_egress hsettle, ih hrest⟩
    · exact ih hrest

theorem coincidentFunding_egress (h : coincidentFunding env clock account = .ok (after, drafts)) :
    ∀ d ∈ drafts, d.payload.egress = 0 := by
  obtain ⟨-, -, rfl⟩ | ⟨row, draft, -, hsettle, rfl⟩ := coincidentFunding_eq_ok h
  · simp
  · simpa using settleFunding_egress hsettle

theorem settleTurn_egress {core core' : ProfileCore} {decision : TurnDecision} {drawdownUsed : ℤ}
    {nextSeq : ℕ}
    (h : settleTurn env clock collectEvidence core decision drawdownUsed nextSeq =
      .ok (core', drafts)) : bookedSum Payload.egress drafts = 0 := by
  obtain ⟨account, counters, opening, closing, hopen, hclose, rfl⟩ := settleTurn_eq_ok h
  obtain ⟨funded, traded, coincident, orders, inside, hcoincident, haction, hinside, rfl⟩ :=
    openPhase_eq_ok hopen
  refine bookedSum_egress_eq_zero fun d hd => ?_
  simp only [List.mem_append, List.mem_cons] at hd
  rcases hd with (((rfl | hd) | hd) | hd) | hd
  · exact (countDecision_draft _ _).1.egress
  · exact coincidentFunding_egress hcoincident d hd
  · exact (actionPhase_drafts haction d hd).1.egress
  · exact holdingFunding_egress hinside d hd
  · exact (closePhase_drafts hclose d hd).1.egress

end Phases

/-! ## Metered agents -/

section Metered

variable {σ : Type} {sha : Sha256} {limits : Json.Limits} {agent : Agent σ}
  {Moves : σ → ℤ → σ → Prop}

/-- `Moves s n s'`: between `s` and `s'` the agent has handed over facts that count `n`. -/
structure Metered (agent : Agent σ) (Moves : σ → ℤ → σ → Prop) : Prop where
  refl : ∀ s, Moves s 0 s
  trans : ∀ {s₁ s₂ s₃ m n}, Moves s₁ m s₂ → Moves s₂ n s₃ → Moves s₁ (m + n) s₃
  decide : ∀ s request, Moves s 0 (agent.decide s request).2
  drain : ∀ s facts s', drainHarnessEvents agent s = .ok (facts, s') →
    Moves s (blockedCount facts) s'

/-- One attempt hands over what it adds to the facts of the decision. -/
theorem requestAttempt_metered {observation : Observation} {config : EpisodeConfig}
    {marketAliases : List Text} {attempt : ℕ} {failure : Option FirstFailure}
    {responses responses' : List AgentReply} {facts facts' : List BlockFact} {s s' : σ}
    {outcome : AttemptOutcome} (hmeter : Metered agent Moves)
    (hchecked : ∀ fact ∈ facts, fact.Checked)
    (h : requestAttempt sha limits agent observation config marketAliases attempt failure responses
      facts s = .ok (outcome, responses', facts', s')) :
    Moves s (blockedCount facts' - blockedCount facts) s' ∧ (∀ fact ∈ facts', fact.Checked) ∧
      ∀ decision, outcome = .decided decision → decision.harnessEvents = facts' := by
  have drained : ∀ {request added s₁},
      drainHarnessEvents agent (agent.decide s request).2 = .ok (added, s₁) →
      Moves s (blockedCount (facts ++ added) - blockedCount facts) s₁ ∧
        ∀ fact ∈ facts ++ added, fact.Checked := fun {request added s₁} hdrain => by
    have hmoved := hmeter.trans (hmeter.decide s request) (hmeter.drain _ _ _ hdrain)
    refine ⟨by simpa using hmoved, fun fact hfact => ?_⟩
    rcases List.mem_append.mp hfact with hfact | hfact
    · exact hchecked fact hfact
    · exact drainHarnessEvents_checked hdrain fact hfact
  simp only [requestAttempt] at h
  split at h
  · simp only [bind_ok_iff, pure_eq_ok, Except.ok.injEq, Prod.mk.injEq] at h
    obtain ⟨⟨added, s₁⟩, hdrain, rfl, -, rfl, rfl⟩ := h
    refine ⟨(drained hdrain).1, (drained hdrain).2, ?_⟩
    rintro _ ⟨⟩
    rfl
  · simp only [bind_ok_iff, pure_eq_ok, Except.ok.injEq, Prod.mk.injEq] at h
    obtain ⟨⟨added, s₁⟩, hdrain, rfl, -, rfl, rfl⟩ := h
    refine ⟨(drained hdrain).1, (drained hdrain).2, ?_⟩
    rintro _ ⟨⟩
    rfl
  · simp only [bind_ok_iff] at h
    obtain ⟨⟨added, s₁⟩, hdrain, result, -, h⟩ := h
    have hfacts := drained hdrain
    cases result with
    | accepted action =>
      simp only [pure_eq_ok, Except.ok.injEq, Prod.mk.injEq] at h
      obtain ⟨rfl, -, rfl, rfl⟩ := h
      refine ⟨hfacts.1, hfacts.2, ?_⟩
      rintro _ ⟨⟩
      rfl
    | rejected reason =>
      dsimp only at h
      split_ifs at h
      · simp only [pure_eq_ok, Except.ok.injEq, Prod.mk.injEq] at h
        obtain ⟨rfl, -, rfl, rfl⟩ := h
        exact ⟨hfacts.1, hfacts.2, nofun⟩
      all_goals
        simp only [pure_eq_ok, Except.ok.injEq, Prod.mk.injEq] at h
        obtain ⟨rfl, -, rfl, rfl⟩ := h
        refine ⟨hfacts.1, hfacts.2, ?_⟩
        rintro _ ⟨⟩
        rfl

/-- Asking for a decision hands over the facts it carries, over both attempts. -/
theorem requestDecision_metered {observation : Observation} {config : EpisodeConfig}
    {marketAliases : List Text} {s s' : σ} {decision : TurnDecision} (hmeter : Metered agent Moves)
    (h : requestDecision sha limits agent observation config marketAliases s =
      .ok (decision, s')) :
    Moves s (blockedCount decision.harnessEvents) s' ∧
      ∀ fact ∈ decision.harnessEvents, fact.Checked := by
  simp only [requestDecision, bind_ok_iff] at h
  obtain ⟨⟨first, responses, facts, s₁⟩, hfirst, h⟩ := h
  obtain ⟨hmoves, hchecked, hdecided⟩ := requestAttempt_metered hmeter (by simp) hfirst
  rw [blockedCount_nil, sub_zero] at hmoves
  cases first with
  | decided decision' =>
    simp only [pure_eq_ok, Except.ok.injEq, Prod.mk.injEq] at h
    obtain ⟨rfl, rfl⟩ := h
    rw [hdecided _ rfl]
    exact ⟨hmoves, hchecked⟩
  | retry failure =>
    simp only [bind_ok_iff] at h
    obtain ⟨⟨second, responses', facts', s₂⟩, hsecond, h⟩ := h
    obtain ⟨hmoves', hchecked', hdecided'⟩ := requestAttempt_metered hmeter hchecked hsecond
    cases second with
    | decided decision' =>
      simp only [pure_eq_ok, Except.ok.injEq, Prod.mk.injEq] at h
      obtain ⟨rfl, rfl⟩ := h
      rw [hdecided' _ rfl]
      exact ⟨by simpa using hmeter.trans hmoves hmoves', hchecked'⟩
    | retry _ => cases h

end Metered

/-! ## Runs -/

section Runs

variable {σ : Type} {sha : Sha256} {limits : Json.Limits} {env : ProfileEnv} {episodeId : Text}
  {agent : Agent σ} {Moves : σ → ℤ → σ → Prop} {start state state' : ProfileState σ}

/-- The stream counts what the agent has handed over since it was in `s`. -/
def Accounted (Moves : σ → ℤ → σ → Prop) (s : σ) (state : ProfileState σ) : Prop :=
  Moves s (bookedTotal Payload.egress state.events) state.agent

theorem responseDrafts_egress {clock : TurnClock} {attempt : ℕ} {replies : List AgentReply}
    {drafts : List Draft} (h : responseDrafts sha limits clock attempt replies = .ok drafts) :
    bookedSum Payload.egress drafts = 0 := by
  induction replies generalizing attempt drafts with
  | nil =>
    obtain rfl := Except.ok.inj h
    rfl
  | cons reply replies ih =>
    simp only [responseDrafts, bind_ok_iff, pure_eq_ok, Except.ok.injEq] at h
    obtain ⟨usage, -, rest, hrest, rfl⟩ := h
    rw [bookedSum_cons, ih hrest]
    rfl

/-- Step lemma: a turn emits what its attempts drained. -/
theorem turnBody_accounted {s : σ} (hmeter : Metered agent Moves) {turn : ℕ}
    (h : turnBody sha limits env episodeId true (.agent agent) turn state = .ok state')
    (hs : Accounted Moves s state) : Accounted Moves s state' := by
  obtain ⟨clock, drawdown, turnover, decision, asked, drafts, -, -, -, hdec, hsettle, hstate⟩ :=
    turnBody_eq_ok h
  obtain ⟨observation, last, -, hrequest, ⟨-, hrecord⟩ | ⟨hfalse, -⟩⟩ := decideTurn_agent_eq_ok hdec
  · obtain ⟨hmoves, hchecked⟩ := requestDecision_metered hmeter hrequest
    obtain ⟨bytes, responses, facts, -, hresponses, hfacts, rfl⟩ := recordDecision_eq_ok hrecord
    have hcount : bookedTotal Payload.egress state'.events =
        bookedTotal Payload.egress state.events + blockedCount decision.harnessEvents := by
      rw [hstate]
      simp only [if_true, bookedTotal_emitAll, bookedSum_append, bookedSum_cons,
        responseDrafts_egress hresponses, harnessDrafts_egress hchecked hfacts,
        settleTurn_egress hsettle, Payload.egress]
      ring
    rw [Accounted, hcount, hstate]
    exact hmeter.trans hs hmoves
  · cases hfalse

/-- Run lemma: the stream counts what was handed over, in every state the turn loop reaches. -/
theorem TurnReach.accounted {s : σ} (hmeter : Metered agent Moves)
    (hstart : startState env s = .ok start) {turn : ℕ}
    (h : TurnReach sha limits env episodeId true (.agent agent) start turn state) :
    Accounted Moves s state := by
  refine Reach.invariant (I := fun _ st => Accounted Moves s st) ?_
    (fun _ _ _ _ hs _ hb => turnBody_accounted hmeter hb hs) h
  obtain ⟨ts, first, -, -, rfl⟩ := startState_eq_ok hstart
  exact hmeter.refl s

/-- **The egress count of a run.** It is what the agent handed over, after every attempt of every
turn and in the drain after the last one. -/
theorem runEpisode_egress {pack : PackData} {config : EpisodeConfig} {runId : Text} {s : σ}
    {result : EpisodeResult} (hmeter : Metered agent Moves)
    (h : runEpisode sha limits pack agent config runId episodeId s = .ok result) :
    ∃ primary facts last, runPrimary sha limits pack agent config episodeId s = .ok primary ∧
      drainHarnessEvents agent primary.agent = .ok (facts, last) ∧
      Moves s result.metrics.invariant.egressBlockedCount last := by
  obtain ⟨-, primary, stress, hprimary, -, hfinish⟩ := runEpisode_eq_ok h
  obtain ⟨facts, last, drafts, invariant, bytes, pm, sm, hdrain, hdrafts, hinvariant, -, -, -,
    hmetrics, -⟩ := finishEpisode_eq_ok hfinish
  obtain ⟨env, -, hloop⟩ := runProfile_eq_ok hprimary
  obtain ⟨start, turns, k, hstart, -, -, hreach, -, -⟩ := runLoop_eq_ok hloop
  have hrun : Moves s (bookedTotal Payload.egress primary.events) primary.agent :=
    hreach.accounted hmeter hstart
  refine ⟨primary, facts, last, hprimary, hdrain, ?_⟩
  rw [hmetrics, profileInvariant_egress hinvariant, bookedTotal_emitAll,
    harnessDrafts_egress (drainHarnessEvents_checked hdrain) hdrafts]
  exact hmeter.trans hrun (hmeter.drain _ _ _ hdrain)

end Runs

end WagmiBench.Core
