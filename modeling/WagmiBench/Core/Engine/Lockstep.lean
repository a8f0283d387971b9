import WagmiBench.Core.Engine.Replies
import WagmiBench.Lib.Raises

/-!
# Agents that answer alike

Two agents whose outcomes differ in telemetry only give episodes that differ in telemetry only: the
latency and transport of a reply, and the class of an exception. Erasing these three makes the two
runs equal, turn by turn.
-/

namespace WagmiBench.Harness

/-! ## Erasure -/

/-- The reply without its latency and transport. -/
def AgentReply.erased (reply : AgentReply) : AgentReply :=
  { reply with latencyMs := 0, transport := [] }

theorem AgentReply.erased_eq_iff {a b : AgentReply} :
    a.erased = b.erased ↔ a.body = b.body ∧ a.httpStatus = b.httpStatus := by
  simp [AgentReply.erased]

/-- Replies with the same body and status, two timeouts, or two exceptions of whatever class. -/
def AgentOutcome.Alike : AgentOutcome → AgentOutcome → Prop
  | .reply a, .reply b => a.erased = b.erased
  | .timeout, .timeout => True
  | .raised _, .raised _ => True
  | _, _ => False

/-- Agents that answer a request alike, whatever states they are in. -/
def AnswerAlike {σ τ : Type} (agent : Agent σ) (other : Agent τ) (request : Request) : Prop :=
  ∀ s t, (agent.decide s request).1.Alike (other.decide t request).1

end WagmiBench.Harness

namespace WagmiBench.Lib

/-- Computations that both raise agree. -/
theorem Agree.of_not_returns {ε α β : Type} {R : α → β → Prop} {x : Except ε α} {y : Except ε β}
    (hx : ¬ Returns x) (hy : ¬ Returns y) : Agree R x y := by
  cases x with
  | error _ => cases y with
    | error _ => trivial
    | ok b => exact hy ⟨b, rfl⟩
  | ok a => exact (hx ⟨a, rfl⟩).elim

end WagmiBench.Lib

namespace WagmiBench.Core

open WagmiBench.Lib WagmiBench.Harness WagmiBench.Spec

/-- What the detail of an `agent_error` says before the class of the exception. -/
abbrev FAILED : Text := txt "agent transport failed: "

/-- The rejection without the class of the exception behind an `agent_error`. -/
def Rejection.erased (rejection : Rejection) : Rejection :=
  if rejection.reason = .agentError then
    { rejection with detail := rejection.detail.take FAILED.length }
  else rejection

/-- The decision without telemetry. -/
def TurnDecision.erased (decision : TurnDecision) : TurnDecision :=
  { decision with
    responses := decision.responses.map AgentReply.erased
    outcome := decision.outcome.map id Rejection.erased }

/-- The payload without telemetry. -/
def Payload.erased : Payload → Payload
  | .agentResponded p => .agentResponded { p with latencyMs := 0, transport := [] }
  | .actionRejected p => .actionRejected p.erased
  | p => p

def Draft.erased (draft : Draft) : Draft := { draft with payload := draft.payload.erased }

def Event.erased (event : Event) : Event := { event with payload := event.payload.erased }

@[simp] theorem Rejection.erased_reason (r : Rejection) : r.erased.reason = r.reason := by
  unfold Rejection.erased
  split <;> rfl

theorem Event.egressCount_erased (event : Event) : event.erased.egressCount = event.egressCount := by
  rcases event with ⟨⟨_, _, _, _, payload⟩, _⟩
  cases payload <;> rfl

theorem emit_erased (events : List Event) (draft : Draft) :
    (emit events draft).map Event.erased = emit (events.map Event.erased) draft.erased := by
  simp [emit, Event.erased, Draft.erased]

theorem emitAll_erased (events : List Event) (drafts : List Draft) :
    (emitAll events drafts).map Event.erased =
      emitAll (events.map Event.erased) (drafts.map Draft.erased) := by
  induction drafts generalizing events with
  | nil => rfl
  | cons draft drafts ih =>
    simp only [emitAll, List.foldl_cons, List.map_cons] at ih ⊢
    rw [ih, emit_erased]

/-- Streams that are alike stay alike under alike drafts. -/
theorem emitAll_alike {events events' : List Event} {drafts drafts' : List Draft}
    (he : events.map Event.erased = events'.map Event.erased)
    (hd : drafts.map Draft.erased = drafts'.map Draft.erased) :
    (emitAll events drafts).map Event.erased = (emitAll events' drafts').map Event.erased := by
  rw [emitAll_erased, emitAll_erased, he, hd]

/-! ## The two attempts -/

section Attempts

variable {σ τ : Type} {sha : Sha256} {limits : Json.Limits} {agent : Agent σ} {other : Agent τ}
  {observation : Observation} {config : EpisodeConfig} {marketAliases : List Text}

/-- The retry member of the request after a failed first attempt. -/
def FirstFailure.retryInfo (failure : FirstFailure) : RetryInfo :=
  ⟨failure.reason, parseDetail failure.reason, failure.rawSha256⟩

def AttemptOutcome.erased : AttemptOutcome → AttemptOutcome
  | .decided decision => .decided decision.erased
  | .retry failure => .retry failure

theorem interpretReply_alike {a b : AgentReply} (h : a.erased = b.erased) (attempt : ℕ) :
    interpretReply limits marketAliases a attempt = interpretReply limits marketAliases b attempt := by
  obtain ⟨hbody, hstatus⟩ := AgentReply.erased_eq_iff.mp h
  rw [interpretReply, interpretReply, hbody, hstatus]

theorem requestAttempt_agree (hagent : agent.drain = none) (hother : other.drain = none)
    {attempt : ℕ} {firstFailure : Option FirstFailure} {responses responses' : List AgentReply}
    {facts : List BlockFact} {s : σ} {t : τ}
    (halike : AnswerAlike agent other
      ⟨attempt, observation, firstFailure.map FirstFailure.retryInfo⟩)
    (hresponses : responses.map AgentReply.erased = responses'.map AgentReply.erased) :
    Agree (fun a b => a.1.erased = b.1.erased ∧
        a.2.1.map AgentReply.erased = b.2.1.map AgentReply.erased ∧ a.2.2.1 = b.2.2.1)
      (requestAttempt sha limits agent observation config marketAliases attempt firstFailure
        responses facts s)
      (requestAttempt sha limits other observation config marketAliases attempt firstFailure
        responses' facts t) := by
  have answers := halike s t
  obtain ⟨outcome, s₁, hs⟩ : ∃ outcome s₁, agent.decide s ⟨attempt, observation,
      firstFailure.map FirstFailure.retryInfo⟩ = (outcome, s₁) := ⟨_, _, rfl⟩
  obtain ⟨outcome', t₁, ht⟩ : ∃ outcome t₁, other.decide t ⟨attempt, observation,
      firstFailure.map FirstFailure.retryInfo⟩ = (outcome, t₁) := ⟨_, _, rfl⟩
  rw [hs, ht] at answers
  unfold FirstFailure.retryInfo at hs ht
  simp only [requestAttempt, hs, ht, drainHarnessEvents, hagent, hother, ok_bind]
  cases outcome with
  | timeout =>
    cases outcome' with
    | timeout =>
      simp [pure_eq_ok, AttemptOutcome.erased, TurnDecision.erased, hresponses]
    | reply _ | raised _ => exact answers.elim
  | raised className =>
    cases outcome' with
    | raised className' =>
      simp [pure_eq_ok, AttemptOutcome.erased, TurnDecision.erased, hresponses, Rejection.erased]
    | reply _ | timeout => exact answers.elim
  | reply reply =>
    cases outcome' with
    | timeout | raised _ => exact answers.elim
    | reply reply' =>
      have hreply : reply.erased = reply'.erased := answers
      obtain ⟨hbody, hstatus⟩ := AgentReply.erased_eq_iff.mp hreply
      have hall : (responses ++ [reply]).map AgentReply.erased =
          (responses' ++ [reply']).map AgentReply.erased := by simp [hresponses, hreply]
      simp only [← interpretReply_alike hreply, hbody]
      refine .bind_same fun result _ => ?_
      cases result with
      | accepted action =>
        simp [pure_eq_ok, AttemptOutcome.erased, TurnDecision.erased, hresponses, hreply]
      | rejected reason =>
        by_cases hfirst : attempt = 1 ∧ config.parseFailureRetries ≠ 0
        · simp [pure_eq_ok, hfirst, AttemptOutcome.erased, hresponses, hreply]
        · simp [pure_eq_ok, hfirst, AttemptOutcome.erased, TurnDecision.erased, hresponses, hreply]

theorem requestDecision_agree (hagent : agent.drain = none) (hother : other.drain = none)
    {s : σ} {t : τ} (hfirst : AnswerAlike agent other ⟨1, observation, none⟩)
    (hsecond : ∀ failure rest, requestAttempt sha limits agent observation config marketAliases 1
      none [] [] s = .ok (.retry failure, rest) →
      AnswerAlike agent other ⟨2, observation, some failure.retryInfo⟩) :
    Agree (fun a b => a.1.erased = b.1.erased)
      (requestDecision sha limits agent observation config marketAliases s)
      (requestDecision sha limits other observation config marketAliases t) := by
  refine (@requestAttempt_agree _ _ _ _ _ _ _ _ _ hagent hother _ none _ _ _ _ _ hfirst rfl).bind ?_
  rintro ⟨first, responses, facts, s₁⟩ ⟨first', responses', _, t₁⟩ hrun - ⟨heq, hresponses, rfl⟩
  cases first with
  | decided decision =>
    cases first' with
    | decided decision' => exact AttemptOutcome.decided.inj heq
    | retry _ => cases heq
  | retry failure =>
    cases first' with
    | decided _ => cases heq
    | retry failure' =>
      obtain rfl : failure = failure' := AttemptOutcome.retry.inj heq
      refine (@requestAttempt_agree _ _ _ _ _ _ _ _ _ hagent hother _ (some failure) _ _ _ _ _
        (hsecond failure _ hrun) hresponses).bind ?_
      rintro ⟨second, _⟩ ⟨second', _⟩ - - ⟨heq, -⟩
      cases second with
      | decided decision =>
        cases second' with
        | decided decision' => exact AttemptOutcome.decided.inj heq
        | retry _ => cases heq
      | retry _ =>
        cases second' with
        | decided _ => cases heq
        | retry _ => trivial

end Attempts

/-! ## One turn -/

/-- Two states of a profile simulation that differ in telemetry only. -/
structure InStep {σ τ : Type} (a : ProfileState σ) (b : ProfileState τ) : Prop where
  core : a.core = b.core
  events : a.events.map Event.erased = b.events.map Event.erased
  decisions : a.decisions.map TurnDecision.erased = b.decisions.map TurnDecision.erased
  observations : a.observations = b.observations
  rawBlobs : a.rawBlobs = b.rawBlobs

section Turn

variable {sha : Sha256} {limits : Json.Limits} {env : ProfileEnv} {clock : TurnClock}

theorem responseDrafts_agree {attempt : ℕ} {replies replies' : List AgentReply}
    (h : replies.map AgentReply.erased = replies'.map AgentReply.erased) :
    Agree (fun a b => a.map Draft.erased = b.map Draft.erased)
      (responseDrafts sha limits clock attempt replies)
      (responseDrafts sha limits clock attempt replies') := by
  induction replies generalizing replies' attempt with
  | nil =>
    obtain rfl := List.map_eq_nil_iff.mp h.symm
    rfl
  | cons reply replies ih =>
    obtain ⟨reply', replies', rfl, hreply, hreplies⟩ := List.map_eq_cons_iff.mp h.symm
    obtain ⟨hbody, hstatus⟩ := AgentReply.erased_eq_iff.mp hreply
    rw [responseDrafts, responseDrafts, hbody]
    refine .bind_same fun usage _ => (ih hreplies.symm).bind ?_
    rintro drafts drafts' - - hdrafts
    simp [pure_eq_ok, Draft.erased, Payload.erased, hstatus, hdrafts]

theorem responseBlobs_alike {turn attempt : ℕ} {replies replies' : List AgentReply}
    (h : replies.map AgentReply.erased = replies'.map AgentReply.erased) :
    responseBlobs turn attempt replies = responseBlobs turn attempt replies' := by
  induction replies generalizing replies' attempt with
  | nil =>
    obtain rfl := List.map_eq_nil_iff.mp h.symm
    rfl
  | cons reply replies ih =>
    obtain ⟨reply', replies', rfl, hreply, hreplies⟩ := List.map_eq_cons_iff.mp h.symm
    rw [responseBlobs, responseBlobs, (AgentReply.erased_eq_iff.mp hreply).1, ih hreplies.symm]

variable {decision decision' : TurnDecision} (hd : decision.erased = decision'.erased)

include hd

theorem responses_alike : decision.responses.map AgentReply.erased =
    decision'.responses.map AgentReply.erased :=
  congrArg TurnDecision.responses hd

theorem outcome_alike :
    (∃ action, decision.outcome = .inl action ∧ decision'.outcome = .inl action) ∨
      ∃ r r', decision.outcome = .inr r ∧ decision'.outcome = .inr r' ∧ r.erased = r'.erased := by
  have h : decision.outcome.map id Rejection.erased = decision'.outcome.map id Rejection.erased :=
    congrArg TurnDecision.outcome hd
  cases hoa : decision.outcome with
  | inl action =>
    cases hob : decision'.outcome with
    | inl action' =>
      rw [hoa, hob] at h
      obtain rfl : action = action' := Sum.inl.inj h
      exact .inl ⟨action, rfl, rfl⟩
    | inr r => simp [hoa, hob] at h
  | inr r =>
    cases hob : decision'.outcome with
    | inl action => simp [hoa, hob] at h
    | inr r' =>
      rw [hoa, hob] at h
      exact .inr ⟨r, r', rfl, rfl, Sum.inr.inj h⟩

theorem recordDecision_agree {σ τ : Type} {observation : Observation} {a : ProfileState σ}
    {b : ProfileState τ} (hab : InStep a b) :
    Agree InStep (recordDecision sha limits clock observation decision a)
      (recordDecision sha limits clock observation decision' b) := by
  have hfacts : decision.harnessEvents = decision'.harnessEvents := by
    change decision.erased.harnessEvents = decision'.erased.harnessEvents
    rw [hd]
  unfold recordDecision
  refine .bind_same fun bytes _ => (responseDrafts_agree (responses_alike hd)).bind ?_
  intro drafts drafts' _ _ hdrafts
  rw [hfacts]
  refine .bind_same fun facts _ => ?_
  exact {
    core := hab.core
    events := emitAll_alike hab.events (by simp [hdrafts])
    decisions := hab.decisions
    observations := by simp [hab.observations]
    rawBlobs := by simp [hab.rawBlobs, responseBlobs_alike (responses_alike hd)] }

theorem countDecision_alike (counters : Counters) :
    (countDecision clock counters decision).1 = (countDecision clock counters decision').1 ∧
      (countDecision clock counters decision).2.erased =
        (countDecision clock counters decision').2.erased := by
  obtain ⟨action, ha, hb⟩ | ⟨r, r', ha, hb, hr⟩ := outcome_alike hd
  · simp [countDecision, ha, hb]
  · have hreason : r.reason = r'.reason := by
      rw [← Rejection.erased_reason, hr, Rejection.erased_reason]
    simp [countDecision, ha, hb, hreason, Draft.erased, Payload.erased, hr]

/-- Step lemma: decisions that are alike settle alike. -/
theorem settleTurn_alike {collectEvidence : Bool} {core : ProfileCore} {drawdownUsed : ℤ}
    {nextSeq : ℕ} :
    Agree (fun a b => a.1 = b.1 ∧ a.2.map Draft.erased = b.2.map Draft.erased)
      (settleTurn env clock collectEvidence core decision drawdownUsed nextSeq)
      (settleTurn env clock collectEvidence core decision' drawdownUsed nextSeq) := by
  obtain ⟨hcounters, hdraft⟩ := @countDecision_alike clock _ _ hd core.counters
  have hparsed : decision.parsed = decision'.parsed := by
    obtain ⟨action, ha, hb⟩ | ⟨r, r', ha, hb, -⟩ := outcome_alike hd <;>
      simp [TurnDecision.parsed, ha, hb]
  have hraw : decision.rawSha256 = decision'.rawSha256 := by
    change decision.erased.rawSha256 = decision'.erased.rawSha256
    rw [hd]
  have hopen : Agree (fun a b => a.1 = b.1 ∧ a.2.1 = b.2.1 ∧
        a.2.2.map Draft.erased = b.2.2.map Draft.erased)
      (openPhase env clock collectEvidence core.account core.counters decision drawdownUsed)
      (openPhase env clock collectEvidence core.account core.counters decision' drawdownUsed) := by
    unfold openPhase actionPhase
    rcases hc : countDecision clock core.counters decision with ⟨counters, draft⟩
    rcases hc' : countDecision clock core.counters decision' with ⟨counters', draft'⟩
    rw [hc, hc'] at hcounters hdraft
    obtain rfl : counters = counters' := hcounters
    rw [hparsed, hraw]
    refine .bind_same fun _ _ => .bind_same fun _ _ => .bind_same fun _ _ => ?_
    have hdraft : draft.erased = draft'.erased := hdraft
    simp [pure_eq_ok, hdraft]
  unfold settleTurn
  refine hopen.bind ?_
  rintro ⟨account, counters, opening⟩ ⟨_, _, opening'⟩ - - ⟨rfl, rfl, hopening⟩
  have hlength : opening.length = opening'.length := by
    rw [← List.length_map, hopening, List.length_map]
  simp only [hlength]
  refine .bind_same fun closing _ => ?_
  simp [pure_eq_ok, show opening.map Draft.erased = opening'.map Draft.erased from hopening]

end Turn

/-! ## Runs -/

/-- A request that the primary run of an episode sends the agent: the first of a turn, or the one
that follows a failed first reply. -/
def Requested {σ : Type} (sha : Sha256) (limits : Json.Limits) (pack : PackData)
    (config : EpisodeConfig) (episodeId : Text) (agent : Agent σ) (s : σ) (request : Request) : Prop :=
  ∃ env start bars clock state drawdownUsed turnoverUsed observation,
    profileEnv pack config PRIMARY = .ok env ∧ startState env s = .ok start ∧
    pack.barsTotal = .ok bars ∧ clock.turn < bars ∧
    TurnReach sha limits env episodeId true (.agent agent) start clock.turn state ∧
    state.stopped = false ∧ turnClock env clock.turn = .ok clock ∧
    drawdown1e8 state.core.snapshots = .ok drawdownUsed ∧
    turnover1e8 state.core.account.turnoverNotionalMicro env.config.startingNavMicro =
      .ok turnoverUsed ∧
    observeTurn env episodeId clock state.core drawdownUsed turnoverUsed = .ok observation ∧
    (request = ⟨1, observation, none⟩ ∨
      ∃ failure rest, requestAttempt sha limits agent observation env.config env.pack.marketAliases 1
          none [] [] state.agent = .ok (.retry failure, rest) ∧
        request = ⟨2, observation, some failure.retryInfo⟩)

section Runs

variable {σ τ : Type} {sha : Sha256} {limits : Json.Limits} {env : ProfileEnv} {episodeId : Text}
  {collectEvidence : Bool}

/-- Asking agents that answer alike what the turn observes. -/
theorem decideTurn_agent_agree {agent : Agent σ} {other : Agent τ} (hagent : agent.drain = none)
    (hother : other.drain = none) {clock : TurnClock} {drawdownUsed turnoverUsed : ℤ}
    {a : ProfileState σ} {b : ProfileState τ} (hab : InStep a b)
    (halike : ∀ observation,
      observeTurn env episodeId clock a.core drawdownUsed turnoverUsed = .ok observation →
      observation.toJson.Encodable →
      AnswerAlike agent other ⟨1, observation, none⟩ ∧
        ∀ failure rest, requestAttempt sha limits agent observation env.config
            env.pack.marketAliases 1 none [] [] a.agent = .ok (.retry failure, rest) →
          AnswerAlike agent other ⟨2, observation, some failure.retryInfo⟩) :
    Agree (fun x y => x.1.erased = y.1.erased ∧ InStep x.2 y.2)
      (decideTurn sha limits env episodeId true (.agent agent) clock drawdownUsed turnoverUsed a)
      (decideTurn sha limits env episodeId true (.agent other) clock drawdownUsed turnoverUsed b) := by
  by_cases hencodable : ∀ observation,
      observeTurn env episodeId clock a.core drawdownUsed turnoverUsed = .ok observation →
      observation.toJson.Encodable
  · simp only [decideTurn, if_true, ← hab.core]
    refine .bind_same fun observation hobserve => ?_
    obtain ⟨hfirst, hsecond⟩ := halike observation hobserve (hencodable observation hobserve)
    refine (requestDecision_agree hagent hother hfirst hsecond).bind ?_
    rintro ⟨decision, s⟩ ⟨decision', t⟩ - - hd
    have hd : decision.erased = decision'.erased := hd
    have hasked : InStep { a with agent := s, decisions := a.decisions ++ [decision] }
        { b with core := a.core, agent := t, decisions := b.decisions ++ [decision'] } :=
      ⟨rfl, hab.events, by simp [hab.decisions, hd], hab.observations, hab.rawBlobs⟩
    refine (recordDecision_agree hd hasked).bind ?_
    intro x y _ _ hxy
    exact ⟨hd, hxy⟩
  · -- an observation without an encoding ends both runs, once the turn is recorded
    push Not at hencodable
    obtain ⟨observation, hobserve, hunencodable⟩ := hencodable
    have ends : ∀ {ρ : Type} {answering : Agent ρ} {c : ProfileState ρ}, c.core = a.core →
        ¬ Returns (decideTurn sha limits env episodeId true (.agent answering) clock drawdownUsed
          turnoverUsed c) := by
      rintro ρ answering c hc ⟨⟨decision, state⟩, h⟩
      obtain ⟨observation', _, hobserve', -, ⟨-, hrecord⟩ | ⟨hfalse, -⟩⟩ := decideTurn_agent_eq_ok h
      · rw [hc, hobserve] at hobserve'
        obtain rfl := Except.ok.inj hobserve'
        obtain ⟨bytes, _, _, hbytes, -, -, -⟩ := recordDecision_eq_ok hrecord
        exact hunencodable (returns_canonicalBytes.mp ⟨bytes, hbytes⟩)
      · cases hfalse
    exact .of_not_returns (ends rfl) (ends hab.core.symm)

/-- Taking the decision of a turn from traces that are alike. -/
theorem decideTurn_replay_agree {decisions decisions' : List TurnDecision}
    (hd : decisions.map TurnDecision.erased = decisions'.map TurnDecision.erased)
    {clock : TurnClock} {drawdownUsed turnoverUsed : ℤ} {a : ProfileState σ} {b : ProfileState τ}
    (hab : InStep a b) :
    Agree (fun x y => x.1.erased = y.1.erased ∧ InStep x.2 y.2)
      (decideTurn sha limits env episodeId collectEvidence (.replay decisions) clock drawdownUsed
        turnoverUsed a)
      (decideTurn sha limits env episodeId collectEvidence (.replay decisions') clock drawdownUsed
        turnoverUsed b) := by
  have h := congrArg (fun ds => ds[clock.turn]?) hd
  simp only [List.getElem?_map] at h
  simp only [decideTurn]
  cases ha : decisions[clock.turn]? with
  | none =>
    rw [ha, Option.map_none, eq_comm, Option.map_eq_none_iff] at h
    rw [h]
    trivial
  | some decision =>
    rw [ha, Option.map_some, eq_comm, Option.map_eq_some_iff] at h
    obtain ⟨decision', hb, heq⟩ := h
    rw [hb]
    exact ⟨heq.symm, hab⟩

/-- Step lemma: decisions that are alike take states in step to states in step. -/
theorem turnBody_inStep {source : DecisionSource σ} {other : DecisionSource τ} {turn : ℕ}
    {a : ProfileState σ} {b : ProfileState τ} (hab : InStep a b)
    (hdecide : ∀ clock drawdownUsed turnoverUsed, turnClock env turn = .ok clock →
      drawdown1e8 a.core.snapshots = .ok drawdownUsed →
      turnover1e8 a.core.account.turnoverNotionalMicro env.config.startingNavMicro =
        .ok turnoverUsed →
      Agree (fun x y => x.1.erased = y.1.erased ∧ InStep x.2 y.2)
        (decideTurn sha limits env episodeId collectEvidence source clock drawdownUsed turnoverUsed a)
        (decideTurn sha limits env episodeId collectEvidence other clock drawdownUsed turnoverUsed
          b)) :
    Agree InStep (turnBody sha limits env episodeId collectEvidence source turn a)
      (turnBody sha limits env episodeId collectEvidence other turn b) := by
  unfold turnBody
  rw [← hab.core]
  refine .bind_same fun clock hclock => .bind_same fun drawdown hdrawdown =>
    .bind_same fun turnover hturnover => (hdecide clock drawdown turnover hclock hdrawdown
      hturnover).bind ?_
  rintro ⟨decision, x⟩ ⟨decision', y⟩ - - ⟨hd, hxy⟩
  have hxy : InStep x y := hxy
  have hlength : x.events.length = y.events.length := by
    rw [← List.length_map, hxy.events, List.length_map]
  simp only [← hxy.core, ← hlength]
  refine (settleTurn_alike hd).bind ?_
  rintro ⟨core, drafts⟩ ⟨_, drafts'⟩ - - ⟨rfl, hdrafts⟩
  refine ⟨rfl, ?_, hxy.decisions, hxy.observations, hxy.rawBlobs⟩
  cases collectEvidence with
  | true => exact emitAll_alike hxy.events hdrafts
  | false => exact hxy.events

/-- Run lemma: loops over sources whose decisions are alike stay in step. -/
theorem runLoop_inStep {source : DecisionSource σ} {other : DecisionSource τ} {s : σ} {t : τ}
    (hdecide : ∀ start bars turn state state' clock drawdownUsed turnoverUsed,
      startState env s = .ok start → env.pack.barsTotal = .ok bars → turn < bars →
      TurnReach sha limits env episodeId collectEvidence source start turn state →
      state.stopped = false → InStep state state' → turnClock env turn = .ok clock →
      drawdown1e8 state.core.snapshots = .ok drawdownUsed →
      turnover1e8 state.core.account.turnoverNotionalMicro env.config.startingNavMicro =
        .ok turnoverUsed →
      Agree (fun x y => x.1.erased = y.1.erased ∧ InStep x.2 y.2)
        (decideTurn sha limits env episodeId collectEvidence source clock drawdownUsed turnoverUsed
          state)
        (decideTurn sha limits env episodeId collectEvidence other clock drawdownUsed turnoverUsed
          state')) :
    Agree (fun a b => InStep a.toProfileState b.toProfileState ∧ a.totals = b.totals)
      (runLoop sha limits env episodeId collectEvidence source s)
      (runLoop sha limits env episodeId collectEvidence other t) := by
  have hstart : Agree InStep (startState env s) (startState env t) := by
    unfold startState
    exact .bind_same fun _ _ => .bind_same fun _ _ => ⟨rfl, rfl, rfl, rfl, rfl⟩
  unfold runLoop
  refine hstart.bind fun start start' hs _ h0 => .bind_same fun bars hbars => ?_
  refine (Agree.loop (R := fun _ => InStep) h0 (fun _ a b hab => ?_) ?_).bind ?_
  · exact congrArg ProfileCore.terminal hab.core
  · intro turn a b hturn ha _ hab hstop
    refine turnBody_inStep hab fun clock drawdown turnover hclock hdrawdown hturnover =>
      hdecide start bars turn a b clock drawdown turnover hs hbars hturn ha ?_ hab hclock hdrawdown
        hturnover
    rw [ProfileState.stopped, hab.core]
    exact hstop
  · rintro a b - - ⟨_, hab⟩
    exact ⟨hab, congrArg finalTotals hab.core⟩

end Runs

/-! ## Episodes -/

/-- The result without telemetry. -/
def EpisodeResult.erased (result : EpisodeResult) : EpisodeResult :=
  { result with events := result.events.map Event.erased }

section Episode

variable {σ τ : Type} {sha : Sha256} {limits : Json.Limits} {pack : PackData} {agent : Agent σ}
  {other : Agent τ} {config : EpisodeConfig} {runId episodeId : Text}

theorem profileInvariant_inStep {a : ProfileState σ} {b : ProfileState τ} (hab : InStep a b) :
    profileInvariant a = profileInvariant b := by
  have hcounts : a.events.filterMap Event.egressCount = b.events.filterMap Event.egressCount := by
    have h := congrArg (List.filterMap Event.egressCount) hab.events
    simpa only [List.filterMap_map, Function.comp_def, Event.egressCount_erased] using h
  unfold profileInvariant
  rw [hab.core, hcounts]

theorem finishEpisode_inStep (hagent : agent.drain = none) (hother : other.drain = none)
    {primary : ProfileRun σ} {primary' : ProfileRun τ} {stress stress' : ProfileRun Unit}
    (hp : InStep primary.toProfileState primary'.toProfileState)
    (hpt : primary.totals = primary'.totals)
    (hs : InStep stress.toProfileState stress'.toProfileState)
    (hst : stress.totals = stress'.totals) :
    Agree (fun a b => a.erased = b.erased)
      (finishEpisode sha pack agent config runId episodeId primary stress)
      (finishEpisode sha pack other config runId episodeId primary' stress') := by
  unfold finishEpisode
  simp only [drainHarnessEvents, hagent, hother, ok_bind, ← hp.core, ← hs.core, ← hpt, ← hst,
    ← hp.observations, ← hp.rawBlobs]
  refine .bind_same fun facts _ => ?_
  have hevents := @emitAll_alike _ _ facts _ hp.events rfl
  rw [profileInvariant_inStep (a := { primary.toProfileState with
    events := emitAll primary.events facts }) (b := ⟨primary.core, emitAll primary'.events facts,
      primary'.decisions, primary.observations, primary.rawBlobs, primary'.agent⟩)
    ⟨rfl, hevents, hp.decisions, rfl, rfl⟩]
  refine .bind_same fun invariant _ => .bind_same fun pm _ => .bind_same fun sm _ =>
    .bind_same fun bytes _ => .bind_same fun lp _ => .bind_same fun ls _ => ?_
  simp [pure_eq_ok, EpisodeResult.erased, emit_erased, hevents]

/-- **Alike agents, alike episodes.** If two agents without a harness channel answer alike every
request that the first one's run sends and that has an encoding, their episodes raise together or
return results that differ in telemetry only. -/
theorem runEpisode_erased (hagent : agent.drain = none) (hother : other.drain = none) {s : σ} {t : τ}
    (halike : ∀ request, Requested sha limits pack config episodeId agent s request →
      request.observation.toJson.Encodable → AnswerAlike agent other request) :
    Agree (fun a b => a.erased = b.erased)
      (runEpisode sha limits pack agent config runId episodeId s)
      (runEpisode sha limits pack other config runId episodeId t) := by
  have hprimary : Agree (fun a b => InStep a.toProfileState b.toProfileState ∧ a.totals = b.totals)
      (runPrimary sha limits pack agent config episodeId s)
      (runPrimary sha limits pack other config episodeId t) := by
    refine .bind_same fun env henv => runLoop_inStep ?_
    intro start bars turn a b clock drawdown turnover hs hbars hturn ha hstop hab hclock hdrawdown
      hturnover
    refine decideTurn_agent_agree hagent hother hab fun observation hobserve hencodable => ?_
    obtain ⟨rfl, rfl, -, -, -⟩ := profileEnv_eq_ok henv
    obtain ⟨-, rfl, -, -⟩ := turnClock_eq_ok hclock
    have asked : ∀ request, _ → Requested sha limits env.pack env.config episodeId agent s request :=
      fun request hrequest => ⟨env, start, bars, clock, a, drawdown, turnover, observation, henv, hs,
        hbars, hturn, ha, hstop, hclock, hdrawdown, hturnover, hobserve, hrequest⟩
    exact ⟨halike _ (asked _ (.inl rfl)) hencodable, fun failure rest hretry =>
      halike _ (asked _ (.inr ⟨failure, rest, hretry, rfl⟩)) hencodable⟩
  unfold runEpisode
  refine .bind_same fun market _ => .bind_same fun _ _ => .bind_same fun _ _ => hprimary.bind ?_
  rintro primary primary' - - ⟨hp, hpt⟩
  have hstress : Agree (fun a b => InStep a.toProfileState b.toProfileState ∧ a.totals = b.totals)
      (runStress sha limits pack config episodeId primary.decisions)
      (runStress sha limits pack config episodeId primary'.decisions) :=
    .bind_same fun env _ => runLoop_inStep fun _ _ _ _ _ _ _ _ _ _ _ _ _ hab _ _ _ =>
      decideTurn_replay_agree hp.decisions hab
  refine hstress.bind ?_
  rintro stress stress' - - ⟨hs, hst⟩
  exact finishEpisode_inStep hagent hother hp hpt hs hst

end Episode

end WagmiBench.Core
