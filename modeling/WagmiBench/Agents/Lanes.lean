import WagmiBench.Agents.Requests

/-!
# Two lanes for one policy

A policy hosted in process and the same policy behind the HTTP server. The in-process agent lets every
exception but `InvalidProviderAction` through, which the engine records as `agent_error` without a
retry; the server turns an `AgentContractError` into a response with status 400, which the engine
records as `schema_invalid` and answers with a second request. This module says when the two lanes
give one episode.
-/

namespace WagmiBench.Agents

open WagmiBench.Lib WagmiBench.Core WagmiBench.Spec WagmiBench.Harness

section Lanes

variable {sha : Sha256} {limits : Json.Limits} {policy : DecisionPolicy}

/-! ## One exchange -/

theorem plainHooks_faithful : plainHooks.Faithful := fun members h => by
  simp [plainHooks, Json.dictOfPairs_of_nodup h]

theorem decideBytes_normalize (v : Json) : decideBytes policy v.normalize = decideBytes policy v := by
  rw [decideBytes, decideBytes, policy.order_free]

theorem decideBytes_length {v : Json} {body : Bytes} (h : decideBytes policy v = .ok body) :
    body.length ≤ MAX_ACTION_BYTES := by
  simp only [decideBytes, bind_ok_iff, require_eq_ok, pure_eq_ok, Except.ok.injEq] at h
  obtain ⟨_, -, _, -, -, hlength, rfl⟩ := h
  exact hlength

theorem canonicalJsonBytes_json_error {v : Json} {e : PolicyError}
    (h : canonicalJsonBytes (.json v) = .error e) : e = .contract := by
  simp only [canonicalJsonBytes] at h
  split at h
  · split at h
    · cases h
    · exact (Except.error.inj h).symm
  · exact (Except.error.inj h).symm

theorem invalidProviderPayload_error {evidence : InvalidActionEvidence} {e : PolicyError}
    (h : invalidProviderPayload sha evidence = .error e) : e = .contract := by
  unfold invalidProviderPayload at h
  obtain h | ⟨body, -, h⟩ := bind_error_iff.mp h
  · exact canonicalJsonBytes_json_error h
  split at h
  · cases h
  obtain h | ⟨body, -, h⟩ := bind_error_iff.mp h
  · exact canonicalJsonBytes_json_error h
  obtain h | ⟨_, -, h⟩ := bind_error_iff.mp h
  · unfold require at h
    split at h
    · cases h
    · exact (Except.error.inj h).symm
  · cases h

/-- The server reads a plain request as the mapping the runner encoded. -/
theorem decodeRequest_requestJson {request : Request} {raw : Bytes} {n : ℕ}
    (hraw : canonicalBytes (requestJson request) = .ok raw)
    (hplain : Json.Plain n (requestJson request)) (hn : n ≤ 16) :
    decodeRequest limits raw = .ok (requestJson request).normalize := by
  obtain ⟨t, ht, hread⟩ := Json.read_canonical plainHooks_faithful (canonicalBytes_eq_ok.mp hraw)
    hplain (hn.trans limits.depth_ge)
  obtain ⟨members, hmembers⟩ : ∃ members, (requestJson request).normalize = .obj members :=
    ⟨_, by rw [requestJson, Json.normalize]⟩
  simp only [decodeRequest, ht, hread, hmembers]

/-- The answer of the server to bytes that carry a mapping. -/
theorem doPost_of_read {raw : Bytes} {v : Json} (hlength : raw.length ≤ MAX_REQUEST_BYTES)
    (hread : decodeRequest limits raw = .ok v) :
    doPost sha limits policy raw = match decideBytes policy v with
      | .ok body => some (200, body)
      | .error (.invalidAction evidence) =>
        match invalidProviderPayload sha evidence with
        | .ok body => some (400, body)
        | .error _ => none
      | .error .contract => some (400, errorBody "invalid_contract")
      | .error .provider => some (503, errorBody "decision_unavailable")
      | .error _ => some (500, errorBody "decision_failed") := by
  cases hdecide : decideBytes policy v with
  | ok _ => simp only [doPost, if_neg (not_lt.mpr hlength), hread, ok_bind, hdecide]
  | error e =>
    cases e with
    | invalidAction evidence =>
      cases hpayload : invalidProviderPayload sha evidence <;>
        simp only [doPost, if_neg (not_lt.mpr hlength), hread, ok_bind, hdecide, hpayload]
    | _ => simp only [doPost, if_neg (not_lt.mpr hlength), hread, ok_bind, hdecide]

/-- What both boundaries carry alike: the request fits the server's limit, and deciding it ends
neither with an `AgentContractError` other than `InvalidProviderAction` nor with a
`DecisionTimeout`. -/
structure Carried (policy : DecisionPolicy) (request : Request) : Prop where
  fits : ∀ raw, canonicalBytes (requestJson request) = .ok raw → raw.length ≤ MAX_REQUEST_BYTES
  no_contract : decideBytes policy (requestJson request) ≠ .error .contract
  no_timeout : decideBytes policy (requestJson request) ≠ .error .timeout

/-- No response to the request holds a protected value. -/
def Unprotected (sha : Sha256) (limits : Json.Limits) (policy : DecisionPolicy)
    (containsProtected : Bytes → Bool) (request : Request) : Prop :=
  ∀ raw status body, canonicalBytes (requestJson request) = .ok raw →
    doPost sha limits policy raw = some (status, body) → containsProtected body = false

/-- The runner's side of an exchange over a request that it can send. -/
theorem decide_valid {http : HttpAgent} {latencyMs : ℤ} {request : Request} {raw : Bytes}
    (hshape : (request.attempt = 1 ∧ request.retry = none) ∨
      (request.attempt = 2 ∧ request.retry.isSome))
    (hdeadline : 0 < request.observation.episode.responseDeadlineMs)
    (hraw : canonicalBytes (requestJson request) = .ok raw) :
    http.decide latencyMs request = match http.exchange raw with
      | .late => .timeout
      | .failed timedOut => if timedOut then .timeout else .raised (txt "HTTPAgentError")
      | .response status received =>
        let body := received.take MAX_CAPTURE_BYTES
        if http.containsProtected body then .raised (txt "HTTPAgentSecretError")
        else if (200 ≤ status ∧ status ≤ 299) ∨ (400 ≤ status ∧ status ≤ 499) then
          .reply ⟨body, latencyMs, some status, txt "http"⟩
        else .raised (txt "HTTPAgentError") := by
  have hvalid : ¬ ((request.attempt = 1 ∧ request.retry.isSome) ∨
      (request.attempt = 2 ∧ request.retry.isNone) ∨ (request.attempt ≠ 1 ∧ request.attempt ≠ 2) ∨
      request.observation.episode.responseDeadlineMs ≤ 0) := by
    rcases hshape with ⟨ha, hr⟩ | ⟨ha, hr⟩
    · simp [ha, hr, hdeadline]
    · simp [ha, Option.isSome_iff_ne_none.mp hr, hdeadline]
  cases hexchange : http.exchange raw <;>
    simp only [HttpAgent.decide, if_neg hvalid, hraw, hexchange]

theorem errorBody_length : ∀ error ∈ ["request_too_large", "invalid_contract", "decision_unavailable",
    "decision_failed"], (errorBody error).length ≤ MAX_ACTION_BYTES := by
  decide +kernel

/-- A response within the action limit, in full. -/
theorem take_capture {body : Bytes} (h : body.length ≤ MAX_ACTION_BYTES) :
    body.take MAX_CAPTURE_BYTES = body :=
  List.take_of_length_le (h.trans (Nat.le_succ _))

/-- **One exchange.** Both boundaries answer a carried request alike. -/
theorem lanes_answerAlike {containsProtected : Bytes → Bool} {latency latency' : ℕ → ℤ}
    {request : Request} {raw : Bytes} {n : ℕ}
    (hshape : (request.attempt = 1 ∧ request.retry = none) ∨
      (request.attempt = 2 ∧ request.retry.isSome))
    (hdeadline : 0 < request.observation.episode.responseDeadlineMs)
    (hraw : canonicalBytes (requestJson request) = .ok raw)
    (hplain : Json.Plain n (requestJson request)) (hn : n ≤ 16)
    (hcarried : Carried policy request)
    (hclear : Unprotected sha limits policy containsProtected request) :
    AnswerAlike (localLLMAgent sha policy latency)
      (hostedAgent sha limits policy containsProtected latency') request := by
  intro s t
  change (localDecide sha policy (latency s) request).Alike
    (HttpAgent.decide ⟨hosted sha limits policy, containsProtected⟩ (latency' t) request)
  have hpost := @doPost_of_read sha _ policy _ _ (hcarried.fits raw hraw)
    (@decodeRequest_requestJson limits _ _ _ hraw hplain hn)
  rw [decideBytes_normalize] at hpost
  rw [decide_valid hshape hdeadline hraw]
  have clear := hclear raw
  simp only [localDecide, hosted]
  cases hdecide : decideBytes policy (requestJson request) with
  | ok body =>
    rw [hdecide] at hpost
    simp [hpost, take_capture (decideBytes_length hdecide), clear _ _ hraw hpost,
      AgentOutcome.Alike, AgentReply.erased]
  | error e =>
    rw [hdecide] at hpost
    cases e with
    | contract => exact absurd hdecide hcarried.no_contract
    | timeout => exact absurd hdecide hcarried.no_timeout
    | provider =>
      have short := errorBody_length "decision_unavailable" (by simp)
      simp [hpost, take_capture short, clear _ _ hraw hpost, propagate, AgentOutcome.Alike]
    | other className =>
      have short := errorBody_length "decision_failed" (by simp)
      simp [hpost, take_capture short, clear _ _ hraw hpost, propagate, AgentOutcome.Alike]
    | invalidAction evidence =>
      cases hpayload : invalidProviderPayload sha evidence with
      | ok body =>
        simp only [hpayload] at hpost
        simp [hpost, hpayload, take_capture (invalidProviderPayload_length hpayload),
          clear _ _ hraw hpost, AgentOutcome.Alike, AgentReply.erased]
      | error e =>
        obtain rfl := invalidProviderPayload_error hpayload
        simp only [hpayload] at hpost
        simp [hpost, hpayload, propagate, AgentOutcome.Alike]

/-- What the in-process agent replies has status 200 or 400. -/
theorem localDecide_status {latencyMs : ℤ} {request : Request} {reply : AgentReply}
    (h : localDecide sha policy latencyMs request = .reply reply) :
    reply.httpStatus = some 200 ∨ reply.httpStatus = some 400 := by
  have propagated : ∀ e, propagate e ≠ .reply reply := fun e => by cases e <;> simp [propagate]
  unfold localDecide at h
  split at h
  · exact .inl (AgentOutcome.reply.inj h ▸ rfl)
  · split at h
    · exact .inr (AgentOutcome.reply.inj h ▸ rfl)
    · exact absurd h (propagated _)
  · exact absurd h (propagated _)

/-- Both boundaries answer a request alike only when they carry it. -/
theorem carried_of_answerAlike {containsProtected : Bytes → Bool} {latency latency' : ℕ → ℤ}
    {request : Request} {raw : Bytes} {n : ℕ}
    (hshape : (request.attempt = 1 ∧ request.retry = none) ∨
      (request.attempt = 2 ∧ request.retry.isSome))
    (hdeadline : 0 < request.observation.episode.responseDeadlineMs)
    (hraw : canonicalBytes (requestJson request) = .ok raw)
    (hplain : Json.Plain n (requestJson request)) (hn : n ≤ 16)
    (hclear : Unprotected sha limits policy containsProtected request)
    (halike : AnswerAlike (localLLMAgent sha policy latency)
      (hostedAgent sha limits policy containsProtected latency') request) :
    Carried policy request := by
  have answers : (localDecide sha policy (latency 0) request).Alike
      (HttpAgent.decide ⟨hosted sha limits policy, containsProtected⟩ (latency' 0) request) :=
    halike 0 0
  rw [decide_valid hshape hdeadline hraw] at answers
  have hfits : raw.length ≤ MAX_REQUEST_BYTES := by
    by_contra hlong
    have hpost : doPost sha limits policy raw = some (413, errorBody "request_too_large") := by
      rw [doPost, if_pos (not_le.mp hlong)]
    have short := errorBody_length "request_too_large" (by simp)
    simp only [hosted, hpost, take_capture short, hclear raw _ _ hraw hpost] at answers
    cases hlocal : localDecide sha policy (latency 0) request with
    | timeout | raised _ => simp [hlocal, AgentOutcome.Alike] at answers
    | reply reply =>
      simp only [hlocal] at answers
      have hstatus := (AgentReply.erased_eq_iff.mp answers).2
      rcases localDecide_status hlocal with h | h <;> rw [h] at hstatus <;> simp at hstatus
  have hpost := @doPost_of_read sha _ policy _ _ hfits
    (@decodeRequest_requestJson limits _ _ _ hraw hplain hn)
  rw [decideBytes_normalize] at hpost
  refine ⟨fun raw' h => Except.ok.inj (hraw.symm.trans h) ▸ hfits, fun hdecide => ?_,
    fun hdecide => ?_⟩
  · have short := errorBody_length "invalid_contract" (by simp)
    rw [hdecide] at hpost
    simp [hosted, hpost, take_capture short, hclear raw _ _ hraw hpost, localDecide, hdecide,
      propagate, AgentOutcome.Alike] at answers
  · have short := errorBody_length "decision_failed" (by simp)
    rw [hdecide] at hpost
    simp [hosted, hpost, take_capture short, hclear raw _ _ hraw hpost, localDecide, hdecide,
      propagate, AgentOutcome.Alike] at answers

/-- **The condition is exact.** The boundaries answer a request that can be sent, and whose responses
hold no protected value, alike exactly when they carry it. -/
theorem lanes_answerAlike_iff {containsProtected : Bytes → Bool} {latency latency' : ℕ → ℤ}
    {request : Request} {raw : Bytes} {n : ℕ}
    (hshape : (request.attempt = 1 ∧ request.retry = none) ∨
      (request.attempt = 2 ∧ request.retry.isSome))
    (hdeadline : 0 < request.observation.episode.responseDeadlineMs)
    (hraw : canonicalBytes (requestJson request) = .ok raw)
    (hplain : Json.Plain n (requestJson request)) (hn : n ≤ 16)
    (hclear : Unprotected sha limits policy containsProtected request) :
    AnswerAlike (localLLMAgent sha policy latency)
      (hostedAgent sha limits policy containsProtected latency') request ↔ Carried policy request :=
  ⟨carried_of_answerAlike hshape hdeadline hraw hplain hn hclear,
    fun hcarried => lanes_answerAlike hshape hdeadline hraw hplain hn hcarried hclear⟩

/-! ## Requests of a run -/

theorem validUnicode_of_isHash {t : Text} (h : IsHash t) : Json.ValidUnicode t := by
  obtain ⟨-, ⟨digits, rfl⟩, hdigits⟩ := h
  rw [Json.validUnicode_append]
  refine ⟨by decide, fun c hc hs => ?_⟩
  have hlength : HASH_PREFIX.length = 7 := by simp [txt]
  rw [← hlength, List.drop_left] at hdigits
  have := hdigits c hc
  simp only [isDigit, Bool.and_eq_true, decide_eq_true_eq] at this
  unfold isSurrogate at hs
  omega

theorem validUnicode_reason (reason : ActionReason) :
    Json.ValidUnicode reason.wire ∧ Json.ValidUnicode (parseDetail reason) := by
  cases reason <;> decide

/-- The hash a first attempt hands on is one of a body. -/
theorem requestAttempt_retry {σ : Type} {agent : Agent σ} {observation : Observation}
    {config : EpisodeConfig} {marketAliases : List Text} {s : σ} {failure : FirstFailure}
    {rest : List AgentReply × List BlockFact × σ}
    (h : requestAttempt sha limits agent observation config marketAliases 1 none [] [] s =
      .ok (.retry failure, rest)) : IsHash failure.rawSha256 := by
  simp only [requestAttempt] at h
  split at h
  · simp only [bind_ok_iff, pure_eq_ok, Except.ok.injEq, Prod.mk.injEq] at h
    obtain ⟨_, -, hdecided, -⟩ := h
    cases hdecided
  · simp only [bind_ok_iff, pure_eq_ok, Except.ok.injEq, Prod.mk.injEq] at h
    obtain ⟨_, -, hdecided, -⟩ := h
    cases hdecided
  · rename_i reply _
    simp only [bind_ok_iff] at h
    obtain ⟨_, -, result, -, h⟩ := h
    cases result with
    | accepted action =>
      simp only [pure_eq_ok, Except.ok.injEq, Prod.mk.injEq] at h
      cases h.1
    | rejected reason =>
      simp only at h
      split at h
      · simp only [pure_eq_ok, Except.ok.injEq, Prod.mk.injEq, AttemptOutcome.retry.injEq] at h
        rw [← h.1]
        exact sha.isHash reply.body
      · simp only [pure_eq_ok, Except.ok.injEq, Prod.mk.injEq] at h
        cases h.1

/-- A request of a run is one the runner can send, and plain. -/
theorem requested_sendable {σ : Type} {agent : Agent σ} {pack : PackData} {config : EpisodeConfig}
    {episodeId : Text} {s : σ} {request : Request}
    (h : Requested sha limits pack config episodeId agent s request)
    (hencodable : request.observation.toJson.Encodable) :
    ((request.attempt = 1 ∧ request.retry = none) ∨
        (request.attempt = 2 ∧ request.retry.isSome)) ∧
      0 < request.observation.episode.responseDeadlineMs ∧
      Json.Plain 7 (requestJson request) ∧ Returns (canonicalBytes (requestJson request)) := by
  obtain ⟨env, _, _, _, _, _, _, observation, henv, -, -, -, -, -, -, -, -, hobserve, hrequest⟩ := h
  obtain ⟨rfl, -, haliases, -, -⟩ := profileEnv_eq_ok henv
  have keys : ∀ m ∈ ["schema", "attempt", "observation", "retry", "reason", "detail",
      "prior_raw_sha256", "runner_request/v1"], Json.ValidUnicode (txt m) := by decide
  simp only [List.mem_cons, List.not_mem_nil, or_false, forall_eq_or_imp, forall_eq] at keys
  obtain ⟨hmarkets, hposition, hdeadline⟩ := observeTurn_document haliases hobserve
  rcases hrequest with rfl | ⟨failure, rest, hretry, rfl⟩
  · refine ⟨.inl ⟨rfl, rfl⟩, hdeadline, plain_request hmarkets hposition,
      returns_canonicalBytes.mpr ?_⟩
    simp only [requestJson, encodable_jsonObj, List.mem_cons, List.not_mem_nil, or_false,
      forall_eq_or_imp, forall_eq, keys, true_and, encodable_str, encodable_int, hencodable]
    simp [Json.Encodable]
  · refine ⟨.inr ⟨rfl, rfl⟩, hdeadline, plain_request hmarkets hposition,
      returns_canonicalBytes.mpr ?_⟩
    obtain ⟨hreason, hdetail⟩ := validUnicode_reason failure.reason
    simp only [requestJson, FirstFailure.retryInfo, encodable_jsonObj, List.mem_cons,
      List.not_mem_nil, or_false, forall_eq_or_imp, forall_eq, keys, true_and, encodable_str,
      encodable_int, hencodable, hreason, hdetail,
      validUnicode_of_isHash (requestAttempt_retry hretry)]
    simp

/-- **When the lanes agree.** For every pack, configuration and policy: if no response holds a
protected value and both boundaries carry every request of the in-process run alike, the episode of
the in-process agent and that of the HTTP agent raise together or return results that are the same
but for latency, transport and the class of an exception: the same parsed decisions, attempts, bodies,
statuses, classification, ledgers and metrics. -/
theorem lanes_same_episode (sha : Sha256) (limits : Json.Limits) (policy : DecisionPolicy)
    (pack : PackData) (config : EpisodeConfig) (runId episodeId : Text)
    (containsProtected : Bytes → Bool) (latency latency' : ℕ → ℤ)
    (hclear : ∀ request,
      Requested sha limits pack config episodeId (localLLMAgent sha policy latency) 0 request →
      Unprotected sha limits policy containsProtected request)
    (hcarried : ∀ request,
      Requested sha limits pack config episodeId (localLLMAgent sha policy latency) 0 request →
      Carried policy request) :
    Agree (fun a b => a.erased = b.erased)
      (runEpisode sha limits pack (localLLMAgent sha policy latency) config runId episodeId 0)
      (runEpisode sha limits pack (hostedAgent sha limits policy containsProtected latency') config
        runId episodeId 0) := by
  refine runEpisode_erased rfl rfl fun request hrequest hencodable => ?_
  obtain ⟨hshape, hdeadline, hplain, raw, hraw⟩ := requested_sendable hrequest hencodable
  exact lanes_answerAlike hshape hdeadline hraw hplain (by decide) (hcarried request hrequest)
    (hclear request hrequest)

end Lanes

/-! ## Two policies -/

/-- The policy that asks for a long of one times the equity, whatever the request. -/
def holding : DecisionPolicy where
  decide _ := .ok (.json (jsonObj [("schema", jsonStr "action/v1"),
    ("target", jsonObj [("BTC", jsonStr "1")])]))
  order_free _ := rfl

/-- The attempt is the last of its turn. -/
def isDecided : AttemptOutcome → Bool
  | .decided _ => true
  | .retry _ => false

open Scenario in
/-- The long crosses both boundaries, and its episode trades. -/
theorem holding_same_episode :
    let episode := fun agent : Agent ℕ => runEpisode sha limits oneTurn.pack agent
      (config 50_000_000) (txt "run") EPISODE_ID 0
    ∃ inProcess http, episode (localLLMAgent sha holding fun _ => 3) = .ok inProcess ∧
      episode (hostedAgent sha limits holding (fun _ => false) fun _ => 40) = .ok http ∧
      inProcess.erased = http.erased ∧ inProcess.metrics.primary.feesPaidMicro ≠ 0 := by
  intro episode
  have decides : ∀ v, (decideBytes holding v).isOk = true := fun v => by
    change (decideBytes holding .null).isOk = true
    decide +kernel
  have carried : ∀ request, Requested sha limits oneTurn.pack (config 50_000_000) EPISODE_ID
      (localLLMAgent sha holding fun _ => 3) 0 request → Carried holding request := by
    rintro request ⟨env, start, bars, clock, state, drawdown, turnover, obs, henv, hstart, hbars, hturn,
      hreach, -, hclock, hdrawdown, hturnover, hobserve, hrequest⟩
    obtain rfl := Except.ok.inj ((profileEnv_primary _ _).symm.trans henv)
    have one : bars = 1 := by
      have h : oneTurn.pack.barsTotal = .ok 1 := by decide +kernel
      exact (Except.ok.inj (h.symm.trans hbars)).symm
    obtain hzero : clock.turn = 0 := by omega
    rw [hzero] at hreach hclock
    obtain rfl := hreach.unique .start
    have checked : ∀ first ∈ (startState (oneTurn.env (config 50_000_000) 10_000) 0).toOption,
        ∀ clock ∈ (turnClock (oneTurn.env (config 50_000_000) 10_000) 0).toOption,
        ∀ drawdown ∈ (drawdown1e8 first.core.snapshots).toOption,
        ∀ turnover ∈ (turnover1e8 first.core.account.turnoverNotionalMicro
          (config 50_000_000).startingNavMicro).toOption,
        ∀ obs ∈ (observeTurn (oneTurn.env (config 50_000_000) 10_000) EPISODE_ID clock first.core
          drawdown turnover).toOption,
        (∀ raw ∈ (canonicalBytes (requestJson ⟨1, obs, none⟩)).toOption,
          raw.length ≤ MAX_REQUEST_BYTES) ∧
        ∀ attempt ∈ (requestAttempt sha limits (localLLMAgent sha holding fun _ => 3) obs
          (config 50_000_000) oneTurn.pack.marketAliases 1 none [] [] first.agent).toOption,
          isDecided attempt.1 = true := by
      decide +kernel
    obtain ⟨fits, decided⟩ := checked _ (toOption_eq_some.mpr hstart) _ (toOption_eq_some.mpr hclock) _
      (toOption_eq_some.mpr hdrawdown) _ (toOption_eq_some.mpr hturnover) _
      (toOption_eq_some.mpr hobserve)
    rcases hrequest with rfl | ⟨failure, rest, hretry, rfl⟩
    · refine ⟨fun raw hraw => fits raw (toOption_eq_some.mpr hraw), ?_, ?_⟩ <;> intro h <;>
        simpa [h, Except.isOk, Except.toBool] using decides (requestJson ⟨1, obs, none⟩)
    · exact absurd (decided _ (toOption_eq_some.mpr hretry)) (by simp [isDecided])
  have alike : Agree (fun a b => a.erased = b.erased) (episode (localLLMAgent sha holding fun _ => 3))
      (episode (hostedAgent sha limits holding (fun _ => false) fun _ => 40)) :=
    lanes_same_episode sha limits holding oneTurn.pack (config 50_000_000) (txt "run")
      EPISODE_ID (fun _ => false) (fun _ => 3) (fun _ => 40) (fun _ _ _ _ _ _ _ => rfl) carried
  have trades : (episode (localLLMAgent sha holding fun _ => 3)).toOption.any fun result =>
      result.metrics.primary.feesPaidMicro ≠ 0 := by decide +kernel
  obtain ⟨inProcess, ha, hfees⟩ := (Option.any_eq_true _ _).mp trades
  obtain ⟨http, hb, herased⟩ := (agree_iff.mp alike).1 _ (toOption_eq_some.mp ha)
  exact ⟨inProcess, http, toOption_eq_some.mp ha, hb, herased, by simpa using hfees⟩

/-- The policy that refuses every request with an `AgentContractError`. -/
def refusing : DecisionPolicy where
  decide _ := .error .contract
  order_free _ := rfl

/-- An `AgentContractError` is a missed decision in process and an invalid action over HTTP, where it
is asked for again. -/
theorem refusal_divides_lanes :
    let episode := fun agent : Agent ℕ => runEpisode Scenario.sha Scenario.limits oneTurn.pack agent
      (Scenario.config 50_000_000) (txt "run") Scenario.EPISODE_ID 0
    ∃ inProcess http, episode (localLLMAgent Scenario.sha refusing fun _ => 0) = .ok inProcess ∧
      episode (hostedAgent Scenario.sha Scenario.limits refusing (fun _ => false) fun _ => 0) =
        .ok http ∧
      inProcess.metrics.invariant.missedDecisions = 1 ∧ inProcess.rawBlobs.length = 0 ∧
      http.metrics.invariant.missedDecisions = 0 ∧ http.metrics.invariant.invalidActions = 1 ∧
      http.rawBlobs.length = 2 ∧ inProcess.metrics ≠ http.metrics := by
  have missed : ((runEpisode Scenario.sha Scenario.limits oneTurn.pack
      (localLLMAgent Scenario.sha refusing fun _ => 0) (Scenario.config 50_000_000) (txt "run")
      Scenario.EPISODE_ID 0).toOption.any fun result =>
        result.metrics.invariant.missedDecisions = 1 && result.rawBlobs.length = 0) := by
    decide +kernel
  have invalid : ((runEpisode Scenario.sha Scenario.limits oneTurn.pack
      (hostedAgent Scenario.sha Scenario.limits refusing (fun _ => false) fun _ => 0)
      (Scenario.config 50_000_000) (txt "run") Scenario.EPISODE_ID 0).toOption.any fun result =>
        result.metrics.invariant.missedDecisions = 0 && result.metrics.invariant.invalidActions = 1 &&
          result.rawBlobs.length = 2) := by
    decide +kernel
  obtain ⟨inProcess, ha, hmissed⟩ := (Option.any_eq_true _ _).mp missed
  obtain ⟨http, hb, hinvalid⟩ := (Option.any_eq_true _ _).mp invalid
  simp only [Bool.and_eq_true, decide_eq_true_eq] at hmissed hinvalid
  refine ⟨inProcess, http, toOption_eq_some.mp ha, toOption_eq_some.mp hb, hmissed.1, hmissed.2,
    hinvalid.1.1, hinvalid.1.2, hinvalid.2, fun h => ?_⟩
  have := hmissed.1
  rw [h, hinvalid.1.1] at this
  simp at this

end WagmiBench.Agents
