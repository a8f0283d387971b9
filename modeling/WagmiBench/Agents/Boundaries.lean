import WagmiBench.Agents.Policy

/-!
# The two boundaries of a policy

`agents/local.py` hosts a policy in the runner process; `agents/server.py` hosts it behind
`POST /decide`, and `harness/http.py` is the runner's side of that exchange. Both turn what the policy
does into a reply or an exception.
-/

namespace WagmiBench.Agents

open WagmiBench.Lib WagmiBench.Core WagmiBench.Spec WagmiBench.Harness

variable (sha : Sha256) (limits : Json.Limits) (policy : DecisionPolicy)

/-! ## Requests -/

/-- `runner_request/v1`, as `_request_decision` builds it. -/
def requestJson (request : Request) : Json :=
  jsonObj [("schema", jsonStr "runner_request/v1"), ("attempt", .int request.attempt),
    ("observation", request.observation.toJson),
    ("retry", match request.retry with
      | none => .null
      | some retry => jsonObj [("reason", .str retry.reason.wire), ("detail", .str retry.detail),
          ("prior_raw_sha256", .str retry.priorRawSha256)])]

/-- What either boundary tries: the policy decides, and its document fits the action limit. -/
def decideBytes (request : Json) : Except PolicyError Bytes := do
  let action ← policy.decide request
  let body ← canonicalJsonBytes action
  require (body.length ≤ MAX_ACTION_BYTES) .contract
  return body

/-! ## In process -/

/-- An exception that leaves `agent.decide`. -/
def propagate (e : PolicyError) : AgentOutcome :=
  match e with
  | .timeout => .timeout
  | e => .raised e.className

/-- `LocalLLMAgent.decide`; what it measures as latency is given. -/
def localDecide (latencyMs : ℤ) (request : Request) : AgentOutcome :=
  match decideBytes policy (requestJson request) with
  | .ok body => .reply ⟨body, latencyMs, some 200, txt "in_process"⟩
  | .error (.invalidAction evidence) =>
    match invalidProviderPayload sha evidence with
    | .ok body => .reply ⟨body, latencyMs, some 400, txt "in_process"⟩
    | .error e => propagate e
  | .error e => propagate e

/-! ## The server -/

abbrev MAX_REQUEST_BYTES : ℕ := 2_097_152

/-- The hooks of a plain `json.loads`. -/
def plainHooks : Json.Hooks Empty where
  parseFloat token := .ok (.float token)
  parseConstant token := .ok (.float token)
  objectPairs pairs := .ok (.obj (Json.dictOfPairs pairs))

/-- `_decode_request` -/
def decodeRequest (raw : Bytes) : Except PolicyError Json :=
  match utf8Decode false raw with
  | none => .error .contract
  | some text =>
    match Json.loads limits plainHooks text with
    | .ok (.obj members) => .ok (.obj members)
    | .ok _ => .error .contract
    | .error .decode => .error .contract
    | .error .recursion => .error (.other (txt "RecursionError"))
    | .error .digits => .error (.other (txt "ValueError"))

/-- The body of an error response. -/
def errorBody (error : String) : Bytes :=
  (utf8Encode (Json.dumps false (jsonObj [("error", jsonStr error)]))).getD []

/-- `do_POST` on `/decide` with a request that came whole: status and body of the response, unless the
handler itself fails. -/
def doPost (raw : Bytes) : Option (ℤ × Bytes) :=
  if MAX_REQUEST_BYTES < raw.length then some (413, errorBody "request_too_large")
  else
    let response : Except PolicyError Bytes := do
      let request ← decodeRequest limits raw
      decideBytes policy request
    match response with
    | .ok body => some (200, body)
    | .error (.invalidAction evidence) =>
      match invalidProviderPayload sha evidence with
      | .ok body => some (400, body)
      | .error _ => none
    | .error .contract => some (400, errorBody "invalid_contract")
    | .error .provider => some (503, errorBody "decision_unavailable")
    | .error _ => some (500, errorBody "decision_failed")

/-! ## The runner's side -/

/-- How an exchange goes: nothing within the deadline, a failure of the transport (a `TimeoutError` or
another), or a response. -/
inductive Exchange where
  | late
  | failed (timedOut : Bool)
  | response (status : ℤ) (body : Bytes)

abbrev MAX_CAPTURE_BYTES : ℕ := MAX_ACTION_BYTES + 1

/-- `HTTPAgent`: its transport, and whether a body contains a protected value. -/
structure HttpAgent where
  exchange : Bytes → Exchange
  containsProtected : Bytes → Bool

/-- `HTTPAgent.decide`; what it measures as latency is given. -/
def HttpAgent.decide (http : HttpAgent) (latencyMs : ℤ) (request : Request) : AgentOutcome :=
  if (request.attempt = 1 ∧ request.retry.isSome) ∨ (request.attempt = 2 ∧ request.retry.isNone) ∨
      (request.attempt ≠ 1 ∧ request.attempt ≠ 2) ∨
      request.observation.episode.responseDeadlineMs ≤ 0 then
    .raised (txt "HTTPAgentConfigurationError")
  else match canonicalBytes (requestJson request) with
  | .error _ => .raised (txt "CanonicalizationError")
  | .ok raw =>
    match http.exchange raw with
    | .late => .timeout
    | .failed timedOut => if timedOut then .timeout else .raised (txt "HTTPAgentError")
    | .response status received =>
      let body := received.take MAX_CAPTURE_BYTES
      if http.containsProtected body then .raised (txt "HTTPAgentSecretError")
      else if (200 ≤ status ∧ status ≤ 299) ∨ (400 ≤ status ∧ status ≤ 499) then
        .reply ⟨body, latencyMs, some status, txt "http"⟩
      else .raised (txt "HTTPAgentError")

/-- A transport that brings the request to the server, and its response back in time. -/
def hosted (raw : Bytes) : Exchange :=
  match doPost sha limits policy raw with
  | some (status, body) => .response status body
  | none => .failed false

/-! ## Agents -/

/-- The in-process agent around a policy; `latency n` is what its request `n` takes. -/
def localLLMAgent (latency : ℕ → ℤ) : Agent ℕ where
  decide n request := (localDecide sha policy (latency n) request, n + 1)
  drain := none

/-- The HTTP agent in front of a server that hosts the policy. -/
def hostedAgent (containsProtected : Bytes → Bool) (latency : ℕ → ℤ) : Agent ℕ where
  decide n request :=
    (HttpAgent.decide ⟨hosted sha limits policy, containsProtected⟩ (latency n) request, n + 1)
  drain := none

end WagmiBench.Agents
