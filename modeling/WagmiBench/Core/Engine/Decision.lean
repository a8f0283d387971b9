import WagmiBench.Core.Engine.State
import WagmiBench.Spec.Canonical

/-!
# Asking an agent for a decision

The agent-facing half of `core/engine.py`: draining and coalescing trusted harness facts, reading
advisory token usage out of a response body, and the two-attempt protocol of `_request_decision`.
-/

namespace WagmiBench.Core

open WagmiBench.Lib WagmiBench.Harness WagmiBench.Spec

/-! ## Harness facts -/

abbrev EGRESS_PAYLOAD_KEYS : List Text := ["destination", "port", "protocol", "count"].map txt

abbrev EGRESS_PROTOCOLS : List Text := ["https", "dns", "tcp", "udp", "other"].map txt

/-- `port is None or 0 <= port <= 65535` -/
def validatePort : Option Json → Py (Option ℤ)
  | none | some .null => .ok none
  | some (.int port) => do
    require (0 ≤ port ∧ port ≤ 65_535)
      (.engineError "EgressBlocked.port must be null or an integer from 0 to 65535")
    return some port
  | some _ => .error (.engineError "EgressBlocked.port must be null or an integer from 0 to 65535")

/-- `protocol in {...}`, which raises on a value that cannot be hashed. -/
def validateProtocol : Option Json → Py Text
  | some (.str protocol) => do
    require (protocol ∈ EGRESS_PROTOCOLS) (.engineError "EgressBlocked.protocol is unsupported")
    return protocol
  | some (.arr _) | some (.obj _) => .error (.typeError "unhashable type")
  | _ => .error (.engineError "EgressBlocked.protocol is unsupported")

/-- `1 <= count <= MAX_IJSON_INT` -/
def validateCount : Option Json → Py ℤ
  | some (.int count) => do
    require (1 ≤ count ∧ count ≤ MAX_IJSON_INT)
      (.engineError "EgressBlocked.count must be a positive I-JSON-safe integer")
    return count
  | _ => .error (.engineError "EgressBlocked.count must be a positive I-JSON-safe integer")

/-- One event of a drain: its type and its payload are checked. -/
def validateHarnessEvent (event : HarnessEvent) : Py BlockFact := do
  require (event.type = txt "EgressBlocked")
    (.engineError ("unsupported harness event type " ++ Text.show event.type))
  let payload := event.payload
  require ((∀ m ∈ payload, m.1 ∈ EGRESS_PAYLOAD_KEYS) ∧
      ∀ k ∈ EGRESS_PAYLOAD_KEYS, k ∈ payload.map Prod.fst)
    (.engineError
      "EgressBlocked payload must contain exactly destination, port, protocol, count")
  let destination ← match Json.lookup (txt "destination") payload with
    | some (.str destination) => pure destination
    | _ => .error (.engineError "EgressBlocked.destination must be a string")
  let port ← validatePort (Json.lookup (txt "port") payload)
  let protocol ← validateProtocol (Json.lookup (txt "protocol") payload)
  let count ← validateCount (Json.lookup (txt "count") payload)
  return ⟨destination, port, protocol, count⟩

/-- `_drain_harness_events` -/
def drainHarnessEvents {σ : Type} (agent : Agent σ) (s : σ) : Py (List BlockFact × σ) :=
  match agent.drain with
  | none => .ok ([], s)
  | some drain =>
    match drain s with
    | (.raised className, _) => .error (.engineError
        ("trusted harness event drain failed: " ++ Text.show className))
    | (.drained events, s') => do
      let validated ← events.mapM validateHarnessEvent
      return (validated, s')

/-- What identifies a blocked destination. -/
structure BlockKey where
  destination : Text
  port : Option ℤ
  protocol : Text
  deriving DecidableEq

def BlockFact.key (fact : BlockFact) : BlockKey := ⟨fact.destination, fact.port, fact.protocol⟩

/-- The order of `(destination, -1 if port is None else port, protocol)`. -/
def BlockKey.le (a b : BlockKey) : Bool :=
  if a.destination ≠ b.destination then textLe a.destination b.destination
  else if a.port.getD (-1) ≠ b.port.getD (-1) then a.port.getD (-1) < b.port.getD (-1)
  else textLe a.protocol b.protocol

/-- `counts[key] = counts.get(key, 0) + count` on the facts counted so far. -/
def addCount (counts : List BlockFact) (fact : BlockFact) : Py (List BlockFact) := do
  let before := ((counts.find? fun f => f.key = fact.key).map BlockFact.count).getD 0
  let combined := before + fact.count
  require (combined ≤ MAX_IJSON_INT)
    (.engineError "coalesced EgressBlocked.count exceeds the I-JSON safe range")
  return (counts.filter fun f => f.key ≠ fact.key) ++ [{ fact with count := combined }]

/-- `_coalesce_harness_events` -/
def coalesceHarnessEvents (events : List BlockFact) : Py (List BlockFact) := do
  let counts ← events.foldlM addCount []
  return counts.insertionSort fun a b => a.key.le b.key = true

/-- `_emit_harness_events` -/
def harnessDrafts (drained : List BlockFact) (ts : ℤ) (turn barIndex : Option ℕ) :
    Py (List Draft) := do
  let facts ← coalesceHarnessEvents drained
  return facts.map fun fact => ⟨ts, turn, barIndex, .harness, .egressBlocked fact⟩

/-! ## Token usage -/

/-- The hooks of `_extract_token_usage`: numbers that are not integers become their lexemes. -/
def telemetryHooks : Json.Hooks Empty where
  parseFloat token := .ok (.str token)
  parseConstant token := .ok (.str token)
  objectPairs pairs := .ok (.obj (Json.dictOfPairs pairs))

/-- The complete, non-negative usage of a decoded body. -/
def tokenUsageOf (value : Json) : Option (ℤ × ℤ) :=
  match Json.get? (txt "usage") value with
  | some (.obj usage) =>
    match Json.lookup (txt "input_tokens") usage, Json.lookup (txt "output_tokens") usage with
    | some (.int input), some (.int output) =>
      if input < 0 ∨ output < 0 then none else some (input, output)
    | _, _ => none
  | _ => none

/-- `_extract_token_usage`: undecodable bytes and grammar errors give no usage, while the
interpreter's own limits escape as the exceptions they are. -/
def extractTokenUsage (limits : Json.Limits) (raw : Bytes) : Py (Option (ℤ × ℤ)) :=
  match jsonDecodeBytes raw with
  | none => .ok none
  | some text =>
    match Json.loads limits telemetryHooks text with
    | .ok value => .ok (tokenUsageOf value)
    | .error .decode => .ok none
    | .error .recursion => .error .recursionError
    | .error .digits => .error (.valueError
        "Exceeds the limit for integer string conversion")

/-! ## The two attempts -/

/-- `_parse_detail` -/
def parseDetail : ActionReason → Text
  | .oversize => txt "response exceeds 65536 bytes or is not valid UTF-8"
  | .invalidJson => txt "response is not a single valid JSON document"
  | .unknownSchema => txt "response schema is missing or not action/v1"
  | .schemaInvalid => txt "response does not validate against action/v1"
  | .unknownField => txt "response contains an unknown top-level field"
  | .unknownMarket => txt "target names a market not declared by the pack"
  | .invalidTargetFormat => txt "target leverage must be a decimal string or integer"
  | .floatTarget => txt "fractional JSON targets are forbidden; send a decimal string"
  | .targetOutOfRange => txt "target leverage exceeds the structural sanity bound"
  | .invalidSlippage => txt "max_slippage_bps must be an integer from 0 through 10000"

/-- `f"{reason}: {_parse_detail(reason)}"` -/
def describeFailure (reason : ActionReason) : Text :=
  reason.wire ++ txt ": " ++ parseDetail reason

/-- The first attempt's parse failure: its reason and the hash of its body. -/
structure FirstFailure where
  reason : ActionReason
  rawSha256 : Text

/-- How an attempt ends: the turn is decided, or a second attempt follows. -/
inductive AttemptOutcome where
  | decided (decision : TurnDecision)
  | retry (failure : FirstFailure)

section Attempts

variable {σ : Type} (sha : Sha256) (limits : Json.Limits) (agent : Agent σ)
  (observation : Observation) (config : EpisodeConfig) (marketAliases : List Text)

/-- Interpret a reply: an HTTP 4xx is malformed whatever its body says. -/
def interpretReply (reply : AgentReply) (attempt : ℕ) : Py ActionParseResult :=
  if ∃ status ∈ reply.httpStatus, 400 ≤ status ∧ status ≤ 499 then
    .ok (.rejected .schemaInvalid)
  else parseAction limits marketAliases reply.body attempt

/-- The body of the attempt loop of `_request_decision`: `responses` and `harnessEvents` are those
of the earlier attempts. -/
def requestAttempt (attempt : ℕ) (firstFailure : Option FirstFailure)
    (responses : List AgentReply) (harnessEvents : List BlockFact) (s : σ) :
    Py (AttemptOutcome × List AgentReply × List BlockFact × σ) := do
  let retry : Option RetryInfo :=
    firstFailure.map fun f => ⟨f.reason, parseDetail f.reason, f.rawSha256⟩
  let priorError := firstFailure.map fun f => describeFailure f.reason
  let (outcome, s) := agent.decide s ⟨attempt, observation, retry⟩
  match outcome with
  | .timeout => do
    let (drained, s) ← drainHarnessEvents agent s
    let rejection : Rejection :=
      { reason := .timeout
        detail := txt "no response bytes within response_deadline_ms=" ++
          decimalInt config.responseDeadlineMs
        validatorError := priorError
        attempts := attempt }
    return (.decided ⟨responses, harnessEvents ++ drained, .inr rejection,
      firstFailure.map FirstFailure.rawSha256⟩, responses, harnessEvents ++ drained, s)
  | .raised className => do
    let (drained, s) ← drainHarnessEvents agent s
    let rejection : Rejection :=
      { reason := .agentError
        detail := txt "agent transport failed: " ++ className
        validatorError := priorError
        attempts := attempt }
    return (.decided ⟨responses, harnessEvents ++ drained, .inr rejection,
      firstFailure.map FirstFailure.rawSha256⟩, responses, harnessEvents ++ drained, s)
  | .reply reply => do
    let responses := responses ++ [reply]
    let (drained, s) ← drainHarnessEvents agent s
    let harnessEvents := harnessEvents ++ drained
    let rawSha := sha.prefixed reply.body
    match ← interpretReply limits marketAliases reply attempt with
    | .accepted action =>
      return (.decided ⟨responses, harnessEvents, .inl action, some rawSha⟩, responses,
        harnessEvents, s)
    | .rejected reason =>
      if attempt = 1 ∧ config.parseFailureRetries ≠ 0 then
        return (.retry ⟨reason, rawSha⟩, responses, harnessEvents, s)
      let firstReason := (firstFailure.map FirstFailure.reason).getD reason
      let detail := parseDetail reason
      let rejection : Rejection :=
        { reason := .malformed reason
          detail := if attempt = 2 then txt "attempt " ++ decimal attempt ++ txt ": " ++ detail
            else detail
          validatorError := if attempt = 1 then none else some (describeFailure firstReason)
          attempts := attempt }
      return (.decided ⟨responses, harnessEvents, .inr rejection, some rawSha⟩, responses,
        harnessEvents, s)

/-- `_request_decision` -/
def requestDecision (s : σ) : Py (TurnDecision × σ) := do
  let (first, responses, harnessEvents, s) ←
    requestAttempt sha limits agent observation config marketAliases 1 none [] [] s
  match first with
  | .decided decision => return (decision, s)
  | .retry failure =>
    let (second, _, _, s) ← requestAttempt sha limits agent observation config marketAliases 2
      (some failure) responses harnessEvents s
    match second with
    | .decided decision => return (decision, s)
    | .retry _ => .error (.engineError "unreachable agent-attempt state")

end Attempts

end WagmiBench.Core
