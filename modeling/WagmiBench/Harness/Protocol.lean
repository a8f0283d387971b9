import WagmiBench.Core.Action
import WagmiBench.Core.Observation

/-!
# The runner contract

`harness/protocol.py`: what the engine sends an agent, what an agent does with it, and the side
channel of trusted harness facts. An agent is a deterministic machine: its state and the request
give its outcome and its next state.
-/

namespace WagmiBench.Harness

open WagmiBench.Lib WagmiBench.Core

/-- One verbatim agent response and its non-economic telemetry. -/
structure AgentReply where
  body : Bytes
  latencyMs : ℤ
  httpStatus : Option ℤ
  transport : Text

/-- One unsequenced harness fact as an adapter hands it over: its type and its payload. -/
structure HarnessEvent where
  type : Text
  payload : List (Text × Json)

/-- The `retry` member of a second request. -/
structure RetryInfo where
  reason : ActionReason
  detail : Text
  priorRawSha256 : Text

/-- `runner_request/v1` -/
structure Request where
  attempt : ℕ
  observation : Observation
  retry : Option RetryInfo

/-- How `agent.decide(request)` ends. -/
inductive AgentOutcome where
  | reply (reply : AgentReply)
  /-- `DecisionTimeout` -/
  | timeout
  /-- Any other exception, by its class name. -/
  | raised (className : Text)

/-- How `agent.drain_harness_events()` ends. -/
inductive DrainOutcome where
  | drained (events : List HarnessEvent)
  | raised (className : Text)

/-- An in-process agent with states `σ`; `drain` is there for adapters with harness evidence. -/
structure Agent (σ : Type) where
  decide : σ → Request → AgentOutcome × σ
  drain : Option (σ → DrainOutcome × σ)

end WagmiBench.Harness
