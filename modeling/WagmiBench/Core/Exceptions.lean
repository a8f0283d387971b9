import WagmiBench.Lib.Outcome

/-!
# Exceptions

The exception classes the modelled code raises, each with the text it raises them with.
-/

namespace WagmiBench.Core

/-- A raised exception: its class and its message. -/
inductive PyError where
  | valueError (message : String)
  | typeError (message : String)
  /-- `core.metrics.UndefinedMetricError` -/
  | undefinedMetric (message : String)
  /-- `core.engine.EngineError` -/
  | engineError (message : String)
  /-- `core.observation.ObservationError` -/
  | observationError (message : String)
  /-- `core.pack.PackError` -/
  | packError (message : String)
  /-- `core.config.ConfigError` -/
  | configError (message : String)
  /-- `data.validator.PackValidationError`: its code and message. -/
  | packValidationError (code message : String)
  /-- `spec.canonical.CanonicalizationError` -/
  | canonicalizationError (message : String)
  /-- `recorder.replay.ReplayError` -/
  | replayError (message : String)
  /-- `spec.canonical.ChainVerificationError`: the stream and record it names, and why. -/
  | chainVerificationError (stream : String) (seq : ℤ) (reason : String)
  /-- `recorder.writer.RecorderError` -/
  | recorderError (message : String)
  /-- `recorder.writer.RecorderValidationError` -/
  | recorderValidationError (message : String)
  /-- `recorder.decisions.DecisionProjectionError` -/
  | decisionProjectionError (message : String)
  /-- `recorder.redaction.RedactionError` -/
  | redactionError (message : String)
  /-- `tools.independent_metrics_audit.AuditFailure` -/
  | auditFailure (message : String)
  | keyError
  | indexError
  | recursionError
  deriving DecidableEq, Repr

/-- A computation of the modelled code. -/
abbrev Py := Except PyError

end WagmiBench.Core
