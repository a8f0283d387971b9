import WagmiBench.Core.Engine.Decision
import WagmiBench.Lib.JsonDumps

/-!
# Decision policies

`agents/common.py` and `agents/evidence.py`: what a policy hosted by either boundary does with a
request, the bytes of the document it returns, and the evidence of an invalid paid completion.
-/

namespace WagmiBench.Agents

open WagmiBench.Lib WagmiBench.Core WagmiBench.Spec

/-- `InvalidActionEvidence` -/
structure InvalidActionEvidence where
  providerOutput : Text
  inputTokens : Option ℤ
  outputTokens : Option ℤ
  finishReason : Option Text
  reason : Text
  cachedInputTokens : Option ℤ

/-- What is raised on the way from a request to the bytes of a reply. -/
inductive PolicyError where
  /-- `InvalidProviderAction` -/
  | invalidAction (evidence : InvalidActionEvidence)
  /-- Any other `AgentContractError`. -/
  | contract
  /-- `ProviderError` -/
  | provider
  /-- `DecisionTimeout` -/
  | timeout
  /-- Any other exception, by its class name. -/
  | other (className : Text)

/-- `type(exc).__name__` -/
def PolicyError.className : PolicyError → Text
  | .invalidAction _ => txt "InvalidProviderAction"
  | .contract => txt "AgentContractError"
  | .provider => txt "ProviderError"
  | .timeout => txt "DecisionTimeout"
  | .other className => className

/-- What a policy returns: JSON that the interpreter's limits let `json.dumps` write, or a value it
refuses with `TypeError` or `ValueError`, or one it fails on with another exception. -/
inductive Document where
  | json (value : Json)
  | unserializable
  | failing (className : Text)

/-- A policy is a function of the request as a mapping: the order of members is not part of it. -/
structure DecisionPolicy where
  decide : Json → Except PolicyError Document
  order_free : ∀ request : Json, decide request.normalize = decide request

/-- No `NaN` or infinity occurs in the value. -/
def finiteFloats : Json → Bool := go
where
  go : Json → Bool
    | .float lexeme => !([txt "NaN", txt "Infinity", txt "-Infinity"].contains lexeme)
    | .arr items => goItems items
    | .obj members => goMembers members
    | _ => true
  goItems : List Json → Bool
    | [] => true
    | v :: items => go v && goItems items
  goMembers : List (Text × Json) → Bool
    | [] => true
    | (_, v) :: members => go v && goMembers members

/-- `canonical_json_bytes` -/
def canonicalJsonBytes : Document → Except PolicyError Bytes
  | .json value =>
    match utf8Encode (Json.dumps false value) with
    | some raw => if finiteFloats value then .ok raw else .error .contract
    | none => .error .contract
  | .unserializable => .error .contract
  | .failing className => .error (.other className)

abbrev MAX_ACTION_BYTES : ℕ := 65_536

/-- `raw_output`, whether it is included, and its encoding. -/
def providerOutput (output : Text) : Bytes × Bool × String :=
  match utf8Encode output with
  | some raw => (raw, true, "utf-8")
  | none =>
    ((utf8Encode (Json.dumps true (.str output))).getD [], false, "json_string_ascii")

/-- `invalid_provider_payload` -/
def invalidProviderPayload (sha : Sha256) (evidence : InvalidActionEvidence) :
    Except PolicyError Bytes := do
  let (rawOutput, includeOutput, outputEncoding) := providerOutput evidence.providerOutput
  let usage : Json := match evidence.inputTokens, evidence.outputTokens with
    | some input, some output =>
      jsonObj ([("input_tokens", .int input), ("output_tokens", .int output)] ++
        match evidence.cachedInputTokens with
        | some cached => [("cached_input_tokens", .int cached)]
        | none => [])
    | _, _ => .null
  let base : List (String × Json) :=
    [("error", jsonStr "invalid_contract"), ("finish_reason", jsonOptStr evidence.finishReason),
      ("provider_output_bytes", .int rawOutput.length),
      ("provider_output_encoding", jsonStr outputEncoding),
      ("provider_output_sha256", .str (sha.prefixed rawOutput)), ("reason", .str evidence.reason),
      ("usage", usage)]
  let body ← canonicalJsonBytes (.json (jsonObj (base ++
    if includeOutput then [("provider_output", .str evidence.providerOutput)]
    else [("provider_output_omitted", jsonStr "non_utf8")])))
  if body.length ≤ MAX_ACTION_BYTES then
    return body
  let body ← canonicalJsonBytes (.json (jsonObj (base ++
    [("provider_output_omitted", jsonStr "oversize")])))
  require (body.length ≤ MAX_ACTION_BYTES) .contract
  return body

theorem invalidProviderPayload_length {sha : Sha256} {evidence : InvalidActionEvidence} {body : Bytes}
    (h : invalidProviderPayload sha evidence = .ok body) : body.length ≤ MAX_ACTION_BYTES := by
  unfold invalidProviderPayload at h
  obtain ⟨first, -, h⟩ := bind_ok_iff.mp h
  split at h
  · rename_i hshort
    obtain rfl := Except.ok.inj h
    exact hshort
  · obtain ⟨second, -, h⟩ := bind_ok_iff.mp h
    obtain ⟨⟨⟩, hshort, h⟩ := bind_ok_iff.mp h
    obtain rfl := Except.ok.inj h
    exact require_eq_ok.mp hshort

end WagmiBench.Agents
