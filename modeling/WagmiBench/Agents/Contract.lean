import WagmiBench.Agents.Policy
import WagmiBench.Core.ActionStages

/-!
# The agents' side of the wire contract

`agents/common.py`: what the reference agents take for a runner request, for the text of one provider
response, and for an `action/v1` document.
-/

namespace WagmiBench.Agents

open WagmiBench.Lib WagmiBench.Core WagmiBench.Spec
open Json (Schema NodupKeys)

/-- `AgentContractError`, by its message. -/
abbrev ContractError := Text

/-- A check of the contract inside a policy. -/
def contractual {α : Type} : Except ContractError α → Except PolicyError α
  | .ok a => .ok a
  | .error _ => .error .contract

@[simp] theorem contractual_eq_ok {α : Type} {x : Except ContractError α} {a : α} :
    contractual x = .ok a ↔ x = .ok a := by
  cases x <;> simp [contractual]

/-- Two collections of keys are the same set. -/
def sameKeys (keys expected : List Text) : Prop :=
  (∀ k ∈ keys, k ∈ expected) ∧ ∀ k ∈ expected, k ∈ keys

instance (keys expected : List Text) : Decidable (sameKeys keys expected) :=
  inferInstanceAs (Decidable (_ ∧ _))

/-- `require_mapping` -/
def requireMapping (value : Option Json) (field : Text) :
    Except ContractError (List (Text × Json)) :=
  match value with
  | some (.obj members) => .ok members
  | _ => .error (field ++ txt " must be an object")

theorem requireMapping_eq_ok {value : Option Json} {field : Text} {members : List (Text × Json)} :
    requireMapping value field = .ok members ↔ value = some (.obj members) := by
  unfold requireMapping
  split <;> simp_all

/-! ## Requests -/

/-- A member that is text. -/
def isText : Option Json → Bool
  | some (.str _) => true
  | _ => false

/-- The feedback of attempt 2. -/
def validateRetry (retry : Option Json) : Except ContractError Unit := do
  let retryMap ← requireMapping retry (txt "retry")
  require (sameKeys (retryMap.map Prod.fst) (["reason", "detail", "prior_raw_sha256"].map txt))
    (txt "attempt 2 retry feedback has unexpected fields")
  require (isText (Json.lookup (txt "reason") retryMap)) (txt "retry.reason must be text")
  require (isText (Json.lookup (txt "detail") retryMap)) (txt "retry.detail must be text")
  match Json.lookup (txt "prior_raw_sha256") retryMap with
  | some (.str priorHash) => require (IsHash priorHash) (txt "retry.prior_raw_sha256 is invalid")
  | _ => .error (txt "retry.prior_raw_sha256 is invalid")

/-- `validate_runner_request`: the observation of a request. -/
def validateRunnerRequest (request : List (Text × Json)) :
    Except ContractError (List (Text × Json)) := do
  require (sameKeys (request.map Prod.fst) (["schema", "attempt", "observation", "retry"].map txt))
    (txt "runner_request/v1 has unexpected fields")
  require (Json.lookup (txt "schema") request = some (.str (txt "runner_request/v1")))
    (txt "runner request has an unknown schema")
  let attempt := Json.lookup (txt "attempt") request
  let retry := Json.lookup (txt "retry") request
  require (attempt = some (.int 1) ∨ attempt = some (.int 2))
    (txt "runner request attempt must be 1 or 2")
  require (attempt = some (.int 1) → retry.getD .null = .null) (txt "attempt 1 requires retry=null")
  if attempt = some (.int 2) then validateRetry retry
  let observation ← requireMapping (Json.lookup (txt "observation") request) (txt "observation")
  require (Json.lookup (txt "schema") observation = some (.str (txt "observation/v1")))
    (txt "observation has an unknown schema")
  let _ ← requireMapping (Json.lookup (txt "episode") observation) (txt "observation.episode")
  let markets ← requireMapping (Json.lookup (txt "markets") observation) (txt "observation.markets")
  require (markets ≠ []) (txt "observation.markets must not be empty")
  markets.forM fun (alias', market) => do
    require (isMarketAlias alias') (txt "observation contains an invalid market alias")
    let _ ← requireMapping (some market) (txt "observation.markets." ++ alias')
  let _ ← requireMapping (Json.lookup (txt "risk") observation) (txt "observation.risk")
  return observation

/-- `runner_retry_feedback` -/
def runnerRetryFeedback (request : List (Text × Json)) :
    Except ContractError (Option (List (Text × Json))) := do
  let _ ← validateRunnerRequest request
  if Json.lookup (txt "attempt") request = some (.int 1) then
    return none
  let retry ← requireMapping (Json.lookup (txt "retry") request) (txt "retry")
  return some retry

/-- `market_aliases` -/
def marketAliases (observation : List (Text × Json)) : Except ContractError (List Text) := do
  let markets ← requireMapping (Json.lookup (txt "markets") observation) (txt "observation.markets")
  return sortTexts (markets.map Prod.fst)

/-! ## Provider output -/

/-- What leaves `decode_action_object`. -/
inductive DecodeError where
  | contract (message : ContractError)
  /-- `RecursionError` -/
  | recursion
  /-- The `ValueError` of an integer with too many digits. -/
  | digits

/-- The messages of `_reject_float`, `_reject_constant` and `_reject_duplicate_keys`. -/
def refusalMessage : Json.Refusal → ContractError
  | .fractional token => txt "fractional JSON number is forbidden in action output: " ++ token
  | .nonfinite token => txt "non-finite JSON token is forbidden: " ++ token
  | .duplicateKey _ => txt "action output has a duplicate JSON key"

/-- `decode_action_object`: of the reader's own exceptions only `JSONDecodeError` is caught. -/
def decodeActionObject (limits : Json.Limits) (raw : Text) :
    Except DecodeError (List (Text × Json)) :=
  match Json.loads limits Json.strictHooks raw with
  | .ok (.obj members) => .ok members
  | .ok _ => .error (.contract (txt "provider output must be a JSON object"))
  | .error .decode => .error (.contract (txt "provider output is not one JSON document"))
  | .error (.hook refusal) => .error (.contract (refusalMessage refusal))
  | .error .recursion => .error .recursion
  | .error .digits => .error .digits

/-! ## Documents -/

abbrev ACTION_FIELDS : List Text :=
  ["schema", "intent_kind", "target", "max_slippage_bps", "comment", "usage", "ext"].map txt

/-- One target of `validate_action_document`. -/
def validateTarget (alias' : Text) (value : Json) : Except ContractError Unit := do
  require (isMarketAlias alias') (txt "action.target contains an invalid alias")
  match value with
  | .int n => require (-999 ≤ n ∧ n ≤ 999) (txt "integer target is outside the v1 bound")
  | .str text =>
    require ((parseDecimalTarget text).isSome)
      (txt "target leverage must be an integer or decimal string")
  | _ => .error (txt "target leverage must be an integer or decimal string")

/-- `max_slippage_bps`, where absent and null are the same. -/
def validateSlippage (value : Option Json) : Except ContractError Unit :=
  match value with
  | none | some .null => .ok ()
  | some (.int n) =>
    require (0 ≤ n ∧ n ≤ 10_000) (txt "max_slippage_bps is outside 0 through 10000")
  | some _ => .error (txt "max_slippage_bps is outside 0 through 10000")

/-- `comment`, where absent and null are the same. -/
def validateComment (value : Option Json) : Except ContractError Unit :=
  match value with
  | none | some .null => .ok ()
  | some (.str comment) => require (comment.length ≤ 2_000) (txt "action.comment is invalid")
  | some _ => .error (txt "action.comment is invalid")

/-- `usage`, where absent and null are the same. -/
def validateUsage (value : Option Json) : Except ContractError Unit :=
  match value with
  | none | some .null => .ok ()
  | some usage => do
    let usageMap ← requireMapping (some usage) (txt "action.usage")
    require (∀ m ∈ usageMap, m.1 = txt "input_tokens" ∨ m.1 = txt "output_tokens")
      (txt "action.usage contains an unknown field")
    require (∀ m ∈ usageMap, isTokenCount m.2) (txt "action.usage values must be non-negative")

/-- `ext` -/
def validateExt (value : Option Json) : Except ContractError Unit :=
  match value with
  | none => .ok ()
  | some (.obj ext) => require (validMembers ext) (txt "action.ext is invalid")
  | some _ => .error (txt "action.ext is invalid")

/-- `validate_action_document` -/
def validateActionDocument (action : List (Text × Json)) (aliases : List Text)
    (requireAllMarkets : Bool) : Except ContractError (List (Text × Json)) := do
  require (∀ m ∈ action, m.1 ∈ ACTION_FIELDS) (txt "action contains an unknown top-level field")
  require (Json.lookup (txt "schema") action = some (.str (txt "action/v1")))
    (txt "action schema must be action/v1")
  require ((Json.lookup (txt "intent_kind") action).getD (.str (txt "leverage_target")) =
      .str (txt "leverage_target")) (txt "action intent_kind is not supported in v1")
  let target ← requireMapping (Json.lookup (txt "target") action) (txt "action.target")
  require (1 ≤ target.length ∧ target.length ≤ 16)
    (txt "action.target must contain 1 through 16 markets")
  require (∀ m ∈ target, m.1 ∈ aliases) (txt "action.target contains an unknown market")
  require (requireAllMarkets → sameKeys (target.map Prod.fst) aliases)
    (txt "baseline action must target every observed market")
  target.forM fun (alias', value) => validateTarget alias' value
  validateSlippage (Json.lookup (txt "max_slippage_bps") action)
  validateComment (Json.lookup (txt "comment") action)
  validateUsage (Json.lookup (txt "usage") action)
  validateExt (Json.lookup (txt "ext") action)
  return action

/-! ## What is accepted -/

theorem unit_bind_ok_iff {ε β : Type} {head : Except ε Unit} {tail : Unit → Except ε β} {b : β} :
    (head >>= tail) = .ok b ↔ head = .ok () ∧ tail () = .ok b := by
  cases head <;> simp

theorem forM_eq_ok {ε α : Type} {f : α → Except ε Unit} {xs : List α} :
    xs.forM f = .ok () ↔ ∀ x ∈ xs, f x = .ok () := by
  induction xs with
  | nil => simp [pure_eq_ok]
  | cons x xs ih =>
    change (f x >>= fun _ => xs.forM f) = .ok () ↔ _
    rw [unit_bind_ok_iff, List.forall_mem_cons, ih]

theorem validateTarget_eq_ok {alias' : Text} {value : Json} :
    validateTarget alias' value = .ok () ↔
      isMarketAlias alias' = true ∧ Schema.Valid actionDefs TARGET_VALUE value := by
  simp only [validateTarget, bind_ok_iff, require_eq_ok, exists_const]
  refine and_congr_right fun _ => ?_
  cases value with
  | int n => simp [TARGET_VALUE]
  | str text =>
    have hformat : Schema.Valid actionDefs TARGET_VALUE (.str text) ↔
        Schema.Valid actionDefs TARGET_FORMAT (.str text) := by
      simp [TARGET_VALUE, TARGET_FORMAT]
    rw [hformat, valid_targetFormat_iff, require_eq_ok, parseTarget]
    cases parseDecimalTarget text <;> simp
  | _ => simp [TARGET_VALUE]

theorem validateSlippage_eq_ok {value : Option Json} : validateSlippage value = .ok () ↔
    ∀ w, value = some w → w ≠ .null → Schema.Valid actionDefs SLIPPAGE w := by
  cases value with
  | none => simp [validateSlippage]
  | some w => cases w <;> simp [validateSlippage, SLIPPAGE]

theorem validateComment_eq_ok {value : Option Json} : validateComment value = .ok () ↔
    ∀ w, value = some w → w ≠ .null → ∃ comment, w = .str comment ∧ comment.length ≤ 2000 := by
  cases value with
  | none => simp [validateComment]
  | some w => cases w <;> simp [validateComment]

/-- `usage` in `action/v1`. -/
abbrev USAGE : Schema :=
  .object [] [("input_tokens", .integer (some 0) none), ("output_tokens", .integer (some 0) none)]
    none

theorem validateUsage_eq_ok {value : Option Json}
    (hnodup : ∀ usage, value = some (.obj usage) → NodupKeys usage) :
    validateUsage value = .ok () ↔
      ∀ w, value = some w → w ≠ .null → Schema.Valid actionDefs USAGE w := by
  cases value with
  | none => simp [validateUsage]
  | some w =>
    cases w with
    | obj usage =>
      simp only [validateUsage, requireMapping, ok_bind, bind_ok_iff, require_eq_ok, exists_const,
        Option.some.injEq, forall_eq', ne_eq, reduceCtorEq, not_false_eq_true, true_imp_iff]
      exact (valid_usage_iff (hnodup usage rfl)).symm
    | _ => simp [validateUsage, requireMapping, USAGE, Schema.valid_object]

theorem validateExt_eq_ok {value : Option Json} : validateExt value = .ok () ↔
    ∀ w, value = some w → ∃ ext, w = .obj ext ∧ validMembers ext = true := by
  cases value with
  | none => simp [validateExt]
  | some w => cases w <;> simp [validateExt]

/-- What `validate_action_document` lets through: `action/v1` where null is as good as absent, with
targets for observed markets. -/
structure Accepted (aliases : List Text) (requireAllMarkets : Bool)
    (action : List (Text × Json)) : Prop where
  known : ∀ m ∈ action, m.1 ∈ KNOWN_TOP_LEVEL_FIELDS
  schema : Json.lookup (txt "schema") action = some (.str (txt "action/v1"))
  intent : ∀ w, Json.lookup (txt "intent_kind") action = some w → w = .str (txt "leverage_target")
  target : ∃ target, Json.lookup (txt "target") action = some (.obj target) ∧
    (1 ≤ target.length ∧ target.length ≤ 16) ∧ (∀ m ∈ target, isMarketAlias m.1 = true) ∧
    (∀ m ∈ target, Schema.Valid actionDefs TARGET_VALUE m.2) ∧ (∀ m ∈ target, m.1 ∈ aliases) ∧
    (requireAllMarkets → ∀ a ∈ aliases, a ∈ target.map Prod.fst)
  slippage : ∀ w, Json.lookup (txt "max_slippage_bps") action = some w → w ≠ .null →
    Schema.Valid actionDefs SLIPPAGE w
  comment : ∀ w, Json.lookup (txt "comment") action = some w → w ≠ .null →
    ∃ comment, w = .str comment ∧ comment.length ≤ 2000
  usage : ∀ w, Json.lookup (txt "usage") action = some w → w ≠ .null →
    Schema.Valid actionDefs USAGE w
  ext : ∀ w, Json.lookup (txt "ext") action = some w →
    ∃ ext, w = .obj ext ∧ validMembers ext = true

/-- **The agent's validator.** -/
theorem validateActionDocument_eq_ok {action result : List (Text × Json)} {aliases : List Text}
    {requireAllMarkets : Bool} (hdistinct : (Json.obj action).Distinct) :
    validateActionDocument action aliases requireAllMarkets = .ok result ↔
      result = action ∧ Accepted aliases requireAllMarkets action := by
  rw [Json.Distinct, Json.distinctMembers_iff] at hdistinct
  have usage : ∀ usage, Json.lookup (txt "usage") action = some (.obj usage) → NodupKeys usage := by
    intro usage h
    have := hdistinct.2 _ ((Json.lookup_eq_some_iff hdistinct.1).mp h)
    exact this.1
  have intent : (Json.lookup (txt "intent_kind") action).getD (.str (txt "leverage_target")) =
      .str (txt "leverage_target") ↔ ∀ w, Json.lookup (txt "intent_kind") action = some w →
        w = .str (txt "leverage_target") := by
    cases Json.lookup (txt "intent_kind") action <;> simp
  simp only [validateActionDocument, bind_ok_iff, Unique.exists_iff, PUnit.default_eq_unit,
    require_eq_ok, requireMapping_eq_ok, forM_eq_ok, validateTarget_eq_ok, validateSlippage_eq_ok, validateComment_eq_ok,
    validateUsage_eq_ok usage, validateExt_eq_ok, pure_eq_ok, Except.ok.injEq, intent]
  constructor
  · rintro ⟨hknown, hschema, hintent, target, htarget, hcount, haliases, hall, hvalues, hslippage,
      hcomment, husage, hext, rfl⟩
    exact ⟨rfl, hknown, hschema, hintent, ⟨target, htarget, hcount, fun m hm => (hvalues m hm).1,
      fun m hm => (hvalues m hm).2, haliases, fun h => (hall h).2⟩, hslippage, hcomment, husage, hext⟩
  · rintro ⟨rfl, hknown, hschema, hintent, ⟨target, htarget, hcount, hnames, hvalues, haliases, hall⟩,
      hslippage, hcomment, husage, hext⟩
    refine ⟨hknown, hschema, hintent, target, htarget, hcount, haliases, fun h => ⟨?_, hall h⟩,
      fun m hm => ⟨hnames m hm, hvalues m hm⟩, hslippage, hcomment, husage, hext, rfl⟩
    exact List.forall_mem_map.mpr haliases

end WagmiBench.Agents
