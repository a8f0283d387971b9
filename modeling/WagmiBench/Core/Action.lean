import WagmiBench.Core.Config
import WagmiBench.Lib.JsonParser

/-!
# Action parsing

`core/action.py`: the V1-to-V8 stages of `parse_action` in their frozen order. Agent bytes are data:
every stage but the last check of the caller's own argument ends in a reason, not in an exception.
-/

namespace WagmiBench.Core

open WagmiBench.Lib

abbrev MAX_ACTION_BYTES : ℕ := 65_536
abbrev MAX_TARGET_LEV_1E4 : ℤ := 9_999_999
abbrev MAX_EXACT_JSON_INT : ℤ := 9_007_199_254_740_991

/-- `core.action.ActionReason` -/
inductive ActionReason where
  | oversize
  | invalidJson
  | unknownSchema
  | schemaInvalid
  | unknownField
  | unknownMarket
  | invalidTargetFormat
  | floatTarget
  | targetOutOfRange
  | invalidSlippage
  deriving DecidableEq, Repr

/-- The reason as it is written on the wire. -/
def ActionReason.wire : ActionReason → Text
  | .oversize => txt "oversize"
  | .invalidJson => txt "invalid_json"
  | .unknownSchema => txt "unknown_schema"
  | .schemaInvalid => txt "schema_invalid"
  | .unknownField => txt "unknown_field"
  | .unknownMarket => txt "unknown_market"
  | .invalidTargetFormat => txt "invalid_target_format"
  | .floatTarget => txt "float_target"
  | .targetOutOfRange => txt "target_out_of_range"
  | .invalidSlippage => txt "invalid_slippage"

/-- Canonical parsed action. The intent kind is always `leverage_target`; targets are keyed by
alias, in lexical order. -/
structure ParsedAction where
  targetLev1e4 : List (Text × ℤ)
  maxSlippageBps : Option ℤ
  fromAttempt : ℕ
  deriving DecidableEq, Repr

/-- `ParsedAction.to_mapping` -/
def ParsedAction.toMapping (action : ParsedAction) : List (Text × Json) :=
  [(txt "intent_kind", .str (txt "leverage_target")),
   (txt "target_lev_1e4", .obj (action.targetLev1e4.map fun t => (t.1, .int t.2))),
   (txt "max_slippage_bps", jsonOptInt action.maxSlippageBps),
   (txt "from_attempt", .int action.fromAttempt)]

/-- Total parse result: an action or the reason of the first failing stage. -/
inductive ActionParseResult where
  | accepted (action : ParsedAction)
  | rejected (reason : ActionReason)
  deriving DecidableEq, Repr

/-! ## Wire grammar -/

/-- The hooks of the action reader: fractional lexemes are kept as they are, non-finite constants
and duplicate keys are refused. -/
def actionHooks : Json.Hooks Json.Refusal where
  parseFloat token := .ok (.float token)
  parseConstant token := .error (.nonfinite token)
  objectPairs := Json.rejectDuplicateKeys

/-- `MARKET_PATTERN`: one to twelve uppercase letters and digits. -/
def isMarketAlias (alias' : Text) : Bool :=
  alias' ≠ [] && alias'.length ≤ 12 &&
    alias'.all fun c => isDigit c || (0x41 ≤ c.val && c.val ≤ 0x5A)

mutual

/-- `_valid_extension`: an extension value that canonical JSON can hold. The source walks the value
with a stack; the answer does not depend on the order. -/
def validExtension : Json → Bool
  | .null | .bool _ | .str _ => true
  | .int n => |n| ≤ MAX_EXACT_JSON_INT
  | .arr items => validItems items
  | .obj members => validMembers members
  | .float _ => false

/-- `validExtension` on every item. -/
def validItems : List Json → Bool
  | [] => true
  | v :: items => validExtension v && validItems items

/-- `validExtension` on every member's value. -/
def validMembers : List (Text × Json) → Bool
  | [] => true
  | (_, v) :: members => validExtension v && validMembers members

end

/-- A non-negative exact integer. -/
def isTokenCount : Json → Bool
  | .int n => 0 ≤ n
  | _ => false

abbrev KNOWN_TOP_LEVEL_FIELDS : List Text :=
  ["schema", "intent_kind", "target", "max_slippage_bps", "comment", "usage", "ext"].map txt

/-- `_v4_shape_is_valid`. Target values and slippage stay unchecked here: their own reasons must win
over `schema_invalid`. -/
def v4ShapeIsValid (document : List (Text × Json)) : Bool :=
  (match (Json.lookup (txt "intent_kind") document).getD (.str (txt "leverage_target")) with
    | .str intent => intent = txt "leverage_target"
    | _ => false) &&
  (match Json.lookup (txt "target") document with
    | some (.obj target) =>
      1 ≤ target.length && target.length ≤ 16 && target.all fun m => isMarketAlias m.1
    | _ => false) &&
  (match Json.lookup (txt "comment") document with
    | none => true
    | some (.str comment) => comment.length ≤ 2000
    | some _ => false) &&
  (match Json.lookup (txt "usage") document with
    | none => true
    | some (.obj usage) =>
      (usage.all fun m => m.1 = txt "input_tokens" || m.1 = txt "output_tokens") &&
        usage.all fun m => isTokenCount m.2
    | some _ => false) &&
  (match Json.lookup (txt "ext") document with
    | none => true
    | some (.obj ext) => validMembers ext
    | some _ => false)

/-- A decimal without leading zeros and of at most three digits. -/
def isWhole : Text → Bool
  | [] => false
  | [c] => isDigit c
  | c :: t => isDigit c && c.val ≠ 0x30 && t.length ≤ 2 && t.all isDigit

/-- The split of an unsigned target at its dot: the whole part, and the digits after a dot. -/
def splitDot (t : Text) : Text × Option Text :=
  let whole := t.takeWhile fun c => c.val ≠ 0x2E
  match t.dropWhile fun c => c.val ≠ 0x2E with
  | [] => (whole, none)
  | _ :: fraction => (whole, some fraction)

/-- `_parse_decimal_target`: `TARGET_PATTERN`, in units of `1e-4`. -/
def parseDecimalTarget (value : Text) : Option ℤ :=
  let negative := value.head? = some (codePoint 0x2D)
  let unsigned := if negative then value.drop 1 else value
  let (whole, fraction) := splitDot unsigned
  let fractionDigits := fraction.getD []
  if isWhole whole ∧ (fraction = none ∨ (1 ≤ fractionDigits.length ∧ fractionDigits.length ≤ 4)) ∧
      fractionDigits.all isDigit then
    let units : ℤ := ofDecimal whole * 10_000 +
      ofDecimal (fractionDigits ++ List.replicate (4 - fractionDigits.length) (codePoint 0x30))
    some (if negative then -units else units)
  else none

/-- One target value, V6. -/
def parseTarget : Json → Except ActionReason ℤ
  | .float _ => .error .floatTarget
  | .int n => .ok (n * 10_000)
  | .str value =>
    match parseDecimalTarget value with
    | some units => .ok units
    | none => .error .invalidTargetFormat
  | _ => .error .invalidTargetFormat

/-- `max_slippage_bps`, V8. -/
def parseSlippage (document : List (Text × Json)) : Except ActionReason (Option ℤ) :=
  match Json.lookup (txt "max_slippage_bps") document with
  | none => .ok none
  | some (.int n) => if n < 0 ∨ 10_000 < n then .error .invalidSlippage else .ok (some n)
  | some _ => .error .invalidSlippage

/-! ## Stages -/

section Stages

variable (limits : Json.Limits) (declaredMarkets : List Text)

/-- V1 and V2: one complete JSON document of bounded size. -/
def readDocument (body : Bytes) : Except ActionReason Json := do
  require (body.length ≤ MAX_ACTION_BYTES) .oversize
  match utf8Decode false body with
  | none => .error .oversize
  | some text =>
    match Json.loads limits actionHooks text with
    | .ok decoded => return decoded
    | .error _ => .error .invalidJson

/-- V3 to V8 on a decoded document: the targets and the slippage bound. -/
def parseDocument (decoded : Json) : Except ActionReason (List (Text × ℤ) × Option ℤ) := do
  match decoded with
  | .obj document =>
    match Json.lookup (txt "schema") document with
    | some (.str schema) => require (schema = txt "action/v1") .unknownSchema
    | _ => .error .unknownSchema
    require (∀ m ∈ document, m.1 ∈ KNOWN_TOP_LEVEL_FIELDS) .unknownField
    require (v4ShapeIsValid document) .schemaInvalid
    match Json.lookup (txt "target") document with
    | some (.obj target) =>
      let aliases := sortTexts (target.map Prod.fst)
      require (∀ a ∈ aliases, a ∈ declaredMarkets) .unknownMarket
      let parsedTargets ← aliases.mapM fun a => do
        let units ← parseTarget ((Json.lookup a target).getD .null)
        return (a, units)
      require (∀ t ∈ parsedTargets, ¬ MAX_TARGET_LEV_1E4 < |t.2|) .targetOutOfRange
      let slippage ← parseSlippage document
      return (parsedTargets, slippage)
    | _ => .error .schemaInvalid
  | _ => .error .unknownSchema

/-- Parse one response without raising on malformed agent bytes. -/
def parseAction (body : Bytes) (fromAttempt : ℕ) : Py ActionParseResult :=
  match readDocument limits body >>= parseDocument declaredMarkets with
  | .error reason => .ok (.rejected reason)
  | .ok (targets, slippage) => do
    require (1 ≤ fromAttempt) (.valueError "from_attempt must be a positive integer")
    return .accepted ⟨targets, slippage, fromAttempt⟩

end Stages

/-- Whatever the bytes, parsing returns: only the caller's attempt number can be refused. -/
theorem parseAction_returns (limits : Json.Limits) (declaredMarkets : List Text) (body : Bytes)
    {fromAttempt : ℕ} (h : 1 ≤ fromAttempt) :
    Returns (parseAction limits declaredMarkets body fromAttempt) := by
  unfold parseAction
  split
  · exact ⟨_, rfl⟩
  · exact ⟨_, by rw [require_pos h]; rfl⟩

end WagmiBench.Core
