import WagmiBench.Core.Engine.State
import WagmiBench.Tools.ReferenceMatrix.Plan

/-!
# Matrix documents

The documents that `tools/llm_reference_matrix.py` publishes: the authorization of a matrix, the
receipt of a paid attempt before it starts, and the receipts of what the smoke call and each pack
cost. A receipt carries, beside its document, the entries that are read back from it; the amounts
among them are the ones `_decimal_text` spelled in the document.
-/

namespace WagmiBench.Tools.ReferenceMatrix

open WagmiBench.Lib WagmiBench.Core WagmiBench.Spec

abbrev FIREWORKS_DOMAIN : String := "api.fireworks.ai"

/-! ## What every document repeats -/

/-- `canonical_bytes` -/
def canonical (document : Json) : Except MatrixExc Bytes :=
  (canonicalBytes document).mapError .raised

/-- `document[part][name]` -/
def entry (document : Json) (part name : String) : Option Json :=
  (document.get? (txt part)).bind (Json.get? (txt name))

/-- `_limits_document` -/
def limitsDocument : Json :=
  jsonObj [("pack_cost_usd_exclusive", jsonStr PACK_COST_LIMIT_TEXT),
    ("matrix_cost_usd_exclusive", jsonStr MATRIX_COST_LIMIT_TEXT)]

/-- `_pricing_document` -/
def pricingDocument (pricing : ModelPricing) : Json :=
  jsonObj [("input_usd_per_million", .str pricing.inputUsdPerMillion),
    ("cached_input_usd_per_million", .str pricing.cachedInputUsdPerMillion),
    ("output_usd_per_million", .str pricing.outputUsdPerMillion),
    ("estimate_input_assumption", jsonStr "all_uncached")]

/-- `_prior_accounting_document` -/
def priorAccountingDocument (settings : MatrixSettings) : Json :=
  jsonObj [("prior_failed_run_reserve_usd", .str settings.priorFailedRunReserveText),
    ("prior_failure_receipt_sha256", jsonOptStr settings.priorFailureReceiptSha256)]

/-- `_images_document` -/
def imagesDocument (settings : MatrixSettings) : Json :=
  jsonObj [("agent", .str settings.agentImageDigest), ("gateway", .str settings.gatewayImageDigest),
    ("guard", .str settings.guardImageDigest)]

/-- The `provider` member of the receipts. -/
def providerDocument (settings : MatrixSettings) : Json :=
  jsonObj [("domain", jsonStr FIREWORKS_DOMAIN), ("model", .str settings.model)]

section Documents

variable (sha : Sha256)

/-- `sha256_prefixed(canonical_bytes(document))` -/
def commitment (document : Json) : Except MatrixExc Json := do
  let bytes ← canonical document
  return .str (sha.prefixed bytes)

/-! ## Before a purchase -/

/-- `_authorization_document` -/
def authorizationDocument (settings : MatrixSettings) (plans : List PackPlan)
    (smokePlan : SmokePlan) : Except MatrixExc Json := do
  let smokeEstimate ← commitment sha smokePlan.estimateDocument
  let packEstimates ← plans.mapM fun plan => do
    let estimate ← commitment sha plan.estimateDocument
    return (plan.packId.name, estimate)
  return jsonObj [("schema", jsonStr "llm_reference_authorization/v1"),
    ("provider", providerDocument settings), ("images", imagesDocument settings),
    ("accounting", priorAccountingDocument settings), ("smoke_estimate_sha256", smokeEstimate),
    ("pack_estimate_sha256", jsonObj packEstimates), ("limits", limitsDocument)]

/-- `_pack_attempt_document`, from the bytes of `authorization.json`. -/
def packAttemptDocument (settings : MatrixSettings) (plan : PackPlan) (authorizationBytes : Bytes) :
    Except MatrixExc Json := do
  let estimate ← commitment sha plan.estimateDocument
  let bound ← authorizationCost plan
  return jsonObj [("schema", jsonStr "llm_reference_pack_attempt/v1"), ("status", jsonStr "STARTED"),
    ("pack", jsonObj [("pack_id", jsonStr plan.packId.name), ("content_hash", .str plan.contentHash)]),
    ("provider", providerDocument settings), ("images", imagesDocument settings),
    ("accounting", priorAccountingDocument settings), ("estimate_receipt_sha256", estimate),
    ("authorization_receipt_sha256", .str (sha.prefixed authorizationBytes)),
    ("authorization_bound_usd", .str (decimalText bound))]

/-- `_smoke_attempt_document`, from the bytes of `authorization.json`. -/
def smokeAttemptDocument (settings : MatrixSettings) (smokePlan : SmokePlan)
    (authorizationBytes : Bytes) : Except MatrixExc Json := do
  let estimate ← commitment sha smokePlan.estimateDocument
  let bound ← smokeAuthorizationCost smokePlan
  return jsonObj [("schema", jsonStr "llm_reference_smoke_attempt/v1"),
    ("status", jsonStr "STARTED"), ("pack_id", jsonStr smokePlan.packId.name),
    ("provider", providerDocument settings), ("images", imagesDocument settings),
    ("accounting", priorAccountingDocument settings), ("estimate_receipt_sha256", estimate),
    ("authorization_receipt_sha256", .str (sha.prefixed authorizationBytes)),
    ("authorization_bound_usd", .str (decimalText bound))]

end Documents

/-! ## What a purchase cost -/

/-- `UnpricedAttempt` -/
structure UnpricedAttempt where
  turn : ℕ
  attempt : ℕ
  reason : Text
  observationSha256 : Text
  inputTokensUpperBound : ℕ
  outputTokensUpperBound : ℕ
  costUpperBoundUsd : ℕ

/-- `UsageReceipt` -/
structure UsageReceipt where
  attempts : ℕ
  inputTokens : ℕ
  cachedInputTokens : ℕ
  uncachedInputTokens : ℕ
  outputTokens : ℕ
  costUsd : ℕ
  unpricedAttempts : List UnpricedAttempt

/-- `_unpriced_cost_reserve` -/
def unpricedCostReserve (usage : UsageReceipt) : ℕ :=
  (usage.unpricedAttempts.map UnpricedAttempt.costUpperBoundUsd).sum

/-- `_accounting_cost_upper_bound` -/
def accountingCostUpperBound (usage : UsageReceipt) : ℕ :=
  usage.costUsd + unpricedCostReserve usage

/-- `_unpriced_attempt_document` -/
def unpricedAttemptDocument (attempt : UnpricedAttempt) : Json :=
  jsonObj [("turn", .int attempt.turn), ("attempt", .int attempt.attempt),
    ("reason", .str attempt.reason), ("observation_sha256", .str attempt.observationSha256),
    ("input_tokens_upper_bound", .int attempt.inputTokensUpperBound),
    ("output_tokens_upper_bound", .int attempt.outputTokensUpperBound),
    ("cost_upper_bound_usd", .str (decimalText attempt.costUpperBoundUsd))]

/-- The token counts of an `actual` member. -/
def tokenMembers (usage : UsageReceipt) : List (String × Json) :=
  [("input_tokens", .int usage.inputTokens), ("cached_input_tokens", .int usage.cachedInputTokens),
    ("uncached_input_tokens", .int usage.uncachedInputTokens),
    ("output_tokens", .int usage.outputTokens)]

/-! ### The smoke call -/

/-- The receipt of a passed smoke call, with what its document says it cost. -/
structure SmokeReceipt where
  document : Json
  costUsd : ℕ
  within2x : Bool
  cost_spelled : entry document "actual" "cost_usd" = some (.str (decimalText costUsd))
  within_spelled : entry document "estimate_comparison" "within_2x" = some (.bool within2x)

/-- `_smoke_receipt`, from the attempt document. -/
def smokeReceipt (sha : Sha256) (settings : MatrixSettings) (smokePlan : SmokePlan) (attempt : Json)
    (responseBytes : Bytes) (usage : UsageReceipt) : Except MatrixExc SmokeReceipt := do
  require (usage.costUsd < PACK_COST_LIMIT_USD)
    (.matrixError "smoke actual cost is not strictly below the per-pack limit")
  let estimateCost ← match smokePlan.estimate.estimatedCostUsd with
    | some value => .ok value
    | none => .error (.matrixError "smoke pre-run estimate has no USD price")
  let authorizationCost ← smokeAuthorizationCost smokePlan
  require (usage.costUsd ≤ authorizationCost)
    (.matrixError "smoke actual cost exceeds its authorization bound")
  let observation ← commitment sha smokePlan.observation
  let estimate ← commitment sha smokePlan.estimateDocument
  let attempt ← commitment sha attempt
  return {
    document := jsonObj [("schema", jsonStr "llm_reference_smoke_receipt/v1"),
      ("status", jsonStr "PASS"), ("pack_id", jsonStr smokePlan.packId.name),
      ("observation_sha256", observation), ("estimate_receipt_sha256", estimate),
      ("attempt_receipt_sha256", attempt), ("provider", providerDocument settings),
      ("images", imagesDocument settings),
      ("response", jsonObj [("bytes", .int responseBytes.length),
        ("sha256", .str (sha.prefixed responseBytes))]),
      ("pricing", pricingDocument settings.pricing),
      ("actual", jsonObj ([("usage_source", jsonStr "provider_reported_with_cache_detail"),
        ("attempts", .int 1)] ++ tokenMembers usage ++
        [("cost_usd", .str (decimalText usage.costUsd)), ("within_pack_limit", .bool true)])),
      ("estimate_comparison", jsonObj [("estimated_cost_usd", .str (decimalText estimateCost)),
        ("actual_cost_usd", .str (decimalText usage.costUsd)),
        ("within_2x", .bool (withinTwoX estimateCost usage.costUsd))]),
      ("authorization_comparison", jsonObj
        [("authorization_bound_usd", .str (decimalText authorizationCost)),
          ("actual_cost_usd", .str (decimalText usage.costUsd)),
          ("within_authorization", .bool true)]),
      ("limits", limitsDocument)]
    costUsd := usage.costUsd
    within2x := withinTwoX estimateCost usage.costUsd
    cost_spelled := by simp [entry, Json.get?, tokenMembers]
    within_spelled := by simp [entry, Json.get?] }

/-- `_smoke_failure_receipt`, from the attempt document and the usage the response still shows. -/
def smokeFailureReceipt (sha : Sha256) (settings : MatrixSettings) (smokePlan : SmokePlan)
    (attempt : Json) (reason : String) (httpStatus : Option ℤ) (responseBytes : Option Bytes)
    (usage : Option UsageReceipt) : Except MatrixExc Json := do
  let estimate ← commitment sha smokePlan.estimateDocument
  let attempt ← commitment sha attempt
  let reserve ← match usage with
    | some usage => .ok usage.costUsd
    | none => smokeAuthorizationCost smokePlan
  return jsonObj [("schema", jsonStr "llm_reference_smoke_failure_receipt/v1"),
    ("status", jsonStr "FAILED_CLOSED"), ("reason", jsonStr reason),
    ("http_status", jsonOptInt httpStatus), ("pack_id", jsonStr smokePlan.packId.name),
    ("estimate_receipt_sha256", estimate), ("attempt_receipt_sha256", attempt),
    ("provider", providerDocument settings), ("images", imagesDocument settings),
    ("response", match responseBytes with
      | some bytes => jsonObj [("bytes", .int bytes.length), ("sha256", .str (sha.prefixed bytes))]
      | none => .null),
    ("actual", match usage with
      | some usage => jsonObj ([("usage_source", jsonStr "provider_reported_with_cache_detail"),
          ("attempts", .int 1)] ++ tokenMembers usage ++
          [("cost_usd", .str (decimalText usage.costUsd))])
      | none => .null),
    ("accounting_reserve_usd", .str (decimalText reserve)), ("limits", limitsDocument)]

/-! ### A pack -/

/-- `ReportArtifacts`, encoded. -/
structure ReportArtifacts where
  terminalText : Bytes
  html : Bytes
  shareCardSvg : Bytes

/-- The reports of a pack. -/
inductive Report where
  | html
  | text
  | shareCard
  deriving DecidableEq

def Report.name : Report → String
  | .html => "report.html"
  | .text => "report.txt"
  | .shareCard => "share-card.svg"

/-- The reports in the order of `_report_contents`. -/
def Report.all : List Report := [.text, .html, .shareCard]

/-- The reports in the order of their names. -/
def Report.sorted : List Report := [.html, .text, .shareCard]

/-- `_report_contents` -/
def reportContents (artifacts : ReportArtifacts) : Report → Bytes
  | .html => artifacts.html
  | .text => artifacts.terminalText
  | .shareCard => artifacts.shareCardSvg

/-- `_report_document` -/
def reportDocument (sha : Sha256) (artifacts : ReportArtifacts) : Json :=
  jsonObj (Report.sorted.map fun report => (report.name,
    jsonObj [("bytes", .int (reportContents artifacts report).length),
      ("sha256", .str (sha.prefixed (reportContents artifacts report)))]))

/-- What verification, replay and the usage count found in a COMPLETE bundle. -/
structure BundleFacts where
  root : Text
  replayRoot : Text
  manifestSha256 : Text
  runId : Text
  episodeId : Text
  agentManifestSha256 : Text
  filesCompared : List Text
  decisionsCompared : ℕ
  usage : UsageReceipt
  artifacts : ReportArtifacts

/-- The receipt of a bought pack, with what its document says it cost. -/
structure PackReceipt where
  document : Json
  costUsd : ℕ
  /-- The reserve for attempts without usage, and the sum with it. -/
  unpriced : Option (ℕ × ℕ)
  within2x : Bool
  cost_spelled : entry document "actual" "cost_usd" = some (.str (decimalText costUsd))
  reserve_spelled : entry document "actual" "unpriced_cost_reserve_usd" =
    unpriced.map fun u => .str (decimalText u.1)
  upper_spelled : entry document "actual" "cost_upper_bound_usd" =
    unpriced.map fun u => .str (decimalText u.2)
  within_spelled : entry document "estimate_comparison" "within_2x" = some (.bool within2x)

/-- The members of `_actual_receipt` that are the same with and without unpriced attempts. -/
def commonMembers (sha : Sha256) (settings : MatrixSettings) (plan : PackPlan) (bundle : BundleFacts)
    (estimate attempt : Json) : List (String × Json) :=
  [("status", jsonStr "COMPLETE"),
    ("pack", jsonObj [("pack_id", jsonStr plan.packId.name),
      ("content_hash", .str plan.contentHash), ("manifest_sha256", .str bundle.manifestSha256)]),
    ("estimate_receipt_sha256", estimate), ("attempt_receipt_sha256", attempt),
    ("provider", providerDocument settings), ("images", imagesDocument settings),
    ("bundle", jsonObj [("run_id", .str bundle.runId), ("episode_id", .str bundle.episodeId),
      ("root", .str bundle.root), ("agent_manifest_sha256", .str bundle.agentManifestSha256)]),
    ("replay", jsonObj [("bundle_root", .str bundle.replayRoot),
      ("files_compared", .arr (bundle.filesCompared.map .str)),
      ("decisions_compared", .int bundle.decisionsCompared)]),
    ("pricing", pricingDocument settings.pricing), ("reports", reportDocument sha bundle.artifacts),
    ("limits", limitsDocument)]

/-- `_actual_receipt`, from the attempt document. -/
def actualReceipt (sha : Sha256) (settings : MatrixSettings) (plan : PackPlan) (attempt : Json)
    (bundle : BundleFacts) : Except MatrixExc PackReceipt := do
  require (bundle.root = bundle.replayRoot)
    (.matrixError s!"{plan.packId.name}: verify/replay roots disagree")
  let usage := bundle.usage
  let estimateCost ← estimatedCost plan
  let authorizationCost ← authorizationCost plan
  let accountingUpper := accountingCostUpperBound usage
  require (accountingUpper ≤ authorizationCost)
    (.matrixError s!"{plan.packId.name}: accounting upper bound exceeds its authorization bound")
  let estimate ← commitment sha plan.estimateDocument
  let attempt ← commitment sha attempt
  if usage.unpricedAttempts = [] then
    return {
      document := jsonObj (commonMembers sha settings plan bundle estimate attempt ++
        [("schema", jsonStr "llm_reference_actual_receipt/v1"),
          ("actual", jsonObj ([("usage_source",
            jsonStr "provider_reported_all_stored_attempts_with_cache_detail"),
            ("attempts", .int usage.attempts)] ++ tokenMembers usage ++
            [("cost_usd", .str (decimalText usage.costUsd)),
              ("within_pack_limit", .bool (usage.costUsd < PACK_COST_LIMIT_USD))])),
          ("estimate_comparison", jsonObj [("estimated_cost_usd", .str (decimalText estimateCost)),
            ("actual_cost_usd", .str (decimalText usage.costUsd)),
            ("within_2x", .bool (withinTwoX estimateCost usage.costUsd))]),
          ("authorization_comparison", jsonObj
            [("authorization_bound_usd", .str (decimalText authorizationCost)),
              ("actual_cost_usd", .str (decimalText usage.costUsd)),
              ("within_authorization", .bool true)])])
      costUsd := usage.costUsd
      unpriced := none
      within2x := withinTwoX estimateCost usage.costUsd
      cost_spelled := by simp [entry, Json.get?, commonMembers, tokenMembers]
      reserve_spelled := by simp [entry, Json.get?, commonMembers, tokenMembers]
      upper_spelled := by simp [entry, Json.get?, commonMembers, tokenMembers]
      within_spelled := by simp [entry, Json.get?, commonMembers] }
  let reserve := unpricedCostReserve usage
  let missed := usage.unpricedAttempts.length
  let intervalWithinTwoX := withinTwoXInterval estimateCost usage.costUsd accountingUpper
  return {
    document := jsonObj (commonMembers sha settings plan bundle estimate attempt ++
      [("schema", jsonStr "llm_reference_actual_receipt/v2"),
        ("actual", jsonObj ([("usage_source",
          jsonStr "provider_reported_stored_attempts_plus_bounded_ic6_misses"),
          ("attempts", .int usage.attempts), ("unpriced_attempts", .int missed),
          ("total_attempts", .int (usage.attempts + missed)), ("missed_decisions", .int missed)] ++
          tokenMembers usage ++
          [("cost_usd", .str (decimalText usage.costUsd)),
            ("unpriced_cost_reserve_usd", .str (decimalText reserve)),
            ("cost_upper_bound_usd", .str (decimalText accountingUpper)),
            ("within_pack_limit", .bool (accountingUpper < PACK_COST_LIMIT_USD))])),
        ("unpriced_attempts", .arr (usage.unpricedAttempts.map unpricedAttemptDocument)),
        ("estimate_comparison", jsonObj [("estimated_cost_usd", .str (decimalText estimateCost)),
          ("actual_cost_lower_bound_usd", .str (decimalText usage.costUsd)),
          ("actual_cost_upper_bound_usd", .str (decimalText accountingUpper)),
          ("comparison_basis", jsonStr "entire_closed_actual_cost_interval"),
          ("within_2x", .bool intervalWithinTwoX)]),
        ("authorization_comparison", jsonObj
          [("authorization_bound_usd", .str (decimalText authorizationCost)),
            ("accounting_cost_upper_bound_usd", .str (decimalText accountingUpper)),
            ("within_authorization", .bool true)])])
    costUsd := usage.costUsd
    unpriced := some (reserve, accountingUpper)
    within2x := intervalWithinTwoX
    cost_spelled := by simp [entry, Json.get?, commonMembers, tokenMembers]
    reserve_spelled := by simp [entry, Json.get?, commonMembers, tokenMembers]
    upper_spelled := by simp [entry, Json.get?, commonMembers, tokenMembers]
    within_spelled := by simp [entry, Json.get?, commonMembers] }

/-! ### Reading the amounts back -/

/-- `_smoke_actual_cost` -/
def smokeActualCost (receipt : SmokeReceipt) : ℕ := receipt.costUsd

/-- `_receipt_cost` -/
def receiptCost (receipt : PackReceipt) : ℕ := receipt.costUsd

/-- `_receipt_unpriced_reserve` -/
def receiptUnpricedReserve (receipt : PackReceipt) : Except MatrixExc ℕ :=
  match receipt.unpriced with
  | none => .ok 0
  | some (reserve, upper) => do
    require (receiptCost receipt + reserve = upper)
      (.matrixError "actual receipt bounded-cost components do not sum")
    return reserve

/-- `_receipt_accounting_cost` -/
def receiptAccountingCost (receipt : PackReceipt) : Except MatrixExc ℕ := do
  let reserve ← receiptUnpricedReserve receipt
  return receiptCost receipt + reserve

/-- A receipt accounts for the upper bound of what its bundle cost, which is within the
authorization. -/
theorem receiptAccountingCost_actualReceipt {sha : Sha256} {settings : MatrixSettings}
    {plan : PackPlan} {attempt : Json} {bundle : BundleFacts} {receipt : PackReceipt}
    (h : actualReceipt sha settings plan attempt bundle = .ok receipt) :
    receiptAccountingCost receipt = .ok (accountingCostUpperBound bundle.usage) ∧
      ∃ bound, authorizationCost plan = .ok bound ∧
        accountingCostUpperBound bundle.usage ≤ bound := by
  simp only [actualReceipt, bind_ok_iff, require_eq_ok] at h
  obtain ⟨⟨⟩, -, estimateCost, -, bound, hbound, ⟨⟩, hwithin, estimate, -, attempt, -, h⟩ := h
  refine ⟨?_, bound, hbound, hwithin⟩
  split at h
  · rename_i hnone
    obtain rfl := Except.ok.inj h
    simp [receiptAccountingCost, receiptUnpricedReserve, receiptCost, accountingCostUpperBound,
      unpricedCostReserve, hnone, pure_eq_ok]
  · obtain rfl := Except.ok.inj h
    simp [receiptAccountingCost, receiptUnpricedReserve, receiptCost, accountingCostUpperBound,
      require_pos, pure_eq_ok]

end WagmiBench.Tools.ReferenceMatrix
