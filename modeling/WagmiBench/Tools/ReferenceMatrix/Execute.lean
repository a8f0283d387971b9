import WagmiBench.Core.Decode
import WagmiBench.Tools.ReferenceMatrix.OutputRoot

/-!
# Executing the matrix

`execute_matrix` of `tools/llm_reference_matrix.py` with its default paid runners: the preflight of
what the output root already holds, the paid smoke call, and the packs one after another, each bought
only while the accounted and the authorized amounts stay below the limit.
-/

namespace WagmiBench.Tools.ReferenceMatrix

open WagmiBench.Lib WagmiBench.Core WagmiBench.Spec WagmiBench.Harness

/-- The routines that read a carried-over failure, what the provider returned, and a sealed bundle,
and the one that lays out the aggregate. -/
structure Readers (β : Type) where
  /-- `_validate_prior_failure_receipt` -/
  validatePriorFailureReceipt : MatrixSettings → Except MatrixExc Unit
  /-- `_smoke_usage` -/
  smokeUsage : MatrixSettings → SmokePlan → Bytes → Except MatrixExc UsageReceipt
  /-- `_unvalidated_smoke_usage` -/
  unvalidatedSmokeUsage : MatrixSettings → Bytes → Option UsageReceipt
  /-- What `_verify_bundle_evidence` finds in a sealed bundle before it builds the receipt. -/
  inspectBundle : MatrixSettings → PackPlan → β → Except MatrixExc BundleFacts
  /-- The document of `_aggregate_receipt`. -/
  aggregateDocument : MatrixSettings → List PackPlan → (PackId → Option PackReceipt) →
    SmokeReceipt → Except MatrixExc Json

/-- `PackEvidence` -/
structure PackEvidence where
  receipt : PackReceipt
  reportArtifacts : ReportArtifacts
  reportsPresent : Bool
  receiptPresent : Bool

/-- `SmokeEvidence` -/
structure SmokeEvidence where
  responseBytes : Bytes
  receipt : SmokeReceipt

/-- A dictionary of evidence, by pack. -/
abbrev Evidence := PackId → Option PackEvidence

/-- `evidence[p] = item` -/
def Evidence.set (evidence : Evidence) (p : PackId) (item : PackEvidence) : Evidence :=
  Function.update evidence p (some item)

/-- `evidence.values()` -/
def Evidence.values (evidence : Evidence) : List PackEvidence :=
  EXPECTED_PACK_IDS.filterMap evidence

/-! ## Amounts so far -/

/-- The sum of what the evidence accounts for. -/
def accounted (evidence : Evidence) : Except MatrixExc ℕ := do
  let costs ← evidence.values.mapM fun item => receiptAccountingCost item.receipt
  return costs.sum

/-- `_remaining_bound` -/
def remainingBound (settings : MatrixSettings) (plans : List PackPlan) (evidence : Evidence)
    (smokeActual : ℕ) : Except MatrixExc ℕ := do
  let accounted ← accounted evidence
  let remaining ← (plans.filter fun plan => (evidence plan.packId).isNone).mapM authorizationCost
  return settings.priorFailedRunReserveUsd + smokeActual + accounted + remaining.sum

section Execution

variable {β : Type} (sha : Sha256) (limits : Json.Limits) (readers : Readers β)
  (settings : MatrixSettings)

/-! ## Documents of the output root -/

/-- `raise MatrixError(message)` -/
def refuse {α : Type} (message : String) : Run β α := .raise (.matrixError message)

/-- `authorization.json`, which a paid attempt requires. -/
def readAuthorization (what : String) : Run β Bytes := do
  if ← ask (.present .authorization) then
    liftOs (← ask (.read .authorization))
  else refuse s!"{what} requires authorization.json"

/-- `_pack_attempt_document` -/
def packAttempt (plan : PackPlan) : Run β Json := do
  let authorizationBytes ← readAuthorization s!"{plan.packId.name}: paid attempt"
  .ofExcept (packAttemptDocument sha settings plan authorizationBytes)

/-- `_smoke_attempt_document` -/
def smokeAttempt (smokePlan : SmokePlan) : Run β Json := do
  let authorizationBytes ← readAuthorization "paid smoke attempt"
  .ofExcept (smokeAttemptDocument sha settings smokePlan authorizationBytes)

/-- `_decode_canonical_object` -/
def decodeCanonicalObject (raw : Bytes) (context : String) : Except MatrixExc Json :=
  match utf8Decode false raw with
  | none => .error (.matrixError s!"{context} is not UTF-8")
  | some text =>
    match Json.loads limits Json.strictHooks text with
    | .error .decode => .error (.matrixError s!"{context} is malformed")
    | .error (.hook (.fractional token)) =>
      .error (.matrixError s!"fractional JSON number is forbidden: {Text.show token}")
    | .error (.hook (.nonfinite token)) =>
      .error (.matrixError s!"non-finite JSON number is forbidden: {Text.show token}")
    | .error (.hook (.duplicateKey key)) =>
      .error (.matrixError s!"duplicate JSON key: {Text.show key}")
    | .error .recursion => .error (.raised .recursionError)
    | .error .digits =>
      .error (.raised (.valueError "Exceeds the limit for integer string conversion"))
    | .ok (.obj members) => do
      let bytes ← canonical (.obj members)
      if bytes = raw then return .obj members
      else .error (.matrixError s!"{context} is not canonical")
    | .ok _ => .error (.matrixError s!"{context} is not an object")

/-- `_load_canonical_object` -/
def loadCanonicalObject (a : Artifact) : Run β Json := do
  if ← ask (.present a) then
    let raw ← liftOs (← ask (.read a))
    .ofExcept (decodeCanonicalObject limits raw s!"JSON artifact {a.path}")
  else refuse s!"JSON artifact is missing or invalid: {a.path}"

/-! ## Preflight -/

/-- `_preflight_output_layout` -/
def preflightOutputLayout : Run β Unit := do
  if ← ask (.folderPresent .root) then
    if ← ask (.litter .root) then
      refuse "output root has unexpected evidence entries"
    else
      Folder.inventoried.forM fun f => do
        if ← ask (.folderPresent f) then
          if ← ask (.litter f) then
            refuse s!"{f.path} evidence directory has unexpected entries"
          else return
        else return
  else return

/-- Whether one of the files is there. -/
def anyPresent : List Artifact → Run β Bool
  | [] => return false
  | a :: rest => do
    if ← ask (.present a) then return true
    else anyPresent rest

/-- `_paid_evidence_exists` -/
def paidEvidenceExists : Run β Bool := do
  let smokePaid ← anyPresent [.smokeAttempt, .smokeResponse, .smokeReceipt, .smokeFailureResponse,
    .smokeFailureReceipt]
  let attemptsPaid ← ask (.folderPresent .attempts)
  let bundlesPaid ← ask (.folderPresent .bundles)
  return smokePaid || attemptsPaid || bundlesPaid

/-- `_preflight_authorization` -/
def preflightAuthorization (plans : List PackPlan) (smokePlan : SmokePlan) : Run β Unit := do
  let bytes ← .ofExcept (authorizationDocument sha settings plans smokePlan >>= canonical)
  let present ← expectBytes .authorization bytes "matrix authorization receipt"
  let paid ← paidEvidenceExists
  if paid = true ∧ present = false then
    refuse "paid evidence exists without its immutable authorization receipt"
  else return

/-- `_validated_smoke_evidence` -/
def validatedSmokeEvidence (smokePlan : SmokePlan) (responseBytes : Bytes)
    (receiptDocument : Json) : Run β SmokeEvidence := do
  let usage ← .ofExcept (readers.smokeUsage settings smokePlan responseBytes)
  let attempt ← smokeAttempt sha settings smokePlan
  let expected ← .ofExcept (smokeReceipt sha settings smokePlan attempt responseBytes usage)
  let found ← .ofExcept (canonical receiptDocument)
  let expectedBytes ← .ofExcept (canonical expected.document)
  if found = expectedBytes then return ⟨responseBytes, expected⟩
  else refuse "smoke receipt does not match the validated response"

/-- `_preflight_smoke` -/
def preflightSmoke (smokePlan : SmokePlan) : Run β (Option SmokeEvidence) := do
  if ← ask (.folderPresent .smoke) then
    if ← ask (.litter .smoke) then
      refuse "smoke evidence directory has unexpected entries"
  let estimate ← .ofExcept (canonical smokePlan.estimateDocument)
  let estimatePresent ← expectBytes .smokeEstimate estimate "smoke estimate receipt"
  let attemptPresent ← do
    if ← ask (.present .smokeAttempt) then
      let attempt ← smokeAttempt sha settings smokePlan
      let bytes ← .ofExcept (canonical attempt)
      expectBytes .smokeAttempt bytes "smoke paid-attempt receipt"
    else pure false
  if ← anyPresent [.smokeFailureResponse, .smokeFailureReceipt] then
    if attemptPresent = false then
      refuse "failed smoke evidence has no immutable pre-call attempt receipt"
    else
      refuse "failed smoke evidence is terminal; choose a fresh output root"
  else
    let responsePresent ← ask (.present .smokeResponse)
    let receiptPresent ← ask (.present .smokeReceipt)
    if responsePresent ≠ receiptPresent then
      refuse "smoke evidence is partial and cannot be resumed"
    else if responsePresent = true ∧ attemptPresent = false then
      refuse "passing smoke evidence has no immutable pre-call attempt receipt"
    else if attemptPresent = true ∧ responsePresent = false then
      refuse "paid smoke attempt has no final receipt; it is terminal and may not be purchased again"
    else if responsePresent = false then
      let attempts ← ask (.folderPresent .attempts)
      let bundles ← ask (.folderPresent .bundles)
      if attempts = true ∨ bundles = true then
        refuse "paid pack evidence exists without a passing smoke receipt"
      else return none
    else if estimatePresent = false then
      refuse "smoke evidence has no immutable pre-run estimate"
    else
      let responseBytes ← liftOs (← ask (.read .smokeResponse))
      let receiptDocument ← loadCanonicalObject limits .smokeReceipt
      let validated ← validatedSmokeEvidence sha readers settings smokePlan responseBytes
        receiptDocument
      let bytes ← .ofExcept (canonical validated.receipt.document)
      let _ ← expectBytes .smokeReceipt bytes "smoke actual receipt"
      return some validated

/-- `_validate_report_directory` -/
def validateReportDirectory (plan : PackPlan) (artifacts : ReportArtifacts) : Run β Bool := do
  if ← ask (.folderPresent (.reportsOf plan.packId)) then
    let names ← Report.all.mapM fun report => ask (.present (.report plan.packId report))
    let litter ← ask (.litter (.reportsOf plan.packId))
    if names.contains false ∨ litter = true then
      refuse s!"report directory is partial or has unexpected files: {(Folder.reportsOf plan.packId).path}"
    else
      Report.all.forM fun report => do
        let _ ← expectBytes (.report plan.packId report) (reportContents artifacts report)
          s!"{report.name} report"
      return true
  else return false

/-- `_verify_bundle_evidence` -/
def verifyBundleEvidence (plan : PackPlan) : Run β PackEvidence := do
  match ← ask (.bundle plan.packId) with
  | some (some content) =>
    let facts ← .ofExcept (readers.inspectBundle settings plan content)
    let attempt ← packAttempt sha settings plan
    let receipt ← .ofExcept (actualReceipt sha settings plan attempt facts)
    let reportsPresent ← validateReportDirectory plan facts.artifacts
    let bytes ← .ofExcept (canonical receipt.document)
    let receiptPresent ← expectBytes (.receipt plan.packId) bytes
      s!"{plan.packId.name} actual receipt"
    return ⟨receipt, facts.artifacts, reportsPresent, receiptPresent⟩
  | some none =>
    refuse s!"{plan.packId.name}: existing bundle is INCOMPLETE; resume accepts only verified COMPLETE bundles"
  | none =>
    refuse s!"{plan.packId.name}: existing bundle is CORRUPT; resume accepts only verified COMPLETE bundles"

/-- `_orphan_checks` -/
def orphanChecks (plan : PackPlan) : Run β Unit := do
  if ← ask (.folderPresent (.reportsOf plan.packId)) then
    refuse s!"{plan.packId.name}: reports exists without a COMPLETE bundle"
  else if ← ask (.present (.receipt plan.packId)) then
    refuse s!"{plan.packId.name}: receipt exists without a COMPLETE bundle"
  else return

/-- One pack of `_preflight_existing`: its evidence, if it was bought. -/
def preflightPack (smokePresent : Bool) (plan : PackPlan) : Run β (Option PackEvidence) := do
  let name := plan.packId.name
  let estimate ← .ofExcept (canonical plan.estimateDocument)
  let estimatePresent ← expectBytes (.estimate plan.packId) estimate s!"{name} estimate receipt"
  if smokePresent = true ∧ estimatePresent = false then
    refuse s!"{name}: paid smoke exists but the immutable pre-run estimate is missing"
  else
    let attempt ← packAttempt sha settings plan
    let attemptBytes ← .ofExcept (canonical attempt)
    let attemptPresent ← expectBytes (.attempt plan.packId) attemptBytes
      s!"{name} paid-attempt receipt"
    if (← ask (.bundle plan.packId)).isSome then
      if estimatePresent = false then
        refuse s!"{name}: COMPLETE bundle has no immutable pre-run estimate receipt"
      else if attemptPresent = false then
        refuse s!"{name}: COMPLETE bundle has no immutable paid-attempt receipt"
      else
        let item ← verifyBundleEvidence sha readers settings plan
        let accountingCost ← .ofExcept (receiptAccountingCost item.receipt)
        if PACK_COST_LIMIT_USD ≤ accountingCost then
          refuse s!"{name}: resumed accounting upper bound ${Text.show (decimalText accountingCost)} is not strictly below ${PACK_COST_LIMIT_TEXT}"
        else return some item
    else if attemptPresent = true then
      refuse s!"{name}: paid attempt has no COMPLETE bundle; it is terminal and may not be purchased again"
    else
      orphanChecks plan
      return none

/-- The loop of `_preflight_existing`. -/
def preflightPacks (smokePresent : Bool) : List PackPlan → Evidence → Run β Evidence
  | [], evidence => return evidence
  | plan :: plans, evidence => do
    match ← preflightPack sha readers settings smokePresent plan with
    | some item => preflightPacks smokePresent plans (evidence.set plan.packId item)
    | none => preflightPacks smokePresent plans evidence

/-- `_aggregate_receipt` -/
def aggregateReceipt (plans : List PackPlan) (evidence : Evidence) (smoke : SmokeReceipt) :
    Except MatrixExc Json := do
  require (evidence.values.length = plans.length)
    (.matrixError "aggregate receipt requires all 13 COMPLETE packs")
  let accounted ← accounted evidence
  let accountedUpper := settings.priorFailedRunReserveUsd + smokeActualCost smoke + accounted
  require (accountedUpper < MATRIX_COST_LIMIT_USD)
    (.matrixError "accounted upper bound is not strictly below the aggregate limit")
  readers.aggregateDocument settings plans (fun p => (evidence p).map PackEvidence.receipt) smoke

/-- What `_preflight_existing` asks of an aggregate that is already there. -/
def preflightAggregate (plans : List PackPlan) (smokeEvidence : Option SmokeEvidence)
    (evidence : Evidence) : Run β Unit := do
  if ← ask (.present .aggregate) then
    match smokeEvidence with
    | none => refuse "aggregate receipt exists without passing smoke"
    | some smoke =>
      if evidence.values.length ≠ plans.length then
        refuse "aggregate receipt exists before all 13 bundles are COMPLETE"
      else if evidence.values.any fun item => !item.reportsPresent || !item.receiptPresent then
        refuse "aggregate receipt exists before per-pack artifacts are complete"
      else
        let aggregate ← .ofExcept (aggregateReceipt readers settings plans evidence smoke.receipt)
        let bytes ← .ofExcept (canonical aggregate)
        let _ ← expectBytes .aggregate bytes "aggregate receipt"
        return
  else return

/-- `_preflight_existing` -/
def preflightExisting (plans : List PackPlan) (smokeEvidence : Option SmokeEvidence)
    (resume : Bool) : Run β Evidence := do
  if (← ask (.folderPresent .root)) ∧ resume = false then
    refuse "output root already exists; choose a fresh path or pass --resume"
  else if ← ask (.folderPresent .root) then
    let evidence ← preflightPacks sha readers settings smokeEvidence.isSome plans fun _ => none
    preflightAggregate readers settings plans smokeEvidence evidence
    return evidence
  else return fun _ => none

/-! ## Estimates -/

/-- A file that is published unless it is already there with the same bytes. -/
def publishOnce (a : Artifact) (expected : Bytes) (label : String) : Run β Unit := do
  if ← expectBytes a expected label then return
  else writeNew a expected

/-- `_materialize_estimates` -/
def materializeEstimates (plans : List PackPlan) (smokePlan : SmokePlan) : Run β Unit := do
  let authorization ← .ofExcept (authorizationDocument sha settings plans smokePlan >>= canonical)
  publishOnce .authorization authorization "matrix authorization receipt"
  let smokeEstimate ← .ofExcept (canonical smokePlan.estimateDocument)
  publishOnce .smokeEstimate smokeEstimate "smoke estimate receipt"
  plans.forM fun plan => do
    let estimate ← .ofExcept (canonical plan.estimateDocument)
    publishOnce (.estimate plan.packId) estimate s!"{plan.packId.name} estimate receipt"

/-! ## The smoke call -/

/-- `_materialize_smoke_failure` -/
def materializeSmokeFailure (smokePlan : SmokePlan) (reason : String) (httpStatus : Option ℤ)
    (responseBytes : Option Bytes) : Run β Unit := do
  match responseBytes with
  | some bytes => writeNew .smokeFailureResponse bytes
  | none => pure ()
  let attempt ← smokeAttempt sha settings smokePlan
  let usage := responseBytes.bind (readers.unvalidatedSmokeUsage settings)
  let receipt ← .ofExcept (smokeFailureReceipt sha settings smokePlan attempt reason httpStatus
    responseBytes usage >>= canonical)
  writeNew .smokeFailureReceipt receipt

/-- The end of `with DockerSandbox(...)`: what leaving raises takes the place of what was raised
inside. -/
def leaveSandbox {α : Type} (outcome : Except MatrixExc α) : Run β (Except MatrixExc α) := do
  match ← ask .leaveSandbox with
  | .ok () => return outcome
  | .error e => return .error e

/-- The locals of `_run_paid_smoke` where its `try` block ends. -/
structure SmokeCall where
  paidCallBoundaryCrossed : Bool
  reply : Option AgentReply
  raised : Option MatrixExc

/-- What was raised, if anything. -/
def raisedBy {α : Type} : Except MatrixExc α → Option MatrixExc
  | .ok _ => none
  | .error e => some e

/-- The `try` block of `_run_paid_smoke`. -/
def smokeCall (smokePlan : SmokePlan) : Run β SmokeCall := do
  match ← ask .enterSandbox with
  | .error e => return ⟨false, none, some e⟩
  | .ok () =>
    let attempted ← Process.attempt do
      let attempt ← smokeAttempt sha settings smokePlan
      let bytes ← .ofExcept (canonical attempt)
      writeNew .smokeAttempt bytes
    match attempted with
    | .error e =>
      let left ← leaveSandbox (.error e : Except MatrixExc Unit)
      return ⟨false, none, raisedBy left⟩
    | .ok () =>
      let outcome ← ask .decide
      let left ← leaveSandbox outcome
      return ⟨true, outcome.toOption, raisedBy left⟩

/-- `200 <= http_status <= 299` -/
def isSuccess : Option ℤ → Bool
  | some status => 200 ≤ status ∧ status ≤ 299
  | none => false

/-- `_run_paid_smoke` -/
def runPaidSmoke (smokePlan : SmokePlan) : Run β SmokeEvidence := do
  let call ← smokeCall sha settings smokePlan
  match call.raised, call.reply with
  | some .decisionTimeout, _ =>
    materializeSmokeFailure sha readers settings smokePlan "timeout" none none
    refuse "smoke timed out; no full pack will start"
  | some (.httpAgentError httpStatus body), _ =>
    materializeSmokeFailure sha readers settings smokePlan "agent_error" httpStatus body
    refuse "smoke agent transport failed; no full pack will start"
  | some _, reply =>
    if call.paidCallBoundaryCrossed then
      materializeSmokeFailure sha readers settings smokePlan "paid_call_or_cleanup_error"
        (reply.bind AgentReply.httpStatus) (reply.map AgentReply.body)
      refuse "smoke failed after crossing the paid-call boundary; terminal evidence was preserved"
    else
      refuse "smoke sandbox failed before the paid-call boundary"
  | none, none => refuse "smoke produced no reply"
  | none, some reply =>
    if isSuccess reply.httpStatus = false then
      materializeSmokeFailure sha readers settings smokePlan "http_non_2xx" reply.httpStatus
        (some reply.body)
      let status := (reply.httpStatus.map toString).getD "None"
      refuse s!"smoke response returned HTTP {status}; no full pack will start"
    else
      let validated ← Process.attempt do
        let usage ← .ofExcept (readers.smokeUsage settings smokePlan reply.body)
        let attempt ← smokeAttempt sha settings smokePlan
        .ofExcept (smokeReceipt sha settings smokePlan attempt reply.body usage)
      match validated with
      | .ok receipt => return ⟨reply.body, receipt⟩
      | .error (.matrixError message) =>
        materializeSmokeFailure sha readers settings smokePlan "invalid_or_unpriced_response"
          reply.httpStatus (some reply.body)
        refuse message
      | .error e => .raise e

/-- `_materialize_smoke` -/
def materializeSmoke (smokePlan : SmokePlan) (evidence : SmokeEvidence) : Run β Unit := do
  if ← anyPresent [.smokeResponse, .smokeReceipt] then
    refuse "refusing to replace existing smoke evidence"
  else
    let attempt ← smokeAttempt sha settings smokePlan
    let bytes ← .ofExcept (canonical attempt)
    if ← expectBytes .smokeAttempt bytes "smoke paid-attempt receipt" then
      writeNew .smokeResponse evidence.responseBytes
      let receipt ← .ofExcept (canonical evidence.receipt.document)
      writeNew .smokeReceipt receipt
    else
      refuse "refusing passing smoke without its pre-call attempt receipt"

/-- The smoke evidence of an invocation that found none. -/
def buySmoke (smokePlan : SmokePlan) : Run β SmokeEvidence := do
  let evidence ← runPaidSmoke sha readers settings smokePlan
  let attempt ← smokeAttempt sha settings smokePlan
  let bytes ← .ofExcept (canonical attempt)
  if ← expectBytes .smokeAttempt bytes "smoke paid-attempt receipt" then
    let validated ← validatedSmokeEvidence sha readers settings smokePlan evidence.responseBytes
      evidence.receipt.document
    materializeSmoke sha settings smokePlan validated
    return validated
  else
    refuse "paid smoke runner returned without its pre-call attempt receipt"

/-! ## The packs -/

/-- `record_episode_bundle` -/
def recordEpisodeBundle (p : PackId) (content : β) : Run β Unit := do
  .ofExcept (← ask (.createBundle p))
  .ofExcept (← ask (.sealBundle p content))

/-- `_run_paid_bundle` -/
def runPaidBundle (plan : PackPlan) : Run β Unit := do
  if (← ask (.bundle plan.packId)).isSome then
    refuse s!"{plan.packId.name}: paid runner requires a fresh bundle path"
  else
    ensureDirectory .bundles
    .ofExcept (← ask .enterSandbox)
    let outcome ← Process.attempt do
      let attempt ← packAttempt sha settings plan
      let bytes ← .ofExcept (canonical attempt)
      writeNew (.attempt plan.packId) bytes
      let content ← .ofExcept (← ask (.runEpisode plan.packId))
      recordEpisodeBundle plan.packId content
    .ofExcept (← leaveSandbox outcome)

/-- `_materialize_pack_evidence` -/
def materializePackEvidence (plan : PackPlan) (evidence : PackEvidence) : Run β PackEvidence := do
  if evidence.reportsPresent = false then
    if ← ask (.folderPresent (.reportsOf plan.packId)) then
      refuse s!"{plan.packId.name}: refusing partial report directory"
    else
      ensureDirectory (.reportsOf plan.packId)
      Report.sorted.forM fun report =>
        writeNew (.report plan.packId report) (reportContents evidence.reportArtifacts report)
  if evidence.receiptPresent = false then
    let bytes ← .ofExcept (canonical evidence.receipt.document)
    writeNew (.receipt plan.packId) bytes
  return { evidence with reportsPresent := true, receiptPresent := true }

/-- The paid run of one pack, and its evidence. -/
def buyPack (plan : PackPlan) : Run β PackEvidence := do
  runPaidBundle sha settings plan
  let attempt ← packAttempt sha settings plan
  let bytes ← .ofExcept (canonical attempt)
  if ← expectBytes (.attempt plan.packId) bytes s!"{plan.packId.name} paid-attempt receipt" then
    let item ← verifyBundleEvidence sha readers settings plan
    materializePackEvidence plan item
  else
    refuse s!"{plan.packId.name}: paid runner returned without its pre-call attempt receipt"

/-- The loop of `execute_matrix` over the plans still ahead. -/
def executePlans (plans : List PackPlan) (smokeActual : ℕ) :
    List PackPlan → Evidence → Run β Evidence
  | [], evidence => return evidence
  | plan :: ahead, evidence => do
    let name := plan.packId.name
    match evidence plan.packId with
    | some item =>
      let item ← materializePackEvidence plan item
      if item.receipt.within2x = false then
        refuse s!"{name}: pre-run estimate is not within 2x of actual"
      else executePlans plans smokeActual ahead (evidence.set plan.packId item)
    | none =>
      let bound ← .ofExcept (remainingBound settings plans evidence smokeActual)
      if MATRIX_COST_LIMIT_USD ≤ bound then
        refuse s!"refusing to start {name}: actual plus remaining estimates ${Text.show (decimalText bound)} is not strictly below ${MATRIX_COST_LIMIT_TEXT}"
      else
        -- The announcement prints the estimate, which may be missing.
        let _ ← .ofExcept (estimatedCost plan)
        let item ← buyPack sha readers settings plan
        let evidence := evidence.set plan.packId item
        if item.receipt.within2x = false then
          refuse s!"{name}: pre-run estimate is not within 2x of actual; no further pack will start"
        else
          let accountingCost ← .ofExcept (receiptAccountingCost item.receipt)
          if PACK_COST_LIMIT_USD ≤ accountingCost then
            refuse s!"{name}: accounting upper bound ${Text.show (decimalText accountingCost)} is not strictly below ${PACK_COST_LIMIT_TEXT}; no further pack will start"
          else
            let accounted ← .ofExcept (accounted evidence)
            if MATRIX_COST_LIMIT_USD ≤ settings.priorFailedRunReserveUsd + smokeActual + accounted then
              refuse "accounted matrix upper bound reached the aggregate limit; no further pack will start"
            else executePlans plans smokeActual ahead evidence

/-- `execute_matrix` -/
def executeMatrix (plans : List PackPlan) (smokePlan : SmokePlan) (confirmed resume : Bool) :
    Run β (Option Json) := do
  .ofExcept (readers.validatePriorFailureReceipt settings)
  let _ ← .ofExcept (enforceEstimateBudget plans smokePlan settings.priorFailedRunReserveUsd)
  if confirmed = false then return none
  else
    preflightOutputLayout
    preflightAuthorization sha settings plans smokePlan
    let found ← preflightSmoke sha limits readers settings smokePlan
    let evidence ← preflightExisting sha readers settings plans found resume
    ensureDirectory .root
    materializeEstimates sha settings plans smokePlan
    let smoke ← match found with
      | some smoke => pure smoke
      | none => buySmoke sha readers settings smokePlan
    if smoke.receipt.within2x = false then
      refuse "smoke cost estimate is not within 2x of actual; no full pack will start"
    else
      let evidence ← executePlans sha readers settings plans (smokeActualCost smoke.receipt) plans
        evidence
      let aggregate ← .ofExcept (aggregateReceipt readers settings plans evidence smoke.receipt)
      let expected ← .ofExcept (canonical aggregate)
      publishOnce .aggregate expected "aggregate receipt"
      return some aggregate

end Execution

end WagmiBench.Tools.ReferenceMatrix
