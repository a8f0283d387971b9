import WagmiBench.Core.Observation
import WagmiBench.Lib.JsonRoundTrip
import WagmiBench.Spec.Canonical

/-!
# Matrix plans and the estimate budget

The plans of `tools/llm_reference_matrix.py`: its settings, the catalogued packs, what a run may
cost, and the budget that every invocation is held to before anything else.

Every amount is the result of `quantize(MONEY_QUANTUM)` or is read from a six-decimal text, and the
limits keep the sums far below the 28 digits of the decimal context: amounts are natural numbers of
millionths of a dollar and their sums are exact.
-/

namespace WagmiBench.Tools.ReferenceMatrix

open WagmiBench.Lib WagmiBench.Core WagmiBench.Spec

/-- Why an operating-system call failed. -/
inductive OsError where
  /-- `FileExistsError` -/
  | fileExists
  | other
  deriving DecidableEq

/-- What an invocation raises. -/
inductive MatrixExc where
  /-- `MatrixError` -/
  | matrixError (message : String)
  /-- `harness.protocol.DecisionTimeout` -/
  | decisionTimeout
  /-- `harness.http.HTTPAgentError` -/
  | httpAgentError (httpStatus : Option ℤ) (body : Option Bytes)
  | osError (e : OsError)
  /-- A call into the core raised. -/
  | raised (e : PyError)
  /-- Any other exception. -/
  | other
  deriving DecidableEq

/-! ## Amounts -/

abbrev PACK_COST_LIMIT_USD : ℕ := 25_000_000

abbrev MATRIX_COST_LIMIT_USD : ℕ := 300_000_000

abbrev PACK_COST_LIMIT_TEXT : String := "25.000000"

abbrev MATRIX_COST_LIMIT_TEXT : String := "300.000000"

/-- `_decimal_text` of a quantized amount. -/
def decimalText (value : ℕ) : Text :=
  decimal (value / 1_000_000) ++ txt "." ++ decimalPad 6 (value % 1_000_000)

/-- An amount is read back from its text. -/
theorem decimalText_injective : Function.Injective decimalText := fun m n h => by
  have hlength : ∀ k, (decimalPad 6 (k % 1_000_000)).length = 6 := fun k => by
    have hdigits : (decimal (k % 1_000_000)).length ≤ 6 :=
      decimal_length_le (by omega) (Nat.mod_lt _ (by omega))
    simp only [decimalPad, List.length_append, List.length_replicate]
    omega
  obtain ⟨hfront, hcents⟩ := List.append_inj' h (by rw [hlength, hlength])
  have hdollars := decimal_injective (List.append_cancel_right hfront)
  have hcents := decimalPad_injective 6 hcents
  omega

/-- `_within_two_x` -/
def withinTwoX (estimate actual : ℕ) : Bool :=
  if estimate = 0 ∨ actual = 0 then estimate = actual
  else estimate ≤ actual * 2 ∧ actual ≤ estimate * 2

/-- `_within_two_x_interval` -/
def withinTwoXInterval (estimate knownActual actualUpperBound : ℕ) : Bool :=
  if actualUpperBound < knownActual then false
  else if knownActual = actualUpperBound then withinTwoX estimate knownActual
  else if estimate = 0 ∨ knownActual = 0 then false
  else estimate ≤ knownActual * 2 ∧ actualUpperBound ≤ estimate * 2

theorem withinTwoX_iff {estimate actual : ℕ} :
    withinTwoX estimate actual = true ↔
      (estimate = 0 ↔ actual = 0) ∧ estimate ≤ actual * 2 ∧ actual ≤ estimate * 2 := by
  unfold withinTwoX
  split <;> rw [decide_eq_true_eq] <;> omega

/-- The interval test is the two-fold test of every actual cost in the interval. -/
theorem withinTwoXInterval_iff {estimate known upper : ℕ} (h : known ≤ upper) :
    withinTwoXInterval estimate known upper = true ↔
      ∀ actual, known ≤ actual → actual ≤ upper → withinTwoX estimate actual = true := by
  simp only [withinTwoXInterval, if_neg (not_lt.mpr h), withinTwoX_iff]
  constructor
  · intro hinterval actual hlow hhigh
    split_ifs at hinterval
    · obtain rfl : known = actual := by omega
      exact withinTwoX_iff.mp hinterval
    · rw [decide_eq_true_eq] at hinterval
      omega
  · intro hall
    have hknown := hall known le_rfl h
    have hupper := hall upper h le_rfl
    split_ifs with heq hzero
    · exact withinTwoX_iff.mpr hknown
    · omega
    · rw [decide_eq_true_eq]
      omega

/-! ## The catalogue -/

/-- The catalogued packs. -/
inductive PackId where
  | cascade1010
  | deadZone2023
  | chinaMiningBan
  | covidBlackThursday
  | electionRun
  | etfRumorWhipsaw
  | ftx2022
  | squeezeJan2021
  | lunaCollapse
  | institutionalRunQ42020
  | spotEtfApproval
  | summerRange2024
  | yenCarryUnwind
  deriving DecidableEq, Repr

/-- The catalogue's names. -/
def PackId.name : PackId → String
  | cascade1010 => "10-10-cascade"
  | deadZone2023 => "2023-dead-zone"
  | chinaMiningBan => "china-mining-ban"
  | covidBlackThursday => "covid-black-thursday"
  | electionRun => "election-run"
  | etfRumorWhipsaw => "etf-rumor-whipsaw"
  | ftx2022 => "ftx-2022"
  | squeezeJan2021 => "jan-2021-squeeze"
  | lunaCollapse => "luna-collapse"
  | institutionalRunQ42020 => "q4-2020-institutional-run"
  | spotEtfApproval => "spot-etf-approval"
  | summerRange2024 => "summer-2024-range"
  | yenCarryUnwind => "yen-carry-unwind"

/-- `EXPECTED_PACK_IDS`: the catalogue in the order of its names. -/
def EXPECTED_PACK_IDS : List PackId :=
  [.cascade1010, .deadZone2023, .chinaMiningBan, .covidBlackThursday, .electionRun,
    .etfRumorWhipsaw, .ftx2022, .squeezeJan2021, .lunaCollapse, .institutionalRunQ42020,
    .spotEtfApproval, .summerRange2024, .yenCarryUnwind]

theorem mem_EXPECTED_PACK_IDS (p : PackId) : p ∈ EXPECTED_PACK_IDS := by
  cases p <;> decide

theorem nodup_EXPECTED_PACK_IDS : EXPECTED_PACK_IDS.Nodup := by decide

/-! ## Settings and plans -/

/-- `ModelPricing`, its rates as `_decimal_text` spells them. -/
structure ModelPricing where
  inputUsdPerMillion : Text
  cachedInputUsdPerMillion : Text
  outputUsdPerMillion : Text

/-- `MatrixSettings`: the public inputs that the receipts commit to. -/
structure MatrixSettings where
  /-- `llm_config.model` -/
  model : Text
  pricing : ModelPricing
  agentImageDigest : Text
  gatewayImageDigest : Text
  guardImageDigest : Text
  priorFailedRunReserveUsd : ℕ
  /-- The reserve as it was given, spelled by `_decimal_text`. -/
  priorFailedRunReserveText : Text
  priorFailureReceiptSha256 : Option Text
  /-- A positive reserve comes with its failure receipt. -/
  reserve_has_receipt : 0 < priorFailedRunReserveUsd → priorFailureReceiptSha256.isSome

/-- `RunCostEstimate` -/
structure RunCostEstimate where
  estimatedCostUsd : Option ℕ

/-- `PackPlan` -/
structure PackPlan where
  packId : PackId
  contentHash : Text
  estimate : RunCostEstimate
  estimateDocument : Json
  authorizationBound : Option RunCostEstimate

/-- `SmokePlan` -/
structure SmokePlan where
  packId : PackId
  observation : Json
  estimate : RunCostEstimate
  estimateDocument : Json
  authorizationBound : Option RunCostEstimate

/-- `_estimated_cost` -/
def estimatedCost (plan : PackPlan) : Except MatrixExc ℕ :=
  match plan.estimate.estimatedCostUsd with
  | some value => .ok value
  | none => .error (.matrixError s!"{plan.packId.name}: pre-run estimate has no USD price")

/-- `_authorization_cost` -/
def authorizationCost (plan : PackPlan) : Except MatrixExc ℕ :=
  match (plan.authorizationBound.getD plan.estimate).estimatedCostUsd with
  | some value => .ok value
  | none => .error (.matrixError s!"{plan.packId.name}: authorization bound has no USD price")

/-- `_smoke_authorization_cost` -/
def smokeAuthorizationCost (smokePlan : SmokePlan) : Except MatrixExc ℕ :=
  match (smokePlan.authorizationBound.getD smokePlan.estimate).estimatedCostUsd with
  | some value => .ok value
  | none => .error (.matrixError "smoke authorization bound has no USD price")

/-! ## The estimate budget -/

/-- The loop of `_enforce_estimate_budget` over the plans. -/
def totalAuthorization (plans : List PackPlan) (total : ℕ) : Except MatrixExc ℕ :=
  match plans with
  | [] => .ok total
  | plan :: plans => do
    let cost ← authorizationCost plan
    require (cost < PACK_COST_LIMIT_USD) (.matrixError
      s!"{plan.packId.name}: authorization bound ${Text.show (decimalText cost)} is not strictly below ${PACK_COST_LIMIT_TEXT}")
    totalAuthorization plans (total + cost)

/-- `_enforce_estimate_budget` -/
def enforceEstimateBudget (plans : List PackPlan) (smokePlan : SmokePlan) (priorReserve : ℕ) :
    Except MatrixExc ℕ := do
  require (plans.map PackPlan.packId = EXPECTED_PACK_IDS)
    (.matrixError "matrix plans do not match the exact 13-pack catalog")
  let smokeCost ← smokeAuthorizationCost smokePlan
  require (smokeCost < PACK_COST_LIMIT_USD) (.matrixError
    s!"smoke estimate ${Text.show (decimalText smokeCost)} is not strictly below ${PACK_COST_LIMIT_TEXT}")
  let total ← totalAuthorization plans 0
  let accountedTotal := priorReserve + smokeCost + total
  require (accountedTotal < MATRIX_COST_LIMIT_USD) (.matrixError
    s!"accounted matrix estimate ${Text.show (decimalText accountedTotal)} including prior reserve and smoke is not strictly below ${MATRIX_COST_LIMIT_TEXT}")
  return accountedTotal

/-- Plans within the budget are those of the catalogue, in its order, each with a bound. -/
theorem totalAuthorization_eq_ok {plans : List PackPlan} {total result : ℕ}
    (h : totalAuthorization plans total = .ok result) :
    ∀ plan ∈ plans, ∃ cost, authorizationCost plan = .ok cost ∧ cost < PACK_COST_LIMIT_USD := by
  induction plans generalizing total with
  | nil => simp
  | cons plan plans ih =>
    simp only [totalAuthorization, bind_ok_iff, require_eq_ok] at h
    obtain ⟨cost, hcost, ⟨⟩, hlimit, h⟩ := h
    rw [List.forall_mem_cons]
    exact ⟨⟨cost, hcost, hlimit⟩, ih h⟩

theorem enforceEstimateBudget_eq_ok {plans : List PackPlan} {smokePlan : SmokePlan}
    {priorReserve total : ℕ} (h : enforceEstimateBudget plans smokePlan priorReserve = .ok total) :
    plans.map PackPlan.packId = EXPECTED_PACK_IDS ∧
      ∀ plan ∈ plans, ∃ cost, authorizationCost plan = .ok cost ∧ cost < PACK_COST_LIMIT_USD := by
  simp only [enforceEstimateBudget, bind_ok_iff, require_eq_ok] at h
  obtain ⟨⟨⟩, hids, _, -, ⟨⟩, -, _, htotal, -⟩ := h
  exact ⟨hids, totalAuthorization_eq_ok htotal⟩

end WagmiBench.Tools.ReferenceMatrix
