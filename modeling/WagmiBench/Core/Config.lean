import WagmiBench.Core.Exceptions
import WagmiBench.Lib.Json

/-!
# Episode configuration and the virtual clock

`core/config.py`. The checks of `EpisodeConfig.__post_init__` are the fields of `EpisodeConfig`, so
an invalid configuration cannot be built; `fromMapping` reads the run-config or the fixture shape,
and `toRunConfig` is the run-config shape a bundle stores.
-/

namespace WagmiBench.Core

open WagmiBench.Lib

abbrev WEEK_MS : ℤ := 604_800_000
abbrev MAX_REBASED_TIMESTAMP : ℤ := 99_999_999_999
abbrev DEFAULT_STARTING_NAV_MICRO : ℤ := 10_000_000_000
abbrev DEFAULT_GROSS_LEVERAGE_CAP_LEV_1E4 : ℤ := 30_000
abbrev DEFAULT_DRAWDOWN_KILL_SWITCH_1E8 : ℤ := 20_000_000
abbrev DEFAULT_RESPONSE_DEADLINE_MS : ℤ := 120_000
abbrev DEFAULT_COST_PROFILES : List Text := [txt "primary", txt "stress_2x"]

/-- Text as it appears inside an error message. -/
def Text.show (t : Text) : String := String.ofList (t.map fun c => Char.ofNat c.val)

/-- `", ".join(names)` -/
def joinNames (names : List Text) : String := ", ".intercalate (names.map Text.show)

/-- Code-point order of texts, the order of `sorted` on strings. -/
def textLe : Text → Text → Bool
  | [], _ => true
  | _ :: _, [] => false
  | a :: s, b :: t => a < b || (a == b && textLe s t)

/-- `sorted(texts)` -/
def sortTexts (texts : List Text) : List Text := texts.insertionSort fun a b => textLe a b = true

/-! ## Required and optional integers -/

/-- `_required_int` -/
def requiredInt (value : Option Json) (field : String) (minimum : ℤ) : Py ℤ :=
  let failure := PyError.configError s!"{field} must be an integer >= {minimum}"
  match value with
  | some (.int n) => if minimum ≤ n then .ok n else .error failure
  | _ => .error failure

/-- `_optional_int` -/
def optionalInt (value : Option Json) (field : String) (minimum : ℤ) : Py (Option ℤ) :=
  match value with
  | none | some .null => .ok none
  | value => some <$> requiredInt value field minimum

/-- An absent value, or one at least `minimum`. -/
def OptionAtLeast (minimum : ℤ) (value : Option ℤ) : Prop := ∀ n ∈ value, minimum ≤ n

instance (minimum : ℤ) (value : Option ℤ) : Decidable (OptionAtLeast minimum value) :=
  inferInstanceAs (Decidable (∀ n ∈ value, minimum ≤ n))

/-! ## Configuration -/

/-- Resolved observation lookback depths. -/
@[ext]
structure EffectiveLookback where
  bars : ℤ
  fundingPrints : ℤ
  bars_pos : 1 ≤ bars
  funding_prints_nonneg : 0 ≤ fundingPrints

instance : DecidableEq EffectiveLookback := fun a b =>
  decidable_of_iff (a.bars = b.bars ∧ a.fundingPrints = b.fundingPrints)
    EffectiveLookback.ext_iff.symm

/-- `EffectiveLookback.__post_init__` -/
def EffectiveLookback.make (bars fundingPrints : ℤ) : Py EffectiveLookback := do
  let ⟨hb⟩ ← check (1 ≤ bars) (.configError "bars must be an integer >= 1")
  let ⟨hf⟩ ← check (0 ≤ fundingPrints) (.configError "funding_prints must be an integer >= 0")
  return ⟨bars, fundingPrints, hb, hf⟩

/-- Complete deterministic runtime input for one episode. -/
structure EpisodeConfig where
  startingNavMicro : ℤ
  leverageCapGrossLev1e4 : ℤ
  drawdownKillSwitch1e8 : ℤ
  lookbackBars : Option ℤ
  fundingPrints : Option ℤ
  responseDeadlineMs : ℤ
  seed : ℤ
  costProfiles : List Text
  turnoverCap1e8 : Option ℤ
  parseFailureRetries : ℤ
  starting_nav_pos : 1 ≤ startingNavMicro
  leverage_cap_pos : 1 ≤ leverageCapGrossLev1e4
  drawdown_limit_pos : 1 ≤ drawdownKillSwitch1e8
  lookback_bars_pos : OptionAtLeast 1 lookbackBars
  funding_prints_nonneg : OptionAtLeast 0 fundingPrints
  response_deadline_pos : 1 ≤ responseDeadlineMs
  seed_nonneg : 0 ≤ seed
  turnover_cap_nonneg : OptionAtLeast 0 turnoverCap1e8
  parse_failure_retries_nonneg : 0 ≤ parseFailureRetries
  cost_profiles_ne_nil : costProfiles ≠ []
  cost_profiles_nonempty : ∀ p ∈ costProfiles, p ≠ []
  cost_profiles_nodup : costProfiles.Nodup
  cost_profiles_complete : ∀ p ∈ DEFAULT_COST_PROFILES, p ∈ costProfiles

/-- `EpisodeConfig.__post_init__` -/
def EpisodeConfig.make (startingNavMicro leverageCapGrossLev1e4 drawdownKillSwitch1e8 : ℤ)
    (lookbackBars fundingPrints : Option ℤ) (responseDeadlineMs seed : ℤ)
    (costProfiles : List Text) (turnoverCap1e8 : Option ℤ) (parseFailureRetries : ℤ) :
    Py EpisodeConfig := do
  let ⟨h₁⟩ ← check (1 ≤ startingNavMicro)
    (.configError "starting_nav_micro must be an integer >= 1")
  let ⟨h₂⟩ ← check (1 ≤ leverageCapGrossLev1e4)
    (.configError "leverage_cap_gross_lev_1e4 must be an integer >= 1")
  let ⟨h₃⟩ ← check (1 ≤ drawdownKillSwitch1e8)
    (.configError "drawdown_kill_switch_1e8 must be an integer >= 1")
  let ⟨h₄⟩ ← check (OptionAtLeast 1 lookbackBars)
    (.configError "lookback_bars must be an integer >= 1")
  let ⟨h₅⟩ ← check (OptionAtLeast 0 fundingPrints)
    (.configError "funding_prints must be an integer >= 0")
  let ⟨h₆⟩ ← check (1 ≤ responseDeadlineMs)
    (.configError "response_deadline_ms must be an integer >= 1")
  let ⟨h₇⟩ ← check (0 ≤ seed) (.configError "seed must be an integer >= 0")
  let ⟨h₈⟩ ← check (OptionAtLeast 0 turnoverCap1e8)
    (.configError "turnover_cap_1e8 must be an integer >= 0")
  let ⟨h₉⟩ ← check (0 ≤ parseFailureRetries)
    (.configError "parse_failure_retries must be an integer >= 0")
  let ⟨h₁₀⟩ ← check (costProfiles ≠ [])
    (.configError "cost_profiles must contain at least one profile")
  let ⟨h₁₁⟩ ← check (∀ p ∈ costProfiles, p ≠ [])
    (.configError "cost_profiles must contain non-empty strings")
  let ⟨h₁₂⟩ ← check costProfiles.Nodup (.configError "cost_profiles must not contain duplicates")
  let missing := DEFAULT_COST_PROFILES.filter fun p => p ∉ costProfiles
  let ⟨h₁₃⟩ ← check (∀ p ∈ DEFAULT_COST_PROFILES, p ∈ costProfiles)
    (.configError ("V1 requires both cost profiles; missing: " ++ joinNames missing))
  return ⟨startingNavMicro, leverageCapGrossLev1e4, drawdownKillSwitch1e8, lookbackBars,
    fundingPrints, responseDeadlineMs, seed, costProfiles, turnoverCap1e8, parseFailureRetries,
    h₁, h₂, h₃, h₄, h₅, h₆, h₇, h₈, h₉, h₁₀, h₁₁, h₁₂, h₁₃⟩

/-- Building a configuration from the fields of one gives it back. -/
theorem EpisodeConfig.make_eq (config : EpisodeConfig) {retries : ℤ} (h : 0 ≤ retries) :
    make config.startingNavMicro config.leverageCapGrossLev1e4 config.drawdownKillSwitch1e8
      config.lookbackBars config.fundingPrints config.responseDeadlineMs config.seed
      config.costProfiles config.turnoverCap1e8 retries =
    .ok { config with parseFailureRetries := retries, parse_failure_retries_nonneg := h } := by
  simp only [make, check_pos config.starting_nav_pos, check_pos config.leverage_cap_pos,
    check_pos config.drawdown_limit_pos, check_pos config.lookback_bars_pos,
    check_pos config.funding_prints_nonneg, check_pos config.response_deadline_pos,
    check_pos config.seed_nonneg, check_pos config.turnover_cap_nonneg, check_pos h,
    check_pos config.cost_profiles_ne_nil, check_pos config.cost_profiles_nonempty,
    check_pos config.cost_profiles_nodup, check_pos config.cost_profiles_complete, ok_bind,
    pure_eq_ok]

/-- A JSON array of strings, as texts. -/
def stringItems : List Json → Option (List Text)
  | [] => some []
  | .str s :: items => (s :: ·) <$> stringItems items
  | _ :: _ => none

/-- `raw.get(key, default)` -/
def getD (key : String) (raw : List (Text × Json)) (default : Option Json) : Option Json :=
  (Json.lookup (txt key) raw).or default

/-- The `cost_profiles` of a configuration mapping: the array, or the fixture's singular field,
which only has to name a known profile. -/
def costProfilesOf (raw : List (Text × Json)) : Py (List Text) :=
  match Json.lookup (txt "cost_profiles") raw with
  | none | some .null =>
    match Json.lookup (txt "cost_profile") raw with
    | none | some .null => .ok DEFAULT_COST_PROFILES
    | some (.str legacy) =>
      if legacy ∈ DEFAULT_COST_PROFILES then .ok DEFAULT_COST_PROFILES
      else .error (.configError "cost_profile is not a V1 profile")
    | some _ => .error (.configError "cost_profile is not a V1 profile")
  | some (.arr items) =>
    match stringItems items with
    | some profiles => .ok profiles
    | none => .error (.configError "cost_profiles must be an array of strings")
  | some _ => .error (.configError "cost_profiles must be an array of strings")

/-- `EpisodeConfig.from_mapping` -/
def EpisodeConfig.fromMapping (raw : List (Text × Json)) : Py EpisodeConfig := do
  match Json.lookup (txt "schema") raw with
  | none | some .null => pure ()
  | some (.str s) =>
    require (s = txt "episode_config/v1")
      (.configError "schema must equal episode_config/v1 when present")
  | some _ => .error (.configError "schema must equal episode_config/v1 when present")
  let lookback ← match Json.lookup (txt "lookback") raw with
    | none | some .null => pure []
    | some (.obj members) => pure members
    | some _ => .error (.configError "lookback must be an object")
  let lookbackBars := getD "lookback_bars" raw (Json.lookup (txt "bars") lookback)
  let fundingPrints := getD "funding_prints" raw (Json.lookup (txt "funding_prints") lookback)
  let responseDeadlineMs := getD "response_deadline_ms" raw
    (getD "decision_timeout_ms" raw (some (.int DEFAULT_RESPONSE_DEADLINE_MS)))
  let profiles ← costProfilesOf raw
  let startingNav ← requiredInt
    (getD "starting_nav_micro" raw (some (.int DEFAULT_STARTING_NAV_MICRO)))
    "starting_nav_micro" 1
  let leverageCap ← requiredInt
    (getD "leverage_cap_gross_lev_1e4" raw (some (.int DEFAULT_GROSS_LEVERAGE_CAP_LEV_1E4)))
    "leverage_cap_gross_lev_1e4" 1
  let drawdownLimit ← requiredInt
    (getD "drawdown_kill_switch_1e8" raw (some (.int DEFAULT_DRAWDOWN_KILL_SWITCH_1E8)))
    "drawdown_kill_switch_1e8" 1
  let lookbackBars ← optionalInt lookbackBars "lookback_bars" 1
  let fundingPrints ← optionalInt fundingPrints "funding_prints" 0
  let deadline ← requiredInt responseDeadlineMs "response_deadline_ms" 1
  let seed ← requiredInt (getD "seed" raw (some (.int 0))) "seed" 0
  let turnoverCap ← optionalInt (Json.lookup (txt "turnover_cap_1e8") raw) "turnover_cap_1e8" 0
  let retries ← requiredInt (getD "parse_failure_retries" raw (some (.int 1)))
    "parse_failure_retries" 0
  EpisodeConfig.make startingNav leverageCap drawdownLimit lookbackBars fundingPrints deadline seed
    profiles turnoverCap retries

/-- An optional integer as a JSON value. -/
def jsonOptInt : Option ℤ → Json
  | none => .null
  | some n => .int n

namespace EpisodeConfig

variable (config : EpisodeConfig)

/-- Resolve operator overrides against pack recommendations. -/
def effectiveLookback (packBars packFundingPrints : ℤ) : Py EffectiveLookback :=
  EffectiveLookback.make (config.lookbackBars.getD packBars)
    (config.fundingPrints.getD packFundingPrints)

/-- Reject a profile that is not declared by the pack. -/
def validateCostProfiles (available : List (Text × ℤ)) : Py Unit :=
  let missing := config.costProfiles.filter fun name => name ∉ available.map Prod.fst
  require (missing = [])
    (.configError ("unknown cost profile(s): " ++ joinNames (sortTexts missing)))

/-- The exact `bundle_manifest.run_config` shape; the retry policy is left out. -/
def toRunConfig : List (Text × Json) :=
  [(txt "lookback_bars", jsonOptInt config.lookbackBars),
   (txt "funding_prints", jsonOptInt config.fundingPrints),
   (txt "response_deadline_ms", .int config.responseDeadlineMs),
   (txt "seed", .int config.seed),
   (txt "cost_profiles", .arr (config.costProfiles.map .str)),
   (txt "starting_nav_micro", .int config.startingNavMicro),
   (txt "leverage_cap_gross_lev_1e4", .int config.leverageCapGrossLev1e4),
   (txt "drawdown_kill_switch_1e8", .int config.drawdownKillSwitch1e8),
   (txt "turnover_cap_1e8", jsonOptInt config.turnoverCap1e8)]

end EpisodeConfig

/-! ## Clock -/

/-- The largest whole-week multiple not after the pack start. -/
def timeRebaseOffsetMs (windowStartTs : ℤ) : Py ℤ := do
  require (0 ≤ windowStartTs) (.configError "window_start_ts must be an integer >= 0")
  return windowStartTs / WEEK_MS * WEEK_MS

/-- Map a real pack timestamp to the closed observation time domain. -/
def rebaseTimestamp (realTs offsetMs : ℤ) : Py ℤ := do
  require (0 ≤ realTs) (.configError "real_ts must be an integer >= 0")
  require (0 ≤ offsetMs) (.configError "offset_ms must be an integer >= 0")
  let rebased := realTs - offsetMs
  require (¬ (rebased < 0 ∨ MAX_REBASED_TIMESTAMP < rebased))
    (.configError "timestamp falls outside the observation time domain")
  return rebased

/-- A deterministic clock driven only by explicit pack timestamps. -/
structure VirtualClock where
  realTs : ℤ
  rebaseOffsetMs : ℤ
  rebasedTs : ℤ
  rebases : rebaseTimestamp realTs rebaseOffsetMs = .ok rebasedTs

/-- `VirtualClock.for_window`, with the check of `__post_init__`. -/
def VirtualClock.forWindow (windowStartTs realTs : ℤ) : Py VirtualClock := do
  let offset ← timeRebaseOffsetMs windowStartTs
  match h : rebaseTimestamp realTs offset with
  | .ok rebased => return ⟨realTs, offset, rebased, h⟩
  | .error e => .error e

/-! ## Round trip of the run-config shape -/

theorem requiredInt_ok {n minimum : ℤ} {field : String} (h : minimum ≤ n) :
    requiredInt (some (.int n)) field minimum = .ok n := by
  simp [requiredInt, h]

theorem optionalInt_jsonOptInt {v : Option ℤ} {minimum : ℤ} {field : String}
    (h : OptionAtLeast minimum v) : optionalInt (some (jsonOptInt v)) field minimum = .ok v := by
  cases v with
  | none => rfl
  | some n => simp [jsonOptInt, optionalInt, requiredInt_ok (h n rfl), Functor.map, Except.map]

theorem stringItems_map_str (l : List Text) : stringItems (l.map .str) = some l := by
  induction l with
  | nil => rfl
  | cons s l ih => simp [stringItems, ih]

/-- The configuration replay rebuilds: the recorded one under the default retry policy. -/
def EpisodeConfig.withDefaultRetries (config : EpisodeConfig) : EpisodeConfig :=
  { config with parseFailureRetries := 1, parse_failure_retries_nonneg := by decide }

/-- Reading back a stored run config gives the same configuration up to the retry policy. -/
theorem EpisodeConfig.fromMapping_toRunConfig (config : EpisodeConfig) :
    fromMapping config.toRunConfig = .ok config.withDefaultRetries := by
  have hprofiles : costProfilesOf config.toRunConfig = .ok config.costProfiles := by
    simp [costProfilesOf, toRunConfig, stringItems_map_str]
  simp only [fromMapping, hprofiles]
  simp [toRunConfig, getD, requiredInt_ok, optionalInt_jsonOptInt, config.starting_nav_pos,
    config.leverage_cap_pos, config.drawdown_limit_pos, config.lookback_bars_pos,
    config.funding_prints_nonneg, config.response_deadline_pos, config.seed_nonneg,
    config.turnover_cap_nonneg, make_eq]
  rfl

end WagmiBench.Core
