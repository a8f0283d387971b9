import WagmiBench.Core.Decode
import WagmiBench.Core.Pack
import WagmiBench.Lib.Files
import WagmiBench.Spec.Canonical

/-!
# Loading a pack

The loading half of `core/pack.py`: a pack directory becomes a `PackData`, or is refused. What the
loader checks about descriptors and series is what the typed pack carries.
-/

namespace WagmiBench.Core

open WagmiBench.Lib WagmiBench.Spec

/-! ## Typed reads -/

/-- What `_decode_json` raises for a file. -/
def packDecoder (source : String) : Decoder where
  invalidUtf8 := .packError (source ++ ": invalid UTF-8")
  invalidJson := .packError (source ++ ": invalid JSON")
  refused
    | .fractional token => .packError ("fractional JSON number is forbidden: " ++ Text.show token)
    | .nonfinite token => .packError ("non-finite JSON number is forbidden: " ++ Text.show token)
    | .duplicateKey key => .packError ("duplicate JSON key: " ++ Text.show key)

/-- `_as_object` -/
def asObject (value : Option Json) (field : String) : Py (List (Text × Json)) :=
  match value with
  | some (.obj members) => .ok members
  | _ => .error (.packError (field ++ " must be an object"))

/-- `_as_array` -/
def asArray (value : Option Json) (field : String) : Py (List Json) :=
  match value with
  | some (.arr items) => .ok items
  | _ => .error (.packError (field ++ " must be an array"))

/-- `_as_int` without a minimum. -/
def asInt (value : Option Json) (field : String) : Py ℤ :=
  match value with
  | some (.int n) => .ok n
  | _ => .error (.packError (field ++ " must be an integer"))

/-- `_as_int` with a minimum, which the result carries. -/
def asIntMin (value : Option Json) (field : String) (minimum : ℤ) : Py {n : ℤ // minimum ≤ n} := do
  let n ← asInt value field
  let ⟨h⟩ ← check (minimum ≤ n) (.packError s!"{field} must be >= {minimum}")
  return ⟨n, h⟩

/-- `_as_str` -/
def asStr (value : Option Json) (field : String) : Py Text :=
  match value with
  | some (.str s) => .ok s
  | _ => .error (.packError (field ++ " must be a string"))

/-! ## Market descriptors -/

/-- `funding.settlement_offsets_ms`, sorted; there is at least one. -/
def settlementOffsets (aliasName : String) (funding : List (Text × Json)) :
    Py {offsets : List ℤ // offsets ≠ [] ∧ ∀ o ∈ offsets, 0 ≤ o} := do
  let field := s!"markets.{aliasName}.funding.settlement_offsets_ms"
  let items ← asArray (Json.lookup (txt "settlement_offsets_ms") funding) field
  let offsets ← items.mapM fun item => asIntMin (some item) field 0
  let ⟨h⟩ ← check (offsets ≠ [])
    (.packError s!"markets.{aliasName}.funding settlement offsets are empty")
  return ⟨(offsets.map Subtype.val).insertionSort (· ≤ ·), by
    refine ⟨fun hnil => h ?_, fun o ho => ?_⟩
    · have := congrArg List.length hnil
      simpa using this
    · obtain ⟨n, -, rfl⟩ := List.mem_map.mp ((List.mem_insertionSort (· ≤ ·)).mp ho)
      exact n.2⟩

/-- One entry of `margin.tiers`. -/
def marginTier (field : String) (item : Json) : Py MarginTier := do
  let tier ← asObject (some item) field
  let cap ← asIntMin (Json.lookup (txt "notional_cap_micro") tier)
    (field ++ ".notional_cap_micro") 1
  let initial ← asIntMin (Json.lookup (txt "initial_rate_1e8") tier) (field ++ ".initial_rate_1e8") 1
  let maintenance ← asIntMin (Json.lookup (txt "maintenance_rate_1e8") tier)
    (field ++ ".maintenance_rate_1e8") 1
  return ⟨cap, initial, maintenance, cap.2, initial.2, maintenance.2⟩

/-- `impact_model`, one of two names. -/
def impactModelOf (aliasName : String) (value : Text) : Py ImpactModel :=
  if value = txt "linear" then .ok .linear
  else if value = txt "sqrt" then .ok .sqrt
  else .error (.packError s!"markets.{aliasName}.execution.impact_model is invalid")

/-- One entry of `cost_profile_multipliers_1e4`. -/
def costProfile (aliasName : String) (item : Text × Json) :
    Py {p : Text × ℤ // 1 ≤ p.2} := do
  let n ← asIntMin (some item.2)
    (s!"markets.{aliasName}.cost_profiles." ++ Text.show item.1) 1
  return ⟨(item.1, n.1), n.2⟩

/-- `_market_spec` -/
def marketSpec (aliasText : Text) (raw : List (Text × Json)) : Py MarketSpec := do
  let aliasName := Text.show aliasText
  let funding ← asObject (Json.lookup (txt "funding") raw) s!"markets.{aliasName}.funding"
  let fees ← asObject (Json.lookup (txt "fees") raw) s!"markets.{aliasName}.fees"
  let margin ← asObject (Json.lookup (txt "margin") raw) s!"markets.{aliasName}.margin"
  let execution ← asObject (Json.lookup (txt "execution") raw) s!"markets.{aliasName}.execution"
  let profileRaw ← asObject (Json.lookup (txt "cost_profile_multipliers_1e4") execution)
    s!"markets.{aliasName}.execution.cost_profile_multipliers_1e4"
  let profiles ← (sortedItems profileRaw).mapM (costProfile aliasName)
  let offsets ← settlementOffsets aliasName funding
  let tierItems ← asArray (Json.lookup (txt "tiers") margin) s!"markets.{aliasName}.margin.tiers"
  let tiers ← tierItems.zipIdx.mapM fun (item, index) =>
    marginTier s!"markets.{aliasName}.margin.tiers[{index}]" item
  let ⟨htiers⟩ ← check (tiers.isEmpty = false)
    (.packError s!"markets.{aliasName}.margin.tiers must not be empty")
  let impactModelRaw ← asStr (Json.lookup (txt "impact_model") execution)
    s!"markets.{aliasName}.execution.impact_model"
  let impactModel ← impactModelOf aliasName impactModelRaw
  let tickSize ← asIntMin (Json.lookup (txt "tick_size_micro") raw)
    s!"markets.{aliasName}.tick_size_micro" 1
  let qtyStep ← asIntMin (Json.lookup (txt "qty_step_base_1e8") raw)
    s!"markets.{aliasName}.qty_step_base_1e8" 1
  let minNotional ← asIntMin (Json.lookup (txt "min_notional_micro") raw)
    s!"markets.{aliasName}.min_notional_micro" 0
  let makerFee ← asIntMin (Json.lookup (txt "maker_rate_1e8") fees)
    s!"markets.{aliasName}.fees.maker_rate_1e8" 0
  let takerFee ← asIntMin (Json.lookup (txt "taker_rate_1e8") fees)
    s!"markets.{aliasName}.fees.taker_rate_1e8" 0
  let leverageCap ← asIntMin (Json.lookup (txt "leverage_cap_lev_1e4") raw)
    s!"markets.{aliasName}.leverage_cap_lev_1e4" 1
  let penalty ← asIntMin (Json.lookup (txt "liquidation_penalty_1e8") margin)
    s!"markets.{aliasName}.margin.liquidation_penalty_1e8" 0
  let intervalMs ← asIntMin (Json.lookup (txt "interval_ms") funding)
    s!"markets.{aliasName}.funding.interval_ms" 1
  let cap ← asInt (Json.lookup (txt "cap_1e8") funding) s!"markets.{aliasName}.funding.cap_1e8"
  let floor ← asInt (Json.lookup (txt "floor_1e8") funding)
    s!"markets.{aliasName}.funding.floor_1e8"
  let halfSpread ← asIntMin (Json.lookup (txt "half_spread_1e8") execution)
    s!"markets.{aliasName}.execution.half_spread_1e8" 0
  let impactCoeff ← asIntMin (Json.lookup (txt "impact_coeff_1e8") execution)
    s!"markets.{aliasName}.execution.impact_coeff_1e8" 0
  let participation ← asIntMin (Json.lookup (txt "participation_cap_1e8") execution)
    s!"markets.{aliasName}.execution.participation_cap_1e8" 1
  return {
    aliasName := aliasText
    tickSizeMicro := tickSize
    qtyStepBase1e8 := qtyStep
    minNotionalMicro := minNotional
    makerFeeRate1e8 := makerFee
    takerFeeRate1e8 := takerFee
    leverageCapLev1e4 := leverageCap
    marginTiers := tiers
    liquidationPenalty1e8 := penalty
    funding := ⟨intervalMs, offsets, cap, floor, intervalMs.2, offsets.2.1, offsets.2.2⟩
    halfSpread1e8 := halfSpread
    impactModel
    impactCoeff1e8 := impactCoeff
    participationCap1e8 := participation
    costProfileMultipliers1e4 := profiles.map Subtype.val
    tick_size_pos := tickSize.2
    qty_step_pos := qtyStep.2
    min_notional_nonneg := minNotional.2
    maker_fee_nonneg := makerFee.2
    taker_fee_nonneg := takerFee.2
    leverage_cap_pos := leverageCap.2
    margin_tiers_ne_nil := by simpa using htiers
    liquidation_penalty_nonneg := penalty.2
    half_spread_nonneg := halfSpread.2
    impact_coeff_nonneg := impactCoeff.2
    participation_cap_pos := participation.2
    multipliers_pos := fun p hp => by
      obtain ⟨q, -, rfl⟩ := List.mem_map.mp hp
      exact q.2 }

/-! ## Series -/

/-- `role` of a file. -/
inductive SeriesRole where
  | trade
  | mark
  | index
  | funding
  deriving DecidableEq, Repr

def SeriesRole.wire : SeriesRole → Text
  | .trade => txt "trade"
  | .mark => txt "mark"
  | .index => txt "index"
  | .funding => txt "funding"

/-- The role with a name. -/
def SeriesRole.ofText (t : Text) : Option SeriesRole :=
  [SeriesRole.trade, .mark, .index, .funding].find? fun role => role.wire = t

/-- The row schema a role has to declare. -/
def SeriesRole.rowSchema : SeriesRole → String
  | .funding => "funding_row/v1"
  | _ => "bar_row/v1"

section Rows

variable (limits : Json.Limits) (source : String) (fileName market : Text)

/-- One line of a series, as an object. -/
def rowMembers (index : ℕ) (line : Bytes) : Py (List (Text × Json)) := do
  let value ← (packDecoder source).decode limits line
  asObject (some value) s!"{source}:{index}"

/-- One line of a trade, mark or index series. -/
def barRow (role : SeriesRole) (index : ℕ) (line : Bytes) : Py BarRow := do
  let item ← rowMembers limits source index line
  let field (name : String) := asIntMin (Json.lookup (txt name) item) s!"{source}:{index}.{name}" 0
  let ts ← field "ts"
  let availableAt ← field "available_at"
  let o ← field "o"
  let h ← field "h"
  let l ← field "l"
  let c ← field "c"
  let v ← field "v_base_1e8"
  return ⟨ts, availableAt, o, h, l, c, v, ⟨market, role.wire, fileName, index, ts, availableAt⟩⟩

/-- One line of a funding series. -/
def fundingRow (index : ℕ) (line : Bytes) : Py FundingRow := do
  let item ← rowMembers limits source index line
  let ts ← asIntMin (Json.lookup (txt "ts") item) s!"{source}:{index}.ts" 0
  let availableAt ← asIntMin (Json.lookup (txt "available_at") item)
    s!"{source}:{index}.available_at" 0
  let rate ← asInt (Json.lookup (txt "rate_1e8") item) s!"{source}:{index}.rate_1e8"
  return ⟨ts, availableAt, rate,
    ⟨market, SeriesRole.funding.wire, fileName, index, ts, availableAt⟩⟩

/-- `_load_rows`, with the reader of one line. -/
def loadRows {α : Type} (readRow : ℕ → Bytes → Py α) (raw : Bytes) : Py (List α) := do
  let lines := splitLines raw
  require (∀ line ∈ lines, line ≠ []) (.packError (source ++ ": blank JSONL record"))
  lines.zipIdx.mapM fun (line, index) => readRow index line

end Rows

/-- A series file as it was read: its resolved name and its bytes. -/
structure SeriesFile where
  path : Text
  name : Text
  raw : Bytes

section Files

variable (sha : Sha256) (directory : Directory) (verifyIntegrity : Bool)

/-- The resolved name and the bytes behind a relative path. -/
def readFile (path : Text) : Py (Text × Bytes) :=
  match directory path with
  | .outside => .error (.packError ("series path escapes pack directory: " ++ Text.show path))
  | .missing | .folder => .error (.packError ("cannot read series file: " ++ Text.show path))
  | .link target raw => .ok (target, raw)
  | .file raw => .ok (baseName path, raw)

/-- `_read_declared_file` -/
def readDeclaredFile (entry : List (Text × Json)) : Py SeriesFile := do
  let relative ← asStr (Json.lookup (txt "path") entry) "files[].path"
  let shown := Text.show relative
  let (name, raw) ← readFile directory relative
  if verifyIntegrity then
    let expectedBytes ← asIntMin (Json.lookup (txt "bytes") entry) (shown ++ ".bytes") 0
    require ((raw.length : ℤ) = expectedBytes) (.packError (shown ++ ": byte count mismatch"))
    let expectedHash ← asStr (Json.lookup (txt "sha256") entry) (shown ++ ".sha256")
    require (sha.prefixed raw = expectedHash) (.packError (shown ++ ": SHA-256 mismatch"))
    let expectedRecords ← asIntMin (Json.lookup (txt "records") entry) (shown ++ ".records") 0
    require (((splitLines raw).length : ℤ) = expectedRecords)
      (.packError (shown ++ ": record count mismatch"))
    return ⟨relative, name, raw⟩
  return ⟨relative, name, raw⟩

/-- The files selected so far, by market and role. -/
abbrev Selected := List ((Text × SeriesRole) × SeriesFile)

/-- One entry of `files`: a decision series is read and selected, another interval is skipped. -/
def selectFile (aliases : List Text) (decisionBarMs : ℤ) (selected : Selected) (rawEntry : Json) :
    Py Selected := do
  let entry ← asObject (some rawEntry) "files[]"
  let aliasName ← asStr (Json.lookup (txt "market") entry) "files[].market"
  require (aliasName ∈ aliases)
    (.packError ("series references undeclared market: " ++ Text.show aliasName))
  let roleText ← asStr (Json.lookup (txt "role") entry) "files[].role"
  let rowSchema ← asStr (Json.lookup (txt "row_schema") entry) "files[].row_schema"
  let intervalMs ← asIntMin (Json.lookup (txt "interval_ms") entry) "files[].interval_ms" 0
  match SeriesRole.ofText roleText with
  | none => .error (.packError ("unsupported series role: " ++ Text.show roleText))
  | some role =>
    require (rowSchema = txt role.rowSchema)
      (.packError (Text.show roleText ++ " series must declare " ++ role.rowSchema))
    if role ≠ .funding ∧ intervalMs.1 ≠ decisionBarMs then
      return selected
    require (¬ (role = .funding ∧ intervalMs.1 ≠ 0))
      (.packError "funding file interval_ms must be zero")
    require ((aliasName, role) ∉ selected.map Prod.fst)
      (.packError ("duplicate " ++ Text.show roleText ++ " series for " ++ Text.show aliasName ++
        " at decision interval"))
    let file ← readDeclaredFile sha directory verifyIntegrity entry
    return selected ++ [((aliasName, role), file)]

end Files

/-- The file selected for a market and role. -/
def selectedFile (selected : Selected) (aliasName : Text) (role : SeriesRole) : Option SeriesFile :=
  (selected.find? fun s => s.1 = (aliasName, role)).map Prod.snd

/-- `required_roles`, in the order of `sorted`. -/
abbrev REQUIRED_ROLES : List SeriesRole := [.funding, .index, .mark, .trade]

/-- `_strictly_increasing` -/
def strictlyIncreasing : List ℤ → Bool
  | a :: b :: rest => decide (a < b) && strictlyIncreasing (b :: rest)
  | _ => true

theorem strictlyIncreasing_pairwise {values : List ℤ} (h : strictlyIncreasing values = true) :
    values.Pairwise (· < ·) := by
  rw [← List.isChain_iff_pairwise]
  induction values with
  | nil => exact .nil
  | cons a rest ih =>
    cases rest with
    | nil => exact .singleton a
    | cons b rest =>
      simp only [strictlyIncreasing, Bool.and_eq_true, decide_eq_true_eq] at h
      exact .cons_cons h.1 (ih h.2)

/-- The file of a role that has to be there. -/
def requiredFile (selected : Selected) (aliasName : Text) (role : SeriesRole) : Py SeriesFile :=
  match selectedFile selected aliasName role with
  | some file => .ok file
  | none =>
    let missing := REQUIRED_ROLES.filter fun r => (selectedFile selected aliasName r).isNone
    .error (.packError (Text.show aliasName ++ " missing decision series: " ++
      joinNames (missing.map SeriesRole.wire)))

/-- One market: its series are read, and checked against each other. -/
def loadMarket (limits : Json.Limits) (selected : Selected) (aliasName : Text) (spec : MarketSpec) :
    Py (Text × MarketData) := do
  let shown := Text.show aliasName
  let fundingFile ← requiredFile selected aliasName .funding
  let indexFile ← requiredFile selected aliasName .index
  let markFile ← requiredFile selected aliasName .mark
  let tradeFile ← requiredFile selected aliasName .trade
  let bars (role : SeriesRole) (file : SeriesFile) := loadRows (Text.show file.path)
    (barRow limits (Text.show file.path) file.name aliasName role) file.raw
  let funding ← loadRows (Text.show fundingFile.path)
    (fundingRow limits (Text.show fundingFile.path) fundingFile.name aliasName) fundingFile.raw
  let index ← bars .index indexFile
  let mark ← bars .mark markFile
  let trade ← bars .trade tradeFile
  require (trade.length = mark.length ∧ mark.length = index.length)
    (.packError (shown ++ ": trade/mark/index series lengths differ"))
  let ⟨hmark⟩ ← check (mark.map BarRow.ts = trade.map BarRow.ts)
    (.packError (shown ++ ": trade/mark timestamps are not aligned"))
  let ⟨hindex⟩ ← check (index.map BarRow.ts = trade.map BarRow.ts)
    (.packError (shown ++ ": trade/index timestamps are not aligned"))
  let ⟨htrade⟩ ← check (strictlyIncreasing (trade.map BarRow.ts) = true)
    (.packError (shown ++ ": price-series timestamps are not increasing"))
  let ⟨hfunding⟩ ← check (strictlyIncreasing (funding.map FundingRow.ts) = true)
    (.packError (shown ++ ": funding timestamps are not increasing"))
  return (aliasName, ⟨spec, trade, mark, index, funding, hmark, hindex,
    strictlyIncreasing_pairwise htrade, strictlyIncreasing_pairwise hfunding⟩)

/-! ## The manifest -/

/-- `manifest_path.read_bytes()`, which follows links. -/
def manifestBytes (directory : Directory) : Py Bytes :=
  match directory (txt "manifest.json") with
  | .file raw | .link _ raw => .ok raw
  | _ => .error (.packError "cannot read pack manifest: manifest.json")

/-- The manifest's members, decoded. -/
def readManifest (limits : Json.Limits) (directory : Directory) : Py (List (Text × Json)) := do
  let raw ← manifestBytes directory
  let value ← (packDecoder "manifest.json").decode limits raw
  asObject (some value) "manifest"

/-- One declared market. -/
def declaredMarket (item : Text × Json) : Py (Text × MarketSpec) := do
  let members ← asObject (some item.2) ("markets." ++ Text.show item.1)
  let spec ← marketSpec item.1 members
  return (item.1, spec)

/-- The markets a manifest declares, by alias. -/
def declaredMarkets (manifest : List (Text × Json)) : Py (List (Text × MarketSpec)) := do
  let objects ← asObject (Json.lookup (txt "markets") manifest) "markets"
  require (objects ≠ []) (.packError "pack must declare at least one market")
  (sortedItems objects).mapM declaredMarket

/-- What the manifest says about the window, the warmup and the lookback, with the loaded
markets. -/
def assemblePack (manifest : List (Text × Json)) (decisionBarMs : {n : ℤ // 1 ≤ n})
    (markets : List (Text × MarketData)) (hmarkets : markets ≠ []) : Py PackData := do
  let window ← asObject (Json.lookup (txt "window") manifest) "window"
  let defaults ← asObject (Json.lookup (txt "default_lookback") manifest) "default_lookback"
  let windowStart ← asIntMin (Json.lookup (txt "start_ts") window) "window.start_ts" 0
  let windowEnd ← asIntMin (Json.lookup (txt "end_ts") window) "window.end_ts" 0
  let ⟨hwindow⟩ ← check (windowStart.1 < windowEnd.1)
    (.packError "window.end_ts must be after window.start_ts")
  let packId ← asStr (Json.lookup (txt "pack_id") manifest) "pack_id"
  let contentHash ← asStr (Json.lookup (txt "content_hash") manifest) "content_hash"
  let warmup ← asIntMin (Json.lookup (txt "warmup_bars") manifest) "warmup_bars" 0
  let bars ← asIntMin (Json.lookup (txt "bars") defaults) "default_lookback.bars" 1
  let prints ← asIntMin (Json.lookup (txt "funding_prints") defaults)
    "default_lookback.funding_prints" 0
  return {
    packId
    contentHash
    windowStartTs := windowStart
    windowEndTs := windowEnd
    decisionBarMs := decisionBarMs
    warmupBars := warmup.1.toNat
    defaultLookback := ⟨bars, prints, bars.2, prints.2⟩
    markets
    manifest
    window_start_nonneg := windowStart.2
    window_ordered := hwindow
    decision_bar_pos := decisionBarMs.2
    markets_ne_nil := hmarkets }

/-- `load_pack` -/
def loadPack (sha : Sha256) (limits : Json.Limits) (verifyIntegrity : Bool)
    (directory : Directory) : Py PackData := do
  let manifest ← readManifest limits directory
  require ((Json.lookup (txt "schema") manifest).any
      fun | .str s => s = txt "pack_manifest/v1" | _ => false)
    (.packError "manifest schema must equal pack_manifest/v1")
  let decisionBarMs ← asIntMin (Json.lookup (txt "decision_bar_ms") manifest) "decision_bar_ms" 1
  let specs ← declaredMarkets manifest
  let files ← asArray (Json.lookup (txt "files") manifest) "files"
  let selected ← files.foldlM
    (selectFile sha directory verifyIntegrity (specs.map Prod.fst) decisionBarMs) []
  let markets ← specs.mapM fun (aliasName, spec) => loadMarket limits selected aliasName spec
  -- there is a market for each of the declared ones, of which there is at least one
  let ⟨hmarkets⟩ ← check (markets ≠ []) (.packError "pack must declare at least one market")
  assemblePack manifest decisionBarMs markets hmarkets

end WagmiBench.Core
