import WagmiBench.Core.Decode
import WagmiBench.Lib.Files
import WagmiBench.Spec.Canonical

/-!
# Pack validation

`data/validator.py`, the read-only gate over a built pack directory: integrity, canonical bytes,
schema instances and the semantic invariants of the series. The JSON Schema engine and the
standard library's URL splitter are parameters.
-/

namespace WagmiBench.Data

open WagmiBench.Lib WagmiBench.Core WagmiBench.Spec

abbrev DAY_MS : ℤ := 86_400_000
abbrev HOUR_MS : ℤ := 3_600_000
abbrev BTCUSDT_FUNDING_INTERVAL_MS : ℤ := 8 * HOUR_MS
abbrev BTCUSDT_SETTLEMENT_OFFSETS_MS : List ℤ := [0, 8 * HOUR_MS, 16 * HOUR_MS]
abbrev MARK_TRADE_MAX_DIVERGENCE_1E8 : ℤ := 5_000_000

/-- The parts of `urllib.parse.urlsplit` that are looked at. -/
structure SplitResult where
  scheme : Text
  hostname : Option Text
  /-- `none` where reading the port raises. -/
  port : Option (Option ℕ)
  username : Option Text
  password : Option Text
  query : Text
  fragment : Text
  path : Text

/-- What validation takes from outside the repository: `Draft202012Validator` on the schemas
`pack_manifest`, `bar_row` and `funding_row`, and `urlsplit`. -/
structure Externals where
  schemaValid : Text → Json → Bool
  urlsplit : Text → SplitResult

/-- `_fail` -/
def fail {α : Type} (code message : String) : Py α := .error (.packValidationError code message)

/-- `if not c: _fail(code, message)` -/
abbrev demand (c : Prop) [Decidable c] (code message : String) : Py Unit :=
  require c (.packValidationError code message)

/-- What `_decode_json` raises. -/
def validationDecoder (source : String) : Decoder where
  invalidUtf8 := .packValidationError "INVALID_UTF8" source
  invalidJson := .packValidationError "INVALID_JSON" source
  refused
    | .fractional token => .packValidationError "NON_INTEGER_JSON"
      ("fractional JSON number is forbidden: " ++ Text.show token)
    | .nonfinite token => .packValidationError "NON_INTEGER_JSON"
      ("non-finite JSON number is forbidden: " ++ Text.show token)
    | .duplicateKey key => .packValidationError "DUPLICATE_JSON_KEY"
      ("duplicate JSON key: " ++ Text.show key)

/-- `_object` -/
def object (value : Option Json) (field : String) : Py (List (Text × Json)) :=
  match value with
  | some (.obj members) => .ok members
  | _ => fail "TYPE_ERROR" (field ++ " must be an object")

/-- `_array` -/
def array (value : Option Json) (field : String) : Py (List Json) :=
  match value with
  | some (.arr items) => .ok items
  | _ => fail "TYPE_ERROR" (field ++ " must be an array")

/-- `_integer` -/
def integer (value : Option Json) (field : String) : Py ℤ :=
  match value with
  | some (.int n) => .ok n
  | _ => fail "TYPE_ERROR" (field ++ " must be an integer")

/-- `_string` -/
def string (value : Option Json) (field : String) : Py Text :=
  match value with
  | some (.str s) => .ok s
  | _ => fail "TYPE_ERROR" (field ++ " must be a string")

/-- The members of a document have a canonical form, which is returned. -/
def canonicalOr (code context : String) (members : List (Text × Json)) : Py Bytes :=
  match canonicalBytes (.obj members) with
  | .ok b => .ok b
  | .error _ => fail code context

/-! ## Series -/

abbrev BINANCE_BULK_HOST : Text := txt "data.binance.vision"

/-- `validate_bulk_url` accepts. -/
def bulkUrlAccepted (parsed : SplitResult) : Bool :=
  parsed.scheme = txt "https" && parsed.hostname = some BINANCE_BULK_HOST &&
    (parsed.port = some none || parsed.port = some (some 443)) &&
    parsed.username.isNone && parsed.password.isNone && parsed.query.isEmpty &&
    parsed.fragment.isEmpty && txt "/data/" <+: parsed.path &&
    parsed.path.getLast? ≠ some (codePoint 0x2F)

/-- `_Series` -/
structure Series where
  path : Text
  market : Text
  role : Text
  intervalMs : ℤ
  rows : List (List (Text × Json))

section Reading

variable (ext : Externals) (sha : Sha256) (limits : Json.Limits) (directory : Directory)

/-- `_safe_series_path`, and the bytes behind it. -/
def safeSeriesBytes (relative : Text) : Py Bytes :=
  match directory relative with
  | .link _ _ => fail "UNSAFE_PATH" (Text.show relative ++ " must not be a symlink")
  | .missing => fail "MISSING_FILE" ("cannot read declared series " ++ Text.show relative)
  | .outside | .folder =>
    fail "UNSAFE_PATH" ("declared series escapes pack root: " ++ Text.show relative)
  | .file raw => .ok raw

/-- One upstream archive of a file. -/
def checkUpstream (relative : String) (source : Json × ℕ) : Py Unit := do
  let field := s!"{relative}.upstream[{source.2}]"
  let members ← object (some source.1) field
  let url ← string (Json.lookup (txt "url") members) (field ++ ".url")
  demand (bulkUrlAccepted (ext.urlsplit url)) "UPSTREAM_ORIGIN" (relative ++ ": " ++ Text.show url)

/-- One record of a series: its members, schema-valid and in canonical bytes. -/
def readRow (schemaName : Text) (context : String) (line : Bytes) : Py (List (Text × Json)) := do
  let value ← (validationDecoder context).decode limits line
  let row ← object (some value) context
  demand (ext.schemaValid schemaName (.obj row)) "SCHEMA_INVALID" context
  let canonical ← canonicalOr "JSONL_CANONICAL" context row
  demand (line = canonical) "JSONL_CANONICAL" (context ++ " is not JCS-canonical")
  return row

/-- `_read_series` -/
def readSeries (entry : List (Text × Json)) : Py Series := do
  let relative ← string (Json.lookup (txt "path") entry) "files[].path"
  let shown := Text.show relative
  let role ← string (Json.lookup (txt "role") entry) (shown ++ ".role")
  let market ← string (Json.lookup (txt "market") entry) (shown ++ ".market")
  let intervalMs ← integer (Json.lookup (txt "interval_ms") entry) (shown ++ ".interval_ms")
  let rowSchema ← string (Json.lookup (txt "row_schema") entry) (shown ++ ".row_schema")
  let expectedSchema := if role = txt "funding" then "funding_row/v1" else "bar_row/v1"
  demand (rowSchema = txt expectedSchema) "ROW_SCHEMA"
    (shown ++ " declares " ++ Text.show rowSchema ++ ", expected " ++ expectedSchema)
  let upstream ← array (Json.lookup (txt "upstream") entry) (shown ++ ".upstream")
  demand (upstream.isEmpty = false) "UPSTREAM_PROVENANCE" (shown ++ " has no upstream archive")
  let _ ← upstream.zipIdx.mapM (checkUpstream ext shown)
  let raw ← safeSeriesBytes directory relative
  let expectedBytes ← integer (Json.lookup (txt "bytes") entry) (shown ++ ".bytes")
  demand ((raw.length : ℤ) = expectedBytes) "BYTE_COUNT"
    s!"{shown}: expected {expectedBytes}, found {raw.length}"
  let expectedSha ← string (Json.lookup (txt "sha256") entry) (shown ++ ".sha256")
  demand (sha.prefixed raw = expectedSha) "FILE_HASH"
    (shown ++ ": expected " ++ Text.show expectedSha ++ ", found " ++ Text.show (sha.prefixed raw))
  demand (raw = [] ∨ raw.getLast? = some newline) "JSONL_CANONICAL"
    (shown ++ " is not newline-terminated")
  let lines := recordLines raw
  demand (∀ line ∈ lines, line ≠ []) "JSONL_CANONICAL" (shown ++ " contains a blank record")
  let expectedRecords ← integer (Json.lookup (txt "records") entry) (shown ++ ".records")
  demand ((lines.length : ℤ) = expectedRecords) "RECORD_COUNT"
    s!"{shown}: expected {expectedRecords}, found {lines.length}"
  let schemaName := if role = txt "funding" then txt "funding_row" else txt "bar_row"
  let rows ← lines.zipIdx.mapM fun (line, index) =>
    readRow ext limits schemaName s!"{shown}:{index + 1}" line
  return ⟨relative, market, role, intervalMs, rows⟩

end Reading

/-! ## Rows -/

/-- `ts` of every row, strictly increasing. -/
def strictTimestampOrder (series : Series) : Py (List ℤ) := do
  let shown := Text.show series.path
  let timestamps ← series.rows.zipIdx.mapM fun (row, index) =>
    integer (Json.lookup (txt "ts") row) s!"{shown}[{index}].ts"
  demand timestamps.Nodup "DUPLICATE_TIMESTAMP" (shown ++ " contains a duplicated timestamp")
  demand (timestamps.IsChain (· < ·)) "TIMESTAMP_ORDER"
    (shown ++ " timestamps are not strictly increasing")
  return timestamps

/-- One bar at `ts`. -/
def checkBarRow (intervalMs : ℤ) (field : String) (row : List (Text × Json)) (ts : ℤ) :
    Py Unit := do
  let availableAt ← integer (Json.lookup (txt "available_at") row) (field ++ ".available_at")
  demand (availableAt = ts + intervalMs) "AVAILABLE_AT"
    (field ++ " must have available_at=ts+interval")
  let o ← integer (Json.lookup (txt "o") row) (field ++ ".o")
  let h ← integer (Json.lookup (txt "h") row) (field ++ ".h")
  let l ← integer (Json.lookup (txt "l") row) (field ++ ".l")
  let c ← integer (Json.lookup (txt "c") row) (field ++ ".c")
  demand (l ≤ min (min o c) h) "BAR_OHLC" (field ++ " low exceeds OHLC")
  demand (max (max o c) l ≤ h) "BAR_OHLC" (field ++ " high is below OHLC")

/-- `_validate_bar_rows` -/
def validateBarRows (series : Series) : Py (List ℤ) := do
  let timestamps ← strictTimestampOrder series
  let _ ← (series.rows.zip timestamps).zipIdx.mapM fun ((row, ts), index) =>
    checkBarRow series.intervalMs s!"{Text.show series.path}[{index}]" row ts
  return timestamps

/-- `_FundingPolicy` -/
structure FundingPolicy where
  intervalMs : ℤ
  settlementOffsetsMs : List ℤ
  floor1e8 : ℤ
  cap1e8 : ℤ

/-- The gaps between consecutive offsets of a day, and from the last to the first of the next. -/
def cyclicGaps (offsets : List ℤ) : List ℤ :=
  List.zipWith (fun a b => (b - a) % DAY_MS) offsets (offsets.rotate 1)

/-- The margin part of `_funding_policy`. -/
def checkMarginTiers (aliasName : String) (descriptor : List (Text × Json)) : Py Unit := do
  let margin ← object (Json.lookup (txt "margin") descriptor) s!"markets.{aliasName}.margin"
  let rawTiers ← array (Json.lookup (txt "tiers") margin) s!"markets.{aliasName}.margin.tiers"
  let tiers ← rawTiers.zipIdx.mapM fun (value, index) =>
    object (some value) s!"markets.{aliasName}.margin.tiers[{index}]"
  match tiers with
  | [] => fail "MARGIN_INVARIANT" (aliasName ++ " has no margin tier")
  | first :: _ =>
    let caps ← tiers.zipIdx.mapM fun (tier, index) =>
      integer (Json.lookup (txt "notional_cap_micro") tier)
        s!"markets.{aliasName}.margin.tiers[{index}].notional_cap_micro"
    demand (caps.IsChain (· < ·)) "MARGIN_INVARIANT"
      (aliasName ++ " margin tier caps are not strictly increasing")
    let initial ← integer (Json.lookup (txt "initial_rate_1e8") first)
      s!"markets.{aliasName}.margin.tiers[0].initial_rate_1e8"
    let maintenance ← integer (Json.lookup (txt "maintenance_rate_1e8") first)
      s!"markets.{aliasName}.margin.tiers[0].maintenance_rate_1e8"
    demand (maintenance * 2 = initial) "MARGIN_INVARIANT"
      (aliasName ++ " max-leverage maintenance must equal half initial")

/-- `_funding_policy` -/
def fundingPolicy (venue aliasText : Text) (descriptor : List (Text × Json)) : Py FundingPolicy := do
  let aliasName := Text.show aliasText
  let funding ← object (Json.lookup (txt "funding") descriptor) s!"markets.{aliasName}.funding"
  let intervalMs ← integer (Json.lookup (txt "interval_ms") funding)
    s!"markets.{aliasName}.funding.interval_ms"
  let rawOffsets ← array (Json.lookup (txt "settlement_offsets_ms") funding)
    s!"markets.{aliasName}.funding.settlement_offsets_ms"
  let offsets ← rawOffsets.zipIdx.mapM fun (value, index) =>
    integer (some value) s!"markets.{aliasName}.funding.settlement_offsets_ms[{index}]"
  demand (offsets.IsChain (· < ·)) "FUNDING_INTERVAL"
    (aliasName ++ " funding settlement offsets must be sorted and unique")
  demand (0 < intervalMs ∧ DAY_MS % intervalMs = 0) "FUNDING_INTERVAL"
    (aliasName ++ " funding interval must divide one UTC day exactly")
  demand ((offsets.length : ℤ) = DAY_MS / intervalMs) "FUNDING_INTERVAL"
    (aliasName ++ " settlement offset count does not match its interval")
  demand (∀ gap ∈ cyclicGaps offsets, gap = intervalMs) "FUNDING_INTERVAL"
    (aliasName ++ " settlement offsets do not form an exact interval")
  let instrument ← string (Json.lookup (txt "instrument") descriptor)
    s!"markets.{aliasName}.instrument"
  demand (¬ (venue = txt "binance-um" ∧ instrument = txt "binance-um:BTCUSDT" ∧
      (intervalMs ≠ BTCUSDT_FUNDING_INTERVAL_MS ∨ offsets ≠ BTCUSDT_SETTLEMENT_OFFSETS_MS)))
    "FUNDING_INTERVAL" "Binance BTCUSDT must settle exactly at 00/08/16 UTC"
  let floor ← integer (Json.lookup (txt "floor_1e8") funding)
    s!"markets.{aliasName}.funding.floor_1e8"
  let cap ← integer (Json.lookup (txt "cap_1e8") funding) s!"markets.{aliasName}.funding.cap_1e8"
  demand (¬ (0 < floor ∨ cap < 0 ∨ cap < floor)) "FUNDING_CAP"
    (aliasName ++ " funding floor/cap do not bound zero")
  checkMarginTiers aliasName descriptor
  return ⟨intervalMs, offsets, floor, cap⟩

/-- `range(start, stop, step)` for a positive step. -/
def rangeStep (start stop step : ℤ) : List ℤ :=
  (List.range ((stop - start + step - 1) / step).toNat).map fun i : ℕ => start + i * step

/-- `_expected_funding_timestamps` -/
def expectedFundingTimestamps (windowStart windowEnd : ℤ) (offsets : List ℤ) : List ℤ :=
  let firstDay := windowStart - windowStart % DAY_MS
  ((rangeStep firstDay windowEnd DAY_MS).flatMap fun day => offsets.map (day + ·)).filter
    fun stamp => windowStart ≤ stamp ∧ stamp < windowEnd

/-- One funding row at `ts`. -/
def checkFundingRow (policy : FundingPolicy) (field : String) (row : List (Text × Json))
    (ts : ℤ) : Py Unit := do
  let availableAt ← integer (Json.lookup (txt "available_at") row) (field ++ ".available_at")
  demand (availableAt = ts) "AVAILABLE_AT" (field ++ " must have available_at=ts")
  demand (ts % DAY_MS ∈ policy.settlementOffsetsMs) "FUNDING_SETTLEMENT"
    (field ++ " is off the declared settlement clock")
  let rate ← integer (Json.lookup (txt "rate_1e8") row) (field ++ ".rate_1e8")
  demand (policy.floor1e8 ≤ rate ∧ rate ≤ policy.cap1e8) "FUNDING_CAP"
    (field ++ " rate is outside the declared bounds")

/-- `_validate_funding_rows` -/
def validateFundingRows (series : Series) (policy : FundingPolicy) (windowStart windowEnd : ℤ) :
    Py (List ℤ) := do
  let shown := Text.show series.path
  let timestamps ← strictTimestampOrder series
  let _ ← (series.rows.zip timestamps).zipIdx.mapM fun ((row, ts), index) =>
    checkFundingRow policy s!"{shown}[{index}]" row ts
  demand (timestamps.IsChain fun a b => b - a = policy.intervalMs) "FUNDING_GAP"
    (shown ++ " does not advance by the exact funding interval")
  demand (timestamps = expectedFundingTimestamps windowStart windowEnd policy.settlementOffsetsMs)
    "FUNDING_GAP" (shown ++ " does not exactly cover the pack window")
  return timestamps

/-- `_validate_bar_grid` -/
def validateBarGrid (market : String) (intervalMs : ℤ) (trade mark index : List ℤ)
    (windowStart windowEnd : ℤ) : Py Unit := do
  demand (trade = mark ∧ trade = index) "BAR_ALIGNMENT"
    s!"{market}/{intervalMs} trade, mark, and index timestamps differ"
  demand ((windowEnd - windowStart) % intervalMs = 0) "BAR_GAP"
    s!"{market}/{intervalMs} window is not bar-aligned"
  demand (trade = rangeStep windowStart windowEnd intervalMs) "BAR_GAP"
    s!"{market}/{intervalMs} does not exactly cover the pack window"

/-- The closes of one trade row and the mark row beside it. -/
def checkDivergence (trade mark : Series) (rows : (List (Text × Json) × List (Text × Json)) × ℕ) :
    Py Unit := do
  let ((tradeRow, markRow), index) := rows
  let tradeClose ← integer (Json.lookup (txt "c") tradeRow) s!"{Text.show trade.path}[{index}].c"
  let markClose ← integer (Json.lookup (txt "c") markRow) s!"{Text.show mark.path}[{index}].c"
  demand (0 < tradeClose) "MARK_TRADE_DIVERGENCE"
    s!"{Text.show trade.path}[{index}] has a non-positive trade close"
  demand (|markClose - tradeClose| * 100_000_000 ≤ tradeClose * MARK_TRADE_MAX_DIVERGENCE_1E8)
    "MARK_TRADE_DIVERGENCE"
    s!"{Text.show trade.market}/{trade.intervalMs} close divergence exceeds {
      MARK_TRADE_MAX_DIVERGENCE_1E8}e-8 at row {index}"

/-- `_validate_mark_trade_divergence` -/
def validateMarkTradeDivergence (trade mark : Series) : Py Unit := do
  require (trade.rows.length = mark.rows.length)
    (.valueError "zip() arguments have different lengths")
  let _ ← (trade.rows.zip mark.rows).zipIdx.mapM (checkDivergence trade mark)

/-! ## The pack -/

/-- What identifies a series. -/
structure SeriesKey where
  market : Text
  role : Text
  intervalMs : ℤ
  deriving DecidableEq

def Series.key (series : Series) : SeriesKey := ⟨series.market, series.role, series.intervalMs⟩

/-- `by_key.get(key)` -/
def seriesAt (series : List Series) (key : SeriesKey) : Option Series :=
  series.find? fun s => s.key = key

/-- A series that has to be there. -/
def requiredSeries (series : List Series) (key : SeriesKey) (missing : String) : Py Series :=
  match seriesAt series key with
  | some s => .ok s
  | none => fail "MISSING_SERIES" missing

/-- One series of the loop that fills `by_key`. -/
def checkSeriesKey (markets : List Text) (intervals : List ℤ) (seen : List SeriesKey)
    (item : Series) : Py (List SeriesKey) := do
  demand (item.market ∈ markets) "UNKNOWN_MARKET"
    (Text.show item.path ++ " references undeclared market " ++ Text.show item.market)
  if item.role = txt "funding" then
    demand (item.intervalMs = 0) "FUNDING_INTERVAL" (Text.show item.path ++ " interval must be zero")
  else
    demand (item.intervalMs ∈ intervals) "MANIFEST_INTERVALS"
      (Text.show item.path ++ " interval is not declared")
  demand (item.key ∉ seen) "DUPLICATE_SERIES" ("duplicate series key " ++ Text.show item.path)
  return seen ++ [item.key]

section Matrix

variable (series : List Series) (windowStart windowEnd : ℤ)

/-- One interval of one market: its three series, each in itself and against each other. What is
returned is the number of bars of each. -/
def validateInterval (aliasText : Text) (intervalMs : ℤ) : Py ℕ := do
  let aliasName := Text.show aliasText
  let get (role : String) := requiredSeries series ⟨aliasText, txt role, intervalMs⟩
    s!"{aliasName}/{intervalMs} is missing {role}"
  let trade ← get "trade"
  let mark ← get "mark"
  let index ← get "index"
  let indexTs ← validateBarRows index
  let markTs ← validateBarRows mark
  let tradeTs ← validateBarRows trade
  validateBarGrid aliasName intervalMs tradeTs markTs indexTs windowStart windowEnd
  validateMarkTradeDivergence trade mark
  return trade.rows.length

/-- One market: its funding, then its intervals. -/
def validateMarket (intervals : List ℤ) (market : Text × FundingPolicy) :
    Py (ℕ × List (ℤ × ℕ)) := do
  let funding ← requiredSeries series ⟨market.1, txt "funding", 0⟩
    (Text.show market.1 ++ " is missing funding")
  let _ ← validateFundingRows funding market.2 windowStart windowEnd
  let counts ← intervals.mapM fun intervalMs => do
    let count ← validateInterval series windowStart windowEnd market.1 intervalMs
    return (intervalMs, count)
  return (funding.rows.length, counts)

end Matrix

/-- The series a pack may hold. -/
def expectedKeys (markets : List Text) (intervals : List ℤ) : List SeriesKey :=
  (markets.flatMap fun m => intervals.flatMap fun i =>
    [⟨m, txt "trade", i⟩, ⟨m, txt "mark", i⟩, ⟨m, txt "index", i⟩]) ++
  markets.map fun m => ⟨m, txt "funding", 0⟩

/-- The projection a content hash is taken of. -/
def contentProjection (entries : List (List (Text × Json))) : Json :=
  .obj [(txt "schema", .str (txt "pack_content/v1")),
    (txt "files", .arr (entries.map fun entry =>
      .obj (["path", "sha256", "bytes", "records"].map fun key =>
        (txt key, (Json.lookup (txt key) entry).getD .null))))]

/-- `PackValidationResult` -/
structure PackValidationResult where
  packId : Text
  contentHash : Text
  files : ℕ
  barRows : ℕ
  fundingRows : ℕ
  actionableBars : ℤ

/-- `min(counts)` -/
def minimumCount : List ℕ → Option ℕ
  | [] => none
  | n :: rest => some (rest.foldl min n)

section Validate

variable (ext : Externals) (sha : Sha256) (limits : Json.Limits) (directory : Directory)

/-- `manifest_path.read_bytes()`, which follows links. -/
def manifestBytes : Py Bytes :=
  match directory (txt "manifest.json") with
  | .file raw | .link _ raw => .ok raw
  | _ => fail "MISSING_MANIFEST" "cannot read manifest.json"

/-- The manifest: decoded, schema-valid and canonical. -/
def validateManifest : Py (List (Text × Json)) := do
  let raw ← manifestBytes directory
  let value ← (validationDecoder "manifest.json").decode limits raw
  let manifest ← object (some value) "manifest.json"
  demand (ext.schemaValid (txt "pack_manifest") (.obj manifest)) "SCHEMA_INVALID" "manifest.json"
  let canonical ← canonicalOr "MANIFEST_CANONICAL" "manifest.json" manifest
  demand (raw = canonical) "MANIFEST_CANONICAL" "manifest.json is not JCS-canonical"
  return manifest

/-- `window.start_ts` and `window.end_ts`. -/
def manifestWindow (manifest : List (Text × Json)) : Py (ℤ × ℤ) := do
  let window ← object (Json.lookup (txt "window") manifest) "window"
  let windowStart ← integer (Json.lookup (txt "start_ts") window) "window.start_ts"
  let windowEnd ← integer (Json.lookup (txt "end_ts") window) "window.end_ts"
  demand (windowStart < windowEnd) "WINDOW" "window.end_ts must be after window.start_ts"
  return (windowStart, windowEnd)

/-- `bar_intervals_ms` and the decision interval among them. -/
def manifestIntervals (manifest : List (Text × Json)) : Py (List ℤ × ℤ) := do
  let raw ← array (Json.lookup (txt "bar_intervals_ms") manifest) "bar_intervals_ms"
  let intervals ← raw.zipIdx.mapM fun (value, index) =>
    integer (some value) s!"bar_intervals_ms[{index}]"
  demand (intervals.IsChain (· < ·)) "MANIFEST_INTERVALS"
    "bar_intervals_ms must be sorted and unique"
  let decisionBarMs ← integer (Json.lookup (txt "decision_bar_ms") manifest) "decision_bar_ms"
  demand (decisionBarMs ∈ intervals) "MANIFEST_INTERVALS"
    "decision_bar_ms is not present in bar_intervals_ms"
  return (intervals, decisionBarMs)

/-- `files`, in the order of their paths. -/
def manifestEntries (manifest : List (Text × Json)) : Py (List (List (Text × Json))) := do
  let raw ← array (Json.lookup (txt "files") manifest) "files"
  let entries ← raw.zipIdx.mapM fun (value, index) => object (some value) s!"files[{index}]"
  let paths ← entries.zipIdx.mapM fun (entry, index) =>
    string (Json.lookup (txt "path") entry) s!"files[{index}].path"
  demand (sortTexts paths = paths) "MANIFEST_FILE_ORDER" "manifest files must be sorted by path"
  demand paths.Nodup "MANIFEST_FILE_ORDER" "manifest contains duplicate file paths"
  return entries

/-- The declared markets with their funding policies, by alias. -/
def manifestPolicies (manifest : List (Text × Json)) : Py (List (Text × FundingPolicy)) := do
  let values ← object (Json.lookup (txt "markets") manifest) "markets"
  let markets ← (sortedItems values).mapM fun item => do
    let descriptor ← object (some item.2) ("markets." ++ Text.show item.1)
    return (item.1, descriptor)
  let venue ← string (Json.lookup (txt "venue") manifest) "venue"
  markets.mapM fun market => do
    let policy ← fundingPolicy venue market.1 market.2
    return (market.1, policy)

/-- `validate_pack` -/
def validatePack : Py PackValidationResult := do
  let manifest ← validateManifest ext limits directory
  let (windowStart, windowEnd) ← manifestWindow manifest
  let (intervals, decisionBarMs) ← manifestIntervals manifest
  let entries ← manifestEntries manifest
  let series ← entries.mapM (readSeries ext sha limits directory)
  let projection ← canonicalBytes (contentProjection entries)
  let expectedHash ← string (Json.lookup (txt "content_hash") manifest) "content_hash"
  demand (sha.prefixed projection = expectedHash) "CONTENT_HASH"
    ("expected " ++ Text.show expectedHash ++ ", found " ++ Text.show (sha.prefixed projection))
  let policies ← manifestPolicies manifest
  let aliases := policies.map Prod.fst
  let keys ← series.foldlM (checkSeriesKey aliases intervals) []
  let counts ← policies.mapM (validateMarket series windowStart windowEnd intervals)
  demand (∀ k ∈ keys, k ∈ expectedKeys aliases intervals) "UNEXPECTED_SERIES"
    "undeclared series matrices"
  let warmupBars ← integer (Json.lookup (txt "warmup_bars") manifest) "warmup_bars"
  let decisionCounts := counts.flatMap fun c => (c.2.filter fun i => i.1 = decisionBarMs).map Prod.snd
  match minimumCount decisionCounts with
  | none => fail "WARMUP_LENGTH" "pack has no decision-interval trade series"
  | some shortest =>
    let actionableBars : ℤ := shortest - warmupBars - 1
    demand (1 ≤ actionableBars) "WARMUP_LENGTH"
      "warmup leaves no decision turn plus final holding bar"
    let packId ← string (Json.lookup (txt "pack_id") manifest) "pack_id"
    return {
      packId
      contentHash := expectedHash
      files := series.length
      barRows := (counts.flatMap fun c => c.2.map fun i => 3 * i.2).sum
      fundingRows := (counts.map Prod.fst).sum
      actionableBars }

end Validate

end WagmiBench.Data
