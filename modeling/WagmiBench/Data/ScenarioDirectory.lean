import WagmiBench.Core.Engine.Scenario
import WagmiBench.Core.PackLoader
import WagmiBench.Data.Validator

/-!
# Scenario directories

A scenario written out as a pack directory: a canonical manifest and four series. What loading the
directory gives back is the scenario's pack, with the content hash and the manifest that were
written.
-/

namespace WagmiBench.Data

open WagmiBench.Lib WagmiBench.Spec WagmiBench.Core

/-- Every document follows its schema, and every link leads to an archive of the bulk host. -/
def scenarioExternals : Externals where
  schemaValid _ _ := true
  urlsplit _ := ⟨txt "https", some BINANCE_BULK_HOST, some none, none, none, [], [],
    txt "/data/archive.zip"⟩

end WagmiBench.Data

namespace WagmiBench.Core.Scenario

open WagmiBench.Lib WagmiBench.Spec WagmiBench.Data

variable (scenario : Scenario)

/-- The canonical bytes of a document that has some. -/
def document (value : Json) : Bytes :=
  match value.canonical with
  | .ok raw => raw
  | .error _ => []

def barDocument (row : BarRow) : Bytes :=
  document (jsonObj [("ts", .int row.ts), ("available_at", .int row.availableAt), ("o", .int row.o),
    ("h", .int row.h), ("l", .int row.l), ("c", .int row.c), ("v_base_1e8", .int row.vBase1e8)])

def fundingDocument (row : FundingRow) : Bytes :=
  document (jsonObj [("ts", .int row.ts), ("available_at", .int row.availableAt),
    ("rate_1e8", .int row.rate1e8)])

/-- The bytes of each series file. -/
def seriesBytes : List (String × Bytes) :=
  [("funding", joinLines (scenario.market.funding.map fundingDocument)),
    ("index", joinLines (scenario.market.index.map barDocument)),
    ("mark", joinLines (scenario.market.mark.map barDocument)),
    ("trade", joinLines (scenario.market.trade.map barDocument))]

/-- The manifest entry of a series file. -/
def fileEntry (series : String × Bytes) : List (Text × Json) :=
  let (role, raw) := series
  let funding := role = "funding"
  [(txt "path", jsonStr (role ++ ".jsonl")), (txt "role", jsonStr role),
    (txt "market", .str ALIAS), (txt "interval_ms", .int (if funding then 0 else HOUR)),
    (txt "row_schema", jsonStr (if funding then "funding_row/v1" else "bar_row/v1")),
    (txt "sha256", .str (sha.prefixed raw)), (txt "bytes", .int raw.length),
    (txt "records", .int (splitLines raw).length),
    (txt "upstream", .arr [jsonObj [("url", jsonStr "https://data.binance.vision/data/archive.zip"),
      ("sha256", .str (sha.prefixed []))]])]

def tierDocument (tier : MarginTier) : Json :=
  jsonObj [("notional_cap_micro", .int tier.notionalCapMicro),
    ("initial_rate_1e8", .int tier.initialRate1e8),
    ("maintenance_rate_1e8", .int tier.maintenanceRate1e8)]

/-- The descriptor of the market. -/
def descriptor (spec : MarketSpec) : Json :=
  jsonObj [("instrument", jsonStr "binance-um:BTCUSDT"), ("base_asset", jsonStr "BTC"),
    ("quote_asset", jsonStr "USDT"), ("tick_size_micro", .int spec.tickSizeMicro),
    ("qty_step_base_1e8", .int spec.qtyStepBase1e8),
    ("min_notional_micro", .int spec.minNotionalMicro),
    ("leverage_cap_lev_1e4", .int spec.leverageCapLev1e4),
    ("margin", jsonObj [("tiers", .arr (spec.marginTiers.map tierDocument)),
      ("liquidation_penalty_1e8", .int spec.liquidationPenalty1e8)]),
    ("funding", jsonObj [("interval_ms", .int spec.funding.intervalMs),
      ("settlement_offsets_ms", .arr (spec.funding.settlementOffsetsMs.map .int)),
      ("cap_1e8", .int spec.funding.cap1e8), ("floor_1e8", .int spec.funding.floor1e8)]),
    ("fees", jsonObj [("maker_rate_1e8", .int spec.makerFeeRate1e8),
      ("taker_rate_1e8", .int spec.takerFeeRate1e8)]),
    ("execution", jsonObj [("half_spread_1e8", .int spec.halfSpread1e8),
      ("impact_model", jsonStr "linear"), ("impact_coeff_1e8", .int spec.impactCoeff1e8),
      ("participation_cap_1e8", .int spec.participationCap1e8),
      ("cost_profile_multipliers_1e4",
        .obj (spec.costProfileMultipliers1e4.map fun p => (p.1, .int p.2)))])]

/-- The content hash of the series files. -/
def contentHash : Text :=
  sha.prefixed (document (contentProjection (scenario.seriesBytes.map fileEntry)))

def manifestDocument : Json :=
  jsonObj [("schema", jsonStr "pack_manifest/v1"), ("pack_id", .str scenario.pack.packId),
    ("content_hash", .str scenario.contentHash), ("venue", jsonStr "binance-um"),
    ("window", jsonObj [("start_ts", .int scenario.pack.windowStartTs),
      ("end_ts", .int scenario.pack.windowEndTs)]),
    ("bar_intervals_ms", .arr [.int HOUR]), ("decision_bar_ms", .int HOUR),
    ("warmup_bars", .int scenario.pack.warmupBars),
    ("markets", .obj [(ALIAS, descriptor scenario.spec)]),
    ("files", .arr (scenario.seriesBytes.map fun series => .obj (fileEntry series))),
    ("default_lookback", jsonObj [("bars", .int scenario.pack.defaultLookback.bars),
      ("funding_prints", .int scenario.pack.defaultLookback.fundingPrints)]),
    ("regime_description", jsonStr "synthetic"), ("claim_label", jsonStr "survival-stress"),
    ("created_by_version", jsonStr "0.1.0")]

/-- The scenario as a pack directory. -/
def directory : Directory := fun path =>
  if path = txt "manifest.json" then .file (document scenario.manifestDocument)
  else match scenario.seriesBytes.find? fun series => path = txt (series.1 ++ ".jsonl") with
    | some (_, raw) => .file raw
    | none => .missing

/-- What loading the directory gives back. -/
def loaded : PackData :=
  { scenario.pack with
    contentHash := scenario.contentHash
    manifest := match scenario.manifestDocument.normalize with
      | .obj members => members
      | _ => [] }

/-- The directory is accepted, and loads as the scenario's pack. -/
structure Accepted : Prop where
  loads : loadPack sha limits true scenario.directory = .ok scenario.loaded
  valid : Returns (validatePack scenarioExternals sha limits scenario.directory)

/-- The simulation of the loaded pack under a multiplier. -/
def loadedEnv (config : EpisodeConfig) (multiplier : ℤ) : ProfileEnv :=
  ⟨scenario.loaded, config, ALIAS, scenario.market, multiplier⟩

/-! ## A price that doubles and falls back -/

/-- A price that doubles within the second bar and falls back in the third. -/
def surge : Scenario :=
  ⟨.still 10_000, [⟨10_000, 20_000, 10_000, 20_000⟩, ⟨20_000, 20_000, 12_000, 13_000⟩,
    .still 13_000], [(0, 0)], 50_000, 0, 0, 1_000_000, 20_000, onePercent_pos, doubled_pos,
    by decide⟩

theorem surge_accepted : surge.Accepted :=
  ⟨by decide +kernel, by decide +kernel⟩

end WagmiBench.Core.Scenario
