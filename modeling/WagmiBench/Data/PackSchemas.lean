import WagmiBench.Core.ActionSchema
import WagmiBench.Data.Accepted
import WagmiBench.Lib.Raises

/-!
# The schemas of a pack

`spec/schemas/pack_manifest.v1.schema.json`, `bar_row.v1.schema.json` and
`funding_row.v1.schema.json`, which validation has checked by a schema engine from outside the
repository. What follows a schema can be read by the typed readers of the loader.
-/

namespace WagmiBench.Data

open WagmiBench.Lib WagmiBench.Core WagmiBench.Spec
open Json (Schema)
open RegularExpression (char)
open Pattern (charRange oneOf between)

/-! ## Keywords -/

/-- A pattern as the engine searches for it: its end also stands before a final newline. -/
def searched (p : Pattern) : Schema :=
  .string fun t => p.rmatch t || (t.getLast? = some (codePoint 0x0A) && p.rmatch t.dropLast)

abbrev anyString : Schema := .string fun _ => true

/-- An integer from a minimum on. -/
abbrev fromMin (minimum : ℤ) : Schema := .integer (some minimum) none

/-- `^sha256:[0-9a-f]{64}$` -/
def hashString : Schema :=
  .string fun t => IsHash t || (t.getLast? = some (codePoint 0x0A) && IsHash t.dropLast)

def text (s : String) : Json := .str (txt s)

/-- An object with all of its members named. -/
abbrev closed (required : List String) (properties : List (String × Schema)) : Schema :=
  .object required properties none

/-- An object all of whose members follow one schema. -/
abbrev mapOf (schema : Schema) : Schema := .object [] [] (some schema)

/-! ## Rows -/

abbrev stamp : Schema := .integer (some 0) (some MAX_EXACT_JSON_INT)

def BAR_ROW : Schema :=
  closed ["ts", "available_at", "o", "h", "l", "c", "v_base_1e8"]
    [("ts", stamp), ("available_at", stamp), ("o", fromMin 0), ("h", fromMin 0), ("l", fromMin 0),
      ("c", fromMin 0), ("v_base_1e8", fromMin 0)]

def FUNDING_ROW : Schema :=
  closed ["ts", "available_at", "rate_1e8"]
    [("ts", stamp), ("available_at", stamp), ("rate_1e8", .integer none none)]

/-! ## Market descriptors -/

abbrev lower : Text := charRange 'a' 'z' ++ digits
abbrev upper : Text := charRange 'A' 'Z' ++ digits
abbrev dash : Text := [codePoint 0x2D]

/-- `^[a-z0-9-]+:[A-Z0-9]+$` -/
def instrumentPattern : Pattern :=
  oneOf (lower ++ dash) * (oneOf (lower ++ dash)).star *
    (char (codePoint 0x3A) * (oneOf upper * (oneOf upper).star))

def TIER : Schema :=
  closed ["notional_cap_micro", "initial_rate_1e8", "maintenance_rate_1e8"]
    [("notional_cap_micro", fromMin 1), ("initial_rate_1e8", fromMin 1),
      ("maintenance_rate_1e8", fromMin 1)]

def MARGIN : Schema :=
  closed ["tiers", "liquidation_penalty_1e8"]
    [("tiers", .array 1 TIER), ("liquidation_penalty_1e8", fromMin 0)]

def FUNDING : Schema :=
  closed ["interval_ms", "settlement_offsets_ms", "cap_1e8", "floor_1e8"]
    [("interval_ms", fromMin 1),
      ("settlement_offsets_ms", .array 1 (.integer (some 0) (some 86_399_999))),
      ("cap_1e8", .integer none none), ("floor_1e8", .integer none none)]

def FEES : Schema :=
  closed ["maker_rate_1e8", "taker_rate_1e8"]
    [("maker_rate_1e8", fromMin 0), ("taker_rate_1e8", fromMin 0)]

def EXECUTION : Schema :=
  closed ["half_spread_1e8", "impact_model", "impact_coeff_1e8", "participation_cap_1e8",
      "cost_profile_multipliers_1e4"]
    [("half_spread_1e8", fromMin 0), ("impact_model", .enum [text "linear", text "sqrt"]),
      ("impact_coeff_1e8", fromMin 0), ("participation_cap_1e8", fromMin 1),
      ("cost_profile_multipliers_1e4", mapOf (fromMin 1))]

def MARKET_DESCRIPTOR : Schema :=
  closed ["instrument", "base_asset", "quote_asset", "tick_size_micro", "qty_step_base_1e8",
      "min_notional_micro", "leverage_cap_lev_1e4", "margin", "funding", "fees", "execution"]
    [("instrument", searched instrumentPattern), ("base_asset", anyString),
      ("quote_asset", .enum [text "USDT"]), ("tick_size_micro", fromMin 1),
      ("qty_step_base_1e8", fromMin 1), ("min_notional_micro", fromMin 0),
      ("leverage_cap_lev_1e4", fromMin 1), ("margin", MARGIN), ("funding", FUNDING),
      ("fees", FEES), ("execution", EXECUTION), ("calibration_note", anyString),
      ("ext", mapOf (.ref "ext_value"))]

/-! ## The manifest -/

/-- `^[a-z0-9][a-z0-9-]{1,63}$` -/
def packIdPattern : Pattern := oneOf lower * between (oneOf (lower ++ dash)) 1 63

def WINDOW : Schema :=
  closed ["start_ts", "end_ts"] [("start_ts", fromMin 0), ("end_ts", fromMin 0)]

def BAR_INTERVAL : Schema := .enum [.int 3_600_000, .int 14_400_000]

def UPSTREAM : Schema := closed ["url", "sha256"] [("url", anyString), ("sha256", hashString)]

def FILE : Schema :=
  closed ["path", "role", "market", "interval_ms", "row_schema", "sha256", "bytes", "records",
      "upstream"]
    [("path", anyString),
      ("role", .enum [text "trade", text "mark", text "index", text "funding"]),
      ("market", anyString), ("interval_ms", fromMin 0), ("row_schema", anyString),
      ("sha256", hashString), ("bytes", fromMin 0), ("records", fromMin 0),
      ("upstream", .array 0 UPSTREAM)]

def DEFAULT_LOOKBACK : Schema :=
  closed ["bars", "funding_prints"] [("bars", fromMin 1), ("funding_prints", fromMin 0)]

def PACK_MANIFEST : Schema :=
  closed ["schema", "pack_id", "content_hash", "venue", "window", "bar_intervals_ms",
      "decision_bar_ms", "warmup_bars", "markets", "files", "default_lookback",
      "regime_description", "claim_label", "created_by_version"]
    [("schema", .enum [text "pack_manifest/v1"]), ("pack_id", searched packIdPattern),
      ("content_hash", hashString), ("venue", anyString), ("window", WINDOW),
      ("bar_intervals_ms", .array 1 BAR_INTERVAL), ("decision_bar_ms", BAR_INTERVAL),
      ("warmup_bars", fromMin 0),
      ("markets", .all [.propertyCount 1 none, .propertyNames fun t => isMarketAlias t ||
          (t.getLast? = some (codePoint 0x0A) && isMarketAlias t.dropLast),
        mapOf (.ref "market_descriptor")]),
      ("files", .array 1 FILE), ("default_lookback", DEFAULT_LOOKBACK),
      ("regime_description", anyString), ("claim_label", .enum [text "survival-stress"]),
      ("created_by_version", anyString), ("ext", mapOf (.ref "ext_value"))]

/-- `$defs` -/
def packDefs : String → Schema
  | "market_descriptor" => MARKET_DESCRIPTOR
  | name => actionDefs name

/-- The schemas by the names validation has them checked under. -/
def packSchemas : List (String × Schema) :=
  [("pack_manifest", PACK_MANIFEST), ("bar_row", BAR_ROW), ("funding_row", FUNDING_ROW)]

/-- The schema engine accepts nothing but what follows the schema. -/
def SchemaLawful (ext : Externals) : Prop :=
  ∀ s ∈ packSchemas, ∀ v, ext.schemaValid (txt s.1) v = true → Schema.Valid packDefs s.2 v

/-! ## Typed reads of what follows a schema -/

section Reads

variable {required : List String} {properties : List (String × Schema)}
  {members : List (Text × Json)} {key : String} {field : String} {v : Json}

theorem ofMember_txt_cons {name : String} {schema : Schema} {additional : Option Schema} :
    Schema.ofMember ((name, schema) :: properties) additional (txt key) =
      if name = key then some schema else Schema.ofMember properties additional (txt key) := by
  by_cases h : name = key <;> simp [Schema.ofMember, h]

/-- A required member is there and follows its schema. -/
theorem member_of_closed (h : Schema.Valid packDefs (closed required properties) (.obj members))
    (key : String) {s : Schema} (hkey : key ∈ required)
    (hschema : Schema.ofMember properties none (txt key) = some s) :
    ∃ w, Json.lookup (txt key) members = some w ∧ Schema.Valid packDefs s w :=
  h.required hkey hschema

theorem object_of_closed (h : Schema.Valid packDefs (closed required properties) (.obj members))
    (key : String) {s : Schema} (hkey : key ∈ required)
    (hschema : Schema.ofMember properties none (txt key) = some s)
    (hobject : ∃ required' properties' additional, s = .object required' properties' additional) :
    ∃ inner, Json.lookup (txt key) members = some (.obj inner) ∧
      Schema.Valid packDefs s (.obj inner) := by
  obtain ⟨_, _, _, rfl⟩ := hobject
  obtain ⟨w, hw, hvalid⟩ := member_of_closed h key hkey hschema
  obtain ⟨inner, rfl, -⟩ := Schema.valid_object.mp hvalid
  exact ⟨inner, hw, hvalid⟩

theorem returns_int (h : Schema.Valid packDefs (closed required properties) (.obj members))
    (key : String) (hkey : key ∈ required)
    (hschema : Schema.ofMember properties none (txt key) = some (.integer none none)) :
    Returns (asInt (Json.lookup (txt key) members) field) := by
  obtain ⟨w, hw, hvalid⟩ := member_of_closed h key hkey hschema
  obtain ⟨n, rfl, -⟩ := Schema.valid_integer.mp hvalid
  exact ⟨n, by rw [hw]; rfl⟩

theorem asIntMin_returns {minimum : ℤ} {maximum : Option ℤ}
    (h : Schema.Valid packDefs (.integer (some minimum) maximum) v) :
    Returns (asIntMin (some v) field minimum) := by
  obtain ⟨n, rfl, hleast, -⟩ := Schema.valid_integer.mp h
  have hn : minimum ≤ n := hleast minimum rfl
  exact ⟨⟨n, hn⟩, by rw [asIntMin, asInt, ok_bind, check_pos hn]; rfl⟩

theorem returns_intMin (h : Schema.Valid packDefs (closed required properties) (.obj members))
    (key : String) (minimum : ℤ) (hkey : key ∈ required)
    (hschema : Schema.ofMember properties none (txt key) = some (fromMin minimum)) :
    Returns (asIntMin (Json.lookup (txt key) members) field minimum) := by
  obtain ⟨w, hw, hvalid⟩ := member_of_closed h key hkey hschema
  rw [hw]
  exact asIntMin_returns hvalid

theorem returns_stamp (h : Schema.Valid packDefs (closed required properties) (.obj members))
    (key : String) (hkey : key ∈ required)
    (hschema : Schema.ofMember properties none (txt key) = some stamp) :
    Returns (asIntMin (Json.lookup (txt key) members) field 0) := by
  obtain ⟨w, hw, hvalid⟩ := member_of_closed h key hkey hschema
  rw [hw]
  exact asIntMin_returns hvalid

theorem returns_str (h : Schema.Valid packDefs (closed required properties) (.obj members))
    (key : String) {language : Text → Bool} (hkey : key ∈ required)
    (hschema : Schema.ofMember properties none (txt key) = some (.string language)) :
    Returns (asStr (Json.lookup (txt key) members) field) := by
  obtain ⟨w, hw, hvalid⟩ := member_of_closed h key hkey hschema
  obtain ⟨t, rfl, -⟩ := Schema.valid_string.mp hvalid
  exact ⟨t, by rw [hw]; rfl⟩

end Reads

/-! ## Market descriptors are read -/

theorem marginTier_returns {field : String} {item : Json}
    (h : Schema.Valid packDefs TIER item) : Returns (marginTier field item) := by
  obtain ⟨tier, rfl, -⟩ := Schema.valid_object.mp h
  have read : ∀ key ∈ ["notional_cap_micro", "initial_rate_1e8", "maintenance_rate_1e8"],
      ∀ field, Returns (asIntMin (Json.lookup (txt key) tier) field 1) := by
    intro key hkey field
    refine returns_intMin h key 1 hkey ?_
    simp only [List.mem_cons, List.not_mem_nil, or_false] at hkey
    rcases hkey with rfl | rfl | rfl <;> simp [ofMember_txt_cons]
  refine Returns.bind ⟨tier, rfl⟩ fun _ hmembers => ?_
  obtain rfl := Except.ok.inj hmembers
  refine (read _ (by simp) _).bind fun _ _ => (read _ (by simp) _).bind fun _ _ => ?_
  exact (read _ (by simp) _).bind fun _ _ => ⟨_, rfl⟩

theorem settlementOffsets_returns {name : String} {funding : List (Text × Json)}
    (h : Schema.Valid packDefs FUNDING (.obj funding)) : Returns (settlementOffsets name funding) := by
  obtain ⟨w, hw, hvalid⟩ := member_of_closed h "settlement_offsets_ms"
    (s := .array 1 (.integer (some 0) (some 86_399_999))) (by simp)
    (by simp [ofMember_txt_cons])
  obtain ⟨items, rfl, hlength, hitems⟩ := Schema.valid_array.mp hvalid
  refine Returns.bind ⟨items, by rw [hw]; rfl⟩ fun items' h' => ?_
  obtain rfl : items = items' := by simpa [hw] using asArray_eq_ok.mp h'
  refine (returns_mapM fun item hitem => asIntMin_returns (hitems item hitem)).bind
    fun offsets hoffsets => ?_
  have hne : offsets ≠ [] := by
    rintro rfl
    have := mapM_length hoffsets
    simp at this
    omega
  exact Returns.bind ⟨_, check_pos hne⟩ fun _ _ => ⟨_, rfl⟩

theorem profiles_returns {name : String} {profiles : List (Text × Json)}
    (h : Schema.Valid packDefs (mapOf (fromMin 1)) (.obj profiles)) :
    Returns ((sortedItems profiles).mapM (costProfile name)) := by
  refine returns_mapM fun item hitem => ?_
  have hmem : item ∈ profiles := (List.mem_insertionSort _).mp hitem
  exact (asIntMin_returns (Schema.valid_additional_iff.mp h item hmem)).bind fun _ _ => ⟨_, rfl⟩

theorem tiers_return {name : String} {margin : List (Text × Json)}
    (h : Schema.Valid packDefs MARGIN (.obj margin)) :
    ∃ items, Json.lookup (txt "tiers") margin = some (.arr items) ∧ items ≠ [] ∧
      Returns (items.zipIdx.mapM fun (item, index) =>
        marginTier s!"markets.{name}.margin.tiers[{index}]" item) := by
  obtain ⟨w, hw, hvalid⟩ := member_of_closed h "tiers" (s := .array 1 TIER) (by simp)
    (by simp [ofMember_txt_cons])
  obtain ⟨items, rfl, hlength, hitems⟩ := Schema.valid_array.mp hvalid
  refine ⟨items, hw, fun hnil => by simp [hnil] at hlength, returns_mapM fun item hitem => ?_⟩
  exact marginTier_returns (hitems _ (List.fst_mem_of_mem_zipIdx hitem))

theorem impactModel_returns {name : String} {execution : List (Text × Json)} {field : String}
    (h : Schema.Valid packDefs EXECUTION (.obj execution)) :
    ∃ value, asStr (Json.lookup (txt "impact_model") execution) field = .ok value ∧
      Returns (impactModelOf name value) := by
  obtain ⟨w, hw, hvalid⟩ := member_of_closed h "impact_model"
    (s := .enum [text "linear", text "sqrt"]) (by simp) (by simp [ofMember_txt_cons])
  simp only [Schema.valid_enum, List.mem_cons, List.not_mem_nil, or_false] at hvalid
  rcases hvalid with rfl | rfl
  · exact ⟨_, by rw [hw]; rfl, .linear, by simp [impactModelOf]⟩
  · exact ⟨_, by rw [hw]; rfl, .sqrt, by simp [impactModelOf]⟩

/-- **Descriptors.** What follows the schema of a market is a market to the loader. -/
theorem marketSpec_returns {name : Text} {raw : List (Text × Json)}
    (h : Schema.Valid packDefs MARKET_DESCRIPTOR (.obj raw)) : Returns (marketSpec name raw) := by
  obtain ⟨funding, hfunding, hf⟩ := object_of_closed h "funding" (s := FUNDING) (by simp)
    (by simp [ofMember_txt_cons]) ⟨_, _, _, rfl⟩
  obtain ⟨fees, hfees, hfe⟩ := object_of_closed h "fees" (s := FEES) (by simp)
    (by simp [ofMember_txt_cons]) ⟨_, _, _, rfl⟩
  obtain ⟨margin, hmargin, hm⟩ := object_of_closed h "margin" (s := MARGIN) (by simp)
    (by simp [ofMember_txt_cons]) ⟨_, _, _, rfl⟩
  obtain ⟨execution, hexecution, hx⟩ := object_of_closed h "execution" (s := EXECUTION) (by simp)
    (by simp [ofMember_txt_cons]) ⟨_, _, _, rfl⟩
  obtain ⟨profiles, hprofiles, hp⟩ := object_of_closed hx "cost_profile_multipliers_1e4"
    (s := mapOf (fromMin 1)) (by simp) (by simp [ofMember_txt_cons]) ⟨_, _, _, rfl⟩
  obtain ⟨tierItems, htierItems, hne, htiers⟩ := @tiers_return (Text.show name) _ hm
  obtain ⟨impact, himpact, hmodel⟩ := @impactModel_returns (Text.show name) _
    s!"markets.{Text.show name}.execution.impact_model" hx
  unfold marketSpec
  simp only [hfunding, hfees, hmargin, hexecution, asObject, ok_bind, hprofiles, htierItems, asArray,
    himpact]
  refine (profiles_returns hp).bind fun _ _ => (settlementOffsets_returns hf).bind fun _ _ => ?_
  refine htiers.bind fun tiers htiers => ?_
  have hnonempty : tiers.isEmpty = false := by
    rw [List.isEmpty_eq_false_iff]
    rintro rfl
    have := mapM_zipIdx_length htiers
    simp [List.length_eq_zero_iff, eq_comm, hne] at this
  refine Returns.bind ⟨_, check_pos hnonempty⟩ fun _ _ => hmodel.bind fun _ _ => ?_
  refine (returns_intMin h "tick_size_micro" 1 (by simp) (by simp [ofMember_txt_cons])).bind
    fun _ _ => ?_
  refine (returns_intMin h "qty_step_base_1e8" 1 (by simp) (by simp [ofMember_txt_cons])).bind
    fun _ _ => ?_
  refine (returns_intMin h "min_notional_micro" 0 (by simp) (by simp [ofMember_txt_cons])).bind
    fun _ _ => ?_
  refine (returns_intMin hfe "maker_rate_1e8" 0 (by simp) (by simp [ofMember_txt_cons])).bind
    fun _ _ => ?_
  refine (returns_intMin hfe "taker_rate_1e8" 0 (by simp) (by simp [ofMember_txt_cons])).bind
    fun _ _ => ?_
  refine (returns_intMin h "leverage_cap_lev_1e4" 1 (by simp) (by simp [ofMember_txt_cons])).bind
    fun _ _ => ?_
  refine (returns_intMin hm "liquidation_penalty_1e8" 0 (by simp) (by simp [ofMember_txt_cons])).bind
    fun _ _ => ?_
  refine (returns_intMin hf "interval_ms" 1 (by simp) (by simp [ofMember_txt_cons])).bind
    fun _ _ => ?_
  refine (returns_int hf "cap_1e8" (by simp) (by simp [ofMember_txt_cons])).bind fun _ _ => ?_
  refine (returns_int hf "floor_1e8" (by simp) (by simp [ofMember_txt_cons])).bind fun _ _ => ?_
  refine (returns_intMin hx "half_spread_1e8" 0 (by simp) (by simp [ofMember_txt_cons])).bind
    fun _ _ => ?_
  refine (returns_intMin hx "impact_coeff_1e8" 0 (by simp) (by simp [ofMember_txt_cons])).bind
    fun _ _ => ?_
  exact (returns_intMin hx "participation_cap_1e8" 1 (by simp) (by simp [ofMember_txt_cons])).bind
    fun _ _ => ⟨_, rfl⟩

/-! ## Rows are read -/

theorem barRow_returns {limits : Json.Limits} {source : String} {fileName market : Text}
    {role : SeriesRole} {index : ℕ} {line : Bytes} {row : List (Text × Json)}
    (hline : strictJson limits line = some (.obj row))
    (h : Schema.Valid packDefs BAR_ROW (.obj row)) :
    Returns (barRow limits source fileName market role index line) := by
  have hmembers : rowMembers limits source index line = .ok row := by
    rw [rowMembers, Decoder.decode_eq_ok.mpr hline]
    rfl
  rw [barRow, hmembers, ok_bind]
  refine (returns_stamp h "ts" (by simp) (by simp [ofMember_txt_cons])).bind fun _ _ => ?_
  refine (returns_stamp h "available_at" (by simp) (by simp [ofMember_txt_cons])).bind fun _ _ => ?_
  refine (returns_intMin h "o" 0 (by simp) (by simp [ofMember_txt_cons])).bind fun _ _ => ?_
  refine (returns_intMin h "h" 0 (by simp) (by simp [ofMember_txt_cons])).bind fun _ _ => ?_
  refine (returns_intMin h "l" 0 (by simp) (by simp [ofMember_txt_cons])).bind fun _ _ => ?_
  refine (returns_intMin h "c" 0 (by simp) (by simp [ofMember_txt_cons])).bind fun _ _ => ?_
  exact (returns_intMin h "v_base_1e8" 0 (by simp) (by simp [ofMember_txt_cons])).bind
    fun _ _ => ⟨_, rfl⟩

theorem fundingRow_returns {limits : Json.Limits} {source : String} {fileName market : Text}
    {index : ℕ} {line : Bytes} {row : List (Text × Json)}
    (hline : strictJson limits line = some (.obj row))
    (h : Schema.Valid packDefs FUNDING_ROW (.obj row)) :
    Returns (fundingRow limits source fileName market index line) := by
  have hmembers : rowMembers limits source index line = .ok row := by
    rw [rowMembers, Decoder.decode_eq_ok.mpr hline]
    rfl
  rw [fundingRow, hmembers, ok_bind]
  refine (returns_stamp h "ts" (by simp) (by simp [ofMember_txt_cons])).bind fun _ _ => ?_
  refine (returns_stamp h "available_at" (by simp) (by simp [ofMember_txt_cons])).bind fun _ _ => ?_
  exact (returns_int h "rate_1e8" (by simp) (by simp [ofMember_txt_cons])).bind fun _ _ => ⟨_, rfl⟩

end WagmiBench.Data
