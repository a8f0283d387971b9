import WagmiBench.Data.PackSchemas

/-!
# Validated packs load

What validation accepts, loading reads: the two gates read the same bytes by different code, and
every refusal of the loader is ruled out by a check of the validator or by a schema.
-/

namespace WagmiBench.Data

open WagmiBench.Lib WagmiBench.Core WagmiBench.Spec
open Json (Schema)

/-! ## What validation established -/

/-- What a validated entry declares about its file. -/
structure Declares (sha : Sha256) (directory : Directory) (entry : List (Text × Json))
    (series : Series) : Prop where
  rowSchema : Json.lookup (txt "row_schema") entry =
    some (.str (txt (if series.role = txt "funding" then "funding_row/v1" else "bar_row/v1")))
  file : ∃ raw, directory series.path = .file raw ∧ HasInt entry "bytes" raw.length ∧
    Json.lookup (txt "sha256") entry = some (.str (sha.prefixed raw)) ∧
    HasInt entry "records" (recordLines raw).length ∧ ∀ line ∈ recordLines raw, line ≠ []

/-- What a successful validation established beyond what it read. -/
structure Checked (ext : Externals) (sha : Sha256) (limits : Json.Limits) (directory : Directory)
    extends Validated ext sha limits directory where
  manifest_valid : ext.schemaValid (txt "pack_manifest") (.obj manifest) = true
  keys_expected : ∀ s ∈ series, s.key ∈ expectedKeys (policies.map Prod.fst) intervals
  hash_text : ∃ hash, Json.lookup (txt "content_hash") manifest = some (.str hash)
  /-- One bar of the decision interval is left behind the warmup and the last holding bar. -/
  actionable : ∃ warmup : ℤ, HasInt manifest "warmup_bars" warmup ∧ ∃ p ∈ policies,
    ∃ n : ℕ, validateInterval series windowStart windowEnd p.1 decisionBarMs = .ok n ∧
      1 ≤ (n : ℤ) - warmup - 1

section Checked

variable {ext : Externals} {sha : Sha256} {limits : Json.Limits} {directory : Directory}

theorem readSeries_declares {entry : List (Text × Json)} {series : Series}
    (h : readSeries ext sha limits directory entry = .ok series) :
    Declares sha directory entry series := by
  simp only [readSeries, bind_ok_iff, require_eq_ok, string_eq_ok, integer_eq_ok, array_eq_ok,
    pure_eq_ok, Except.ok.injEq] at h
  obtain ⟨relative, -, role, -, market, -, interval, -, rowSchema, hschema, -, hexpected,
    upstream, -, -, -, _, -, raw, hraw, bytes, hbytes, -, hlength, hash, hhash, -, hsha, -, -, -,
    hlines, records, hrecords, -, hcount, rows, -, rfl⟩ := h
  exact ⟨hexpected ▸ hschema, raw, safeSeriesBytes_eq_ok hraw, hlength ▸ hbytes, hsha ▸ hhash,
    hcount ▸ hrecords, hlines⟩

theorem minimumCount_mem {counts : List ℕ} {n : ℕ} (h : minimumCount counts = some n) :
    n ∈ counts := by
  cases counts with
  | nil => cases h
  | cons m rest =>
    obtain rfl := Option.some.inj h
    have key : ∀ (rest : List ℕ) (m : ℕ), rest.foldl min m ∈ m :: rest := by
      intro rest
      induction rest with
      | nil => simp
      | cons k rest ih =>
        intro m
        have := ih (min m k)
        rw [List.foldl_cons]
        rcases List.mem_cons.mp this with h | h
        · rw [h]
          rcases min_choice m k with h | h <;> simp [h]
        · simp [h]
    exact key rest m

theorem validatePack_checked (h : Returns (validatePack ext sha limits directory)) :
    Nonempty (Checked ext sha limits directory) := by
  obtain ⟨result, h⟩ := h
  simp only [validatePack, bind_ok_iff] at h
  obtain ⟨manifest, hmanifest, ⟨windowStart, windowEnd⟩, hwindow, ⟨intervals, bar⟩, hintervals,
    entries, hentries, series, hseries, _, -, hash, hhash, _, -, policies, hpolicies, keys, hkeys,
    counts, hcounts, _, hexpected, warmup, hwarmup, h⟩ := h
  have hkeys' := checkSeriesKeys_eq_ok (by simp) hkeys
  rw [List.nil_append] at hkeys'
  have hvalid : ext.schemaValid (txt "pack_manifest") (.obj manifest) = true := by
    simp only [validateManifest, bind_ok_iff, Decoder.decode_eq_ok, object_eq_ok,
      Option.some.injEq, require_eq_ok, pure_eq_ok, Except.ok.injEq] at hmanifest
    obtain ⟨raw, -, value, -, members, rfl, -, hschema, -, -, -, -, rfl⟩ := hmanifest
    exact hschema
  split at h
  · cases h
  · next shortest hshortest =>
    simp only [bind_ok_iff, require_eq_ok] at h
    obtain ⟨_, hactionable, -⟩ := h
    obtain ⟨count, hcount, hn⟩ := List.mem_flatMap.mp (minimumCount_mem hshortest)
    obtain ⟨⟨interval, n⟩, hfiltered, rfl⟩ := List.mem_map.mp hn
    obtain ⟨hmem, heq⟩ := List.mem_filter.mp hfiltered
    obtain rfl : interval = bar := by simpa using heq
    obtain ⟨p, hp, hmarket⟩ := mapM_mem hcounts hcount
    simp only [validateMarket, bind_ok_iff, pure_eq_ok, Except.ok.injEq] at hmarket
    obtain ⟨funding, -, _, -, counts', hcounts', rfl⟩ := hmarket
    obtain ⟨i, -, hi⟩ := mapM_mem hcounts' hmem
    simp only [bind_ok_iff, Except.ok.injEq, Prod.mk.injEq] at hi
    obtain ⟨n', hn', rfl, rfl⟩ := hi
    exact ⟨{
      manifest
      windowStart
      windowEnd
      intervals
      decisionBarMs := i
      entries
      series
      policies
      manifest_read := validateManifest_eq_ok hmanifest
      window := hwindow
      intervals_read := hintervals
      entries_read := hentries
      series_read := hseries
      policies_read := hpolicies
      keys_nodup := hkeys'.1 ▸ hkeys'.2
      markets := fun p hp => by
        obtain ⟨count, -, hcount⟩ := mapM_mem_of_mem hcounts hp
        exact ⟨count, hcount⟩
      manifest_valid := hvalid
      keys_expected := fun s hs => (require_eq_ok.mp hexpected) _
        (hkeys'.1 ▸ List.mem_map_of_mem hs)
      hash_text := ⟨hash, string_eq_ok.mp hhash⟩
      actionable := ⟨warmup, integer_eq_ok.mp hwarmup, p, hp, _, hn', hactionable⟩ }⟩

/-- The files of the manifest, as objects. -/
theorem Validated.files_eq (v : Validated ext sha limits directory) :
    Json.lookup (txt "files") v.manifest = some (.arr (v.entries.map .obj)) := by
  have hentries := v.entries_read
  simp only [manifestEntries, bind_ok_iff, array_eq_ok, require_eq_ok, pure_eq_ok,
    Except.ok.injEq] at hentries
  obtain ⟨raw, hraw, entries, hobjects, paths, -, -, -, -, -, heq⟩ := hentries
  have hmap : raw = entries.map .obj := by
    refine List.ext_getElem? fun i => ?_
    rw [List.getElem?_map]
    cases hi : entries[i]? with
    | none =>
      have := List.getElem?_eq_none_iff.mp hi
      rw [mapM_zipIdx_length hobjects] at this
      exact List.getElem?_eq_none_iff.mpr this
    | some entry =>
      obtain ⟨value, hvalue, hread⟩ := mapM_zipIdx_getElem? hobjects hi
      rw [hvalue, Option.map_some, object_eq_ok.mp hread]
  rw [hraw, hmap, heq]

/-! ## Files are selected -/

/-- The market and the role a series is selected for, if it is a decision series. -/
def selection (decisionBarMs : ℤ) (key : SeriesKey) : Option (Text × SeriesRole) :=
  (SeriesRole.ofText key.role).bind fun role =>
    if key.intervalMs = (if role = .funding then 0 else decisionBarMs) then some (key.market, role)
    else none

/-- A series as it is read. -/
def seriesFile (directory : Directory) (path : Text) : SeriesFile :=
  ⟨path, baseName path, match directory path with | .file raw => raw | _ => []⟩

/-- What the loader selects of a series. -/
def selectedOf (directory : Directory) (decisionBarMs : ℤ) (series : Series) :
    Option ((Text × SeriesRole) × SeriesFile) :=
  (selection decisionBarMs series.key).map fun key => (key, seriesFile directory series.path)

theorem ofText_wire (role : SeriesRole) : SeriesRole.ofText role.wire = some role := by
  cases role <;> simp [SeriesRole.ofText, SeriesRole.wire]

theorem selection_eq_some {decisionBarMs : ℤ} {key : SeriesKey} {market : Text}
    {role : SeriesRole} : selection decisionBarMs key = some (market, role) ↔
      key = ⟨market, role.wire, if role = .funding then 0 else decisionBarMs⟩ := by
  obtain ⟨m, r, i⟩ := key
  simp only [selection, Option.bind_eq_some_iff, Option.ite_none_right_eq_some, Option.some.injEq,
    Prod.mk.injEq, SeriesKey.mk.injEq]
  constructor
  · rintro ⟨role', hof, hi, rfl, rfl⟩
    exact ⟨rfl, ofText_eq_some hof, hi⟩
  · rintro ⟨rfl, rfl, hi⟩
    exact ⟨role, ofText_wire role, hi, rfl, rfl⟩

/-- No two decision series are selected for the same market and role. -/
theorem selected_nodup {decisionBarMs : ℤ} {series : List Series}
    (h : (series.map Series.key).Nodup) :
    ((series.filterMap (selectedOf directory decisionBarMs)).map Prod.fst).Nodup := by
  have heq : (series.filterMap (selectedOf directory decisionBarMs)).map Prod.fst =
      (series.map Series.key).filterMap (selection decisionBarMs) := by
    rw [List.map_filterMap, List.filterMap_map]
    congr 1
    funext s
    simp [selectedOf, Function.comp_def]
  rw [heq]
  refine h.filterMap fun key key' target h h' => ?_
  obtain ⟨market, role⟩ := target
  exact (selection_eq_some.mp h).trans (selection_eq_some.mp h').symm

theorem asIntMin_int {n minimum : ℤ} {field : String} (h : minimum ≤ n) :
    asIntMin (some (.int n)) field minimum = .ok ⟨n, h⟩ := by
  rw [asIntMin, asInt, ok_bind, check_pos h]
  rfl

theorem readDeclaredFile_returns {entry : List (Text × Json)} {series : Series}
    {verifyIntegrity : Bool} (hof : SeriesOf ext limits directory entry series)
    (hdeclares : Declares sha directory entry series) :
    readDeclaredFile sha directory verifyIntegrity entry =
      .ok (seriesFile directory series.path) := by
  obtain ⟨raw, hraw, hbytes, hsha, hrecords, -⟩ := hdeclares.file
  obtain ⟨raw', hraw', hsplit, -⟩ := hof.file
  obtain rfl : raw = raw' := by simpa [hraw] using hraw'
  have hfile : seriesFile directory series.path = ⟨series.path, baseName series.path, raw⟩ := by
    rw [seriesFile, hraw]
  have hread : readFile directory series.path = .ok (baseName series.path, raw) := by
    rw [readFile, hraw]
  have count : ∀ (n : ℕ) field, asIntMin (some (.int n)) field 0 = .ok ⟨(n : ℤ), by omega⟩ :=
    fun n _ => asIntMin_int (Int.natCast_nonneg n)
  rw [readDeclaredFile, hof.path, asStr, ok_bind, hread, hfile]
  simp only [ok_bind, hbytes, hsha, hrecords, count, asStr, hsplit]
  rw [require_pos trivial, ok_bind, require_pos trivial, ok_bind, require_pos trivial, ok_bind]
  split <;> rfl

/-- What a key that is expected looks like. -/
theorem mem_expectedKeys {markets : List Text} {intervals : List ℤ} {key : SeriesKey}
    (h : key ∈ expectedKeys markets intervals) : key.market ∈ markets ∧ ∃ role : SeriesRole,
      key.role = role.wire ∧
      ((role = .funding ∧ key.intervalMs = 0) ∨ (role ≠ .funding ∧ key.intervalMs ∈ intervals)) := by
  rcases List.mem_append.mp h with h | h
  · obtain ⟨m, hm, h⟩ := List.mem_flatMap.mp h
    obtain ⟨i, hi, h⟩ := List.mem_flatMap.mp h
    simp only [List.mem_cons, List.not_mem_nil, or_false] at h
    rcases h with rfl | rfl | rfl
    · exact ⟨hm, .trade, rfl, .inr ⟨by decide, hi⟩⟩
    · exact ⟨hm, .mark, rfl, .inr ⟨by decide, hi⟩⟩
    · exact ⟨hm, .index, rfl, .inr ⟨by decide, hi⟩⟩
  · obtain ⟨m, hm, rfl⟩ := List.mem_map.mp h
    exact ⟨hm, .funding, rfl, .inl ⟨rfl, rfl⟩⟩

theorem wire_eq_funding {role : SeriesRole} : role.wire = txt "funding" ↔ role = .funding := by
  cases role <;> simp [SeriesRole.wire]

variable {verifyIntegrity : Bool}

/-- One entry is selected, or skipped, as its key says. -/
theorem selectFile_returns {aliases : List Text} {intervals : List ℤ} {decisionBarMs : ℤ}
    {selected : Selected} {entry : List (Text × Json)} {series : Series}
    (hof : SeriesOf ext limits directory entry series)
    (hdeclares : Declares sha directory entry series)
    (hkey : series.key ∈ expectedKeys aliases intervals) (hintervals : ∀ i ∈ intervals, 0 ≤ i)
    (hfresh : ∀ s ∈ selectedOf directory decisionBarMs series, s.1 ∉ selected.map Prod.fst) :
    selectFile sha directory verifyIntegrity aliases decisionBarMs selected (.obj entry) =
      .ok (selected ++ (selectedOf directory decisionBarMs series).toList) := by
  obtain ⟨hmarket, role, hrole, hinterval⟩ := mem_expectedKeys hkey
  simp only [Series.key] at hmarket hrole hinterval
  have hnonneg : 0 ≤ series.intervalMs := by
    rcases hinterval with ⟨-, h⟩ | ⟨-, h⟩
    · omega
    · exact hintervals _ h
  have hschema : txt (if series.role = txt "funding" then "funding_row/v1" else "bar_row/v1") =
      txt role.rowSchema := by
    rw [hrole]
    cases role <;> simp [SeriesRole.wire, SeriesRole.rowSchema]
  have hint : ∀ field, asIntMin (some (.int series.intervalMs)) field 0 =
      .ok ⟨series.intervalMs, hnonneg⟩ := fun _ => asIntMin_int hnonneg
  have hof' : SeriesRole.ofText series.role = some role := by rw [hrole, ofText_wire]
  unfold selectFile
  simp only [asObject, ok_bind, hof.market, asStr, hof.role, hdeclares.rowSchema, hof.interval, hint,
    hof', hschema]
  rw [require_pos hmarket, ok_bind, require_pos trivial, ok_bind]
  by_cases hskip : role ≠ .funding ∧ series.intervalMs ≠ decisionBarMs
  · have hnone : selectedOf directory decisionBarMs series = none := by
      simp [selectedOf, selection, Series.key, hof', hskip.1, hskip.2]
    rw [if_pos hskip, hnone, Option.toList_none, List.append_nil]
    rfl
  · have hselection : selection decisionBarMs series.key = some (series.market, role) := by
      rw [selection_eq_some]
      simp only [Series.key, hrole, SeriesKey.mk.injEq, true_and]
      rcases hinterval with ⟨rfl, h⟩ | ⟨h, -⟩
      · rw [if_pos rfl, h]
      · rw [if_neg h]
        exact not_not.mp fun hne => hskip ⟨h, hne⟩
    have hsome : selectedOf directory decisionBarMs series =
        some ((series.market, role), seriesFile directory series.path) := by
      rw [selectedOf, hselection]
      rfl
    have hzero : ¬ (role = .funding ∧ series.intervalMs ≠ 0) := by
      rintro ⟨rfl, hne⟩
      rcases hinterval with ⟨-, h⟩ | ⟨h, -⟩
      · exact hne h
      · exact h rfl
    have hnew := hfresh _ hsome
    rw [if_neg hskip, require_pos hzero, ok_bind, require_pos hnew, ok_bind,
      readDeclaredFile_returns hof hdeclares, hsome]
    rfl

/-- All entries are selected as their keys say. -/
theorem selectFiles_return {aliases : List Text} {intervals : List ℤ} {decisionBarMs : ℤ}
    {entries : List (List (Text × Json))} {series : List Series}
    (hread : List.Forall₂ (fun entry s => SeriesOf ext limits directory entry s ∧
      Declares sha directory entry s ∧ s.key ∈ expectedKeys aliases intervals) entries series)
    (hintervals : ∀ i ∈ intervals, 0 ≤ i) {selected : Selected}
    (hnodup : ((selected ++ series.filterMap (selectedOf directory decisionBarMs)).map
      Prod.fst).Nodup) :
    (entries.map Json.obj).foldlM
        (selectFile sha directory verifyIntegrity aliases decisionBarMs) selected =
      .ok (selected ++ series.filterMap (selectedOf directory decisionBarMs)) := by
  induction hread generalizing selected with
  | nil => simp [pure_eq_ok]
  | @cons entry s entries series h hrest ih =>
    obtain ⟨hof, hdeclares, hkey⟩ := h
    have hsplit : selected ++ (s :: series).filterMap (selectedOf directory decisionBarMs) =
        (selected ++ (selectedOf directory decisionBarMs s).toList) ++
          series.filterMap (selectedOf directory decisionBarMs) := by
      rw [List.filterMap_cons]
      cases selectedOf directory decisionBarMs s <;> simp
    rw [hsplit] at hnodup ⊢
    have hfresh : ∀ t ∈ selectedOf directory decisionBarMs s, t.1 ∉ selected.map Prod.fst := by
      intro t ht hmem
      rw [Option.mem_def.mp ht, List.map_append, List.map_append, List.append_assoc,
        List.nodup_append] at hnodup
      exact hnodup.2.2 _ hmem t.1 (by simp) rfl
    rw [List.map_cons, List.foldlM_cons, selectFile_returns hof hdeclares hkey hintervals hfresh,
      ok_bind]
    exact ih hnodup

/-! ## Markets are loaded -/

theorem selectedFile_eq_some {selected : Selected} (h : (selected.map Prod.fst).Nodup)
    {name : Text} {role : SeriesRole} {file : SeriesFile} (hmem : ((name, role), file) ∈ selected) :
    selectedFile selected name role = some file := by
  have found : (selected.find? fun s => s.1 = (name, role)).isSome :=
    List.find?_isSome.mpr ⟨_, hmem, by simp⟩
  obtain ⟨s, hfind⟩ := Option.isSome_iff_exists.mp found
  have hkey : s.1 = (name, role) := by simpa using List.find?_some hfind
  have hs := List.mem_of_find?_eq_some hfind
  obtain rfl := List.inj_on_of_nodup_map h hs hmem hkey
  rw [selectedFile, hfind]
  rfl

theorem loadRows_returns {α : Type} {source : String} {read : ℕ → Bytes → Py α} {raw : Bytes}
    (hlines : ∀ line ∈ splitLines raw, line ≠ [])
    (hread : ∀ line ∈ splitLines raw, ∀ i, Returns (read i line)) :
    Returns (loadRows source read raw) := by
  refine Returns.bind (returns_require hlines) fun _ _ => returns_mapM fun line hline => ?_
  exact hread _ (List.fst_mem_of_mem_zipIdx hline) _

theorem strictlyIncreasing_of_isChain {values : List ℤ} (h : values.IsChain (· < ·)) :
    strictlyIncreasing values = true := by
  induction h with
  | nil => rfl
  | singleton => rfl
  | cons_cons hab _ ih => simp [strictlyIncreasing, hab, ih]

theorem strictTimestampOrder_isChain {series : Series} {timestamps : List ℤ}
    (h : strictTimestampOrder series = .ok timestamps) : timestamps.IsChain (· < ·) := by
  simp only [strictTimestampOrder, bind_ok_iff, require_eq_ok, pure_eq_ok, Except.ok.injEq] at h
  obtain ⟨_, -, -, -, -, hchain, rfl⟩ := h
  exact hchain

theorem validateBarRows_isChain {series : Series} {timestamps : List ℤ}
    (h : validateBarRows series = .ok timestamps) : timestamps.IsChain (· < ·) := by
  simp only [validateBarRows, bind_ok_iff, pure_eq_ok, Except.ok.injEq] at h
  obtain ⟨_, horder, _, -, rfl⟩ := h
  exact strictTimestampOrder_isChain horder

theorem validateFundingRows_isChain {series : Series} {policy : FundingPolicy}
    {windowStart windowEnd : ℤ} {timestamps : List ℤ}
    (h : validateFundingRows series policy windowStart windowEnd = .ok timestamps) :
    timestamps.IsChain (· < ·) := by
  simp only [validateFundingRows, bind_ok_iff, pure_eq_ok, Except.ok.injEq, require_eq_ok] at h
  obtain ⟨_, horder, _, -, -, -, -, -, rfl⟩ := h
  exact strictTimestampOrder_isChain horder

/-- The typed settlements stand where the validated ones do. -/
theorem validFunding_ts {series : Series} {policy : FundingPolicy} {windowStart windowEnd : ℤ}
    {timestamps : List ℤ} {funding : List FundingRow}
    (hvalid : validateFundingRows series policy windowStart windowEnd = .ok timestamps)
    (htyped : List.Forall₂ IsFunding series.rows funding) :
    funding.map FundingRow.ts = timestamps := by
  obtain ⟨-, hlength, hrows⟩ := validateFundingRows_eq_ok hvalid
  refine List.ext_getElem? fun i => ?_
  rw [List.getElem?_map]
  rcases h : funding[i]? with _ | row
  · have := List.getElem?_eq_none_iff.mp h
    rw [Option.map_none, eq_comm, List.getElem?_eq_none_iff, hlength, htyped.length_eq]
    exact this
  · obtain ⟨hi, rfl⟩ := List.getElem?_eq_some_iff.mp h
    have hi' : i < series.rows.length := htyped.length_eq ▸ hi
    obtain ⟨ts, rate, hts, hint, -⟩ := hrows i _ (List.getElem?_eq_getElem hi')
    have hrow : IsFunding series.rows[i] funding[i] := (List.forall₂_iff_get.mp htyped).2 i hi' hi
    rw [Option.map_some, hts, HasInt.unique hrow.ts hint]

section Series

variable {entry : List (Text × Json)} {series : Series}
  (hof : SeriesOf ext limits directory entry series)
  (hdeclares : Declares sha directory entry series)

include hof hdeclares

/-- The lines of a validated series: none is blank, and each is a record that follows its schema. -/
theorem seriesFile_lines : ∀ line ∈ splitLines (seriesFile directory series.path).raw, line ≠ [] ∧
    ∃ row, strictJson limits line = some (.obj row) ∧ ext.schemaValid
      (if series.role = txt "funding" then txt "funding_row" else txt "bar_row") (.obj row) = true := by
  obtain ⟨raw, hraw, hsplit, hrows⟩ := hof.file
  obtain ⟨raw', hraw', -, -, -, hlines⟩ := hdeclares.file
  obtain rfl : raw = raw' := by simpa [hraw] using hraw'
  intro line hline
  rw [seriesFile, hraw, hsplit] at hline
  refine ⟨hlines line hline, ?_⟩
  obtain ⟨i, hi, rfl⟩ := List.mem_iff_getElem.mp hline
  have hi' : i < series.rows.length := hrows.length_eq ▸ hi
  exact ⟨series.rows[i], (List.forall₂_iff_get.mp hrows).2 i hi hi'⟩

variable (hext : SchemaLawful ext)

include hext

theorem bars_return (hrole : series.role ≠ txt "funding") {timestamps : List ℤ}
    (hvalid : validateBarRows series = .ok timestamps) (source : String) (fileName market : Text)
    (role : SeriesRole) : ∃ bars, loadRows source (barRow limits source fileName market role)
      (seriesFile directory series.path).raw = .ok bars ∧ bars.map BarRow.ts = timestamps := by
  have lines := seriesFile_lines hof hdeclares
  have hload : Returns (loadRows source (barRow limits source fileName market role)
      (seriesFile directory series.path).raw) := by
    refine loadRows_returns (fun line hline => (lines line hline).1) fun line hline i => ?_
    obtain ⟨-, row, hrow, hschema⟩ := lines line hline
    rw [if_neg hrole] at hschema
    exact barRow_returns hrow (hext ("bar_row", BAR_ROW) (by simp [packSchemas]) _ hschema)
  obtain ⟨bars, hbars⟩ := hload
  have htyped := loaded_of_series (P := IsBar) (fun _ _ _ h => barRow_eq_ok h) hof
    (@readDeclaredFile_returns _ _ _ _ _ _ false hof hdeclares) hbars
  exact ⟨bars, hbars, (validBars_typed hvalid htyped).1⟩

theorem settlements_return (hrole : series.role = txt "funding") {policy : FundingPolicy}
    {windowStart windowEnd : ℤ} {timestamps : List ℤ}
    (hvalid : validateFundingRows series policy windowStart windowEnd = .ok timestamps)
    (source : String) (fileName market : Text) :
    ∃ settlements, loadRows source (fundingRow limits source fileName market)
      (seriesFile directory series.path).raw = .ok settlements ∧
      settlements.map FundingRow.ts = timestamps := by
  have lines := seriesFile_lines hof hdeclares
  have hload : Returns (loadRows source (fundingRow limits source fileName market)
      (seriesFile directory series.path).raw) := by
    refine loadRows_returns (fun line hline => (lines line hline).1) fun line hline i => ?_
    obtain ⟨-, row, hrow, hschema⟩ := lines line hline
    rw [if_pos hrole] at hschema
    exact fundingRow_returns hrow
      (hext ("funding_row", FUNDING_ROW) (by simp [packSchemas]) _ hschema)
  obtain ⟨settlements, hsettlements⟩ := hload
  have htyped := loaded_of_series (P := IsFunding) (fun _ _ _ h => fundingRow_eq_ok h) hof
    (@readDeclaredFile_returns _ _ _ _ _ _ false hof hdeclares) hsettlements
  exact ⟨settlements, hsettlements, validFunding_ts hvalid htyped⟩

end Series

/-- The decision series of a validated pack, as they are selected. -/
abbrev Checked.selected (c : Checked ext sha limits directory) : Selected :=
  c.series.filterMap (selectedOf directory c.decisionBarMs)

theorem Checked.requiredFile_eq (c : Checked ext sha limits directory) {series : Series}
    (hseries : series ∈ c.series) {name : Text} {role : SeriesRole}
    (hkey : series.key = ⟨name, role.wire, if role = .funding then 0 else c.decisionBarMs⟩) :
    requiredFile c.selected name role = .ok (seriesFile directory series.path) := by
  have hmem : ((name, role), seriesFile directory series.path) ∈ c.selected := by
    refine List.mem_filterMap.mpr ⟨series, hseries, ?_⟩
    rw [selectedOf, selection_eq_some.mpr hkey]
    rfl
  rw [requiredFile, selectedFile_eq_some (selected_nodup c.keys_nodup) hmem]

theorem Checked.entry (c : Checked ext sha limits directory) {series : Series}
    (hseries : series ∈ c.series) : ∃ entry, SeriesOf ext limits directory entry series ∧
      Declares sha directory entry series := by
  obtain ⟨entry, -, hread⟩ := mapM_mem c.series_read hseries
  exact ⟨entry, readSeries_eq_ok hread, readSeries_declares hread⟩

/-- **Markets.** A validated market is loaded, and its settlements stand on its clock. -/
theorem Checked.loadMarket_returns (c : Checked ext sha limits directory) (hext : SchemaLawful ext)
    {policy : Text × FundingPolicy} (hpolicy : policy ∈ c.policies) (spec : MarketSpec) :
    ∃ market, loadMarket limits c.selected policy.1 spec = .ok (policy.1, market) ∧
      market.spec = spec ∧ market.funding.map FundingRow.ts =
        expectedFundingTimestamps c.windowStart c.windowEnd policy.2.settlementOffsetsMs := by
  obtain ⟨count, hmarket⟩ := c.markets _ hpolicy
  simp only [validateMarket, bind_ok_iff] at hmarket
  obtain ⟨fundingSeries, hfs, fundingTs, hfundingValid, counts, hcounts, -⟩ := hmarket
  have hbar : c.decisionBarMs ∈ c.intervals := by
    have h := c.intervals_read
    simp only [manifestIntervals, bind_ok_iff, require_eq_ok, pure_eq_ok, Except.ok.injEq,
      Prod.mk.injEq] at h
    obtain ⟨_, -, _, -, _, -, _, -, _, hmem, rfl, rfl⟩ := h
    exact hmem
  obtain ⟨_, -, hinterval⟩ := mapM_mem_of_mem hcounts hbar
  obtain ⟨n, hn, -⟩ := bind_ok_iff.mp hinterval
  simp only [validateInterval, bind_ok_iff] at hn
  obtain ⟨trade, ht, mark, hm, index, hx, indexTs, hindexValid, markTs, hmarkValid, tradeTs,
    htradeValid, _, hgrid, -⟩ := hn
  simp only [validateBarGrid, bind_ok_iff, require_eq_ok] at hgrid
  obtain ⟨-, ⟨hmarkTs, hindexTs⟩, -⟩ := hgrid
  obtain ⟨hfsMem, hfsKey⟩ := requiredSeries_eq_ok hfs
  obtain ⟨htMem, htKey⟩ := requiredSeries_eq_ok ht
  obtain ⟨hmMem, hmKey⟩ := requiredSeries_eq_ok hm
  obtain ⟨hxMem, hxKey⟩ := requiredSeries_eq_ok hx
  obtain ⟨_, hfsOf, hfsDeclares⟩ := c.entry hfsMem
  obtain ⟨_, htOf, htDeclares⟩ := c.entry htMem
  obtain ⟨_, hmOf, hmDeclares⟩ := c.entry hmMem
  obtain ⟨_, hxOf, hxDeclares⟩ := c.entry hxMem
  have role_of : ∀ {s : Series} {role : String} {i : ℤ}, s.key = ⟨policy.1, txt role, i⟩ →
      s.role = txt role := fun h => by simpa [Series.key] using congrArg SeriesKey.role h
  have price : ∀ {s : Series} {role : String} {i : ℤ}, role ≠ "funding" →
      s.key = ⟨policy.1, txt role, i⟩ → s.role ≠ txt "funding" := fun hne hkey h =>
    hne (txt_injective ((role_of hkey).symm.trans h))
  let file (s : Series) := seriesFile directory s.path
  obtain ⟨funding, hfunding, hfundingTs⟩ := settlements_return hfsOf hfsDeclares hext
    (role_of hfsKey) hfundingValid (Text.show (file fundingSeries).path) (file fundingSeries).name
    policy.1
  obtain ⟨indexRows, hindex, hindexRowsTs⟩ := bars_return hxOf hxDeclares hext
    (price (by decide) hxKey) hindexValid (Text.show (file index).path) (file index).name policy.1 .index
  obtain ⟨markRows, hmark, hmarkRowsTs⟩ := bars_return hmOf hmDeclares hext
    (price (by decide) hmKey) hmarkValid (Text.show (file mark).path) (file mark).name policy.1 .mark
  obtain ⟨tradeRows, htrade, htradeRowsTs⟩ := bars_return htOf htDeclares hext
    (price (by decide) htKey) htradeValid (Text.show (file trade).path) (file trade).name policy.1 .trade
  have hmarks : markRows.map BarRow.ts = tradeRows.map BarRow.ts := by
    rw [hmarkRowsTs, htradeRowsTs, hmarkTs]
  have hindices : indexRows.map BarRow.ts = tradeRows.map BarRow.ts := by
    rw [hindexRowsTs, htradeRowsTs, hindexTs]
  have hlengths : tradeRows.length = markRows.length ∧ markRows.length = indexRows.length := by
    have hm := congrArg List.length hmarks
    have hx := congrArg List.length hindices
    simp only [List.length_map] at hm hx
    omega
  have htradeInc : strictlyIncreasing (tradeRows.map BarRow.ts) = true := by
    rw [htradeRowsTs]
    exact strictlyIncreasing_of_isChain (validateBarRows_isChain htradeValid)
  have hfundingInc : strictlyIncreasing (funding.map FundingRow.ts) = true := by
    rw [hfundingTs]
    exact strictlyIncreasing_of_isChain (validateFundingRows_isChain hfundingValid)
  refine ⟨⟨spec, tradeRows, markRows, indexRows, funding, hmarks, hindices,
    strictlyIncreasing_pairwise htradeInc, strictlyIncreasing_pairwise hfundingInc⟩, ?_, rfl, ?_⟩
  · unfold loadMarket
    rw [@Checked.requiredFile_eq _ _ _ _ c _ hfsMem policy.1 .funding hfsKey, ok_bind,
      @Checked.requiredFile_eq _ _ _ _ c _ hxMem policy.1 .index hxKey, ok_bind,
      @Checked.requiredFile_eq _ _ _ _ c _ hmMem policy.1 .mark hmKey, ok_bind,
      @Checked.requiredFile_eq _ _ _ _ c _ htMem policy.1 .trade htKey, ok_bind]
    simp only [file] at hfunding hindex hmark htrade
    simp only [hfunding, hindex, hmark, htrade, ok_bind, require_pos hlengths, check_pos hmarks,
      check_pos hindices, check_pos htradeInc, check_pos hfundingInc]
    rfl
  · rw [hfundingTs]
    exact (validateFundingRows_eq_ok hfundingValid).1

/-! ## The pack is loaded -/

theorem Checked.valid (c : Checked ext sha limits directory) (hext : SchemaLawful ext) :
    Schema.Valid packDefs PACK_MANIFEST (.obj c.manifest) :=
  hext ("pack_manifest", PACK_MANIFEST) (by simp [packSchemas]) _ c.manifest_valid

theorem barInterval_pos {n : ℤ} (h : Schema.Valid packDefs BAR_INTERVAL (.int n)) : 1 ≤ n := by
  simp only [BAR_INTERVAL, Schema.valid_enum, List.mem_cons, Json.int.injEq, List.not_mem_nil,
    or_false] at h
  omega

theorem Checked.decisionBar (c : Checked ext sha limits directory) (hext : SchemaLawful ext) :
    HasInt c.manifest "decision_bar_ms" c.decisionBarMs ∧ 1 ≤ c.decisionBarMs := by
  have h := c.intervals_read
  simp only [manifestIntervals, bind_ok_iff, integer_eq_ok, require_eq_ok, pure_eq_ok,
    Except.ok.injEq, Prod.mk.injEq] at h
  obtain ⟨_, -, _, -, _, -, bar, hbar, _, -, rfl, rfl⟩ := h
  obtain ⟨w, hw, hvalid⟩ := member_of_closed (c.valid hext) "decision_bar_ms" (s := BAR_INTERVAL)
    (by simp) (by simp [ofMember_txt_cons])
  obtain rfl : w = .int c.decisionBarMs := by simpa [hbar] using hw.symm
  exact ⟨hbar, barInterval_pos hvalid⟩

theorem Checked.intervals_nonneg (c : Checked ext sha limits directory) (hext : SchemaLawful ext) :
    ∀ i ∈ c.intervals, 0 ≤ i := by
  have h := c.intervals_read
  simp only [manifestIntervals, bind_ok_iff, array_eq_ok, integer_eq_ok, require_eq_ok, pure_eq_ok,
    Except.ok.injEq, Prod.mk.injEq] at h
  obtain ⟨raw, hraw, intervals, hintervals, _, -, _, -, _, -, rfl, -⟩ := h
  obtain ⟨w, hw, hvalid⟩ := member_of_closed (c.valid hext) "bar_intervals_ms"
    (s := .array 1 BAR_INTERVAL) (by simp) (by simp [ofMember_txt_cons])
  obtain rfl : w = .arr raw := by simpa [hraw] using hw.symm
  obtain ⟨items, hitems, -, hvalid⟩ := Schema.valid_array.mp hvalid
  obtain rfl := Json.arr.inj hitems
  intro i hi
  obtain ⟨⟨value, index⟩, hvalue, hread⟩ := mapM_mem hintervals hi
  have hinterval := hvalid _ (List.fst_mem_of_mem_zipIdx hvalue)
  obtain rfl : value = .int i := by simpa using integer_eq_ok.mp hread
  have := barInterval_pos hinterval
  omega

/-- The manifest names at least one market, and each of them follows the schema of a descriptor. -/
theorem Checked.objects (c : Checked ext sha limits directory) (hext : SchemaLawful ext) :
    ∃ objects, Json.lookup (txt "markets") c.manifest = some (.obj objects) ∧ objects ≠ [] ∧
      ∀ item ∈ objects, Schema.Valid packDefs MARKET_DESCRIPTOR item.2 := by
  obtain ⟨w, hw, hvalid⟩ := member_of_closed (c.valid hext) "markets"
    (s := .all [.propertyCount 1 none, .propertyNames fun t => isMarketAlias t ||
      (t.getLast? = some (codePoint 0x0A) && isMarketAlias t.dropLast),
      mapOf (.ref "market_descriptor")]) (by simp) (by simp [ofMember_txt_cons])
  simp only [Schema.valid_all, List.mem_cons, List.not_mem_nil, or_false, forall_eq_or_imp,
    forall_eq] at hvalid
  obtain ⟨hcount, -, hdescriptors⟩ := hvalid
  obtain ⟨objects, rfl, hleast, -⟩ := Schema.valid_propertyCount.mp hcount
  exact ⟨objects, hw, fun h => by simp [h] at hleast, fun item hitem =>
    Schema.valid_ref.mp (Schema.valid_additional_iff.mp hdescriptors item hitem)⟩

/-- Every market the manifest declares is loaded with the policy that was validated for it. -/
theorem Checked.declared (c : Checked ext sha limits directory) (hext : SchemaLawful ext) :
    ∃ specs, declaredMarkets c.manifest = .ok specs ∧ specs ≠ [] ∧
      specs.map Prod.fst = c.policies.map Prod.fst := by
  obtain ⟨objects, hw, hne, hdescriptors⟩ := c.objects hext
  have hreturns : Returns ((sortedItems objects).mapM declaredMarket) := by
    refine returns_mapM fun item hitem => ?_
    have hmem : item ∈ objects := (List.mem_insertionSort _).mp hitem
    have hmarket := hdescriptors item hmem
    obtain ⟨name, value⟩ := item
    obtain ⟨members, rfl, -⟩ := Schema.valid_object.mp hmarket
    exact (marketSpec_returns hmarket).bind fun _ _ => ⟨_, rfl⟩
  obtain ⟨specs, hspecs⟩ := hreturns
  have hnames : specs.map Prod.fst = (sortedItems objects).map Prod.fst := by
    refine map_eq_of_mapM hspecs fun item _ spec h => ?_
    simp only [declaredMarket, bind_ok_iff, pure_eq_ok, Except.ok.injEq] at h
    obtain ⟨_, -, _, -, rfl⟩ := h
    rfl
  refine ⟨specs, ?_, ?_, ?_⟩
  · rw [declaredMarkets, hw, asObject, ok_bind, require_pos hne, ok_bind, hspecs]
  · rintro rfl
    have := mapM_length hspecs
    simp only [List.length_nil, sortedItems, List.length_insertionSort] at this
    exact hne (List.length_eq_zero_iff.mp this.symm)
  · have hpolicies := c.policies_read
    simp only [manifestPolicies, bind_ok_iff, object_eq_ok] at hpolicies
    obtain ⟨objects', hobjects', markets, hmarkets, venue, -, hpolicies⟩ := hpolicies
    obtain rfl : objects = objects' := by simpa using hw.symm.trans hobjects'
    rw [hnames]
    have hmarket : markets.map Prod.fst = (sortedItems objects).map Prod.fst := by
      refine map_eq_of_mapM hmarkets fun _ _ _ h => ?_
      simp only [bind_ok_iff, pure_eq_ok, Except.ok.injEq] at h
      obtain ⟨_, -, rfl⟩ := h
      rfl
    have hpolicy : c.policies.map Prod.fst = markets.map Prod.fst := by
      refine map_eq_of_mapM hpolicies fun _ _ _ h => ?_
      simp only [bind_ok_iff, pure_eq_ok, Except.ok.injEq] at h
      obtain ⟨_, -, rfl⟩ := h
      rfl
    rw [hpolicy, hmarket]

/-- All decision series of the pack are selected, and nothing else. -/
theorem Checked.selectFiles_eq (c : Checked ext sha limits directory) (hext : SchemaLawful ext) :
    (c.entries.map Json.obj).foldlM (selectFile sha directory verifyIntegrity
      (c.policies.map Prod.fst) c.decisionBarMs) [] = .ok c.selected := by
  have hread : List.Forall₂ (fun entry s => SeriesOf ext limits directory entry s ∧
      Declares sha directory entry s ∧ s.key ∈ expectedKeys (c.policies.map Prod.fst) c.intervals)
      c.entries c.series := by
    refine List.forall₂_iff_get.mpr ⟨(mapM_eq_ok.mp c.series_read).length_eq, fun i hi hi' => ?_⟩
    have hread := (List.forall₂_iff_get.mp (mapM_eq_ok.mp c.series_read)).2 i hi hi'
    exact ⟨readSeries_eq_ok hread, readSeries_declares hread, c.keys_expected _ (List.get_mem _ _)⟩
  have h := @selectFiles_return ext sha limits directory verifyIntegrity _ _ c.decisionBarMs _ _
    hread (c.intervals_nonneg hext) [] (selected_nodup c.keys_nodup)
  rwa [List.nil_append] at h

theorem Checked.assemblePack_returns (c : Checked ext sha limits directory)
    (hext : SchemaLawful ext) (bar : {n : ℤ // 1 ≤ n}) (markets : List (Text × MarketData))
    (hmarkets : markets ≠ []) : Returns (assemblePack c.manifest bar markets hmarkets) := by
  have h := c.valid hext
  obtain ⟨window, hwindow, hw⟩ := object_of_closed h "window" (s := WINDOW) (by simp)
    (by simp [ofMember_txt_cons]) ⟨_, _, _, rfl⟩
  obtain ⟨defaults, hdefaults, hd⟩ := object_of_closed h "default_lookback" (s := DEFAULT_LOOKBACK)
    (by simp) (by simp [ofMember_txt_cons]) ⟨_, _, _, rfl⟩
  have hordered := c.window
  simp only [manifestWindow, bind_ok_iff, object_eq_ok, integer_eq_ok, require_eq_ok, pure_eq_ok,
    Except.ok.injEq, Prod.mk.injEq] at hordered
  obtain ⟨window', hwindow', start, hstart, stop, hstop, -, hlt, -, -⟩ := hordered
  obtain rfl : window = window' := by simpa using hwindow.symm.trans hwindow'
  unfold assemblePack
  rw [hwindow, asObject, ok_bind, hdefaults, asObject, ok_bind]
  refine (returns_intMin hw "start_ts" 0 (by simp) (by simp [ofMember_txt_cons])).bind
    fun start' hstart' => ?_
  refine (returns_intMin hw "end_ts" 0 (by simp) (by simp [ofMember_txt_cons])).bind
    fun stop' hstop' => ?_
  have hlt' : start'.1 < stop'.1 := by
    rw [HasInt.unique (asIntMin_eq_ok hstart') hstart, HasInt.unique (asIntMin_eq_ok hstop') hstop]
    exact hlt
  refine Returns.bind ⟨_, check_pos hlt'⟩ fun _ _ => ?_
  refine (returns_str h "pack_id" (by simp) (by simp [ofMember_txt_cons]; rfl)).bind fun _ _ => ?_
  refine (returns_str h "content_hash" (by simp) (by simp [ofMember_txt_cons]; rfl)).bind
    fun _ _ => ?_
  refine (returns_intMin h "warmup_bars" 0 (by simp) (by simp [ofMember_txt_cons])).bind
    fun _ _ => ?_
  refine (returns_intMin hd "bars" 1 (by simp) (by simp [ofMember_txt_cons])).bind fun _ _ => ?_
  exact (returns_intMin hd "funding_prints" 0 (by simp) (by simp [ofMember_txt_cons])).bind
    fun _ _ => ⟨_, rfl⟩

/-- **Loading.** What validation accepts is loaded, whether its hashes are checked again or not. -/
theorem Checked.loadPack_returns (c : Checked ext sha limits directory) (hext : SchemaLawful ext) :
    Returns (loadPack sha limits verifyIntegrity directory) := by
  obtain ⟨raw, hraw, hdecoded⟩ := c.manifest_read
  have hbytes : Core.manifestBytes directory = .ok raw := by
    unfold Core.manifestBytes
    unfold manifestBytes fail at hraw
    split at hraw <;> simp_all
  obtain ⟨schema, hschema, hvalid⟩ := member_of_closed (c.valid hext) "schema"
    (s := .enum [text "pack_manifest/v1"]) (by simp) (by simp [ofMember_txt_cons])
  obtain rfl : schema = text "pack_manifest/v1" := by simpa using hvalid
  obtain ⟨hbar, hpos⟩ := c.decisionBar hext
  obtain ⟨specs, hspecs, hne, hnames⟩ := c.declared hext
  unfold loadPack
  rw [readManifest, hbytes, ok_bind, Decoder.decode_eq_ok.mpr hdecoded, ok_bind, asObject, ok_bind,
    hschema, require_pos (by simp [text]), ok_bind, hbar, asIntMin_int hpos, ok_bind]
  refine Returns.bind ⟨_, hspecs⟩ fun specs' hspecs' => ?_
  obtain rfl := Except.ok.inj (hspecs.symm.trans hspecs')
  rw [c.files_eq, asArray, ok_bind, hnames, c.selectFiles_eq hext, ok_bind]
  have hmarkets : Returns (specs.mapM fun s => loadMarket limits c.selected s.1 s.2) := by
    refine returns_mapM fun s hs => ?_
    obtain ⟨policy, hpolicy, hname⟩ : ∃ p ∈ c.policies, p.1 = s.1 := by
      have : s.1 ∈ c.policies.map Prod.fst := hnames ▸ List.mem_map_of_mem hs
      simpa using this
    obtain ⟨market, hmarket, -⟩ := c.loadMarket_returns hext hpolicy s.2
    exact ⟨_, hname ▸ hmarket⟩
  refine hmarkets.bind fun markets hmarkets => ?_
  have hnonempty : markets ≠ [] := by
    rintro rfl
    exact hne (List.length_eq_zero_iff.mp (mapM_length hmarkets).symm)
  exact Returns.bind ⟨_, check_pos hnonempty⟩ fun _ _ => c.assemblePack_returns hext _ _ _

end Checked

end WagmiBench.Data
