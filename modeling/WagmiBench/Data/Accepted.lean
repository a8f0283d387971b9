import WagmiBench.Core.PackLoader
import WagmiBench.Lib.Window
import WagmiBench.Data.Validator
import WagmiBench.Lib.JsonText

/-!
# Packs that both gates accept

Loading and validation read the same directory by different code. On a directory both accept, the
loaded decision series are the validated ones row by row, so that what validation established about
records holds of the typed rows: the bars stand on the grid of the pack window, each available at
the end of its interval, and each funding row is available when it settles.
-/

namespace WagmiBench.Data

open WagmiBench.Lib WagmiBench.Core WagmiBench.Spec

/-! ## Reads that returned -/

theorem integer_eq_ok {value : Option Json} {field : String} {n : ℤ} :
    integer value field = .ok n ↔ value = some (.int n) := by
  unfold integer fail
  split <;> simp_all

theorem string_eq_ok {value : Option Json} {field : String} {s : Text} :
    string value field = .ok s ↔ value = some (.str s) := by
  unfold string fail
  split <;> simp_all

theorem object_eq_ok {value : Option Json} {field : String} {members : List (Text × Json)} :
    object value field = .ok members ↔ value = some (.obj members) := by
  unfold object fail
  split <;> simp_all

theorem array_eq_ok {value : Option Json} {field : String} {items : List Json} :
    array value field = .ok items ↔ value = some (.arr items) := by
  unfold array fail
  split <;> simp_all

theorem asInt_eq_ok {value : Option Json} {field : String} {n : ℤ} :
    asInt value field = .ok n ↔ value = some (.int n) := by
  unfold asInt
  split <;> simp_all

theorem asIntMin_eq_ok {value : Option Json} {field : String} {minimum : ℤ}
    {n : {n : ℤ // minimum ≤ n}} (h : asIntMin value field minimum = .ok n) :
    value = some (.int n) := by
  simp only [asIntMin, bind_ok_iff, pure_eq_ok, Except.ok.injEq] at h
  obtain ⟨m, hm, _, -, rfl⟩ := h
  exact asInt_eq_ok.mp hm

theorem asStr_eq_ok {value : Option Json} {field : String} {s : Text} :
    asStr value field = .ok s ↔ value = some (.str s) := by
  unfold asStr
  split <;> simp_all

theorem asObject_eq_ok {value : Option Json} {field : String} {members : List (Text × Json)} :
    asObject value field = .ok members ↔ value = some (.obj members) := by
  unfold asObject
  split <;> simp_all

theorem asArray_eq_ok {value : Option Json} {field : String} {items : List Json} :
    asArray value field = .ok items ↔ value = some (.arr items) := by
  unfold asArray
  split <;> simp_all

/-! ## Rows -/

/-- A record has an integer under a name. -/
abbrev HasInt (row : List (Text × Json)) (name : String) (n : ℤ) : Prop :=
  Json.lookup (txt name) row = some (.int n)

/-- A typed bar is read from a record. -/
structure IsBar (row : List (Text × Json)) (bar : BarRow) : Prop where
  ts : HasInt row "ts" bar.ts
  availableAt : HasInt row "available_at" bar.availableAt
  o : HasInt row "o" bar.o
  h : HasInt row "h" bar.h
  l : HasInt row "l" bar.l
  c : HasInt row "c" bar.c

/-- A typed funding row is read from a record. -/
structure IsFunding (row : List (Text × Json)) (funding : FundingRow) : Prop where
  ts : HasInt row "ts" funding.ts
  availableAt : HasInt row "available_at" funding.availableAt
  rate : HasInt row "rate_1e8" funding.rate1e8

section Rows

variable {ext : Externals} {sha : Sha256} {limits : Json.Limits} {directory : Directory}

theorem rowMembers_eq_ok {source : String} {index : ℕ} {line : Bytes}
    {row : List (Text × Json)} (h : rowMembers limits source index line = .ok row) :
    strictJson limits line = some (.obj row) := by
  simp only [rowMembers, bind_ok_iff, Decoder.decode_eq_ok, asObject_eq_ok,
    Option.some.injEq] at h
  obtain ⟨value, hvalue, rfl⟩ := h
  exact hvalue

theorem barRow_eq_ok {source : String} {fileName market : Text} {role : SeriesRole} {index : ℕ}
    {line : Bytes} {bar : BarRow}
    (h : barRow limits source fileName market role index line = .ok bar) :
    ∃ row, strictJson limits line = some (.obj row) ∧ IsBar row bar := by
  simp only [barRow, bind_ok_iff, pure_eq_ok, Except.ok.injEq] at h
  obtain ⟨row, hrow, ts, hts, available, havailable, o, ho, hi, hh, l, hl, c, hc, v, -, rfl⟩ := h
  exact ⟨row, rowMembers_eq_ok hrow, asIntMin_eq_ok hts, asIntMin_eq_ok havailable,
    asIntMin_eq_ok ho, asIntMin_eq_ok hh, asIntMin_eq_ok hl, asIntMin_eq_ok hc⟩

theorem fundingRow_eq_ok {source : String} {fileName market : Text} {index : ℕ} {line : Bytes}
    {funding : FundingRow} (h : fundingRow limits source fileName market index line = .ok funding) :
    ∃ row, strictJson limits line = some (.obj row) ∧ IsFunding row funding := by
  simp only [fundingRow, bind_ok_iff, pure_eq_ok, Except.ok.injEq] at h
  obtain ⟨row, hrow, ts, hts, available, havailable, rate, hrate, rfl⟩ := h
  exact ⟨row, rowMembers_eq_ok hrow, asIntMin_eq_ok hts, asIntMin_eq_ok havailable,
    asInt_eq_ok.mp hrate⟩

theorem loadRows_eq_ok {α : Type} {source : String} {read : ℕ → Bytes → Py α} {raw : Bytes}
    {rows : List α} (h : loadRows source read raw = .ok rows) :
    rows.length = (splitLines raw).length ∧ ∀ i row, rows[i]? = some row →
      ∃ line, (splitLines raw)[i]? = some line ∧ read i line = .ok row := by
  simp only [loadRows, bind_ok_iff, require_eq_ok] at h
  obtain ⟨-, -, h⟩ := h
  refine ⟨mapM_zipIdx_length h, fun i row hrow => ?_⟩
  obtain ⟨line, hline, hread⟩ := mapM_zipIdx_getElem? h hrow
  exact ⟨line, hline, hread⟩

theorem canonicalOr_eq_ok {code context : String} {members : List (Text × Json)} {b : Bytes}
    (h : canonicalOr code context members = .ok b) : Json.canonical (.obj members) = .ok b := by
  unfold canonicalOr fail at h
  split at h
  · rename_i b' hb
    obtain rfl := Except.ok.inj h
    exact canonicalBytes_eq_ok.mp hb
  · simp at h

theorem readRow_eq_ok {schemaName : Text} {context : String} {line : Bytes}
    {row : List (Text × Json)} (h : readRow ext limits schemaName context line = .ok row) :
    strictJson limits line = some (.obj row) ∧ ext.schemaValid schemaName (.obj row) = true ∧
      IsLine line := by
  simp only [readRow, bind_ok_iff, Decoder.decode_eq_ok, object_eq_ok, Option.some.injEq,
    require_eq_ok, pure_eq_ok, Except.ok.injEq] at h
  obtain ⟨value, hvalue, row', rfl, -, hschema, canonical, hcanonical, -, rfl, rfl⟩ := h
  exact ⟨hvalue, hschema, Json.canonical_isLine (canonicalOr_eq_ok hcanonical)⟩

/-- What a validated series says about its file. -/
structure SeriesOf (ext : Externals) (limits : Json.Limits) (directory : Directory)
    (entry : List (Text × Json)) (series : Series) : Prop where
  path : Json.lookup (txt "path") entry = some (.str series.path)
  role : Json.lookup (txt "role") entry = some (.str series.role)
  market : Json.lookup (txt "market") entry = some (.str series.market)
  interval : HasInt entry "interval_ms" series.intervalMs
  file : ∃ raw, directory series.path = .file raw ∧ splitLines raw = recordLines raw ∧
    List.Forall₂ (fun line row => strictJson limits line = some (.obj row) ∧
      ext.schemaValid (if series.role = txt "funding" then txt "funding_row" else txt "bar_row")
        (.obj row) = true) (recordLines raw) series.rows

theorem safeSeriesBytes_eq_ok {relative : Text} {raw : Bytes}
    (h : safeSeriesBytes directory relative = .ok raw) : directory relative = .file raw := by
  unfold safeSeriesBytes fail at h
  split at h <;> simp_all

theorem readSeries_eq_ok {entry : List (Text × Json)} {series : Series}
    (h : readSeries ext sha limits directory entry = .ok series) :
    SeriesOf ext limits directory entry series := by
  simp only [readSeries, bind_ok_iff, require_eq_ok, string_eq_ok, integer_eq_ok, array_eq_ok,
    pure_eq_ok, Except.ok.injEq] at h
  obtain ⟨relative, hrelative, role, hrole, market, hmarket, interval, hinterval, rowSchema, -, -, -,
    upstream, -, -, -, _, -, raw, hraw, bytes, -, -, -, hash, -, -, -, -, hnewline, -, -, records, -,
    -, -, rows, hrows, rfl⟩ := h
  refine ⟨hrelative, hrole, hmarket, hinterval, raw, safeSeriesBytes_eq_ok hraw, ?_, ?_⟩
  · -- every record is a line of its own, so both ways of cutting the file agree
    have lines : ∀ line ∈ recordLines raw, IsLine line := fun line hline => by
      obtain ⟨i, hi⟩ := List.mem_iff_getElem?.mp hline
      have hlt : i < rows.length := by
        rw [mapM_zipIdx_length hrows]
        exact (List.getElem?_eq_some_iff.mp hi).1
      obtain ⟨line', hline', hread⟩ := mapM_zipIdx_getElem? hrows (List.getElem?_eq_getElem hlt)
      obtain rfl : line = line' := Option.some.inj (hi.symm.trans hline')
      exact (readRow_eq_ok hread).2.2
    rw [← joinLines_recordLines hnewline, splitLines_joinLines lines, joinLines_recordLines hnewline]
  · refine List.forall₂_iff_get.mpr ⟨(mapM_zipIdx_length hrows).symm, fun i hi hi' => ?_⟩
    obtain ⟨line, hline, hread⟩ := mapM_zipIdx_getElem? hrows (List.getElem?_eq_getElem hi')
    obtain rfl : (recordLines raw)[i] = line :=
      Option.some.inj ((List.getElem?_eq_getElem hi).symm.trans hline)
    exact ⟨(readRow_eq_ok hread).1, (readRow_eq_ok hread).2.1⟩

theorem strictTimestampOrder_eq_ok {series : Series} {timestamps : List ℤ}
    (h : strictTimestampOrder series = .ok timestamps) :
    timestamps.length = series.rows.length ∧ ∀ (i : ℕ) row ts, series.rows[i]? = some row →
      timestamps[i]? = some ts → HasInt row "ts" ts := by
  simp only [strictTimestampOrder, bind_ok_iff, require_eq_ok, pure_eq_ok, Except.ok.injEq] at h
  obtain ⟨ts, hts, -, -, -, -, rfl⟩ := h
  refine ⟨mapM_zipIdx_length hts, fun i row t hrow ht => ?_⟩
  obtain ⟨row', hrow', hint⟩ := mapM_zipIdx_getElem? hts ht
  obtain rfl : row = row' := Option.some.inj (hrow.symm.trans hrow')
  exact integer_eq_ok.mp hint

/-- What validation established about one bar record at `stamp`. -/
structure ValidBar (intervalMs stamp : ℤ) (row : List (Text × Json)) : Prop where
  ts : HasInt row "ts" stamp
  available : HasInt row "available_at" (stamp + intervalMs)
  ohlc : ∃ o h l c, HasInt row "o" o ∧ HasInt row "h" h ∧ HasInt row "l" l ∧ HasInt row "c" c ∧
    l ≤ o ∧ l ≤ c ∧ l ≤ h ∧ o ≤ h ∧ c ≤ h

theorem checkBarRow_eq_ok {intervalMs ts : ℤ} {field : String} {row : List (Text × Json)}
    {u : Unit} (h : checkBarRow intervalMs field row ts = .ok u) (hts : HasInt row "ts" ts) :
    ValidBar intervalMs ts row := by
  simp only [checkBarRow, bind_ok_iff, integer_eq_ok, require_eq_ok] at h
  obtain ⟨available, havailable, -, rfl, o, ho, hi, hh, l, hl, c, hc, -, hlow, hhigh⟩ := h
  refine ⟨hts, havailable, o, hi, l, c, ho, hh, hl, hc, ?_, ?_, ?_, ?_, ?_⟩ <;> omega

/-- A loop over rows and their timestamps returned: every row passed at its timestamp. -/
theorem zip_mapM_row {rows : List (List (Text × Json))} {timestamps : List ℤ}
    {check : (List (Text × Json) × ℤ) × ℕ → Py Unit} {results : List Unit}
    (hlength : timestamps.length = rows.length)
    (h : (rows.zip timestamps).zipIdx.mapM check = .ok results) {i : ℕ}
    {row : List (Text × Json)} (hrow : rows[i]? = some row) :
    ∃ ts, timestamps[i]? = some ts ∧ ∃ u, check ((row, ts), i) = .ok u := by
  have hi : i < rows.length := (List.getElem?_eq_some_iff.mp hrow).1
  have hts : i < timestamps.length := hlength ▸ hi
  have hresult : i < results.length := by
    rw [mapM_zipIdx_length h, List.length_zip]
    omega
  obtain ⟨⟨row', ts⟩, hzip, hcheck⟩ := mapM_zipIdx_getElem? h (List.getElem?_eq_getElem hresult)
  obtain ⟨hrow', hts'⟩ := List.getElem?_zip_eq_some.mp hzip
  obtain rfl : row = row' := Option.some.inj (hrow.symm.trans hrow')
  exact ⟨ts, hts', _, hcheck⟩

theorem validateBarRows_eq_ok {series : Series} {timestamps : List ℤ}
    (h : validateBarRows series = .ok timestamps) :
    timestamps.length = series.rows.length ∧ ∀ (i : ℕ) row, series.rows[i]? = some row →
      ∃ ts, timestamps[i]? = some ts ∧ ValidBar series.intervalMs ts row := by
  simp only [validateBarRows, bind_ok_iff, pure_eq_ok, Except.ok.injEq] at h
  obtain ⟨ts, horder, results, hrows, rfl⟩ := h
  obtain ⟨hlength, hts⟩ := strictTimestampOrder_eq_ok horder
  refine ⟨hlength, fun i row hrow => ?_⟩
  obtain ⟨t, ht, u, hcheck⟩ := zip_mapM_row hlength hrows hrow
  exact ⟨t, ht, checkBarRow_eq_ok hcheck (hts i row t hrow ht)⟩

theorem validateFundingRows_eq_ok {series : Series} {policy : FundingPolicy}
    {windowStart windowEnd : ℤ} {timestamps : List ℤ}
    (h : validateFundingRows series policy windowStart windowEnd = .ok timestamps) :
    timestamps = expectedFundingTimestamps windowStart windowEnd policy.settlementOffsetsMs ∧
      timestamps.length = series.rows.length ∧ ∀ (i : ℕ) row, series.rows[i]? = some row →
        ∃ ts rate, timestamps[i]? = some ts ∧ HasInt row "ts" ts ∧ HasInt row "available_at" ts ∧
          HasInt row "rate_1e8" rate ∧ policy.floor1e8 ≤ rate ∧ rate ≤ policy.cap1e8 := by
  simp only [validateFundingRows, bind_ok_iff, pure_eq_ok, Except.ok.injEq, require_eq_ok] at h
  obtain ⟨ts, horder, results, hrows, -, -, -, hexpected, rfl⟩ := h
  obtain ⟨hlength, hts⟩ := strictTimestampOrder_eq_ok horder
  refine ⟨hexpected, hlength, fun i row hrow => ?_⟩
  obtain ⟨t, ht, u, hcheck⟩ := zip_mapM_row hlength hrows hrow
  simp only [checkFundingRow, bind_ok_iff, integer_eq_ok, require_eq_ok] at hcheck
  obtain ⟨available, havailable, -, rfl, -, -, rate, hrate, hbounds⟩ := hcheck
  exact ⟨_, rate, ht, hts i row _ hrow ht, havailable, hrate, hbounds⟩

end Rows

/-! ## The validated pack -/

/-- What a successful validation read and established. -/
structure Validated (ext : Externals) (sha : Sha256) (limits : Json.Limits) (directory : Directory)
    where
  manifest : List (Text × Json)
  windowStart : ℤ
  windowEnd : ℤ
  intervals : List ℤ
  decisionBarMs : ℤ
  entries : List (List (Text × Json))
  series : List Series
  policies : List (Text × FundingPolicy)
  manifest_read : ∃ raw, manifestBytes directory = .ok raw ∧
    strictJson limits raw = some (.obj manifest)
  window : manifestWindow manifest = .ok (windowStart, windowEnd)
  intervals_read : manifestIntervals manifest = .ok (intervals, decisionBarMs)
  entries_read : manifestEntries manifest = .ok entries
  series_read : entries.mapM (readSeries ext sha limits directory) = .ok series
  policies_read : manifestPolicies manifest = .ok policies
  keys_nodup : (series.map Series.key).Nodup
  markets : ∀ p ∈ policies, Returns (validateMarket series windowStart windowEnd intervals p)

theorem checkSeriesKey_eq_ok {markets : List Text} {intervals : List ℤ} {seen seen' : List SeriesKey}
    {item : Series} (h : checkSeriesKey markets intervals seen item = .ok seen') :
    item.key ∉ seen ∧ seen' = seen ++ [item.key] := by
  unfold checkSeriesKey at h
  obtain ⟨-, -, h⟩ := bind_ok_iff.mp h
  split at h
  all_goals
    simp only [bind_ok_iff, require_eq_ok, pure_eq_ok, Except.ok.injEq] at h
    obtain ⟨-, -, -, hseen, rfl⟩ := h
    exact ⟨hseen, rfl⟩

theorem checkSeriesKeys_eq_ok {markets : List Text} {intervals : List ℤ} {series : List Series}
    {seen keys : List SeriesKey} (hseen : seen.Nodup)
    (h : series.foldlM (checkSeriesKey markets intervals) seen = .ok keys) :
    keys = seen ++ series.map Series.key ∧ keys.Nodup := by
  induction series generalizing seen with
  | nil =>
    obtain rfl := Except.ok.inj h
    exact ⟨by simp, hseen⟩
  | cons item rest ih =>
    rw [List.foldlM_cons] at h
    obtain ⟨acc, hacc, h⟩ := bind_ok_iff.mp h
    obtain ⟨hfresh, rfl⟩ := checkSeriesKey_eq_ok hacc
    have hnodup : (seen ++ [item.key]).Nodup := by
      rw [List.nodup_append]
      exact ⟨hseen, by simp, fun a ha b hb => by
        obtain rfl := List.mem_singleton.mp hb
        exact fun heq => hfresh (heq ▸ ha)⟩
    obtain ⟨hkeys, hnd⟩ := ih hnodup h
    exact ⟨by rw [hkeys]; simp, hnd⟩

theorem validateManifest_eq_ok {ext : Externals} {limits : Json.Limits} {directory : Directory}
    {manifest : List (Text × Json)} (h : validateManifest ext limits directory = .ok manifest) :
    ∃ raw, manifestBytes directory = .ok raw ∧ strictJson limits raw = some (.obj manifest) := by
  simp only [validateManifest, bind_ok_iff, Decoder.decode_eq_ok, object_eq_ok, Option.some.injEq,
    require_eq_ok, pure_eq_ok, Except.ok.injEq] at h
  obtain ⟨raw, hraw, value, hvalue, members, rfl, -, -, -, -, -, -, rfl⟩ := h
  exact ⟨raw, hraw, hvalue⟩

/-- A validation that returned. -/
theorem validatePack_validated {ext : Externals} {sha : Sha256} {limits : Json.Limits}
    {directory : Directory} (h : Returns (validatePack ext sha limits directory)) :
    Nonempty (Validated ext sha limits directory) := by
  obtain ⟨result, h⟩ := h
  simp only [validatePack, bind_ok_iff] at h
  obtain ⟨manifest, hmanifest, ⟨windowStart, windowEnd⟩, hwindow, ⟨intervals, bar⟩, hintervals,
    entries, hentries, series, hseries, _, -, _, -, _, -, policies, hpolicies, keys, hkeys, counts,
    hcounts, -⟩ := h
  exact ⟨{
    manifest
    windowStart
    windowEnd
    intervals
    decisionBarMs := bar
    entries
    series
    policies
    manifest_read := validateManifest_eq_ok hmanifest
    window := hwindow
    intervals_read := hintervals
    entries_read := hentries
    series_read := hseries
    policies_read := hpolicies
    keys_nodup := by
      have := checkSeriesKeys_eq_ok (by simp) hkeys
      rw [List.nil_append] at this
      exact this.1 ▸ this.2
    markets := fun p hp => by
      obtain ⟨count, -, hcount⟩ := mapM_mem_of_mem hcounts hp
      exact ⟨count, hcount⟩ }⟩

/-! ## The loaded pack -/

theorem ofText_eq_some {t : Text} {role : SeriesRole} (h : SeriesRole.ofText t = some role) :
    t = role.wire := by
  have := List.find?_some h
  simpa [eq_comm] using this

/-- The entry a selected file was read from. -/
structure SelectedFrom (sha : Sha256) (directory : Directory) (verifyIntegrity : Bool)
    (decisionBarMs : ℤ) (entry : List (Text × Json)) (aliasName : Text) (role : SeriesRole)
    (file : SeriesFile) : Prop where
  market_name : Json.lookup (txt "market") entry = some (.str aliasName)
  role_name : Json.lookup (txt "role") entry = some (.str role.wire)
  interval : HasInt entry "interval_ms" (if role = .funding then 0 else decisionBarMs)
  read : readDeclaredFile sha directory verifyIntegrity entry = .ok file

section Load

variable {ext : Externals} {sha : Sha256} {limits : Json.Limits} {directory : Directory}
  {verifyIntegrity : Bool}

theorem selectFile_eq_ok {aliases : List Text} {decisionBarMs : ℤ} {selected selected' : Selected}
    {rawEntry : Json}
    (h : selectFile sha directory verifyIntegrity aliases decisionBarMs selected rawEntry =
      .ok selected') :
    selected' = selected ∨ ∃ entry aliasName role file, rawEntry = .obj entry ∧
      SelectedFrom sha directory verifyIntegrity decisionBarMs entry aliasName role file ∧
      selected' = selected ++ [((aliasName, role), file)] := by
  simp only [selectFile, bind_ok_iff, asObject_eq_ok, asStr_eq_ok, Option.some.injEq] at h
  obtain ⟨entry, rfl, aliasName, halias, -, -, roleText, hrole, rowSchema, -, interval, hinterval, h⟩ := h
  split at h
  · simp at h
  · rename_i role hof
    simp only [bind_ok_iff, require_eq_ok] at h
    obtain ⟨-, -, h⟩ := h
    split at h
    · exact .inl (Except.ok.inj h).symm
    · rename_i hskip
      simp only [bind_ok_iff, require_eq_ok, pure_eq_ok, Except.ok.injEq] at h
      obtain ⟨-, hzero, -, -, file, hfile, rfl⟩ := h
      refine .inr ⟨entry, aliasName, role, file, rfl, ⟨halias, ofText_eq_some hof ▸ hrole, ?_, hfile⟩,
        rfl⟩
      have hint := asIntMin_eq_ok hinterval
      by_cases hfunding : role = .funding
      · rw [if_pos hfunding]
        rw [not_and, not_not] at hzero
        exact hzero hfunding ▸ hint
      · rw [if_neg hfunding]
        rw [not_and, not_not] at hskip
        exact hskip hfunding ▸ hint

theorem selectFiles_eq_ok {aliases : List Text} {decisionBarMs : ℤ} {files : List Json}
    {selected : Selected}
    (h : files.foldlM (selectFile sha directory verifyIntegrity aliases decisionBarMs) [] =
      .ok selected) :
    ∀ s ∈ selected, ∃ entry, Json.obj entry ∈ files ∧
      SelectedFrom sha directory verifyIntegrity decisionBarMs entry s.1.1 s.1.2 s.2 := by
  refine foldlM_invariant (I := fun selected => ∀ s ∈ selected, ∃ entry, Json.obj entry ∈ files ∧
    SelectedFrom sha directory verifyIntegrity decisionBarMs entry s.1.1 s.1.2 s.2) (by simp) ?_ h
  intro selected raw selected' hraw hselected hstep
  rcases selectFile_eq_ok hstep with rfl | ⟨entry, aliasName, role, file, rfl, hfrom, rfl⟩
  · exact hselected
  · intro s hs
    rcases List.mem_append.mp hs with hs | hs
    · exact hselected s hs
    · obtain rfl := List.mem_singleton.mp hs
      exact ⟨entry, hraw, hfrom⟩

theorem requiredFile_eq_ok {selected : Selected} {aliasName : Text} {role : SeriesRole}
    {file : SeriesFile} (h : requiredFile selected aliasName role = .ok file) :
    ((aliasName, role), file) ∈ selected := by
  unfold requiredFile selectedFile at h
  split at h
  · rename_i file' hfind
    obtain rfl := Except.ok.inj h
    obtain ⟨s, hs, rfl⟩ := Option.map_eq_some_iff.mp hfind
    have hkey : s.1 = (aliasName, role) := by simpa using List.find?_some hs
    exact hkey ▸ List.mem_of_find?_eq_some hs
  · simp at h

theorem readDeclaredFile_eq_ok {entry : List (Text × Json)} {file : SeriesFile}
    (h : readDeclaredFile sha directory verifyIntegrity entry = .ok file) :
    Json.lookup (txt "path") entry = some (.str file.path) ∧
      readFile directory file.path = .ok (file.name, file.raw) := by
  simp only [readDeclaredFile, bind_ok_iff, asStr_eq_ok] at h
  obtain ⟨relative, hrelative, ⟨name, raw⟩, hread, h⟩ := h
  split at h
  · simp only [bind_ok_iff, pure_eq_ok, Except.ok.injEq] at h
    obtain ⟨_, -, _, -, _, -, _, -, _, -, _, -, rfl⟩ := h
    exact ⟨hrelative, hread⟩
  · obtain rfl := Except.ok.inj h
    exact ⟨hrelative, hread⟩

/-- What loading read before it assembled the pack. -/
structure Loaded (sha : Sha256) (limits : Json.Limits) (verifyIntegrity : Bool)
    (directory : Directory) (pack : PackData) : Prop where
  manifest_read : ∃ raw, Core.manifestBytes directory = .ok raw ∧
    strictJson limits raw = some (.obj pack.manifest)
  decision_bar : HasInt pack.manifest "decision_bar_ms" pack.decisionBarMs
  window : ∃ window, Json.lookup (txt "window") pack.manifest = some (.obj window) ∧
    HasInt window "start_ts" pack.windowStartTs ∧ HasInt window "end_ts" pack.windowEndTs
  warmup : HasInt pack.manifest "warmup_bars" pack.warmupBars
  markets : ∃ specs files selected, declaredMarkets pack.manifest = .ok specs ∧
    Json.lookup (txt "files") pack.manifest = some (.arr files) ∧
    files.foldlM (selectFile sha directory verifyIntegrity (specs.map Prod.fst)
      pack.decisionBarMs) [] = .ok selected ∧
    specs.mapM (fun s => loadMarket limits selected s.1 s.2) = .ok pack.markets

theorem loadPack_loaded {pack : PackData}
    (h : loadPack sha limits verifyIntegrity directory = .ok pack) :
    Loaded sha limits verifyIntegrity directory pack := by
  simp only [loadPack, readManifest, bind_ok_iff, Decoder.decode_eq_ok, asObject_eq_ok,
    asArray_eq_ok, Option.some.injEq] at h
  obtain ⟨manifest, ⟨raw, hraw, value, hvalue, rfl⟩, -, -, bar, hbar, specs, hspecs, files, hfiles,
    selected, hselected, markets, hmarkets, ⟨hne⟩, -, h⟩ := h
  simp only [assemblePack, bind_ok_iff, asObject_eq_ok, pure_eq_ok, Except.ok.injEq] at h
  obtain ⟨window, hwindow, defaults, -, start, hstart, stop, hstop, ⟨hordered⟩, -, packId, -, hash,
    -, warmup, hwarmup, bars, -, prints, -, rfl⟩ := h
  exact {
    manifest_read := ⟨raw, hraw, hvalue⟩
    decision_bar := asIntMin_eq_ok hbar
    window := ⟨window, hwindow, asIntMin_eq_ok hstart, asIntMin_eq_ok hstop⟩
    warmup := by
      have := asIntMin_eq_ok hwarmup
      rwa [← Int.toNat_of_nonneg warmup.2] at this
    markets := ⟨specs, files, selected, hspecs, hfiles, hselected, hmarkets⟩ }

theorem loadMarket_eq_ok {selected : Selected} {aliasName : Text} {spec : MarketSpec}
    {market : Text × MarketData} (h : loadMarket limits selected aliasName spec = .ok market) :
    market.1 = aliasName ∧ market.2.spec = spec ∧ ∃ fundingFile indexFile markFile tradeFile,
      ((aliasName, SeriesRole.funding), fundingFile) ∈ selected ∧
      ((aliasName, SeriesRole.index), indexFile) ∈ selected ∧
      ((aliasName, SeriesRole.mark), markFile) ∈ selected ∧
      ((aliasName, SeriesRole.trade), tradeFile) ∈ selected ∧
      loadRows (Text.show fundingFile.path) (fundingRow limits (Text.show fundingFile.path)
        fundingFile.name aliasName) fundingFile.raw = .ok market.2.funding ∧
      loadRows (Text.show indexFile.path) (barRow limits (Text.show indexFile.path)
        indexFile.name aliasName .index) indexFile.raw = .ok market.2.index ∧
      loadRows (Text.show markFile.path) (barRow limits (Text.show markFile.path)
        markFile.name aliasName .mark) markFile.raw = .ok market.2.mark ∧
      loadRows (Text.show tradeFile.path) (barRow limits (Text.show tradeFile.path)
        tradeFile.name aliasName .trade) tradeFile.raw = .ok market.2.trade := by
  simp only [loadMarket, bind_ok_iff] at h
  obtain ⟨ff, hff, xf, hxf, mf, hmf, tf, htf, funding, hfunding, index, hindex, mark, hmark, trade,
    htrade, -, -, ⟨_⟩, -, ⟨_⟩, -, ⟨_⟩, -, ⟨_⟩, -, h⟩ := h
  obtain rfl := Except.ok.inj h
  exact ⟨rfl, rfl, ff, xf, mf, tf, requiredFile_eq_ok hff, requiredFile_eq_ok hxf,
    requiredFile_eq_ok hmf, requiredFile_eq_ok htf, hfunding, hindex, hmark, htrade⟩

/-! ## Both gates together -/

theorem HasInt.unique {row : List (Text × Json)} {name : String} {m n : ℤ} (hm : HasInt row name m)
    (hn : HasInt row name n) : m = n := by
  simpa using hm.symm.trans hn

theorem Loaded.manifest_eq {pack : PackData} (hl : Loaded sha limits verifyIntegrity directory pack)
    (v : Validated ext sha limits directory) : v.manifest = pack.manifest := by
  obtain ⟨raw, hraw, hm⟩ := hl.manifest_read
  obtain ⟨raw', hraw', hm'⟩ := v.manifest_read
  obtain rfl : raw = raw' := by
    unfold Core.manifestBytes at hraw
    unfold manifestBytes fail at hraw'
    split at hraw <;> simp_all
  simpa using hm'.symm.trans hm

/-- The window and the decision interval are the same for both. -/
theorem Loaded.window_eq {pack : PackData} (hl : Loaded sha limits verifyIntegrity directory pack)
    (v : Validated ext sha limits directory) :
    v.windowStart = pack.windowStartTs ∧ v.windowEnd = pack.windowEndTs ∧
      v.decisionBarMs = pack.decisionBarMs ∧ pack.decisionBarMs ∈ v.intervals := by
  have hwindow := v.window
  have hintervals := v.intervals_read
  rw [hl.manifest_eq v] at hwindow hintervals
  simp only [manifestWindow, bind_ok_iff, object_eq_ok, integer_eq_ok, require_eq_ok, pure_eq_ok,
    Except.ok.injEq, Prod.mk.injEq] at hwindow
  obtain ⟨window, hobj, start, hstart, stop, hstop, -, -, rfl, rfl⟩ := hwindow
  simp only [manifestIntervals, bind_ok_iff, array_eq_ok, integer_eq_ok, require_eq_ok, pure_eq_ok,
    Except.ok.injEq, Prod.mk.injEq] at hintervals
  obtain ⟨raw, -, intervals, -, -, -, bar, hbar, -, hmem, rfl, rfl⟩ := hintervals
  obtain ⟨window', hobj', hstart', hstop'⟩ := hl.window
  obtain rfl : window = window' := by simpa using hobj.symm.trans hobj'
  have hsame : v.decisionBarMs = pack.decisionBarMs := HasInt.unique hbar hl.decision_bar
  exact ⟨HasInt.unique hstart hstart', HasInt.unique hstop hstop', hsame, hsame ▸ hmem⟩

/-- A declared market is a validated one: both gates read the same descriptor. -/
theorem Loaded.descriptor_of_spec {pack : PackData} (v : Validated ext sha limits directory)
    (hmanifest : v.manifest = pack.manifest) {specs : List (Text × MarketSpec)}
    (hspecs : declaredMarkets pack.manifest = .ok specs) {spec : Text × MarketSpec}
    (h : spec ∈ specs) : ∃ objects raw venue policy,
      Json.lookup (txt "markets") pack.manifest = some (.obj objects) ∧
      (spec.1, Json.obj raw) ∈ objects ∧ marketSpec spec.1 raw = .ok spec.2 ∧
      fundingPolicy venue spec.1 raw = .ok policy ∧ (spec.1, policy) ∈ v.policies := by
  simp only [declaredMarkets, bind_ok_iff, asObject_eq_ok, require_eq_ok] at hspecs
  obtain ⟨objects, hobjects, -, -, hspecs⟩ := hspecs
  obtain ⟨item, hitem, hdeclared⟩ := mapM_mem hspecs h
  simp only [declaredMarket, bind_ok_iff, asObject_eq_ok, pure_eq_ok, Except.ok.injEq] at hdeclared
  obtain ⟨raw, hraw, _, hspec, rfl⟩ := hdeclared
  have hpolicies := v.policies_read
  rw [hmanifest] at hpolicies
  simp only [manifestPolicies, bind_ok_iff, object_eq_ok] at hpolicies
  obtain ⟨objects', hobjects', markets, hmarkets, venue, -, hpolicies⟩ := hpolicies
  obtain rfl : objects = objects' := by simpa using hobjects.symm.trans hobjects'
  obtain ⟨market, hmarket, hread⟩ := mapM_mem_of_mem hmarkets hitem
  simp only [bind_ok_iff, object_eq_ok, pure_eq_ok, Except.ok.injEq] at hread
  obtain ⟨raw', hraw', rfl⟩ := hread
  obtain rfl : raw = raw' := by simpa using hraw.symm.trans hraw'
  obtain ⟨policy, hpolicy, hread⟩ := mapM_mem_of_mem hpolicies hmarket
  simp only [bind_ok_iff, pure_eq_ok, Except.ok.injEq] at hread
  obtain ⟨p, hp, rfl⟩ := hread
  have hmem : (item.1, Json.obj raw) ∈ objects := by
    have hvalue : item.2 = .obj raw := by simpa using hraw
    rw [← hvalue]
    exact (List.mem_insertionSort _).mp hitem
  exact ⟨objects, raw, venue, p, hobjects, hmem, hspec, hp, hpolicy⟩

/-- The series of an entry, which its key identifies. -/
theorem Validated.series_of_key (v : Validated ext sha limits directory)
    {entry : List (Text × Json)} {files : List Json}
    (hfiles : Json.lookup (txt "files") v.manifest = some (.arr files))
    (hentry : Json.obj entry ∈ files) {series : Series} (hseries : series ∈ v.series)
    (hmarket : Json.lookup (txt "market") entry = some (.str series.market))
    (hrole : Json.lookup (txt "role") entry = some (.str series.role))
    (hinterval : HasInt entry "interval_ms" series.intervalMs) :
    SeriesOf ext limits directory entry series := by
  have hentries := v.entries_read
  simp only [manifestEntries, bind_ok_iff, array_eq_ok, require_eq_ok, pure_eq_ok,
    Except.ok.injEq] at hentries
  obtain ⟨raw, hraw, entries, hobjects, paths, -, -, -, -, -, heq⟩ := hentries
  obtain rfl : files = raw := by simpa using hfiles.symm.trans hraw
  have hmem : entry ∈ v.entries := by
    rw [← heq]
    obtain ⟨i, hi⟩ := List.mem_iff_getElem?.mp hentry
    have hlt : i < entries.length := by
      rw [mapM_zipIdx_length hobjects]
      exact (List.getElem?_eq_some_iff.mp hi).1
    obtain ⟨value, hvalue, hread⟩ :=
      mapM_zipIdx_getElem? hobjects (List.getElem?_eq_getElem hlt)
    obtain rfl : Json.obj entry = value := Option.some.inj (hi.symm.trans hvalue)
    have : entry = entries[i] := by simpa using object_eq_ok.mp hread
    exact this ▸ List.getElem_mem hlt
  obtain ⟨found, hfound, hread⟩ := mapM_mem_of_mem v.series_read hmem
  have hof := readSeries_eq_ok hread
  have hkey : found.key = series.key := by
    simp only [Series.key, SeriesKey.mk.injEq]
    exact ⟨by simpa using hof.market.symm.trans hmarket, by simpa using hof.role.symm.trans hrole,
      HasInt.unique hof.interval hinterval⟩
  obtain rfl := List.inj_on_of_nodup_map v.keys_nodup hfound hseries hkey
  exact hof

/-- The records of a validated series are what loading reads from the same file. -/
theorem rows_of_series {entry : List (Text × Json)} {series : Series} {file : SeriesFile}
    (hof : SeriesOf ext limits directory entry series)
    (hread : readDeclaredFile sha directory verifyIntegrity entry = .ok file) :
    List.Forall₂ (fun line row => strictJson limits line = some (.obj row))
      (splitLines file.raw) series.rows := by
  obtain ⟨hpath, hfile⟩ := readDeclaredFile_eq_ok hread
  obtain ⟨raw, hraw, hsplit, hrows⟩ := hof.file
  have hp : file.path = series.path := by simpa using hpath.symm.trans hof.path
  obtain rfl : file.raw = raw := by
    rw [readFile, hp, hraw] at hfile
    exact (Prod.mk.inj (Except.ok.inj hfile)).2.symm
  rw [hsplit]
  exact hrows.imp fun _ _ h => h.1

/-- Whatever a row reader takes from a record, it takes from the validated ones. -/
theorem loaded_of_series {α : Type} {P : List (Text × Json) → α → Prop} {source : String}
    {read : ℕ → Bytes → Py α} {entry : List (Text × Json)} {series : Series} {file : SeriesFile}
    {loaded : List α}
    (hread : ∀ i line a, read i line = .ok a → ∃ row, strictJson limits line = some (.obj row) ∧
      P row a)
    (hof : SeriesOf ext limits directory entry series)
    (hfile : readDeclaredFile sha directory verifyIntegrity entry = .ok file)
    (hload : loadRows source read file.raw = .ok loaded) : List.Forall₂ P series.rows loaded := by
  have hlines := rows_of_series hof hfile
  obtain ⟨hlength, hrows⟩ := loadRows_eq_ok hload
  refine List.forall₂_iff_get.mpr ⟨by rw [hlength, hlines.length_eq], fun i hi hi' => ?_⟩
  obtain ⟨line, hline, ha⟩ := hrows i loaded[i] (List.getElem?_eq_getElem hi')
  obtain ⟨row, hrow, hP⟩ := hread i line _ ha
  have hi'' : i < (splitLines file.raw).length := hlines.length_eq ▸ hi
  have hat : strictJson limits (splitLines file.raw)[i] = some (.obj series.rows[i]) :=
    (List.forall₂_iff_get.mp hlines).2 i hi'' hi
  obtain rfl : (splitLines file.raw)[i] = line :=
    Option.some.inj ((List.getElem?_eq_getElem hi'').symm.trans hline)
  obtain rfl : row = series.rows[i] := by simpa using hrow.symm.trans hat
  exact hP

/-! ## The grid -/

/-- What both gates together establish about the decision series of a market. -/
structure OnGrid (pack : PackData) (market : MarketData) : Prop where
  aligned : (pack.windowEndTs - pack.windowStartTs) % pack.decisionBarMs = 0
  trade_ts : market.trade.map BarRow.ts =
    rangeStep pack.windowStartTs pack.windowEndTs pack.decisionBarMs
  trade_available : ∀ row ∈ market.trade, row.availableAt = row.ts + pack.decisionBarMs
  mark_available : ∀ row ∈ market.mark, row.availableAt = row.ts + pack.decisionBarMs
  index_available : ∀ row ∈ market.index, row.availableAt = row.ts + pack.decisionBarMs
  ohlc : ∀ rows ∈ [market.trade, market.mark, market.index], ∀ row ∈ rows,
    row.l ≤ row.o ∧ row.l ≤ row.c ∧ row.l ≤ row.h ∧ row.o ≤ row.h ∧ row.c ≤ row.h
  funding_available : ∀ row ∈ market.funding, row.availableAt = row.ts

/-- The typed bars of a validated series. -/
theorem validBars_typed {series : Series} {timestamps : List ℤ} {bars : List BarRow}
    (hvalid : validateBarRows series = .ok timestamps)
    (htyped : List.Forall₂ IsBar series.rows bars) :
    bars.map BarRow.ts = timestamps ∧
      (∀ row ∈ bars, row.availableAt = row.ts + series.intervalMs) ∧
      ∀ row ∈ bars, row.l ≤ row.o ∧ row.l ≤ row.c ∧ row.l ≤ row.h ∧ row.o ≤ row.h ∧
        row.c ≤ row.h := by
  obtain ⟨hlength, hrows⟩ := validateBarRows_eq_ok hvalid
  have at_index : ∀ (i : ℕ) (bar : BarRow), bars[i]? = some bar → timestamps[i]? = some bar.ts ∧
      bar.availableAt = bar.ts + series.intervalMs ∧ bar.l ≤ bar.o ∧ bar.l ≤ bar.c ∧
        bar.l ≤ bar.h ∧ bar.o ≤ bar.h ∧ bar.c ≤ bar.h := by
    intro i bar hbar
    obtain ⟨hi, rfl⟩ := List.getElem?_eq_some_iff.mp hbar
    have hi' : i < series.rows.length := htyped.length_eq ▸ hi
    obtain ⟨ts, hts, hvalid⟩ := hrows i _ (List.getElem?_eq_getElem hi')
    have hbar : IsBar series.rows[i] bars[i] := (List.forall₂_iff_get.mp htyped).2 i hi' hi
    obtain ⟨o, h, l, c, ho, hh, hl, hc, hbounds⟩ := hvalid.ohlc
    obtain rfl := HasInt.unique hbar.ts hvalid.ts
    rw [HasInt.unique hbar.o ho, HasInt.unique hbar.h hh, HasInt.unique hbar.l hl,
      HasInt.unique hbar.c hc]
    exact ⟨hts, HasInt.unique hbar.availableAt hvalid.available, hbounds⟩
  refine ⟨List.ext_getElem? fun i => ?_, fun bar hbar => ?_, fun bar hbar => ?_⟩
  · rw [List.getElem?_map]
    rcases h : bars[i]? with _ | bar
    · have := List.getElem?_eq_none_iff.mp h
      rw [Option.map_none, eq_comm, List.getElem?_eq_none_iff, hlength, htyped.length_eq]
      exact this
    · rw [Option.map_some, (at_index i bar h).1]
  · obtain ⟨i, hi⟩ := List.mem_iff_getElem?.mp hbar
    exact (at_index i bar hi).2.1
  · obtain ⟨i, hi⟩ := List.mem_iff_getElem?.mp hbar
    exact (at_index i bar hi).2.2

theorem validFunding_typed {series : Series} {policy : FundingPolicy} {windowStart windowEnd : ℤ}
    {timestamps : List ℤ} {funding : List FundingRow}
    (hvalid : validateFundingRows series policy windowStart windowEnd = .ok timestamps)
    (htyped : List.Forall₂ IsFunding series.rows funding) :
    ∀ row ∈ funding, row.availableAt = row.ts := by
  obtain ⟨-, hlength, hrows⟩ := validateFundingRows_eq_ok hvalid
  intro row hrow
  obtain ⟨i, hi, rfl⟩ := List.mem_iff_getElem.mp hrow
  have hi' : i < series.rows.length := htyped.length_eq ▸ hi
  obtain ⟨ts, rate, -, hts, havailable, -⟩ := hrows i _ (List.getElem?_eq_getElem hi')
  have hrow : IsFunding series.rows[i] funding[i] := (List.forall₂_iff_get.mp htyped).2 i hi' hi
  rw [HasInt.unique hrow.availableAt havailable, HasInt.unique hrow.ts hts]

theorem requiredSeries_eq_ok {series : List Series} {key : SeriesKey} {missing : String}
    {s : Series} (h : requiredSeries series key missing = .ok s) : s ∈ series ∧ s.key = key := by
  unfold requiredSeries seriesAt fail at h
  split at h
  · rename_i s' hfind
    obtain rfl := Except.ok.inj h
    exact ⟨List.mem_of_find?_eq_some hfind, by simpa using List.find?_some hfind⟩
  · simp at h

/-- **Accepted packs stand on their grid.** -/
theorem loadPack_onGrid {pack : PackData}
    (hload : loadPack sha limits verifyIntegrity directory = .ok pack)
    (hvalid : Returns (validatePack ext sha limits directory)) :
    ∀ market ∈ pack.markets, OnGrid pack market.2 := by
  have hl := loadPack_loaded hload
  obtain ⟨v⟩ := validatePack_validated hvalid
  have hmanifest := hl.manifest_eq v
  obtain ⟨hstart, hend, hbar, hinterval⟩ := hl.window_eq v
  obtain ⟨specs, files, selected, hspecs, hfiles, hselected, hmarkets⟩ := hl.markets
  intro market hmarket
  obtain ⟨spec, hspec, hloaded⟩ := mapM_mem hmarkets hmarket
  obtain ⟨_, _, _, policy, -, -, -, -, hpolicy⟩ :=
    Loaded.descriptor_of_spec v hmanifest hspecs hspec
  obtain ⟨-, -, ff, xf, mf, tf, hff, hxf, hmf, htf, hfunding, hindex, hmark, htrade⟩ :=
    loadMarket_eq_ok hloaded
  have origin := selectFiles_eq_ok hselected
  -- the validated series with a selected file's key is the series of that file
  have series_of : ∀ {role : SeriesRole} {file : SeriesFile} {s : Series},
      ((spec.1, role), file) ∈ selected → s ∈ v.series →
      s.key = ⟨spec.1, role.wire, if role = .funding then 0 else pack.decisionBarMs⟩ →
      ∃ entry, SeriesOf ext limits directory entry s ∧
        readDeclaredFile sha directory verifyIntegrity entry = .ok file := by
    intro role file s hmem hs hkey
    obtain ⟨entry, hentry, hfrom⟩ := origin _ hmem
    simp only [Series.key, SeriesKey.mk.injEq] at hkey
    obtain ⟨hm, hr, hi⟩ := hkey
    exact ⟨entry, v.series_of_key (hmanifest ▸ hfiles) hentry hs (hm ▸ hfrom.market_name)
      (hr ▸ hfrom.role_name) (hi ▸ hfrom.interval), hfrom.read⟩
  obtain ⟨count, hmarketvalid⟩ := v.markets _ hpolicy
  simp only [validateMarket, bind_ok_iff] at hmarketvalid
  obtain ⟨fundingSeries, hfs, fundingTs, hfundingValid, counts, hcounts, -⟩ := hmarketvalid
  obtain ⟨_, -, hintervalValid⟩ := mapM_mem_of_mem hcounts hinterval
  obtain ⟨n, hn, -⟩ := bind_ok_iff.mp hintervalValid
  simp only [validateInterval, bind_ok_iff] at hn
  obtain ⟨trade, ht, mark, hm, index, hx, indexTs, hindexValid, markTs, hmarkValid, tradeTs,
    htradeValid, _, hgrid, -⟩ := hn
  obtain ⟨hfsMem, hfsKey⟩ := requiredSeries_eq_ok hfs
  obtain ⟨htMem, htKey⟩ := requiredSeries_eq_ok ht
  obtain ⟨hmMem, hmKey⟩ := requiredSeries_eq_ok hm
  obtain ⟨hxMem, hxKey⟩ := requiredSeries_eq_ok hx
  obtain ⟨_, hfsOf, hfsRead⟩ := series_of hff hfsMem hfsKey
  obtain ⟨_, htOf, htRead⟩ := series_of htf htMem htKey
  obtain ⟨_, hmOf, hmRead⟩ := series_of hmf hmMem hmKey
  obtain ⟨_, hxOf, hxRead⟩ := series_of hxf hxMem hxKey
  have trades := loaded_of_series (P := IsBar) (fun _ _ _ h => barRow_eq_ok h) htOf htRead htrade
  have marks := loaded_of_series (P := IsBar) (fun _ _ _ h => barRow_eq_ok h) hmOf hmRead hmark
  have indices := loaded_of_series (P := IsBar) (fun _ _ _ h => barRow_eq_ok h) hxOf hxRead hindex
  have settlements :=
    loaded_of_series (P := IsFunding) (fun _ _ _ h => fundingRow_eq_ok h) hfsOf hfsRead hfunding
  obtain ⟨htradeTs, htradeAvail, htradeOhlc⟩ := validBars_typed htradeValid trades
  obtain ⟨-, hmarkAvail, hmarkOhlc⟩ := validBars_typed hmarkValid marks
  obtain ⟨-, hindexAvail, hindexOhlc⟩ := validBars_typed hindexValid indices
  simp only [validateBarGrid, bind_ok_iff, require_eq_ok, hstart, hend] at hgrid
  obtain ⟨-, -, -, haligned, hrange⟩ := hgrid
  have interval_of : ∀ {s : Series} {role : String}, s.key = ⟨spec.1, txt role,
      pack.decisionBarMs⟩ → s.intervalMs = pack.decisionBarMs := fun h => by
    simpa [Series.key] using congrArg SeriesKey.intervalMs h
  rw [interval_of htKey] at htradeAvail
  rw [interval_of hmKey] at hmarkAvail
  rw [interval_of hxKey] at hindexAvail
  exact {
    aligned := haligned
    trade_ts := htradeTs.trans hrange
    trade_available := htradeAvail
    mark_available := hmarkAvail
    index_available := hindexAvail
    ohlc := by
      intro rows hrows
      simp only [List.mem_cons, List.not_mem_nil, or_false] at hrows
      rcases hrows with rfl | rfl | rfl
      · exact htradeOhlc
      · exact hmarkOhlc
      · exact hindexOhlc
    funding_available := validFunding_typed hfundingValid settlements }

/-! ## The clock of an accepted pack -/

theorem rangeStep_length (start stop step : ℤ) :
    (rangeStep start stop step).length = ((stop - start + step - 1) / step).toNat := by
  simp [rangeStep]

/-- The bars of a market on its grid fill the window. -/
theorem OnGrid.length_mul {pack : PackData} {market : MarketData} (h : OnGrid pack market) :
    market.trade.length * pack.decisionBarMs = pack.windowEndTs - pack.windowStartTs := by
  have hstep := pack.decision_bar_pos
  have hlength : market.trade.length =
      ((pack.windowEndTs - pack.windowStartTs + pack.decisionBarMs - 1) /
        pack.decisionBarMs).toNat := by
    rw [← rangeStep_length, ← h.trade_ts, List.length_map]
  obtain ⟨k, hk⟩ := Int.dvd_of_emod_eq_zero h.aligned
  have hk_pos : 0 < k := by
    have := pack.window_ordered
    by_contra hle
    nlinarith
  have hdiv : (pack.windowEndTs - pack.windowStartTs + pack.decisionBarMs - 1) /
      pack.decisionBarMs = k := by
    rw [hk, show pack.decisionBarMs * k + pack.decisionBarMs - 1 =
      pack.decisionBarMs - 1 + pack.decisionBarMs * k by ring,
      Int.add_mul_ediv_left _ _ (by omega), Int.ediv_eq_zero_of_lt (by omega) (by omega), zero_add]
  rw [hlength, hdiv, hk, Int.toNat_of_nonneg hk_pos.le, mul_comm]

theorem shortest_mem {markets : List (Text × MarketData)} (h : markets ≠ []) :
    ∃ m ∈ markets, PackData.shortest markets = m.2.trade.length := by
  induction markets with
  | nil => exact absurd rfl h
  | cons m rest ih =>
    cases rest with
    | nil => exact ⟨m, by simp, rfl⟩
    | cons m' rest =>
      obtain ⟨n, hn, heq⟩ := ih (by simp)
      simp only [PackData.shortest]
      rcases le_total m.2.trade.length (PackData.shortest (m' :: rest)) with hle | hle
      · exact ⟨m, by simp, min_eq_left hle⟩
      · exact ⟨n, by simp [hn], (min_eq_right hle).trans heq⟩

/-- Every turn of an accepted pack has a clock. -/
theorem clockRealTs_returns {pack : PackData} (hgrid : ∀ m ∈ pack.markets, OnGrid pack m.2)
    {turns turn : ℕ} (hturns : pack.barsTotal = .ok turns) (hturn : turn < turns) :
    Returns (pack.clockRealTs turn) := by
  obtain ⟨m, hm, hshortest⟩ := shortest_mem pack.markets_ne_nil
  obtain ⟨-, htotal⟩ := barsTotal_eq_ok.mp hturns
  have hwindow := (hgrid m hm).length_mul
  have hstep := pack.decision_bar_pos
  refine ⟨_, clockRealTs_eq_ok.mpr ⟨⟨turns, hturns, hturn⟩, rfl, ?_⟩⟩
  have hle : (pack.warmupBars + turn + 1 : ℤ) ≤ m.2.trade.length := by omega
  nlinarith

/-! ## What is available at a decision -/

theorem rangeStep_getElem {start stop step ts : ℤ} {i : ℕ}
    (h : (rangeStep start stop step)[i]? = some ts) : ts = start + i * step := by
  simp only [rangeStep, List.getElem?_map, Option.map_eq_some_iff] at h
  obtain ⟨j, hj, rfl⟩ := h
  obtain ⟨hlt, rfl⟩ := List.getElem?_eq_some_iff.mp hj
  simp

/-- The rows of a series on the grid that are available at the close of its bar `n - 1` are the first
`n` ones. -/
theorem available_eq_take {pack : PackData} {rows : List BarRow}
    (hts : rows.map BarRow.ts = rangeStep pack.windowStartTs pack.windowEndTs pack.decisionBarMs)
    (havailable : ∀ row ∈ rows, row.availableAt = row.ts + pack.decisionBarMs) (n : ℕ) :
    rows.filter (·.availableAt ≤ pack.windowStartTs + n * pack.decisionBarMs) = rows.take n := by
  refine filter_eq_take fun i row hrow => ?_
  have hstep := pack.decision_bar_pos
  have hrange : (rangeStep pack.windowStartTs pack.windowEndTs pack.decisionBarMs)[i]? =
      some row.ts := by
    rw [← hts, List.getElem?_map, hrow]
    rfl
  rw [decide_eq_true_eq, havailable row (List.mem_of_getElem? hrow), rangeStep_getElem hrange]
  constructor
  · intro h
    by_contra hge
    have : (n : ℤ) * pack.decisionBarMs ≤ i * pack.decisionBarMs :=
      mul_le_mul_of_nonneg_right (by omega) (by omega)
    omega
  · intro h
    have : ((i : ℤ) + 1) * pack.decisionBarMs ≤ n * pack.decisionBarMs :=
      mul_le_mul_of_nonneg_right (by omega) (by omega)
    linarith

/-- What is available of the series of a market on its grid when a turn is decided: all rows up to
the bar that closes then. -/
theorem OnGrid.available {pack : PackData} {market : MarketData} (h : OnGrid pack market) {turn : ℕ}
    {ts : ℤ} (hts : pack.clockRealTs turn = .ok ts) :
    market.availableTrade ts = market.trade.take (pack.warmupBars + turn + 1) ∧
      market.availableMark ts = market.mark.take (pack.warmupBars + turn + 1) ∧
      market.availableIndex ts = market.index.take (pack.warmupBars + turn + 1) := by
  obtain ⟨-, rfl, -⟩ := clockRealTs_eq_ok.mp hts
  have cast : (pack.warmupBars + turn + 1 : ℤ) = (pack.warmupBars + turn + 1 : ℕ) := by push_cast; rfl
  rw [cast]
  exact ⟨available_eq_take h.trade_ts h.trade_available _,
    available_eq_take (market.mark_ts.trans h.trade_ts) h.mark_available _,
    available_eq_take (market.index_ts.trans h.trade_ts) h.index_available _⟩

end Load

end WagmiBench.Data
