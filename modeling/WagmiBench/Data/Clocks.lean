import WagmiBench.Data.FundingClock
import WagmiBench.Data.Loadable

/-!
# The clocks of a validated pack

The close a turn is scheduled for, the availability of the row behind it, the open of the row that
fills its orders and the settlement an observation announces are computed by four different pieces
of code. On a pack that validation accepts they name the same instants.
-/

namespace WagmiBench.Data

open WagmiBench.Lib WagmiBench.Core WagmiBench.Spec
open Json (Schema)

/-! ## A schedule of daily settlements -/

/-- The stamps of a schedule that repeats every day. -/
def Scheduled (offsets : List ℤ) (ts : ℤ) : Prop :=
  ∃ day : ℤ, ∃ offset ∈ offsets, ts = day * Core.DAY_MS + offset

/-- Offsets within a day, in order. -/
structure DailyOffsets (offsets : List ℤ) : Prop where
  increasing : offsets.Pairwise (· < ·)
  within : ∀ offset ∈ offsets, 0 ≤ offset ∧ offset < Core.DAY_MS

section Schedule

variable {offsets : List ℤ} {windowStart windowEnd clockTs ts : ℤ}

theorem mem_rangeStep {start stop step : ℤ} (hstep : 0 < step) (k : ℤ) :
    start + k * step ∈ rangeStep start stop step ↔ 0 ≤ k ∧ start + k * step < stop := by
  have hceil : k < (stop - start + step - 1) / step ↔ start + k * step < stop := by
    rw [← Int.add_one_le_iff, Int.le_ediv_iff_mul_le hstep, add_mul, one_mul]
    omega
  simp only [rangeStep, List.mem_map, List.mem_range, add_right_inj]
  constructor
  · rintro ⟨i, hi, heq⟩
    obtain rfl : (i : ℤ) = k := mul_right_cancel₀ hstep.ne' heq
    exact ⟨by omega, hceil.mp (by omega)⟩
  · rintro ⟨hk, hlt⟩
    exact ⟨k.toNat, by have := hceil.mpr hlt; omega, by rw [Int.toNat_of_nonneg hk]⟩

/-- The settlements validation expects are the scheduled stamps of the window. -/
theorem mem_expectedFundingTimestamps (h : DailyOffsets offsets) :
    ts ∈ expectedFundingTimestamps windowStart windowEnd offsets ↔
      Scheduled offsets ts ∧ windowStart ≤ ts ∧ ts < windowEnd := by
  have hday : windowStart - windowStart % Data.DAY_MS = windowStart / Core.DAY_MS * Core.DAY_MS := by
    simp only [Data.DAY_MS, Core.DAY_MS]
    omega
  simp only [expectedFundingTimestamps, hday, List.mem_filter, List.mem_flatMap, List.mem_map,
    decide_eq_true_eq]
  refine and_congr_left fun hwindow => ⟨?_, ?_⟩
  · rintro ⟨day, hmem, offset, hoffset, rfl⟩
    obtain ⟨i, -, rfl⟩ := List.mem_map.mp hmem
    exact ⟨windowStart / Core.DAY_MS + i, offset, hoffset, by ring⟩
  · rintro ⟨day, offset, hoffset, rfl⟩
    obtain ⟨hnonneg, hlt⟩ := h.within offset hoffset
    refine ⟨day * Core.DAY_MS, ?_, offset, hoffset, rfl⟩
    have hsplit : day * Core.DAY_MS =
        windowStart / Core.DAY_MS * Core.DAY_MS + (day - windowStart / Core.DAY_MS) * Core.DAY_MS := by
      ring
    rw [hsplit, mem_rangeStep (by norm_num), ← hsplit]
    simp only [Core.DAY_MS] at *
    omega

/-- The settlement an observation announces is the next scheduled one. -/
theorem nextSettlementRealTs_next (h : DailyOffsets offsets) {next : ℤ}
    (hnext : Observe.nextSettlementRealTs clockTs offsets = .ok next) :
    Scheduled offsets next ∧ clockTs < next ∧
      ∀ ts, Scheduled offsets ts → clockTs < ts → next ≤ ts := by
  cases hoffsets : offsets with
  | nil => simp [Observe.nextSettlementRealTs, hoffsets] at hnext
  | cons first rest =>
    rw [← hoffsets]
    have hfirst : first ∈ offsets := by simp [hoffsets]
    simp only [Observe.nextSettlementRealTs, hoffsets] at hnext
    rw [← hoffsets] at hnext
    split at hnext
    · -- an offset of the same day is still ahead, and the ones before it have passed
      next offset hfind =>
      obtain rfl := Except.ok.inj hnext
      obtain ⟨hahead, passed, later, hsplit, hpassed⟩ := List.find?_eq_some_iff_append.mp hfind
      have hmem : offset ∈ offsets := by simp [hsplit]
      refine ⟨⟨_, offset, hmem, rfl⟩, by simpa using hahead, ?_⟩
      rintro ts ⟨day, other, hother, rfl⟩ hts
      obtain ⟨hnonneg, hlt⟩ := h.within _ hmem
      obtain ⟨hnonneg', hlt'⟩ := h.within _ hother
      by_contra hbefore
      have hsame : day = clockTs / Core.DAY_MS := by
        simp only [Core.DAY_MS] at *
        omega
      subst hsame
      have horder := h.increasing
      rw [hsplit, List.pairwise_append, List.pairwise_cons] at horder
      rw [hsplit, List.mem_append, List.mem_cons] at hother
      rcases hother with hother | rfl | hother
      · have := hpassed other hother
        simp only [Bool.not_eq_true', decide_eq_false_iff_not] at this
        exact this hts
      · exact hbefore le_rfl
      · have := horder.2.1.1 other hother
        omega
    · -- all offsets of the day have passed: the first one of the next day is due
      next hnone =>
      obtain rfl := Except.ok.inj hnext
      have hpassed := List.find?_eq_none.mp hnone
      simp only [decide_eq_true_eq, not_lt] at hpassed
      obtain ⟨hnonneg, hlt⟩ := h.within _ hfirst
      refine ⟨⟨clockTs / Core.DAY_MS + 1, first, hfirst, by ring⟩, ?_, ?_⟩
      · simp only [Core.DAY_MS] at *
        omega
      · rintro ts ⟨day, other, hother, rfl⟩ hts
        have hbefore := hpassed other hother
        have hleast : first ≤ other := by
          have horder := h.increasing
          rw [hoffsets, List.pairwise_cons] at horder
          rw [hoffsets, List.mem_cons] at hother
          rcases hother with rfl | hother
          · exact le_rfl
          · exact (horder.1 other hother).le
        have hday : clockTs / Core.DAY_MS + 1 ≤ day := by
          by_contra hle
          simp only [Core.DAY_MS] at *
          omega
        simp only [Core.DAY_MS] at *
        omega

end Schedule

/-! ## The schedule both gates read -/

section Accepted

variable {ext : Externals} {sha : Sha256} {limits : Json.Limits} {directory : Directory}
  {verifyIntegrity : Bool} {pack : PackData}

/-- Both gates read the same offsets of a descriptor, and they are offsets within a day. -/
theorem offsets_agree {raw : List (Text × Json)} {name venue : Text} {spec : MarketSpec}
    {policy : FundingPolicy} (hspec : marketSpec name raw = .ok spec)
    (hpolicy : fundingPolicy venue name raw = .ok policy)
    (hraw : Schema.Valid packDefs MARKET_DESCRIPTOR (.obj raw)) :
    policy.settlementOffsetsMs = spec.funding.settlementOffsetsMs ∧
      DailyOffsets spec.funding.settlementOffsetsMs := by
  simp only [fundingPolicy, bind_ok_iff, object_eq_ok, array_eq_ok, require_eq_ok, pure_eq_ok,
    Except.ok.injEq] at hpolicy
  obtain ⟨funding, hfunding, _, -, items, hitems, offsets, hoffsets, -, hchain, -, -, -, -, -, -, _, -,
    -, -, _, -, _, -, -, -, _, -, rfl⟩ := hpolicy
  simp only [marketSpec, settlementOffsets, bind_ok_iff, asObject_eq_ok, asArray_eq_ok, pure_eq_ok,
    Except.ok.injEq] at hspec
  obtain ⟨funding', hfunding', _, -, _, -, _, -, _, -, _, -, _, ⟨items', hitems', stored, hstored,
    ⟨_⟩, -, rfl⟩, hspec⟩ := hspec
  obtain rfl : funding = funding' := by simpa using hfunding.symm.trans hfunding'
  obtain rfl : items = items' := by simpa using hitems.symm.trans hitems'
  have hread : offsets.map Json.int = items :=
    (map_eq_of_mapM (g := Prod.fst) hoffsets fun item _ n h => by
      simpa using (integer_eq_ok.mp h).symm).trans
      (List.zipIdx_map_fst ..)
  have hloaded : (stored.map Subtype.val).map Json.int = items := by
    rw [List.map_map]
    refine (map_eq_of_mapM (g := id) hstored fun item _ n h => ?_).trans (List.map_id _)
    simpa using (asIntMin_eq_ok h).symm
  have hsame : stored.map Subtype.val = offsets :=
    List.map_injective_iff.mpr (fun _ _ => Json.int.inj) (hloaded.trans hread.symm)
  have hsorted : (stored.map Subtype.val).insertionSort (· ≤ ·) = offsets := by
    rw [hsame]
    exact (hchain.pairwise.imp le_of_lt).insertionSort_eq
  have hoffsets : spec.funding.settlementOffsetsMs = offsets := by
    obtain ⟨_, -, _, -, ⟨_⟩, -, _, -, _, -, _, -, _, -, _, -, _, -, _, -, _, -, _, -, _, -, _, -, _, -,
      _, -, _, -, _, -, rfl⟩ := hspec
    exact hsorted
  refine ⟨hoffsets.symm, hoffsets ▸ hchain.pairwise, ?_⟩
  rw [hoffsets]
  intro offset hoffset
  obtain ⟨funding', hfunding', hvalid⟩ := object_of_closed hraw "funding" (s := FUNDING) (by simp)
    (by simp [ofMember_txt_cons]) ⟨_, _, _, rfl⟩
  obtain rfl : funding = funding' := by simpa using hfunding.symm.trans hfunding'
  obtain ⟨w, hw, hvalid⟩ := member_of_closed hvalid "settlement_offsets_ms"
    (s := .array 1 (.integer (some 0) (some 86_399_999))) (by simp) (by simp [ofMember_txt_cons])
  obtain rfl : w = .arr items := by simpa [hitems] using hw.symm
  obtain ⟨items', heq, -, hvalid⟩ := Schema.valid_array.mp hvalid
  obtain rfl := Json.arr.inj heq
  have hmem : Json.int offset ∈ items := hread ▸ List.mem_map_of_mem hoffset
  obtain ⟨n, hn, hleast, hmost⟩ := Schema.valid_integer.mp (hvalid _ hmem)
  obtain rfl := Json.int.inj hn
  have := hleast 0 rfl
  have := hmost 86_399_999 rfl
  simp only [Core.DAY_MS]
  omega

/-- The settlements of a loaded market are the scheduled stamps of the window. -/
theorem Checked.schedule (c : Checked ext sha limits directory) (hext : SchemaLawful ext)
    (hload : loadPack sha limits verifyIntegrity directory = .ok pack) :
    ∀ market ∈ pack.markets, DailyOffsets market.2.spec.funding.settlementOffsetsMs ∧
      market.2.funding.map FundingRow.ts = expectedFundingTimestamps pack.windowStartTs
        pack.windowEndTs market.2.spec.funding.settlementOffsetsMs := by
  have hl := loadPack_loaded hload
  have hmanifest := hl.manifest_eq c.toValidated
  obtain ⟨hstart, hend, hbar, -⟩ := hl.window_eq c.toValidated
  obtain ⟨specs, files, selected, hspecs, hfiles, hselected, hmarkets⟩ := hl.markets
  obtain ⟨specs', hspecs', -, hnames⟩ := c.declared hext
  obtain rfl : specs = specs' := Except.ok.inj (hspecs.symm.trans (hmanifest ▸ hspecs'))
  obtain rfl : files = c.entries.map .obj := by simpa [← hmanifest, c.files_eq] using hfiles.symm
  obtain rfl : selected = c.selected := by
    have heq := @Checked.selectFiles_eq _ sha _ _ verifyIntegrity c hext
    rw [hnames, ← hbar, heq] at hselected
    exact (Except.ok.inj hselected).symm
  intro market hmarket
  obtain ⟨spec, hspec, hloaded⟩ := mapM_mem hmarkets hmarket
  obtain ⟨objects, raw, venue, policy, hobjects, hraw, hread, hpolicy, hmem⟩ :=
    Loaded.descriptor_of_spec c.toValidated hmanifest hspecs hspec
  obtain ⟨market', hmarket', hspec', hfunding⟩ := c.loadMarket_returns hext hmem spec.2
  obtain rfl : market = (spec.1, market') := Except.ok.inj (hloaded.symm.trans hmarket')
  obtain ⟨objects', hobjects', -, hdescriptors⟩ := c.objects hext
  obtain rfl : objects = objects' := by simpa [hmanifest, hobjects] using hobjects'
  obtain ⟨hoffsets, hdaily⟩ := offsets_agree hread hpolicy (hdescriptors _ hraw)
  rw [hspec', ← hstart, ← hend, ← hoffsets]
  exact ⟨hoffsets ▸ hdaily, hfunding⟩

/-- A validated pack leaves a bar to decide and one to hold. -/
theorem Checked.barsTotal_returns (c : Checked ext sha limits directory)
    (hload : loadPack sha limits verifyIntegrity directory = .ok pack)
    (hgrid : ∀ market ∈ pack.markets, OnGrid pack market.2) : Returns pack.barsTotal := by
  have hl := loadPack_loaded hload
  obtain ⟨hstart, hend, hbar, -⟩ := hl.window_eq c.toValidated
  obtain ⟨warmup, hwarmup, p, -, n, hn, hleft⟩ := c.actionable
  obtain rfl : warmup = pack.warmupBars :=
    HasInt.unique (hl.manifest_eq c.toValidated ▸ hwarmup) hl.warmup
  simp only [validateInterval, bind_ok_iff, pure_eq_ok, Except.ok.injEq] at hn
  obtain ⟨trade, -, mark, -, index, -, indexTs, -, markTs, -, tradeTs, htrade, _, hvalid, _, -, rfl⟩ :=
    hn
  simp only [validateBarGrid, bind_ok_iff, require_eq_ok] at hvalid
  obtain ⟨-, -, -, -, hrange⟩ := hvalid
  obtain ⟨market, hmarket, hshortest⟩ := shortest_mem pack.markets_ne_nil
  have hlength : trade.rows.length = market.2.trade.length := by
    rw [← (validateBarRows_eq_ok htrade).1, hrange, hstart, hend, hbar,
      ← (hgrid market hmarket).trade_ts, List.length_map]
  exact ⟨trade.rows.length - pack.warmupBars - 1, barsTotal_eq_ok.mpr (by omega)⟩

/-! ## The clocks of a turn -/

/-- What a turn of a market finds on its clock: the row that closes there, and the rows that open
there. -/
structure Aligned (pack : PackData) (market : MarketData) (turn : ℕ) (clockTs : ℤ) : Prop where
  closing : ∃ row, market.trade[pack.warmupBars + turn]? = some row ∧ row.availableAt = clockTs
  trade_fill : ∃ row, market.trade[pack.warmupBars + turn + 1]? = some row ∧ row.ts = clockTs
  mark_fill : ∃ row, market.mark[pack.warmupBars + turn + 1]? = some row ∧ row.ts = clockTs
  index_fill : ∃ row, market.index[pack.warmupBars + turn + 1]? = some row ∧ row.ts = clockTs

theorem OnGrid.aligned_at {market : MarketData} (h : OnGrid pack market)
    (hmarket : ∃ name, (name, market) ∈ pack.markets) {turn : ℕ} {clockTs : ℤ}
    (hts : pack.clockRealTs turn = .ok clockTs) : Aligned pack market turn clockTs := by
  obtain ⟨⟨turns, hturns, hturn⟩, rfl, -⟩ := clockRealTs_eq_ok.mp hts
  obtain ⟨-, htotal⟩ := barsTotal_eq_ok.mp hturns
  obtain ⟨name, hmem⟩ := hmarket
  have hshortest := shortest_le hmem
  simp only at hshortest
  have at_index : ∀ {rows : List BarRow} (i : ℕ), rows.length = market.trade.length →
      rows.map BarRow.ts = rangeStep pack.windowStartTs pack.windowEndTs pack.decisionBarMs →
      i ≤ pack.warmupBars + turn + 1 → ∃ row, rows[i]? = some row ∧
        row.ts = pack.windowStartTs + i * pack.decisionBarMs := by
    intro rows i hlength hrange hi
    have hlt : i < rows.length := by omega
    refine ⟨rows[i], List.getElem?_eq_getElem hlt, ?_⟩
    refine @rangeStep_getElem _ pack.windowEndTs _ _ _ ?_
    rw [← hrange, List.getElem?_map, List.getElem?_eq_getElem hlt]
    rfl
  obtain ⟨row, hrow, hrowTs⟩ := at_index _ rfl h.trade_ts (Nat.le_succ (pack.warmupBars + turn))
  have fill : ∀ {rows : List BarRow}, rows.length = market.trade.length →
      rows.map BarRow.ts = rangeStep pack.windowStartTs pack.windowEndTs pack.decisionBarMs →
      ∃ row, rows[pack.warmupBars + turn + 1]? = some row ∧
        row.ts = pack.windowStartTs + (pack.warmupBars + turn + 1) * pack.decisionBarMs := by
    intro rows hlength hrange
    obtain ⟨row, hrow, hts⟩ := at_index _ hlength hrange le_rfl
    exact ⟨row, hrow, by rw [hts]; push_cast; rfl⟩
  exact {
    closing := ⟨row, hrow, by
      rw [h.trade_available row (List.mem_of_getElem? hrow), hrowTs]
      push_cast
      ring⟩
    trade_fill := fill rfl h.trade_ts
    mark_fill := fill market.mark_length (market.mark_ts.trans h.trade_ts)
    index_fill := fill market.index_length (market.index_ts.trans h.trade_ts) }

/-- The settlement an observation announces for a market. -/
theorem announced_settlement {config : EpisodeConfig} {episodeId : Text} {turn : ℕ}
    {account : AccountState} {positions : List (Text × PositionState)} {risk : RiskState}
    {build : ObservationBuild} {clockTs : ℤ} (hts : pack.clockRealTs turn = .ok clockTs)
    (h : buildObservation pack config episodeId turn account positions risk = .ok build) :
    ∀ view ∈ build.document.markets, ∃ market, pack.market view.1 = .ok market ∧
      Observe.nextSettlementRealTs clockTs market.spec.funding.settlementOffsetsMs =
        .ok (view.2.funding.nextSettlementTs + build.rebaseOffsetMs) := by
  simp only [buildObservation, bind_ok_iff, pure_eq_ok, Except.ok.injEq] at h
  obtain ⟨_, -, _, -, _, -, _, -, effective, -, _, -, realTs, hreal, clock, hclock, builds, hbuilds,
    _, -, _, -, rfl⟩ := h
  obtain rfl : realTs = clockTs := Except.ok.inj (hreal.symm.trans hts)
  obtain rfl : clock.realTs = realTs := by
    simp only [VirtualClock.forWindow, bind_ok_iff] at hclock
    obtain ⟨offset, -, hclock⟩ := hclock
    split at hclock
    · obtain rfl := Except.ok.inj hclock
      rfl
    · cases hclock
  intro view hview
  obtain ⟨⟨name, marketBuild⟩, hmem, rfl⟩ := List.mem_map.mp hview
  obtain ⟨name', -, hbuild⟩ := mapM_mem hbuilds hmem
  simp only [Observe.marketBuild, bind_ok_iff, pure_eq_ok, Except.ok.injEq, Prod.mk.injEq] at hbuild
  obtain ⟨market, hmarket, doc, hdoc, _, -, rfl, rfl⟩ := hbuild
  simp only [Observe.marketDocument, bind_ok_iff, pure_eq_ok, Except.ok.injEq] at hdoc
  obtain ⟨_, -, _, -, _, -, next, hnext, _, -, rebased, hrebased, _, -, rfl⟩ := hdoc
  refine ⟨market, hmarket, ?_⟩
  simp only [rebaseTimestamp, bind_ok_iff, pure_eq_ok, Except.ok.injEq] at hrebased
  obtain ⟨_, -, _, -, _, -, rfl⟩ := hrebased
  rw [hnext]
  exact congrArg _ (sub_add_cancel _ _).symm

/-- **Clocks of a validated pack.** A directory that validation accepts is loaded. At every turn of
the pack the scheduled close is the availability of the last row and the open of the next one, which
is there in all three price series and not beyond the window; and the settlement that an observation
of the turn announces is the next one of the series, as long as one is left. -/
theorem validated_pack_loads (hext : SchemaLawful ext)
    (hvalid : Returns (validatePack ext sha limits directory)) (verifyIntegrity : Bool) :
    ∃ pack, loadPack sha limits verifyIntegrity directory = .ok pack ∧
      ∃ turns, pack.barsTotal = .ok turns ∧ ∀ turn < turns, ∃ clockTs,
        pack.clockRealTs turn = .ok clockTs ∧ clockTs ≤ pack.windowEndTs ∧
        (∀ market ∈ pack.markets, Aligned pack market.2 turn clockTs) ∧
        ∀ config episodeId account positions risk build,
          buildObservation pack config episodeId turn account positions risk = .ok build →
          ∀ view ∈ build.document.markets, ∃ market, pack.market view.1 = .ok market ∧
            ∀ row ∈ market.funding, clockTs < row.ts →
              (∀ r ∈ market.funding, clockTs < r.ts → row.ts ≤ r.ts) →
              view.2.funding.nextSettlementTs + build.rebaseOffsetMs = row.ts := by
  obtain ⟨c⟩ := validatePack_checked hvalid
  obtain ⟨pack, hload⟩ := @Checked.loadPack_returns _ _ _ _ verifyIntegrity c hext
  have hgrid := loadPack_onGrid hload hvalid
  obtain ⟨turns, hturns⟩ := c.barsTotal_returns hload hgrid
  refine ⟨pack, hload, turns, hturns, fun turn hturn => ?_⟩
  obtain ⟨clockTs, hts⟩ := clockRealTs_returns hgrid hturns hturn
  refine ⟨clockTs, hts, (clockRealTs_eq_ok.mp hts).2.2,
    fun market hmarket => (hgrid market hmarket).aligned_at ⟨market.1, hmarket⟩ hts, ?_⟩
  intro config episodeId account positions risk build hbuild view hview
  obtain ⟨market, hmarket, hnext⟩ := announced_settlement hts hbuild view hview
  refine ⟨market, hmarket, fun row hrow hafter hleast => ?_⟩
  obtain ⟨hdaily, hfunding⟩ := c.schedule hext hload _ (PackData.market_mem hmarket)
  obtain ⟨hscheduled, hahead, hnearest⟩ := nextSettlementRealTs_next hdaily hnext
  have stamp : ∀ ts, ts ∈ market.funding.map FundingRow.ts ↔ _ := fun ts =>
    hfunding ▸ mem_expectedFundingTimestamps hdaily
  obtain ⟨hrowScheduled, -, hbefore⟩ := (stamp row.ts).mp (List.mem_map_of_mem hrow)
  have hle := hnearest row.ts hrowScheduled hafter
  -- the announced stamp lies in the window, so there is a row for it
  have hstart : pack.windowStartTs ≤ clockTs := by
    obtain ⟨-, rfl, -⟩ := clockRealTs_eq_ok.mp hts
    have := pack.decision_bar_pos
    have : (0 : ℤ) ≤ (pack.warmupBars + turn + 1) * pack.decisionBarMs := by positivity
    omega
  obtain ⟨r, hr, hrts⟩ := List.mem_map.mp ((stamp _).mpr ⟨hscheduled, by omega, by omega⟩)
  have := hleast r hr (hrts ▸ hahead)
  omega

end Accepted

/-! ## A directory that is accepted -/

/-- An engine that checks the schemas as they are written. -/
def checkingExternals : Externals :=
  { scenarioExternals with
    schemaValid := fun name value =>
      (packSchemas.find? fun s => txt s.1 = name).any fun s => Schema.check packDefs 12 s.2 value }

theorem checkingExternals_lawful : SchemaLawful checkingExternals := by
  intro s hs v h
  have hfind : packSchemas.find? (fun t => txt t.1 = txt s.1) = some s := by
    simp only [packSchemas, List.mem_cons, List.not_mem_nil, or_false] at hs
    rcases hs with rfl | rfl | rfl <;> simp [packSchemas]
  simp only [checkingExternals, hfind, Option.any_some] at h
  exact Schema.valid_of_check h

theorem surge_clocks : ∃ pack turns, loadPack Scenario.sha Scenario.limits false
    Scenario.surge.directory = .ok pack ∧ pack.barsTotal = .ok turns := by
  obtain ⟨pack, hload, turns, hturns, -⟩ := validated_pack_loads checkingExternals_lawful
    (show Returns (validatePack checkingExternals Scenario.sha Scenario.limits
      Scenario.surge.directory) by decide +kernel) false
  exact ⟨pack, turns, hload, hturns⟩

end WagmiBench.Data
