import WagmiBench.Lib.Raises
import WagmiBench.Report.Evidence

/-!
# Comparisons

`report/compare.py`: the rows of a comparison, and the tier each of them is assigned among the
surviving baselines of its pack group.
-/

namespace WagmiBench.Report

open WagmiBench.Lib

/-- `ComparisonRow` -/
structure ComparisonRow where
  pack : Text
  agent : Text
  verdict : Text
  tier : Text
  fills : ℕ
  maxDdPrimary : Text
  maxDdStress2x : Text
  turnoverPrimary : Text
  netReturnPrimary : Text
  netReturnStress2x : Text
  netReturnPrimary1e8 : ℤ
  netReturnStress2x1e8 : ℤ
  survivalVerdict : Text
  isBaseline : Bool
  bundleRoot : Text
  deriving DecidableEq

abbrev UNTIERED : Text := txt "—"
abbrev GMI : Text := txt "GMI"
abbrev NGMI : Text := txt "NGMI"

/-! ## Rows -/

/-- `_metric` -/
def metric (evidence : Evidence) (profile : CostProfile) (field : String) : Reported ℤ :=
  asInt (Json.lookup (txt field) (evidence.profiles profile))
    (txt "metrics.profiles." ++ profile.name ++ txt "." ++ txt field)

/-- `_is_baseline` -/
def isBaseline (evidence : Evidence) : Bool :=
  match Json.lookup (txt "inference_params") evidence.agentManifest with
  | some (.obj params) => Json.lookup (txt "policy") params = some (.str (txt "constant-target"))
  | _ => false

/-- `_row` -/
def row (texts : TextHandling) (evidence : Evidence) : Reported ComparisonRow := do
  let (fills, _) ← executionCounts evidence
  let survival ← survivalVerdict evidence
  let pack ← packId evidence
  let agent ← agentLabel evidence
  let verdict ← displayVerdict texts evidence
  let maxDdPrimary ← metric evidence .primary "max_drawdown_1e8"
  let maxDdStress2x ← metric evidence .stress2x "max_drawdown_1e8"
  let turnoverPrimary ← metric evidence .primary "turnover_1e8"
  let netReturnPrimary ← metric evidence .primary "net_return_1e8"
  let netReturnStress2x ← metric evidence .stress2x "net_return_1e8"
  return {
    pack
    agent
    verdict
    tier := UNTIERED
    fills
    maxDdPrimary := percent maxDdPrimary false
    maxDdStress2x := percent maxDdStress2x false
    turnoverPrimary := ratio turnoverPrimary ++ txt "x"
    netReturnPrimary := percent netReturnPrimary true
    netReturnStress2x := percent netReturnStress2x true
    netReturnPrimary1e8 := netReturnPrimary
    netReturnStress2x1e8 := netReturnStress2x
    survivalVerdict := survival
    isBaseline := isBaseline evidence
    bundleRoot := evidence.bundleRoot }

/-! ## Tiers -/

/-- What a comparison collects about the baselines: the packs that have some, and the returns of
those that survived. -/
structure Baselines where
  packs : List Text
  returns : Text → List (ℤ × ℤ)

/-- One baseline's share. -/
def Baselines.add (baselines : Baselines) (row : ComparisonRow) : Baselines :=
  if row.isBaseline then
    { packs := row.pack :: baselines.packs
      returns :=
        if row.survivalVerdict = txt "survived" then
          Function.update baselines.returns row.pack
            (baselines.returns row.pack ++ [(row.netReturnPrimary1e8, row.netReturnStress2x1e8)])
        else baselines.returns }
  else baselines

def collectBaselines (rows : List ComparisonRow) : Baselines :=
  rows.foldl Baselines.add ⟨[], fun _ => []⟩

section Tiers

variable (texts : TextHandling)

/-- `assign_tier` -/
def assignTier (survivalVerdict : Text) (fills : ℕ) (isBaseline : Bool)
    (netReturnPrimary1e8 netReturnStress2x1e8 : ℤ) (survivingBaselineReturns : List (ℤ × ℤ))
    (hasBaselines : Bool) : Reported Text := do
  if isBaseline then
    return UNTIERED
  if survivalVerdict = txt "liquidated" ∨ survivalVerdict = txt "killed_flat" then
    return NGMI
  require (survivalVerdict = txt "survived")
    (txt "unknown survival verdict " ++ texts.repr survivalVerdict ++ txt " while tiering")
  if fills = 0 ∨ ¬ hasBaselines then
    return UNTIERED
  let beatsPrimary := survivingBaselineReturns.all fun r => r.1 < netReturnPrimary1e8
  let beatsStress := survivingBaselineReturns.all fun r => r.2 < netReturnStress2x1e8
  return if beatsPrimary && beatsStress then GMI else UNTIERED

/-- The tier of a row among the baselines that were collected. -/
def tierAmong (baselines : Baselines) (row : ComparisonRow) : Reported Text :=
  assignTier texts row.survivalVerdict row.fills row.isBaseline row.netReturnPrimary1e8
    row.netReturnStress2x1e8 (baselines.returns row.pack) (row.pack ∈ baselines.packs)

def tiered (baselines : Baselines) (row : ComparisonRow) : Reported ComparisonRow := do
  let tier ← tierAmong texts baselines row
  return { row with tier }

end Tiers

section Comparison

variable {Path : Type} (texts : TextHandling) (load : Path → Reported Evidence)

/-- `load_comparison_rows`, on top of `_load_evidence`. -/
def loadComparisonRows (bundleDirs : List Path) : Reported (List ComparisonRow) := do
  require (2 ≤ bundleDirs.length)
    (txt "a comparison needs at least two bundles (a candidate and a baseline on the same pack)")
  let rows ← bundleDirs.mapM fun dir => do
    let evidence ← load dir
    row texts evidence
  rows.mapM (tiered texts (collectBaselines rows))

end Comparison

end WagmiBench.Report
