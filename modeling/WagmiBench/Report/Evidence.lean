import WagmiBench.Lib.Json
import WagmiBench.Lib.Outcome

/-!
# Evidence of a bundle

What `report/generator.py` holds of a COMPLETE bundle, as far as comparisons and scores read it, the
typed readers of its members and the texts it makes of numbers.
-/

namespace WagmiBench.Report

open WagmiBench.Lib

/-- Results of report code: what is raised is the message of a `ReportError`. -/
abbrev Reported := Except Text

/-- The parts of Python's text handling that rest on Unicode tables. -/
structure TextHandling where
  /-- `str.upper` -/
  upper : Text → Text
  /-- `repr` of a string. -/
  repr : Text → Text

/-- The cost profiles, in the order of `_PROFILE_ORDER`. -/
inductive CostProfile where
  | primary
  | stress2x
  deriving DecidableEq, Repr

def CostProfile.name : CostProfile → Text
  | primary => txt "primary"
  | stress2x => txt "stress_2x"

/-- `_Evidence` -/
structure Evidence where
  bundleRoot : Text
  manifest : List (Text × Json)
  agentManifest : List (Text × Json)
  profiles : CostProfile → List (Text × Json)
  invariant : List (Text × Json)
  decisions : List (List (Text × Json))

/-! ## Typed readers -/

/-- `_as_object` -/
def asObject (value : Option Json) (context : Text) : Reported (List (Text × Json)) :=
  match value with
  | some (.obj members) => .ok members
  | _ => .error (context ++ txt " must be an object")

/-- `_as_list` -/
def asList (value : Option Json) (context : Text) : Reported (List Json) :=
  match value with
  | some (.arr items) => .ok items
  | _ => .error (context ++ txt " must be an array")

/-- `_as_str` -/
def asStr (value : Option Json) (context : Text) : Reported Text :=
  match value with
  | some (.str s) => .ok s
  | _ => .error (context ++ txt " must be a string")

/-- `_as_int` -/
def asInt (value : Option Json) (context : Text) : Reported ℤ :=
  match value with
  | some (.int n) => .ok n
  | _ => .error (context ++ txt " must be an integer")

/-! ## Numbers as texts -/

/-- Decimal digits, with zeros in front up to a width. -/
def padded (places n : ℕ) : Text :=
  List.replicate (places - (decimal n).length) (codePoint 0x30) ++ decimal n

/-- `_fixed` -/
def fixed (value : ℤ) (scale places : ℕ) : Text :=
  let sign := if value < 0 then txt "-" else []
  let whole := value.natAbs / scale
  let remainder := value.natAbs % scale
  if places = 0 then sign ++ decimal whole
  else sign ++ decimal whole ++ txt "." ++ padded places (remainder * 10 ^ places / scale)

/-- `_percent`, of a value that is there. -/
def percent (value : ℤ) (signed : Bool) : Text :=
  (if signed ∧ 0 < value then txt "+" else []) ++ fixed (value * 100) 100_000_000 4 ++ txt "%"

/-- `_ratio` -/
def ratio (value : ℤ) : Text := fixed value 100_000_000 4

/-! ## What a bundle says about itself -/

/-- `_pack_id` -/
def packId (evidence : Evidence) : Reported Text := do
  let pack ← asObject (Json.lookup (txt "pack") evidence.manifest) (txt "manifest.pack")
  asStr (Json.lookup (txt "pack_id") pack) (txt "manifest.pack.pack_id")

/-- `_agent_label` -/
def agentLabel (evidence : Evidence) : Reported Text := do
  let name ← asStr (Json.lookup (txt "name") evidence.agentManifest) (txt "agent_manifest.name")
  let model ← asStr (Json.lookup (txt "model_id") evidence.agentManifest)
    (txt "agent_manifest.model_id")
  return name ++ txt " (" ++ model ++ txt ")"

/-- `metrics.profile_invariant.survival_verdict` -/
def survivalVerdict (evidence : Evidence) : Reported Text :=
  asStr (Json.lookup (txt "survival_verdict") evidence.invariant)
    (txt "metrics.profile_invariant.survival_verdict")

/-- What one decision adds to the counts of executions. -/
def executions (decision : List (Text × Json) × ℕ) : Reported (ℕ × ℕ) := do
  let context := txt "decision " ++ decimal decision.2 ++ txt ".happened"
  let happened ← asObject (Json.lookup (txt "happened") decision.1) context
  let fills ← asList (Json.lookup (txt "fills") happened) (context ++ txt ".fills")
  let cancels ← asList (Json.lookup (txt "cancels") happened) (context ++ txt ".cancels")
  return (fills.length, cancels.length)

/-- `_execution_counts` -/
def executionCounts (evidence : Evidence) : Reported (ℕ × ℕ) := do
  let counts ← evidence.decisions.zipIdx.mapM executions
  return ((counts.map Prod.fst).sum, (counts.map Prod.snd).sum)

section Verdict

variable (texts : TextHandling)

/-- `_verdict` -/
def verdict (evidence : Evidence) : Reported Text := do
  let value ← survivalVerdict evidence
  return texts.upper (value.map fun c => if c = codePoint 0x5F then codePoint 0x20 else c)

/-- `_is_flat_hold` -/
def isFlatHold (evidence : Evidence) : Reported Bool := do
  let (fills, _) ← executionCounts evidence
  if fills = 0 then
    let verdict ← verdict texts evidence
    return verdict = txt "SURVIVED"
  return false

/-- `_display_verdict` -/
def displayVerdict (evidence : Evidence) : Reported Text := do
  let verdict ← verdict texts evidence
  let flat ← isFlatHold texts evidence
  return if flat then verdict ++ txt " — FLAT-HOLD" else verdict

end Verdict

end WagmiBench.Report
