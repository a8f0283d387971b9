import Mathlib.Data.List.DropRight
import WagmiBench.Core.ActionLanguage
import WagmiBench.Core.Engine.Decision

/-!
# The constant-target baseline

`ConstantTargetAgent` of `harness/scripted.py`: an agent that answers every request with the same
bytes. What the engine makes of them does not depend on the turn: either every turn has the same
action, or none has one.
-/

namespace WagmiBench.Harness

open WagmiBench.Lib WagmiBench.Core WagmiBench.Spec

/-! ## The agent -/

/-- `.rstrip("0")` -/
def rstripZeros (digits : Text) : Text := digits.rdropWhile fun c => c.val = 0x30

/-- The digits behind the point of a target, if there are any. -/
def leverageFraction (targetLev1e4 : ℤ) : Option Text :=
  if targetLev1e4.natAbs % 10_000 = 0 then none
  else some (rstripZeros (decimalPad 4 (targetLev1e4.natAbs % 10_000)))

/-- `_leverage_string` -/
def leverageString (targetLev1e4 : ℤ) : Text :=
  Sign.text (if targetLev1e4 < 0 then some .minus else none) ++
    decimal (targetLev1e4.natAbs / 10_000) ++
      DecimalText.fractionText (leverageFraction targetLev1e4)

/-- `ConstantTargetAgent` -/
structure ConstantTargetAgent where
  targetLev1e4 : ℤ
  market : Text

namespace ConstantTargetAgent

variable (baseline : ConstantTargetAgent)

/-- The action it restates. -/
def action : List (Text × Json) :=
  [(txt "schema", .str (txt "action/v1")),
   (txt "intent_kind", .str (txt "leverage_target")),
   (txt "target", .obj [(baseline.market, .str (leverageString baseline.targetLev1e4))]),
   (txt "comment", .str (txt "constant-target baseline"))]

/-- `ConstantTargetAgent.decide` -/
def agent : Agent Unit where
  decide s _ :=
    match canonicalBytes (.obj baseline.action) with
    | .ok body => (.reply ⟨body, 0, none, txt "in_process"⟩, s)
    | .error _ => (.raised (txt "CanonicalizationError"), s)
  drain := none

end ConstantTargetAgent

/-! ## What its action says -/

theorem decimalPad_four {n : ℕ} (h : n < 10_000) :
    (decimalPad 4 n).length = 4 ∧ ofDecimal (decimalPad 4 n) = n := by
  have hlength : (decimal n).length ≤ 4 := decimal_length_le (by decide) (by omega)
  refine ⟨?_, ?_⟩
  · simp [decimalPad]
    omega
  · rw [decimalPad, ofDecimal_append, ofDecimal_zeros, ofDecimal_decimal]
    omega

/-- Zeros dropped at the end and filled in again. -/
theorem rstripZeros_fill (digits : Text) :
    rstripZeros digits ++
      List.replicate (digits.length - (rstripZeros digits).length) (codePoint 0x30) = digits := by
  induction digits using List.reverseRecOn with
  | nil => simp [rstripZeros]
  | append_singleton digits c ih =>
    by_cases hc : c.val = 0x30
    · have hzero : c = codePoint 0x30 := by rw [← codePoint_of_val c, hc]
      have hle : (rstripZeros digits).length ≤ digits.length :=
        (List.rdropWhile_prefix _ (l := digits)).length_le
      have hstrip : rstripZeros (digits ++ [c]) = rstripZeros digits :=
        List.rdropWhile_concat_pos _ _ _ (decide_eq_true hc)
      rw [hstrip, List.length_append, List.length_singleton, Nat.sub_add_comm hle,
        List.replicate_succ', ← List.append_assoc, ih, hzero]
    · have hstrip : rstripZeros (digits ++ [c]) = digits ++ [c] :=
        List.rdropWhile_concat_neg _ _ _ (by simpa using hc)
      rw [hstrip, Nat.sub_self, List.replicate_zero, List.append_nil]

/-- Filled up to four digits, the digits behind the point spell the fraction. -/
theorem leverageFraction_fill (target : ℤ) :
    ofDecimal ((leverageFraction target).getD [] ++
      List.replicate (4 - ((leverageFraction target).getD []).length) (codePoint 0x30)) =
        target.natAbs % 10_000 := by
  unfold leverageFraction
  split
  · rename_i hzero
    rw [hzero]
    decide
  · obtain ⟨hlength, hvalue⟩ := decimalPad_four (Nat.mod_lt target.natAbs (by decide : 0 < 10_000))
    have hfill := rstripZeros_fill (decimalPad 4 (target.natAbs % 10_000))
    rw [hlength] at hfill
    rw [Option.getD_some, hfill, hvalue]

/-- Where the text of a target is read at all, the target is read. -/
theorem parseDecimalTarget_leverageString {target units : ℤ}
    (h : parseDecimalTarget (leverageString target) = some units) : units = target := by
  have hdots : ∀ c ∈ decimal (target.natAbs / 10_000), c.val ≠ 0x2E := by
    intro c hc hdot
    have := isDigit_of_mem_decimal hc
    simp [isDigit, hdot] at this
  have hsplit := splitDot_append hdots (leverageFraction target)
  have hunits : targetUnits (decimal (target.natAbs / 10_000)) (leverageFraction target) =
      target.natAbs := by
    rw [targetUnits, leverageFraction_fill target, ofDecimal_decimal]
    push_cast
    omega
  by_cases hneg : target < 0
  · rw [leverageString, if_pos hneg, Sign.text, List.append_assoc, List.singleton_append,
      parseDecimalTarget] at h
    simp only [List.head?_cons, List.drop_one, List.tail_cons, if_true, hsplit] at h
    split at h
    · have := Option.some.inj h
      rw [targetUnits] at hunits
      omega
    · cases h
  · rw [leverageString, if_neg hneg, Sign.text, List.nil_append, parseDecimalTarget] at h
    have hhead : (decimal (target.natAbs / 10_000) ++
        DecimalText.fractionText (leverageFraction target)).head? ≠ some (codePoint 0x2D) := by
      obtain ⟨c, digits, hcons, hdigit, -⟩ := decimal_eq_cons (target.natAbs / 10_000)
      rw [hcons, List.cons_append, List.head?_cons]
      rintro hc
      rw [Option.some.inj hc] at hdigit
      exact absurd hdigit (by decide)
    simp only [if_neg hhead, hsplit] at h
    split at h
    · have := Option.some.inj h
      rw [targetUnits] at hunits
      omega
    · cases h

section Baseline

variable {baseline : ConstantTargetAgent}

/-- The action with its members in the order of canonical JSON. -/
def ConstantTargetAgent.sorted (baseline : ConstantTargetAgent) : List (Text × Json) :=
  [(txt "comment", .str (txt "constant-target baseline")),
   (txt "intent_kind", .str (txt "leverage_target")),
   (txt "schema", .str (txt "action/v1")),
   (txt "target", .obj [(baseline.market, .str (leverageString baseline.targetLev1e4))])]

theorem ConstantTargetAgent.normalize_action :
    (Json.obj baseline.action).normalize = .obj baseline.sorted := by
  rfl

theorem ConstantTargetAgent.lookup_sorted :
    Json.lookup (txt "target") baseline.sorted =
      some (.obj [(baseline.market, .str (leverageString baseline.targetLev1e4))]) ∧
    Json.lookup (txt "max_slippage_bps") baseline.sorted = none :=
  ⟨rfl, rfl⟩

theorem ConstantTargetAgent.distinct_action : (Json.obj baseline.action).Distinct := by
  have hkeys : Json.NodupKeys baseline.action := by
    change [txt "schema", txt "intent_kind", txt "target", txt "comment"].Nodup
    decide
  refine ⟨hkeys, ?_⟩
  simp [action, Json.Distinct, Json.DistinctMembers, Json.NodupKeys]

/-- What is accepted of its bytes is its own target, for a market that is declared. -/
theorem ConstantTargetAgent.accepted {limits : Json.Limits} {declaredMarkets : List Text}
    {body : Bytes} {attempt : ℕ} {read : ParsedAction} (hattempt : 1 ≤ attempt)
    (hbody : canonicalBytes (.obj baseline.action) = .ok body)
    (h : parseAction limits declaredMarkets body attempt = .ok (.accepted read)) :
    baseline.market ∈ declaredMarkets ∧
      read = ⟨[(baseline.market, baseline.targetLev1e4)], none, attempt⟩ := by
  have hcanonical := canonicalBytes_eq_ok.mp hbody
  obtain ⟨-, hencode⟩ := Json.canonical_eq_ok.mp hcanonical
  have hread : Json.loads limits Json.strictHooks (Json.obj baseline.action).normalize.emit =
      .ok (Json.obj baseline.action).normalize := by
    refine Json.loads_canonical Json.strictHooks_faithful (Json.canonical_isOk.mp ⟨_, hcanonical⟩)
      baseline.distinct_action ((?_ : _ ≤ 16).trans limits.depth_ge)
    simp [action, Json.depth, Json.depthMembers]
  have hlength : body.length ≤ MAX_ACTION_BYTES := by
    by_contra hlong
    rw [parseAction, readDocument, require_neg hlong] at h
    cases h
  obtain ⟨result, hresult, hvalid, hexact, -⟩ := parseAction_language hlength
    (utf8Decode_encode hencode) hread hattempt
  obtain rfl := Except.ok.inj (h.symm.trans hresult)
  obtain ⟨-, hdeclared⟩ := hvalid.mp ⟨_, rfl⟩
  obtain ⟨hattempt', document, hdocument, hexact⟩ := hexact read rfl
  rw [normalize_action] at hdocument hdeclared
  obtain rfl := Json.obj.inj hdocument
  obtain ⟨⟨target, htarget, hkeys, hvalues⟩, -, hslippage⟩ := hexact
  obtain ⟨hlookup, hnoslippage⟩ := baseline.lookup_sorted
  obtain rfl := Json.obj.inj (Option.some.inj (hlookup.symm.trans htarget))
  refine ⟨hdeclared _ hlookup _ (List.mem_singleton_self _), ?_⟩
  obtain ⟨targets, slippage, fromAttempt⟩ := read
  obtain rfl : slippage = none := by simpa [hnoslippage, eq_comm] using hslippage
  obtain rfl : fromAttempt = attempt := hattempt'
  obtain ⟨⟨alias', units⟩, rfl⟩ : ∃ t, targets = [t] := by
    rw [← List.length_eq_one_iff, ← List.length_map (f := Prod.fst), hkeys]
    rfl
  obtain rfl : alias' = baseline.market := List.singleton_inj.mp hkeys
  obtain ⟨w, q, hw, hwritten, hunits⟩ := hvalues _ (List.mem_singleton_self _)
  obtain ⟨-, rfl⟩ := Prod.mk.inj (List.mem_singleton.mp hw)
  have hparse := parseTarget_eq_ok.mpr ⟨q, hwritten, hunits⟩
  rw [parseTarget] at hparse
  split at hparse
  · rename_i parsed hparsed
    obtain rfl := Except.ok.inj hparse
    rw [parseDecimalTarget_leverageString hparsed]
  · cases hparse

/-! ## What a turn makes of it -/

/-- What is read from its bytes. -/
def ConstantTargetAgent.reading (baseline : ConstantTargetAgent) (limits : Json.Limits)
    (declaredMarkets : List Text) : Option ParsedAction :=
  match canonicalBytes (.obj baseline.action) with
  | .error _ => none
  | .ok body =>
    match parseAction limits declaredMarkets body 1 with
    | .ok (.accepted read) => some read
    | _ => none

variable {limits : Json.Limits} {declaredMarkets : List Text}

theorem ConstantTargetAgent.reading_eq_some {read : ParsedAction}
    (h : baseline.reading limits declaredMarkets = some read) :
    baseline.market ∈ declaredMarkets ∧
      read = ⟨[(baseline.market, baseline.targetLev1e4)], none, 1⟩ := by
  unfold reading at h
  split at h
  · cases h
  · rename_i body hbody
    split at h
    · rename_i read' haccepted
      obtain rfl := Option.some.inj h
      exact baseline.accepted le_rfl hbody haccepted
    · cases h

/-- A body is refused in every attempt, or in none. -/
theorem parseAction_rejected {body : Bytes} {n m : ℕ} {reason : ActionReason} (hn : 1 ≤ n)
    (h : parseAction limits declaredMarkets body n = .ok (.rejected reason)) :
    parseAction limits declaredMarkets body m = .ok (.rejected reason) := by
  unfold parseAction at h ⊢
  split at h
  · exact h
  · rw [require_pos hn] at h
    cases h

variable {sha : Sha256} {observation : Observation} {config : EpisodeConfig}

/-- An attempt decides its turn by what is read, or fails to read anything. -/
theorem ConstantTargetAgent.requestAttempt_reading {attempt : ℕ}
    {firstFailure : Option FirstFailure} {responses responses' : List AgentReply}
    {facts facts' : List BlockFact} {s s' : Unit} {outcome : AttemptOutcome}
    (hattempt : attempt = 1 ∨ baseline.reading limits declaredMarkets = none)
    (hpos : 1 ≤ attempt)
    (h : requestAttempt sha limits baseline.agent observation config declaredMarkets attempt
      firstFailure responses facts s = .ok (outcome, responses', facts', s')) :
    (∀ decision, outcome = .decided decision →
      decision.parsed = baseline.reading limits declaredMarkets) ∧
    ∀ failure, outcome = .retry failure → baseline.reading limits declaredMarkets = none := by
  cases hbody : canonicalBytes (.obj baseline.action) with
  | error e =>
    have hnone : baseline.reading limits declaredMarkets = none := by rw [reading, hbody]
    simp only [requestAttempt, agent, hbody, drainHarnessEvents, ok_bind, pure_eq_ok,
      Except.ok.injEq, Prod.mk.injEq] at h
    obtain ⟨rfl, -⟩ := h
    refine ⟨fun decision hdecision => ?_, fun failure hfailure => (by cases hfailure)⟩
    obtain rfl := AttemptOutcome.decided.inj hdecision
    exact hnone.symm
  | ok body =>
    simp only [requestAttempt, agent, hbody, drainHarnessEvents, ok_bind, interpretReply,
      Option.mem_def, reduceCtorEq, false_and, exists_false, if_false, bind_ok_iff] at h
    obtain ⟨result, hresult, h⟩ := h
    have hreading : baseline.reading limits declaredMarkets =
        match parseAction limits declaredMarkets body 1 with
        | .ok (.accepted read) => some read
        | _ => none := by
      rw [reading, hbody]
    cases result with
    | accepted read =>
      simp only [pure_eq_ok, Except.ok.injEq, Prod.mk.injEq] at h
      obtain ⟨rfl, -⟩ := h
      refine ⟨fun decision hdecision => ?_, fun failure hfailure => (by cases hfailure)⟩
      obtain rfl := AttemptOutcome.decided.inj hdecision
      rcases hattempt with rfl | hnone
      · rw [hresult] at hreading
        exact hreading.symm
      · exfalso
        cases hfirst : parseAction limits declaredMarkets body 1 with
        | error e =>
          obtain ⟨_, hreturns⟩ := parseAction_returns limits declaredMarkets body le_rfl
          rw [hfirst] at hreturns
          cases hreturns
        | ok first =>
          rw [hfirst] at hreading
          cases first with
          | accepted _ => rw [hnone] at hreading; cases hreading
          | rejected reason =>
            rw [parseAction_rejected le_rfl hfirst] at hresult
            cases hresult
    | rejected reason =>
      rw [parseAction_rejected hpos hresult] at hreading
      by_cases hretry : attempt = 1 ∧ config.parseFailureRetries ≠ 0
      · simp only [if_pos hretry, pure_eq_ok, Except.ok.injEq, Prod.mk.injEq] at h
        obtain ⟨rfl, -⟩ := h
        exact ⟨fun decision hdecision => (by cases hdecision), fun _ _ => hreading⟩
      · simp only [if_neg hretry, pure_eq_ok, Except.ok.injEq, Prod.mk.injEq] at h
        obtain ⟨rfl, -⟩ := h
        refine ⟨fun decision hdecision => ?_, fun failure hfailure => (by cases hfailure)⟩
        obtain rfl := AttemptOutcome.decided.inj hdecision
        exact hreading.symm

/-- **The restated action.** Every turn is decided by what is read from the same bytes. -/
theorem ConstantTargetAgent.requestDecision_reading {s s' : Unit} {decision : TurnDecision}
    (h : requestDecision sha limits baseline.agent observation config declaredMarkets s =
      .ok (decision, s')) : decision.parsed = baseline.reading limits declaredMarkets := by
  simp only [requestDecision, bind_ok_iff] at h
  obtain ⟨⟨first, responses, facts, _⟩, hfirst, h⟩ := h
  have read := requestAttempt_reading (.inl rfl) le_rfl hfirst
  cases first with
  | decided decision' =>
    simp only [pure_eq_ok, Except.ok.injEq, Prod.mk.injEq] at h
    rw [← h.1]
    exact read.1 _ rfl
  | retry failure =>
    simp only [bind_ok_iff] at h
    obtain ⟨⟨second, _⟩, hsecond, h⟩ := h
    have read' := requestAttempt_reading (.inr (read.2 _ rfl)) (by decide) hsecond
    cases second with
    | decided decision' =>
      simp only [pure_eq_ok, Except.ok.injEq, Prod.mk.injEq] at h
      rw [← h.1]
      exact read'.1 _ rfl
    | retry _ => cases h

end Baseline

end WagmiBench.Harness
