import WagmiBench.Core.Action
import WagmiBench.Lib.DecimalText
import WagmiBench.Lib.JsonSchema
import WagmiBench.Lib.Pattern

/-!
# `action/v1`

`spec/schemas/action.v1.schema.json` as a schema, and its two patterns against the hand-written
readers of `core/action.py`: the market aliases, and the decimal texts a target is written as.
-/

namespace WagmiBench.Core

open WagmiBench.Lib
open RegularExpression (char add_rmatch_iff char_rmatch_iff mul_rmatch_iff)
open Pattern (charRange oneOf optional between)

/-! ## The schema -/

abbrev digits : Text := charRange '0' '9'

/-- `^[A-Z0-9]{1,12}$` -/
def aliasPattern : Pattern := between (oneOf (charRange 'A' 'Z' ++ digits)) 1 12

/-- `^-?(0|[1-9][0-9]{0,2})(\.[0-9]{1,4})?$` -/
def targetPattern : Pattern :=
  optional (char minusChar) *
    ((char (codePoint 0x30) + oneOf (charRange '1' '9') * between (oneOf digits) 0 2) *
      optional (char pointChar * between (oneOf digits) 1 4))

/-- No constraint. -/
def ANY : Json.Schema := .all []

/-- A target value without its bounds. -/
def TARGET_FORMAT : Json.Schema := .anyOf [.string targetPattern.rmatch, .integer none none]

/-- A target value. -/
def TARGET_VALUE : Json.Schema :=
  .anyOf [.string targetPattern.rmatch, .integer (some (-999)) (some 999)]

def SLIPPAGE : Json.Schema := .integer (some 0) (some 10_000)

/-- `if: properties: intent_kind: const: leverage_target` -/
def tradingIntent (document : List (Text × Json)) : Bool :=
  match Json.lookup (txt "intent_kind") document with
  | none => true
  | some intent => intent = .str (txt "leverage_target")

/-- The schema of a document, by the schemas of a target value and of the slippage bound. -/
def actionSchema (targetValue slippage : Json.Schema) : Json.Schema :=
  .all [
    .object ["schema"] [
      ("schema", .enum [.str (txt "action/v1")]),
      ("intent_kind", .enum [.str (txt "leverage_target")]),
      ("target", .all [.propertyCount 1 (some 16), .propertyNames aliasPattern.rmatch,
        .object [] [] (some targetValue)]),
      ("max_slippage_bps", slippage),
      ("comment", .string fun comment => comment.length ≤ 2000),
      ("usage", .object []
        [("input_tokens", .integer (some 0) none), ("output_tokens", .integer (some 0) none)] none),
      ("ext", .object [] [] (some (.ref "ext_value")))] none,
    .ifThen tradingIntent fun document => (Json.lookup (txt "target") document).isSome]

def ACTION_V1 : Json.Schema := actionSchema TARGET_VALUE SLIPPAGE

/-- `$defs` -/
def actionDefs : String → Json.Schema
  | "ext_value" => .anyOf [.null, .boolean, .string fun _ => true,
      .integer (some (-MAX_EXACT_JSON_INT)) (some MAX_EXACT_JSON_INT),
      .array 0 (.ref "ext_value"), .object [] [] (some (.ref "ext_value"))]
  | _ => .anyOf []

/-! ## Market aliases -/

theorem mem_digits {c : CodePoint} : c ∈ digits ↔ isDigit c = true := by
  rw [Pattern.mem_charRange]
  simp [isDigit]

theorem aliasPattern_rmatch_iff {t : Text} : aliasPattern.rmatch t ↔ isMarketAlias t = true := by
  have hclass : ∀ c : CodePoint, c ∈ charRange 'A' 'Z' ++ digits ↔
      (isDigit c || (decide (0x41 ≤ c.val) && decide (c.val ≤ 0x5A))) = true := by
    intro c
    rw [List.mem_append, Pattern.mem_charRange, mem_digits]
    simp [or_comm]
  rw [aliasPattern, Pattern.between_oneOf_rmatch_iff (by omega)]
  simp only [hclass, isMarketAlias, Bool.and_eq_true, decide_eq_true_eq, List.all_eq_true,
    Nat.one_le_iff_ne_zero, ne_eq, List.length_eq_zero_iff]

/-! ## Decimal targets -/

/-- What a target text is: an optional minus, at most three digits without a leading zero, and up to
four digits behind a point. -/
structure IsTarget (d : DecimalText) : Prop where
  sign : d.sign ≠ some .plus
  whole : isWhole d.whole = true
  fraction : ∀ fraction ∈ d.fraction, 1 ≤ fraction.length ∧ fraction.length ≤ 4
  exponent : d.exponent = none

theorem isWhole_iff {t : Text} : isWhole t = true ↔
    t = [codePoint 0x30] ∨ ∃ c ∈ charRange '1' '9', ∃ rest, t = c :: rest ∧ rest.length ≤ 2 ∧
      rest.all isDigit = true := by
  have first : ∀ c : CodePoint, c ∈ charRange '1' '9' ↔ isDigit c = true ∧ c.val ≠ 0x30 := by
    intro c
    rw [Pattern.mem_charRange]
    simp only [isDigit, Bool.and_eq_true, decide_eq_true_eq, Char.toNat]
    exact ⟨fun h => by simp at h; omega, fun h => by simp; omega⟩
  have zero : ∀ c : CodePoint, c.val = 0x30 ↔ c = codePoint 0x30 := fun c =>
    ⟨fun h => by rw [← h, codePoint_of_val], fun h => by rw [h]; rfl⟩
  rcases t with _ | ⟨c, _ | ⟨d, rest⟩⟩
  · simp [isWhole]
  · simp only [isWhole, List.cons.injEq, and_true, first, ne_eq, zero]
    constructor
    · intro h
      by_cases hzero : c = codePoint 0x30
      · exact .inl hzero
      · exact .inr ⟨c, ⟨h, hzero⟩, [], ⟨rfl, rfl⟩, by simp⟩
    · rintro (rfl | ⟨d, ⟨h, -⟩, rest, ⟨rfl, -⟩, -⟩)
      · decide
      · exact h
  · simp [isWhole, first, and_assoc]

theorem IsTarget.text_eq {d : DecimalText} (h : IsTarget d) :
    d.text = Sign.text d.sign ++ (d.whole ++ DecimalText.fractionText d.fraction) := by
  rw [DecimalText.text, h.exponent, DecimalText.exponentText, List.append_nil, List.append_assoc]

theorem isWhole_all {t : Text} (h : isWhole t = true) : t ≠ [] ∧ t.all isDigit = true := by
  rcases isWhole_iff.mp h with rfl | ⟨c, hc, rest, rfl, -, hrest⟩
  · decide
  · refine ⟨by simp, ?_⟩
    rw [Pattern.mem_charRange] at hc
    rw [List.all_cons, hrest, Bool.and_true]
    simp only [isDigit, Bool.and_eq_true, decide_eq_true_eq]
    simp only [Char.toNat] at hc
    exact ⟨by simp at hc; omega, by simp at hc; omega⟩

/-- A target from its parts. -/
def targetText (negative : Bool) (whole : Text) (fraction : Option Text)
    (hwhole : isWhole whole = true) (hfraction : ∀ digits ∈ fraction, digits.all isDigit = true) :
    DecimalText :=
  ⟨if negative then some .minus else none, whole, fraction, none, (isWhole_all hwhole).1,
    (isWhole_all hwhole).2, hfraction⟩

theorem isTarget_targetText {negative : Bool} {whole : Text} {fraction : Option Text}
    {hwhole : isWhole whole = true} {hfraction : ∀ digits ∈ fraction, digits.all isDigit = true}
    (hlength : ∀ digits ∈ fraction, 1 ≤ digits.length ∧ digits.length ≤ 4) :
    IsTarget (targetText negative whole fraction hwhole hfraction) :=
  ⟨by cases negative <;> simp [targetText], hwhole, hlength, rfl⟩

/-- The text behind the point, with the point. -/
theorem fractionPattern_rmatch_iff {t : Text} :
    (optional (char pointChar * between (oneOf digits) 1 4)).rmatch t ↔
      ∃ fraction : Option Text, t = DecimalText.fractionText fraction ∧
        ∀ f ∈ fraction, (1 ≤ f.length ∧ f.length ≤ 4) ∧ f.all isDigit = true := by
  rw [Pattern.optional_rmatch_iff, mul_rmatch_iff]
  constructor
  · rintro (rfl | ⟨s, f, rfl, hs, hf⟩)
    · exact ⟨none, rfl, by simp⟩
    · rw [char_rmatch_iff] at hs
      rw [Pattern.between_oneOf_rmatch_iff (by omega)] at hf
      refine ⟨some f, by rw [hs]; rfl, ?_⟩
      rintro f' ⟨⟩
      exact ⟨hf.1, List.all_eq_true.mpr fun c hc => mem_digits.mp (hf.2 c hc)⟩
  · rintro ⟨fraction | f, rfl, hf⟩
    · exact .inl rfl
    · refine .inr ⟨[pointChar], f, rfl, (char_rmatch_iff _ _).mpr rfl, ?_⟩
      rw [Pattern.between_oneOf_rmatch_iff (by omega)]
      obtain ⟨hlength, hall⟩ := hf f rfl
      exact ⟨hlength, fun c hc => mem_digits.mpr (List.all_eq_true.mp hall c hc)⟩

theorem wholePattern_rmatch_iff {t : Text} :
    (char (codePoint 0x30) + oneOf (charRange '1' '9') * between (oneOf digits) 0 2).rmatch t ↔
      isWhole t = true := by
  rw [add_rmatch_iff, char_rmatch_iff, Pattern.oneOf_mul_rmatch_iff, isWhole_iff]
  have rest : ∀ t : Text, (between (oneOf digits) 0 2).rmatch t ↔
      t.length ≤ 2 ∧ t.all isDigit = true := by
    intro t
    rw [Pattern.between_oneOf_rmatch_iff (by omega)]
    simp [mem_digits, List.all_eq_true]
  simp only [rest]

/-- **The target pattern.** -/
theorem targetPattern_rmatch_iff {t : Text} :
    targetPattern.rmatch t ↔ ∃ d, IsTarget d ∧ t = d.text := by
  rw [targetPattern, mul_rmatch_iff]
  constructor
  · rintro ⟨sign, rest, rfl, hsign, hrest⟩
    obtain ⟨whole, fraction, rfl, hwhole, hfraction⟩ := (mul_rmatch_iff _ _ _).mp hrest
    rw [wholePattern_rmatch_iff] at hwhole
    obtain ⟨fraction, rfl, hf⟩ := fractionPattern_rmatch_iff.mp hfraction
    rw [Pattern.optional_rmatch_iff, char_rmatch_iff] at hsign
    have target := fun negative => @isTarget_targetText negative whole fraction hwhole
      (fun f hf' => (hf f hf').2) fun f hf' => (hf f hf').1
    rcases hsign with rfl | rfl
    · exact ⟨_, target false, by rw [(target false).text_eq]; rfl⟩
    · exact ⟨_, target true, by rw [(target true).text_eq]; rfl⟩
  · rintro ⟨d, hd, rfl⟩
    refine ⟨Sign.text d.sign, _, hd.text_eq, ?_, (mul_rmatch_iff _ _ _).mpr ⟨d.whole, _, rfl, ?_, ?_⟩⟩
    · rw [Pattern.optional_rmatch_iff, char_rmatch_iff]
      have := hd.sign
      rcases hsign : d.sign with _ | _ | _
      · exact .inl rfl
      · exact absurd hsign this
      · exact .inr rfl
    · exact wholePattern_rmatch_iff.mpr hd.whole
    · exact fractionPattern_rmatch_iff.mpr
        ⟨d.fraction, rfl, fun f hf => ⟨hd.fraction f hf, d.fraction_all f hf⟩⟩

theorem splitDot_append {whole : Text} (h : ∀ c ∈ whole, c.val ≠ 0x2E) (fraction : Option Text) :
    splitDot (whole ++ DecimalText.fractionText fraction) = (whole, fraction) := by
  have hall : ∀ c ∈ whole, decide (c.val ≠ 0x2E) = true := fun c hc => decide_eq_true (h c hc)
  rw [splitDot, List.takeWhile_append_of_pos hall, List.dropWhile_append_of_pos hall]
  cases fraction with
  | none => simp [DecimalText.fractionText]
  | some f =>
    have : pointChar.val = 0x2E := rfl
    simp [DecimalText.fractionText, this]

theorem splitDot_text (t : Text) :
    t = (splitDot t).1 ++ DecimalText.fractionText (splitDot t).2 := by
  have hsplit := List.takeWhile_append_dropWhile (p := fun c : CodePoint => c.val ≠ 0x2E) (l := t)
  rw [splitDot]
  cases hdrop : t.dropWhile fun c => c.val ≠ 0x2E with
  | nil =>
    rw [hdrop] at hsplit
    exact hsplit.symm
  | cons c fraction =>
    have hdot : c.val = 0x2E := by
      have := List.head_dropWhile_not (fun c : CodePoint => decide (c.val ≠ 0x2E)) (l := t)
        (by rw [hdrop]; exact List.cons_ne_nil _ _)
      simpa only [hdrop, List.head_cons, decide_eq_false_iff_not, not_not] using this
    have hpoint : c = pointChar := by rw [← codePoint_of_val c, hdot]
    rw [hdrop, hpoint] at hsplit
    exact hsplit.symm

/-- The units of an unsigned target. -/
def targetUnits (whole : Text) (fraction : Option Text) : ℤ :=
  ofDecimal whole * 10_000 + ofDecimal
    (fraction.getD [] ++ List.replicate (4 - (fraction.getD []).length) (codePoint 0x30))

theorem ofDecimal_zeros (n : ℕ) : ofDecimal (List.replicate n (codePoint 0x30)) = 0 := by
  induction n with
  | zero => rfl
  | succ n ih => rw [List.replicate_succ', ofDecimal_append, ih]; rfl

/-- Filling the digits behind the point up to four is multiplying by ten thousand. -/
theorem IsTarget.units {d : DecimalText} (h : IsTarget d) :
    (targetUnits d.whole d.fraction : ℚ) = 10_000 * d.magnitude := by
  have hlength : (d.fraction.getD []).length ≤ 4 := by
    cases hf : d.fraction with
    | none => simp
    | some f => exact (h.fraction f hf).2
  have hpower : (10 : ℚ) ^ (4 - (d.fraction.getD []).length) * 10 ^ (d.fraction.getD []).length =
      10_000 := by
    rw [← pow_add, Nat.sub_add_cancel hlength]
    norm_num
  rw [targetUnits, ofDecimal_append, ofDecimal_zeros, List.length_replicate,
    DecimalText.magnitude, DecimalText.power, h.exponent, DecimalText.fractionDigits]
  push_cast
  simp only [Option.map_none, Option.getD_none, zpow_zero, mul_one, add_zero]
  rw [← hpower]
  field_simp

theorem IsTarget.value {d : DecimalText} (h : IsTarget d) :
    ((if d.sign = some .minus then -targetUnits d.whole d.fraction
      else targetUnits d.whole d.fraction : ℤ) : ℚ) = 10_000 * d.value := by
  rw [DecimalText.value]
  split <;> push_cast <;> rw [h.units]
  ring

/-- A target text is read from its parts. -/
theorem parseDecimalTarget_text {d : DecimalText} (h : IsTarget d) :
    parseDecimalTarget d.text = some (if d.sign = some .minus then -targetUnits d.whole d.fraction
      else targetUnits d.whole d.fraction) := by
  obtain ⟨hne, hdigits⟩ := isWhole_all h.whole
  have digit : ∀ c ∈ d.whole, isDigit c = true := List.all_eq_true.mp hdigits
  have hdots : ∀ c ∈ d.whole, c.val ≠ 0x2E := by
    intro c hc heq
    have := digit c hc
    simp [isDigit, heq] at this
  have hsplit := splitDot_append hdots d.fraction
  have hfraction : d.fraction = none ∨
      (1 ≤ (d.fraction.getD []).length ∧ (d.fraction.getD []).length ≤ 4) := by
    cases hf : d.fraction with
    | none => exact .inl rfl
    | some f => exact .inr (h.fraction f hf)
  have hall : (d.fraction.getD []).all isDigit = true := by
    cases hf : d.fraction with
    | none => rfl
    | some f => exact d.fraction_all f hf
  rcases hsign : d.sign with _ | _ | _
  · have hhead : (d.whole ++ DecimalText.fractionText d.fraction).head? ≠
        some (codePoint 0x2D) := by
      rw [List.head?_append_of_ne_nil _ hne]
      intro heq
      have := digit _ (List.mem_of_mem_head? heq)
      exact absurd this (by decide)
    rw [h.text_eq, hsign, Sign.text, List.nil_append, parseDecimalTarget]
    simp only [if_neg hhead, hsplit]
    rw [if_pos ⟨h.whole, hfraction, hall⟩]
    rfl
  · exact absurd hsign h.sign
  · rw [h.text_eq, hsign, Sign.text, List.singleton_append, parseDecimalTarget]
    simp only [List.head?_cons, List.drop_one, List.tail_cons, if_true, hsplit]
    rw [if_pos ⟨h.whole, hfraction, hall⟩]
    rfl

/-- What is read is a target text. -/
theorem isTarget_of_parse {t : Text} {n : ℤ} (h : parseDecimalTarget t = some n) :
    ∃ d, IsTarget d ∧ t = d.text := by
  rw [parseDecimalTarget] at h
  generalize hunsigned : (if t.head? = some (codePoint 0x2D) then t.drop 1 else t) = unsigned at h
  dsimp only at h
  rw [ite_eq_iff] at h
  obtain ⟨⟨hwhole, hlength, hall⟩, -⟩ | ⟨-, h⟩ := h
  · have hf : ∀ f ∈ (splitDot unsigned).2,
        (1 ≤ f.length ∧ f.length ≤ 4) ∧ f.all isDigit = true := by
      intro f hf
      rw [Option.mem_def.mp hf] at hlength hall
      exact ⟨hlength.resolve_left (by simp), hall⟩
    have target := @isTarget_targetText (t.head? = some (codePoint 0x2D)) _ _ hwhole
      (fun f hf' => (hf f hf').2) fun f hf' => (hf f hf').1
    refine ⟨_, target, ?_⟩
    rw [target.text_eq]
    simp only [targetText, ← splitDot_text]
    by_cases hminus : t.head? = some (codePoint 0x2D)
    · obtain ⟨rest, rfl⟩ := List.head?_eq_some_iff.mp hminus
      simp [← hunsigned, Sign.text]
    · simp [← hunsigned, hminus, Sign.text]
  · cases h

/-- **Decimal targets.** The texts the pattern matches are read, as ten thousand times the number
they spell. -/
theorem parseDecimalTarget_eq_some {t : Text} {n : ℤ} :
    parseDecimalTarget t = some n ↔
      ∃ d, IsTarget d ∧ t = d.text ∧ (n : ℚ) = 10_000 * d.value := by
  constructor
  · intro h
    obtain ⟨d, hd, rfl⟩ := isTarget_of_parse h
    rw [parseDecimalTarget_text hd] at h
    exact ⟨d, hd, rfl, by rw [← Option.some.inj h, hd.value]⟩
  · rintro ⟨d, hd, rfl, hn⟩
    rw [parseDecimalTarget_text hd]
    have := hd.value
    exact congrArg some (by exact_mod_cast this.trans hn.symm)

end WagmiBench.Core
