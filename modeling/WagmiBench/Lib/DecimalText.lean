import Mathlib.Algebra.Order.Field.Basic
import Mathlib.Data.Rat.Floor
import Mathlib.Tactic.FieldSimp
import Mathlib.Tactic.Positivity
import WagmiBench.Lib.Text

/-!
# Decimal texts

Numbers written with decimal digits, a point and a power of ten: the grammar, the parser that reads
it, and the number a text stands for.
-/

namespace WagmiBench.Lib

/-! ## The grammar -/

/-- A sign that is written out. -/
inductive Sign where
  | plus
  | minus
  deriving DecidableEq, Repr

abbrev plusChar : CodePoint := codePoint 0x2B
abbrev minusChar : CodePoint := codePoint 0x2D
abbrev pointChar : CodePoint := codePoint 0x2E

def Sign.text : Option Sign → Text
  | none => []
  | some .plus => [plusChar]
  | some .minus => [minusChar]

/-- A sign in front of a number. -/
def Sign.apply (sign : Option Sign) (n : ℤ) : ℤ := if sign = some .minus then -n else n

/-- A power of ten behind a number. -/
structure Exponent where
  upper : Bool
  sign : Option Sign
  digits : Text
  digits_ne : digits ≠ []
  digits_all : digits.all isDigit = true
  deriving DecidableEq

namespace Exponent

def marker (upper : Bool) : CodePoint := if upper then codePoint 0x45 else codePoint 0x65

def text (exponent : Exponent) : Text :=
  marker exponent.upper :: (Sign.text exponent.sign ++ exponent.digits)

def value (exponent : Exponent) : ℤ := Sign.apply exponent.sign (ofDecimal exponent.digits)

end Exponent

/-- A decimal text, by its parts. -/
structure DecimalText where
  sign : Option Sign
  whole : Text
  fraction : Option Text
  exponent : Option Exponent
  whole_ne : whole ≠ []
  whole_all : whole.all isDigit = true
  fraction_all : ∀ digits ∈ fraction, digits.all isDigit = true
  deriving DecidableEq

namespace DecimalText

def fractionText : Option Text → Text
  | none => []
  | some digits => pointChar :: digits

def exponentText : Option Exponent → Text
  | none => []
  | some exponent => exponent.text

variable (d : DecimalText)

/-- The text itself. -/
def text : Text :=
  Sign.text d.sign ++ d.whole ++ fractionText d.fraction ++ exponentText d.exponent

/-- The digits behind the point. -/
def fractionDigits : Text := d.fraction.getD []

/-- The power of ten behind the number. -/
def power : ℤ := (d.exponent.map Exponent.value).getD 0

/-- The number without its sign. -/
def magnitude : ℚ :=
  (ofDecimal d.whole + ofDecimal d.fractionDigits / 10 ^ d.fractionDigits.length) * 10 ^ d.power

/-- The number. -/
def value : ℚ := if d.sign = some .minus then -d.magnitude else d.magnitude

end DecimalText

/-! ## The parser -/

/-- A sign, if there is one, and the rest. -/
def readSign : Text → Option Sign × Text
  | [] => (none, [])
  | c :: rest =>
    if c = plusChar then (some .plus, rest)
    else if c = minusChar then (some .minus, rest)
    else (none, c :: rest)

/-- A point and the digits behind it, if there is a point, and the rest. -/
def readFraction : Text → Option Text × Text
  | [] => (none, [])
  | c :: rest =>
    if c = pointChar then (some (rest.takeWhile isDigit), rest.dropWhile isDigit)
    else (none, c :: rest)

/-- A power of ten up to the end, if there is anything. -/
def readExponent : Text → Option (Option Exponent)
  | [] => some none
  | c :: rest =>
    if c = Exponent.marker false ∨ c = Exponent.marker true then
      let (sign, digits) := readSign rest
      if h : digits ≠ [] ∧ digits.all isDigit = true then
        some (some ⟨c = Exponent.marker true, sign, digits, h.1, h.2⟩)
      else none
    else none

theorem readFraction_all (t : Text) :
    ∀ digits ∈ (readFraction t).1, digits.all isDigit = true := by
  intro digits h
  match t with
  | [] => simp [readFraction] at h
  | c :: rest =>
    rw [readFraction] at h
    split at h
    · obtain rfl := Option.mem_some.mp h
      exact List.all_takeWhile
    · simp at h

/-- The match of a text with the grammar. -/
def matchDecimal (text : Text) : Option DecimalText :=
  let (sign, rest) := readSign text
  if h : rest.takeWhile isDigit ≠ [] then
    let fraction := readFraction (rest.dropWhile isDigit)
    (readExponent fraction.2).map fun exponent =>
      ⟨sign, rest.takeWhile isDigit, fraction.1, exponent, h, List.all_takeWhile,
        readFraction_all _⟩
  else none

/-! ## What is read -/

theorem ne_of_isDigit {c d : CodePoint} (hc : isDigit c = true) (hd : isDigit d = false) : c ≠ d := by
  rintro rfl
  simp [hc] at hd

theorem readSign_append {sign : Option Sign} {rest : Text}
    (h : ∀ c ∈ rest.head?, c ≠ plusChar ∧ c ≠ minusChar) :
    readSign (Sign.text sign ++ rest) = (sign, rest) := by
  rcases sign with _ | _ | _
  · cases rest with
    | nil => rfl
    | cons c rest =>
      obtain ⟨hplus, hminus⟩ := h c rfl
      rw [Sign.text, List.nil_append, readSign, if_neg hplus, if_neg hminus]
  · rfl
  · rw [Sign.text, List.singleton_append, readSign, if_neg (by decide), if_pos rfl]

theorem readSign_text (t : Text) : t = Sign.text (readSign t).1 ++ (readSign t).2 := by
  match t with
  | [] => rfl
  | c :: rest =>
    rw [readSign]
    split
    · subst c
      rfl
    · split
      · subst c
        rfl
      · rfl

/-- Digits in front of something else are taken whole. -/
theorem span_digits {digits rest : Text} (hdigits : digits.all isDigit = true)
    (hrest : ∀ c ∈ rest.head?, isDigit c = false) :
    (digits ++ rest).takeWhile isDigit = digits ∧ (digits ++ rest).dropWhile isDigit = rest := by
  have hall : ∀ c ∈ digits, isDigit c = true := List.all_eq_true.mp hdigits
  rw [List.takeWhile_append_of_pos hall, List.dropWhile_append_of_pos hall]
  cases rest with
  | nil => simp
  | cons c rest =>
    have := hrest c rfl
    simp [this]

theorem readFraction_append {fraction : Option Text} {rest : Text}
    (hfraction : ∀ digits ∈ fraction, digits.all isDigit = true)
    (hrest : ∀ c ∈ rest.head?, isDigit c = false ∧ c ≠ pointChar) :
    readFraction (DecimalText.fractionText fraction ++ rest) = (fraction, rest) := by
  cases fraction with
  | none =>
    cases rest with
    | nil => rfl
    | cons c rest =>
      rw [DecimalText.fractionText, List.nil_append, readFraction, if_neg (hrest c rfl).2]
  | some digits =>
    obtain ⟨htake, hdrop⟩ := span_digits (hfraction digits rfl) fun c hc => (hrest c hc).1
    rw [DecimalText.fractionText, List.cons_append, readFraction, if_pos rfl, htake, hdrop]

theorem readFraction_text (t : Text) :
    t = DecimalText.fractionText (readFraction t).1 ++ (readFraction t).2 := by
  match t with
  | [] => rfl
  | c :: rest =>
    rw [readFraction]
    split
    · subst c
      rw [DecimalText.fractionText, List.cons_append, List.takeWhile_append_dropWhile]
    · rfl

theorem readExponent_eq_some {t : Text} {exponent : Option Exponent} :
    readExponent t = some exponent ↔ t = DecimalText.exponentText exponent := by
  constructor
  · intro h
    match t with
    | [] =>
      obtain rfl := Option.some.inj h
      rfl
    | c :: rest =>
      rw [readExponent] at h
      split at h
      · rename_i hmarker
        dsimp only at h
        split at h
        · obtain rfl := Option.some.inj h
          rw [DecimalText.exponentText, Exponent.text, ← readSign_text]
          congr 1
          rcases hmarker with rfl | rfl <;> rfl
        · simp at h
      · simp at h
  · rintro rfl
    rcases exponent with _ | ⟨upper, sign, digits, hne, hall⟩
    · rfl
    · have hsign : readSign (Sign.text sign ++ digits) = (sign, digits) := by
        refine readSign_append fun c hc => ?_
        have := List.all_eq_true.mp hall c (List.mem_of_mem_head? hc)
        exact ⟨ne_of_isDigit this (by decide), ne_of_isDigit this (by decide)⟩
      rw [DecimalText.exponentText, Exponent.text, readExponent, if_pos (by cases upper <;> simp)]
      simp only [hsign]
      rw [dif_pos ⟨hne, hall⟩]
      cases upper <;> rfl

theorem exponentText_head {exponent : Option Exponent} :
    ∀ c ∈ (DecimalText.exponentText exponent).head?, isDigit c = false ∧ c ≠ pointChar := by
  intro c hc
  rcases exponent with _ | ⟨upper, _, _, _, _⟩
  · simp [DecimalText.exponentText] at hc
  · obtain rfl : Exponent.marker upper = c := by
      simpa [DecimalText.exponentText, Exponent.text] using hc
    cases upper <;> decide

/-- **The grammar.** A text is matched exactly as the decimal text it is. -/
theorem matchDecimal_eq_some {t : Text} {d : DecimalText} :
    matchDecimal t = some d ↔ t = d.text := by
  constructor
  · intro h
    unfold matchDecimal at h
    dsimp only at h
    split at h
    · obtain ⟨exponent, hexponent, rfl⟩ := Option.map_eq_some_iff.mp h
      rw [DecimalText.text, ← readExponent_eq_some.mp hexponent, List.append_assoc,
        ← readFraction_text, List.append_assoc, List.takeWhile_append_dropWhile, ← readSign_text]
    · simp at h
  · rintro rfl
    have hsign : readSign d.text = (d.sign, d.whole ++ (DecimalText.fractionText d.fraction ++
        DecimalText.exponentText d.exponent)) := by
      rw [DecimalText.text, List.append_assoc, List.append_assoc]
      refine readSign_append fun c hc => ?_
      rw [List.head?_append_of_ne_nil _ d.whole_ne] at hc
      have := List.all_eq_true.mp d.whole_all c (List.mem_of_mem_head? hc)
      exact ⟨ne_of_isDigit this (by decide), ne_of_isDigit this (by decide)⟩
    have hhead : ∀ c ∈ (DecimalText.fractionText d.fraction ++
        DecimalText.exponentText d.exponent).head?, isDigit c = false := by
      intro c hc
      cases hfraction : d.fraction with
      | none =>
        rw [hfraction, DecimalText.fractionText, List.nil_append] at hc
        exact (exponentText_head c hc).1
      | some digits =>
        rw [hfraction, DecimalText.fractionText, List.cons_append, List.head?_cons] at hc
        obtain rfl := Option.mem_some.mp hc
        decide
    obtain ⟨htake, hdrop⟩ := span_digits d.whole_all hhead
    have hfraction := readFraction_append d.fraction_all (@exponentText_head d.exponent)
    have hexponent := readExponent_eq_some.mpr (rfl : DecimalText.exponentText d.exponent = _)
    unfold matchDecimal
    simp only [hsign, htake, hdrop, hfraction, hexponent]
    rw [dif_pos d.whole_ne]
    rfl

/-! ## The number -/

theorem ofDecimal_append (s t : Text) :
    ofDecimal (s ++ t) = ofDecimal s * 10 ^ t.length + ofDecimal t := by
  have key : ∀ (t : Text) (a : ℕ), t.foldl (fun a c => 10 * a + (c.val - 0x30)) a =
      a * 10 ^ t.length + ofDecimal t := by
    intro t
    induction t with
    | nil => intro a; simp [ofDecimal]
    | cons c t ih =>
      intro a
      have htail : ofDecimal (c :: t) = (10 * 0 + (c.val - 0x30)) * 10 ^ t.length + ofDecimal t :=
        ih _
      rw [List.foldl_cons, ih, htail, List.length_cons, pow_succ]
      ring
  rw [ofDecimal, List.foldl_append, key]
  rfl

namespace DecimalText

variable (d : DecimalText)

/-- All its digits, as one number. -/
def digits : ℕ := ofDecimal (d.whole ++ d.fractionDigits)

/-- The magnitude as the digits moved by the point. -/
theorem magnitude_eq : d.magnitude = d.digits * 10 ^ (d.power - d.fractionDigits.length) := by
  have hten : (10 : ℚ) ≠ 0 := by norm_num
  rw [magnitude, digits, ofDecimal_append, zpow_sub₀ hten, zpow_natCast]
  push_cast
  field_simp

theorem magnitude_nonneg : 0 ≤ d.magnitude := by
  rw [magnitude]
  positivity

end DecimalText

end WagmiBench.Lib
