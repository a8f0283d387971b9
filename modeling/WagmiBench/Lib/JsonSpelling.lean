import WagmiBench.Lib.JsonParser

/-!
# Spellings of a JSON string

A string has many literals: each of its characters stands raw, or as one of the short escapes, or as
its hexadecimal digits in either case, beyond the first plane as an escaped pair of surrogates. The
strings of a document may be documents themselves.
-/

namespace WagmiBench.Lib.Json

/-- Four hexadecimal digits, in either case, of the number `n`. -/
inductive HexQuad : Text → ℕ → Prop where
  | digits {a b c d : CodePoint} {i j k l : ℕ} (ha : hexValue a = some i) (hb : hexValue b = some j)
      (hc : hexValue c = some k) (hd : hexValue d = some l) :
      HexQuad [a, b, c, d] (((i * 16 + j) * 16 + k) * 16 + l)

/-- `\uXXXX` -/
def hexEscape (digits : Text) : Text := backslash :: codePoint 0x75 :: digits

def isHighSurrogate (n : ℕ) : Prop := 0xD800 ≤ n ∧ n ≤ 0xDBFF

def isLowSurrogate (n : ℕ) : Prop := 0xDC00 ≤ n ∧ n ≤ 0xDFFF

instance (n : ℕ) : Decidable (isHighSurrogate n) := inferInstanceAs (Decidable (_ ∧ _))

instance (n : ℕ) : Decidable (isLowSurrogate n) := inferInstanceAs (Decidable (_ ∧ _))

/-- The surrogates of a character beyond the first plane. -/
def highSurrogate (c : CodePoint) : ℕ := 0xD800 + (c.val - 0x10000) / 1024

def lowSurrogate (c : CodePoint) : ℕ := 0xDC00 + (c.val - 0x10000) % 1024

/-- `Spells t s`: between quotes, the characters `s` are a literal of the string `t`. An escaped high
surrogate stands for itself only where no escaped low one follows. -/
inductive Spells : Text → Text → Prop where
  | nil : Spells [] []
  | raw {c : CodePoint} {t s : Text} (hquote : c ≠ quote) (hslash : c ≠ backslash)
      (hvisible : 0x20 ≤ c.val) : Spells t s → Spells (c :: t) (c :: s)
  | short {c e : CodePoint} {t s : Text} (he : escaped e = some c) :
      Spells t s → Spells (c :: t) (backslash :: e :: s)
  | unicode {c : CodePoint} {digits t s : Text} (hdigits : HexQuad digits c.val)
      (halone : isHighSurrogate c.val → ∀ digits' n s', HexQuad digits' n → isLowSurrogate n →
        s ≠ hexEscape digits' ++ s') :
      Spells t s → Spells (c :: t) (hexEscape digits ++ s)
  | pair {c : CodePoint} {high low t s : Text} (hc : 0x10000 ≤ c.val)
      (hhigh : HexQuad high (highSurrogate c)) (hlow : HexQuad low (lowSurrogate c)) :
      Spells t s → Spells (c :: t) (hexEscape high ++ (hexEscape low ++ s))

/-- `t` is a string of the document: between quotes there stands a literal of it. -/
def IsStringOf (t document : Text) : Prop :=
  ∃ s, Spells t s ∧ quote :: (s ++ [quote]) <:+: document

/-- `part` stands in a string of a string of … of the document, `levels` literals deep. -/
def Nested (part : Text) : ℕ → Text → Prop
  | 0, document => part <:+: document
  | levels + 1, document => ∃ t, IsStringOf t document ∧ Nested part levels t

end WagmiBench.Lib.Json
