import Mathlib.Computability.RegularExpressions
import WagmiBench.Lib.Text

/-!
# Patterns

Regular expressions over code points, matched against a whole text: character classes, optional
parts and counted repetitions.
-/

namespace WagmiBench.Lib

abbrev Pattern := RegularExpression CodePoint

namespace Pattern

open RegularExpression

/-- The code points from the first to the last. -/
def charRange (first last : Char) : Text :=
  (List.range' first.toNat (last.toNat + 1 - first.toNat)).map codePoint

/-- `[…]` -/
def oneOf : Text → Pattern
  | [] => 0
  | c :: cs => char c + oneOf cs

/-- `…?` -/
def optional (p : Pattern) : Pattern := 1 + p

/-- `…{0,n}` -/
def upTo (p : Pattern) : ℕ → Pattern
  | 0 => 1
  | n + 1 => 1 + p * upTo p n

/-- `…{m,m + n}` -/
def atLeast (p : Pattern) (n : ℕ) : ℕ → Pattern
  | 0 => upTo p n
  | m + 1 => p * atLeast p n m

/-- `…{m,n}` -/
def between (p : Pattern) (m n : ℕ) : Pattern := atLeast p (n - m) m

variable {p q : Pattern} {cs t : Text} {c : CodePoint} {m n : ℕ}

theorem mem_charRange {first last : Char} :
    c ∈ charRange first last ↔ first.toNat ≤ c.val ∧ c.val ≤ last.toNat := by
  have bound : last.toNat < 0x110000 := by
    rcases last.valid with h | h <;> simp only [Char.toNat] at * <;> omega
  simp only [charRange, List.mem_map, List.mem_range'_1]
  constructor
  · rintro ⟨n, ⟨hlow, hhigh⟩, rfl⟩
    rw [codePoint_val (by omega)]
    omega
  · rintro ⟨hlow, hhigh⟩
    exact ⟨c.val, by omega, codePoint_of_val c⟩

theorem oneOf_rmatch_iff : (oneOf cs).rmatch t ↔ ∃ c ∈ cs, t = [c] := by
  induction cs with
  | nil => simp [oneOf, zero_rmatch]
  | cons d cs ih =>
    rw [oneOf, add_rmatch_iff, char_rmatch_iff, ih]
    simp

theorem optional_rmatch_iff : (optional p).rmatch t ↔ t = [] ∨ p.rmatch t := by
  rw [optional, add_rmatch_iff, one_rmatch_iff]

/-- A character of the class in front of something else. -/
theorem oneOf_mul_rmatch_iff :
    (oneOf cs * p).rmatch t ↔ ∃ c ∈ cs, ∃ rest, t = c :: rest ∧ p.rmatch rest := by
  rw [mul_rmatch_iff]
  constructor
  · rintro ⟨s, rest, rfl, hs, hrest⟩
    obtain ⟨c, hc, rfl⟩ := oneOf_rmatch_iff.mp hs
    exact ⟨c, hc, rest, rfl, hrest⟩
  · rintro ⟨c, hc, rest, rfl, hrest⟩
    exact ⟨[c], rest, rfl, oneOf_rmatch_iff.mpr ⟨c, hc, rfl⟩, hrest⟩

theorem upTo_oneOf_rmatch_iff :
    (upTo (oneOf cs) n).rmatch t ↔ t.length ≤ n ∧ ∀ c ∈ t, c ∈ cs := by
  induction n generalizing t with
  | zero =>
    rw [upTo, one_rmatch_iff, Nat.le_zero, List.length_eq_zero_iff]
    exact ⟨fun h => ⟨h, by simp [h]⟩, And.left⟩
  | succ n ih =>
    rw [upTo, add_rmatch_iff, one_rmatch_iff, oneOf_mul_rmatch_iff]
    cases t with
    | nil => simp
    | cons d t =>
      simp only [ih]
      simp [and_left_comm]

theorem atLeast_oneOf_rmatch_iff :
    (atLeast (oneOf cs) n m).rmatch t ↔ (m ≤ t.length ∧ t.length ≤ n + m) ∧ ∀ c ∈ t, c ∈ cs := by
  induction m generalizing t with
  | zero =>
    rw [atLeast, upTo_oneOf_rmatch_iff]
    simp
  | succ m ih =>
    rw [atLeast, oneOf_mul_rmatch_iff]
    cases t with
    | nil => simp
    | cons d t =>
      simp only [ih]
      simp [← Nat.add_assoc, and_left_comm]

/-- **Counted classes.** Between `m` and `n` characters, all of the class. -/
theorem between_oneOf_rmatch_iff (h : m ≤ n) :
    (between (oneOf cs) m n).rmatch t ↔ (m ≤ t.length ∧ t.length ≤ n) ∧ ∀ c ∈ t, c ∈ cs := by
  rw [between, atLeast_oneOf_rmatch_iff, Nat.sub_add_cancel h]

end Pattern

end WagmiBench.Lib
