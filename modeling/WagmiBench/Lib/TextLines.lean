import Mathlib.Data.List.Infix
import WagmiBench.Lib.Text

/-!
# Lines of a growing text

`str.splitlines`, and what it makes of a text that is written line by line and read at any moment:
the lines written so far, and behind them the beginning of one more.
-/

namespace WagmiBench.Lib

/-- Where `str.splitlines` ends a line. -/
def isLineBreak (c : CodePoint) : Bool :=
  (0x0A ≤ c.val && c.val ≤ 0x0D) || (0x1C ≤ c.val && c.val ≤ 0x1E) || c.val == 0x85 ||
    c.val == 0x2028 || c.val == 0x2029

abbrev lineFeed : CodePoint := codePoint 0x0A

/-- `text.splitlines()` behind the characters of the current line, last first; `afterReturn` when
the character before was a carriage return, whose line feed then belongs to the same ending. -/
def textLinesFrom (acc : Text) (afterReturn : Bool) : Text → List Text
  | [] => if acc = [] then [] else [acc.reverse]
  | c :: rest =>
    if c = lineFeed ∧ afterReturn then textLinesFrom [] false rest
    else if isLineBreak c then acc.reverse :: textLinesFrom [] (c.val = 0x0D) rest
    else textLinesFrom (c :: acc) false rest

/-- `text.splitlines()` -/
def textLines (text : Text) : List Text := textLinesFrom [] false text

/-- A line: not empty, and without a break of its own. -/
structure IsTextLine (line : Text) : Prop where
  ne_nil : line ≠ []
  unbroken : ∀ c ∈ line, isLineBreak c = false

/-- The lines as they are written, each with its line feed. -/
def writtenLines (lines : List Text) : Text := lines.flatMap (· ++ [lineFeed])

@[simp] theorem writtenLines_nil : writtenLines [] = [] := rfl

@[simp] theorem writtenLines_cons (line : Text) (lines : List Text) :
    writtenLines (line :: lines) = line ++ lineFeed :: writtenLines lines := by
  simp [writtenLines]

theorem textLinesFrom_unbroken {line : Text} (h : ∀ c ∈ line, isLineBreak c = false)
    (acc rest : Text) :
    textLinesFrom acc false (line ++ rest) = textLinesFrom (line.reverse ++ acc) false rest := by
  induction line generalizing acc with
  | nil => rfl
  | cons c line ih =>
    rw [List.forall_mem_cons] at h
    rw [List.cons_append, textLinesFrom, if_neg (by simp), if_neg (by simp [h.1]), ih h.2]
    simp

/-- A line that is written out. -/
theorem textLines_line {line : Text} (h : IsTextLine line) (rest : Text) :
    textLines (line ++ lineFeed :: rest) = line :: textLines rest := by
  rw [textLines, textLinesFrom_unbroken h.unbroken, textLinesFrom, if_neg (by simp),
    if_pos (by decide), List.append_nil, List.reverse_reverse]
  rfl

/-- A line without its line feed. -/
theorem textLines_unbroken {line : Text} (h : ∀ c ∈ line, isLineBreak c = false) :
    textLines line = if line = [] then [] else [line] := by
  have := textLinesFrom_unbroken h [] []
  rw [List.append_nil, List.append_nil] at this
  rw [textLines, this, textLinesFrom]
  simp

/-! ## Reading while it is written -/

/-- How many of the lines the text holds whole, with or without the line feed of the last. -/
def wholeLines : List Text → Text → ℕ
  | [], _ => 0
  | line :: lines, text =>
    if line <+: text then wholeLines lines (text.drop (line.length + 1)) + 1 else 0

theorem wholeLines_le (lines : List Text) (text : Text) :
    wholeLines lines text ≤ lines.length := by
  induction lines generalizing text with
  | nil => exact le_rfl
  | cons line lines ih =>
    rw [wholeLines]
    split
    · simpa using ih _
    · simp

/-- A longer text holds no fewer lines. -/
theorem wholeLines_mono {lines : List Text} {text longer : Text} (h : text <+: longer) :
    wholeLines lines text ≤ wholeLines lines longer := by
  induction lines generalizing text longer with
  | nil => exact le_rfl
  | cons line lines ih =>
    rw [wholeLines, wholeLines]
    split
    · rename_i hline
      rw [if_pos (hline.trans h)]
      exact Nat.succ_le_succ (ih (h.drop _))
    · exact Nat.zero_le _

/-- **A text read while it is written.** Its lines are those it holds whole, and behind them, where it
was cut inside a line, the beginning of that line. -/
theorem textLines_prefix {lines : List Text} (hlines : ∀ line ∈ lines, IsTextLine line)
    {text : Text} (h : text <+: writtenLines lines) :
    textLines text = lines.take (wholeLines lines text) ∨
    ∃ line begun, lines[wholeLines lines text]? = some line ∧ begun ≠ [] ∧ begun <+: line ∧
      begun ≠ line ∧ textLines text = lines.take (wholeLines lines text) ++ [begun] := by
  induction lines generalizing text with
  | nil =>
    obtain rfl := List.prefix_nil.mp h
    exact .inl rfl
  | cons line lines ih =>
    rw [List.forall_mem_cons] at hlines
    rw [writtenLines_cons] at h
    rw [wholeLines]
    by_cases hline : line <+: text
    · rw [if_pos hline]
      obtain ⟨rest, rfl⟩ := hline
      have hrest := (List.prefix_append_right_inj line).mp h
      rcases List.prefix_cons_iff.mp hrest with rfl | ⟨rest', rfl, hrest'⟩
      · have hnone : wholeLines lines ([] : Text) = 0 := by
          cases lines with
          | nil => rfl
          | cons next lines =>
            rw [wholeLines, if_neg]
            rw [List.prefix_nil]
            exact (List.forall_mem_cons.mp hlines.2).1.ne_nil
        left
        rw [List.append_nil, textLines_unbroken hlines.1.unbroken, if_neg hlines.1.ne_nil,
          List.drop_eq_nil_of_le (by simp), hnone]
        rfl
      · have hdrop : (line ++ lineFeed :: rest').drop (line.length + 1) = rest' := by
          rw [List.drop_append]
          simp
        rw [hdrop, textLines_line hlines.1]
        rcases ih hlines.2 hrest' with hwhole | ⟨next, begun, hnext, hne, hbegun, hpart, hcut⟩
        · exact .inl (by rw [hwhole, List.take_succ_cons])
        · exact .inr ⟨next, begun, by simpa using hnext, hne, hbegun, hpart,
            by rw [hcut, List.take_succ_cons, List.cons_append]⟩
    · rw [if_neg hline, List.take_zero]
      have hbegun : text <+: line := by
        rcases List.prefix_or_prefix_of_prefix h (List.prefix_append line _) with h' | h'
        · exact h'
        · exact absurd h' hline
      have hunbroken : ∀ c ∈ text, isLineBreak c = false :=
        fun c hc => hlines.1.unbroken c (hbegun.subset hc)
      rw [textLines_unbroken hunbroken]
      by_cases hnil : text = []
      · exact .inl (if_pos hnil)
      · refine .inr ⟨line, text, rfl, hnil, hbegun, ?_, if_neg hnil⟩
        rintro rfl
        exact hline (List.prefix_refl _)

end WagmiBench.Lib
