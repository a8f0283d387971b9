import WagmiBench.Lib.Text

/-!
# Directories and lines

A directory is what a reader finds under each relative path. Line records are bytes ended by a
newline; the two ways of cutting a file into lines, at newlines only or at every line ending, agree
on records that hold no line ending themselves.
-/

namespace WagmiBench.Lib

/-- What a relative path leads to. -/
inductive Entry where
  | missing
  /-- It resolves to a place outside the directory. -/
  | outside
  /-- A directory, or anything else that is no file. -/
  | folder
  /-- A symbolic link to a file inside, by the name of that file. -/
  | link (target : Text) (bytes : Bytes)
  | file (bytes : Bytes)

/-- What is under each relative path. -/
abbrev Directory := Text → Entry

/-- The last component of a path. -/
def baseName (path : Text) : Text := (path.splitOn (codePoint 0x2F)).getLastD []

/-! ## Lines -/

abbrev newline : UInt8 := 0x0A
abbrev carriageReturn : UInt8 := 0x0D

/-- Records, each ended by a newline. -/
def joinLines (lines : List Bytes) : Bytes := lines.flatMap (· ++ [newline])

/-- `raw.splitlines()` behind the bytes of the current line, last first; `afterReturn` when the byte
before was a carriage return, whose newline then belongs to the same ending. -/
def splitLinesFrom (acc : Bytes) (afterReturn : Bool) : Bytes → List Bytes
  | [] => if acc = [] then [] else [acc.reverse]
  | b :: rest =>
    if b = newline then
      if afterReturn then splitLinesFrom [] false rest
      else acc.reverse :: splitLinesFrom [] false rest
    else if b = carriageReturn then acc.reverse :: splitLinesFrom [] true rest
    else splitLinesFrom (b :: acc) false rest

/-- `raw.splitlines()` -/
def splitLines (raw : Bytes) : List Bytes := splitLinesFrom [] false raw

/-- `raw[:-1].split(b"\n") if raw else []` -/
def recordLines (raw : Bytes) : List Bytes :=
  if raw = [] then [] else raw.dropLast.splitOn newline

/-- A line without a line ending of its own. -/
def IsLine (line : Bytes) : Prop := newline ∉ line ∧ carriageReturn ∉ line

instance (line : Bytes) : Decidable (IsLine line) := inferInstanceAs (Decidable (_ ∧ _))

@[simp] theorem joinLines_nil : joinLines [] = [] := rfl

@[simp] theorem joinLines_cons (line : Bytes) (lines : List Bytes) :
    joinLines (line :: lines) = line ++ newline :: joinLines lines := by
  simp [joinLines]

theorem joinLines_append (l m : List Bytes) : joinLines (l ++ m) = joinLines l ++ joinLines m := by
  simp [joinLines]

theorem splitLinesFrom_line {line : Bytes} (h : IsLine line) (acc rest : Bytes) :
    splitLinesFrom acc false (line ++ newline :: rest) =
      (acc.reverse ++ line) :: splitLinesFrom [] false rest := by
  induction line generalizing acc with
  | nil => simp [splitLinesFrom]
  | cons b line ih =>
    obtain ⟨hn, hr⟩ := h
    simp only [List.mem_cons, not_or] at hn hr
    rw [List.cons_append, splitLinesFrom, if_neg (Ne.symm hn.1), if_neg (Ne.symm hr.1),
      ih ⟨hn.2, hr.2⟩]
    simp

/-- Records without line endings are what a file of them splits into. -/
theorem splitLines_joinLines {lines : List Bytes} (h : ∀ line ∈ lines, IsLine line) :
    splitLines (joinLines lines) = lines := by
  unfold splitLines
  induction lines with
  | nil => rfl
  | cons line lines ih =>
    rw [joinLines_cons, splitLinesFrom_line (h line (by simp)), ih fun l hl => h l (by simp [hl])]
    simp

theorem joinLines_eq_intercalate {lines : List Bytes} (h : lines ≠ []) :
    joinLines lines = [newline].intercalate lines ++ [newline] := by
  induction lines with
  | nil => exact absurd rfl h
  | cons line lines ih =>
    cases lines with
    | nil => simp
    | cons next rest => rw [joinLines_cons, ih (by simp)]; simp

/-- A file that ends in a newline is its records joined again. -/
theorem joinLines_recordLines {raw : Bytes} (h : raw = [] ∨ raw.getLast? = some newline) :
    joinLines (recordLines raw) = raw := by
  unfold recordLines
  split
  · rename_i hraw
    rw [hraw]
    rfl
  · rename_i hraw
    have hlast := h.resolve_left hraw
    rw [joinLines_eq_intercalate (by simp), List.intercalate_splitOn]
    exact List.dropLast_append_getLast? _ hlast

/-- The records of a file of lines without line endings. -/
theorem recordLines_joinLines {lines : List Bytes} (h : ∀ line ∈ lines, newline ∉ line) :
    recordLines (joinLines lines) = lines := by
  cases lines with
  | nil => rfl
  | cons line lines =>
    rw [recordLines, if_neg (by simp), joinLines_eq_intercalate (by simp), List.dropLast_concat,
      List.splitOn_intercalate _ h (by simp)]

end WagmiBench.Lib
