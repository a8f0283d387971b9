import WagmiBench.Lib.Files

/-!
# Disks that lose their writer

A disk holds files by path. A writer changes it in single steps, and one that is killed leaves the
disk that some of its steps lead to, in order. `Throughout` says that a property holds of all of
these, with a rule for each pattern of steps: appending in pieces, and installing a file by writing
a temporary one and renaming it.
-/

namespace WagmiBench.Lib

variable {P : Type} [DecidableEq P]

/-- The files by their paths, in the order of their creation. -/
abbrev Disk (P : Type) := List (P × Bytes)

/-- One change that a process makes to a disk. -/
inductive DiskStep (P : Type) where
  | create (path : P)
  /-- One `write`. -/
  | append (path : P) (bytes : Bytes)
  | rename (source target : P)

namespace Disk

/-- The bytes of a file. -/
def read (disk : Disk P) (path : P) : Option Bytes :=
  (disk.find? fun file => file.1 = path).map Prod.snd

/-- The files whose paths are of a kind. -/
def those (disk : Disk P) (kind : P → Bool) : List (P × Bytes) :=
  disk.filter fun file => kind file.1

/-- The paths of a disk. -/
def paths (disk : Disk P) : List P := disk.map Prod.fst

/-- The disk with more bytes at the end of one file. -/
def append (disk : Disk P) (path : P) (bytes : Bytes) : Disk P :=
  disk.map fun file => if file.1 = path then (path, file.2 ++ bytes) else file

end Disk

def DiskStep.apply (disk : Disk P) : DiskStep P → Disk P
  | .create path => if path ∈ disk.paths then disk else disk ++ [(path, [])]
  | .append path bytes => disk.append path bytes
  | .rename source target => (disk.filter fun file => file.1 ≠ target).map fun file =>
      if file.1 = source then (target, file.2) else file

namespace Disk

/-- The disk after steps. -/
def after (disk : Disk P) (steps : List (DiskStep P)) : Disk P := steps.foldl DiskStep.apply disk

@[simp] theorem after_nil (disk : Disk P) : disk.after [] = disk := rfl

@[simp] theorem after_append (disk : Disk P) (steps more : List (DiskStep P)) :
    disk.after (steps ++ more) = (disk.after steps).after more := by
  simp [after]

variable {disk : Disk P} {path other : P} {bytes : Bytes} {kind : P → Bool}

/-! ## Reading -/

@[simp] theorem paths_append : (disk.append path bytes).paths = disk.paths := by
  unfold paths append
  rw [List.map_map]
  refine List.map_congr_left fun file _ => ?_
  by_cases h : file.1 = path <;> simp [h]

theorem read_append_self :
    (disk.append path bytes).read path = (disk.read path).map (· ++ bytes) := by
  unfold read append
  induction disk with
  | nil => rfl
  | cons file disk ih =>
    by_cases h : file.1 = path
    · simp [h]
    · simpa [h] using ih

theorem read_append_of_ne (h : path ≠ other) :
    (disk.append path bytes).read other = disk.read other := by
  unfold read append
  induction disk with
  | nil => rfl
  | cons file disk ih =>
    by_cases hpath : file.1 = path
    · simpa [hpath, h] using ih
    · rw [List.map_cons, if_neg hpath, List.find?_cons, List.find?_cons]
      split
      · rfl
      · exact ih

theorem those_append_of_not (h : kind path = false) :
    (disk.append path bytes).those kind = disk.those kind := by
  unfold those append
  induction disk with
  | nil => rfl
  | cons file disk ih =>
    by_cases hpath : file.1 = path
    · simpa [hpath, h] using ih
    · by_cases hkind : kind file.1 = true
      · simpa [hpath, hkind] using ih
      · simpa [hpath, hkind] using ih

theorem read_concat_of_ne (h : path ≠ other) :
    read (disk ++ [(path, bytes)]) other = disk.read other := by
  unfold read
  rw [List.find?_append]
  simp [h]

omit [DecidableEq P] in
theorem those_concat : those (disk ++ [(path, bytes)]) kind =
    disk.those kind ++ if kind path then [(path, bytes)] else [] := by
  unfold those
  rw [List.filter_append]
  by_cases h : kind path = true <;> simp [h]

theorem read_eq_none : disk.read path = none ↔ path ∉ disk.paths := by
  unfold read paths
  rw [Option.map_eq_none_iff, List.find?_eq_none, List.mem_map]
  simp only [decide_eq_true_eq, not_exists, not_and]

theorem mem_paths_of_read (h : disk.read path = some bytes) : path ∈ disk.paths := by
  by_contra hnot
  rw [read_eq_none.mpr hnot] at h
  cases h

/-! ## A file at the end -/

/-- A file that is there once, as the last one, is appended to alone. -/
theorem append_concat {more : Bytes} (h : path ∉ disk.paths) :
    append (disk ++ [(path, bytes)]) path more = disk ++ [(path, bytes ++ more)] := by
  have hdisk : disk.append path more = disk := by
    unfold append
    refine (List.map_congr_left fun file hfile => ?_).trans (List.map_id _)
    rw [if_neg fun heq => h (List.mem_map.mpr ⟨file, hfile, heq⟩), id]
  have happend : append (disk ++ [(path, bytes)]) path more =
      disk.append path more ++ [(path, bytes ++ more)] := by simp [append]
  rw [happend, hdisk]

/-- The last file gets another name. -/
theorem rename_concat (h : path ∉ disk.paths) (hother : other ∉ disk.paths) (hne : path ≠ other) :
    (DiskStep.rename path other).apply (disk ++ [(path, bytes)]) = disk ++ [(other, bytes)] := by
  have hkeep : disk.filter (fun file => file.1 ≠ other) = disk :=
    List.filter_eq_self.mpr fun file hfile => by
      simpa using fun heq => hother (List.mem_map.mpr ⟨file, hfile, heq⟩)
  have hmap : disk.map (fun file => if file.1 = path then (other, file.2) else file) = disk := by
    refine (List.map_congr_left fun file hfile => ?_).trans (List.map_id _)
    rw [if_neg fun heq => h (List.mem_map.mpr ⟨file, hfile, heq⟩), id]
  simp only [DiskStep.apply, List.filter_append, hkeep, List.map_append, hmap]
  simp [hne]

/-! ## At every moment -/

/-- A property holds of the disk, and after each of the steps. -/
def Throughout (good : Disk P → Prop) (disk : Disk P) (steps : List (DiskStep P)) : Prop :=
  ∀ n, good (disk.after (steps.take n))

variable {good : Disk P → Prop} {steps more : List (DiskStep P)}

theorem Throughout.first (h : Throughout good disk steps) : good disk := h 0

theorem Throughout.last (h : Throughout good disk steps) : good (disk.after steps) := by
  simpa using h steps.length

@[simp] theorem throughout_nil : Throughout good disk [] ↔ good disk := by
  simp [Throughout]

theorem Throughout.append (h : Throughout good disk steps)
    (hmore : Throughout good (disk.after steps) more) : Throughout good disk (steps ++ more) := by
  intro n
  rw [List.take_append]
  rcases Nat.le_total n steps.length with hn | hn
  · simpa [Nat.sub_eq_zero_of_le hn] using h n
  · rw [List.take_of_length_le hn, after_append]
    exact hmore _

theorem Throughout.cons {step : DiskStep P} (h : good disk)
    (hmore : Throughout good (step.apply disk) steps) : Throughout good disk (step :: steps) := by
  intro n
  cases n with
  | zero => exact h
  | succ n => exact hmore n

theorem Throughout.imp {good' : Disk P → Prop} (h : Throughout good disk steps)
    (himp : ∀ disk, good disk → good' disk) : Throughout good' disk steps := fun n => himp _ (h n)

/-- What is measured of a disk only grows from step to step. -/
def Climbing {α : Type} (measure : Disk P → α) (below : α → α → Prop) (disk : Disk P)
    (steps : List (DiskStep P)) : Prop :=
  ∀ n m, n ≤ m → below (measure (disk.after (steps.take n))) (measure (disk.after (steps.take m)))

section Climbing

variable {α : Type} {measure : Disk P → α} {below : α → α → Prop}

theorem Climbing.append [IsTrans α below] (h : Climbing measure below disk steps)
    (hmore : Climbing measure below (disk.after steps) more) :
    Climbing measure below disk (steps ++ more) := by
  have front : ∀ n, n ≤ steps.length → (steps ++ more).take n = steps.take n := fun n hn =>
    List.take_append_of_le_length hn
  have back : ∀ n, steps.length ≤ n →
      disk.after ((steps ++ more).take n) =
        (disk.after steps).after (more.take (n - steps.length)) := by
    intro n hn
    rw [List.take_append, List.take_of_length_le hn, after_append]
  intro n m hnm
  rcases Nat.le_total m steps.length with hm | hm
  · rw [front m hm, front n (hnm.trans hm)]
    exact h n m hnm
  · rcases Nat.le_total n steps.length with hn | hn
    · rw [front n hn, back m hm]
      have middle := h n steps.length hn
      rw [List.take_length] at middle
      exact trans_of below middle (hmore 0 _ (Nat.zero_le _))
    · rw [back n hn, back m hm]
      exact hmore _ _ (Nat.sub_le_sub_right hnm _)

theorem climbing_of_throughout {a : α} (ha : below a a)
    (h : Throughout (fun disk => measure disk = a) disk steps) :
    Climbing measure below disk steps := by
  intro n m _
  rw [h n, h m]
  exact ha

end Climbing

/-- Pieces written one after the other. -/
theorem after_pieces (pieces : List Bytes) :
    disk.after (pieces.map (.append path)) = disk.append path pieces.flatten := by
  induction pieces generalizing disk with
  | nil =>
    refine (((List.map_congr_left fun file _ => ?_).trans (List.map_id _))).symm
    by_cases h : file.1 = path
    · simp [← h]
    · simp [h]
  | cons piece pieces ih =>
    have step : disk.after ((piece :: pieces).map (.append path)) =
        (disk.append path piece).after (pieces.map (.append path)) := rfl
    rw [step, ih, List.flatten_cons]
    unfold append
    rw [List.map_map]
    refine List.map_congr_left fun file _ => ?_
    by_cases h : file.1 = path <;> simp [h]

/-- While pieces are written the file holds what it held and a front of what they are. -/
theorem throughout_pieces {pieces : List Bytes}
    (h : ∀ front, front <+: pieces.flatten → good (disk.append path front)) :
    Throughout good disk (pieces.map (.append path)) := by
  intro n
  rw [← List.map_take, after_pieces]
  refine h _ ?_
  rw [← List.take_append_drop n pieces, List.flatten_append, List.take_append_drop]
  exact List.prefix_append _ _

/-- Pieces that bring a file to an end: what is measured changes with the last byte. -/
theorem climbing_pieces {α : Type} {measure : Disk P → α} {below : α → α → Prop} {a b : α}
    {pieces : List Bytes} {data : Bytes} (haa : below a a) (hab : below a b) (hbb : below b b)
    (hpieces : pieces.flatten <+: data)
    (h : ∀ front, front <+: data →
      measure (disk.append path front) = if front = data then b else a) :
    Climbing measure below disk (pieces.map (.append path)) := by
  have front : ∀ n, (pieces.take n).flatten <+: pieces.flatten := by
    intro n
    conv_rhs => rw [← List.take_append_drop n pieces, List.flatten_append]
    exact List.prefix_append _ _
  have grows : ∀ n m, n ≤ m → (pieces.take n).flatten <+: (pieces.take m).flatten := by
    intro n m hnm
    have : pieces.take n = (pieces.take m).take n := by rw [List.take_take, Nat.min_eq_left hnm]
    rw [this]
    conv_rhs => rw [← List.take_append_drop n (pieces.take m), List.flatten_append]
    exact List.prefix_append _ _
  intro n m hnm
  rw [← List.map_take, ← List.map_take, after_pieces, after_pieces,
    h _ ((front n).trans hpieces), h _ ((front m).trans hpieces)]
  split
  · rename_i hn
    -- the data is there, and nothing follows it
    have hm : (pieces.take m).flatten = data :=
      ((front m).trans hpieces).eq_of_length_le (by rw [← hn]; exact (grows n m hnm).length_le)
    rw [if_pos hm]
    exact hbb
  · split
    · exact hab
    · exact haa

end Disk

/-! ## Lines of a file that is appended to -/

/-- Finished lines and one that is not. -/
theorem splitOn_lines {lines : List Bytes} {tail : Bytes} (h : ∀ line ∈ lines, newline ∉ line)
    (htail : newline ∉ tail) : (joinLines lines ++ tail).splitOn newline = lines ++ [tail] := by
  have join : joinLines lines ++ tail = [newline].intercalate (lines ++ [tail]) := by
    induction lines with
    | nil => simp
    | cons line lines ih =>
      rw [joinLines_cons, List.append_assoc, List.cons_append, ih fun l hl => h l (by simp [hl])]
      cases lines <;> simp
  rw [join, List.splitOn_intercalate _ _ (by simp)]
  intro line hline
  rcases List.mem_append.mp hline with hline | hline
  · exact h line hline
  · rwa [List.mem_singleton.mp hline]

/-- Of longer bytes the first lines are the same. -/
theorem splitOn_front {bytes bytes' : Bytes} (h : bytes <+: bytes') :
    (bytes.splitOn newline).dropLast <+: (bytes'.splitOn newline).dropLast := by
  obtain ⟨rest, rfl⟩ := h
  have grown : ∃ more : List Bytes, more ≠ [] ∧
      (bytes ++ rest).splitOn newline = (bytes.splitOn newline).dropLast ++ more := by
    induction bytes with
    | nil => exact ⟨rest.splitOn newline, List.splitOn_ne_nil _ _, by simp⟩
    | cons b bytes ih =>
      obtain ⟨more, hmore, heq⟩ := ih
      have hne := List.splitOn_ne_nil newline bytes
      rw [List.cons_append, List.splitOn_cons_eq_if_modifyHead, List.splitOn_cons_eq_if_modifyHead]
      split
      · exact ⟨more, hmore, by rw [heq, List.dropLast_cons_of_ne_nil hne, List.cons_append]⟩
      · rw [heq]
        -- the line that goes on is a finished one, or the first of what follows
        cases hlines : bytes.splitOn newline with
        | nil => exact absurd hlines hne
        | cons line lines =>
          cases lines with
          | nil => exact ⟨more.modifyHead (List.cons b), by simpa using hmore, by simp⟩
          | cons line' lines => exact ⟨more, hmore, by simp⟩
  obtain ⟨more, hmore, heq⟩ := grown
  rw [heq, List.dropLast_append_of_ne_nil hmore]
  exact List.prefix_append _ _

end WagmiBench.Lib
