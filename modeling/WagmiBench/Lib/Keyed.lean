import Mathlib.Tactic

/-!
# Lists of keyed entries

`firstOfEach` keeps the first entry under each key, and `totalOf` adds up what is under one key.
Both are followed over a list that grows at its end.
-/

namespace WagmiBench.Lib

/-! ## The first entry of each key -/

section First

variable {ι α : Type*} [DecidableEq ι]

/-- The first entry under each key, in order. -/
def firstOfEach : List (ι × α) → List (ι × α)
  | [] => []
  | entry :: rest => entry :: (firstOfEach rest).filter fun other => other.1 ≠ entry.1

/-- An entry that arrives last counts when its key is new. -/
theorem firstOfEach_concat (entries : List (ι × α)) (entry : ι × α) :
    firstOfEach (entries ++ [entry]) =
      if entry.1 ∈ entries.map Prod.fst then firstOfEach entries
      else firstOfEach entries ++ [entry] := by
  induction entries with
  | nil => rfl
  | cons first rest ih =>
    rw [List.cons_append, firstOfEach, ih]
    by_cases hrest : entry.1 ∈ rest.map Prod.fst
    · rw [if_pos hrest, if_pos (by simp [hrest]), firstOfEach]
    · rw [if_neg hrest, List.filter_append]
      by_cases hfirst : entry.1 = first.1
      · simp [hfirst, firstOfEach]
      · rw [if_neg (by simpa [hfirst] using hrest)]
        simp [hfirst, firstOfEach]

end First

/-! ## The total of a key -/

section Total

variable {ι α : Type*} [DecidableEq ι] (key : α → ι) (count : α → ℤ)

/-- What the entries under one key add up to. -/
def totalOf (entries : List α) (i : ι) : ℤ :=
  ((entries.filter fun entry => key entry = i).map count).sum

@[simp] theorem totalOf_nil (i : ι) : totalOf key count [] i = 0 := rfl

@[simp] theorem totalOf_append (front back : List α) (i : ι) :
    totalOf key count (front ++ back) i = totalOf key count front i + totalOf key count back i := by
  simp [totalOf]

theorem totalOf_singleton (entry : α) (i : ι) :
    totalOf key count [entry] i = if key entry = i then count entry else 0 := by
  by_cases h : key entry = i <;> simp [totalOf, h]

variable {key count}

theorem totalOf_perm {entries others : List α} (h : entries.Perm others) (i : ι) :
    totalOf key count entries i = totalOf key count others i :=
  ((h.filter _).map _).sum_eq

theorem totalOf_nonneg {entries : List α} (h : ∀ entry ∈ entries, 0 ≤ count entry) (i : ι) :
    0 ≤ totalOf key count entries i := by
  refine List.sum_nonneg fun n hn => ?_
  obtain ⟨entry, hmem, rfl⟩ := List.mem_map.mp hn
  exact h entry (List.mem_filter.mp hmem).1

/-- A key nothing is under has no total. -/
theorem totalOf_eq_zero {entries : List α} {i : ι} (h : i ∉ entries.map key) :
    totalOf key count entries i = 0 := by
  have none : entries.filter (fun entry => key entry = i) = [] :=
    List.filter_eq_nil_iff.mpr fun entry hmem heq =>
      h (List.mem_map.mpr ⟨entry, hmem, of_decide_eq_true heq⟩)
  rw [totalOf, none, List.map_nil, List.sum_nil]

/-- Where keys occur once, the total of a key is the count of its entry. -/
theorem totalOf_of_mem {entries : List α} (hnodup : (entries.map key).Nodup) {entry : α}
    (hmem : entry ∈ entries) : totalOf key count entries (key entry) = count entry := by
  induction entries with
  | nil => simp at hmem
  | cons first rest ih =>
    rw [List.map_cons, List.nodup_cons] at hnodup
    have split : totalOf key count (first :: rest) (key entry) =
        totalOf key count [first] (key entry) + totalOf key count rest (key entry) :=
      totalOf_append key count [first] rest _
    rw [split, totalOf_singleton]
    rcases List.mem_cons.mp hmem with rfl | hrest
    · rw [if_pos rfl, totalOf_eq_zero hnodup.1, add_zero]
    · have hne : key first ≠ key entry := fun h =>
        hnodup.1 (List.mem_map.mpr ⟨entry, hrest, h.symm⟩)
      rw [if_neg hne, ih hnodup.2 hrest, zero_add]

/-- The total of a key, and what is under the others, add up to everything. -/
theorem totalOf_add_rest (entries : List α) (i : ι) :
    totalOf key count entries i + ((entries.filter fun entry => key entry ≠ i).map count).sum =
      (entries.map count).sum := by
  induction entries with
  | nil => rfl
  | cons entry rest ih =>
    simp only [totalOf, ne_eq, decide_not] at ih
    by_cases h : key entry = i
    · simp [totalOf, h, add_assoc, ih]
    · simp [totalOf, h, add_left_comm, ih]

/-- Removing the entries of a key leaves the other totals. -/
theorem totalOf_filter_ne (entries : List α) {i j : ι} (h : j ≠ i) :
    totalOf key count (entries.filter fun entry => key entry ≠ i) j =
      totalOf key count entries j := by
  rw [totalOf, totalOf, List.filter_filter]
  congr 2
  refine List.filter_congr fun entry _ => ?_
  by_cases hj : key entry = j
  · simp [hj, h]
  · simp [hj]

theorem totalOf_filter_self (entries : List α) (i : ι) :
    totalOf key count (entries.filter fun entry => key entry ≠ i) i = 0 :=
  totalOf_eq_zero fun h => by
    obtain ⟨entry, hmem, heq⟩ := List.mem_map.mp h
    exact of_decide_eq_true (List.mem_filter.mp hmem).2 heq

end Total

end WagmiBench.Lib
