import Mathlib.Algebra.Order.Group.Int
import Mathlib.Data.List.Basic
import Mathlib.Tactic.Common

/-!
# Windows of an ordered series

A series is a list whose keys strictly increase. The entries with a key in `[a, b)` and those with a
key in `[b, c)` are, one after the other, the entries with a key in `[a, c)`: adjacent windows neither
leave out an entry nor take one twice.
-/

namespace WagmiBench.Lib

universe u

variable {α : Type u} {key : α → ℤ} {l : List α} {a b c : ℤ}

/-- The entries whose key lies in `[a, b)`. -/
def window (key : α → ℤ) (a b : ℤ) (l : List α) : List α :=
  l.filter fun x => a ≤ key x ∧ key x < b

theorem mem_window {x : α} : x ∈ window key a b l ↔ x ∈ l ∧ a ≤ key x ∧ key x < b := by
  simp [window]

@[simp] theorem window_nil : window key a b ([] : List α) = [] := rfl

theorem window_cons (x : α) : window key a b (x :: l) =
    if a ≤ key x ∧ key x < b then x :: window key a b l else window key a b l := by
  simp only [window, List.filter_cons, decide_eq_true_eq]

@[simp] theorem window_self : window key a a l = [] :=
  List.filter_eq_nil_iff.mpr fun x _ => by
    simp only [decide_eq_true_eq]
    omega

/-- A window ends where the series has reached its upper bound. -/
theorem window_eq_nil (h : ∀ x ∈ l, b ≤ key x) : window key a b l = [] :=
  List.filter_eq_nil_iff.mpr fun x hx => by
    have := h x hx
    simp only [decide_eq_true_eq]
    omega

theorem window_increasing (h : (l.map key).Pairwise (· < ·)) :
    ((window key a b l).map key).Pairwise (· < ·) :=
  h.sublist (List.filter_sublist.map key)

/-- Adjacent windows of a series join. -/
theorem window_append (h : (l.map key).Pairwise (· < ·)) (hab : a ≤ b) (hbc : b ≤ c) :
    window key a b l ++ window key b c l = window key a c l := by
  induction l with
  | nil => rfl
  | cons x l ih =>
    obtain ⟨hx, hl⟩ := List.pairwise_cons.mp h
    have later : ∀ y ∈ l, key x < key y := fun y hy => hx _ (List.mem_map_of_mem hy)
    simp only [window_cons]
    rcases lt_or_ge (key x) b with hlt | hge
    · rw [if_neg (by omega : ¬ (b ≤ key x ∧ key x < c))]
      by_cases ha : a ≤ key x
      · rw [if_pos ⟨ha, hlt⟩, if_pos ⟨ha, by omega⟩, List.cons_append, ih hl]
      · rw [if_neg (by omega), if_neg (by omega), ih hl]
    · -- the first window is over, here and in the rest
      have past : window key a b l = [] := window_eq_nil fun y hy => by
        have := later y hy
        omega
      rw [past, if_neg (by omega : ¬ (a ≤ key x ∧ key x < b)), List.nil_append]
      rw [past, List.nil_append] at ih
      by_cases hc : key x < c
      · rw [if_pos ⟨hge, hc⟩, if_pos ⟨by omega, hc⟩, ih hl]
      · rw [if_neg (by omega), if_neg (by omega), ih hl]

/-- A window is its entry at the lower bound, if there is one, and the entries strictly inside. -/
theorem window_eq_find_append (h : (l.map key).Pairwise (· < ·)) (hab : a < b) :
    (l.find? fun x => key x = a).toList ++ (l.filter fun x => a < key x ∧ key x < b) =
      window key a b l := by
  induction l with
  | nil => rfl
  | cons x l ih =>
    obtain ⟨hx, hl⟩ := List.pairwise_cons.mp h
    have later : ∀ y ∈ l, key x < key y := fun y hy => hx _ (List.mem_map_of_mem hy)
    simp only [window_cons, List.find?_cons, List.filter_cons, decide_eq_true_eq]
    rcases lt_trichotomy (key x) a with hlt | rfl | hgt
    · simp only [decide_eq_false (by omega : ¬ key x = a)]
      rw [if_neg (by omega), if_neg (by omega), ih hl]
    · -- no later entry has this key
      have none : l.find? (fun y => key y = key x) = none :=
        List.find?_eq_none.mpr fun y hy => by
          have := later y hy
          simp only [decide_eq_true_eq]
          omega
      have rest := ih hl
      rw [none] at rest
      simp only [Option.toList_none, List.nil_append] at rest
      simp only [decide_true, Option.toList_some, List.singleton_append]
      rw [if_neg (by omega), if_pos ⟨le_rfl, hab⟩, rest]
    · have none : l.find? (fun y => key y = a) = none :=
        List.find?_eq_none.mpr fun y hy => by
          have := later y hy
          simp only [decide_eq_true_eq]
          omega
      have rest := ih hl
      rw [none] at rest
      simp only [Option.toList_none, List.nil_append] at rest
      simp only [decide_eq_false (by omega : ¬ key x = a), none, Option.toList_none,
        List.nil_append]
      by_cases hb : key x < b
      · rw [if_pos ⟨hgt, hb⟩, if_pos ⟨by omega, hb⟩, rest]
      · rw [if_neg (by omega), if_neg (by omega), rest]

/-- Filtering by a property of the first `n` entries, and of no others, takes those entries. -/
theorem filter_eq_take {p : α → Bool} {n : ℕ}
    (h : ∀ i x, l[i]? = some x → (p x = true ↔ i < n)) : l.filter p = l.take n := by
  induction l generalizing n with
  | nil => simp
  | cons x l ih =>
    have head : p x = true ↔ 0 < n := h 0 x rfl
    cases n with
    | zero =>
      rw [List.take_zero, List.filter_eq_nil_iff]
      intro y hy
      obtain ⟨i, hi⟩ := List.mem_iff_getElem?.mp hy
      rw [h i y hi]
      omega
    | succ n =>
      rw [List.filter_cons_of_pos (head.mpr n.succ_pos), List.take_succ_cons, ih fun i y hy => ?_]
      rw [h (i + 1) y (by simpa using hy)]
      omega

end WagmiBench.Lib
