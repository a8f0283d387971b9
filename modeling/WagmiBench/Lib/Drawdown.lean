import Mathlib.Algebra.Order.Ring.Int
import Mathlib.Tactic.Linarith

/-!
# Drawdown of a series

A value of a series is drawn down from the running peak. `Breaches limit scale peak values` says that
some value, after a peak of `peak`, lies at least the fraction `limit / scale` of its running peak
below it. Extending a series only adds the breach of its last value, and lowering a last value that
breaches keeps the breach.
-/

namespace WagmiBench.Lib

/-- The running peak after a series that began at `peak`. -/
def runningPeak (peak : ℤ) (values : List ℤ) : ℤ := values.foldl max peak

@[simp] theorem runningPeak_nil (peak : ℤ) : runningPeak peak [] = peak := rfl

@[simp] theorem runningPeak_cons (peak v : ℤ) (values : List ℤ) :
    runningPeak peak (v :: values) = runningPeak (max peak v) values := rfl

theorem runningPeak_append (peak : ℤ) (l m : List ℤ) :
    runningPeak peak (l ++ m) = runningPeak (runningPeak peak l) m :=
  List.foldl_append

theorem runningPeak_le_iff {peak x : ℤ} {values : List ℤ} :
    runningPeak peak values ≤ x ↔ peak ≤ x ∧ ∀ v ∈ values, v ≤ x := by
  induction values generalizing peak with
  | nil => simp
  | cons v values ih => simp [ih, and_assoc]

theorem le_runningPeak {peak : ℤ} {values : List ℤ} : peak ≤ runningPeak peak values :=
  (runningPeak_le_iff.mp le_rfl).1

/-- A value lies at least `limit / scale` of the peak below it. -/
abbrev DrawnDown (limit scale peak value : ℤ) : Prop := limit * peak ≤ (peak - value) * scale

/-- Some value of the series is drawn down from its running peak. -/
def Breaches (limit scale : ℤ) : ℤ → List ℤ → Prop
  | _, [] => False
  | peak, v :: values =>
    DrawnDown limit scale (max peak v) v ∨ Breaches limit scale (max peak v) values

variable {limit scale peak v w : ℤ} {values : List ℤ}

theorem breaches_append_singleton :
    Breaches limit scale peak (values ++ [v]) ↔ Breaches limit scale peak values ∨
      DrawnDown limit scale (max (runningPeak peak values) v) v := by
  induction values generalizing peak with
  | nil => simp [Breaches]
  | cons u values ih => simp only [List.cons_append, Breaches, ih, runningPeak_cons, or_assoc]

/-- A drawn-down value is below the peak it is drawn down from. -/
theorem DrawnDown.lt (h : DrawnDown limit scale (max peak v) v) (hlimit : 0 < limit)
    (hpeak : 0 < peak) : v < peak := by
  by_contra hle
  have hmax : max peak v = v := max_eq_right (not_lt.mp hle)
  rw [DrawnDown, hmax, sub_self, zero_mul] at h
  have : 0 < limit * v := mul_pos hlimit (hpeak.trans_le (not_lt.mp hle))
  omega

/-- A lower value is drawn down too. -/
theorem DrawnDown.of_le (h : DrawnDown limit scale (max peak v) v) (hw : w ≤ v) (hlimit : 0 < limit)
    (hscale : 0 ≤ scale) (hpeak : 0 < peak) : DrawnDown limit scale (max peak w) w := by
  have hlt := h.lt hlimit hpeak
  rw [max_eq_left hlt.le] at h
  rw [max_eq_left (hw.trans hlt.le)]
  exact h.trans (mul_le_mul_of_nonneg_right (by omega) hscale)

end WagmiBench.Lib
