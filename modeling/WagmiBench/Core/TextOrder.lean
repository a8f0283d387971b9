import WagmiBench.Core.Config
import WagmiBench.Lib.JsonCanonical

/-!
# The order of texts

Texts are compared as lists of code points; sorting them does not depend on the order they come in.
-/

namespace WagmiBench.Core

open WagmiBench.Lib

/-- Texts are ordered as lists of code points. -/
theorem textLe_iff {s t : Text} : textLe s t = true ↔ s.map Fin.val ≤ t.map Fin.val := by
  have units : textLe s t = Json.unitsLe (s.map Fin.val) (t.map Fin.val) := by
    induction s generalizing t with
    | nil => rfl
    | cons a s ih =>
      cases t with
      | nil => rfl
      | cons b t =>
        have head : (a == b) = (a.val == b.val) := by
          rw [Bool.eq_iff_iff, beq_iff_eq, beq_iff_eq, Fin.ext_iff]
        simp [textLe, Json.unitsLe, ih, head]
  rw [units, Json.unitsLe_iff]

theorem textLe_antisymm {s t : Text} (h : textLe s t = true) (h' : textLe t s = true) : s = t :=
  List.map_injective_iff.mpr Fin.val_injective (le_antisymm (textLe_iff.mp h) (textLe_iff.mp h'))

theorem mem_sortTexts {t : Text} {texts : List Text} : t ∈ sortTexts texts ↔ t ∈ texts :=
  (List.perm_insertionSort _ texts).mem_iff

theorem sortTexts_perm {texts texts' : List Text} (h : texts.Perm texts') :
    sortTexts texts = sortTexts texts' := by
  let le : Text → Text → Prop := fun a b => textLe a b = true
  have : Std.Total le := ⟨fun a b => by
    simpa only [le, textLe_iff] using le_total (a.map Fin.val) (b.map Fin.val)⟩
  have : IsTrans Text le := ⟨fun a b c => by
    simpa only [le, textLe_iff] using le_trans⟩
  have sorted : ∀ l : List Text, (sortTexts l).Pairwise le := fun l =>
    List.pairwise_insertionSort le l
  have hperm : (sortTexts texts).Perm (sortTexts texts') :=
    (List.perm_insertionSort le texts).trans (h.trans (List.perm_insertionSort le texts').symm)
  exact hperm.eq_of_pairwise (fun a b _ _ => textLe_antisymm) (sorted texts) (sorted texts')

end WagmiBench.Core
