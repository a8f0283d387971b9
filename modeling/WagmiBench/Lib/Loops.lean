import WagmiBench.Lib.Outcome

/-!
# Numbered loops

A loop over a list with the numbers of its elements goes through when each of its rounds does, and a
loop over a front of the list returns a front of what the whole loop returns.
-/

namespace WagmiBench.Lib

variable {ε α β : Type}

/-- A numbered loop goes through when each of its rounds does. -/
theorem exists_mapM_zipIdx {P : ℕ → β → Prop} (f : α × ℕ → Except ε β)
    (xs : List α) (k : ℕ)
    (h : ∀ i x, xs[i]? = some x → ∃ y, f (x, k + i) = .ok y ∧ P (k + i) y) :
    ∃ ys, (xs.zipIdx k).mapM f = .ok ys ∧ ys.length = xs.length ∧
      ∀ i y, ys[i]? = some y → P (k + i) y := by
  induction xs generalizing k with
  | nil => exact ⟨[], rfl, rfl, by simp⟩
  | cons x xs ih =>
    obtain ⟨y, hy, hP⟩ := h 0 x rfl
    obtain ⟨ys, hys, hlength, hall⟩ := ih (k + 1) fun i x' hx' => by
      have := h (i + 1) x' hx'
      rwa [show k + (i + 1) = k + 1 + i by omega] at this
    refine ⟨y :: ys, ?_, by simp [hlength], fun i y' hy' => ?_⟩
    · rw [List.zipIdx_cons, List.mapM_cons]
      exact bind_ok_iff.mpr ⟨y, hy, bind_ok_iff.mpr ⟨ys, hys, rfl⟩⟩
    · cases i with
      | zero =>
        obtain rfl := Option.some.inj hy'
        exact hP
      | succ i =>
        have := hall i y' hy'
        rwa [show k + 1 + i = k + (i + 1) by omega] at this

/-- A numbered loop that has returned, round by round. -/
theorem mapM_zipIdx_round {f : α × ℕ → Except ε β} {xs : List α} {ys : List β}
    (h : xs.zipIdx.mapM f = .ok ys) {i : ℕ} {x : α} (hx : xs[i]? = some x) :
    ∃ y, ys[i]? = some y ∧ f (x, i) = .ok y := by
  have hi : i < ys.length := mapM_zipIdx_length h ▸ (List.getElem?_eq_some_iff.mp hx).1
  obtain ⟨x', hx', hf⟩ := mapM_zipIdx_getElem? h (List.getElem?_eq_getElem hi)
  obtain rfl := Option.some.inj (hx.symm.trans hx')
  exact ⟨_, List.getElem?_eq_getElem hi, hf⟩

theorem forM_zipIdx_eq_ok {f : α × ℕ → Except ε PUnit} {xs : List α} (k : ℕ) :
    (xs.zipIdx k).forM f = .ok ⟨⟩ ↔ ∀ i x, xs[i]? = some x → f (x, k + i) = .ok ⟨⟩ := by
  induction xs generalizing k with
  | nil => simp [pure_eq_ok, List.forM_eq_forM]
  | cons first xs ih =>
    rw [List.zipIdx_cons, List.forM_eq_forM, List.forM_cons, bind_ok_iff]
    constructor
    · rintro ⟨_, hfirst, hrest⟩ i x hx
      cases i with
      | zero =>
        obtain rfl := Option.some.inj hx
        exact hfirst
      | succ i =>
        have := (ih (k + 1)).mp hrest i x hx
        rwa [show k + 1 + i = k + (i + 1) by omega] at this
    · intro h
      refine ⟨⟨⟩, h 0 first rfl, (ih (k + 1)).mpr fun i x hx => ?_⟩
      have := h (i + 1) x hx
      rwa [show k + (i + 1) = k + 1 + i by omega] at this

/-! ## Fronts -/

section Fronts

variable {f : α → Except ε β} {xs xs' : List α} {ys ys' : List β}

/-- A loop over a front of a list returns a front. -/
theorem mapM_front (h : xs.mapM f = .ok ys) (h' : xs'.mapM f = .ok ys') (hxs : xs <+: xs') :
    ys <+: ys' := by
  obtain ⟨more, rfl⟩ := hxs
  rw [List.mapM_append, h, ok_bind] at h'
  obtain ⟨zs, -, hys'⟩ := bind_ok_iff.mp h'
  rw [← Except.ok.inj hys']
  exact List.prefix_append _ _

theorem zipIdx_front (hxs : xs <+: xs') : xs.zipIdx <+: xs'.zipIdx := by
  obtain ⟨more, rfl⟩ := hxs
  rw [List.zipIdx_append]
  exact List.prefix_append _ _

end Fronts

end WagmiBench.Lib
