import WagmiBench.Lib.Outcome

/-!
# What a computation raised

The counterparts of the `_eq_ok` lemmas for computations that raised: which step of a sequence raised
what is raised.
-/

namespace WagmiBench.Lib

variable {ε α β : Type}

/-- A sequence raised where its head did, or its tail on what the head returned. -/
theorem bind_error_iff {head : Except ε α} {tail : α → Except ε β} {e : ε} :
    (head >>= tail) = .error e ↔
      head = .error e ∨ ∃ a, head = .ok a ∧ tail a = .error e := by
  cases head with
  | error e' => simp [bind, Except.bind]
  | ok a => simp

theorem require_eq_error {c : Prop} [Decidable c] {e e' : ε} :
    require c e = (.error e' : Except ε Unit) ↔ ¬ c ∧ e = e' := by
  unfold require
  split <;> simp [*]

theorem pure_ne_error {a : α} {e : ε} : (pure a : Except ε α) ≠ .error e := fun h => by cases h

/-- A loop raised where one of its steps did. -/
theorem mapM_eq_error {f : α → Except ε β} {xs : List α} {e : ε} (h : xs.mapM f = .error e) :
    ∃ x ∈ xs, f x = .error e := by
  induction xs with
  | nil => cases h
  | cons x xs ih =>
    rw [List.mapM_cons, bind_error_iff] at h
    rcases h with h | ⟨y, -, h⟩
    · exact ⟨x, by simp, h⟩
    · rcases bind_error_iff.mp h with h | ⟨ys, -, h⟩
      · obtain ⟨x', hx', h⟩ := ih h
        exact ⟨x', by simp [hx'], h⟩
      · cases h

/-- A step that keeps something of its item keeps it over the loop. -/
theorem map_eq_of_mapM {γ : Type*} {f : α → Except ε β} {xs : List α} {ys : List β} {g : α → γ}
    {h : β → γ} (hloop : xs.mapM f = .ok ys) (heq : ∀ x ∈ xs, ∀ y, f x = .ok y → h y = g x) :
    ys.map h = xs.map g := by
  have hall := mapM_eq_ok.mp hloop
  clear hloop
  induction hall with
  | nil => rfl
  | @cons x y xs ys hxy _ ih =>
    rw [List.map_cons, List.map_cons, heq x (by simp) y hxy, ih fun x hx => heq x (by simp [hx])]

/-- A loop over part of a list returns that part of the results. -/
theorem mapM_filter {f : α → Except ε β} {xs : List α} {ys : List β} {p : α → Bool} {q : β → Bool}
    (hloop : xs.mapM f = .ok ys) (heq : ∀ x y, f x = .ok y → q y = p x) :
    (xs.filter p).mapM f = .ok (ys.filter q) := by
  have hall := mapM_eq_ok.mp hloop
  clear hloop
  refine mapM_eq_ok.mpr ?_
  induction hall with
  | nil => exact .nil
  | @cons x y xs ys hxy _ ih =>
    rw [List.filter_cons, List.filter_cons, heq x y hxy]
    split
    · exact .cons hxy ih
    · exact ih

/-- A loop returns when every step does. -/
theorem returns_mapM {f : α → Except ε β} {xs : List α} (h : ∀ x ∈ xs, Returns (f x)) :
    Returns (xs.mapM f) := by
  cases hloop : xs.mapM f with
  | ok ys => exact ⟨ys, rfl⟩
  | error e =>
    obtain ⟨x, hx, herror⟩ := mapM_eq_error hloop
    obtain ⟨y, hy⟩ := h x hx
    exact absurd (hy.symm.trans herror) (by simp)

/-- A loop over what another loop returned. -/
theorem mapM_bind_eq {γ : Type} {f : α → Except ε β} {g : β → Except ε γ} {xs : List α}
    {ys : List β} (h : xs.mapM f = .ok ys) : (xs.mapM fun x => f x >>= g) = ys.mapM g := by
  have hall := mapM_eq_ok.mp h
  clear h
  induction hall with
  | nil => rfl
  | cons hxy _ ih => rw [List.mapM_cons, List.mapM_cons, hxy, ok_bind, ih]

/-- A loop over a permuted list returns the same results, permuted along. -/
theorem mapM_perm {f : α → Except ε β} {xs xs' : List α} (hperm : xs.Perm xs') {ys : List β}
    (h : xs.mapM f = .ok ys) :
    ∃ ys', xs'.mapM f = .ok ys' ∧ (xs.zip ys).Perm (xs'.zip ys') := by
  induction hperm generalizing ys with
  | nil => exact ⟨ys, h, .refl _⟩
  | cons x _ ih =>
    obtain ⟨y, rest, hy, hrest, rfl⟩ := List.forall₂_cons_left_iff.mp (mapM_eq_ok.mp h)
    obtain ⟨rest', hrest', hzip⟩ := ih (mapM_eq_ok.mpr hrest)
    exact ⟨y :: rest', mapM_eq_ok.mpr (.cons hy (mapM_eq_ok.mp hrest')), hzip.cons _⟩
  | swap x x' xs =>
    obtain ⟨y', _, hy', hrest, rfl⟩ := List.forall₂_cons_left_iff.mp (mapM_eq_ok.mp h)
    obtain ⟨y, rest, hy, htail, rfl⟩ := List.forall₂_cons_left_iff.mp hrest
    exact ⟨y :: y' :: rest, mapM_eq_ok.mpr (.cons hy (.cons hy' htail)), .swap _ _ _⟩
  | trans _ _ ih ih' =>
    obtain ⟨ys', hys', hzip⟩ := ih h
    obtain ⟨ys'', hys'', hzip'⟩ := ih' hys'
    exact ⟨ys'', hys'', hzip.trans hzip'⟩

/-! ## The exceptions a computation is limited to -/

/-- The computation raises nothing but allowed exceptions. -/
def RaisesOnly (allowed : ε → Prop) (x : Except ε α) : Prop :=
  ∀ e, x = .error e → allowed e

variable {allowed : ε → Prop}

theorem raisesOnly_ok (a : α) : RaisesOnly allowed (.ok a : Except ε α) := fun _ h => by simp at h

theorem raisesOnly_error {e : ε} (h : allowed e) : RaisesOnly allowed (.error e : Except ε α) := by
  rintro _ ⟨⟩
  exact h

theorem raisesOnly_require {c : Prop} [Decidable c] {e : ε} (h : allowed e) :
    RaisesOnly allowed (require c e) := by
  unfold require
  split
  · exact raisesOnly_ok ()
  · exact raisesOnly_error h

theorem RaisesOnly.bind {x : Except ε α} {f : α → Except ε β} (hx : RaisesOnly allowed x)
    (hf : ∀ a, RaisesOnly allowed (f a)) : RaisesOnly allowed (x >>= f) := by
  rcases x with e | a
  · intro e' h
    exact hx e' (by simpa using h)
  · exact hf a

end WagmiBench.Lib
