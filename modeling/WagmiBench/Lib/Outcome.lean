import Mathlib.Tactic

/-!
# Computations that may raise

`Except ε` is the shape of every routine that can raise. This module holds what the rest of the
development uses about it: `require` is the guard `if not c: raise e`, the `_eq_ok` lemmas invert a
computation that returned, and `loopFrom` is the bounded loop `for t in range(n): if stop: break`
with its reachability relation, its invariant rule and its two-run simulation rule.
-/

namespace WagmiBench.Lib

universe u v

variable {ε : Type u} {α β : Type v} {σ τ : Type v}

/-! ## Inverting a computation that returned -/

/-- The guard `if not c: raise e`. -/
def require (c : Prop) [Decidable c] (e : ε) : Except ε Unit :=
  if c then .ok () else .error e

@[simp] theorem require_eq_ok {c : Prop} [Decidable c] {e : ε} {u : Unit} :
    require c e = .ok u ↔ c := by
  simp [require]

/-- The same guard, keeping what it establishes. -/
def check (c : Prop) [Decidable c] (e : ε) : Except ε (PLift c) :=
  if h : c then .ok ⟨h⟩ else .error e

@[simp] theorem check_eq_ok {c : Prop} [Decidable c] {e : ε} {p : PLift c} :
    check c e = .ok p ↔ c := by
  by_cases h : c
  · obtain ⟨_⟩ := p
    simp [check, h]
  · simp [check, h]

theorem check_pos {c : Prop} [Decidable c] {e : ε} (h : c) : check c e = .ok ⟨h⟩ := by
  simp [check, h]

theorem require_pos {c : Prop} [Decidable c] {e : ε} (h : c) : require c e = .ok () := by
  simp [require, h]

theorem require_neg {c : Prop} [Decidable c] {e : ε} (h : ¬ c) :
    require c e = (.error e : Except ε Unit) := by
  simp [require, h]

/-- A sequence of two computations returned exactly when both did. -/
theorem bind_ok_iff {head : Except ε α} {tail : α → Except ε β} {result : β} :
    head >>= tail = .ok result ↔ ∃ a, head = .ok a ∧ tail a = .ok result := by
  rcases head with e | a <;> simp [bind, Except.bind]

@[simp] theorem ok_bind (a : α) (f : α → Except ε β) : (Except.ok a >>= f) = f a := rfl

@[simp] theorem raise_bind (e : ε) (f : α → Except ε β) :
    (Except.error e : Except ε α) >>= f = .error e := rfl

theorem pure_eq_ok (a : α) : (pure a : Except ε α) = .ok a := rfl

/-- Two computations with the same head agree when their continuations agree on its result. -/
theorem bind_congr_ok {x : Except ε α} {f g : α → Except ε β}
    (h : ∀ a, x = .ok a → f a = g a) : (x >>= f) = (x >>= g) := by
  cases x with
  | error e => rfl
  | ok a => exact h a rfl

/-- A computation returned some value. -/
def Returns (x : Except ε α) : Prop := ∃ a, x = .ok a

theorem returns_iff_isOk {x : Except ε α} : Returns x ↔ x.isOk = true := by
  cases x <;> simp [Returns, Except.isOk, Except.toBool]

instance (x : Except ε α) : Decidable (Returns x) :=
  decidable_of_iff _ returns_iff_isOk.symm

@[simp] theorem returns_ok (a : α) : Returns (.ok a : Except ε α) := ⟨a, rfl⟩

@[simp] theorem not_returns_error (e : ε) : ¬ Returns (.error e : Except ε α) := by
  rintro ⟨a, h⟩
  cases h

/-- A sequence returns when its head does and its tail does on what the head returned. -/
theorem Returns.bind {x : Except ε α} {f : α → Except ε β} (hx : Returns x)
    (hf : ∀ a, x = .ok a → Returns (f a)) : Returns (x >>= f) := by
  obtain ⟨a, rfl⟩ := hx
  exact hf a rfl

/-- A computation raised `e`. -/
def Raises (x : Except ε α) (e : ε) : Prop := x = .error e

instance [DecidableEq ε] (x : Except ε α) (e : ε) : Decidable (Raises x e) :=
  match x with
  | .ok _ => isFalse (by simp [Raises])
  | .error e' => decidable_of_iff (e' = e) (by simp [Raises])

theorem returns_require {c : Prop} [Decidable c] {e : ε} (h : c) : Returns (require c e) :=
  ⟨(), require_pos h⟩

theorem toOption_eq_some {x : Except ε α} {a : α} : x.toOption = some a ↔ x = .ok a := by
  cases x <;> simp [Except.toOption]

/-! ## Loops over a list -/

/-- `[f(x) for x in xs]` returned: element by element. -/
theorem mapM_eq_ok {f : α → Except ε β} {xs : List α} {ys : List β} :
    xs.mapM f = .ok ys ↔ List.Forall₂ (fun x y => f x = .ok y) xs ys := by
  induction xs generalizing ys with
  | nil => simp [pure_eq_ok, eq_comm]
  | cons x xs ih =>
    rw [List.mapM_cons, bind_ok_iff]
    constructor
    · rintro ⟨y, hy, h⟩
      obtain ⟨ys', hys, h⟩ := bind_ok_iff.mp h
      obtain rfl := Except.ok.inj h
      exact .cons hy (ih.mp hys)
    · rintro (_ | ⟨hy, hys⟩)
      exact ⟨_, hy, bind_ok_iff.mpr ⟨_, ih.mpr hys, rfl⟩⟩

/-- A loop whose steps compute `g` where `c` holds, and raise elsewhere. -/
theorem mapM_ok_iff {f : α → Except ε β} {c : α → Prop} {g : α → β} {xs : List α} {ys : List β}
    (h : ∀ x ∈ xs, ∀ y, f x = .ok y ↔ c x ∧ y = g x) :
    xs.mapM f = .ok ys ↔ (∀ x ∈ xs, c x) ∧ ys = xs.map g := by
  induction xs generalizing ys with
  | nil => simp [pure_eq_ok, eq_comm]
  | cons x xs ih =>
    have tail : ∀ {zs}, xs.mapM f = .ok zs ↔ (∀ x ∈ xs, c x) ∧ zs = xs.map g :=
      ih fun y hy => h y (by simp [hy])
    simp only [List.mapM_cons, bind_ok_iff, h x (by simp), tail, pure_eq_ok, Except.ok.injEq,
      List.forall_mem_cons, List.map_cons]
    constructor
    · rintro ⟨_, ⟨hx, rfl⟩, _, ⟨hxs, rfl⟩, rfl⟩
      exact ⟨⟨hx, hxs⟩, rfl⟩
    · rintro ⟨⟨hx, hxs⟩, rfl⟩
      exact ⟨_, ⟨hx, rfl⟩, _, ⟨hxs, rfl⟩, rfl⟩

theorem mapM_length {f : α → Except ε β} {xs : List α} {ys : List β} (h : xs.mapM f = .ok ys) :
    ys.length = xs.length :=
  (mapM_eq_ok.mp h).length_eq.symm

theorem mapM_getElem? {f : α → Except ε β} {xs : List α} {ys : List β} (h : xs.mapM f = .ok ys)
    {i : ℕ} {y : β} (hy : ys[i]? = some y) : ∃ x, xs[i]? = some x ∧ f x = .ok y := by
  have hall := mapM_eq_ok.mp h
  obtain ⟨hi, rfl⟩ := List.getElem?_eq_some_iff.mp hy
  have hi' : i < xs.length := hall.length_eq ▸ hi
  exact ⟨xs[i], List.getElem?_eq_getElem hi', (List.forall₂_iff_get.mp hall).2 i hi' hi⟩

theorem mapM_mem {f : α → Except ε β} {xs : List α} {ys : List β} (h : xs.mapM f = .ok ys) {y : β}
    (hy : y ∈ ys) : ∃ x ∈ xs, f x = .ok y := by
  obtain ⟨i, hi⟩ := List.mem_iff_getElem?.mp hy
  obtain ⟨x, hx, hf⟩ := mapM_getElem? h hi
  exact ⟨x, List.mem_of_getElem? hx, hf⟩

theorem mapM_mem_of_mem {f : α → Except ε β} {xs : List α} {ys : List β} (h : xs.mapM f = .ok ys)
    {x : α} (hx : x ∈ xs) : ∃ y ∈ ys, f x = .ok y := by
  obtain ⟨i, hi⟩ := List.mem_iff_getElem?.mp hx
  have hlt : i < ys.length := mapM_length h ▸ (List.getElem?_eq_some_iff.mp hi).1
  obtain ⟨x', hx', hf⟩ := mapM_getElem? h (List.getElem?_eq_getElem hlt)
  obtain rfl : x = x' := Option.some.inj (hi.symm.trans hx')
  exact ⟨ys[i], List.getElem_mem hlt, hf⟩

/-- What every step of a fold keeps holds of what the fold returns. -/
theorem foldlM_invariant {f : β → α → Except ε β} {I : β → Prop} {xs : List α} {init r : β}
    (h0 : I init) (hstep : ∀ acc x acc', x ∈ xs → I acc → f acc x = .ok acc' → I acc')
    (h : xs.foldlM f init = .ok r) : I r := by
  induction xs generalizing init with
  | nil =>
    obtain rfl := Except.ok.inj h
    exact h0
  | cons x xs ih =>
    rw [List.foldlM_cons] at h
    obtain ⟨acc, hacc, h⟩ := bind_ok_iff.mp h
    exact ih (hstep init x acc (by simp) h0 hacc)
      (fun acc y acc' hy => hstep acc y acc' (by simp [hy])) h

/-- `[f(i, x) for i, x in enumerate(xs)]` returned: element by element. -/
theorem mapM_zipIdx_getElem? {f : α × ℕ → Except ε β} {xs : List α} {ys : List β}
    (h : xs.zipIdx.mapM f = .ok ys) {i : ℕ} {y : β} (hy : ys[i]? = some y) :
    ∃ x, xs[i]? = some x ∧ f (x, i) = .ok y := by
  obtain ⟨⟨x, j⟩, hx, hf⟩ := mapM_getElem? h hy
  rw [List.getElem?_zipIdx, Option.map_eq_some_iff] at hx
  obtain ⟨x', hx', heq⟩ := hx
  simp only [Prod.mk.injEq, zero_add] at heq
  obtain ⟨rfl, rfl⟩ := heq
  exact ⟨x', hx', hf⟩

theorem mapM_zipIdx_length {f : α × ℕ → Except ε β} {xs : List α} {ys : List β}
    (h : xs.zipIdx.mapM f = .ok ys) : ys.length = xs.length := by
  rw [mapM_length h, List.length_zipIdx]

/-! ## The bounded loop with a stop flag -/

/-- `for t in range(t, t + n): if stop(s): break; s = body(t, s)`. -/
def loopFrom (body : ℕ → σ → Except ε σ) (stop : σ → Bool) : ℕ → ℕ → σ → Except ε σ
  | 0, _, s => .ok s
  | n + 1, t, s => if stop s then .ok s else body t s >>= loopFrom body stop n (t + 1)

/-- `Reach body stop s₀ t s`: the loop entered iteration `t` (or would, but for its range) in state
`s`, having started iteration `0` in `s₀`. -/
inductive Reach (body : ℕ → σ → Except ε σ) (stop : σ → Bool) (s₀ : σ) : ℕ → σ → Prop
  | start : Reach body stop s₀ 0 s₀
  | step {t : ℕ} {s s' : σ} : Reach body stop s₀ t s → stop s = false → body t s = .ok s' →
      Reach body stop s₀ (t + 1) s'

variable {body body₁ body₂ : ℕ → σ → Except ε σ} {stop : σ → Bool} {s₀ : σ}

/-- **Invariant rule.** What holds at the start and is preserved by every iteration that runs holds
in every state the loop reaches. -/
theorem Reach.invariant {I : ℕ → σ → Prop} (h0 : I 0 s₀)
    (hstep : ∀ t s s', Reach body stop s₀ t s → I t s → stop s = false → body t s = .ok s' →
      I (t + 1) s')
    {t : ℕ} {s : σ} (h : Reach body stop s₀ t s) : I t s := by
  induction h with
  | start => exact h0
  | step hr hs hb ih => exact hstep _ _ _ hr ih hs hb

/-- The loop is deterministic: it reaches at most one state at each iteration. -/
theorem Reach.unique {t : ℕ} {s s' : σ} (h : Reach body stop s₀ t s)
    (h' : Reach body stop s₀ t s') : s = s' := by
  induction h generalizing s' with
  | start => cases h'; rfl
  | step hr hs hb ih =>
    cases h' with
    | step hr' hs' hb' =>
      obtain rfl := ih hr'
      rw [hb] at hb'
      exact Except.ok.inj hb'

/-- An earlier reached state lies on the path to a later one. -/
theorem Reach.earlier {t : ℕ} {s : σ} (h : Reach body stop s₀ t s) {k : ℕ} (hk : k ≤ t) :
    ∃ r, Reach body stop s₀ k r := by
  induction h with
  | start => exact ⟨s₀, by obtain rfl : k = 0 := by omega
                           exact .start⟩
  | @step t s s' hr hs hb ih =>
    rcases Nat.lt_or_ge k (t + 1) with hlt | hge
    · exact ih (by omega)
    · obtain rfl : k = t + 1 := by omega
      exact ⟨s', .step hr hs hb⟩

/-- A state that is not the last on its path was left by an iteration that ran. -/
theorem Reach.not_stop_of_lt {t k : ℕ} {s r : σ} (h : Reach body stop s₀ t s) (hk : k < t)
    (hr : Reach body stop s₀ k r) : stop r = false ∧ ∃ r', body k r = .ok r' ∧
      Reach body stop s₀ (k + 1) r' := by
  induction h with
  | start => omega
  | @step t s s' hs hstop hb ih =>
    rcases Nat.lt_or_ge k t with hlt | hge
    · exact ih hlt
    · obtain rfl : k = t := by omega
      obtain rfl := hr.unique hs
      exact ⟨hstop, s', hb, .step hs hstop hb⟩

/-- How a loop that returned ended: after its whole range, or at the first stopped state. -/
theorem loopFrom_reach {n t : ℕ} {s r : σ} (hs : Reach body stop s₀ t s)
    (h : loopFrom body stop n t s = .ok r) :
    ∃ k, t ≤ k ∧ k ≤ t + n ∧ Reach body stop s₀ k r ∧ (k = t + n ∨ stop r = true) := by
  induction n generalizing t s with
  | zero =>
    simp only [loopFrom, Except.ok.injEq] at h
    exact ⟨t, le_rfl, le_rfl, h ▸ hs, .inl rfl⟩
  | succ n ih =>
    simp only [loopFrom] at h
    split at h
    · rename_i hstop
      obtain rfl := Except.ok.inj h
      exact ⟨t, le_rfl, by omega, hs, .inr hstop⟩
    · rename_i hstop
      obtain ⟨s', hb, hrest⟩ := bind_ok_iff.mp h
      obtain ⟨k, hk₁, hk₂, hr, hend⟩ := ih (.step hs (by simpa using hstop) hb) hrest
      exact ⟨k, by omega, by omega, hr, hend.imp_left (by omega)⟩

/-- The loop from the start of its range returned `r`: `r` is reached, and it is either stopped or
past the last iteration. -/
theorem loop_reach {n : ℕ} {r : σ} (h : loopFrom body stop n 0 s₀ = .ok r) :
    ∃ k, k ≤ n ∧ Reach body stop s₀ k r ∧ (k = n ∨ stop r = true) := by
  obtain ⟨k, -, hk, hr, hend⟩ := loopFrom_reach .start h
  exact ⟨k, by omega, hr, by simpa using hend⟩

/-- The loop from its start is the loop from any state it reaches, over what is left of its range. -/
theorem Reach.loopFrom_eq {k : ℕ} {r : σ} (h : Reach body stop s₀ k r) (m : ℕ) :
    loopFrom body stop (k + m) 0 s₀ = loopFrom body stop m k r := by
  induction h generalizing m with
  | start => rw [Nat.zero_add]
  | @step t s s' _ hs hb ih =>
    rw [show t + 1 + m = t + (m + 1) by omega, ih (m + 1)]
    simp [loopFrom, hs, hb]

/-- Conversely a reached state in which the loop cannot go on is what the loop returns. -/
theorem loopFrom_of_reach {n k : ℕ} {r : σ} (h : Reach body stop s₀ k r) (hk : k ≤ n)
    (hend : k = n ∨ stop r = true) : loopFrom body stop n 0 s₀ = .ok r := by
  have tail := h.loopFrom_eq (n - k)
  rw [show k + (n - k) = n by omega] at tail
  rw [tail]
  cases hm : n - k with
  | zero => rfl
  | succ m => simp [loopFrom, hend.resolve_left (by omega)]

/-- A running state whose iteration raises makes the loop raise. -/
theorem loopFrom_error_of_reach {n k : ℕ} {r : σ} {e : ε} (h : Reach body stop s₀ k r) (hk : k < n)
    (hgo : stop r = false) (hbody : body k r = .error e) :
    loopFrom body stop n 0 s₀ = .error e := by
  have tail := h.loopFrom_eq (n - k - 1 + 1)
  rw [show k + (n - k - 1 + 1) = n by omega] at tail
  rw [tail]
  simp [loopFrom, hgo, hbody]

/-- Two loops whose bodies agree on every state the first one reaches before iteration `n` reach the
same states up to there. -/
theorem Reach.congr {n : ℕ} (hbody : ∀ t s, t < n → Reach body₁ stop s₀ t s → body₁ t s = body₂ t s)
    {t : ℕ} {s : σ} (ht : t ≤ n) (h : Reach body₁ stop s₀ t s) : Reach body₂ stop s₀ t s := by
  induction h with
  | start => exact .start
  | @step t s s' hr hs hb ih =>
    exact .step (ih (by omega)) hs (by rw [← hbody t s (by omega) hr, hb])

/-! ## Two runs side by side -/

/-- `Agree R x y`: the computations raise together or return together, and then `R`-related. -/
def Agree {α β : Type v} (R : α → β → Prop) : Except ε α → Except ε β → Prop
  | .ok a, .ok b => R a b
  | .error _, .error _ => True
  | _, _ => False

section Agree

variable {α β γ δ : Type v} {R : α → β → Prop} {S : γ → δ → Prop} {x : Except ε α} {y : Except ε β}

@[simp] theorem agree_ok {a : α} {b : β} : Agree R (.ok a : Except ε α) (.ok b) ↔ R a b := Iff.rfl

theorem agree_iff : Agree R x y ↔
    (∀ a, x = .ok a → ∃ b, y = .ok b ∧ R a b) ∧ ∀ b, y = .ok b → ∃ a, x = .ok a ∧ R a b := by
  cases x <;> cases y <;> simp [Agree]

theorem Agree.refl {R : α → α → Prop} (h : ∀ a, x = .ok a → R a a) : Agree R x x := by
  cases x with
  | error e => trivial
  | ok a => exact h a rfl

/-- Sequencing: agreeing heads, and continuations that agree on what the heads return. -/
theorem Agree.bind {f : α → Except ε γ} {g : β → Except ε δ} (h : Agree R x y)
    (hfg : ∀ a b, x = .ok a → y = .ok b → R a b → Agree S (f a) (g b)) :
    Agree S (x >>= f) (y >>= g) := by
  cases x with
  | error e => cases y with
    | error e' => trivial
    | ok b => exact h.elim
  | ok a => cases y with
    | error e' => exact h.elim
    | ok b => exact hfg a b rfl rfl h

/-- Sequencing after the same head. -/
theorem Agree.bind_same {f : α → Except ε γ} {g : α → Except ε δ}
    (hfg : ∀ a, x = .ok a → Agree S (f a) (g a)) : Agree S (x >>= f) (x >>= g) :=
  Agree.bind (R := Eq) (.refl fun _ _ => rfl) fun a _ ha _ hab => hab ▸ hfg a ha

theorem Agree.imp {R' : α → β → Prop} (h : Agree R x y)
    (hR : ∀ a b, x = .ok a → y = .ok b → R a b → R' a b) : Agree R' x y := by
  cases x with
  | error e => cases y with
    | error e' => trivial
    | ok b => exact h.elim
  | ok a => cases y with
    | error e' => exact h.elim
    | ok b => exact hR a b rfl rfl h

/-- Computations that agree up to a projection return the same projected values. -/
theorem Agree.map_toOption {κ : Type v} {f : α → κ} {g : β → κ}
    (h : Agree (fun a b => f a = g b) x y) : x.toOption.map f = y.toOption.map g := by
  cases x with
  | error e => cases y with
    | error e' => rfl
    | ok b => exact h.elim
  | ok a => cases y with
    | error e' => exact h.elim
    | ok b => exact congrArg some h

end Agree

/-- **Simulation rule.** If related states stop together and every iteration of the first loop is
matched by one of the second, each reached state of the first has a related reached state of the
second. -/
theorem Reach.simulate {bodyₐ : ℕ → σ → Except ε σ} {stopₐ : σ → Bool} {a₀ : σ}
    {bodyᵦ : ℕ → τ → Except ε τ} {stopᵦ : τ → Bool} {b₀ : τ} {R : ℕ → σ → τ → Prop}
    (h0 : R 0 a₀ b₀) (hstop : ∀ t a b, R t a b → stopₐ a = stopᵦ b)
    (hstep : ∀ t a b a', Reach bodyₐ stopₐ a₀ t a → Reach bodyᵦ stopᵦ b₀ t b → R t a b →
      stopₐ a = false → bodyₐ t a = .ok a' → ∃ b', bodyᵦ t b = .ok b' ∧ R (t + 1) a' b')
    {t : ℕ} {a : σ} (h : Reach bodyₐ stopₐ a₀ t a) :
    ∃ b, Reach bodyᵦ stopᵦ b₀ t b ∧ R t a b := by
  induction h with
  | start => exact ⟨b₀, .start, h0⟩
  | @step t a a' hr hs hb ih =>
    obtain ⟨b, hrb, hR⟩ := ih
    obtain ⟨b', hb', hR'⟩ := hstep t a b a' hr hrb hR hs hb
    exact ⟨b', .step hrb (hstop t a b hR ▸ hs) hb', hR'⟩

/-- **Two loops in step.** If related states stop together and the two bodies agree from every pair
of related states the loops reach, the loops agree. -/
theorem Agree.loop {bodyₐ : ℕ → σ → Except ε σ} {stopₐ : σ → Bool} {a₀ : σ}
    {bodyᵦ : ℕ → τ → Except ε τ} {stopᵦ : τ → Bool} {b₀ : τ} {R : ℕ → σ → τ → Prop} {n : ℕ}
    (h0 : R 0 a₀ b₀) (hstop : ∀ t a b, R t a b → stopₐ a = stopᵦ b)
    (hstep : ∀ t a b, t < n → Reach bodyₐ stopₐ a₀ t a → Reach bodyᵦ stopᵦ b₀ t b → R t a b →
      stopᵦ b = false → Agree (R (t + 1)) (bodyₐ t a) (bodyᵦ t b)) :
    Agree (fun a b => ∃ t, R t a b) (loopFrom bodyₐ stopₐ n 0 a₀) (loopFrom bodyᵦ stopᵦ n 0 b₀) := by
  have go : ∀ m t a b, t + m = n → Reach bodyₐ stopₐ a₀ t a → Reach bodyᵦ stopᵦ b₀ t b → R t a b →
      Agree (fun a b => ∃ t, R t a b) (loopFrom bodyₐ stopₐ m t a) (loopFrom bodyᵦ stopᵦ m t b) := by
    intro m
    induction m with
    | zero => intro t a b _ _ _ hR; exact ⟨t, hR⟩
    | succ m ih =>
      intro t a b hm ha hb hR
      have hs := hstop t a b hR
      simp only [loopFrom, hs]
      split
      · exact ⟨t, hR⟩
      · rename_i hgo
        have hgo : stopᵦ b = false := by simpa using hgo
        exact (hstep t a b (by omega) ha hb hR hgo).bind fun a' b' ha' hb' hR' =>
          ih (t + 1) a' b' (by omega) (.step ha (hs ▸ hgo) ha') (.step hb hgo hb') hR'
  exact go n 0 a₀ b₀ (by omega) .start .start h0

end WagmiBench.Lib
