import Mathlib.Tactic

/-!
# Methods of an object

An `EStateM` computation is a method of an object: it changes the object's fields, it returns or
raises, and what it changed stays changed when it raises. `Ends` says how one call ends, with a rule
for each way of putting calls together; `Moves` is the special case of a relation that every call of
a method keeps to, whatever it returns or raises.
-/

namespace WagmiBench.Lib

variable {ε σ α β : Type}

/-- How a call on state `s` ends: `Q` of what it returns or raises, and of the state it leaves. -/
def Ends (m : EStateM ε σ α) (s : σ) (Q : Except ε α → σ → Prop) : Prop :=
  match m.run s with
  | .ok a s' => Q (.ok a) s'
  | .error e s' => Q (.error e) s'

namespace Ends

variable {m : EStateM ε σ α} {f : α → EStateM ε σ β} {s : σ} {Q R : Except ε α → σ → Prop}

theorem mono (h : Ends m s R) (hRQ : ∀ o s', R o s' → Q o s') : Ends m s Q := by
  unfold Ends at h ⊢
  split <;> rename_i heq <;> rw [heq] at h <;> exact hRQ _ _ h

theorem and (hQ : Ends m s Q) (hR : Ends m s R) : Ends m s fun o s' => Q o s' ∧ R o s' := by
  unfold Ends at hQ hR ⊢
  split <;> rename_i heq <;> rw [heq] at hQ hR <;> exact ⟨hQ, hR⟩

theorem any : Ends m s fun _ _ => True := by
  unfold Ends
  split <;> trivial

theorem of_ok {a : α} {s' : σ} (h : Ends m s Q) (hm : m.run s = .ok a s') : Q (.ok a) s' := by
  unfold Ends at h
  rwa [hm] at h

theorem of_error {e : ε} {s' : σ} (h : Ends m s Q) (hm : m.run s = .error e s') :
    Q (.error e) s' := by
  unfold Ends at h
  rwa [hm] at h

theorem pure {a : α} (h : Q (.ok a) s) : Ends (pure a : EStateM ε σ α) s Q := h

theorem throw {e : ε} (h : Q (.error e) s) : Ends (throw e : EStateM ε σ α) s Q := h

theorem modify {Q : Except ε PUnit → σ → Prop} {g : σ → σ} (h : Q (.ok ⟨⟩) (g s)) :
    Ends (modify g : EStateM ε σ PUnit) s Q := h

theorem get_bind {f : σ → EStateM ε σ α} (h : Ends (f s) s Q) : Ends (get >>= f) s Q := h

theorem modify_bind {g : σ → σ} {f : PUnit → EStateM ε σ α} (h : Ends (f ⟨⟩) (g s) Q) :
    Ends (MonadState.modifyGet (fun s => (⟨⟩, g s)) >>= f) s Q := h

/-- **Sequencing.** -/
theorem bind {Q : Except ε β → σ → Prop} (h : Ends m s R)
    (hok : ∀ a s', R (.ok a) s' → Ends (f a) s' Q)
    (herror : ∀ e s', R (.error e) s' → Q (.error e) s') : Ends (m >>= f) s Q := by
  unfold Ends at h
  cases hm : m.run s with
  | ok a s' =>
    rw [hm] at h
    have : (m >>= f).run s = (f a).run s' := by
      change EStateM.bind m f s = _
      unfold EStateM.bind
      rw [show m s = .ok a s' from hm]
      rfl
    unfold Ends
    rw [this]
    exact hok a s' h
  | error e s' =>
    rw [hm] at h
    have : (m >>= f).run s = .error e s' := by
      change EStateM.bind m f s = _
      unfold EStateM.bind
      rw [show m s = .error e s' from hm]
    unfold Ends
    rw [this]
    exact herror e s' h

/-- `try: m` with a handler: the handler starts from the state that `m` left. -/
theorem tryCatch {handler : ε → EStateM ε σ α} (h : Ends m s R)
    (hok : ∀ a s', R (.ok a) s' → Q (.ok a) s')
    (herror : ∀ e s', R (.error e) s' → Ends (handler e) s' Q) :
    Ends (tryCatch m handler) s Q := by
  unfold Ends at h
  cases hm : m.run s with
  | ok a s' =>
    rw [hm] at h
    have : (MonadExcept.tryCatch m handler).run s = .ok a s' := by
      change EStateM.tryCatch m handler s = _
      unfold EStateM.tryCatch
      simp only [show m s = .ok a s' from hm]
    unfold Ends
    rw [this]
    exact hok a s' h
  | error e s' =>
    rw [hm] at h
    have : (MonadExcept.tryCatch m handler).run s = (handler e).run s' := by
      change EStateM.tryCatch m handler s = _
      unfold EStateM.tryCatch
      simp only [show m s = .error e s' from hm]
      rfl
    unfold Ends
    rw [this]
    exact herror e s' h

end Ends

/-! ## What every call keeps to -/

/-- Whatever a call returns or raises, it leaves a state that is related to the one it found. -/
def Moves (R : σ → σ → Prop) (m : EStateM ε σ α) : Prop := ∀ s, Ends m s fun _ s' => R s s'

namespace Moves

variable {R : σ → σ → Prop} {m : EStateM ε σ α} {f : α → EStateM ε σ β}

section Reflexive

variable [Std.Refl R]

theorem pure (a : α) : Moves R (pure a : EStateM ε σ α) := fun s => Ends.pure (refl_of R s)

theorem throw (e : ε) : Moves R (throw e : EStateM ε σ α) := fun s => Ends.throw (refl_of R s)

end Reflexive

variable [IsTrans σ R]

theorem bind (hm : Moves R m) (hf : ∀ a, Moves R (f a)) : Moves R (m >>= f) := fun s =>
  Ends.bind (hm s) (fun a s' h => (hf a s').mono fun _ _ h' => trans_of R h h') fun _ _ h => h

theorem tryCatch {handler : ε → EStateM ε σ α} (hm : Moves R m) (hh : ∀ e, Moves R (handler e)) :
    Moves R (tryCatch m handler) := fun s =>
  Ends.tryCatch (hm s) (fun _ _ h => h) fun e s' h =>
    (hh e s').mono fun _ _ h' => trans_of R h h'

section Loops

variable [Std.Refl R] {xs : List α}

theorem forIn {b : β} {f : α → β → EStateM ε σ (ForInStep β)} (h : ∀ a b, Moves R (f a b)) :
    Moves R (forIn xs b f) := by
  induction xs generalizing b with
  | nil => exact Moves.pure b
  | cons x xs ih =>
    rw [List.forIn_cons]
    refine Moves.bind (h x b) fun step => ?_
    cases step with
    | done b => exact Moves.pure b
    | yield b => exact ih

theorem mapM (h : ∀ a, Moves R (f a)) : Moves R (xs.mapM f) := by
  induction xs with
  | nil => exact Moves.pure []
  | cons x xs ih =>
    rw [List.mapM_cons]
    exact Moves.bind (h x) fun y => Moves.bind ih fun ys => Moves.pure _

end Loops

end Moves

/-! ## Logs -/

section Logs

variable {E ρ : Type} {kind : E → Option ρ} {P : ρ → List E → Prop} {log more : List E}

/-- Directly before every entry of a kind stand entries that license it. -/
def Guarded (kind : E → Option ρ) (P : ρ → List E → Prop) (log : List E) : Prop :=
  ∀ before e after, log = before ++ e :: after → ∀ r ∈ kind e,
    ∃ front license, before = front ++ license ∧ P r license

/-- Whoever stops reading a guarded log early has read a guarded one. -/
theorem Guarded.front (h : Guarded kind P (log ++ more)) : Guarded kind P log := by
  rintro before e after rfl r hr
  exact h before e (after ++ more) (by simp) r hr

theorem Guarded.append (h : Guarded kind P log) (h' : Guarded kind P more) :
    Guarded kind P (log ++ more) := by
  intro before e after heq r hr
  rcases List.append_eq_append_iff.mp heq with ⟨front, hbefore, hmore⟩ | ⟨back, hlog, hafter⟩
  · obtain ⟨front', license, rfl, hP⟩ := h' front e after hmore r hr
    exact ⟨log ++ front', license, by rw [hbefore, List.append_assoc], hP⟩
  · cases back with
    | nil =>
      obtain ⟨front', license, hlicense, hP⟩ := h' [] e after (by simpa using hafter.symm) r hr
      obtain ⟨rfl, rfl⟩ := List.append_eq_nil_iff.mp hlicense.symm
      exact ⟨log, [], by simpa using hlog.symm, hP⟩
    | cons e' back =>
      obtain ⟨rfl, -⟩ := List.cons.inj hafter
      exact h before e back hlog r hr

theorem guarded_of_none (h : ∀ e ∈ log, kind e = none) : Guarded kind P log := by
  rintro before e after rfl r hr
  rw [h e (by simp)] at hr
  cases hr

/-- An entry right after its license. -/
theorem guarded_concat {e : E} (hlog : ∀ e ∈ log, kind e = none) (h : ∀ r ∈ kind e, P r log) :
    Guarded kind P (log ++ [e]) := by
  intro before e' after heq r hr
  rcases List.append_eq_append_iff.mp heq with ⟨front, hbefore, hlast⟩ | ⟨back, hfront, hback⟩
  · cases front with
    | nil =>
      obtain ⟨rfl, -⟩ := List.cons.inj hlast
      exact ⟨[], log, by simpa using hbefore, h r hr⟩
    | cons x front =>
      have := congrArg List.length hlast
      simp at this
  · cases back with
    | nil =>
      obtain ⟨rfl, -⟩ := List.cons.inj hback
      exact ⟨[], log, by simpa using hfront.symm, h r hr⟩
    | cons x back =>
      obtain ⟨rfl, -⟩ := List.cons.inj hback
      have hmem : e' ∈ log := by simp [hfront]
      rw [hlog e' hmem] at hr
      cases hr

theorem guarded_flatten {logs : List (List E)} (h : ∀ log ∈ logs, Guarded kind P log) :
    Guarded kind P logs.flatten := by
  induction logs with
  | nil => exact guarded_of_none (by simp)
  | cons log logs ih =>
    rw [List.forall_mem_cons] at h
    exact h.1.append (ih h.2)

end Logs

end WagmiBench.Lib
