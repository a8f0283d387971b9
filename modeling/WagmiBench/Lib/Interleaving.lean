import Mathlib.Logic.Relation
import Mathlib.Tactic

/-!
# Interleaved processes

Processes over one shared world. A process is a tree of requests: what it asks of the world next
and, for each answer, how it goes on. A system steps by serving the next request of any process, or
by killing one, so its runs are all interleavings with all interruptions.

The proof rules are those of rely and guarantee: a process is verified by itself, against what the
others may do between its requests, and `RelyGuarantee.sound` puts the verified processes together.
-/

namespace WagmiBench.Lib

/-- The requests a process can make, with the type of each answer. -/
structure Interface where
  Request : Type
  Answer : Request → Type

/-- A process: it returns, raises, or makes a request and goes on with the answer. -/
inductive Process (I : Interface) (ε α : Type) where
  | ret (a : α)
  | raise (e : ε)
  | ask (request : I.Request) (next : I.Answer request → Process I ε α)

namespace Process

variable {I : Interface} {ε α β γ : Type}

protected def bind : Process I ε α → (α → Process I ε β) → Process I ε β
  | .ret a, f => f a
  | .raise e, _ => .raise e
  | .ask r next, f => .ask r fun answer => (next answer).bind f

instance : Monad (Process I ε) where
  pure := .ret
  bind := Process.bind

/-- One request and its answer. -/
def request (r : I.Request) : Process I ε (I.Answer r) := .ask r .ret

/-- `try: p`, with what it raised as a value. -/
def attempt : Process I ε α → Process I ε (Except ε α)
  | .ret a => .ret (.ok a)
  | .raise e => .ret (.error e)
  | .ask r next => .ask r fun answer => (next answer).attempt

/-- A computation that asks nothing. -/
def ofExcept : Except ε α → Process I ε α
  | .ok a => .ret a
  | .error e => .raise e

theorem pure_eq (a : α) : (pure a : Process I ε α) = .ret a := rfl

@[simp] theorem ret_bind (a : α) (f : α → Process I ε β) : (Process.ret a >>= f) = f a := rfl

@[simp] theorem raise_bind (e : ε) (f : α → Process I ε β) :
    ((Process.raise e : Process I ε α) >>= f) = .raise e := rfl

@[simp] theorem ask_bind (r : I.Request) (next : I.Answer r → Process I ε α)
    (f : α → Process I ε β) : (Process.ask r next >>= f) = .ask r fun a => next a >>= f := rfl

theorem bind_ret (p : Process I ε α) : p >>= .ret = p := by
  induction p with
  | ret a => rfl
  | raise e => rfl
  | ask r next ih =>
    rw [ask_bind]
    exact congrArg _ (funext ih)

theorem bind_assoc (p : Process I ε α) (f : α → Process I ε β) (g : β → Process I ε γ) :
    p >>= f >>= g = p >>= fun a => f a >>= g := by
  induction p with
  | ret a => rfl
  | raise e => rfl
  | ask r next ih =>
    simp only [ask_bind]
    exact congrArg _ (funext ih)

instance : LawfulMonad (Process I ε) := by
  refine LawfulMonad.mk' _ ?_ (fun _ _ => rfl) bind_assoc
  intro α p
  exact bind_ret p

/-! ### What a process may ask -/

/-- Every request the process can come to make satisfies `P`. -/
def All (P : I.Request → Prop) : Process I ε α → Prop
  | .ask r next => P r ∧ ∀ answer, (next answer).All P
  | .ret _ | .raise _ => True

section All

variable {P : I.Request → Prop}

theorem all_request {r : I.Request} (h : P r) : (request r : Process I ε (I.Answer r)).All P :=
  ⟨h, fun _ => trivial⟩

theorem all_ofExcept (x : Except ε α) : (ofExcept x : Process I ε α).All P := by
  cases x <;> trivial

theorem All.bind {p : Process I ε α} {f : α → Process I ε β} (hp : p.All P)
    (hf : ∀ a, (f a).All P) : (p >>= f).All P := by
  induction p with
  | ret a => exact hf a
  | raise e => trivial
  | ask r next ih => exact ⟨hp.1, fun answer => ih answer (hp.2 answer)⟩

theorem All.attempt {p : Process I ε α} (hp : p.All P) : p.attempt.All P := by
  induction p with
  | ret a => trivial
  | raise e => trivial
  | ask r next ih => exact ⟨hp.1, fun answer => ih answer (hp.2 answer)⟩

theorem All.mono {Q : I.Request → Prop} {p : Process I ε α} (hp : p.All P)
    (hPQ : ∀ r, P r → Q r) : p.All Q := by
  induction p with
  | ret a => trivial
  | raise e => trivial
  | ask r next ih => exact ⟨hPQ r hp.1, fun answer => ih answer (hp.2 answer)⟩

theorem all_forM {xs : List γ} {f : γ → Process I ε PUnit} (h : ∀ x, (f x).All P) :
    (xs.forM f).All P := by
  induction xs with
  | nil => trivial
  | cons x xs ih => exact .bind (h x) fun _ => ih

theorem all_mapM {xs : List γ} {f : γ → Process I ε α} (h : ∀ x, (f x).All P) :
    (xs.mapM f).All P := by
  induction xs with
  | nil => trivial
  | cons x xs ih =>
    rw [List.mapM_cons]
    exact .bind (h x) fun _ => .bind ih fun _ => trivial

end All

end Process

/-! ## Systems -/

/-- What serving a request of a process can do: the answer and the world after it. -/
abbrev Effect (I : Interface) (ι W : Type) := ι → (r : I.Request) → W → I.Answer r → W → Prop

/-- The shared world and what each process has left to do; `none` of a process that was killed. -/
structure System (I : Interface) (ε α ι W : Type) where
  world : W
  process : ι → Option (Process I ε α)

namespace System

variable {I : Interface} {ε α ι W : Type} [DecidableEq ι] {effect : Effect I ι W}

/-- One step of a system: a request is served, or a process killed. -/
inductive Step (effect : Effect I ι W) : System I ε α ι W → System I ε α ι W → Prop
  | serve {s : System I ε α ι W} {i : ι} {r : I.Request} {next : I.Answer r → Process I ε α}
      {answer : I.Answer r} {w : W} : s.process i = some (.ask r next) →
      effect i r s.world answer w →
      Step effect s ⟨w, Function.update s.process i (some (next answer))⟩
  | kill (s : System I ε α ι W) (i : ι) :
      Step effect s ⟨s.world, Function.update s.process i none⟩

/-- What some interleaving of the processes leads to. -/
abbrev Reachable (effect : Effect I ι W) :
    System I ε α ι W → System I ε α ι W → Prop := Relation.ReflTransGen (Step effect)

/-- All processes before their first request. -/
def start (w : W) (programs : ι → Process I ε α) : System I ε α ι W := ⟨w, fun i => some (programs i)⟩

/-! ### Running one process for a while -/

/-- Up to `n` requests of a process, each served by `serve`. -/
def runFor (serve : (r : I.Request) → W → I.Answer r × W) :
    ℕ → Process I ε α → W → Process I ε α × W
  | n + 1, .ask r next, w => runFor serve n (next (serve r w).1) (serve r w).2
  | _, p, w => (p, w)

/-- Process `i` runs for up to `n` requests. -/
def advance (serve : (r : I.Request) → W → I.Answer r × W) (i : ι) (n : ℕ)
    (s : System I ε α ι W) : System I ε α ι W :=
  match s.process i with
  | none => s
  | some p =>
    ⟨(runFor serve n p s.world).2, Function.update s.process i (some (runFor serve n p s.world).1)⟩

/-- A run of one process alone is one of the interleavings. -/
theorem reachable_advance {serve : (r : I.Request) → W → I.Answer r × W} {i : ι}
    (hserve : ∀ r w, effect i r w (serve r w).1 (serve r w).2) (n : ℕ) (s : System I ε α ι W) :
    Reachable effect s (s.advance serve i n) := by
  unfold advance
  cases hp : s.process i with
  | none => exact .refl
  | some p =>
    simp only
    induction n generalizing s p with
    | zero =>
      have : Function.update s.process i (some p) = s.process := by rw [← hp]; simp
      simp only [runFor, this]
      exact .refl
    | succ n ih =>
      cases p with
      | ret | raise =>
        have := Function.update_eq_self i s.process
        rw [hp] at this
        simp only [runFor, this]
        exact .refl
      | ask r next =>
        refine .head (.serve hp (hserve r s.world)) ?_
        have := ih ⟨(serve r s.world).2, Function.update s.process i
          (some (next (serve r s.world).1))⟩ _ (Function.update_self _ _ _)
        simpa only [runFor, Function.update_idem] using this

end System

/-! ## Rely and guarantee -/

/-- A discipline for the processes of a system: an invariant of the world, what process `i` relies
on the others to keep between its requests, what it guarantees of its own, and what is claimed
whenever it is about to make a request. -/
structure RelyGuarantee {I : Interface} {ι W : Type} (effect : Effect I ι W) where
  inv : W → Prop
  rely : ι → W → W → Prop
  guarantee : ι → W → W → Prop
  due : ι → I.Request → W → Prop
  rely_refl : ∀ i w, rely i w w
  rely_trans : ∀ {i w₁ w₂ w₃}, rely i w₁ w₂ → rely i w₂ w₃ → rely i w₁ w₃
  /-- What one process guarantees, every other may rely on. -/
  guarantee_rely : ∀ {i j w w'}, i ≠ j → guarantee i w w' → rely j w w'

namespace RelyGuarantee

variable {I : Interface} {ε α β ι W : Type} {effect : Effect I ι W} (D : RelyGuarantee effect)
  {i : ι} {p : Process I ε α} {Q Q' : Except ε α → W → Prop} {w w' : W}

/-- From world `w` on, process `p` of `i` keeps to the discipline, and `Q` holds of what it returns
or raises. -/
def Holds (i : ι) : Process I ε α → (Except ε α → W → Prop) → W → Prop
  | .ret a, Q, w => ∀ w', D.rely i w w' → D.inv w' → Q (.ok a) w'
  | .raise e, Q, w => ∀ w', D.rely i w w' → D.inv w' → Q (.error e) w'
  | .ask r next, Q, w => ∀ w₁, D.rely i w w₁ → D.inv w₁ → D.due i r w₁ ∧
      ∀ answer w₂, effect i r w₁ answer w₂ →
        D.guarantee i w₁ w₂ ∧ D.inv w₂ ∧ Holds i (next answer) Q w₂

variable {D}

/-- What the others do keeps a verified process verified. -/
theorem Holds.stable (h : D.Holds i p Q w) (hw : D.rely i w w') : D.Holds i p Q w' := by
  cases p with
  | ret a => exact fun w₂ h₂ => h w₂ (D.rely_trans hw h₂)
  | raise e => exact fun w₂ h₂ => h w₂ (D.rely_trans hw h₂)
  | ask r next => exact fun w₂ h₂ => h w₂ (D.rely_trans hw h₂)

/-- A process may be verified at the moment it goes on, when the invariant holds. -/
theorem Holds.later (h : ∀ w', D.rely i w w' → D.inv w' → D.Holds i p Q w') : D.Holds i p Q w := by
  cases p with
  | ret a => exact fun w' hw hinv => h w' hw hinv w' (D.rely_refl i w') hinv
  | raise e => exact fun w' hw hinv => h w' hw hinv w' (D.rely_refl i w') hinv
  | ask r next => exact fun w' hw hinv => h w' hw hinv w' (D.rely_refl i w') hinv

theorem Holds.mono (h : D.Holds i p Q w) (hQ : ∀ o w', Q o w' → Q' o w') : D.Holds i p Q' w := by
  induction p generalizing w with
  | ret a => exact fun w' hw hinv => hQ _ _ (h w' hw hinv)
  | raise e => exact fun w' hw hinv => hQ _ _ (h w' hw hinv)
  | ask r next ih =>
    intro w₁ hw hinv
    obtain ⟨hdue, hserve⟩ := h w₁ hw hinv
    refine ⟨hdue, fun answer w₂ heffect => ?_⟩
    obtain ⟨hguarantee, hinv₂, hnext⟩ := hserve answer w₂ heffect
    exact ⟨hguarantee, hinv₂, ih answer hnext⟩

theorem Holds.ret {a : α} (h : ∀ w', D.rely i w w' → D.inv w' → Q (.ok a) w') :
    D.Holds i (.ret a) Q w := h

theorem Holds.raise {e : ε} (h : ∀ w', D.rely i w w' → D.inv w' → Q (.error e) w') :
    D.Holds i (.raise e) Q w := h

/-- **Sequencing.** -/
theorem Holds.bind {f : α → Process I ε β} {R : Except ε β → W → Prop}
    (h : D.Holds i p Q w) (hok : ∀ a w', Q (.ok a) w' → D.Holds i (f a) R w')
    (herror : ∀ e w', Q (.error e) w' → R (.error e) w') : D.Holds i (p >>= f) R w := by
  induction p generalizing w with
  | ret a => exact .later fun w' hw hinv => hok a w' (h w' hw hinv)
  | raise e => exact fun w' hw hinv => herror e w' (h w' hw hinv)
  | ask r next ih =>
    intro w₁ hw hinv
    obtain ⟨hdue, hserve⟩ := h w₁ hw hinv
    refine ⟨hdue, fun answer w₂ heffect => ?_⟩
    obtain ⟨hguarantee, hinv₂, hnext⟩ := hserve answer w₂ heffect
    exact ⟨hguarantee, hinv₂, ih answer hnext⟩

theorem Holds.attempt {R : Except ε (Except ε α) → W → Prop}
    (h : D.Holds i p (fun o w' => R (.ok o) w') w) : D.Holds i p.attempt R w := by
  induction p generalizing w with
  | ret a => exact h
  | raise e => exact h
  | ask r next ih =>
    intro w₁ hw hinv
    obtain ⟨hdue, hserve⟩ := h w₁ hw hinv
    refine ⟨hdue, fun answer w₂ heffect => ?_⟩
    obtain ⟨hguarantee, hinv₂, hnext⟩ := hserve answer w₂ heffect
    exact ⟨hguarantee, hinv₂, ih answer hnext⟩

theorem Holds.ofExcept {x : Except ε α} (h : ∀ w', D.rely i w w' → D.inv w' → Q x w') :
    D.Holds i (Process.ofExcept x) Q w := by
  cases x with
  | ok a => exact h
  | error e => exact h

/-! ### What a process that returns has established -/

/-- From world `w` on, the process keeps to the discipline, and `Q` holds of what it returns. -/
def Yields (D : RelyGuarantee effect) (i : ι) (p : Process I ε α) (Q : α → W → Prop) (w : W) :
    Prop :=
  D.Holds i p (fun o w' => ∀ a, o = .ok a → Q a w') w

section Yields

variable {P P' : α → W → Prop}

theorem Yields.mono (h : D.Yields i p P w) (hP : ∀ a w', P a w' → P' a w') : D.Yields i p P' w :=
  Holds.mono h fun _ w' ho a ha => hP a w' (ho a ha)

theorem Yields.stable (h : D.Yields i p P w) (hw : D.rely i w w') : D.Yields i p P w' :=
  Holds.stable h hw

theorem Yields.later (h : ∀ w', D.rely i w w' → D.inv w' → D.Yields i p P w') :
    D.Yields i p P w :=
  Holds.later h

theorem Yields.ret {a : α} (h : ∀ w', D.rely i w w' → D.inv w' → P a w') :
    D.Yields i (.ret a : Process I ε α) P w :=
  fun w' hw hinv _ ha => Except.ok.inj ha ▸ h w' hw hinv

theorem Yields.raise {e : ε} : D.Yields i (.raise e : Process I ε α) P w :=
  fun _ _ _ _ ha => nomatch ha

/-- **Sequencing.** -/
theorem Yields.bind {f : α → Process I ε β} {R : β → W → Prop} (h : D.Yields i p P w)
    (hf : ∀ a w', P a w' → D.Yields i (f a) R w') : D.Yields i (p >>= f) R w :=
  Holds.bind h (fun a w' ha => hf a w' (ha a rfl)) fun _ _ _ _ hb => nomatch hb

/-- Of a `try` block only what holds where it returned is known behind it. -/
theorem Yields.attempt {R : Except ε α → W → Prop} (h : D.Yields i p P w)
    (hok : ∀ a w', P a w' → R (.ok a) w') (herror : ∀ e w', R (.error e) w') :
    D.Yields i p.attempt R w :=
  Holds.attempt <| Holds.mono h fun o w' ho _ ha => by
    obtain rfl := Except.ok.inj ha
    cases o with
    | ok a => exact hok a w' (ho a rfl)
    | error e => exact herror e w'

theorem Yields.ofExcept {x : Except ε α}
    (h : ∀ a w', x = .ok a → D.rely i w w' → D.inv w' → P a w') :
    D.Yields i (Process.ofExcept x) P w :=
  Holds.ofExcept fun w' hw hinv a ha => h a w' ha hw hinv

/-- **Single request.** Serving it keeps to the discipline, and what it leaves is what the others keep. -/
theorem Yields.ask {r : I.Request} {P : I.Answer r → W → Prop}
    (h : ∀ w₁, D.rely i w w₁ → D.inv w₁ → D.due i r w₁ ∧ ∀ answer w₂, effect i r w₁ answer w₂ →
      D.guarantee i w₁ w₂ ∧ D.inv w₂ ∧ ∀ w₃, D.rely i w₂ w₃ → D.inv w₃ → P answer w₃) :
    D.Yields i (Process.request r : Process I ε (I.Answer r)) P w := by
  intro w₁ hw hinv
  obtain ⟨hdue, hserve⟩ := h w₁ hw hinv
  refine ⟨hdue, fun answer w₂ heffect => ?_⟩
  obtain ⟨hguarantee, hinv₂, hP⟩ := hserve answer w₂ heffect
  exact ⟨hguarantee, hinv₂, Yields.ret hP⟩

/-- **Uniform requests.** A process whose requests all keep to the discipline and to a fact that the
others keep as well ends with that fact. -/
theorem Yields.of_all {F : W → Prop} {M : I.Request → Prop} (hall : p.All M)
    (hserve : ∀ r w answer w', M r → D.inv w → F w → effect i r w answer w' →
      D.guarantee i w w' ∧ D.inv w' ∧ F w')
    (hdue : ∀ r w, M r → D.due i r w) (hF : ∀ w w', D.rely i w w' → F w → F w') (hw : F w) :
    D.Yields i p (fun _ w' => F w') w := by
  induction p generalizing w with
  | ret a => exact Yields.ret fun w' hrely _ => hF w w' hrely hw
  | raise e => exact Yields.raise
  | ask r next ih =>
    intro w₁ hrely hinv
    refine ⟨hdue r w₁ hall.1, fun answer w₂ heffect => ?_⟩
    obtain ⟨hguarantee, hinv₂, hF₂⟩ := hserve r w₁ answer w₂ hall.1 hinv (hF w w₁ hrely hw) heffect
    exact ⟨hguarantee, hinv₂, ih answer (hall.2 answer) hF₂⟩

/-- **Frame.** A fact that the discipline keeps may be carried along. -/
theorem Yields.frame {F : W → Prop} (h : D.Yields i p P w) (hrely : ∀ w w', D.rely i w w' → F w → F w')
    (hguarantee : ∀ w w', D.guarantee i w w' → F w → F w') (hw : F w) :
    D.Yields i p (fun a w' => P a w' ∧ F w') w := by
  induction p generalizing w with
  | ret a => exact fun w' hr hinv b hb => ⟨h w' hr hinv b hb, hrely w w' hr hw⟩
  | raise e => exact .raise
  | ask r next ih =>
    intro w₁ hr hinv
    obtain ⟨hdue, hserve⟩ := h w₁ hr hinv
    refine ⟨hdue, fun answer w₂ heffect => ?_⟩
    obtain ⟨hg, hinv₂, hnext⟩ := hserve answer w₂ heffect
    exact ⟨hg, hinv₂, ih answer hnext (hguarantee w₁ w₂ hg (hrely w w₁ hr hw))⟩

end Yields

/-! ### Putting the processes together -/

/-- **Soundness.** Processes that each keep to the discipline keep the invariant in every
interleaving, and whenever one is about to make a request, what is claimed of it holds. -/
theorem sound [DecidableEq ι] {w₀ : W} {programs : ι → Process I ε α} (hinv : D.inv w₀)
    (hall : ∀ i, D.Holds i (programs i) (fun _ _ => True) w₀) {s : System I ε α ι W}
    (hs : System.Reachable effect (System.start w₀ programs) s) :
    D.inv s.world ∧ ∀ i p, s.process i = some p → D.Holds i p (fun _ _ => True) s.world := by
  induction hs with
  | refl => exact ⟨hinv, fun i p hp => Option.some.inj hp ▸ hall i⟩
  | tail _ hstep ih =>
    obtain ⟨hinv, hholds⟩ := ih
    cases hstep with
    | @serve i r next answer w hp heffect =>
      obtain ⟨-, hserve⟩ := hholds i _ hp _ (D.rely_refl i _) hinv
      obtain ⟨hguarantee, hinv₂, hnext⟩ := hserve answer w heffect
      refine ⟨hinv₂, fun j q hq => ?_⟩
      rcases eq_or_ne j i with rfl | hj
      · simp only [Function.update_self, Option.some.injEq] at hq
        exact hq ▸ hnext
      · simp only [Function.update_of_ne hj] at hq
        exact (hholds j q hq).stable (D.guarantee_rely hj.symm hguarantee)
    | kill i =>
      refine ⟨hinv, fun j q hq => ?_⟩
      rcases eq_or_ne j i with rfl | hj
      · simp at hq
      · simp only [Function.update_of_ne hj] at hq
        exact hholds j q hq

theorem due_of_reachable [DecidableEq ι] {w₀ : W} {programs : ι → Process I ε α} (hinv : D.inv w₀)
    (hall : ∀ i, D.Holds i (programs i) (fun _ _ => True) w₀) {s : System I ε α ι W}
    (hs : System.Reachable effect (System.start w₀ programs) s) {i : ι} {r : I.Request}
    {next : I.Answer r → Process I ε α} (hp : s.process i = some (.ask r next)) :
    D.due i r s.world := by
  obtain ⟨hinv, hholds⟩ := D.sound hinv hall hs
  exact (hholds i _ hp _ (D.rely_refl i _) hinv).1

end RelyGuarantee

end WagmiBench.Lib
