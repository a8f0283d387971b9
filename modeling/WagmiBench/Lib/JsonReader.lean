import WagmiBench.Lib.JsonPlain

/-!
# What a reader reads

Two rules about `loads`. A property every hook and every constructor keeps is one of every document
that is read; and a document read with some hooks is read with any hooks that return what they
return.
-/

namespace WagmiBench.Lib

namespace Json

variable {ε : Type} {L : Limits} {H : Hooks ε} {P : Json → Prop}

/-! ## Invariants -/

/-- The property is one of every value that is built from values with the property. -/
structure Hooks.Keep (H : Hooks ε) (P : Json → Prop) : Prop where
  null : P .null
  bool : ∀ b, P (.bool b)
  int : ∀ n, P (.int n)
  str : ∀ s, P (.str s)
  arr : ∀ items, (∀ v ∈ items, P v) → P (.arr items)
  parseFloat : ∀ token v, H.parseFloat token = .ok v → P v
  parseConstant : ∀ token v, H.parseConstant token = .ok v → P v
  objectPairs : ∀ pairs v, (∀ m ∈ pairs, P m.2) → H.objectPairs pairs = .ok v → P v

/-- An open container holds values with the property. -/
def Frame.Holds (P : Json → Prop) : Frame → Prop
  | .arr items => ∀ v ∈ items, P v
  | .obj members _ => ∀ m ∈ members, P m.2

/-- A value in hand has the property. -/
def Mode.Holds (P : Json → Prop) : Mode ε → Prop
  | .done v => P v
  | .literal _ v => ∀ w, v = .ok w → P w
  | _ => True

/-- Every value the reader holds has the property. -/
structure Reader.Holds (P : Json → Prop) (r : Reader ε) : Prop where
  mode : r.mode.Holds P
  stack : ∀ frame ∈ r.stack, frame.Holds P

theorem holds_deliver {v : Json} {stack : List Frame} (hv : P v)
    (hstack : ∀ frame ∈ stack, frame.Holds P) : (deliver v stack : Reader ε).Holds P := by
  match stack with
  | [] => exact ⟨hv, by simp [deliver]⟩
  | .arr items :: stack =>
    obtain ⟨hitems, hstack⟩ := List.forall_mem_cons.mp hstack
    exact ⟨trivial, List.forall_mem_cons.mpr ⟨List.forall_mem_cons.mpr ⟨hv, hitems⟩, hstack⟩⟩
  | .obj members (some k) :: stack =>
    obtain ⟨hmembers, hstack⟩ := List.forall_mem_cons.mp hstack
    exact ⟨trivial, List.forall_mem_cons.mpr ⟨List.forall_mem_cons.mpr ⟨hv, hmembers⟩, hstack⟩⟩
  | .obj members none :: stack => exact ⟨trivial, hstack⟩

theorem holds_openFrame {m : Mode ε} {frame : Frame} {stack : List Frame} {r : Reader ε}
    (hmode : m.Holds P) (hframe : frame.Holds P) (hstack : ∀ frame ∈ stack, frame.Holds P)
    (h : openFrame L m frame stack = .ok r) : r.Holds P := by
  unfold openFrame at h
  split at h
  · obtain rfl := Except.ok.inj h
    exact ⟨hmode, List.forall_mem_cons.mpr ⟨hframe, hstack⟩⟩
  · cases h

theorem holds_finishInt (hH : H.Keep P) {acc : Text} {v : Json}
    (h : (finishInt L acc : Read ε Json) = .ok v) : P v := by
  simp only [finishInt] at h
  split at h
  · cases h
  · split at h <;> split at h <;> cases h <;> exact hH.int _

theorem holds_finishFloat (hH : H.Keep P) {acc : Text} {v : Json}
    (h : finishFloat H acc = .ok v) : P v := by
  unfold finishFloat at h
  split at h
  · next heq => exact Except.ok.inj h ▸ hH.parseFloat _ _ heq
  · cases h

theorem holds_finishNumber (hH : H.Keep P) {acc : Text} {part : NumberPart} {v : Json}
    (h : finishNumber L H acc part = .ok v) : P v := by
  cases part with
  | minus => cases h
  | zero | digits => exact holds_finishInt hH h
  | fraction | exponentDigits => exact holds_finishFloat hH h
  | dot whole =>
    obtain ⟨_, _, h⟩ := bind_ok_iff.mp h
    cases h
  | exponent isFloat before =>
    simp only [finishNumber] at h
    split at h <;> obtain ⟨_, _, h⟩ := bind_ok_iff.mp h <;> cases h

theorem holds_closeContainer (hH : H.Keep P) {c : CodePoint} {stack : List Frame} {r : Reader ε}
    (hstack : ∀ frame ∈ stack, frame.Holds P) (h : closeContainer H c stack = .ok r) :
    r.Holds P := by
  unfold closeContainer at h
  split at h
  · obtain ⟨hitems, hstack⟩ := List.forall_mem_cons.mp hstack
    split at h
    · cases h
      exact holds_deliver (hH.arr _ fun v hv => hitems v (List.mem_reverse.mp hv)) hstack
    · cases h
  · obtain ⟨hmembers, hstack⟩ := List.forall_mem_cons.mp hstack
    split at h
    · unfold hooked at h
      split at h
      · next heq =>
        cases h
        refine holds_deliver (hH.objectPairs _ _ (fun m hm => ?_) heq) hstack
        exact hmembers m (List.mem_reverse.mp hm)
      · cases h
    · cases h
  · cases h

theorem holds_stepComplete (hH : H.Keep P) {c : CodePoint} {r r' : Reader ε} (hr : r.Holds P)
    (h : stepComplete H c r = .ok r') : r'.Holds P := by
  unfold stepComplete at h
  split at h
  · next heq =>
    split at h
    · cases h
      exact ⟨by simpa [heq] using hr.mode, hr.stack⟩
    · cases h
  · unfold stepAfter at h
    split at h
    · cases h
      exact ⟨trivial, hr.stack⟩
    · split at h
      · split at h <;> cases h
        all_goals exact ⟨trivial, by simpa [*] using hr.stack⟩
      · exact holds_closeContainer hH hr.stack h

/-- A conditional result comes from one of its branches. -/
theorem of_ite {p : Prop} [Decidable p] {x y : Read ε (Reader ε)} {r : Reader ε} {Q : Prop}
    (hx : x = .ok r → Q) (hy : y = .ok r → Q) : (if p then x else y) = .ok r → Q := by
  split
  · exact hx
  · exact hy

theorem holds_stepValue (hH : H.Keep P) {c : CodePoint} {stack : List Frame} {r : Reader ε}
    (hstack : ∀ frame ∈ stack, frame.Holds P) (h : stepValue L H c stack = .ok r) :
    r.Holds P := by
  have moves : ∀ mode : Mode ε, mode.Holds P → (.ok ⟨mode, stack⟩ : Read ε (Reader ε)) = .ok r →
      r.Holds P := fun mode hmode h => Except.ok.inj h ▸ ⟨hmode, hstack⟩
  have literal : ∀ rest w, P w →
      (.ok ⟨.literal rest (.ok w), stack⟩ : Read ε (Reader ε)) = .ok r → r.Holds P :=
    fun rest w hw => moves _ fun _ heq => Except.ok.inj heq ▸ hw
  refine of_ite (moves .value trivial) ?_ h
  refine of_ite (moves (.string ..) trivial) ?_
  refine of_ite (holds_openFrame (m := .firstItem) trivial (by simp [Frame.Holds]) hstack) ?_
  refine of_ite (holds_openFrame (m := .firstKey) trivial (by simp [Frame.Holds]) hstack) ?_
  refine of_ite (moves (.number ..) trivial) <| of_ite (moves (.number ..) trivial) ?_
  refine of_ite (moves (.number ..) trivial) <| of_ite (literal _ _ hH.null) ?_
  refine of_ite (literal _ _ (hH.bool true)) <| of_ite (literal _ _ (hH.bool false)) ?_
  refine of_ite (moves _ (hH.parseConstant _)) <| of_ite (moves _ (hH.parseConstant _)) ?_
  exact fun h => nomatch h

theorem holds_stepString (hH : H.Keep P) {c : CodePoint} {isKey : Bool} {acc : Text}
    {stack : List Frame} {esc : Escape} {r : Reader ε} (hstack : ∀ frame ∈ stack, frame.Holds P)
    (h : stepString c isKey acc stack esc = .ok r) : r.Holds P := by
  have next : ∀ acc' esc', r = ⟨.string isKey acc' esc', stack⟩ → r.Holds P := by
    rintro _ _ rfl
    exact ⟨trivial, hstack⟩
  cases esc with
  | plain high =>
    simp only [stepString] at h
    split at h
    · unfold finishString at h
      split at h
      · split at h
        · obtain ⟨hmembers, hstack⟩ := List.forall_mem_cons.mp hstack
          cases h
          exact ⟨trivial, List.forall_mem_cons.mpr ⟨hmembers, hstack⟩⟩
        · cases h
      · cases h
        exact holds_deliver (hH.str _) hstack
    · split at h
      · exact next _ _ (Except.ok.inj h).symm
      · split at h
        · cases h
        · exact next _ _ (Except.ok.inj h).symm
  | slash high =>
    simp only [stepString] at h
    split at h
    · exact next _ _ (Except.ok.inj h).symm
    · split at h
      · exact next _ _ (Except.ok.inj h).symm
      · cases h
  | unicode high n v =>
    simp only [stepString] at h
    split at h
    · cases h
    · split at h
      · exact next _ _ (Except.ok.inj h).symm
      · exact next _ _ (Except.ok.inj h).symm

theorem holds_stepNumber (hH : H.Keep P) {c : CodePoint} {acc : Text} {stack : List Frame}
    {part : NumberPart} {r : Reader ε} (hstack : ∀ frame ∈ stack, frame.Holds P)
    (h : stepNumber L H c acc stack part = .ok r) : r.Holds P := by
  have ends : (do let v ← finishNumber L H acc part; stepComplete H c (deliver v stack)) = .ok r →
      r.Holds P := by
    intro h
    obtain ⟨v, hv, h⟩ := bind_ok_iff.mp h
    exact holds_stepComplete hH (holds_deliver (holds_finishNumber hH hv) hstack) h
  have next : ∀ acc' part', r = ⟨.number acc' part', stack⟩ → r.Holds P := by
    rintro _ _ rfl
    exact ⟨trivial, hstack⟩
  cases part <;> simp only [stepNumber] at h <;> repeat' split at h
  all_goals first
    | exact ends h
    | exact next _ _ (Except.ok.inj h).symm
    | cases h; exact ⟨fun w hw => hH.parseConstant _ _ hw, hstack⟩

/-- One character keeps the property. -/
theorem holds_step (hH : H.Keep P) {c : CodePoint} {r r' : Reader ε} (hr : r.Holds P)
    (h : step L H r c = .ok r') : r'.Holds P := by
  have stays : (.ok r : Read ε (Reader ε)) = .ok r' → r'.Holds P := fun h => Except.ok.inj h ▸ hr
  have key : ∀ mode : Mode ε, mode.Holds P → stepKey c mode r.stack = .ok r' → r'.Holds P := by
    intro mode hmode h
    unfold stepKey at h
    split at h
    · cases h; exact ⟨hmode, hr.stack⟩
    · split at h
      · cases h; exact ⟨trivial, hr.stack⟩
      · cases h
  unfold step at h
  split at h
  · exact holds_stepValue hH hr.stack h
  · split at h
    · exact stays h
    · split at h
      · exact holds_closeContainer hH hr.stack h
      · exact holds_stepValue hH hr.stack h
  · split at h
    · exact holds_closeContainer hH hr.stack h
    · exact key .firstKey trivial h
  · exact key .key trivial h
  · split at h
    · exact stays h
    · split at h
      · cases h; exact ⟨trivial, hr.stack⟩
      · cases h
  · exact holds_stepComplete hH hr h
  · exact holds_stepComplete hH hr h
  · exact holds_stepString hH hr.stack h
  · rename_i heq
    have hmode := hr.mode
    rw [heq] at hmode
    unfold stepLiteral at h
    split at h
    · cases h
    · split at h
      · unfold hooked at h
        split at h
        · cases h; exact holds_deliver (hmode _ rfl) hr.stack
        · cases h
      · cases h
    · split at h
      · cases h; exact ⟨hmode, hr.stack⟩
      · cases h
  · exact holds_stepNumber hH hr.stack h

theorem holds_finish (hH : H.Keep P) {r : Reader ε} {v : Json} (hr : r.Holds P)
    (h : finish L H r = .ok v) : P v := by
  unfold finish at h
  split at h
  · rename_i heq
    have hmode := hr.mode
    rw [heq] at hmode
    exact Except.ok.inj h ▸ hmode
  · obtain ⟨w, hw, h⟩ := bind_ok_iff.mp h
    have hmode := (holds_deliver (ε := ε) (holds_finishNumber hH hw) hr.stack).mode
    split at h
    · rename_i heq
      rw [heq] at hmode
      exact Except.ok.inj h ▸ hmode
    · cases h
  · cases h

/-- **The invariant rule.** A property every hook and every constructor keeps is one of every
document that is read. -/
theorem loads_holds (hH : H.Keep P) {t : Text} {v : Json} (h : loads L H t = .ok v) : P v := by
  have go : ∀ (t : Text) (r : Reader ε), r.Holds P → readFrom L H r t = .ok v → P v := by
    intro t
    induction t with
    | nil => exact fun r hr h => holds_finish hH hr h
    | cons c t ih =>
      intro r hr h
      obtain ⟨r', hstep, h⟩ := bind_ok_iff.mp h
      exact ih r' (holds_step hH hr hstep) h
  unfold loads at h
  split at h
  · cases h
  · exact go t ⟨.value, []⟩ ⟨trivial, by simp⟩ h

/-- What a document read with the strict hooks is: no fractions anywhere, and every object holds
each key once. -/
inductive Strict : Json → Prop where
  | null : Strict .null
  | bool {b : Bool} : Strict (.bool b)
  | int {n : ℤ} : Strict (.int n)
  | str {s : Text} : Strict (.str s)
  | arr {items : List Json} : (∀ v ∈ items, Strict v) → Strict (.arr items)
  | obj {members : List (Text × Json)} :
      NodupKeys members → (∀ m ∈ members, Strict m.2) → Strict (.obj members)

theorem strictHooks_keep : strictHooks.Keep Strict where
  null := .null
  bool _ := .bool
  int _ := .int
  str _ := .str
  arr _ := .arr
  parseFloat _ _ h := nomatch h
  parseConstant _ _ h := nomatch h
  objectPairs pairs v hpairs h := by
    simp only [strictHooks, rejectDuplicateKeys] at h
    split at h
    · cases h
    · next heq =>
      obtain rfl := Except.ok.inj h
      exact .obj (firstDuplicate_eq_none.mp heq).1 hpairs

theorem strict_of_loads {t : Text} {v : Json} (h : loads L strictHooks t = .ok v) : v.Strict :=
  loads_holds strictHooks_keep h

/-! ## Other floats -/

section Floats

variable {parseFloat : Text → Except ε Json}
  (hfloat : ∀ token v, H.parseFloat token = .ok v → parseFloat token = .ok v)

include hfloat

theorem finishNumber_mono {acc : Text} {part : NumberPart} {v : Json}
    (h : finishNumber L H acc part = .ok v) :
    finishNumber L { H with parseFloat } acc part = .ok v := by
  have float : finishFloat H acc = .ok v → finishFloat { H with parseFloat } acc = .ok v := by
    intro h
    unfold finishFloat at h ⊢
    split at h
    · next heq =>
      simp only [hfloat _ _ heq]
      exact h
    · cases h
  cases part with
  | minus => cases h
  | zero | digits => exact h
  | fraction | exponentDigits => exact float h
  | dot whole =>
    obtain ⟨_, _, h⟩ := bind_ok_iff.mp h
    cases h
  | exponent isFloat before =>
    simp only [finishNumber] at h
    split at h <;> obtain ⟨_, _, h⟩ := bind_ok_iff.mp h <;> cases h

/-- Where a number ends is the only place where the hooks differ. -/
theorem step_mono {r r' : Reader ε} {c : CodePoint} (h : step L H r c = .ok r') :
    step L { H with parseFloat } r c = .ok r' := by
  obtain ⟨mode, stack⟩ := r
  cases mode with
  | number acc part =>
    have ends : (do let v ← finishNumber L H acc part; stepComplete H c (deliver v stack)) = .ok r' →
        (do let v ← finishNumber L { H with parseFloat } acc part
            stepComplete { H with parseFloat } c (deliver v stack)) = .ok r' := by
      intro h
      obtain ⟨v, hv, h⟩ := bind_ok_iff.mp h
      exact bind_ok_iff.mpr ⟨v, finishNumber_mono hfloat hv, h⟩
    simp only [step] at h ⊢
    cases part <;> simp only [stepNumber] at h ⊢ <;> split_ifs at h ⊢ <;>
      first | exact ends h | exact h
  | _ => exact h

/-- **Reading more floats.** What is read is still read, as the same document, when fractional
lexemes that were refused are not. -/
theorem loads_mono {t : Text} {v : Json} (h : loads L H t = .ok v) :
    loads L { H with parseFloat } t = .ok v := by
  have go : ∀ (t : Text) (r : Reader ε), readFrom L H r t = .ok v →
      readFrom L { H with parseFloat } r t = .ok v := by
    intro t
    induction t with
    | nil =>
      intro r h
      simp only [readFrom, finish] at h ⊢
      split at h
      · next heq => simpa only [heq] using h
      · next heq =>
        obtain ⟨w, hw, h⟩ := bind_ok_iff.mp h
        exact bind_ok_iff.mpr ⟨w, finishNumber_mono hfloat hw, h⟩
      · cases h
    | cons c t ih =>
      intro r h
      obtain ⟨r', hstep, h⟩ := bind_ok_iff.mp h
      exact bind_ok_iff.mpr ⟨r', step_mono hfloat hstep, ih r' h⟩
  unfold loads at h ⊢
  split at h
  · cases h
  · next hmark =>
    rw [if_neg hmark]
    exact go t _ h

end Floats

end Json

end WagmiBench.Lib
