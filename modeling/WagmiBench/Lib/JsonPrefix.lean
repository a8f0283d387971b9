import WagmiBench.Lib.JsonParser

/-!
# JSON texts that are cut

A text that starts with a brace is complete only once its outermost container is closed, and nothing
but blanks may follow: so no proper beginning of it that leaves more than blanks out can be read.
-/

namespace WagmiBench.Lib

namespace Json

variable {ε : Type} {L : Limits} {H : Hooks ε}

/-- Inside a container, or behind the outermost value. -/
def Reader.Contained (r : Reader ε) : Prop := r.stack ≠ [] ∨ ∃ v, r.mode = .done v

theorem contained_deliver (v : Json) (stack : List Frame) : (deliver v stack : Reader ε).Contained := by
  unfold deliver
  split
  · exact .inr ⟨v, rfl⟩
  · exact .inl (by simp)
  · exact .inl (by simp)
  · exact .inl (by simp)

theorem contained_hooked {v : Except ε Json} {stack : List Frame} {r : Reader ε}
    (h : hooked v stack = .ok r) : r.Contained := by
  unfold hooked at h
  split at h
  · obtain rfl := Except.ok.inj h
    exact contained_deliver _ _
  · cases h

theorem contained_closeContainer {c : CodePoint} {stack : List Frame} {r : Reader ε}
    (h : closeContainer H c stack = .ok r) : r.Contained := by
  unfold closeContainer at h
  split at h
  · split at h
    · obtain rfl := Except.ok.inj h
      exact contained_deliver _ _
    · cases h
  · split at h
    · exact contained_hooked h
    · cases h
  · cases h

theorem contained_stepAfter {c : CodePoint} {stack : List Frame} {r : Reader ε}
    (hstack : stack ≠ []) (h : stepAfter H c stack = .ok r) : r.Contained := by
  unfold stepAfter at h
  split at h
  · obtain rfl := Except.ok.inj h
    exact .inl hstack
  · split at h
    · split at h
      · obtain rfl := Except.ok.inj h
        exact .inl (by simp)
      · obtain rfl := Except.ok.inj h
        exact .inl (by simp)
      · cases h
    · exact contained_closeContainer h

theorem contained_stepComplete {c : CodePoint} {r r' : Reader ε} (hr : r.Contained)
    (h : stepComplete H c r = .ok r') : r'.Contained := by
  unfold stepComplete at h
  split at h
  · split at h
    · obtain rfl := Except.ok.inj h
      exact .inr ⟨_, rfl⟩
    · cases h
  · rename_i hmode
    rcases hr with hstack | ⟨v, hv⟩
    · exact contained_stepAfter hstack h
    · exact absurd hv (hmode v)

theorem contained_openFrame {mode : Mode ε} {frame : Frame} {stack : List Frame} {r : Reader ε}
    (h : openFrame L mode frame stack = .ok r) : r.Contained := by
  unfold openFrame at h
  split at h
  · obtain rfl := Except.ok.inj h
    exact .inl (by simp)
  · cases h

theorem contained_ite {P : Prop} [Decidable P] {a b : Read ε (Reader ε)} {r : Reader ε}
    (h : (if P then a else b) = .ok r) (ha : a = .ok r → r.Contained)
    (hb : b = .ok r → r.Contained) : r.Contained := by
  by_cases hP : P
  · exact ha (by rwa [if_pos hP] at h)
  · exact hb (by rwa [if_neg hP] at h)

theorem contained_stepValue {c : CodePoint} {stack : List Frame} {r : Reader ε}
    (hstack : stack ≠ []) (h : stepValue L H c stack = .ok r) : r.Contained := by
  have same : ∀ {mode : Mode ε}, Except.ok ⟨mode, stack⟩ = (Except.ok r : Read ε (Reader ε)) →
      r.Contained := fun h => Except.ok.inj h ▸ .inl hstack
  unfold stepValue at h
  refine contained_ite h same fun h => contained_ite h same fun h => ?_
  refine contained_ite h contained_openFrame fun h => contained_ite h contained_openFrame fun h => ?_
  refine contained_ite h same fun h => contained_ite h same fun h => contained_ite h same fun h => ?_
  refine contained_ite h same fun h => contained_ite h same fun h => contained_ite h same fun h => ?_
  exact contained_ite h same fun h => contained_ite h same fun h => nomatch h

theorem contained_stepKey {c : CodePoint} {mode : Mode ε} {stack : List Frame} {r : Reader ε}
    (hstack : stack ≠ []) (h : stepKey c mode stack = .ok r) : r.Contained := by
  unfold stepKey at h
  split_ifs at h
  all_goals
    obtain rfl := Except.ok.inj h
    exact .inl hstack

theorem contained_finishString {isKey : Bool} {acc : Text} {stack : List Frame} {r : Reader ε}
    (h : finishString isKey acc stack = .ok r) : r.Contained := by
  unfold finishString at h
  split at h
  · split at h
    · obtain rfl := Except.ok.inj h
      exact .inl (by simp)
    · cases h
  · obtain rfl := Except.ok.inj h
    exact contained_deliver _ _

theorem contained_stepString {c : CodePoint} {isKey : Bool} {acc : Text} {stack : List Frame}
    {escape : Escape} {r : Reader ε} (hstack : stack ≠ [])
    (h : stepString c isKey acc stack escape = .ok r) : r.Contained := by
  cases escape with
  | plain high =>
    simp only [stepString] at h
    split_ifs at h
    · exact contained_finishString h
    all_goals
      obtain rfl := Except.ok.inj h
      exact .inl hstack
  | slash high =>
    simp only [stepString] at h
    split at h
    · obtain rfl := Except.ok.inj h
      exact .inl hstack
    · split at h
      · obtain rfl := Except.ok.inj h
        exact .inl hstack
      · cases h
  | unicode high n v =>
    simp only [stepString] at h
    split at h
    · cases h
    · split at h <;>
      · obtain rfl := Except.ok.inj h
        exact .inl hstack

theorem contained_stepLiteral {c : CodePoint} {stack : List Frame} {v : Except ε Json} {rest : Text}
    {r : Reader ε} (hstack : stack ≠ []) (h : stepLiteral c stack v rest = .ok r) :
    r.Contained := by
  unfold stepLiteral at h
  split at h
  · cases h
  · split at h
    · exact contained_hooked h
    · cases h
  · split at h
    · obtain rfl := Except.ok.inj h
      exact .inl hstack
    · cases h

theorem contained_stepNumber {c : CodePoint} {acc : Text} {stack : List Frame} {part : NumberPart}
    {r : Reader ε} (hstack : stack ≠ []) (h : stepNumber L H c acc stack part = .ok r) :
    r.Contained := by
  have ends : (finishNumber L H acc part >>= fun v => stepComplete H c (deliver v stack)) = .ok r →
      r.Contained := by
    intro h
    obtain ⟨v, -, h⟩ := bind_ok_iff.mp h
    exact contained_stepComplete (contained_deliver _ _) h
  unfold stepNumber at h
  cases part <;> simp only at h <;> split_ifs at h <;> first
    | exact ends h
    | (obtain rfl := Except.ok.inj h; exact .inl hstack)

/-- **Step lemma.** A reader inside a container stays in one until the outermost value is complete. -/
theorem contained_step {c : CodePoint} {r r' : Reader ε} (hr : r.Contained)
    (h : step L H r c = .ok r') : r'.Contained := by
  by_cases hdone : ∃ v, r.mode = .done v
  · obtain ⟨v, hv⟩ := hdone
    rw [step, hv] at h
    exact contained_stepComplete hr h
  have hstack : r.stack ≠ [] := hr.resolve_right hdone
  unfold step at h
  split at h
  · exact contained_stepValue hstack h
  · split_ifs at h
    · obtain rfl := Except.ok.inj h
      exact hr
    · exact contained_closeContainer h
    · exact contained_stepValue hstack h
  · split_ifs at h
    · exact contained_closeContainer h
    · exact contained_stepKey hstack h
  · exact contained_stepKey hstack h
  · split_ifs at h
    · obtain rfl := Except.ok.inj h
      exact hr
    · obtain rfl := Except.ok.inj h
      exact .inl hstack
  · exact contained_stepComplete hr h
  · exact contained_stepComplete hr h
  · exact contained_stepString hstack h
  · exact contained_stepLiteral hstack h
  · exact contained_stepNumber hstack h

/-- A reader inside a container finishes only behind the outermost value. -/
theorem finish_contained {r : Reader ε} {v : Json} (hr : r.Contained) (h : finish L H r = .ok v) :
    r.mode = .done v := by
  unfold finish at h
  split at h
  · rename_i hmode
    rw [hmode, Except.ok.inj h]
  · rename_i hmode
    have hstack : r.stack ≠ [] := hr.resolve_right fun ⟨_, hdone⟩ => by
      rw [hmode] at hdone
      cases hdone
    obtain ⟨w, -, h⟩ := bind_ok_iff.mp h
    obtain ⟨frame, stack, hcons⟩ := List.exists_cons_of_ne_nil hstack
    rw [hcons] at h
    rcases frame with items | ⟨members, key⟩
    · cases h
    · cases key <;> cases h
  · cases h

/-- Behind the outermost value there are only blanks. -/
theorem readFrom_done {r : Reader ε} {v : Json} (hr : r.mode = .done v) {rest : Text}
    (h : ∃ c ∈ rest, isBlank c = false) : readFrom L H r rest = .error .decode := by
  induction rest generalizing r with
  | nil => simp at h
  | cons c rest ih =>
    have hstep : step L H r c = if isBlank c then .ok ⟨.done v, r.stack⟩ else .error .decode := by
      rw [step, hr]
      simp only [stepComplete, hr]
    rw [readFrom, hstep]
    by_cases hc : isBlank c = true
    · rw [if_pos hc]
      refine ih rfl ?_
      obtain ⟨d, hd, hblank⟩ := h
      rcases List.mem_cons.mp hd with rfl | hd
      · rw [hc] at hblank
        cases hblank
      · exact ⟨d, hd, hblank⟩
    · rw [if_neg hc]
      rfl

theorem readFrom_longer {r : Reader ε} {v : Json} (hr : r.Contained) {text rest : Text}
    (hread : readFrom L H r text = .ok v) (h : ∃ c ∈ rest, isBlank c = false) :
    readFrom L H r (text ++ rest) = .error .decode := by
  induction text generalizing r with
  | nil => exact readFrom_done (finish_contained hr hread) h
  | cons c text ih =>
    rw [readFrom] at hread
    obtain ⟨r', hstep, hread⟩ := bind_ok_iff.mp hread
    rw [List.cons_append, readFrom, hstep]
    exact ih (contained_step hr hstep) hread

/-- **A cut object is no document.** Where a text that starts with a brace is read, no beginning of it
that leaves out more than blanks is. -/
theorem loads_cut {text rest : Text} {v w : Json} (hbrace : text.head? = some openObj)
    (h : ∃ c ∈ rest, isBlank c = false) (hread : loads L H (text ++ rest) = .ok v) :
    loads L H text ≠ .ok w := by
  intro hcut
  obtain ⟨tail, rfl⟩ := List.head?_eq_some_iff.mp hbrace
  have first : ∀ t : Text, loads L H (openObj :: t) =
      openFrame L .firstKey (.obj [] none) [] >>= fun r => readFrom L H r t := by
    intro t
    rw [loads, if_neg (by rw [List.head?_cons]; decide), readFrom]
    rfl
  rw [first] at hcut
  rw [List.cons_append, first] at hread
  obtain ⟨r, hopen, hcut⟩ := bind_ok_iff.mp hcut
  rw [hopen, ok_bind, readFrom_longer (contained_openFrame hopen) hcut h] at hread
  cases hread

end Json

end WagmiBench.Lib
