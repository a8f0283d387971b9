import WagmiBench.Lib.JsonDumps
import WagmiBench.Lib.JsonPlain
import WagmiBench.Lib.JsonReader

/-!
# Reading what `json.dumps` wrote

Sorting the keys of a document changes nothing it says. A reader that nests as deep as the document
reads the text back as the same document; one that does not nest so deep reads nothing.
-/

namespace WagmiBench.Lib

namespace Json

/-! ## Integers -/

mutual

/-- Every integer of the value has at most `k` digits. -/
def intsWithin (k : ℕ) : Json → Bool
  | .int n => n.natAbs < 10 ^ k
  | .arr items => intsWithinItems k items
  | .obj members => intsWithinMembers k members
  | _ => true

/-- `intsWithin` on every item. -/
def intsWithinItems (k : ℕ) : List Json → Bool
  | [] => true
  | v :: items => intsWithin k v && intsWithinItems k items

/-- `intsWithin` on every member's value. -/
def intsWithinMembers (k : ℕ) : List (Text × Json) → Bool
  | [] => true
  | (_, v) :: members => intsWithin k v && intsWithinMembers k members

end

theorem intsWithinItems_iff {k : ℕ} {items : List Json} :
    intsWithinItems k items = true ↔ ∀ v ∈ items, intsWithin k v = true := by
  induction items with
  | nil => simp [intsWithinItems]
  | cons v items ih => simp [intsWithinItems, ih]

theorem intsWithinMembers_iff {k : ℕ} {members : List (Text × Json)} :
    intsWithinMembers k members = true ↔ ∀ m ∈ members, intsWithin k m.2 = true := by
  induction members with
  | nil => simp [intsWithinMembers]
  | cons m members ih => simp [intsWithinMembers, ih]

mutual

theorem intsWithin_mono {k l : ℕ} (hkl : k ≤ l) : ∀ v : Json, intsWithin k v = true →
    intsWithin l v = true
  | .null | .bool _ | .float _ | .str _ => fun _ => rfl
  | .int n => fun h => by
    simp only [intsWithin, decide_eq_true_eq] at h ⊢
    exact h.trans_le (Nat.pow_le_pow_right (by decide) hkl)
  | .arr items => intsWithinItems_mono hkl items
  | .obj members => intsWithinMembers_mono hkl members

/-- `intsWithin_mono` for items. -/
theorem intsWithinItems_mono {k l : ℕ} (hkl : k ≤ l) : ∀ items : List Json,
    intsWithinItems k items = true → intsWithinItems l items = true
  | [] => fun _ => rfl
  | v :: items => fun h => by
    rw [intsWithinItems, Bool.and_eq_true] at h ⊢
    exact ⟨intsWithin_mono hkl v h.1, intsWithinItems_mono hkl items h.2⟩

/-- `intsWithin_mono` for members. -/
theorem intsWithinMembers_mono {k l : ℕ} (hkl : k ≤ l) : ∀ members : List (Text × Json),
    intsWithinMembers k members = true → intsWithinMembers l members = true
  | [] => fun _ => rfl
  | (_, v) :: members => fun h => by
    rw [intsWithinMembers, Bool.and_eq_true] at h ⊢
    exact ⟨intsWithin_mono hkl v h.1, intsWithinMembers_mono hkl members h.2⟩

end

theorem readableItems_iff {k : ℕ} {items : List Json} :
    ReadableItems k items ↔ ∀ v ∈ items, Readable k v := by
  induction items with
  | nil => simp [ReadableItems]
  | cons v items ih => simp [ReadableItems, ih]

theorem readableMembers_iff {k : ℕ} {members : List (Text × Json)} :
    ReadableMembers k members ↔ ∀ m ∈ members, Readable k m.2 := by
  induction members with
  | nil => simp [ReadableMembers]
  | cons m members ih => simp [ReadableMembers, ih]

/-- Every object of a strict document holds each key once. -/
theorem Strict.distinct {v : Json} (h : Strict v) : v.Distinct := by
  induction h with
  | arr _ ih => exact distinctItems_iff.mpr ih
  | obj hnodup _ ih => exact ⟨hnodup, distinctMembers_iff.mpr ih⟩
  | _ => simp [Distinct]

/-- A strict document is read back where its integers are. -/
theorem Strict.readable {k : ℕ} {v : Json} (h : Strict v) (hints : intsWithin k v = true) :
    Readable k v := by
  induction h with
  | arr _ ih =>
    rw [intsWithin, intsWithinItems_iff] at hints
    exact readableItems_iff.mpr fun v hv => ih v hv (hints v hv)
  | obj hnodup _ ih =>
    rw [intsWithin, intsWithinMembers_iff] at hints
    exact ⟨hnodup, readableMembers_iff.mpr fun m hm => ih m hm (hints m hm)⟩
  | int => simpa [intsWithin, Readable] using hints
  | _ => simp [Readable]

/-! ## Sorted keys -/

theorem sortByCodePoints_perm (members : List (Text × Json)) :
    (sortByCodePoints members).Perm members :=
  List.perm_insertionSort _ _

theorem sortKeysItems_eq (items : List Json) : sortKeysItems items = items.map sortKeys := by
  induction items with
  | nil => rfl
  | cons v items ih => rw [sortKeysItems, ih, List.map_cons]

theorem sortKeysMembers_eq (members : List (Text × Json)) :
    sortKeysMembers members = members.map fun m => (m.1, m.2.sortKeys) := by
  induction members with
  | nil => rfl
  | cons m members ih => rw [sortKeysMembers, ih, List.map_cons]

/-- The members of a sorted object, in some order. -/
theorem sortKeys_obj_perm (members : List (Text × Json)) :
    (sortByCodePoints (sortKeysMembers members)).Perm
      (members.map fun m => (m.1, m.2.sortKeys)) := by
  rw [← sortKeysMembers_eq]
  exact sortByCodePoints_perm _

/-- `w` says what the strict document `v` says. -/
structure Restates (v w : Json) : Prop where
  same : v.Same w
  strict : w.Strict
  depth_eq : w.depth = v.depth
  ints_eq : ∀ k, intsWithin k w = intsWithin k v

theorem restates_arr {items : List Json} {f : Json → Json}
    (h : ∀ v ∈ items, Restates v (f v)) : Restates (.arr items) (.arr (items.map f)) := by
  refine ⟨?_, .arr (List.forall_mem_map.mpr fun v hv => (h v hv).strict), ?_, fun k => ?_⟩
  · simp only [Same]
    refine ⟨_, rfl, ?_⟩
    induction items with
    | nil => rfl
    | cons v items ih =>
      obtain ⟨hv, hitems⟩ := List.forall_mem_cons.mp h
      exact ⟨_, _, rfl, hv.same, ih hitems⟩
  · rw [depth, depth]
    congr 1
    induction items with
    | nil => rfl
    | cons v items ih =>
      obtain ⟨hv, hitems⟩ := List.forall_mem_cons.mp h
      rw [List.map_cons, depthItems, depthItems, hv.depth_eq, ih hitems]
  · rw [Bool.eq_iff_iff, intsWithin, intsWithin, intsWithinItems_iff, intsWithinItems_iff,
      List.forall_mem_map]
    exact forall₂_congr fun v hv => by rw [(h v hv).ints_eq k]

theorem restates_obj {members sorted : List (Text × Json)} {f : Json → Json}
    (hnodup : NodupKeys members) (h : ∀ m ∈ members, Restates m.2 (f m.2))
    (hsorted : sorted.Perm (members.map fun m => (m.1, f m.2))) :
    Restates (.obj members) (.obj sorted) := by
  have hkeys : NodupKeys sorted := by
    have := (hsorted.map Prod.fst).nodup_iff
    rw [NodupKeys, this]
    simpa [Function.comp_def, NodupKeys] using hnodup
  have hmem : ∀ {P : Json → Prop}, (∀ m ∈ sorted, P m.2) ↔ ∀ m ∈ members, P (f m.2) := by
    intro P
    simp only [hsorted.mem_iff, List.forall_mem_map]
  refine ⟨?_, .obj hkeys (hmem.mpr fun m hm => (h m hm).strict), ?_, fun k => ?_⟩
  · simp only [Same]
    refine ⟨_, rfl, by simpa using hsorted.length_eq.symm, sameMembers_iff.mpr fun m hm => ?_⟩
    refine ⟨_, (lookup_eq_some_iff hkeys).mpr ?_, (h m hm).same⟩
    exact hsorted.mem_iff.mpr (List.mem_map_of_mem hm)
  · rw [depth, depth]
    congr 1
    refine eq_of_forall_ge_iff fun n => ?_
    rw [depthMembers_le_iff, depthMembers_le_iff, hmem (P := fun v => v.depth ≤ n)]
    exact forall₂_congr fun m hm => by rw [(h m hm).depth_eq]
  · rw [Bool.eq_iff_iff, intsWithin, intsWithin, intsWithinMembers_iff, intsWithinMembers_iff,
      hmem (P := fun v => intsWithin k v = true)]
    exact forall₂_congr fun m hm => by rw [(h m hm).ints_eq k]

/-- **Sorted keys.** Sorting keys keeps what a strict document says. -/
theorem Strict.restates_sortKeys {v : Json} (h : Strict v) : Restates v v.sortKeys := by
  induction h with
  | null => exact ⟨by simp [Same, sortKeys], .null, rfl, fun _ => rfl⟩
  | bool => exact ⟨by simp [Same, sortKeys], .bool, rfl, fun _ => rfl⟩
  | int => exact ⟨by simp [Same, sortKeys], .int, rfl, fun _ => rfl⟩
  | str => exact ⟨by simp [Same, sortKeys], .str, rfl, fun _ => rfl⟩
  | arr _ ih =>
    rw [sortKeys, sortKeysItems_eq]
    exact restates_arr ih
  | obj hnodup _ ih =>
    rw [sortKeys]
    exact restates_obj hnodup ih (sortKeys_obj_perm _)

/-! ## Documents that nest too deep -/

section Deep

variable {ε : Type} {L : Limits} {H : Hooks ε} {stack : List Frame} {rest : Text}

theorem readFrom_error {r : Reader ε} {c : CodePoint} {t : Text} {e : LoadsError ε}
    (h : step L H r c = .error e) (u : Json) : readFrom L H r (c :: t) ≠ .ok u := by
  rw [readFrom, h]
  simp

/-- Where containers nest as deep as they may, none is opened. -/
theorem step_open_full {c : CodePoint} (hc : c = openArr ∨ c = openObj)
    (hfull : ¬ stack.length < L.maxDepth) : step L H ⟨.value, stack⟩ c = .error .recursion := by
  rcases hc with rfl | rfl <;>
    simp [step, stepValue, isBlank, openFrame, hfull, codePoint, Fin.ext_iff]

theorem step_open (h : stack.length < L.maxDepth) :
    step L H ⟨.value, stack⟩ openArr = .ok ⟨.firstItem, .arr [] :: stack⟩ ∧
      step L H ⟨.value, stack⟩ openObj = .ok ⟨.firstKey, .obj [] none :: stack⟩ := by
  constructor <;> simp [step, stepValue, isBlank, openFrame, h, codePoint, Fin.ext_iff]

variable {k : ℕ} (hk : 0 < k) (hdigits : k ≤ L.maxDigits) (hH : H.Faithful)

include hk hdigits hH

mutual

/-- A value that nests deeper than the reader may is not read, whatever follows it. -/
theorem readFrom_emit_deep : ∀ (v : Json) (stack : List Frame) (rest : Text), Readable k v →
    stack.length ≤ L.maxDepth → L.maxDepth < stack.length + depth v →
    ∀ u, readFrom L H ⟨.value, stack⟩ (emit v ++ rest) ≠ .ok u
  | .null, stack, _ | .bool _, stack, _ | .int _, stack, _ | .float _, stack, _
  | .str _, stack, _ => fun _ _ hdeep => by
    rw [depth] at hdeep <;> first | omega | simp
  | .arr [], stack, rest => fun _ hle hdeep => by
    simp only [depth, depthItems] at hdeep
    rw [emit, List.cons_append]
    exact readFrom_error (step_open_full (.inl rfl) (by omega))
  | .arr (v :: items), stack, rest => fun h hle hdeep => by
    simp only [Readable, ReadableItems] at h
    simp only [depth, depthItems] at hdeep
    have text : emit (.arr (v :: items)) ++ rest =
        openArr :: (emit v ++ (emitItems items ++ closeArr :: rest)) := by
      simp [emit]
    rw [text]
    by_cases hopen : stack.length < L.maxDepth
    · rw [readFrom_cons (step_open hopen).1, readFrom_firstItem h.1]
      by_cases hv : L.maxDepth < stack.length + 1 + depth v
      · exact readFrom_emit_deep v _ _ h.1 hopen hv
      · rw [readFrom_emit hk hdigits hH v _ _ h.1 (by simp only [List.length_cons]; omega)
          endsNumber_emitItems]
        exact readFrom_emitItems_deep items [v] stack rest h.2 hopen (by omega)
    · exact readFrom_error (step_open_full (.inl rfl) hopen)
  | .obj [], stack, rest => fun _ hle hdeep => by
    simp only [depth, depthMembers] at hdeep
    rw [emit, List.cons_append]
    exact readFrom_error (step_open_full (.inr rfl) (by omega))
  | .obj ((key, v) :: members), stack, rest => fun h hle hdeep => by
    simp only [Readable, ReadableMembers] at h
    simp only [depth, depthMembers] at hdeep
    have text : emit (.obj ((key, v) :: members)) ++ rest =
        openObj :: (emitString key ++ colon :: (emit v ++ (emitMembers members ++ closeObj :: rest))) := by
      simp [emit]
    rw [text]
    by_cases hopen : stack.length < L.maxDepth
    · rw [readFrom_cons (step_open hopen).2, readFrom_key key (.inl rfl)]
      by_cases hv : L.maxDepth < stack.length + 1 + depth v
      · exact readFrom_emit_deep v _ _ h.2.1 hopen hv
      · rw [readFrom_emit hk hdigits hH v _ _ h.2.1 (by simp only [List.length_cons]; omega)
          endsNumber_emitMembers]
        exact readFrom_emitMembers_deep members [(key, v)] stack rest h.2.2 hopen (by omega)
    · exact readFrom_error (step_open_full (.inr rfl) hopen)

/-- `readFrom_emit_deep` for the items after the first. -/
theorem readFrom_emitItems_deep : ∀ (items read : List Json) (stack : List Frame) (rest : Text),
    ReadableItems k items → stack.length + 1 ≤ L.maxDepth →
    L.maxDepth < stack.length + 1 + depthItems items →
    ∀ u, readFrom L H ⟨.after, .arr read :: stack⟩ (emitItems items ++ closeArr :: rest) ≠ .ok u
  | [], read, stack, rest => fun _ hle hdeep => by
    simp only [depthItems] at hdeep
    omega
  | v :: items, read, stack, rest => fun h hle hdeep => by
    simp only [ReadableItems] at h
    simp only [depthItems] at hdeep
    have next : step L H ⟨.after, .arr read :: stack⟩ comma = .ok ⟨.value, .arr read :: stack⟩ := by
      simp [step, stepComplete, stepAfter, isBlank, codePoint]
    have text : emitItems (v :: items) ++ closeArr :: rest =
        comma :: (emit v ++ (emitItems items ++ closeArr :: rest)) := by
      simp [emitItems]
    rw [text, readFrom_cons next]
    by_cases hv : L.maxDepth < stack.length + 1 + depth v
    · exact readFrom_emit_deep v _ _ h.1 hle hv
    · rw [readFrom_emit hk hdigits hH v _ _ h.1 (by simp only [List.length_cons]; omega)
        endsNumber_emitItems]
      exact readFrom_emitItems_deep items (v :: read) stack rest h.2 hle (by omega)

/-- `readFrom_emit_deep` for the members after the first. -/
theorem readFrom_emitMembers_deep : ∀ (members read : List (Text × Json)) (stack : List Frame)
    (rest : Text), ReadableMembers k members → stack.length + 1 ≤ L.maxDepth →
    L.maxDepth < stack.length + 1 + depthMembers members →
    ∀ u, readFrom L H ⟨.after, .obj read none :: stack⟩
      (emitMembers members ++ closeObj :: rest) ≠ .ok u
  | [], read, stack, rest => fun _ hle hdeep => by
    simp only [depthMembers] at hdeep
    omega
  | (key, v) :: members, read, stack, rest => fun h hle hdeep => by
    simp only [ReadableMembers] at h
    simp only [depthMembers] at hdeep
    have next : step L H ⟨.after, .obj read none :: stack⟩ comma =
        .ok ⟨.key, .obj read none :: stack⟩ := by
      simp [step, stepComplete, stepAfter, isBlank, codePoint]
    have text : emitMembers ((key, v) :: members) ++ closeObj :: rest =
        comma :: (emitString key ++ colon :: (emit v ++ (emitMembers members ++ closeObj :: rest))) := by
      simp [emitMembers]
    rw [text, readFrom_cons next, readFrom_key key (.inr rfl)]
    by_cases hv : L.maxDepth < stack.length + 1 + depth v
    · exact readFrom_emit_deep v _ _ h.1 hle hv
    · rw [readFrom_emit hk hdigits hH v _ _ h.1 (by simp only [List.length_cons]; omega)
        endsNumber_emitMembers]
      exact readFrom_emitMembers_deep members ((key, v) :: read) stack rest h.2 hle (by omega)

end

end Deep

/-- **Depth decides.** Of a strict document whose integers a reader converts, the written text is read
as the sorted document when the reader nests as deep, and is not read otherwise. -/
theorem loads_dumps {ε : Type} {L : Limits} {H : Hooks ε} (hH : H.Faithful) {v : Json}
    (h : Strict v) (hints : intsWithin L.maxDigits v = true) :
    (v.depth ≤ L.maxDepth → loads L H (dumps false v) = .ok v.sortKeys) ∧
      (L.maxDepth < v.depth → ∀ u, loads L H (dumps false v) ≠ .ok u) := by
  have hv := h.restates_sortKeys
  have hreadable : Readable L.maxDigits v.sortKeys := hv.strict.readable ((hv.ints_eq _).trans hints)
  have hpos : 0 < L.maxDigits := by have := L.digits_ge; omega
  rw [← hv.depth_eq, dumps, if_neg (by simp)]
  refine ⟨fun hdepth => loads_emit hpos le_rfl hH hreadable hdepth, fun hdeep u => ?_⟩
  unfold loads
  split
  · simp
  · have := readFrom_emit_deep hpos le_rfl hH v.sortKeys [] [] hreadable (Nat.zero_le _)
      (by simpa using hdeep) u
    rwa [List.append_nil] at this

end Json

end WagmiBench.Lib
