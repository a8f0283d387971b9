import WagmiBench.Lib.JsonWritten

/-!
# The characters of a written document

`json.dumps` with sorted keys writes the characters of a document in another order: what can be
encoded and how long it is can be read off the document as it is. An encoded text has at most four
bytes for each of its characters.
-/

namespace WagmiBench.Lib

theorem utf8Encode_length_le {t : Text} {b : Bytes} (h : utf8Encode t = some b) :
    b.length ≤ 4 * t.length := by
  induction t generalizing b with
  | nil =>
    obtain rfl := Option.some.inj h
    simp
  | cons c t ih =>
    simp only [utf8Encode, Option.bind_eq_bind, Option.bind_eq_some_iff] at h
    obtain ⟨first, hfirst, rest, hrest, h⟩ := h
    obtain rfl := Option.some.inj h
    have hshort : first.length ≤ 4 := by
      simp only [utf8EncodeChar] at hfirst
      split_ifs at hfirst <;> obtain rfl := Option.some.inj hfirst <;> simp
    have := ih hrest
    simp only [List.length_append, List.length_cons]
    omega

namespace Json

theorem emitChar_length_le (c : CodePoint) : (emitChar c).length ≤ 6 := by
  unfold emitChar
  split_ifs <;> simp

theorem emitString_length_le (s : Text) : (emitString s).length ≤ 6 * s.length + 2 := by
  have chars : (s.flatMap emitChar).length ≤ 6 * s.length := by
    induction s with
    | nil => simp
    | cons c s ih =>
      have := emitChar_length_le c
      simp only [List.flatMap_cons, List.length_append, List.length_cons]
      omega
  simp only [emitString, List.cons_append, List.length_cons, List.length_append, List.length_nil]
  omega

theorem decimalInt_length_le {k : ℕ} {n : ℤ} (hk : 0 < k) (h : n.natAbs < 10 ^ k) :
    (decimalInt n).length ≤ k + 1 := by
  have := decimal_length_le hk h
  unfold decimalInt
  split <;> simp <;> omega

/-! ## The text of a container -/

/-- What one item adds to the text of its array, with a comma. -/
def itemText (v : Json) : Text := comma :: emit v

/-- What one member adds to the text of its object, with its colon and a comma. -/
def memberText (m : Text × Json) : Text := comma :: (emitString m.1 ++ colon :: emit m.2)

theorem emitItems_eq (items : List Json) : emitItems items = items.flatMap itemText := by
  induction items with
  | nil => rfl
  | cons v items ih => rw [emitItems, ih, List.flatMap_cons, itemText, List.cons_append]

theorem emitMembers_eq (members : List (Text × Json)) :
    emitMembers members = members.flatMap memberText := by
  induction members with
  | nil => rfl
  | cons m members ih =>
    rw [emitMembers, ih, List.flatMap_cons, memberText]
    simp

theorem perm_brackets (c o e : CodePoint) (t : Text) :
    (c :: o :: (t ++ [e])).Perm (o :: e :: c :: t) := by
  refine (List.Perm.swap o c _).trans (List.Perm.cons o ?_)
  exact (List.perm_append_singleton e (c :: t))

/-- The characters of an array: its brackets and what its items add, but for one comma. -/
theorem emit_arr_perm {items : List Json} (h : items ≠ []) :
    (comma :: emit (.arr items)).Perm (openArr :: closeArr :: items.flatMap itemText) := by
  obtain ⟨v, items, rfl⟩ := List.exists_cons_of_ne_nil h
  rw [emit, emitItems_eq, List.flatMap_cons, itemText, List.cons_append, List.cons_append,
    List.cons_append]
  exact perm_brackets _ _ _ _

/-- The characters of an object. -/
theorem emit_obj_perm {members : List (Text × Json)} (h : members ≠ []) :
    (comma :: emit (.obj members)).Perm (openObj :: closeObj :: members.flatMap memberText) := by
  obtain ⟨m, members, rfl⟩ := List.exists_cons_of_ne_nil h
  have text : emit (.obj (m :: members)) = openObj ::
      ((emitString m.1 ++ colon :: emit m.2 ++ members.flatMap memberText) ++ [closeObj]) := by
    rw [emit, emitMembers_eq]
    simp
  rw [text, List.flatMap_cons, memberText, List.cons_append]
  exact perm_brackets _ _ _ _

mutual

/-- Sorting keys moves the characters of a text, and keeps them. -/
theorem emit_sortKeys_perm : ∀ v : Json, (emit v.sortKeys).Perm (emit v)
  | .null | .bool _ | .int _ | .float _ | .str _ => by rw [sortKeys] <;> simp
  | .arr items => by
    by_cases hitems : items = []
    · subst hitems
      exact .refl _
    · have hsorted : sortKeysItems items ≠ [] := by
        rw [sortKeysItems_eq]
        simpa using hitems
      rw [sortKeys]
      refine (List.perm_cons comma).mp ?_
      exact (emit_arr_perm hsorted).trans
        ((((emitItems_sortKeys_perm items).cons _).cons _).trans (emit_arr_perm hitems).symm)
  | .obj members => by
    have hperm := sortByCodePoints_perm (sortKeysMembers members)
    by_cases hmembers : members = []
    · subst hmembers
      exact .refl _
    · have hsorted : sortByCodePoints (sortKeysMembers members) ≠ [] := by
        rw [← List.length_pos_iff_ne_nil, hperm.length_eq, sortKeysMembers_eq, List.length_map]
        exact List.length_pos_iff_ne_nil.mpr hmembers
      rw [sortKeys]
      refine (List.perm_cons comma).mp ((emit_obj_perm hsorted).trans ?_)
      refine .trans ?_ (emit_obj_perm hmembers).symm
      exact (((hperm.flatMap_right _).trans (emitMembers_sortKeys_perm members)).cons _).cons _

/-- `emit_sortKeys_perm` for items. -/
theorem emitItems_sortKeys_perm : ∀ items : List Json,
    ((sortKeysItems items).flatMap itemText).Perm (items.flatMap itemText)
  | [] => .refl _
  | v :: items => by
    rw [sortKeysItems, List.flatMap_cons, List.flatMap_cons]
    exact ((emit_sortKeys_perm v).cons _).append (emitItems_sortKeys_perm items)

/-- `emit_sortKeys_perm` for members. -/
theorem emitMembers_sortKeys_perm : ∀ members : List (Text × Json),
    ((sortKeysMembers members).flatMap memberText).Perm (members.flatMap memberText)
  | [] => .refl _
  | (k, v) :: members => by
    rw [sortKeysMembers, List.flatMap_cons, List.flatMap_cons]
    exact ((((emit_sortKeys_perm v).cons _).append_left _).cons _).append
      (emitMembers_sortKeys_perm members)

end

/-! ## What can be encoded -/

theorem validUnicode_perm {s t : Text} (h : s.Perm t) : ValidUnicode s ↔ ValidUnicode t := by
  simp only [ValidUnicode, h.mem_iff]

theorem validUnicode_flatMap {α : Type} {f : α → Text} {l : List α} :
    ValidUnicode (l.flatMap f) ↔ ∀ a ∈ l, ValidUnicode (f a) := by
  simp only [ValidUnicode, List.mem_flatMap, forall_exists_index, and_imp]
  exact ⟨fun h a ha c hc => h c a ha hc, fun h c a ha hc => h a ha c hc⟩

/-- An object can be encoded when its keys and the texts of its values can. -/
theorem validUnicode_emit_obj {members : List (Text × Json)} :
    ValidUnicode (emit (.obj members)) ↔
      ∀ m ∈ members, ValidUnicode m.1 ∧ ValidUnicode (emit m.2) := by
  have ascii : ¬ isSurrogate comma.val ∧ ¬ isSurrogate colon.val ∧ ¬ isSurrogate openObj.val ∧
      ¬ isSurrogate closeObj.val := by decide
  by_cases h : members = []
  · subst h
    simp only [emit, List.not_mem_nil, false_imp_iff, implies_true, iff_true]
    decide
  · have hperm := validUnicode_perm (emit_obj_perm h)
    rw [validUnicode_cons, validUnicode_cons, validUnicode_cons, validUnicode_flatMap] at hperm
    simp only [ascii, not_false_eq_true, true_and, memberText, validUnicode_cons,
      validUnicode_append, validUnicode_emitString] at hperm
    exact hperm

/-! ## How long it is -/

/-- How much one member adds to the text of its object. -/
def memberSize (m : Text × Json) : ℕ := (emitString m.1).length + (emit m.2).length + 2

theorem emit_obj_length_le (members : List (Text × Json)) :
    (emit (.obj members)).length ≤ (members.map memberSize).sum + 2 := by
  by_cases h : members = []
  · subst h
    exact le_rfl
  · have hlength := (emit_obj_perm h).length_eq
    have hsizes : (members.flatMap memberText).length = (members.map memberSize).sum := by
      rw [List.length_flatMap]
      congr 1
      refine List.map_congr_left fun m _ => ?_
      simp only [memberText, memberSize, List.length_cons, List.length_append]
      omega
    simp only [List.length_cons, hsizes] at hlength
    omega

/-- The members of an object whose keys are among `keys`, each within the bound of its key. -/
theorem memberSizes_le {members : List (Text × Json)} {keys : List Text} {bound : Text → ℕ}
    (hnodup : NodupKeys members) (hkeys : ∀ m ∈ members, m.1 ∈ keys)
    (hbound : ∀ m ∈ members, memberSize m ≤ bound m.1) :
    (members.map memberSize).sum ≤ (keys.map bound).sum := by
  have hsub : (members.map Prod.fst).Subperm keys := by
    refine List.subperm_of_subset hnodup fun key hkey => ?_
    obtain ⟨m, hm, rfl⟩ := List.mem_map.mp hkey
    exact hkeys m hm
  have hsum : (members.map memberSize).sum ≤ ((members.map Prod.fst).map bound).sum := by
    rw [List.map_map]
    exact List.sum_le_sum hbound
  obtain ⟨keys', hperm, hsublist⟩ := hsub
  rw [← (hperm.map bound).sum_eq] at hsum
  exact hsum.trans ((hsublist.map bound).sum_le_sum fun _ _ => Nat.zero_le _)

end Json

end WagmiBench.Lib
