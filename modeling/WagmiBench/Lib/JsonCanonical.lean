import WagmiBench.Lib.JsonRoundTrip

/-!
# Values up to the order of members

Canonical texts are injective up to the order in which objects list their members: the UTF-16 code
units of a key determine it, so sorting leaves one order of the members of an object, and the text
of the sorted value is read back. `Encodable` is what has a canonical text at all, `Distinct` what a
dictionary is, `Same` equality of dictionaries at every depth.
-/

namespace WagmiBench.Lib

namespace Json

/-! ## The order of keys -/

theorem unitsLe_iff {s t : List ℕ} : unitsLe s t = true ↔ s ≤ t := by
  induction s generalizing t with
  | nil => simp [unitsLe, ← not_lt]
  | cons a s ih =>
    cases t with
    | nil => simp [unitsLe, ← not_lt]
    | cons b t =>
      have head : ¬ (b < a ∨ b = a ∧ t < s) ↔ a < b ∨ a = b ∧ s ≤ t := by
        rw [← not_lt (a := t)]
        grind
      rw [← not_lt, List.cons_lt_cons_iff, head]
      simp [unitsLe, ih]

theorem sortKey_eq_nil {t : Text} (h : sortKey t = []) : t = [] := by
  cases t with
  | nil => rfl
  | cons c t =>
    rw [sortKey, List.flatMap_cons, List.append_eq_nil_iff] at h
    unfold utf16Units at h
    split at h <;> simp at h

/-- The code units of a valid text determine it. -/
theorem decodeUnits16_sortKey {t : Text} (h : ValidUnicode t) : decodeUnits16 (sortKey t) = t := by
  induction t with
  | nil => rfl
  | cons c t ih =>
    have ih := ih fun d hd => h d (by simp [hd])
    have hc : ¬ isSurrogate c.val := h c (by simp)
    have hlt := c.isLt
    rw [sortKey, List.flatMap_cons, ← sortKey, utf16Units]
    split
    · -- one unit, which begins no surrogate pair
      rw [List.singleton_append]
      cases hrest : sortKey t with
      | nil => rw [sortKey_eq_nil hrest, decodeUnits16, codePoint_of_val]
      | cons u rest =>
        rw [decodeUnits16, if_neg (by unfold isSurrogate at hc; omega), codePoint_of_val, ← hrest, ih]
    · have pair : 0x10000 + (0xD800 + (c.val - 0x10000) / 1024 - 0xD800) * 1024 +
          (0xDC00 + (c.val - 0x10000) % 1024 - 0xDC00) = c.val := by omega
      rw [List.cons_append, List.singleton_append, decodeUnits16, if_pos (by omega), pair,
        codePoint_of_val, ih]

/-- Valid keys with the same code units are the same key. -/
theorem sortKey_injOn {s t : Text} (hs : ValidUnicode s) (ht : ValidUnicode t)
    (h : sortKey s = sortKey t) : s = t := by
  rw [← decodeUnits16_sortKey hs, h, decodeUnits16_sortKey ht]

/-! ## Sorting the members of an object -/

/-- The order members are sorted by. -/
abbrev KeyLe (a b : Text × Json) : Prop := unitsLe (sortKey a.1) (sortKey b.1) = true

instance : Std.Total KeyLe := ⟨fun a b => by
  simp only [KeyLe, unitsLe_iff]
  exact le_total _ _⟩

instance : IsTrans (Text × Json) KeyLe := ⟨fun a b c hab hbc => by
  simp only [KeyLe, unitsLe_iff] at hab hbc ⊢
  exact le_trans hab hbc⟩

theorem sortMembers_perm (members : List (Text × Json)) : (sortMembers members).Perm members :=
  List.perm_insertionSort _ _

theorem sortMembers_pairwise (members : List (Text × Json)) :
    (sortMembers members).Pairwise KeyLe :=
  List.pairwise_insertionSort _ _

/-- Every key of an object is valid Unicode. -/
def ValidKeys (members : List (Text × Json)) : Prop := ∀ m ∈ members, ValidUnicode m.1

/-- No key occurs twice. -/
def NodupKeys (members : List (Text × Json)) : Prop := (members.map Prod.fst).Nodup

theorem NodupKeys.eq_of_mem {members : List (Text × Json)} (h : NodupKeys members)
    {a b : Text × Json} (ha : a ∈ members) (hb : b ∈ members) (hkey : a.1 = b.1) : a = b :=
  List.inj_on_of_nodup_map h ha hb hkey

theorem lookup_eq_some_iff {members : List (Text × Json)} (h : NodupKeys members) {key : Text}
    {v : Json} : lookup key members = some v ↔ (key, v) ∈ members := by
  unfold lookup
  rw [Option.map_eq_some_iff]
  constructor
  · rintro ⟨⟨k, w⟩, hfind, rfl⟩
    have hkey := List.find?_some hfind
    simp only [decide_eq_true_eq] at hkey
    exact hkey ▸ List.mem_of_find?_eq_some hfind
  · intro hmem
    have found : (members.find? fun m => m.1 = key).isSome :=
      List.find?_isSome.mpr ⟨_, hmem, by simp⟩
    obtain ⟨m, hm⟩ := Option.isSome_iff_exists.mp found
    have hkey := List.find?_some hm
    simp only [decide_eq_true_eq] at hkey
    exact ⟨m, hm, by rw [h.eq_of_mem (List.mem_of_find?_eq_some hm) hmem hkey]⟩

/-- Two dictionaries are permutations of each other when they are as long and one holds what the
other does. -/
theorem perm_iff_lookup {a b : List (Text × Json)} (ha : NodupKeys a) (hb : NodupKeys b) :
    a.Perm b ↔ a.length = b.length ∧ ∀ m ∈ a, lookup m.1 b = some m.2 := by
  simp only [lookup_eq_some_iff hb]
  constructor
  · exact fun h => ⟨h.length_eq, fun m hm => h.subset hm⟩
  · rintro ⟨hlength, hsub⟩
    exact (List.Nodup.subperm (List.Nodup.of_map _ ha) hsub).perm_of_length_le hlength.ge

/-- Members sort to the same list exactly when they are permutations of each other. -/
theorem sortMembers_eq_iff {a b : List (Text × Json)} (ha : ValidKeys a) (hn : NodupKeys a) :
    sortMembers a = sortMembers b ↔ a.Perm b := by
  constructor
  · exact fun h => ((sortMembers_perm a).symm.trans (.of_eq h)).trans (sortMembers_perm b)
  · intro h
    have antisymm : ∀ m n, m ∈ sortMembers a → n ∈ sortMembers b → KeyLe m n → KeyLe n m →
        m = n := by
      intro m n hm hn' hle hge
      have hm := (sortMembers_perm a).subset hm
      have hn' := h.symm.subset ((sortMembers_perm b).subset hn')
      simp only [KeyLe, unitsLe_iff] at hle hge
      exact hn.eq_of_mem hm hn' (sortKey_injOn (ha m hm) (ha n hn') (le_antisymm hle hge))
    exact List.Perm.eq_of_pairwise antisymm (sortMembers_pairwise a) (sortMembers_pairwise b)
      (((sortMembers_perm a).trans h).trans (sortMembers_perm b).symm)

/-! ## What has a canonical text -/

mutual

/-- Safe integers and valid Unicode, and no floats, at every depth. -/
def Encodable : Json → Prop
  | .float _ => False
  | .int n => |n| ≤ maxSafeInt
  | .str s => ValidUnicode s
  | .arr items => EncodableItems items
  | .obj members => EncodableMembers members
  | _ => True

/-- `Encodable` of every item. -/
def EncodableItems : List Json → Prop
  | [] => True
  | v :: items => Encodable v ∧ EncodableItems items

/-- `Encodable` of every member, its key valid Unicode. -/
def EncodableMembers : List (Text × Json) → Prop
  | [] => True
  | (k, v) :: members => ValidUnicode k ∧ Encodable v ∧ EncodableMembers members

end

mutual

/-- Every object is a dictionary: it holds each key once. -/
def Distinct : Json → Prop
  | .arr items => DistinctItems items
  | .obj members => NodupKeys members ∧ DistinctMembers members
  | _ => True

/-- `Distinct` of every item. -/
def DistinctItems : List Json → Prop
  | [] => True
  | v :: items => Distinct v ∧ DistinctItems items

/-- `Distinct` of every member's value. -/
def DistinctMembers : List (Text × Json) → Prop
  | [] => True
  | (_, v) :: members => Distinct v ∧ DistinctMembers members

end

theorem encodableItems_iff {items : List Json} :
    EncodableItems items ↔ ∀ v ∈ items, Encodable v := by
  induction items with
  | nil => simp [EncodableItems]
  | cons v items ih => simp [EncodableItems, ih]

theorem encodableMembers_iff {members : List (Text × Json)} :
    EncodableMembers members ↔ ValidKeys members ∧ ∀ m ∈ members, Encodable m.2 := by
  induction members with
  | nil => simp [EncodableMembers, ValidKeys]
  | cons m members ih =>
    obtain ⟨k, v⟩ := m
    simp only [EncodableMembers, ih, ValidKeys, List.mem_cons, forall_eq_or_imp]
    tauto

theorem distinctMembers_iff {members : List (Text × Json)} :
    DistinctMembers members ↔ ∀ m ∈ members, Distinct m.2 := by
  induction members with
  | nil => simp [DistinctMembers]
  | cons m members ih => simp [DistinctMembers, ih]

/-! ### Sorting keeps what a value is -/

theorem normalizeItems_eq (items : List Json) : normalizeItems items = items.map normalize := by
  induction items with
  | nil => rfl
  | cons v items ih => rw [normalizeItems, ih, List.map_cons]

theorem normalizeMembers_eq (members : List (Text × Json)) :
    normalizeMembers members = members.map fun m => (m.1, m.2.normalize) := by
  induction members with
  | nil => rfl
  | cons m members ih => rw [normalizeMembers, ih, List.map_cons]

@[simp] theorem normalizeMembers_keys (members : List (Text × Json)) :
    (normalizeMembers members).map Prod.fst = members.map Prod.fst := by
  rw [normalizeMembers_eq, List.map_map]
  rfl

theorem nodupKeys_normalizeMembers {members : List (Text × Json)} :
    NodupKeys (normalizeMembers members) ↔ NodupKeys members := by
  rw [NodupKeys, normalizeMembers_keys, NodupKeys]

theorem nodupKeys_sortMembers {members : List (Text × Json)} :
    NodupKeys (sortMembers members) ↔ NodupKeys members :=
  ((sortMembers_perm members).map Prod.fst).nodup_iff

theorem encodableMembers_sortMembers {members : List (Text × Json)} :
    EncodableMembers (sortMembers members) ↔ EncodableMembers members := by
  have mem : ∀ m, m ∈ sortMembers members ↔ m ∈ members := fun m => (sortMembers_perm members).mem_iff
  simp only [encodableMembers_iff, ValidKeys, mem]

mutual

theorem encodable_normalize : ∀ v : Json, Encodable v.normalize ↔ Encodable v
  | .null | .bool _ | .int _ | .float _ | .str _ => by rw [normalize] <;> simp
  | .arr items => by
    rw [normalize, Encodable, Encodable]
    exact encodableItems_normalize items
  | .obj members => by
    rw [normalize, Encodable, Encodable, encodableMembers_sortMembers]
    exact encodableMembers_normalize members

/-- `encodable_normalize` for items. -/
theorem encodableItems_normalize : ∀ items : List Json,
    EncodableItems (normalizeItems items) ↔ EncodableItems items
  | [] => by rw [normalizeItems]
  | v :: items => by
    rw [normalizeItems, EncodableItems, EncodableItems, encodable_normalize v,
      encodableItems_normalize items]

/-- `encodable_normalize` for members. -/
theorem encodableMembers_normalize : ∀ members : List (Text × Json),
    EncodableMembers (normalizeMembers members) ↔ EncodableMembers members
  | [] => by rw [normalizeMembers]
  | (k, v) :: members => by
    rw [normalizeMembers, EncodableMembers, EncodableMembers, encodable_normalize v,
      encodableMembers_normalize members]

end

mutual

theorem distinct_normalize : ∀ v : Json, Distinct v → Distinct v.normalize
  | .null | .bool _ | .int _ | .float _ | .str _ => by rw [normalize] <;> simp
  | .arr items => fun h => by
    rw [normalize, Distinct]
    exact distinctItems_normalize items h
  | .obj members => fun h => by
    obtain ⟨hnodup, hmembers⟩ : NodupKeys members ∧ DistinctMembers members := h
    have sorted := distinctMembers_iff.mp (distinctMembers_normalize members hmembers)
    rw [normalize, Distinct, nodupKeys_sortMembers, nodupKeys_normalizeMembers, distinctMembers_iff]
    exact ⟨hnodup, fun m hm => sorted m ((sortMembers_perm _).subset hm)⟩

/-- `distinct_normalize` for items. -/
theorem distinctItems_normalize : ∀ items : List Json, DistinctItems items →
    DistinctItems (normalizeItems items)
  | [] => fun _ => by rw [normalizeItems]; trivial
  | v :: items => fun h => by
    rw [normalizeItems, DistinctItems]
    exact ⟨distinct_normalize v h.1, distinctItems_normalize items h.2⟩

/-- `distinct_normalize` for members. -/
theorem distinctMembers_normalize : ∀ members : List (Text × Json), DistinctMembers members →
    DistinctMembers (normalizeMembers members)
  | [] => fun _ => by rw [normalizeMembers]; trivial
  | (k, v) :: members => fun h => by
    rw [normalizeMembers, DistinctMembers]
    exact ⟨distinct_normalize v h.1, distinctMembers_normalize members h.2⟩

end

theorem depthMembers_le_iff {members : List (Text × Json)} {n : ℕ} :
    depthMembers members ≤ n ↔ ∀ m ∈ members, m.2.depth ≤ n := by
  induction members with
  | nil => simp [depthMembers]
  | cons m members ih => simp [depthMembers, ih]

theorem depthMembers_sortMembers (members : List (Text × Json)) :
    depthMembers (sortMembers members) = depthMembers members := by
  have mem : ∀ m, m ∈ sortMembers members ↔ m ∈ members := fun m => (sortMembers_perm members).mem_iff
  refine le_antisymm ?_ ?_ <;> rw [depthMembers_le_iff] <;> intro m hm
  · exact depthMembers_le_iff.mp le_rfl m ((mem m).mp hm)
  · exact depthMembers_le_iff.mp le_rfl m ((mem m).mpr hm)

mutual

theorem depth_normalize : ∀ v : Json, v.normalize.depth = v.depth
  | .null | .bool _ | .int _ | .float _ | .str _ => by rw [normalize] <;> simp
  | .arr items => by rw [normalize, depth, depth, depthItems_normalize items]
  | .obj members => by
    rw [normalize, depth, depth, depthMembers_sortMembers, depthMembers_normalize members]

/-- `depth_normalize` for items. -/
theorem depthItems_normalize : ∀ items : List Json,
    depthItems (normalizeItems items) = depthItems items
  | [] => by rw [normalizeItems]
  | v :: items => by
    rw [normalizeItems, depthItems, depthItems, depth_normalize v, depthItems_normalize items]

/-- `depth_normalize` for members. -/
theorem depthMembers_normalize : ∀ members : List (Text × Json),
    depthMembers (normalizeMembers members) = depthMembers members
  | [] => by rw [normalizeMembers]
  | (k, v) :: members => by
    rw [normalizeMembers, depthMembers, depthMembers, depth_normalize v,
      depthMembers_normalize members]

end

/-! ### The checks of the writer -/

theorem bind_unit_ok_iff {ε : Type} {x y : Except ε Unit} :
    (do x; y) = .ok () ↔ x = .ok () ∧ y = .ok () := by
  cases x with
  | error e => simp
  | ok u => simp

theorem checkItems_eq_ok {items : List Json} :
    checkItems items = .ok () ↔ ∀ v ∈ items, v.checkEncodable = .ok () := by
  induction items with
  | nil => simp [checkItems]
  | cons v items ih => simp [checkItems, bind_unit_ok_iff, ih]

theorem checkMembers_eq_ok {members : List (Text × Json)} :
    checkMembers members = .ok () ↔ ∀ m ∈ members, m.2.checkEncodable = .ok () := by
  induction members with
  | nil => simp [checkMembers]
  | cons m members ih => simp [checkMembers, bind_unit_ok_iff, ih]

theorem utf8EncodeChar_isSome {c : CodePoint} :
    (utf8EncodeChar c).isSome ↔ ¬ isSurrogate c.val := by
  simp only [utf8EncodeChar]
  split
  · simp [isSurrogate]
    omega
  · split
    · simp [isSurrogate]
      omega
    · split
      · simpa
      · split <;> simpa

/-- A text has UTF-8 bytes exactly when it is valid Unicode. -/
theorem utf8Encode_isSome {t : Text} : (utf8Encode t).isSome ↔ ValidUnicode t := by
  induction t with
  | nil => simp [utf8Encode, ValidUnicode]
  | cons c t ih =>
    simp only [ValidUnicode, List.mem_cons, forall_eq_or_imp] at ih ⊢
    rw [utf8Encode, ← ih, ← utf8EncodeChar_isSome]
    cases utf8EncodeChar c <;> cases utf8Encode t <;> simp

theorem validUnicode_append {s t : Text} :
    ValidUnicode (s ++ t) ↔ ValidUnicode s ∧ ValidUnicode t := by
  simp [ValidUnicode, or_imp, forall_and]

theorem validUnicode_cons {c : CodePoint} {t : Text} :
    ValidUnicode (c :: t) ↔ ¬ isSurrogate c.val ∧ ValidUnicode t := by
  simp [ValidUnicode]

theorem validUnicode_of_ascii {t : Text} (h : Ascii t) : ValidUnicode t := fun c hc hs => by
  have := h c hc
  unfold isSurrogate at hs
  omega

theorem ascii_decimalInt (n : ℤ) : Ascii (decimalInt n) := by
  have digits : Ascii (decimal n.natAbs) := fun c hc => by
    have := isDigit_of_mem_decimal hc
    simp only [isDigit, Bool.and_eq_true, decide_eq_true_eq] at this
    omega
  unfold decimalInt
  split
  · intro c hc
    rcases List.mem_cons.mp hc with rfl | hc
    · decide
    · exact digits c hc
  · exact digits

theorem ascii_hexDigit {n : ℕ} (h : n < 16) : (hexDigit n).val < 0x80 := by
  unfold hexDigit
  split <;> rw [codePoint_val (by omega)] <;> omega

/-- Escaping only adds ASCII characters. -/
theorem validUnicode_emitChar {c : CodePoint} :
    ValidUnicode (emitChar c) ↔ ¬ isSurrogate c.val := by
  have escape : ∀ {t : Text}, c.val < 0x80 → Ascii t → (ValidUnicode t ↔ ¬ isSurrogate c.val) := by
    intro t hc ht
    refine ⟨fun _ hs => ?_, fun _ => validUnicode_of_ascii ht⟩
    unfold isSurrogate at hs
    omega
  unfold emitChar
  split
  · rename_i h
    exact escape (by rw [h]; decide) (by decide)
  split
  · rename_i h
    exact escape (by rw [h]; decide) (by decide)
  split
  · exact escape (by omega) (by decide)
  split
  · exact escape (by omega) (by decide)
  split
  · exact escape (by omega) (by decide)
  split
  · exact escape (by omega) (by decide)
  split
  · exact escape (by omega) (by decide)
  split
  · refine escape (by omega) fun d hd => ?_
    simp only [List.mem_cons, List.not_mem_nil, or_false] at hd
    rcases hd with rfl | rfl | rfl | rfl | rfl | rfl
    · decide
    · decide
    · decide
    · decide
    · exact ascii_hexDigit (by omega)
    · exact ascii_hexDigit (by omega)
  · simp [ValidUnicode]

theorem validUnicode_emitString {s : Text} : ValidUnicode (emitString s) ↔ ValidUnicode s := by
  have chars : ValidUnicode (s.flatMap emitChar) ↔ ValidUnicode s := by
    induction s with
    | nil => simp
    | cons c s ih =>
      rw [List.flatMap_cons, validUnicode_append, validUnicode_cons, ih, validUnicode_emitChar]
  have ends : ¬ isSurrogate quote.val := by decide
  rw [emitString, List.cons_append, validUnicode_cons, validUnicode_append, chars,
    validUnicode_cons]
  simp [ends, ValidUnicode]

mutual

/-- The checks and the encoding of the text together ask for what `Encodable` says. -/
theorem checkEncodable_iff : ∀ v : Json,
    v.checkEncodable = .ok () ∧ ValidUnicode v.emit ↔ Encodable v
  | .null | .bool true | .bool false => by
    simp only [checkEncodable, Encodable, emit, true_and, iff_true]
    exact validUnicode_of_ascii (by decide)
  | .int n => by
    rw [checkEncodable, Encodable, emit, and_iff_left (validUnicode_of_ascii (ascii_decimalInt n))]
    split <;> rename_i h <;> simp [h]
  | .float _ => by simp [checkEncodable, Encodable]
  | .str s => by simp [checkEncodable, Encodable, emit, validUnicode_emitString]
  | .arr [] => by
    simp only [checkEncodable, checkItems, Encodable, EncodableItems, emit, true_and, iff_true]
    exact validUnicode_of_ascii (by decide)
  | .arr (v :: items) => by
    rw [checkEncodable, checkItems, bind_unit_ok_iff, Encodable, EncodableItems,
      ← checkEncodable_iff v, ← checkItems_iff items, emit]
    have brackets : ¬ isSurrogate openArr.val ∧ ¬ isSurrogate closeArr.val := by decide
    simp only [List.cons_append, validUnicode_cons, validUnicode_append, brackets,
      not_false_eq_true, true_and]
    have nil : ValidUnicode [] := by simp [ValidUnicode]
    tauto
  | .obj [] => by
    simp only [checkEncodable, checkMembers, Encodable, EncodableMembers, emit, List.not_mem_nil,
      false_implies, implies_true, if_true, true_and, iff_true]
    exact validUnicode_of_ascii (by decide)
  | .obj ((k, v) :: members) => by
    have rest := checkMembers_iff members
    rw [checkEncodable, checkMembers, Encodable, EncodableMembers, ← checkEncodable_iff v, ← rest,
      emit]
    have marks : ¬ isSurrogate openObj.val ∧ ¬ isSurrogate closeObj.val ∧ ¬ isSurrogate colon.val := by
      decide
    have nil : ValidUnicode [] := by simp [ValidUnicode]
    simp only [List.mem_cons, forall_eq_or_imp, List.cons_append, validUnicode_cons,
      validUnicode_append, validUnicode_emitString, marks, nil, not_false_eq_true, true_and,
      and_true, ValidKeys]
    split
    · rename_i hkeys
      rw [bind_unit_ok_iff]
      tauto
    · rename_i hkeys
      simp only [reduceCtorEq, false_and, false_iff]
      tauto

/-- `checkEncodable_iff` for the items after the first. -/
theorem checkItems_iff : ∀ items : List Json,
    checkItems items = .ok () ∧ ValidUnicode (emitItems items) ↔ EncodableItems items
  | [] => by simp [checkItems, EncodableItems, emitItems, ValidUnicode]
  | v :: items => by
    rw [checkItems, bind_unit_ok_iff, EncodableItems, ← checkEncodable_iff v,
      ← checkItems_iff items, emitItems]
    have mark : ¬ isSurrogate comma.val := by decide
    simp only [List.cons_append, validUnicode_cons, validUnicode_append, mark, not_false_eq_true,
      true_and]
    tauto

/-- `checkEncodable_iff` for the members after the first. -/
theorem checkMembers_iff : ∀ members : List (Text × Json),
    ValidKeys members ∧ checkMembers members = .ok () ∧ ValidUnicode (emitMembers members) ↔
      EncodableMembers members
  | [] => by simp [checkMembers, EncodableMembers, emitMembers, ValidUnicode, ValidKeys]
  | (k, v) :: members => by
    rw [checkMembers, bind_unit_ok_iff, EncodableMembers, ← checkEncodable_iff v,
      ← checkMembers_iff members, emitMembers]
    have marks : ¬ isSurrogate comma.val ∧ ¬ isSurrogate colon.val := by decide
    simp only [List.mem_cons, forall_eq_or_imp, List.cons_append, validUnicode_cons,
      validUnicode_append, validUnicode_emitString, marks, not_false_eq_true, true_and, ValidKeys]
    tauto

end

/-- **What has a canonical text.** -/
theorem canonical_isOk {v : Json} : (∃ b, v.canonical = .ok b) ↔ Encodable v := by
  rw [← encodable_normalize, ← checkEncodable_iff, ← utf8Encode_isSome, canonical]
  cases v.normalize.checkEncodable with
  | error e => simp
  | ok u =>
    simp only [ok_bind]
    cases utf8Encode v.normalize.emit <;> simp [pure_eq_ok]

/-! ## Equality up to the order of members -/

mutual

/-- Equality of values, objects compared as dictionaries. -/
def Same : Json → Json → Prop
  | .arr items, w => ∃ items', w = .arr items' ∧ SameItems items items'
  | .obj members, w => ∃ members', w = .obj members' ∧ members.length = members'.length ∧
      SameMembers members members'
  | v, w => v = w

/-- `Same` item by item. -/
def SameItems : List Json → List Json → Prop
  | [], items' => items' = []
  | v :: items, items' => ∃ w rest, items' = w :: rest ∧ Same v w ∧ SameItems items rest

/-- The second dictionary holds every key of the first, with the same value. -/
def SameMembers : List (Text × Json) → List (Text × Json) → Prop
  | [], _ => True
  | (k, v) :: members, members' =>
    (∃ w, lookup k members' = some w ∧ Same v w) ∧ SameMembers members members'

end

mutual

/-- The members of every object are in strictly increasing order of their keys' code units. -/
def KeysIncreasing : Json → Prop
  | .arr items => KeysIncreasingItems items
  | .obj members => (members.Pairwise fun a b => sortKey a.1 < sortKey b.1) ∧
      KeysIncreasingMembers members
  | _ => True

/-- `KeysIncreasing` of every item. -/
def KeysIncreasingItems : List Json → Prop
  | [] => True
  | v :: items => KeysIncreasing v ∧ KeysIncreasingItems items

/-- `KeysIncreasing` of every member's value. -/
def KeysIncreasingMembers : List (Text × Json) → Prop
  | [] => True
  | (_, v) :: members => KeysIncreasing v ∧ KeysIncreasingMembers members

end

theorem sameMembers_iff {members members' : List (Text × Json)} :
    SameMembers members members' ↔ ∀ m ∈ members, ∃ w, lookup m.1 members' = some w ∧ Same m.2 w := by
  induction members with
  | nil => simp [SameMembers]
  | cons m members ih => simp [SameMembers, ih]

theorem keysIncreasingMembers_iff {members : List (Text × Json)} :
    KeysIncreasingMembers members ↔ ∀ m ∈ members, KeysIncreasing m.2 := by
  induction members with
  | nil => simp [KeysIncreasingMembers]
  | cons m members ih => simp [KeysIncreasingMembers, ih]

theorem validKeys_normalizeMembers {members : List (Text × Json)} (h : ValidKeys members) :
    ValidKeys (normalizeMembers members) := by
  intro m hm
  rw [normalizeMembers_eq] at hm
  obtain ⟨n, hn, rfl⟩ := List.mem_map.mp hm
  exact h n hn

theorem lookup_normalizeMembers {key : Text} {members : List (Text × Json)} :
    lookup key (normalizeMembers members) = (lookup key members).map normalize := by
  induction members with
  | nil => rfl
  | cons m members ih =>
    rw [normalizeMembers, lookup_cons, lookup_cons, ih]
    split <;> rfl

/-- Without a repeated key, sorted members are strictly sorted. -/
theorem sortMembers_increasing {members : List (Text × Json)} (hv : ValidKeys members)
    (hn : NodupKeys members) :
    (sortMembers members).Pairwise fun a b => sortKey a.1 < sortKey b.1 := by
  have nodup : (sortMembers members).Pairwise fun a b => a.1 ≠ b.1 :=
    List.pairwise_map.mp (nodupKeys_sortMembers.mpr hn)
  refine (List.Pairwise.and_mem.mp ((sortMembers_pairwise members).and nodup)).imp ?_
  rintro a b ⟨ha, hb, hle, hne⟩
  refine lt_of_le_of_ne (unitsLe_iff.mp hle) fun heq => hne ?_
  exact sortKey_injOn (hv a ((sortMembers_perm _).subset ha))
    (hv b ((sortMembers_perm _).subset hb)) heq

mutual

theorem keysIncreasing_normalize : ∀ v : Json, Encodable v → Distinct v →
    KeysIncreasing v.normalize
  | .null | .bool _ | .int _ | .float _ | .str _ => fun _ _ => by
    rw [normalize] <;> simp [KeysIncreasing]
  | .arr items => fun he hd => by
    rw [normalize, KeysIncreasing]
    exact keysIncreasingItems_normalize items he hd
  | .obj members => fun he hd => by
    rw [Encodable] at he
    rw [Distinct] at hd
    have inner := keysIncreasingMembers_iff.mp (keysIncreasingMembers_normalize members he hd.2)
    rw [normalize, KeysIncreasing, keysIncreasingMembers_iff]
    exact ⟨sortMembers_increasing (validKeys_normalizeMembers (encodableMembers_iff.mp he).1)
      (nodupKeys_normalizeMembers.mpr hd.1), fun m hm => inner m ((sortMembers_perm _).subset hm)⟩

/-- `keysIncreasing_normalize` for items. -/
theorem keysIncreasingItems_normalize : ∀ items : List Json, EncodableItems items →
    DistinctItems items → KeysIncreasingItems (normalizeItems items)
  | [] => fun _ _ => by rw [normalizeItems]; trivial
  | v :: items => fun he hd => by
    rw [normalizeItems, KeysIncreasingItems]
    exact ⟨keysIncreasing_normalize v he.1 hd.1, keysIncreasingItems_normalize items he.2 hd.2⟩

/-- `keysIncreasing_normalize` for members. -/
theorem keysIncreasingMembers_normalize : ∀ members : List (Text × Json),
    EncodableMembers members → DistinctMembers members →
    KeysIncreasingMembers (normalizeMembers members)
  | [] => fun _ _ => by rw [normalizeMembers]; trivial
  | (k, v) :: members => fun he hd => by
    rw [normalizeMembers, KeysIncreasingMembers]
    exact ⟨keysIncreasing_normalize v he.2.1 hd.1, keysIncreasingMembers_normalize members he.2.2 hd.2⟩

end

mutual

/-- A value is the same as its sorted form. -/
theorem same_normalize : ∀ v : Json, Distinct v → Same v v.normalize
  | .null | .bool _ | .int _ | .float _ | .str _ => fun _ => by
    rw [normalize] <;> simp [Same]
  | .arr items => fun hd => by
    rw [normalize, Same]
    exact ⟨_, rfl, sameItems_normalize items hd⟩
  | .obj members => fun hd => by
    rw [Distinct] at hd
    have inner := same_normalizeMembers members hd.2
    rw [normalize, Same]
    refine ⟨_, rfl, ?_, sameMembers_iff.mpr fun m hm => ⟨m.2.normalize, ?_, inner m hm⟩⟩
    · rw [(sortMembers_perm _).length_eq, normalizeMembers_eq, List.length_map]
    · rw [lookup_eq_some_iff (nodupKeys_sortMembers.mpr (nodupKeys_normalizeMembers.mpr hd.1)),
        (sortMembers_perm _).mem_iff, normalizeMembers_eq]
      exact List.mem_map_of_mem hm

/-- `same_normalize` for items. -/
theorem sameItems_normalize : ∀ items : List Json, DistinctItems items →
    SameItems items (normalizeItems items)
  | [] => fun _ => by rw [normalizeItems, SameItems]
  | v :: items => fun hd => by
    rw [normalizeItems, SameItems]
    exact ⟨_, _, rfl, same_normalize v hd.1, sameItems_normalize items hd.2⟩

/-- `same_normalize` for the values of members. -/
theorem same_normalizeMembers : ∀ members : List (Text × Json), DistinctMembers members →
    ∀ m ∈ members, Same m.2 m.2.normalize
  | [] => fun _ => by simp
  | (k, v) :: members => fun hd m hm => by
    rcases List.mem_cons.mp hm with rfl | hm
    · exact same_normalize v hd.1
    · exact same_normalizeMembers members hd.2 m hm

end

mutual

/-- **Sorted forms decide equality up to the order of members.** -/
theorem normalize_eq_iff : ∀ v w : Json, Encodable v → Distinct v → Encodable w → Distinct w →
    (v.normalize = w.normalize ↔ Same v w)
  | .null, w | .bool _, w | .int _, w | .float _, w | .str _, w => fun _ _ _ _ => by
    cases w <;> simp [normalize, Same]
  | .arr items, w => fun hv dv hw dw => by
    cases w with
    | arr items' =>
      have items := normalizeItems_eq_iff items items' hv dv hw dw
      simp [normalize, Same, items]
    | _ => simp [normalize, Same]
  | .obj members, w => fun hv dv hw dw => by
    cases w with
    | obj members' =>
      rw [Encodable] at hv hw
      rw [Distinct] at dv dw
      have ev := encodableMembers_iff.mp hv
      have ew := encodableMembers_iff.mp hw
      have inner := normalizeMembers_values members
      simp only [normalize, Same, obj.injEq, exists_eq_left']
      rw [sortMembers_eq_iff (validKeys_normalizeMembers ev.1)
        (nodupKeys_normalizeMembers.mpr dv.1), perm_iff_lookup (nodupKeys_normalizeMembers.mpr dv.1)
        (nodupKeys_normalizeMembers.mpr dw.1), sameMembers_iff]
      simp only [lookup_normalizeMembers]
      rw [normalizeMembers_eq, normalizeMembers_eq, List.length_map, List.length_map]
      refine and_congr_right fun _ => ?_
      simp only [List.forall_mem_map, Option.map_eq_some_iff]
      refine forall_congr' fun m => forall_congr' fun hm => exists_congr fun u => ?_
      refine and_congr_right fun hlookup => ?_
      have hu := (lookup_eq_some_iff dw.1).mp hlookup
      rw [eq_comm]
      exact inner m hm u (ev.2 m hm) (distinctMembers_iff.mp dv.2 m hm) (ew.2 _ hu)
        (distinctMembers_iff.mp dw.2 _ hu)
    | _ => simp [normalize, Same]

/-- `normalize_eq_iff` for items. -/
theorem normalizeItems_eq_iff : ∀ items items' : List Json, EncodableItems items →
    DistinctItems items → EncodableItems items' → DistinctItems items' →
    (normalizeItems items = normalizeItems items' ↔ SameItems items items')
  | [], items' => fun _ _ _ _ => by cases items' <;> simp [normalizeItems, SameItems]
  | v :: items, items' => fun hv dv hw dw => by
    cases items' with
    | nil => simp [normalizeItems, SameItems]
    | cons w rest =>
      have head := normalize_eq_iff v w hv.1 dv.1 hw.1 dw.1
      have tail := normalizeItems_eq_iff items rest hv.2 dv.2 hw.2 dw.2
      simp [normalizeItems, SameItems, head, tail]

/-- `normalize_eq_iff` for the values of members. -/
theorem normalizeMembers_values : ∀ (members : List (Text × Json)), ∀ m ∈ members, ∀ w : Json,
    Encodable m.2 → Distinct m.2 → Encodable w → Distinct w →
    (m.2.normalize = w.normalize ↔ Same m.2 w)
  | [] => by simp
  | (k, v) :: members => fun m hm w => by
    rcases List.mem_cons.mp hm with rfl | hm
    · exact normalize_eq_iff v w
    · exact normalizeMembers_values members m hm w

end

/-! ## Canonical texts -/

mutual

theorem readable_of_encodable : ∀ v : Json, Encodable v → Distinct v → Readable 16 v
  | .null | .bool _ | .str _ => fun _ _ => by simp [Readable]
  | .float _ => fun h => h.elim
  | .int n => fun h _ => by
    simp only [Encodable, maxSafeInt] at h
    simp only [Readable]
    have := abs_le.mp h
    omega
  | .arr items => fun he hd => readableItems_of_encodable items he hd
  | .obj members => fun he hd => by
    rw [Encodable] at he
    rw [Distinct] at hd
    exact ⟨hd.1, readableMembers_of_encodable members he hd.2⟩

/-- `readable_of_encodable` for items. -/
theorem readableItems_of_encodable : ∀ items : List Json, EncodableItems items →
    DistinctItems items → ReadableItems 16 items
  | [] => fun _ _ => trivial
  | v :: items => fun he hd =>
    ⟨readable_of_encodable v he.1 hd.1, readableItems_of_encodable items he.2 hd.2⟩

/-- `readable_of_encodable` for members. -/
theorem readableMembers_of_encodable : ∀ members : List (Text × Json), EncodableMembers members →
    DistinctMembers members → ReadableMembers 16 members
  | [] => fun _ _ => trivial
  | (_, v) :: members => fun he hd =>
    ⟨readable_of_encodable v he.2.1 hd.1, readableMembers_of_encodable members he.2.2 hd.2⟩

end

section Canonical

variable {v w : Json}

theorem canonical_eq_ok {b : Bytes} : v.canonical = .ok b ↔
    v.normalize.checkEncodable = .ok () ∧ utf8Encode v.normalize.emit = some b := by
  rw [canonical, bind_ok_iff]
  constructor
  · rintro ⟨⟨⟩, hcheck, h⟩
    split at h
    · rename_i b' hb
      exact ⟨hcheck, by rw [hb, Except.ok.inj h]⟩
    · simp at h
  · rintro ⟨hcheck, hb⟩
    exact ⟨(), hcheck, by rw [hb]; rfl⟩

/-- **A canonical text is read back as the sorted value.** -/
theorem loads_canonical {ε : Type} {L : Limits} {H : Hooks ε} (hH : H.Faithful) (he : Encodable v)
    (hd : Distinct v) (hdepth : v.depth ≤ L.maxDepth) :
    loads L H v.normalize.emit = .ok v.normalize :=
  loads_emit (k := 16) (by omega) (le_trans (by omega) L.digits_ge) hH
    (readable_of_encodable _ ((encodable_normalize v).mpr he) (distinct_normalize v hd))
    (by rwa [depth_normalize])

/-- **Canonical texts decide equality up to the order of members.** -/
theorem canonical_eq_iff (hv : Encodable v) (dv : Distinct v) (hw : Encodable w)
    (dw : Distinct w) : v.canonical = w.canonical ↔ Same v w := by
  rw [← normalize_eq_iff v w hv dv hw dw]
  constructor
  · intro h
    obtain ⟨b, hb⟩ := canonical_isOk.mpr hv
    have text := emit_normalize_of_canonical hb (h ▸ hb)
    let L : Limits := ⟨max 16 (max v.depth w.depth), 640, le_max_left _ _, le_rfl⟩
    have read := loads_canonical (L := L) strictHooks_faithful hv dv
      ((le_max_left _ _).trans (le_max_right _ _))
    rw [text, loads_canonical (L := L) strictHooks_faithful hw dw
      ((le_max_right _ _).trans (le_max_right _ _))] at read
    exact (Except.ok.inj read).symm
  · intro h
    rw [canonical, canonical, h]

end Canonical

end Json

end WagmiBench.Lib
