import WagmiBench.Core.Decode
import WagmiBench.Lib.JsonCanonical
import WagmiBench.Spec.Canonical

/-!
# `canonical_bytes` of any Python value

`_encode` of `spec/canonical.py` on values as the interpreter has them: mappings may have keys that
are no strings, and there are floats and types with no JSON form. On the values `Json` embeds it
writes what `canonicalBytes` writes; everything else it refuses.
-/

namespace WagmiBench.Spec

open WagmiBench.Lib WagmiBench.Core

/-- A key of a mapping. -/
inductive PyKey where
  | str (s : Text)
  | other (typeName : String)
  deriving DecidableEq

/-- A value `canonical_bytes` may be given. -/
inductive PyValue where
  | none
  | bool (b : Bool)
  | int (n : ℤ)
  | float (lexeme : Text)
  | str (s : Text)
  /-- A list or a tuple. -/
  | list (items : List PyValue)
  /-- A mapping, in the order of its `keys()`. -/
  | mapping (entries : List (PyKey × PyValue))
  | other (typeName : String)

namespace PyValue

/-! ## The encoder -/

/-- The check `isinstance(key, str)` on every key. -/
def stringKeys {α : Type} (entries : List (PyKey × α)) : Py (List (Text × α)) :=
  entries.mapM fun entry =>
    match entry.1 with
    | .str key => return (key, entry.2)
    | .other typeName =>
      .error (.canonicalizationError s!"object key is {typeName}; keys must be str")

/-- `sorted(value.keys(), key=_sort_key)`, each key with its value. -/
def sortedByKey {α : Type} (members : List (Text × α)) : Py (List (Text × α)) := do
  require (∀ m ∈ members, Json.ValidUnicode m.1)
    (.canonicalizationError (canonicalizationMessage .keyNotUnicode))
  return members.insertionSort fun a b => Json.unitsLe (Json.sortKey a.1) (Json.sortKey b.1) = true

/-- Texts with commas between them. -/
def joinCommas (parts : List Text) : Text := [Json.comma].intercalate parts

mutual

/-- `_encode` -/
def encode : PyValue → Py Text
  | .none => .ok (txt "null")
  | .bool b => .ok (if b then txt "true" else txt "false")
  | .float _ => .error (.canonicalizationError (canonicalizationMessage .floatNotAllowed))
  | .int n =>
    if -Json.maxSafeInt ≤ n ∧ n ≤ Json.maxSafeInt then .ok (decimalInt n)
    else .error (.canonicalizationError (canonicalizationMessage (.integerOutOfRange n)))
  | .str s => .ok (Json.emitString s)
  | .mapping entries => do
    let members ← stringKeys (encodeEntries entries)
    let members ← sortedByKey members
    -- a member is encoded when its turn in the sorted order comes
    let parts ← members.mapM fun m => do
      let text ← m.2
      return Json.emitString m.1 ++ Json.colon :: text
    return Json.openObj :: joinCommas parts ++ [Json.closeObj]
  | .list items => do
    let parts ← (encodeItems items).mapM id
    return Json.openArr :: joinCommas parts ++ [Json.closeArr]
  | .other typeName => .error (.canonicalizationError s!"type {typeName} is not JCS-encodable")

/-- What encoding each item would give. -/
def encodeItems : List PyValue → List (Py Text)
  | [] => []
  | v :: items => encode v :: encodeItems items

/-- What encoding each entry's value would give. -/
def encodeEntries : List (PyKey × PyValue) → List (PyKey × Py Text)
  | [] => []
  | (k, v) :: entries => (k, encode v) :: encodeEntries entries

end

/-- `canonical_bytes` -/
def canonicalBytes (value : PyValue) : Py Bytes := do
  let text ← encode value
  match utf8Encode text with
  | .some b => return b
  | .none => .error (.canonicalizationError (canonicalizationMessage .textNotUnicode))

/-! ## JSON values among Python values -/

mutual

/-- A JSON value as Python has it. -/
def ofJson : Json → PyValue
  | .null => .none
  | .bool b => .bool b
  | .int n => .int n
  | .float lexeme => .float lexeme
  | .str s => .str s
  | .arr items => .list (ofItems items)
  | .obj members => .mapping (ofMembers members)

/-- `ofJson` on every item. -/
def ofItems : List Json → List PyValue
  | [] => []
  | v :: items => ofJson v :: ofItems items

/-- `ofJson` on every member's value. -/
def ofMembers : List (Text × Json) → List (PyKey × PyValue)
  | [] => []
  | (k, v) :: members => (.str k, ofJson v) :: ofMembers members

end

mutual

/-- A mapping has each of its keys once. -/
def WellFormed : PyValue → Prop
  | .list items => WellFormedItems items
  | .mapping entries => (entries.map Prod.fst).Nodup ∧ WellFormedEntries entries
  | _ => True

/-- `WellFormed` of every item. -/
def WellFormedItems : List PyValue → Prop
  | [] => True
  | v :: items => WellFormed v ∧ WellFormedItems items

/-- `WellFormed` of every entry's value. -/
def WellFormedEntries : List (PyKey × PyValue) → Prop
  | [] => True
  | (_, v) :: entries => WellFormed v ∧ WellFormedEntries entries

end

theorem ofItems_eq (items : List Json) : ofItems items = items.map ofJson := by
  induction items with
  | nil => rfl
  | cons v items ih => rw [ofItems, ih, List.map_cons]

theorem ofMembers_eq (members : List (Text × Json)) :
    ofMembers members = members.map fun m => (.str m.1, ofJson m.2) := by
  induction members with
  | nil => rfl
  | cons m members ih => rw [ofMembers, ih, List.map_cons]

theorem encodeItems_eq (items : List PyValue) : encodeItems items = items.map encode := by
  induction items with
  | nil => rfl
  | cons v items ih => rw [encodeItems, ih, List.map_cons]

theorem encodeEntries_eq (entries : List (PyKey × PyValue)) :
    encodeEntries entries = entries.map fun e => (e.1, encode e.2) := by
  induction entries with
  | nil => rfl
  | cons e entries ih => rw [encodeEntries, ih, List.map_cons]

mutual

theorem wellFormed_ofJson : ∀ v : Json, WellFormed (ofJson v) ↔ v.Distinct
  | .null | .bool _ | .int _ | .float _ | .str _ => by simp [ofJson, WellFormed, Json.Distinct]
  | .arr items => by
    rw [ofJson, WellFormed, Json.Distinct]
    exact wellFormedItems_ofItems items
  | .obj members => by
    have keys : ((ofMembers members).map Prod.fst).Nodup ↔ Json.NodupKeys members := by
      have : (ofMembers members).map Prod.fst = (members.map Prod.fst).map PyKey.str := by
        rw [ofMembers_eq, List.map_map, List.map_map]
        rfl
      rw [this, Json.NodupKeys, List.nodup_map_iff fun s t h => PyKey.str.inj h]
    rw [ofJson, WellFormed, Json.Distinct, keys, wellFormedEntries_ofMembers members]

/-- `wellFormed_ofJson` for items. -/
theorem wellFormedItems_ofItems : ∀ items : List Json,
    WellFormedItems (ofItems items) ↔ Json.DistinctItems items
  | [] => by simp [ofItems, WellFormedItems, Json.DistinctItems]
  | v :: items => by
    rw [ofItems, WellFormedItems, Json.DistinctItems, wellFormed_ofJson v,
      wellFormedItems_ofItems items]

/-- `wellFormed_ofJson` for members. -/
theorem wellFormedEntries_ofMembers : ∀ members : List (Text × Json),
    WellFormedEntries (ofMembers members) ↔ Json.DistinctMembers members
  | [] => by simp [ofMembers, WellFormedEntries, Json.DistinctMembers]
  | (k, v) :: members => by
    rw [ofMembers, WellFormedEntries, Json.DistinctMembers, wellFormed_ofJson v,
      wellFormedEntries_ofMembers members]

end

/-! ## What the encoder writes for a JSON value -/

theorem emit_arr (items : List Json) : (Json.arr items).emit =
    Json.openArr :: joinCommas (items.map Json.emit) ++ [Json.closeArr] := by
  have rest : ∀ (v : Json) (items : List Json),
      v.emit ++ Json.emitItems items = joinCommas ((v :: items).map Json.emit) := by
    intro v items
    induction items generalizing v with
    | nil => simp [Json.emitItems, joinCommas]
    | cons w items ih =>
      have := ih w
      simp only [joinCommas, List.map_cons] at this ⊢
      rw [Json.emitItems, List.intercalate_cons_cons, ← this]
      simp
  cases items with
  | nil => rw [Json.emit]; rfl
  | cons v items => rw [Json.emit, ← rest v items, List.cons_append]

theorem emit_obj (members : List (Text × Json)) : (Json.obj members).emit = Json.openObj ::
    joinCommas (members.map fun m => Json.emitString m.1 ++ Json.colon :: m.2.emit) ++
      [Json.closeObj] := by
  have rest : ∀ (m : Text × Json) (members : List (Text × Json)),
      Json.emitString m.1 ++ Json.colon :: m.2.emit ++ Json.emitMembers members =
        joinCommas ((m :: members).map fun m => Json.emitString m.1 ++ Json.colon :: m.2.emit) := by
    intro m members
    induction members generalizing m with
    | nil => simp [Json.emitMembers, joinCommas]
    | cons n members ih =>
      have := ih n
      simp only [joinCommas, List.map_cons] at this ⊢
      rw [Json.emitMembers, List.intercalate_cons_cons, ← this]
      simp
  cases members with
  | nil => rw [Json.emit]; rfl
  | cons m members =>
    rw [← rest m members, Json.emit]
    simp

theorem stringKeys_ofMembers {α : Type} (members : List (Text × Json)) (f : Json → α) :
    stringKeys (members.map fun m => (PyKey.str m.1, f m.2)) =
      .ok (members.map fun m => (m.1, f m.2)) := by
  rw [stringKeys, mapM_eq_ok]
  induction members with
  | nil => exact .nil
  | cons m members ih => exact .cons rfl ih

/-- The order of keys, whatever they are paired with. -/
abbrev KeyOrder {α : Type} (a b : Text × α) : Prop :=
  Json.unitsLe (Json.sortKey a.1) (Json.sortKey b.1) = true

/-- Sorting looks at the keys only. -/
theorem sortMembers_map {α : Type} (members : List (Text × Json)) (f : Json → α) :
    (members.map fun m => (m.1, f m.2)).insertionSort KeyOrder =
      (Json.sortMembers members).map fun m => (m.1, f m.2) :=
  (List.map_insertionSort KeyOrder KeyOrder (fun m : Text × Json => (m.1, f m.2)) members
    fun _ _ _ _ => Iff.rfl).symm

theorem sortedByKey_map {α : Type} {members : List (Text × Json)} {f : Json → α}
    {sorted : List (Text × α)} :
    sortedByKey (members.map fun m => (m.1, f m.2)) = .ok sorted ↔
      Json.ValidKeys members ∧ sorted = (Json.sortMembers members).map fun m => (m.1, f m.2) := by
  rw [sortedByKey, bind_ok_iff, ← sortMembers_map]
  simp only [require_eq_ok, List.forall_mem_map, pure_eq_ok, Except.ok.injEq]
  constructor
  · rintro ⟨-, hkeys, rfl⟩
    exact ⟨hkeys, rfl⟩
  · rintro ⟨hkeys, rfl⟩
    exact ⟨(), hkeys, rfl⟩

theorem sortMembers_normalizeMembers (members : List (Text × Json)) :
    Json.sortMembers (Json.normalizeMembers members) =
      (Json.sortMembers members).map fun m => (m.1, m.2.normalize) := by
  rw [Json.normalizeMembers_eq]
  exact sortMembers_map members Json.normalize

mutual

/-- **What is written for a JSON value** is its sorted text, when that passes the writer's checks. -/
theorem encode_ofJson : ∀ v : Json, ∀ t : Text, encode (ofJson v) = .ok t ↔
    v.normalize.checkEncodable = .ok () ∧ t = v.normalize.emit
  | .null | .bool true | .bool false | .str _ => fun t => by
    simp [ofJson, encode, Json.normalize, Json.checkEncodable, Json.emit, eq_comm]
  | .float _ => fun t => by simp [ofJson, encode, Json.normalize, Json.checkEncodable]
  | .int n => fun t => by
    simp only [ofJson, encode, Json.normalize, Json.checkEncodable, Json.emit, ← abs_le]
    split <;> simp [eq_comm]
  | .arr items => fun t => by
    have parts : ∀ parts, (encodeItems (ofItems items)).mapM id = .ok parts ↔
        (∀ v ∈ items, v.normalize.checkEncodable = .ok ()) ∧
          parts = items.map fun v => v.normalize.emit := by
      intro parts
      rw [encodeItems_eq, ofItems_eq, List.map_map, List.mapM_map]
      exact mapM_ok_iff fun v hv t => encode_ofItems items v hv t
    rw [ofJson, encode, bind_ok_iff, Json.normalize, Json.checkEncodable, Json.checkItems_eq_ok,
      emit_arr, Json.normalizeItems_eq]
    simp only [parts, pure_eq_ok, Except.ok.injEq, List.forall_mem_map, List.map_map]
    constructor
    · rintro ⟨_, ⟨hcheck, rfl⟩, rfl⟩
      exact ⟨hcheck, rfl⟩
    · rintro ⟨hcheck, rfl⟩
      exact ⟨_, ⟨hcheck, rfl⟩, rfl⟩
  | .obj members => fun t => by
    have entries : stringKeys (encodeEntries (ofMembers members)) =
        .ok (members.map fun m => (m.1, encode (ofJson m.2))) := by
      rw [encodeEntries_eq, ofMembers_eq, List.map_map]
      exact stringKeys_ofMembers members fun v => encode (ofJson v)
    have parts : ∀ parts, ((Json.sortMembers members).map fun m => (m.1, encode (ofJson m.2))).mapM
        (fun m => do
          let text ← m.2
          return Json.emitString m.1 ++ Json.colon :: text) = .ok parts ↔
        (∀ m ∈ Json.sortMembers members, m.2.normalize.checkEncodable = .ok ()) ∧ parts =
          (Json.sortMembers members).map fun m =>
            Json.emitString m.1 ++ Json.colon :: m.2.normalize.emit := by
      intro parts
      rw [List.mapM_map]
      refine mapM_ok_iff fun m hm text => ?_
      have value := encode_ofMembers members m ((Json.sortMembers_perm members).subset hm)
      rw [Function.comp_apply, bind_ok_iff]
      simp only [value, pure_eq_ok, Except.ok.injEq]
      constructor
      · rintro ⟨_, ⟨hcheck, rfl⟩, rfl⟩
        exact ⟨hcheck, rfl⟩
      · rintro ⟨hcheck, rfl⟩
        exact ⟨_, ⟨hcheck, rfl⟩, rfl⟩
    have valid : (∀ m ∈ Json.sortMembers members, Json.ValidUnicode m.1) ↔ Json.ValidKeys members := by
      simp only [Json.ValidKeys, (Json.sortMembers_perm members).mem_iff]
    have checks : (Json.obj ((Json.sortMembers members).map fun m => (m.1, m.2.normalize))).checkEncodable =
        .ok () ↔ Json.ValidKeys members ∧
          ∀ m ∈ Json.sortMembers members, m.2.normalize.checkEncodable = .ok () := by
      rw [Json.checkEncodable]
      split
      · rename_i hkeys
        rw [List.forall_mem_map, valid] at hkeys
        rw [Json.checkMembers_eq_ok, List.forall_mem_map]
        exact (and_iff_right hkeys).symm
      · rename_i hkeys
        rw [List.forall_mem_map, valid] at hkeys
        simp [hkeys]
    rw [ofJson, encode, entries, ok_bind, bind_ok_iff, Json.normalize, sortMembers_normalizeMembers,
      checks, emit_obj, List.map_map]
    simp only [sortedByKey_map (f := fun v => encode (ofJson v))]
    constructor
    · rintro ⟨_, ⟨hkeys, rfl⟩, h⟩
      obtain ⟨_, hparts, h⟩ := bind_ok_iff.mp h
      obtain ⟨hcheck, rfl⟩ := (parts _).mp hparts
      exact ⟨⟨hkeys, hcheck⟩, (Except.ok.inj h).symm⟩
    · rintro ⟨⟨hkeys, hcheck⟩, rfl⟩
      exact ⟨_, ⟨hkeys, rfl⟩, bind_ok_iff.mpr ⟨_, (parts _).mpr ⟨hcheck, rfl⟩, rfl⟩⟩

/-- `encode_ofJson` for items. -/
theorem encode_ofItems : ∀ items : List Json, ∀ v ∈ items, ∀ t : Text, encode (ofJson v) = .ok t ↔
    v.normalize.checkEncodable = .ok () ∧ t = v.normalize.emit
  | [] => by simp
  | v :: items => fun w hw => by
    rcases List.mem_cons.mp hw with heq | hw
    · rw [heq]
      exact encode_ofJson v
    · exact encode_ofItems items w hw

/-- `encode_ofJson` for the values of members. -/
theorem encode_ofMembers : ∀ members : List (Text × Json), ∀ m ∈ members, ∀ t : Text,
    encode (ofJson m.2) = .ok t ↔ m.2.normalize.checkEncodable = .ok () ∧ t = m.2.normalize.emit
  | [] => by simp
  | (k, v) :: members => fun m hm => by
    rcases List.mem_cons.mp hm with heq | hm
    · rw [heq]
      exact encode_ofJson v
    · exact encode_ofMembers members m hm

end

/-- The bytes of a JSON value. -/
theorem canonicalBytes_ofJson {v : Json} {b : Bytes} :
    canonicalBytes (ofJson v) = .ok b ↔ v.canonical = .ok b := by
  rw [canonicalBytes, bind_ok_iff, Json.canonical_eq_ok]
  simp only [encode_ofJson]
  constructor
  · rintro ⟨_, ⟨hcheck, rfl⟩, h⟩
    split at h
    · rename_i b' hb
      exact ⟨hcheck, by rw [hb, Except.ok.inj h]⟩
    · simp at h
  · rintro ⟨hcheck, hb⟩
    exact ⟨_, ⟨hcheck, rfl⟩, by rw [hb]; rfl⟩

/-! ## What is refused -/

/-- A computation that raises nothing but `CanonicalizationError`. -/
def Refuses {α : Type} (x : Py α) : Prop :=
  ∀ e, x = .error e → ∃ message, e = .canonicalizationError message

namespace Refuses

variable {α β : Type}

theorem ok (a : α) : Refuses (.ok a) := fun _ h => by cases h

theorem error (message : String) : Refuses (.error (.canonicalizationError message) : Py α) :=
  fun _ h => ⟨message, (Except.error.inj h).symm⟩

theorem bind {x : Py α} {f : α → Py β} (hx : Refuses x) (hf : ∀ a, x = .ok a → Refuses (f a)) :
    Refuses (x >>= f) := by
  intro e h
  cases x with
  | error e' => exact hx e (by rw [raise_bind] at h; exact congrArg Except.error (Except.error.inj h))
  | ok a => exact hf a rfl e h

theorem require {c : Prop} [Decidable c] (message : String) :
    Refuses (require c (.canonicalizationError message)) := by
  unfold Lib.require
  split
  · exact .ok ()
  · exact .error message

theorem mapM {f : α → Py β} {xs : List α} (h : ∀ x ∈ xs, Refuses (f x)) : Refuses (xs.mapM f) := by
  induction xs with
  | nil => exact .ok []
  | cons x xs ih =>
    rw [List.mapM_cons]
    exact .bind (h x (by simp)) fun _ _ => .bind (ih fun y hy => h y (by simp [hy])) fun _ _ => .ok _

end Refuses

theorem stringKeys_refuses {α : Type} (entries : List (PyKey × α)) :
    Refuses (stringKeys entries) := by
  refine .mapM fun entry _ => ?_
  split
  · exact .ok _
  · exact .error _

theorem sortedByKey_refuses {α : Type} (members : List (Text × α)) :
    Refuses (sortedByKey members) :=
  .bind (.require _) fun _ _ => .ok _

theorem stringKeys_eq_ok {α : Type} {entries : List (PyKey × α)} {members : List (Text × α)}
    (h : stringKeys entries = .ok members) : entries = members.map fun m => (.str m.1, m.2) := by
  have each := mapM_eq_ok.mp h
  clear h
  induction each with
  | nil => rfl
  | @cons entry m entries members hentry _ ih =>
    obtain ⟨key, a⟩ := entry
    split at hentry
    · rename_i s hs
      obtain rfl := Except.ok.inj hentry
      rw [List.map_cons, ← ih]
      simp only at hs
      rw [hs]
    · simp at hentry

theorem mem_of_sortedByKey {α : Type} {members sorted : List (Text × α)}
    (h : sortedByKey members = .ok sorted) {m : Text × α} : m ∈ sorted ↔ m ∈ members := by
  obtain ⟨_, -, h⟩ := bind_ok_iff.mp h
  rw [← Except.ok.inj h]
  exact List.mem_insertionSort _

mutual

theorem encode_refuses : ∀ v : PyValue, Refuses (encode v)
  | .none | .bool _ | .str _ => .ok _
  | .float _ | .other _ => .error _
  | .int n => by
    rw [encode]
    split
    · exact .ok _
    · exact .error _
  | .list items => by
    rw [encode, encodeItems_eq, List.mapM_map]
    exact .bind (.mapM fun v hv => encodeItems_refuses items v hv) fun _ _ => .ok _
  | .mapping entries => by
    rw [encode]
    refine .bind (stringKeys_refuses _) fun members hkeys => .bind (sortedByKey_refuses _)
      fun sorted hsorted => .bind (.mapM fun m hm => ?_) fun _ _ => .ok _
    have hmem := (mem_of_sortedByKey hsorted).mp hm
    have hentry := List.mem_map_of_mem (f := fun m => (PyKey.str m.1, m.2)) hmem
    rw [← stringKeys_eq_ok hkeys, encodeEntries_eq] at hentry
    obtain ⟨entry, hmem, heq⟩ := List.mem_map.mp hentry
    have hvalue : encode entry.2 = m.2 := congrArg Prod.snd heq
    exact .bind (hvalue ▸ encodeEntries_refuses entries entry hmem) fun _ _ => .ok _

/-- `encode_refuses` for items. -/
theorem encodeItems_refuses : ∀ items : List PyValue, ∀ v ∈ items, Refuses (encode v)
  | [] => by simp
  | v :: items => fun w hw => by
    rcases List.mem_cons.mp hw with heq | hw
    · rw [heq]
      exact encode_refuses v
    · exact encodeItems_refuses items w hw

/-- `encode_refuses` for the values of entries. -/
theorem encodeEntries_refuses : ∀ entries : List (PyKey × PyValue), ∀ e ∈ entries,
    Refuses (encode e.2)
  | [] => by simp
  | (_, v) :: entries => fun e he => by
    rcases List.mem_cons.mp he with heq | he
    · rw [heq]
      exact encode_refuses v
    · exact encodeEntries_refuses entries e he

end

mutual

/-- What is encoded is a JSON value. -/
theorem eq_ofJson_of_encode : ∀ (v : PyValue) (t : Text), encode v = .ok t → ∃ j, v = ofJson j
  | .none, _ => fun _ => ⟨.null, rfl⟩
  | .bool b, _ => fun _ => ⟨.bool b, rfl⟩
  | .int n, _ => fun _ => ⟨.int n, rfl⟩
  | .str s, _ => fun _ => ⟨.str s, rfl⟩
  | .float lexeme, _ => fun _ => ⟨.float lexeme, rfl⟩
  | .other _, _ => fun h => by simp [encode] at h
  | .list items, _ => fun h => by
    rw [encode] at h
    obtain ⟨parts, hparts, -⟩ := bind_ok_iff.mp h
    rw [encodeItems_eq, List.mapM_map] at hparts
    obtain ⟨j, hj⟩ := eq_ofItems_of_encode items fun v hv => by
      obtain ⟨t, -, ht⟩ := mapM_mem_of_mem hparts hv
      exact ⟨t, ht⟩
    exact ⟨.arr j, by rw [ofJson, hj]⟩
  | .mapping entries, _ => fun h => by
    rw [encode] at h
    obtain ⟨members, hkeys, h⟩ := bind_ok_iff.mp h
    obtain ⟨sorted, hsorted, h⟩ := bind_ok_iff.mp h
    obtain ⟨parts, hparts, -⟩ := bind_ok_iff.mp h
    have hmembers := stringKeys_eq_ok hkeys
    rw [encodeEntries_eq] at hmembers
    obtain ⟨j, hj⟩ := eq_ofMembers_of_encode entries fun e he => by
      have hentry := List.mem_map_of_mem (f := fun e => (e.1, encode e.2)) he
      rw [hmembers] at hentry
      obtain ⟨m, hm, heq⟩ := List.mem_map.mp hentry
      obtain ⟨part, -, hpart⟩ := mapM_mem_of_mem hparts ((mem_of_sortedByKey hsorted).mpr hm)
      obtain ⟨t, ht, -⟩ := bind_ok_iff.mp hpart
      have hkey : PyKey.str m.1 = e.1 := congrArg Prod.fst heq
      have hvalue : m.2 = encode e.2 := congrArg Prod.snd heq
      exact ⟨⟨m.1, hkey.symm⟩, t, hvalue ▸ ht⟩
    exact ⟨.obj j, by rw [ofJson, hj]⟩

/-- `eq_ofJson_of_encode` for items. -/
theorem eq_ofItems_of_encode : ∀ items : List PyValue, (∀ v ∈ items, ∃ t, encode v = .ok t) →
    ∃ j, items = ofItems j
  | [] => fun _ => ⟨[], rfl⟩
  | v :: items => fun h => by
    obtain ⟨t, ht⟩ := h v (by simp)
    obtain ⟨j, hj⟩ := eq_ofJson_of_encode v t ht
    obtain ⟨rest, hrest⟩ := eq_ofItems_of_encode items fun w hw => h w (by simp [hw])
    exact ⟨j :: rest, by rw [ofItems, hj, hrest]⟩

/-- `eq_ofJson_of_encode` for entries. -/
theorem eq_ofMembers_of_encode : ∀ entries : List (PyKey × PyValue),
    (∀ e ∈ entries, (∃ key, e.1 = .str key) ∧ ∃ t, encode e.2 = .ok t) → ∃ j, entries = ofMembers j
  | [] => fun _ => ⟨[], rfl⟩
  | (k, v) :: entries => fun h => by
    obtain ⟨⟨key, hkey⟩, t, ht⟩ := h (k, v) (by simp)
    obtain ⟨j, hj⟩ := eq_ofJson_of_encode v t ht
    obtain ⟨rest, hrest⟩ := eq_ofMembers_of_encode entries fun e he => h e (by simp [he])
    exact ⟨(key, j) :: rest, by rw [ofMembers, ← hkey, ← hj, hrest]⟩

end

/-- What is outside the domain raises `CanonicalizationError`. -/
theorem canonicalBytes_refuses {x : PyValue} (hx : x.WellFormed)
    (outside : ∀ v : Json, v.Encodable → v.Distinct → x ≠ ofJson v) :
    ∃ message, canonicalBytes x = .error (.canonicalizationError message) := by
  have refuses : Refuses (canonicalBytes x) := .bind (encode_refuses x) fun t _ => by
    split
    · exact .ok _
    · exact .error _
  cases h : canonicalBytes x with
  | error e =>
    obtain ⟨message, rfl⟩ := refuses e h
    exact ⟨message, rfl⟩
  | ok b =>
    obtain ⟨t, ht, -⟩ := bind_ok_iff.mp h
    obtain ⟨v, rfl⟩ := eq_ofJson_of_encode x t ht
    exact absurd rfl (outside v (Json.canonical_isOk.mp ⟨b, canonicalBytes_ofJson.mp h⟩)
      ((wellFormed_ofJson v).mp hx))

/-! ## The round trip -/

end PyValue

end WagmiBench.Spec
