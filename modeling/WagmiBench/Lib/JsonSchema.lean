import WagmiBench.Lib.JsonCanonical

/-!
# JSON Schema

The keywords of JSON Schema over decoded values, with named definitions for `$ref`. `Schema.Valid`
says which values follow a schema, `Schema.check` computes it to a bounded depth of references.
-/

namespace WagmiBench.Lib.Json

/-- A schema: one keyword, or all of several. -/
inductive Schema where
  | ref (name : String)
  | all (schemas : List Schema)
  | anyOf (schemas : List Schema)
  | null
  | boolean
  | enum (values : List Json)
  | integer (minimum maximum : Option ℤ)
  /-- A string whose text is in a language, the one of a `pattern` or of a `maxLength`. -/
  | string (language : Text → Bool)
  | array (minItems : ℕ) (items : Schema)
  /-- `additional` is the schema of the members `properties` does not name; without one there are
  none. -/
  | object (required : List String) (properties : List (String × Schema))
    (additional : Option Schema)
  | propertyNames (language : Text → Bool)
  | propertyCount (minimum : ℕ) (maximum : Option ℕ)
  /-- `if` and `then` about which members there are. -/
  | ifThen (condition consequence : List (Text × Json) → Bool)

namespace Schema

/-- The schema of a member. -/
def ofMember (properties : List (String × Schema)) (additional : Option Schema) (key : Text) :
    Option Schema :=
  match properties.find? fun p => txt p.1 = key with
  | some p => some p.2
  | none => additional

/-- A value follows a schema. -/
inductive Valid (defs : String → Schema) : Schema → Json → Prop where
  | ref {name : String} {v : Json} : Valid defs (defs name) v → Valid defs (.ref name) v
  | all {schemas : List Schema} {v : Json} :
      (∀ s ∈ schemas, Valid defs s v) → Valid defs (.all schemas) v
  | anyOf {schemas : List Schema} {s : Schema} {v : Json} :
      s ∈ schemas → Valid defs s v → Valid defs (.anyOf schemas) v
  | null : Valid defs .null .null
  | boolean {b : Bool} : Valid defs .boolean (.bool b)
  | enum {values : List Json} {v : Json} : v ∈ values → Valid defs (.enum values) v
  | integer {minimum maximum : Option ℤ} {n : ℤ} :
      (∀ m ∈ minimum, m ≤ n) → (∀ m ∈ maximum, n ≤ m) →
      Valid defs (.integer minimum maximum) (.int n)
  | string {language : Text → Bool} {s : Text} :
      language s = true → Valid defs (.string language) (.str s)
  | array {minItems : ℕ} {schema : Schema} {items : List Json} :
      minItems ≤ items.length → (∀ v ∈ items, Valid defs schema v) →
      Valid defs (.array minItems schema) (.arr items)
  | object {required : List String} {properties : List (String × Schema)}
      {additional : Option Schema} {members : List (Text × Json)} :
      (∀ key ∈ required, txt key ∈ members.map Prod.fst) →
      (∀ m ∈ members, ofMember properties additional m.1 ≠ none) →
      (∀ m ∈ members, ∀ s, ofMember properties additional m.1 = some s → Valid defs s m.2) →
      Valid defs (.object required properties additional) (.obj members)
  | propertyNames {language : Text → Bool} {members : List (Text × Json)} :
      (∀ m ∈ members, language m.1 = true) → Valid defs (.propertyNames language) (.obj members)
  | propertyCount {minimum : ℕ} {maximum : Option ℕ} {members : List (Text × Json)} :
      minimum ≤ members.length → (∀ m ∈ maximum, members.length ≤ m) →
      Valid defs (.propertyCount minimum maximum) (.obj members)
  | ifThen {condition consequence : List (Text × Json) → Bool} {members : List (Text × Json)} :
      (condition members = true → consequence members = true) →
      Valid defs (.ifThen condition consequence) (.obj members)

variable {defs : String → Schema} {v : Json}

/-! ## Keyword by keyword -/

@[simp] theorem valid_ref {name : String} : Valid defs (.ref name) v ↔ Valid defs (defs name) v :=
  ⟨fun h => by cases h; assumption, .ref⟩

@[simp] theorem valid_all {schemas : List Schema} :
    Valid defs (.all schemas) v ↔ ∀ s ∈ schemas, Valid defs s v :=
  ⟨fun h => by cases h; assumption, .all⟩

@[simp] theorem valid_anyOf {schemas : List Schema} :
    Valid defs (.anyOf schemas) v ↔ ∃ s ∈ schemas, Valid defs s v :=
  ⟨fun h => by cases h; exact ⟨_, ‹_›, ‹_›⟩, fun ⟨_, hmem, h⟩ => .anyOf hmem h⟩

@[simp] theorem valid_null : Valid defs .null v ↔ v = .null :=
  ⟨fun h => by cases h; rfl, fun h => h ▸ .null⟩

@[simp] theorem valid_boolean : Valid defs .boolean v ↔ ∃ b, v = .bool b :=
  ⟨fun h => by cases h; exact ⟨_, rfl⟩, fun ⟨_, h⟩ => h ▸ .boolean⟩

@[simp] theorem valid_enum {values : List Json} : Valid defs (.enum values) v ↔ v ∈ values :=
  ⟨fun h => by cases h; assumption, .enum⟩

@[simp] theorem valid_integer {minimum maximum : Option ℤ} :
    Valid defs (.integer minimum maximum) v ↔
      ∃ n, v = .int n ∧ (∀ m ∈ minimum, m ≤ n) ∧ ∀ m ∈ maximum, n ≤ m :=
  ⟨fun h => by cases h; exact ⟨_, rfl, ‹_›, ‹_›⟩, fun ⟨_, h, hlow, hhigh⟩ => h ▸ .integer hlow hhigh⟩

@[simp] theorem valid_string {language : Text → Bool} :
    Valid defs (.string language) v ↔ ∃ s, v = .str s ∧ language s = true :=
  ⟨fun h => by cases h; exact ⟨_, rfl, ‹_›⟩, fun ⟨_, h, hs⟩ => h ▸ .string hs⟩

@[simp] theorem valid_array {minItems : ℕ} {schema : Schema} :
    Valid defs (.array minItems schema) v ↔
      ∃ items, v = .arr items ∧ minItems ≤ items.length ∧ ∀ w ∈ items, Valid defs schema w :=
  ⟨fun h => by cases h; exact ⟨_, rfl, ‹_›, ‹_›⟩, fun ⟨_, h, hmin, hitems⟩ => h ▸ .array hmin hitems⟩

@[simp] theorem valid_object {required : List String} {properties : List (String × Schema)}
    {additional : Option Schema} :
    Valid defs (.object required properties additional) v ↔ ∃ members, v = .obj members ∧
      (∀ key ∈ required, txt key ∈ members.map Prod.fst) ∧
      (∀ m ∈ members, ofMember properties additional m.1 ≠ none) ∧
      ∀ m ∈ members, ∀ s, ofMember properties additional m.1 = some s → Valid defs s m.2 :=
  ⟨fun h => by cases h; exact ⟨_, rfl, ‹_›, ‹_›, ‹_›⟩,
    fun ⟨_, h, hrequired, hclosed, hmembers⟩ => h ▸ .object hrequired hclosed hmembers⟩

@[simp] theorem valid_propertyNames {language : Text → Bool} :
    Valid defs (.propertyNames language) v ↔
      ∃ members, v = .obj members ∧ ∀ m ∈ members, language m.1 = true :=
  ⟨fun h => by cases h; exact ⟨_, rfl, ‹_›⟩, fun ⟨_, h, hnames⟩ => h ▸ .propertyNames hnames⟩

@[simp] theorem valid_propertyCount {minimum : ℕ} {maximum : Option ℕ} :
    Valid defs (.propertyCount minimum maximum) v ↔
      ∃ members, v = .obj members ∧ minimum ≤ members.length ∧ ∀ m ∈ maximum, members.length ≤ m :=
  ⟨fun h => by cases h; exact ⟨_, rfl, ‹_›, ‹_›⟩,
    fun ⟨_, h, hmin, hmax⟩ => h ▸ .propertyCount hmin hmax⟩

@[simp] theorem valid_ifThen {condition consequence : List (Text × Json) → Bool} :
    Valid defs (.ifThen condition consequence) v ↔
      ∃ members, v = .obj members ∧ (condition members = true → consequence members = true) :=
  ⟨fun h => by cases h; exact ⟨_, rfl, ‹_›⟩, fun ⟨_, h, himp⟩ => h ▸ .ifThen himp⟩

/-! ## Members -/

/-- A key that is there has a value. -/
theorem mem_keys_iff {key : Text} {members : List (Text × Json)} :
    key ∈ members.map Prod.fst ↔ ∃ w, lookup key members = some w := by
  constructor
  · intro h
    obtain ⟨m, hm, hname⟩ := List.mem_map.mp h
    have found : (members.find? fun m => m.1 = key).isSome :=
      List.find?_isSome.mpr ⟨m, hm, by simpa using hname⟩
    obtain ⟨m', hfind⟩ := Option.isSome_iff_exists.mp found
    exact ⟨m'.2, by simp [lookup, hfind]⟩
  · rintro ⟨w, h⟩
    obtain ⟨m, hfind, -⟩ := Option.map_eq_some_iff.mp h
    exact List.mem_map.mpr ⟨m, List.mem_of_find?_eq_some hfind, by simpa using List.find?_some hfind⟩

/-- A member that is there follows its schema. -/
theorem Valid.member {required : List String} {properties : List (String × Schema)}
    {additional : Option Schema} {members : List (Text × Json)} {key : Text} {s : Schema} {w : Json}
    (h : Valid defs (.object required properties additional) (.obj members))
    (hlookup : lookup key members = some w) (hs : ofMember properties additional key = some s) :
    Valid defs s w := by
  obtain ⟨members', heq, -, -, hvalid⟩ := valid_object.mp h
  obtain rfl := Json.obj.inj heq
  obtain ⟨m, hfind, rfl⟩ := Option.map_eq_some_iff.mp hlookup
  have hkey : m.1 = key := by simpa using List.find?_some hfind
  exact hvalid m (List.mem_of_find?_eq_some hfind) s (hkey ▸ hs)

/-- A required member is there, and follows its schema. -/
theorem Valid.required {required : List String} {properties : List (String × Schema)}
    {additional : Option Schema} {members : List (Text × Json)} {key : String} {s : Schema}
    (h : Valid defs (.object required properties additional) (.obj members))
    (hkey : key ∈ required) (hs : ofMember properties additional (txt key) = some s) :
    ∃ w, lookup (txt key) members = some w ∧ Valid defs s w := by
  obtain ⟨members', heq, hrequired, -, -⟩ := valid_object.mp h
  obtain rfl := Json.obj.inj heq
  obtain ⟨w, hlookup⟩ := mem_keys_iff.mp (hrequired key hkey)
  exact ⟨w, hlookup, h.member hlookup hs⟩

/-- **Closed objects.** Over a dictionary, a schema without additional members says which keys
there may be, which there must be, and what each of them holds. -/
theorem valid_closed_iff {required : List String} {properties : List (String × Schema)}
    {members : List (Text × Json)} (hproperties : (properties.map Prod.fst).Nodup)
    (hmembers : NodupKeys members) :
    Valid defs (.object required properties none) (.obj members) ↔
      (∀ m ∈ members, m.1 ∈ properties.map fun p => txt p.1) ∧
      (∀ key ∈ required, txt key ∈ members.map Prod.fst) ∧
      ∀ p ∈ properties, ∀ w, lookup (txt p.1) members = some w → Valid defs p.2 w := by
  have schema : ∀ p ∈ properties, ofMember properties none (txt p.1) = some p.2 := by
    intro p hp
    have found : properties.find? (fun q => txt q.1 = txt p.1) = some p := by
      obtain ⟨before, after, rfl⟩ := List.append_of_mem hp
      refine List.find?_eq_some_iff_append.mpr ⟨by simp, before, after, rfl, fun q hq => ?_⟩
      simp only [List.map_append, List.map_cons, List.nodup_append] at hproperties
      have := hproperties.2.2 q.1 (List.mem_map_of_mem hq) p.1 (by simp)
      simpa using this
    rw [ofMember, found]
  have named : ∀ key s, ofMember properties none key = some s →
      ∃ p ∈ properties, txt p.1 = key ∧ p.2 = s := by
    intro key s h
    unfold ofMember at h
    split at h
    · next p hfind =>
      exact ⟨p, List.mem_of_find?_eq_some hfind, by simpa using List.find?_some hfind,
        Option.some.inj h⟩
    · cases h
  constructor
  · intro h
    obtain ⟨members', heq, hrequired, hclosed, hvalid⟩ := valid_object.mp h
    obtain rfl := Json.obj.inj heq
    refine ⟨fun m hm => ?_, hrequired, fun p hp w hw => h.member hw (schema p hp)⟩
    obtain ⟨s, hs⟩ := Option.ne_none_iff_exists'.mp (hclosed m hm)
    obtain ⟨p, hp, hkey, -⟩ := named _ _ hs
    exact List.mem_map.mpr ⟨p, hp, hkey⟩
  · rintro ⟨hclosed, hrequired, hvalid⟩
    refine .object hrequired (fun m hm => ?_) fun m hm s hs => ?_
    · obtain ⟨p, hp, hkey⟩ := List.mem_map.mp (hclosed m hm)
      rw [← hkey, schema p hp]
      simp
    · obtain ⟨p, hp, hkey, rfl⟩ := named _ _ hs
      exact hvalid p hp m.2 (hkey ▸ (lookup_eq_some_iff hmembers).mpr hm)

/-- Over an object all of whose members follow one schema. -/
theorem valid_additional_iff {s : Schema} {members : List (Text × Json)} :
    Valid defs (.object [] [] (some s)) (.obj members) ↔ ∀ m ∈ members, Valid defs s m.2 := by
  simp [valid_object, ofMember]

/-! ## Checking -/

/-- `Valid`, computed with at most `depth` keywords inside each other. -/
def check (defs : String → Schema) : ℕ → Schema → Json → Bool
  | 0, _, _ => false
  | depth + 1, .ref name, v => check defs depth (defs name) v
  | depth + 1, .all schemas, v => schemas.all fun s => check defs depth s v
  | depth + 1, .anyOf schemas, v => schemas.any fun s => check defs depth s v
  | _ + 1, .null, .null => true
  | _ + 1, .boolean, .bool _ => true
  | _ + 1, .enum values, v => decide (v ∈ values)
  | _ + 1, .integer minimum maximum, .int n =>
    minimum.all (fun m => decide (m ≤ n)) && maximum.all fun m => decide (n ≤ m)
  | _ + 1, .string language, .str s => language s
  | depth + 1, .array minItems schema, .arr items =>
    decide (minItems ≤ items.length) && items.all fun w => check defs depth schema w
  | depth + 1, .object required properties additional, .obj members =>
    (required.all fun key => decide (txt key ∈ members.map Prod.fst)) &&
      members.all fun m => match ofMember properties additional m.1 with
        | some s => check defs depth s m.2
        | none => false
  | _ + 1, .propertyNames language, .obj members => members.all fun m => language m.1
  | _ + 1, .propertyCount minimum maximum, .obj members =>
    decide (minimum ≤ members.length) && maximum.all fun m => decide (members.length ≤ m)
  | _ + 1, .ifThen condition consequence, .obj members => !condition members || consequence members
  | _ + 1, _, _ => false

/-- What is checked is valid. -/
theorem valid_of_check {depth : ℕ} {s : Schema} (h : check defs depth s v = true) :
    Valid defs s v := by
  induction depth generalizing s v with
  | zero => simp [check] at h
  | succ depth ih =>
    unfold check at h
    split at h
    · rename_i heq
      exact absurd heq (by simp)
    · rename_i heq
      cases heq
      exact .ref (ih h)
    · rename_i heq
      cases heq
      exact .all fun s hs => ih (List.all_eq_true.mp h s hs)
    · rename_i heq
      cases heq
      obtain ⟨s, hs, hcheck⟩ := List.any_eq_true.mp h
      exact .anyOf hs (ih hcheck)
    · exact .null
    · exact .boolean
    · exact .enum (of_decide_eq_true h)
    · simp only [Bool.and_eq_true, Option.all_eq_true, decide_eq_true_eq] at h
      exact .integer h.1 h.2
    · exact .string h
    · rename_i heq
      cases heq
      simp only [Bool.and_eq_true, decide_eq_true_eq, List.all_eq_true] at h
      exact .array h.1 fun w hw => ih (h.2 w hw)
    · rename_i heq
      cases heq
      simp only [Bool.and_eq_true, decide_eq_true_eq, List.all_eq_true] at h
      refine .object h.1 (fun m hm => ?_) fun m hm s hs => ?_
      · have := h.2 m hm
        split at this
        · simp [*]
        · cases this
      · have := h.2 m hm
        rw [hs] at this
        exact ih this
    · simp only [List.all_eq_true] at h
      exact .propertyNames h
    · simp only [Bool.and_eq_true, Option.all_eq_true, decide_eq_true_eq] at h
      exact .propertyCount h.1 h.2
    · simp only [Bool.or_eq_true, Bool.not_eq_true'] at h
      exact .ifThen fun hc => h.resolve_left (by simp [hc])
    · cases h

end Schema

end WagmiBench.Lib.Json
