import WagmiBench.Core.ActionSchema
import WagmiBench.Core.TextOrder
import WagmiBench.Lib.JsonReader
import WagmiBench.Lib.Raises

/-!
# The stages and the schema

A document that was read strictly passes the stages of `parse_action` one by one exactly as it
follows `action/v1` with more and more of its constraints.
-/

namespace WagmiBench.Core

open WagmiBench.Lib
open Json (Schema NodupKeys Strict)

/-! ## Extension values -/

theorem validItems_iff {items : List Json} :
    validItems items = true ↔ ∀ v ∈ items, validExtension v = true := by
  induction items with
  | nil => simp [validItems]
  | cons v items ih => simp [validItems, ih]

theorem validMembers_iff {members : List (Text × Json)} :
    validMembers members = true ↔ ∀ m ∈ members, validExtension m.2 = true := by
  induction members with
  | nil => simp [validMembers]
  | cons m members ih => simp [validMembers, ih]

/-- `$defs/ext_value`, one keyword deep. -/
theorem valid_extValue {v : Json} : Schema.Valid actionDefs (.ref "ext_value") v ↔
    v = .null ∨ (∃ b, v = .bool b) ∨ (∃ s, v = .str s) ∨
      (∃ n, v = .int n ∧ -MAX_EXACT_JSON_INT ≤ n ∧ n ≤ MAX_EXACT_JSON_INT) ∨
      (∃ items, v = .arr items ∧ ∀ w ∈ items, Schema.Valid actionDefs (.ref "ext_value") w) ∨
      ∃ members, v = .obj members ∧
        ∀ m ∈ members, Schema.Valid actionDefs (.ref "ext_value") m.2 := by
  rw [Schema.valid_ref, actionDefs]
  simp only [Schema.valid_anyOf, List.mem_cons, List.not_mem_nil, or_false, exists_eq_or_imp,
    exists_eq_left, Schema.valid_null, Schema.valid_boolean, Schema.valid_string, and_true,
    Schema.valid_integer, Option.mem_some_iff, forall_eq', Schema.valid_array, Nat.zero_le,
    true_and]
  have object : Schema.Valid actionDefs (.object [] [] (some (.ref "ext_value"))) v ↔
      ∃ members, v = .obj members ∧
        ∀ m ∈ members, Schema.Valid actionDefs (.ref "ext_value") m.2 := by
    constructor
    · intro h
      obtain ⟨members, rfl, -⟩ := Schema.valid_object.mp h
      exact ⟨members, rfl, Schema.valid_additional_iff.mp h⟩
    · rintro ⟨members, rfl, h⟩
      exact Schema.valid_additional_iff.mpr h
  rw [object]

mutual

theorem valid_extValue_iff : ∀ v : Json,
    Schema.Valid actionDefs (.ref "ext_value") v ↔ validExtension v = true
  | .null => by rw [valid_extValue]; simp [validExtension]
  | .bool _ => by rw [valid_extValue]; simp [validExtension]
  | .str _ => by rw [valid_extValue]; simp [validExtension]
  | .float _ => by rw [valid_extValue]; simp [validExtension]
  | .int n => by rw [valid_extValue]; simp [validExtension, abs_le]
  | .arr items => by
    rw [valid_extValue, validExtension, validItems_iff]
    simpa using valid_extItems_iff items
  | .obj members => by
    rw [valid_extValue, validExtension, validMembers_iff]
    simpa using valid_extMembers_iff members

theorem valid_extItems_iff : ∀ items : List Json,
    (∀ v ∈ items, Schema.Valid actionDefs (.ref "ext_value") v) ↔
      ∀ v ∈ items, validExtension v = true
  | [] => by simp
  | v :: items => by
    rw [List.forall_mem_cons, List.forall_mem_cons, valid_extValue_iff v, valid_extItems_iff items]

theorem valid_extMembers_iff : ∀ members : List (Text × Json),
    (∀ m ∈ members, Schema.Valid actionDefs (.ref "ext_value") m.2) ↔
      ∀ m ∈ members, validExtension m.2 = true
  | [] => by simp
  | (k, v) :: members => by
    rw [List.forall_mem_cons, List.forall_mem_cons, valid_extValue_iff v,
      valid_extMembers_iff members]

end

theorem sizeOf_items (items : List Json) : (items.map sizeOf).sum ≤ sizeOf items := by
  induction items with
  | nil => simp
  | cons v items ih =>
    simp only [List.map_cons, List.sum_cons, List.cons.sizeOf_spec]
    omega

theorem sizeOf_values (members : List (Text × Json)) :
    ((members.map Prod.snd).map sizeOf).sum ≤ sizeOf members := by
  induction members with
  | nil => simp
  | cons m members ih =>
    obtain ⟨k, v⟩ := m
    simp only [List.map_cons, List.sum_cons, List.cons.sizeOf_spec, Prod.mk.sizeOf_spec]
    omega

/-- The loop of `_valid_extension`, the top of its stack first: a container's values go on top, the
last one first. -/
def extensionLoop : List Json → Bool
  | [] => true
  | .null :: pending | .bool _ :: pending | .str _ :: pending => extensionLoop pending
  | .int n :: pending => if MAX_EXACT_JSON_INT < |n| then false else extensionLoop pending
  | .arr items :: pending => extensionLoop (items.reverse ++ pending)
  | .obj members :: pending => extensionLoop ((members.map Prod.snd).reverse ++ pending)
  | .float _ :: _ => false
termination_by pending => (pending.map sizeOf).sum
decreasing_by
  all_goals simp only [List.map_append, List.map_reverse, List.sum_append, List.sum_reverse,
    List.map_cons, List.sum_cons, Json.arr.sizeOf_spec, Json.obj.sizeOf_spec,
    List.unattach_reverse, List.unattach_attach, List.map_attach_eq_pmap, List.pmap_eq_map]
  · simp
  · simp
  · simp
  · simp
  · have := sizeOf_items items
    omega
  · have := sizeOf_values members
    omega

/-- The walk with a stack finds what the walk by recursion finds. -/
theorem extensionLoop_eq (pending : List Json) :
    extensionLoop pending = pending.all validExtension := by
  fun_induction extensionLoop pending with
  | case1 => rfl
  | case2 pending ih | case3 b pending ih | case4 s pending ih => simp [validExtension, ih]
  | case5 pending n hlarge => simp [validExtension, hlarge]
  | case6 pending n hlarge ih => simp [validExtension, not_lt.mp hlarge, ih]
  | case7 items pending ih =>
    simp only [List.unattach_reverse, List.unattach_attach] at ih
    have hitems : items.all validExtension = validItems items := by
      rw [Bool.eq_iff_iff, List.all_eq_true, validItems_iff]
    rw [ih, List.all_append, List.all_reverse, hitems, List.all_cons, validExtension]
  | case8 members pending ih =>
    simp only [List.map_attach_eq_pmap, List.pmap_eq_map] at ih
    have hmembers : (members.map Prod.snd).all validExtension = validMembers members := by
      rw [Bool.eq_iff_iff, List.all_eq_true, validMembers_iff, List.forall_mem_map]
    rw [ih, List.all_append, List.all_reverse, hmembers, List.all_cons, validExtension]
  | case9 => simp [validExtension]

/-! ## Shape -/

/-- Membership of a document in the schema, key by key. -/
theorem valid_action_iff {targetValue slippage : Schema} {document : List (Text × Json)}
    (h : NodupKeys document) :
    Schema.Valid actionDefs (actionSchema targetValue slippage) (.obj document) ↔
      (∀ m ∈ document, m.1 ∈ KNOWN_TOP_LEVEL_FIELDS) ∧
      Json.lookup (txt "schema") document = some (.str (txt "action/v1")) ∧
      (∀ w, Json.lookup (txt "intent_kind") document = some w →
        w = .str (txt "leverage_target")) ∧
      (∃ target, Json.lookup (txt "target") document = some (.obj target) ∧
        (1 ≤ target.length ∧ target.length ≤ 16) ∧
        (∀ m ∈ target, isMarketAlias m.1 = true) ∧
        ∀ m ∈ target, Schema.Valid actionDefs targetValue m.2) ∧
      (∀ w, Json.lookup (txt "max_slippage_bps") document = some w →
        Schema.Valid actionDefs slippage w) ∧
      (∀ w, Json.lookup (txt "comment") document = some w →
        ∃ comment, w = .str comment ∧ comment.length ≤ 2000) ∧
      (∀ w, Json.lookup (txt "usage") document = some w →
        Schema.Valid actionDefs (.object [] [("input_tokens", .integer (some 0) none),
          ("output_tokens", .integer (some 0) none)] none) w) ∧
      ∀ w, Json.lookup (txt "ext") document = some w →
        ∃ ext, w = .obj ext ∧ validMembers ext = true := by
  have target : ∀ w, Schema.Valid actionDefs (.all [.propertyCount 1 (some 16),
      .propertyNames aliasPattern.rmatch, .object [] [] (some targetValue)]) w ↔
      ∃ target, w = .obj target ∧ (1 ≤ target.length ∧ target.length ≤ 16) ∧
        (∀ m ∈ target, isMarketAlias m.1 = true) ∧
        ∀ m ∈ target, Schema.Valid actionDefs targetValue m.2 := by
    intro w
    simp only [Schema.valid_all, List.forall_mem_cons, List.not_mem_nil, false_imp_iff,
      implies_true, and_true, Schema.valid_propertyCount, Schema.valid_propertyNames,
      aliasPattern_rmatch_iff, Option.mem_some_iff, forall_eq']
    constructor
    · rintro ⟨⟨target, rfl, hcount⟩, ⟨_, ⟨⟩, hnames⟩, hvalues⟩
      exact ⟨target, rfl, hcount, hnames, Schema.valid_additional_iff.mp hvalues⟩
    · rintro ⟨target, rfl, hcount, hnames, hvalues⟩
      exact ⟨⟨target, rfl, hcount⟩, ⟨target, rfl, hnames⟩, Schema.valid_additional_iff.mpr hvalues⟩
  have ext : ∀ w, Schema.Valid actionDefs (.object [] [] (some (.ref "ext_value"))) w ↔
      ∃ ext, w = .obj ext ∧ validMembers ext = true := by
    intro w
    constructor
    · intro h
      obtain ⟨ext, rfl, -⟩ := Schema.valid_object.mp h
      exact ⟨ext, rfl, validMembers_iff.mpr
        ((valid_extMembers_iff ext).mp (Schema.valid_additional_iff.mp h))⟩
    · rintro ⟨ext, rfl, h⟩
      exact Schema.valid_additional_iff.mpr ((valid_extMembers_iff ext).mpr (validMembers_iff.mp h))
  rw [actionSchema, Schema.valid_all]
  simp only [List.forall_mem_cons, List.not_mem_nil, false_imp_iff, implies_true, and_true]
  rw [Schema.valid_closed_iff (by simp) h]
  simp only [List.forall_mem_cons, List.not_mem_nil, false_imp_iff, implies_true, and_true, target,
    ext]
  simp only [Schema.valid_enum, List.mem_singleton, Schema.valid_string, decide_eq_true_eq,
    Schema.valid_ifThen, Json.obj.injEq, exists_eq_left']
  constructor
  · rintro ⟨⟨hknown, hrequired, hschema, hintent, htarget, hslippage, hcomment, husage, hext⟩, hthen⟩
    obtain ⟨w, hw⟩ := Schema.mem_keys_iff.mp hrequired
    have hintent' : tradingIntent document = true := by
      unfold tradingIntent
      split
      · rfl
      · next hlookup => exact decide_eq_true (hintent _ hlookup)
    obtain ⟨v, hv⟩ := Option.isSome_iff_exists.mp (hthen hintent')
    obtain ⟨target, rfl, htarget⟩ := htarget v hv
    exact ⟨hknown, hschema w hw ▸ hw, hintent, ⟨target, hv, htarget⟩, hslippage, hcomment, husage,
      hext⟩
  · rintro ⟨hknown, hschema, hintent, ⟨target, hv, htarget⟩, hslippage, hcomment, husage, hext⟩
    refine ⟨⟨hknown, Schema.mem_keys_iff.mpr ⟨_, hschema⟩, fun w hw => ?_, hintent, fun w hw => ?_,
      hslippage, hcomment, husage, hext⟩, fun _ => by rw [hv]; rfl⟩
    · exact Option.some.inj (hw.symm.trans hschema)
    · exact ⟨target, Option.some.inj (hw.symm.trans hv), htarget⟩

theorem valid_any (w : Json) : Schema.Valid actionDefs ANY w := .all (by simp)

/-- Token counts in a dictionary. -/
theorem valid_usage_iff {usage : List (Text × Json)} (h : NodupKeys usage) :
    Schema.Valid actionDefs (.object [] [("input_tokens", .integer (some 0) none),
        ("output_tokens", .integer (some 0) none)] none) (.obj usage) ↔
      (∀ m ∈ usage, m.1 = txt "input_tokens" ∨ m.1 = txt "output_tokens") ∧
      ∀ m ∈ usage, isTokenCount m.2 = true := by
  have count : ∀ w, Schema.Valid actionDefs (.integer (some 0) none) w ↔ isTokenCount w = true := by
    intro w
    cases w <;> simp [isTokenCount]
  rw [Schema.valid_closed_iff (by simp) h]
  simp only [List.map_cons, List.map_nil, List.mem_cons, List.not_mem_nil, or_false, false_imp_iff,
    implies_true, true_and, forall_eq_or_imp, forall_eq, count, Json.lookup_eq_some_iff h]
  refine and_congr_right fun hkeys => ?_
  constructor
  · rintro ⟨hinput, houtput⟩ ⟨key, w⟩ hm
    rcases hkeys _ hm with hkey | hkey
    · obtain rfl : key = txt "input_tokens" := hkey
      exact hinput w hm
    · obtain rfl : key = txt "output_tokens" := hkey
      exact houtput w hm
  · exact fun hcounts => ⟨fun w hw => hcounts _ hw, fun w hw => hcounts _ hw⟩

/-- **V4.** Once the schema's name and the fields are right, the shape check is the schema with
target values and slippage left open. -/
theorem v4ShapeIsValid_iff {document : List (Text × Json)} (h : Strict (.obj document))
    (hschema : Json.lookup (txt "schema") document = some (.str (txt "action/v1")))
    (hknown : ∀ m ∈ document, m.1 ∈ KNOWN_TOP_LEVEL_FIELDS) :
    v4ShapeIsValid document = true ↔
      Schema.Valid actionDefs (actionSchema ANY ANY) (.obj document) := by
  obtain ⟨hnodup, hstrict⟩ : NodupKeys document ∧ ∀ m ∈ document, Strict m.2 := by
    cases h
    exact ⟨‹_›, ‹_›⟩
  rw [valid_action_iff hnodup, and_iff_right hknown, and_iff_right hschema]
  simp only [valid_any, implies_true, and_true, true_and, v4ShapeIsValid, Bool.and_eq_true,
    and_assoc]
  refine and_congr ?_ (and_congr ?_ (and_congr ?_ (and_congr ?_ ?_)))
  · cases Json.lookup (txt "intent_kind") document with
    | none => simp
    | some w => cases w <;> simp
  · cases Json.lookup (txt "target") document with
    | none => simp
    | some w => cases w <;> simp [and_assoc]
  · cases Json.lookup (txt "comment") document with
    | none => simp
    | some w => cases w <;> simp
  · cases husage : Json.lookup (txt "usage") document with
    | none => simp
    | some w =>
      cases w with
      | obj usage =>
        have : NodupKeys usage := by
          have hmem := (Json.lookup_eq_some_iff hnodup).mp husage
          cases hstrict _ hmem
          assumption
        simp only [Option.some.injEq, forall_eq', valid_usage_iff this]
        simp
      | _ => simp [Schema.valid_object]
  · cases Json.lookup (txt "ext") document with
    | none => simp
    | some w => cases w <;> simp

/-! ## Target values -/

/-- The number a target value is written as: an integer, or a decimal text. -/
inductive Written : Json → ℚ → Prop where
  | int (n : ℤ) : Written (.int n) n
  | text {d : DecimalText} : IsTarget d → Written (.str d.text) d.value

theorem parseTarget_eq_ok {w : Json} {units : ℤ} :
    parseTarget w = .ok units ↔ ∃ q, Written w q ∧ (units : ℚ) = 10_000 * q := by
  constructor
  · intro h
    cases w with
    | int n =>
      obtain rfl := Except.ok.inj h
      exact ⟨n, .int n, by push_cast; ring⟩
    | str t =>
      simp only [parseTarget] at h
      split at h
      · next heq =>
        obtain ⟨d, hd, rfl, hvalue⟩ := parseDecimalTarget_eq_some.mp heq
        exact ⟨d.value, .text hd, Except.ok.inj h ▸ hvalue⟩
      · cases h
    | _ => cases h
  · rintro ⟨q, hq, hunits⟩
    cases hq with
    | int n =>
      rw [parseTarget, mul_comm]
      exact congrArg Except.ok (by exact_mod_cast hunits.symm)
    | text hd =>
      rw [parseTarget, parseDecimalTarget_eq_some.mpr ⟨_, hd, rfl, hunits⟩]

/-- A value without fractions that is no target has the wrong format. -/
theorem parseTarget_error {w : Json} (h : Strict w) {reason : ActionReason}
    (herror : parseTarget w = .error reason) : reason = .invalidTargetFormat := by
  cases h with
  | int => cases herror
  | str =>
    simp only [parseTarget] at herror
    split at herror <;> cases herror
    rfl
  | _ => exact (Except.error.inj herror).symm

theorem valid_targetFormat_iff {w : Json} :
    Schema.Valid actionDefs TARGET_FORMAT w ↔ ∃ units, parseTarget w = .ok units := by
  have text : ∀ t, targetPattern.rmatch t = true ↔ ∃ units, parseDecimalTarget t = some units := by
    intro t
    rw [targetPattern_rmatch_iff]
    constructor
    · rintro ⟨d, hd, rfl⟩
      exact ⟨_, parseDecimalTarget_text hd⟩
    · exact fun ⟨_, h⟩ => isTarget_of_parse h
  cases w with
  | str t =>
    simp only [TARGET_FORMAT, Schema.valid_anyOf, List.mem_cons, List.not_mem_nil, or_false,
      exists_eq_or_imp, exists_eq_left, Schema.valid_string, Json.str.injEq, exists_eq_left', text,
      Schema.valid_integer, reduceCtorEq, false_and, exists_false, parseTarget]
    cases parseDecimalTarget t <;> simp
  | _ => simp [TARGET_FORMAT, parseTarget]

theorem ofDecimal_lt {t : Text} (h : t.all isDigit = true) : ofDecimal t < 10 ^ t.length := by
  induction t using List.reverseRecOn with
  | nil => simp [ofDecimal]
  | append_singleton t c ih =>
    rw [List.all_append, Bool.and_eq_true] at h
    have hc : c.val - 0x30 ≤ 9 := by
      have := h.2
      simp only [List.all_cons, List.all_nil, Bool.and_true, isDigit, Bool.and_eq_true,
        decide_eq_true_eq] at this
      omega
    have hlast : ofDecimal [c] = c.val - 0x30 := by simp [ofDecimal]
    have := ih h.1
    rw [ofDecimal_append, hlast, List.length_singleton, List.length_append, List.length_singleton,
      pow_succ]
    omega

/-- No target text leaves the range. -/
theorem IsTarget.bounded {d : DecimalText} (h : IsTarget d) {units : ℤ}
    (hparse : parseDecimalTarget d.text = some units) : |units| ≤ MAX_TARGET_LEV_1E4 := by
  have hwhole : ofDecimal d.whole ≤ 999 := by
    have hlt := ofDecimal_lt (isWhole_all h.whole).2
    have hlength : d.whole.length ≤ 3 := by
      rcases isWhole_iff.mp h.whole with heq | ⟨c, -, rest, heq, hrest, -⟩ <;> rw [heq]
      · simp
      · rw [List.length_cons]
        omega
    have := Nat.pow_le_pow_right (n := 10) (by omega) hlength
    omega
  have hfraction : ofDecimal (d.fraction.getD [] ++
      List.replicate (4 - (d.fraction.getD []).length) (codePoint 0x30)) < 10 ^ 4 := by
    have hparts : (d.fraction.getD []).length ≤ 4 ∧ (d.fraction.getD []).all isDigit = true := by
      cases hf : d.fraction with
      | none => simp
      | some f => exact ⟨(h.fraction f hf).2, d.fraction_all f hf⟩
    have hlength : (d.fraction.getD [] ++
        List.replicate (4 - (d.fraction.getD []).length) (codePoint 0x30)).length = 4 := by
      rw [List.length_append, List.length_replicate]
      omega
    refine (ofDecimal_lt ?_).trans_eq (by rw [hlength])
    rw [List.all_append, hparts.2, Bool.true_and, List.all_replicate]
    split
    · rfl
    · decide
  have hunits : |targetUnits d.whole d.fraction| ≤ MAX_TARGET_LEV_1E4 := by
    have : MAX_TARGET_LEV_1E4 = 9_999_999 := rfl
    rw [targetUnits, abs_of_nonneg (by positivity)]
    omega
  rw [parseDecimalTarget_text h] at hparse
  rw [← Option.some.inj hparse]
  split
  · rwa [abs_neg]
  · exact hunits

theorem valid_targetValue_iff {w : Json} : Schema.Valid actionDefs TARGET_VALUE w ↔
    ∃ units, parseTarget w = .ok units ∧ |units| ≤ MAX_TARGET_LEV_1E4 := by
  cases w with
  | str t =>
    have hformat := @valid_targetFormat_iff (.str t)
    have hvalue : Schema.Valid actionDefs TARGET_VALUE (.str t) ↔
        Schema.Valid actionDefs TARGET_FORMAT (.str t) := by
      simp [TARGET_VALUE, TARGET_FORMAT]
    rw [hvalue, hformat]
    refine exists_congr fun units => (and_iff_left_of_imp fun h => ?_).symm
    simp only [parseTarget] at h
    split at h
    · next heq =>
      obtain ⟨d, hd, rfl⟩ := isTarget_of_parse heq
      exact Except.ok.inj h ▸ hd.bounded heq
    · cases h
  | int n =>
    have hmax : MAX_TARGET_LEV_1E4 = 9_999_999 := rfl
    simp only [TARGET_VALUE, Schema.valid_anyOf, List.mem_cons, List.not_mem_nil, or_false,
      exists_eq_or_imp, exists_eq_left, Schema.valid_string, reduceCtorEq, false_and, exists_false,
      false_or, Schema.valid_integer, Json.int.injEq, exists_eq_left', Option.mem_some_iff,
      forall_eq', parseTarget, Except.ok.injEq, abs_le]
    omega
  | _ => simp [TARGET_VALUE, parseTarget]

/-! ## Stages -/

/-- Every target of the document is declared. -/
def Declared (declaredMarkets : List Text) (v : Json) : Prop :=
  ∀ target, v.get? (txt "target") = some (.obj target) → ∀ m ∈ target, m.1 ∈ declaredMarkets

/-- What a stage asks of a document, with the reason a document that lacks it is refused with. -/
abbrev Stage := ActionReason × (Json → Prop)

/-- The stages of a document that was read, from V3 to V8. -/
def stages (declaredMarkets : List Text) : List Stage :=
  [(.unknownSchema, fun v => v.get? (txt "schema") = some (.str (txt "action/v1"))),
   (.unknownField, fun v => ∀ document, v = .obj document →
      ∀ m ∈ document, m.1 ∈ KNOWN_TOP_LEVEL_FIELDS),
   (.schemaInvalid, Schema.Valid actionDefs (actionSchema ANY ANY)),
   (.unknownMarket, Declared declaredMarkets),
   (.invalidTargetFormat, Schema.Valid actionDefs (actionSchema TARGET_FORMAT ANY)),
   (.targetOutOfRange, Schema.Valid actionDefs (actionSchema TARGET_VALUE ANY)),
   (.invalidSlippage, Schema.Valid actionDefs ACTION_V1)]

/-- The reason of the first stage a document fails, if it fails one. -/
def FirstFailing (v : Json) : List Stage → Option ActionReason → Prop
  | [], reason => reason = none
  | stage :: stages, reason =>
    (¬ stage.2 v ∧ reason = some stage.1) ∨ (stage.2 v ∧ FirstFailing v stages reason)

theorem FirstFailing.unique {v : Json} {stages : List Stage} {reason reason' : Option ActionReason}
    (h : FirstFailing v stages reason) (h' : FirstFailing v stages reason') : reason = reason' := by
  induction stages with
  | nil => exact h.trans h'.symm
  | cons stage stages ih =>
    rcases h with ⟨hfails, rfl⟩ | ⟨hpasses, h⟩ <;> rcases h' with ⟨hfails', rfl⟩ | ⟨hpasses', h'⟩
    · rfl
    · exact absurd hpasses' hfails
    · exact absurd hpasses hfails'
    · exact ih h h'

theorem firstFailing_none_iff {v : Json} {stages : List Stage} :
    FirstFailing v stages none ↔ ∀ stage ∈ stages, stage.2 v := by
  induction stages with
  | nil => simp [FirstFailing]
  | cons stage stages ih => simp [FirstFailing, ih]

/-- The targets an accepted document asks for. -/
structure Exact (document : List (Text × Json)) (targets : List (Text × ℤ))
    (slippage : Option ℤ) : Prop where
  /-- Every alias, once. -/
  aliases : ∃ target, Json.lookup (txt "target") document = some (.obj target) ∧
    targets.map Prod.fst = sortTexts (target.map Prod.fst) ∧
    ∀ t ∈ targets, ∃ w q, (t.1, w) ∈ target ∧ Written w q ∧ (t.2 : ℚ) = 10_000 * q
  range : ∀ t ∈ targets, -MAX_TARGET_LEV_1E4 ≤ t.2 ∧ t.2 ≤ MAX_TARGET_LEV_1E4
  slippage_eq : (Json.lookup (txt "max_slippage_bps") document) = slippage.map .int

variable {declaredMarkets : List Text}

/-- `parseDocument` behind V4, by the targets of the document. -/
def parseTargets (declaredMarkets : List Text) (document target : List (Text × Json)) :
    Except ActionReason (List (Text × ℤ) × Option ℤ) := do
  let aliases := sortTexts (target.map Prod.fst)
  require (∀ a ∈ aliases, a ∈ declaredMarkets) .unknownMarket
  let parsedTargets ← aliases.mapM fun a => do
    let units ← parseTarget ((Json.lookup a target).getD .null)
    return (a, units)
  require (∀ t ∈ parsedTargets, ¬ MAX_TARGET_LEV_1E4 < |t.2|) .targetOutOfRange
  let slippage ← parseSlippage document
  return (parsedTargets, slippage)

theorem parseDocument_unnamed {document : List (Text × Json)}
    (h : Json.lookup (txt "schema") document ≠ some (.str (txt "action/v1"))) :
    parseDocument declaredMarkets (.obj document) = .error .unknownSchema := by
  simp only [parseDocument]
  split
  · next name hlookup =>
    have hname : name ≠ txt "action/v1" := fun hname => h (hname ▸ hlookup)
    rw [require_neg hname]
    rfl
  · rfl

theorem parseDocument_named {document : List (Text × Json)}
    (h : Json.lookup (txt "schema") document = some (.str (txt "action/v1"))) :
    parseDocument declaredMarkets (.obj document) = (do
      require (∀ m ∈ document, m.1 ∈ KNOWN_TOP_LEVEL_FIELDS) .unknownField
      require (v4ShapeIsValid document) .schemaInvalid
      match Json.lookup (txt "target") document with
      | some (.obj target) => parseTargets declaredMarkets document target
      | _ => .error .schemaInvalid) := by
  simp only [parseDocument, h]
  rw [require_pos trivial, ok_bind]
  rfl

/-- Once the shape is right, what is left of the schema is about the targets and the slippage. -/
theorem valid_shaped_iff {document target : List (Text × Json)} (hnodup : NodupKeys document)
    (hshape : Schema.Valid actionDefs (actionSchema ANY ANY) (.obj document))
    (htarget : Json.lookup (txt "target") document = some (.obj target))
    {targetValue slippage : Schema} :
    Schema.Valid actionDefs (actionSchema targetValue slippage) (.obj document) ↔
      (∀ m ∈ target, Schema.Valid actionDefs targetValue m.2) ∧
      ∀ w, Json.lookup (txt "max_slippage_bps") document = some w →
        Schema.Valid actionDefs slippage w := by
  obtain ⟨hknown, hschema, hintent, ⟨target', htarget', hcount, hnames, -⟩, -, hcomment, husage,
    hext⟩ := (valid_action_iff hnodup).mp hshape
  obtain rfl : target = target' := by simpa [htarget] using htarget'
  rw [valid_action_iff hnodup]
  constructor
  · rintro ⟨-, -, -, ⟨target', htarget', -, -, hvalues⟩, hslippage, -⟩
    obtain rfl : target = target' := by simpa [htarget] using htarget'
    exact ⟨hvalues, hslippage⟩
  · exact fun ⟨hvalues, hslippage⟩ => ⟨hknown, hschema, hintent,
      ⟨target, htarget, hcount, hnames, hvalues⟩, hslippage, hcomment, husage, hext⟩

theorem parseSlippage_spec (document : List (Text × Json)) :
    (parseSlippage document = .error .invalidSlippage ∧
      ∃ w, Json.lookup (txt "max_slippage_bps") document = some w ∧
        ¬ Schema.Valid actionDefs SLIPPAGE w) ∨
    ∃ slippage, parseSlippage document = .ok slippage ∧
      Json.lookup (txt "max_slippage_bps") document = slippage.map .int ∧
      ∀ w, Json.lookup (txt "max_slippage_bps") document = some w →
        Schema.Valid actionDefs SLIPPAGE w := by
  unfold parseSlippage
  cases Json.lookup (txt "max_slippage_bps") document with
  | none => exact .inr ⟨none, rfl, rfl, by simp⟩
  | some w =>
    cases w with
    | int n =>
      by_cases hn : n < 0 ∨ 10_000 < n
      · exact .inl ⟨if_pos hn, .int n, rfl, by simp [SLIPPAGE]; omega⟩
      · exact .inr ⟨some n, if_neg hn, rfl, by simp [SLIPPAGE]; omega⟩
    | _ => exact .inl ⟨rfl, _, rfl, by simp [SLIPPAGE]⟩

/-- What the targets of a document are read as, in lexical order of their aliases. -/
theorem parseTargets_spec {target : List (Text × Json)} (hnodup : NodupKeys target)
    (hstrict : ∀ m ∈ target, Strict m.2) :
    let parsed := (sortTexts (target.map Prod.fst)).mapM fun a => do
      let units ← parseTarget ((Json.lookup a target).getD .null)
      return (a, units)
    (parsed = .error .invalidTargetFormat ∧
      ∃ m ∈ target, ¬ Schema.Valid actionDefs TARGET_FORMAT m.2) ∨
    ∃ targets, parsed = .ok targets ∧ targets.map Prod.fst = sortTexts (target.map Prod.fst) ∧
      (∀ t ∈ targets, ∃ w, (t.1, w) ∈ target ∧ parseTarget w = .ok t.2) ∧
      ∀ m ∈ target, ∃ t ∈ targets, parseTarget m.2 = .ok t.2 := by
  intro parsed
  have value : ∀ a w, (a, w) ∈ target → (Json.lookup a target).getD .null = w := fun a w hm => by
    rw [(Json.lookup_eq_some_iff hnodup).mpr hm, Option.getD_some]
  have named : ∀ a ∈ sortTexts (target.map Prod.fst), ∃ w, (a, w) ∈ target := by
    intro a ha
    obtain ⟨⟨_, w⟩, hm, rfl⟩ := List.mem_map.mp (mem_sortTexts.mp ha)
    exact ⟨w, hm⟩
  cases hparsed : parsed with
  | error reason =>
    obtain ⟨a, ha, h⟩ := mapM_eq_error hparsed
    obtain ⟨w, hm⟩ := named a ha
    rw [value a w hm] at h
    have hparse : parseTarget w = .error reason := by
      rcases bind_error_iff.mp h with h | ⟨_, -, h⟩
      · exact h
      · exact absurd h pure_ne_error
    obtain rfl := parseTarget_error (hstrict _ hm) hparse
    refine .inl ⟨rfl, (a, w), hm, fun hvalid => ?_⟩
    obtain ⟨units, hunits⟩ := valid_targetFormat_iff.mp hvalid
    exact absurd (hunits.symm.trans hparse) (by simp)
  | ok targets =>
    have step : ∀ {a t}, (do
        let units ← parseTarget ((Json.lookup a target).getD .null)
        return (a, units)) = Except.ok t → t.1 = a ∧
        parseTarget ((Json.lookup a target).getD .null) = .ok t.2 := by
      intro a t h
      obtain ⟨units, hunits, h⟩ := bind_ok_iff.mp h
      obtain rfl := Except.ok.inj h
      exact ⟨rfl, hunits⟩
    refine .inr ⟨targets, rfl, ?_, fun t ht => ?_, fun m hm => ?_⟩
    · have hall := (mapM_eq_ok.mp hparsed).flip
      have haliases := List.forall₂_map_left_iff.mpr (hall.imp fun _ _ h => (step h).1)
      rwa [List.forall₂_eq_eq_eq] at haliases
    · obtain ⟨a, ha, h⟩ := mapM_mem hparsed ht
      obtain ⟨w, hm⟩ := named a ha
      obtain ⟨rfl, hparse⟩ := step h
      exact ⟨w, hm, value _ _ hm ▸ hparse⟩
    · obtain ⟨a, w⟩ := m
      obtain ⟨t, ht, h⟩ := mapM_mem_of_mem hparsed
        (mem_sortTexts.mpr (List.mem_map_of_mem (f := Prod.fst) hm))
      exact ⟨t, ht, value _ _ hm ▸ (step h).2⟩

/-- A computation refuses a document for the first stage it fails, or returns when it fails none. -/
def Follows {α : Type} (v : Json) (stages : List Stage) : Except ActionReason α → Prop
  | .ok _ => FirstFailing v stages none
  | .error reason => FirstFailing v stages (some reason)

/-- A stage the computation has behind it. -/
theorem follows_passed {α : Type} {v : Json} {stage : Json → Prop} {stages : List Stage}
    {reason : ActionReason} {x : Except ActionReason α} (hstage : stage v)
    (hrest : Follows v stages x) : Follows v ((reason, stage) :: stages) x := by
  cases x with
  | ok a => exact .inr ⟨hstage, hrest⟩
  | error e => exact .inr ⟨hstage, hrest⟩

/-- One check is one stage. -/
theorem follows_require {α : Type} {v : Json} {stage : Json → Prop} {stages : List Stage}
    {reason : ActionReason} {c : Prop} [Decidable c] {f : Unit → Except ActionReason α}
    (hstage : stage v ↔ c) (hrest : c → Follows v stages (f ())) :
    Follows v ((reason, stage) :: stages) (require c reason >>= f) := by
  by_cases hc : c
  · rw [require_pos hc, ok_bind]
    exact follows_passed (hstage.mpr hc) (hrest hc)
  · rw [require_neg hc]
    exact .inl ⟨fun h => hc (hstage.mp h), rfl⟩

/-- A loop or a reader is one stage. -/
theorem follows_bind {α β : Type} {v : Json} {stage : Json → Prop} {stages : List Stage}
    {reason : ActionReason} {x : Except ActionReason β} {f : β → Except ActionReason α}
    (hstage : (x = .error reason ∧ ¬ stage v) ∨ ∃ b, x = .ok b ∧ stage v ∧ Follows v stages (f b)) :
    Follows v ((reason, stage) :: stages) (x >>= f) := by
  rcases hstage with ⟨rfl, hfails⟩ | ⟨b, rfl, hpasses, hrest⟩
  · exact .inl ⟨hfails, rfl⟩
  · rw [ok_bind]
    exact follows_passed hpasses hrest

/-- **V3 to V8.** A document that was read strictly gets the reason of the first stage it fails. -/
theorem parseDocument_follows {v : Json} (h : Strict v) :
    Follows v (stages declaredMarkets) (parseDocument declaredMarkets v) := by
  cases h with
  | obj hnodup hstrict =>
    rename_i document
    by_cases hschema : Json.lookup (txt "schema") document = some (.str (txt "action/v1"))
    swap
    · rw [parseDocument_unnamed hschema]
      exact .inl ⟨hschema, rfl⟩
    rw [parseDocument_named hschema]
    refine follows_passed hschema (follows_require (by simp) fun hknown => ?_)
    have hdocument : Strict (.obj document) := .obj hnodup hstrict
    refine follows_require (v4ShapeIsValid_iff hdocument hschema hknown).symm fun hshape => ?_
    have hvalid := (v4ShapeIsValid_iff hdocument hschema hknown).mp hshape
    obtain ⟨-, -, -, ⟨target, htarget, -⟩, -⟩ := (valid_action_iff hnodup).mp hvalid
    have shaped := @valid_shaped_iff document target hnodup hvalid htarget
    have hmem := (Json.lookup_eq_some_iff hnodup).mp htarget
    obtain ⟨htargets, htargetsStrict⟩ : NodupKeys target ∧ ∀ m ∈ target, Strict m.2 := by
      cases hstrict _ hmem
      exact ⟨‹_›, ‹_›⟩
    simp only [htarget]
    refine follows_require ?_ fun hdeclared => ?_
    · simp [Declared, Json.get?, htarget, mem_sortTexts]
    refine follows_bind ?_
    rcases parseTargets_spec htargets htargetsStrict with ⟨herror, m, hm, hformat⟩ |
      ⟨targets, hok, -, hread, hall⟩
    · exact .inl ⟨herror, fun h => hformat ((shaped.mp h).1 m hm)⟩
    refine .inr ⟨targets, hok, shaped.mpr ⟨fun m hm => ?_, fun w _ => valid_any w⟩, ?_⟩
    · obtain ⟨t, -, hparse⟩ := hall m hm
      exact valid_targetFormat_iff.mpr ⟨t.2, hparse⟩
    have hvalues : (∀ m ∈ target, Schema.Valid actionDefs TARGET_VALUE m.2) ↔
        ∀ t ∈ targets, ¬ MAX_TARGET_LEV_1E4 < |t.2| := by
      simp only [not_lt]
      constructor
      · intro h t ht
        obtain ⟨w, hw, hparse⟩ := hread t ht
        obtain ⟨units, hunits, hbound⟩ := valid_targetValue_iff.mp (h _ hw)
        rwa [Except.ok.inj (hparse.symm.trans hunits)]
      · intro h m hm
        obtain ⟨t, ht, hparse⟩ := hall m hm
        exact valid_targetValue_iff.mpr ⟨t.2, hparse, h t ht⟩
    refine follows_require ?_ fun hrange => ?_
    · rw [shaped, and_iff_left fun w _ => valid_any w]
      exact hvalues
    refine follows_bind ?_
    rcases parseSlippage_spec document with ⟨herror, w, hw, hslippage⟩ |
      ⟨slippage, hok, -, hslippage⟩
    · exact .inl ⟨herror, fun h => hslippage ((shaped.mp h).2 w hw)⟩
    · exact .inr ⟨slippage, hok, shaped.mpr ⟨hvalues.mpr hrange, hslippage⟩, rfl⟩
  | _ => exact .inl ⟨by simp [Json.get?], rfl⟩

/-- What an accepted document asks for. -/
theorem parseDocument_exact {v : Json} (h : Strict v) {targets : List (Text × ℤ)}
    {slippage : Option ℤ} (hparse : parseDocument declaredMarkets v = .ok (targets, slippage)) :
    ∃ document, v = .obj document ∧ Exact document targets slippage := by
  cases h with
  | obj hnodup hstrict =>
    rename_i document
    refine ⟨document, rfl, ?_⟩
    by_cases hschema : Json.lookup (txt "schema") document = some (.str (txt "action/v1"))
    swap
    · rw [parseDocument_unnamed hschema] at hparse
      cases hparse
    rw [parseDocument_named hschema] at hparse
    simp only [bind_ok_iff, require_eq_ok] at hparse
    obtain ⟨_, -, _, -, hparse⟩ := hparse
    split at hparse
    · next target htarget =>
      have hmem := (Json.lookup_eq_some_iff hnodup).mp htarget
      obtain ⟨htargets, htargetsStrict⟩ : NodupKeys target ∧ ∀ m ∈ target, Strict m.2 := by
        cases hstrict _ hmem
        exact ⟨‹_›, ‹_›⟩
      simp only [parseTargets, bind_ok_iff, require_eq_ok] at hparse
      obtain ⟨_, -, targets', hread, _, hrange, slippage', hslippage, h⟩ := hparse
      obtain ⟨rfl, rfl⟩ := Prod.mk.inj (Except.ok.inj h)
      rcases parseTargets_spec htargets htargetsStrict with ⟨herror, -⟩ | ⟨targets, hok, haliases,
        hvalues, -⟩
      · exact absurd (hread.symm.trans herror) (by simp)
      obtain rfl := Except.ok.inj (hread.symm.trans hok)
      refine ⟨⟨target, htarget, haliases, fun t ht => ?_⟩, fun t ht => ?_, ?_⟩
      · obtain ⟨w, hw, hparse⟩ := hvalues t ht
        obtain ⟨q, hq, hunits⟩ := parseTarget_eq_ok.mp hparse
        exact ⟨w, q, hw, hq, hunits⟩
      · exact abs_le.mp (not_lt.mp (hrange t ht))
      · rcases parseSlippage_spec document with ⟨herror, -⟩ | ⟨slippage, hok, hlookup, -⟩
        · exact absurd (hslippage.symm.trans herror) (by simp)
        · rwa [Except.ok.inj (hslippage.symm.trans hok)]
    · cases hparse
  | _ => cases hparse

end WagmiBench.Core
