import WagmiBench.Core.ActionStages

/-!
# The language of `parse_action`

Among the byte strings that hold one strict JSON document, `parse_action` accepts those that follow
`action/v1` with declared markets, reads their targets exactly, and refuses the others for the first
stage they fail, in whatever order they name their members.
-/

namespace WagmiBench.Core

open WagmiBench.Lib
open Json (Schema NodupKeys Strict)

variable {declaredMarkets : List Text}

/-! ## Member order -/

theorem sameItems_iff {items items' : List Json} :
    Json.SameItems items items' ↔ List.Forall₂ Json.Same items items' := by
  induction items generalizing items' with
  | nil => simp [Json.SameItems]
  | cons v items ih =>
    simp only [Json.SameItems, ih, List.forall₂_cons_left_iff]
    constructor
    · rintro ⟨w, rest, rfl, hv, hrest⟩
      exact ⟨w, rest, hv, hrest, rfl⟩
    · rintro ⟨w, rest, hv, hrest, rfl⟩
      exact ⟨w, rest, rfl, hv, hrest⟩

/-- Two objects that are the same dictionary. -/
structure SameObject (a b : List (Text × Json)) : Prop where
  nodup : NodupKeys a
  nodup' : NodupKeys b
  members : Json.SameMembers a b
  length_eq : a.length = b.length

namespace SameObject

variable {a b : List (Text × Json)}

theorem keys (h : SameObject a b) : (a.map Prod.fst).Perm (b.map Prod.fst) := by
  refine (List.subperm_of_subset h.nodup fun key hkey => ?_).perm_of_length_le ?_
  · obtain ⟨m, hm, rfl⟩ := List.mem_map.mp hkey
    obtain ⟨w, hw, -⟩ := Json.sameMembers_iff.mp h.members m hm
    exact Schema.mem_keys_iff.mpr ⟨w, hw⟩
  · simp [h.length_eq]

/-- Both have a key, with the same value, or neither has it. -/
theorem lookup (h : SameObject a b) (key : Text) :
    (Json.lookup key a = none ∧ Json.lookup key b = none) ∨
      ∃ v w, Json.lookup key a = some v ∧ Json.lookup key b = some w ∧ v.Same w := by
  cases ha : Json.lookup key a with
  | none =>
    refine .inl ⟨rfl, ?_⟩
    by_contra hb
    obtain ⟨w, hw⟩ := Option.ne_none_iff_exists'.mp hb
    obtain ⟨v, hv⟩ := Schema.mem_keys_iff.mp
      (h.keys.mem_iff.mpr (Schema.mem_keys_iff.mpr ⟨w, hw⟩))
    simp [ha] at hv
  | some v =>
    obtain ⟨w, hw, hsame⟩ := Json.sameMembers_iff.mp h.members (key, v)
      ((Json.lookup_eq_some_iff h.nodup).mp ha)
    exact .inr ⟨v, w, rfl, hw, hsame⟩

/-- Every value in one is the value under the same key in the other. -/
theorem forall_iff (h : SameObject a b) {P : Json → Prop}
    (hP : ∀ m ∈ a, ∀ m' ∈ b, m.2.Same m'.2 → (P m.2 ↔ P m'.2)) :
    (∀ m ∈ a, P m.2) ↔ ∀ m ∈ b, P m.2 := by
  have pairs : ∀ key, key ∈ a.map Prod.fst → ∃ v w, (key, v) ∈ a ∧ (key, w) ∈ b ∧ v.Same w := by
    intro key hkey
    obtain ⟨v, hv⟩ := Schema.mem_keys_iff.mp hkey
    rcases h.lookup key with ⟨hnone, -⟩ | ⟨v, w, hv, hw, hsame⟩
    · simp [hv] at hnone
    · exact ⟨v, w, (Json.lookup_eq_some_iff h.nodup).mp hv,
        (Json.lookup_eq_some_iff h.nodup').mp hw, hsame⟩
  constructor
  · intro hall m hm
    obtain ⟨v, w, hv, hw, hsame⟩ := pairs m.1 (h.keys.mem_iff.mpr (List.mem_map_of_mem hm))
    obtain rfl : w = m.2 := congrArg Prod.snd (h.nodup'.eq_of_mem hw hm rfl)
    exact (hP _ hv _ hw hsame).mp (hall _ hv)
  · intro hall m hm
    obtain ⟨v, w, hv, hw, hsame⟩ := pairs m.1 (List.mem_map_of_mem hm)
    obtain rfl : v = m.2 := congrArg Prod.snd (h.nodup.eq_of_mem hv hm rfl)
    exact (hP _ hv _ hw hsame).mpr (hall _ hw)

end SameObject

theorem same_obj {a : List (Text × Json)} {w : Json} (hv : Strict (.obj a)) (hw : Strict w)
    (h : (Json.obj a).Same w) : ∃ b, w = .obj b ∧ SameObject a b := by
  simp only [Json.Same] at h
  obtain ⟨b, rfl, hlength, hmembers⟩ := h
  cases hv with
  | obj ha _ =>
    cases hw with
    | obj hb _ => exact ⟨b, rfl, ⟨ha, hb, hmembers, hlength⟩⟩

theorem validExtension_same {v w : Json} (hv : Strict v) (hw : Strict w) (h : v.Same w) :
    validExtension v = validExtension w := by
  induction hv generalizing w with
  | @arr items hitems ih =>
    simp only [Json.Same] at h
    obtain ⟨items', rfl, hsame⟩ := h
    have hall := sameItems_iff.mp hsame
    have hitems' : ∀ w ∈ items', Strict w := by
      cases hw
      assumption
    have item : ∀ v w, v ∈ items → w ∈ items' → v.Same w →
        (validExtension v = true ↔ validExtension w = true) := fun v w hv hw' h =>
      Bool.eq_iff_iff.mp (ih v hv (hitems' w hw') h)
    clear hw hitems hitems' ih hsame
    rw [Bool.eq_iff_iff, validExtension, validExtension, validItems_iff, validItems_iff]
    induction hall with
    | nil => simp
    | cons hvw _ ihall =>
      rw [List.forall_mem_cons, List.forall_mem_cons, item _ _ (by simp) (by simp) hvw,
        ihall fun v w hv hw h => item v w (by simp [hv]) (by simp [hw]) h]
  | @obj a hnodup hstrict ih =>
    obtain ⟨b, rfl, hsame⟩ := same_obj (.obj hnodup hstrict) hw h
    have hb : ∀ m ∈ b, Strict m.2 := by
      cases hw
      assumption
    rw [Bool.eq_iff_iff, validExtension, validExtension, validMembers_iff, validMembers_iff]
    exact hsame.forall_iff (P := fun v => validExtension v = true) fun m hm m' hm' h =>
      Bool.eq_iff_iff.mp (ih m hm (hb m' hm') h)
  | _ =>
    simp only [Json.Same] at h
    rw [← h]

theorem same_cases {v w : Json} (h : v.Same w) :
    v = w ∨ (∃ items items', v = .arr items ∧ w = .arr items') ∨
      ∃ a b, v = .obj a ∧ w = .obj b := by
  cases v with
  | arr items =>
    simp only [Json.Same] at h
    obtain ⟨items', rfl, -⟩ := h
    exact .inr (.inl ⟨items, items', rfl, rfl⟩)
  | obj members =>
    simp only [Json.Same] at h
    obtain ⟨members', rfl, -⟩ := h
    exact .inr (.inr ⟨members, members', rfl, rfl⟩)
  | _ =>
    simp only [Json.Same] at h
    exact .inl h

theorem isTokenCount_same {v w : Json} (h : v.Same w) : isTokenCount v = isTokenCount w := by
  rcases same_cases h with rfl | ⟨_, _, rfl, rfl⟩ | ⟨_, _, rfl, rfl⟩ <;> rfl

theorem parseTarget_same {v w : Json} (h : v.Same w) : parseTarget v = parseTarget w := by
  rcases same_cases h with rfl | ⟨_, _, rfl, rfl⟩ | ⟨_, _, rfl, rfl⟩ <;> rfl

variable {a b : List (Text × Json)}

/-- A key in two dictionaries that are the same: the same scalar or nothing, two arrays, or two
dictionaries that are the same. -/
theorem SameObject.cases (h : SameObject a b) (ha : ∀ m ∈ a, Strict m.2) (hb : ∀ m ∈ b, Strict m.2)
    (key : Text) :
    (Json.lookup key a = Json.lookup key b ∧ ∀ s, Json.lookup key b ≠ some (.obj s)) ∨
      (∃ items items', Json.lookup key a = some (.arr items) ∧
        Json.lookup key b = some (.arr items')) ∨
      ∃ s t, Json.lookup key a = some (.obj s) ∧ Json.lookup key b = some (.obj t) ∧
        SameObject s t ∧ (∀ m ∈ s, Strict m.2) ∧ ∀ m ∈ t, Strict m.2 := by
  rcases h.lookup key with ⟨hnone, hnone'⟩ | ⟨v, w, hv, hw, hsame⟩
  · exact .inl ⟨hnone.trans hnone'.symm, by simp [hnone']⟩
  · have hv' : Strict v := ha (key, v) ((Json.lookup_eq_some_iff h.nodup).mp hv)
    have hw' : Strict w := hb (key, w) ((Json.lookup_eq_some_iff h.nodup').mp hw)
    by_cases hobj : ∃ s, v = .obj s
    · obtain ⟨s, rfl⟩ := hobj
      obtain ⟨t, rfl, hst⟩ := same_obj hv' hw' hsame
      refine .inr (.inr ⟨s, t, hv, hw, hst, ?_, ?_⟩)
      · cases hv'
        assumption
      · cases hw'
        assumption
    · rcases same_cases hsame with rfl | ⟨items, items', rfl, rfl⟩ | ⟨s, t, rfl, rfl⟩
      · exact .inl ⟨hv.trans hw.symm, fun s hs => hobj ⟨s, Option.some.inj (hw.symm.trans hs)⟩⟩
      · exact .inr (.inl ⟨items, items', hv, hw⟩)
      · exact absurd ⟨s, rfl⟩ hobj

theorem SameObject.all_keys (h : SameObject a b) (p : Text → Bool) :
    (a.all fun m => p m.1) = b.all fun m => p m.1 := by
  have : ∀ l : List (Text × Json), (l.all fun m => p m.1) = (l.map Prod.fst).all p := fun l => by
    rw [List.all_map]
    rfl
  rw [this, this, h.keys.all_eq]

/-- The shape check does not depend on the order of members. -/
theorem v4ShapeIsValid_same (h : SameObject a b) (ha : ∀ m ∈ a, Strict m.2)
    (hb : ∀ m ∈ b, Strict m.2) : v4ShapeIsValid a = v4ShapeIsValid b := by
  unfold v4ShapeIsValid
  congr 1
  · congr 1
    · congr 1
      · congr 1
        · rcases h.cases ha hb (txt "intent_kind") with ⟨heq, -⟩ | ⟨_, _, hs, ht⟩ | ⟨s, t, hs, ht, -⟩
          · rw [heq]
          · rw [hs, ht]
            rfl
          · rw [hs, ht]
            rfl
        · rcases h.cases ha hb (txt "target") with ⟨heq, -⟩ | ⟨_, _, hs, ht⟩ | ⟨s, t, hs, ht, hst, -⟩
          · rw [heq]
          · rw [hs, ht]
          · rw [hs, ht]
            simp only [hst.length_eq, hst.all_keys]
      · rcases h.cases ha hb (txt "comment") with ⟨heq, -⟩ | ⟨_, _, hs, ht⟩ | ⟨s, t, hs, ht, -⟩
        · rw [heq]
        · rw [hs, ht]
        · rw [hs, ht]
    · rcases h.cases ha hb (txt "usage") with ⟨heq, -⟩ | ⟨_, _, hs, ht⟩ | ⟨s, t, hs, ht, hst, -⟩
      · rw [heq]
      · rw [hs, ht]
      · rw [hs, ht]
        have counts : (s.all fun m => isTokenCount m.2) = t.all fun m => isTokenCount m.2 := by
          rw [Bool.eq_iff_iff, List.all_eq_true, List.all_eq_true]
          exact hst.forall_iff (P := fun v => isTokenCount v = true) fun m _ m' _ h => by
            rw [isTokenCount_same h]
        simp only [counts]
        rw [hst.all_keys fun key => key = txt "input_tokens" || key = txt "output_tokens"]
  · rcases h.cases ha hb (txt "ext") with ⟨heq, -⟩ | ⟨_, _, hs, ht⟩ | ⟨s, t, hs, ht, hst, hs', ht'⟩
    · rw [heq]
    · rw [hs, ht]
    · rw [hs, ht, Bool.eq_iff_iff]
      simp only [validMembers_iff]
      exact hst.forall_iff (P := fun v => validExtension v = true) fun m hm m' hm' h => by
        rw [validExtension_same (hs' m hm) (ht' m' hm') h]

theorem parseSlippage_same (h : SameObject a b) (ha : ∀ m ∈ a, Strict m.2)
    (hb : ∀ m ∈ b, Strict m.2) : parseSlippage a = parseSlippage b := by
  unfold parseSlippage
  rcases h.cases ha hb (txt "max_slippage_bps") with ⟨heq, -⟩ | ⟨_, _, hs, ht⟩ | ⟨s, t, hs, ht, -⟩
  · rw [heq]
  · rw [hs, ht]
  · rw [hs, ht]

theorem parseTargets_same (h : SameObject a b) (ha : ∀ m ∈ a, Strict m.2)
    (hb : ∀ m ∈ b, Strict m.2) {s t : List (Text × Json)} (hst : SameObject s t) :
    parseTargets declaredMarkets a s = parseTargets declaredMarkets b t := by
  have value : ∀ key, parseTarget ((Json.lookup key s).getD .null) =
      parseTarget ((Json.lookup key t).getD .null) := by
    intro key
    rcases hst.lookup key with ⟨hs, ht⟩ | ⟨v, w, hs, ht, hsame⟩
    · rw [hs, ht]
    · rw [hs, ht]
      exact parseTarget_same hsame
  simp only [parseTargets, sortTexts_perm hst.keys, value, parseSlippage_same h ha hb]

/-- **Member order.** The same dictionary is parsed the same. -/
theorem parseDocument_same {v w : Json} (hv : Strict v) (hw : Strict w) (h : v.Same w) :
    parseDocument declaredMarkets v = parseDocument declaredMarkets w := by
  rcases same_cases h with rfl | ⟨_, _, rfl, rfl⟩ | ⟨a, b, rfl, rfl⟩
  · rfl
  · rfl
  · obtain ⟨b', hb', hab⟩ := same_obj hv hw h
    obtain rfl := Json.obj.inj hb'
    have ha : ∀ m ∈ a, Strict m.2 := by
      cases hv
      assumption
    have hb : ∀ m ∈ b, Strict m.2 := by
      cases hw
      assumption
    have hschema : Json.lookup (txt "schema") a = some (.str (txt "action/v1")) ↔
        Json.lookup (txt "schema") b = some (.str (txt "action/v1")) := by
      rcases hab.cases ha hb (txt "schema") with ⟨heq, -⟩ | ⟨_, _, hs, ht⟩ | ⟨s, t, hs, ht, -⟩
      · rw [heq]
      · simp [hs, ht]
      · simp [hs, ht]
    by_cases hnamed : Json.lookup (txt "schema") a = some (.str (txt "action/v1"))
    · have hknown : (∀ m ∈ a, m.1 ∈ KNOWN_TOP_LEVEL_FIELDS) ↔
          ∀ m ∈ b, m.1 ∈ KNOWN_TOP_LEVEL_FIELDS := by
        simpa using Bool.eq_iff_iff.mp (hab.all_keys fun key => key ∈ KNOWN_TOP_LEVEL_FIELDS)
      rw [parseDocument_named hnamed, parseDocument_named (hschema.mp hnamed),
        v4ShapeIsValid_same hab ha hb]
      simp only [hknown]
      rcases hab.cases ha hb (txt "target") with ⟨heq, hscalar⟩ | ⟨_, _, hs, ht⟩ | ⟨s, t, hs, ht, hst, -⟩
      · rw [heq]
        refine congrArg _ (funext fun _ => congrArg _ (funext fun _ => ?_))
        split
        · next hlookup => exact absurd hlookup (hscalar _)
        · rfl
      · rw [hs, ht]
      · rw [hs, ht]
        simp only [parseTargets_same hab ha hb hst]
    · rw [parseDocument_unnamed hnamed, parseDocument_unnamed fun h => hnamed (hschema.mpr h)]

/-! ## Accepted bytes -/

section Bytes

variable {limits : Json.Limits} {body : Bytes} {text : Text} {decoded : Json}

/-- A document without fractions is read by the action reader as it is. -/
theorem readDocument_strict (hlength : body.length ≤ MAX_ACTION_BYTES)
    (htext : utf8Decode false body = some text)
    (hread : Json.loads limits Json.strictHooks text = .ok decoded) :
    readDocument limits body = .ok decoded := by
  have hfloat : ∀ token v, Json.strictHooks.parseFloat token = .ok v →
      actionHooks.parseFloat token = .ok v := fun _ _ h => nomatch h
  have hloads : Json.loads limits actionHooks text = .ok decoded := Json.loads_mono hfloat hread
  rw [readDocument, require_pos hlength, ok_bind, htext]
  simp only [hloads]
  rfl

/-- A document follows the schemas that ask for less. -/
theorem valid_weaken {document : List (Text × Json)} (hnodup : NodupKeys document)
    {targetValue targetValue' slippage slippage' : Schema}
    (htarget : ∀ w, Schema.Valid actionDefs targetValue w → Schema.Valid actionDefs targetValue' w)
    (hslippage : ∀ w, Schema.Valid actionDefs slippage w → Schema.Valid actionDefs slippage' w)
    (h : Schema.Valid actionDefs (actionSchema targetValue slippage) (.obj document)) :
    Schema.Valid actionDefs (actionSchema targetValue' slippage') (.obj document) := by
  obtain ⟨hknown, hschema, hintent, ⟨target, hlookup, hcount, hnames, hvalues⟩, hbound, hrest⟩ :=
    (valid_action_iff hnodup).mp h
  exact (valid_action_iff hnodup).mpr ⟨hknown, hschema, hintent,
    ⟨target, hlookup, hcount, hnames, fun m hm => htarget _ (hvalues m hm)⟩,
    fun w hw => hslippage _ (hbound w hw), hrest⟩

/-- A document passes every stage when it follows the schema and its markets are declared. -/
theorem passes_iff (h : Strict decoded) : FirstFailing decoded (stages declaredMarkets) none ↔
    Schema.Valid actionDefs ACTION_V1 decoded ∧ Declared declaredMarkets decoded := by
  rw [firstFailing_none_iff]
  simp only [stages, List.forall_mem_cons, List.not_mem_nil, false_imp_iff, implies_true, and_true]
  constructor
  · rintro ⟨-, -, -, hdeclared, -, -, hvalid⟩
    exact ⟨hvalid, hdeclared⟩
  · rintro ⟨hvalid, hdeclared⟩
    have any : ∀ (s : Schema) w, Schema.Valid actionDefs s w → Schema.Valid actionDefs ANY w :=
      fun _ w _ => valid_any w
    have format : ∀ w, Schema.Valid actionDefs TARGET_VALUE w →
        Schema.Valid actionDefs TARGET_FORMAT w := fun w hw => by
      obtain ⟨units, hunits, -⟩ := valid_targetValue_iff.mp hw
      exact valid_targetFormat_iff.mpr ⟨units, hunits⟩
    cases h with
    | obj hnodup _ =>
      obtain ⟨hknown, hschema, -⟩ := (valid_action_iff hnodup).mp hvalid
      refine ⟨hschema, fun document hdocument => Json.obj.inj hdocument ▸ hknown,
        valid_weaken hnodup (any _) (any _) hvalid, hdeclared,
        valid_weaken hnodup format (any _) hvalid,
        valid_weaken hnodup (fun _ => id) (any _) hvalid, hvalid⟩
    | _ =>
      have := Schema.valid_all.mp hvalid
      simp at this

/-- **The action language.** -/
theorem parseAction_language {fromAttempt : ℕ} (hlength : body.length ≤ MAX_ACTION_BYTES)
    (htext : utf8Decode false body = some text)
    (hread : Json.loads limits Json.strictHooks text = .ok decoded) (hattempt : 1 ≤ fromAttempt) :
    ∃ result, parseAction limits declaredMarkets body fromAttempt = .ok result ∧
      ((∃ action, result = .accepted action) ↔
        Schema.Valid actionDefs ACTION_V1 decoded ∧ Declared declaredMarkets decoded) ∧
      (∀ action, result = .accepted action → action.fromAttempt = fromAttempt ∧
        ∃ document, decoded = .obj document ∧
          Exact document action.targetLev1e4 action.maxSlippageBps) ∧
      (∀ reason, result = .rejected reason ↔
        FirstFailing decoded (stages declaredMarkets) (some reason)) ∧
      ∀ body' text' decoded', body'.length ≤ MAX_ACTION_BYTES →
        utf8Decode false body' = some text' →
        Json.loads limits Json.strictHooks text' = .ok decoded' → decoded.Same decoded' →
        parseAction limits declaredMarkets body' fromAttempt = .ok result := by
  have hstrict := Json.strict_of_loads hread
  have hfollows : Follows decoded (stages declaredMarkets)
      (parseDocument declaredMarkets decoded) := parseDocument_follows hstrict
  have accepted : FirstFailing decoded (stages declaredMarkets) none ↔ _ := passes_iff hstrict
  have order : ∀ body' text' decoded', body'.length ≤ MAX_ACTION_BYTES →
      utf8Decode false body' = some text' →
      Json.loads limits Json.strictHooks text' = .ok decoded' → decoded.Same decoded' →
      parseAction limits declaredMarkets body' fromAttempt =
        parseAction limits declaredMarkets body fromAttempt := by
    intro body' text' decoded' hlength' htext' hread' hsame
    unfold parseAction
    rw [readDocument_strict hlength htext hread, readDocument_strict hlength' htext' hread',
      ok_bind, ok_bind, parseDocument_same hstrict (Json.strict_of_loads hread') hsame]
  cases hparse : parseDocument declaredMarkets decoded with
  | error reason =>
    rw [hparse] at hfollows
    have hresult : parseAction limits declaredMarkets body fromAttempt = .ok (.rejected reason) := by
      rw [parseAction, readDocument_strict hlength htext hread, ok_bind, hparse]
    refine ⟨_, hresult, ?_, by simp, fun reason' => ?_, fun b t d hb ht hd hsame =>
      (order b t d hb ht hd hsame).trans hresult⟩
    · rw [← accepted]
      exact ⟨fun ⟨_, h⟩ => (by cases h), fun h => absurd (hfollows.unique h) (by simp)⟩
    · constructor
      · rintro ⟨⟩
        exact hfollows
      · intro h
        rw [Option.some.inj (hfollows.unique h)]
  | ok parsed =>
    obtain ⟨targets, slippage⟩ := parsed
    rw [hparse] at hfollows
    have hresult : parseAction limits declaredMarkets body fromAttempt =
        .ok (.accepted ⟨targets, slippage, fromAttempt⟩) := by
      rw [parseAction, readDocument_strict hlength htext hread, ok_bind, hparse]
      simp only [require_pos hattempt]
      rfl
    refine ⟨_, hresult, ?_, ?_, fun reason => ?_, fun b t d hb ht hd hsame =>
      (order b t d hb ht hd hsame).trans hresult⟩
    · rw [← accepted]
      exact ⟨fun _ => hfollows, fun _ => ⟨_, rfl⟩⟩
    · rintro action ⟨⟩
      exact ⟨rfl, parseDocument_exact hstrict hparse⟩
    · exact ⟨fun h => (by cases h), fun h => absurd (hfollows.unique h) (by simp)⟩

end Bytes

/-- Two targets, the short one first. -/
def hedgeDocument : Json :=
  .obj [(txt "schema", .str (txt "action/v1")),
    (txt "target", .obj [(txt "ETH", .str (txt "-0.25")), (txt "BTC", .int 1)])]

def hedgeBytes : Bytes := (utf8Encode hedgeDocument.emit).getD []

def hedgeLimits : Json.Limits where
  maxDepth := 1_000
  depth_ge := by decide
  digits_ge := by decide

/-- A hedge follows `action/v1`, and is read to four digits. -/
theorem parseAction_language_hedge : Schema.Valid actionDefs ACTION_V1 hedgeDocument ∧
    parseAction hedgeLimits [txt "ETH", txt "BTC"] hedgeBytes 1 =
      .ok (.accepted ⟨[(txt "BTC", 10_000), (txt "ETH", -2_500)], none, 1⟩) := by
  have hparse : parseAction hedgeLimits [txt "ETH", txt "BTC"] hedgeBytes 1 =
      .ok (.accepted ⟨[(txt "BTC", 10_000), (txt "ETH", -2_500)], none, 1⟩) := by decide +kernel
  obtain ⟨result, hresult, hvalid, -⟩ := @parseAction_language [txt "ETH", txt "BTC"] hedgeLimits
    hedgeBytes hedgeDocument.emit hedgeDocument 1 (by decide +kernel) (by decide +kernel) (by decide +kernel)
    (by decide)
  obtain rfl := Except.ok.inj (hparse.symm.trans hresult)
  exact ⟨(hvalid.mp ⟨_, rfl⟩).1, hparse⟩

end WagmiBench.Core
