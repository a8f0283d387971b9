import WagmiBench.Agents.Contract
import WagmiBench.Core.ActionLanguage
import WagmiBench.Lib.JsonSize

/-!
# Two validators of one document

A document that `validate_action_document` accepts travels as canonical bytes and is validated again
by `parse_action`. The agent takes an optional member that is null for absent, and the engine does
not: on the documents the agent accepts and can encode, that and the engine's nesting limit are the
whole difference.
-/

namespace WagmiBench.Agents

open WagmiBench.Lib WagmiBench.Core WagmiBench.Spec
open Json (Schema NodupKeys Strict)

/-! ## Encoding -/

/-- The two interpreters of a run. Each nests as deep as its own stack lets it; both convert integers
of the same number of digits. -/
structure Runtime where
  agent : Json.Limits
  engine : Json.Limits
  /-- How deep the agent's `json.dumps` nests. -/
  dumpsDepth : ℕ
  dumpsDepth_ge : 16 ≤ dumpsDepth
  digits_eq : agent.maxDigits = engine.maxDigits

/-- A value as the agent's `json.dumps` meets it. -/
def Runtime.document (runtime : Runtime) (value : Json) : Document :=
  if runtime.dumpsDepth < value.depth then .failing (txt "RecursionError")
  else if Json.intsWithin runtime.agent.maxDigits value then .json value
  else .unserializable

/-- `canonical_json_bytes` of a mapping. -/
def Runtime.encode (runtime : Runtime) (members : List (Text × Json)) : Except PolicyError Bytes :=
  canonicalJsonBytes (runtime.document (.obj members))

theorem finiteFloats_of_strict {v : Json} (h : Strict v) : finiteFloats v = true := by
  have items : ∀ items : List Json, (∀ v ∈ items, finiteFloats.go v = true) →
      finiteFloats.goItems items = true := by
    intro items
    induction items with
    | nil => simp [finiteFloats.goItems]
    | cons v items ih =>
      intro h
      obtain ⟨hv, hitems⟩ := List.forall_mem_cons.mp h
      rw [finiteFloats.goItems, hv, ih hitems, Bool.and_self]
  have members : ∀ members : List (Text × Json), (∀ m ∈ members, finiteFloats.go m.2 = true) →
      finiteFloats.goMembers members = true := by
    intro members
    induction members with
    | nil => simp [finiteFloats.goMembers]
    | cons m members ih =>
      intro h
      obtain ⟨hm, hmembers⟩ := List.forall_mem_cons.mp h
      rw [finiteFloats.goMembers, hm, ih hmembers, Bool.and_self]
  change finiteFloats.go v = true
  induction h with
  | arr _ ih => exact items _ ih
  | obj _ _ ih => exact members _ ih
  | _ => rfl

variable {runtime : Runtime} {members : List (Text × Json)} {body : Bytes}

/-- A strict document is encoded when it nests no deeper and its integers are no longer than the
interpreter can write, and its text is valid Unicode. -/
theorem Runtime.encode_eq_ok (hstrict : Strict (.obj members)) :
    runtime.encode members = .ok body ↔ (Json.obj members).depth ≤ runtime.dumpsDepth ∧
      Json.intsWithin runtime.agent.maxDigits (.obj members) = true ∧
      utf8Encode (Json.dumps false (.obj members)) = some body := by
  rw [Runtime.encode, Runtime.document]
  by_cases hdepth : runtime.dumpsDepth < (Json.obj members).depth
  · rw [if_pos hdepth]
    simp [canonicalJsonBytes, not_le.mpr hdepth]
  rw [if_neg hdepth]
  by_cases hints : Json.intsWithin runtime.agent.maxDigits (.obj members) = true
  · rw [if_pos hints, canonicalJsonBytes]
    simp only [not_lt.mp hdepth, hints, true_and, finiteFloats_of_strict hstrict, if_true]
    cases utf8Encode (Json.dumps false (.obj members)) <;> simp
  · rw [if_neg hints]
    simp [canonicalJsonBytes, hints]

/-! ## The engine's side -/

/-- `parse_action`'s answer, from what it read of the document. -/
def answerOf (attempt : ℕ) (outcome : Except ActionReason (List (Text × ℤ) × Option ℤ)) :
    ActionParseResult :=
  match outcome with
  | .error reason => .rejected reason
  | .ok parsed => .accepted ⟨parsed.1, parsed.2, attempt⟩

/-- What the engine makes of encoded bytes: it accepts what follows `action/v1` with declared markets
and nests no deeper than it reads, and reads it exactly. -/
theorem parseAction_encode (hstrict : Strict (.obj members))
    (hbody : runtime.encode members = .ok body) (hlength : body.length ≤ Core.MAX_ACTION_BYTES)
    {declaredMarkets : List Text} {attempt : ℕ} (hattempt : 1 ≤ attempt) :
    ((∃ action, parseAction runtime.engine declaredMarkets body attempt = .ok (.accepted action)) ↔
      (Json.obj members).depth ≤ runtime.engine.maxDepth ∧
        Schema.Valid actionDefs ACTION_V1 (.obj members) ∧ Declared declaredMarkets (.obj members)) ∧
    ∀ action, parseAction runtime.engine declaredMarkets body attempt = .ok (.accepted action) →
      Exact members action.targetLev1e4 action.maxSlippageBps := by
  obtain ⟨-, hints, htext⟩ := (Runtime.encode_eq_ok hstrict).mp hbody
  rw [runtime.digits_eq] at hints
  have hdecode : utf8Decode false body = some (Json.dumps false (.obj members)) :=
    utf8Decode_encode htext
  by_cases hdepth : (Json.obj members).depth ≤ runtime.engine.maxDepth
  · have hread := (Json.loads_dumps Json.strictHooks_faithful hstrict hints).1 hdepth
    have hsorted := hstrict.restates_sortKeys
    have hparse : parseAction runtime.engine declaredMarkets body attempt =
        .ok (answerOf attempt (parseDocument declaredMarkets (.obj members))) := by
      rw [parseAction, readDocument_strict hlength hdecode hread, ok_bind,
        ← parseDocument_same hstrict hsorted.strict hsorted.same]
      cases parseDocument declaredMarkets (.obj members) with
      | error reason => rfl
      | ok parsed =>
        simp only [require_pos hattempt]
        rfl
    have hpasses := @passes_iff declaredMarkets _ hstrict
    have hfollows := @parseDocument_follows declaredMarkets _ hstrict
    cases hdocument : parseDocument declaredMarkets (.obj members) with
    | error reason =>
      rw [hdocument] at hparse hfollows
      refine ⟨⟨fun haccepted => ?_, fun h => ?_⟩, fun action h => ?_⟩
      · obtain ⟨action, h⟩ := haccepted
        simp [hparse, answerOf] at h
      · exact absurd (FirstFailing.unique (hpasses.mpr h.2) hfollows) (by simp)
      · simp [hparse, answerOf] at h
    | ok parsed =>
      rw [hdocument] at hparse hfollows
      refine ⟨⟨fun _ => ⟨hdepth, hpasses.mp hfollows⟩, fun _ => ⟨_, hparse⟩⟩, fun action h => ?_⟩
      obtain rfl : (⟨parsed.1, parsed.2, attempt⟩ : ParsedAction) = action := by
        simpa [answerOf] using hparse.symm.trans h
      obtain ⟨document, heq, hexact⟩ := parseDocument_exact hstrict hdocument
      exact Json.obj.inj heq ▸ hexact
  · -- nested deeper than the engine reads
    have hfaithful : actionHooks.Faithful := Json.strictHooks_faithful
    have hrefused : parseAction runtime.engine declaredMarkets body attempt =
        .ok (.rejected .invalidJson) := by
      have hread := (Json.loads_dumps (H := actionHooks) hfaithful hstrict hints).2 (not_le.mp hdepth)
      rw [parseAction, readDocument, require_pos hlength, ok_bind, hdecode]
      cases hloads : Json.loads runtime.engine actionHooks (Json.dumps false (.obj members)) with
      | ok u => exact absurd hloads (hread u)
      | error e => simp only [hloads]; rfl
    refine ⟨⟨fun haccepted => ?_, fun h => absurd h.1 hdepth⟩, fun action h => ?_⟩
    · obtain ⟨action, h⟩ := haccepted
      simp [hrefused] at h
    · simp [hrefused] at h

/-! ## Null members -/

/-- Members that the agent takes for absent when they are null. -/
def NULLABLE : List Text := ["max_slippage_bps", "comment", "usage"].map txt

/-- The document without its null members. -/
def withoutNulls (action : List (Text × Json)) : List (Text × Json) :=
  action.filter fun m => ¬ (m.1 ∈ NULLABLE ∧ m.2 = .null)

/-- No optional member is written as null. -/
def NoNulls (action : List (Text × Json)) : Prop :=
  ∀ key ∈ NULLABLE, Json.lookup key action ≠ some .null

/-- The targets are for markets that are observed, for all of them where that is asked. -/
def TargetsMarkets (aliases : List Text) (requireAllMarkets : Bool)
    (action : List (Text × Json)) : Prop :=
  ∀ target, Json.lookup (txt "target") action = some (.obj target) →
    (∀ m ∈ target, m.1 ∈ aliases) ∧
      (requireAllMarkets → ∀ a ∈ aliases, a ∈ target.map Prod.fst)

variable {aliases : List Text} {requireAllMarkets : Bool} {action : List (Text × Json)}

/-- What the agent accepted follows `action/v1` unless a member is null. -/
theorem Accepted.valid_iff (h : Accepted aliases requireAllMarkets action)
    (hnodup : NodupKeys action) :
    Schema.Valid actionDefs ACTION_V1 (.obj action) ↔ NoNulls action := by
  have hnull : NoNulls action ↔ Json.lookup (txt "max_slippage_bps") action ≠ some .null ∧
      Json.lookup (txt "comment") action ≠ some .null ∧
      Json.lookup (txt "usage") action ≠ some .null := by
    simp [NoNulls, NULLABLE]
  rw [hnull, ACTION_V1, valid_action_iff hnodup]
  constructor
  · rintro ⟨-, -, -, -, hslippage, hcomment, husage, -⟩
    refine ⟨fun hn => ?_, fun hn => ?_, fun hn => ?_⟩
    · simpa [SLIPPAGE] using hslippage _ hn
    · simpa using hcomment _ hn
    · simpa [Schema.valid_object] using husage _ hn
  · rintro ⟨hslippage, hcomment, husage⟩
    obtain ⟨target, htarget, hcount, hnames, hvalues, -⟩ := h.target
    exact ⟨h.known, h.schema, h.intent, ⟨target, htarget, hcount, hnames, hvalues⟩,
      fun w hw => h.slippage w hw fun hn => hslippage (hn ▸ hw),
      fun w hw => h.comment w hw fun hn => hcomment (hn ▸ hw),
      fun w hw => h.usage w hw fun hn => husage (hn ▸ hw), h.ext⟩

theorem lookup_filter (hnodup : NodupKeys action) (p : Text × Json → Bool) (key : Text) :
    Json.lookup key (action.filter p) = (Json.lookup key action).filter fun v => p (key, v) := by
  have hfilter : NodupKeys (action.filter p) :=
    hnodup.sublist (List.filter_sublist.map Prod.fst)
  ext v
  rw [Json.lookup_eq_some_iff hfilter, List.mem_filter, Option.filter_eq_some_iff,
    Json.lookup_eq_some_iff hnodup]

theorem nodupKeys_filter (hnodup : NodupKeys action) (p : Text × Json → Bool) :
    NodupKeys (action.filter p) :=
  hnodup.sublist (List.filter_sublist.map Prod.fst)

/-- The agent accepts what follows `action/v1` once its null members are dropped. -/
theorem accepted_iff (hnodup : NodupKeys action) : Accepted aliases requireAllMarkets action ↔
    Schema.Valid actionDefs ACTION_V1 (.obj (withoutNulls action)) ∧
      TargetsMarkets aliases requireAllMarkets action := by
  have kept : ∀ key, key ∉ NULLABLE →
      Json.lookup key (withoutNulls action) = Json.lookup key action := by
    intro key hkey
    rw [withoutNulls, lookup_filter hnodup]
    cases Json.lookup key action <;> simp [Option.filter, hkey]
  have dropped : ∀ key ∈ NULLABLE, ∀ {P : Json → Prop},
      (∀ w, Json.lookup key (withoutNulls action) = some w → P w) ↔
        ∀ w, Json.lookup key action = some w → w ≠ .null → P w := by
    intro key hkey P
    rw [withoutNulls, lookup_filter hnodup]
    simp [Option.filter_eq_some_iff, hkey]
  have known : (∀ m ∈ withoutNulls action, m.1 ∈ KNOWN_TOP_LEVEL_FIELDS) ↔
      ∀ m ∈ action, m.1 ∈ KNOWN_TOP_LEVEL_FIELDS := by
    refine ⟨fun h m hm => ?_, fun h m hm => h m (List.mem_of_mem_filter hm)⟩
    by_cases hn : m.1 ∈ NULLABLE
    · have : ∀ key ∈ NULLABLE, key ∈ KNOWN_TOP_LEVEL_FIELDS := by decide
      exact this _ hn
    · exact h m (List.mem_filter.mpr ⟨hm, by simp [hn]⟩)
  have hkept : NodupKeys (withoutNulls action) := nodupKeys_filter hnodup _
  rw [ACTION_V1, valid_action_iff hkept, known, kept (txt "schema") (by decide),
    kept (txt "intent_kind") (by decide), kept (txt "target") (by decide),
    kept (txt "ext") (by decide), dropped (txt "max_slippage_bps") (by decide),
    dropped (txt "comment") (by decide), dropped (txt "usage") (by decide)]
  constructor
  · intro h
    obtain ⟨target, htarget, hcount, hnames, hvalues, hmarkets⟩ := h.target
    refine ⟨⟨h.known, h.schema, h.intent, ⟨target, htarget, hcount, hnames, hvalues⟩, h.slippage,
      h.comment, h.usage, h.ext⟩, fun target' htarget' => ?_⟩
    obtain rfl := Json.obj.inj (Option.some.inj (htarget.symm.trans htarget'))
    exact hmarkets
  · rintro ⟨⟨hknown, hschema, hintent, ⟨target, htarget, hcount, hnames, hvalues⟩, hslippage,
      hcomment, husage, hext⟩, hmarkets⟩
    exact ⟨hknown, hschema, hintent, ⟨target, htarget, hcount, hnames, hvalues, hmarkets _ htarget⟩,
      hslippage, hcomment, husage, hext⟩

/-! ## Documents the agent accepts -/

mutual

/-- An extension value holds no fractions. -/
theorem strict_of_validExtension : ∀ v : Json, validExtension v = true → v.Distinct → Strict v
  | .null => fun _ _ => .null
  | .bool _ => fun _ _ => .bool
  | .int _ => fun _ _ => .int
  | .str _ => fun _ _ => .str
  | .float _ => fun h _ => by simp [validExtension] at h
  | .arr items => fun h hd => .arr (strict_of_validItems items h hd)
  | .obj members => fun h hd => .obj hd.1 (strict_of_validMembers members h hd.2)

/-- `strict_of_validExtension` for items. -/
theorem strict_of_validItems : ∀ items : List Json, validItems items = true →
    Json.DistinctItems items → ∀ v ∈ items, Strict v
  | [] => fun _ _ => by simp
  | v :: items => fun h hd => by
    rw [validItems, Bool.and_eq_true] at h
    exact List.forall_mem_cons.mpr
      ⟨strict_of_validExtension v h.1 hd.1, strict_of_validItems items h.2 hd.2⟩

/-- `strict_of_validExtension` for the values of members. -/
theorem strict_of_validMembers : ∀ members : List (Text × Json), validMembers members = true →
    Json.DistinctMembers members → ∀ m ∈ members, Strict m.2
  | [] => fun _ _ => by simp
  | (k, v) :: members => fun h hd => by
    rw [validMembers, Bool.and_eq_true] at h
    exact List.forall_mem_cons.mpr
      ⟨strict_of_validExtension v h.1 hd.1, strict_of_validMembers members h.2 hd.2⟩

end

theorem strict_of_targetValue {w : Json} (h : Schema.Valid actionDefs TARGET_VALUE w) : Strict w := by
  cases w with
  | int => exact .int
  | str => exact .str
  | _ => simp [TARGET_VALUE] at h

theorem strict_of_usage {w : Json} (h : Schema.Valid actionDefs USAGE w) (hd : w.Distinct) :
    Strict w := by
  obtain ⟨usage, rfl, -⟩ := Schema.valid_object.mp h
  rw [Json.Distinct, Json.distinctMembers_iff] at hd
  refine .obj hd.1 fun m hm => ?_
  have hcount := ((valid_usage_iff hd.1).mp h).2 m hm
  cases hm2 : m.2 with
  | int => exact .int
  | _ => simp [hm2, isTokenCount] at hcount

/-- A mapping the agent accepts holds no fractions. -/
theorem Accepted.strict (h : Accepted aliases requireAllMarkets action)
    (hdistinct : (Json.obj action).Distinct) : Strict (.obj action) := by
  rw [Json.Distinct, Json.distinctMembers_iff] at hdistinct
  refine .obj hdistinct.1 fun m hm => ?_
  obtain ⟨key, w⟩ := m
  have hlookup : Json.lookup key action = some w := (Json.lookup_eq_some_iff hdistinct.1).mpr hm
  have hw : w.Distinct := hdistinct.2 _ hm
  by_cases hnull : w = .null
  · exact hnull ▸ .null
  have hknown := h.known _ hm
  simp only [KNOWN_TOP_LEVEL_FIELDS, List.map_cons, List.map_nil, List.mem_cons, List.not_mem_nil,
    or_false] at hknown
  rcases hknown with rfl | rfl | rfl | rfl | rfl | rfl | rfl
  · obtain rfl := Option.some.inj (hlookup.symm.trans h.schema)
    exact .str
  · obtain rfl := h.intent _ hlookup
    exact .str
  · obtain ⟨target, htarget, -, -, hvalues, -⟩ := h.target
    obtain rfl := Option.some.inj (hlookup.symm.trans htarget)
    exact .obj hw.1 fun m hm => strict_of_targetValue (hvalues m hm)
  · obtain ⟨n, rfl, -⟩ := Schema.valid_integer.mp (h.slippage _ hlookup hnull)
    exact .int
  · obtain ⟨comment, rfl, -⟩ := h.comment _ hlookup hnull
    exact .str
  · exact strict_of_usage (h.usage _ hlookup hnull) hw
  · obtain ⟨ext, rfl, hext⟩ := h.ext _ hlookup
    exact strict_of_validExtension _ hext hw

/-- The targets of an accepted document are for declared markets. -/
theorem Accepted.declared (h : Accepted aliases requireAllMarkets action) :
    Declared aliases (.obj action) := by
  obtain ⟨target, htarget, -, -, -, hmarkets, -⟩ := h.target
  intro target' htarget' m hm
  obtain rfl := Json.obj.inj (Option.some.inj (htarget.symm.trans htarget'))
  exact hmarkets m hm

/-- **Two validators.** Of a mapping that the agent accepts and encodes within the action limit, the
engine accepts the bytes when no optional member is null and it reads as deep as the mapping nests. -/
theorem Accepted.engine_accepts_iff (h : Accepted aliases requireAllMarkets action)
    (hdistinct : (Json.obj action).Distinct) (hbody : runtime.encode action = .ok body)
    (hlength : body.length ≤ Core.MAX_ACTION_BYTES) {attempt : ℕ} (hattempt : 1 ≤ attempt) :
    (∃ parsed, parseAction runtime.engine aliases body attempt = .ok (.accepted parsed)) ↔
      NoNulls action ∧ (Json.obj action).depth ≤ runtime.engine.maxDepth := by
  rw [(parseAction_encode (h.strict hdistinct) hbody hlength hattempt).1,
    h.valid_iff (Json.Distinct.eq_def (.obj action) ▸ hdistinct).1]
  exact ⟨fun ⟨hdepth, hnulls, _⟩ => ⟨hnulls, hdepth⟩,
    fun ⟨hnulls, hdepth⟩ => ⟨hdepth, hnulls, h.declared⟩⟩

end WagmiBench.Agents
