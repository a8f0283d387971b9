import WagmiBench.Agents.Agreement

/-!
# A paid completion

`LLMBaselinePolicy.decide` of `agents/llm.py`: from what a provider answered to the document the
policy returns, or to the evidence of an invalid completion. What the provider answered is paid for
either way; it is lost when the document is one that the engine refuses, or cannot be encoded, and
when an exception leaves the policy that carries no evidence.
-/

namespace WagmiBench.Agents

open WagmiBench.Lib WagmiBench.Core WagmiBench.Spec
open Json (Schema NodupKeys Strict ValidUnicode)

/-! ## The policy -/

abbrev MAX_IJSON_INTEGER : ℤ := 2 ^ 53 - 1

abbrev CACHED_INPUT_EXTENSION_KEY : Text := txt "x_tradeevolve_cached_input_tokens"

/-- `ProviderResult` -/
structure ProviderResult where
  content : Text
  inputTokens : Option ℤ
  outputTokens : Option ℤ
  finishReason : Option Text
  contentIsText : Bool
  cachedInputTokens : Option ℤ

namespace ProviderResult

variable (result : ProviderResult)

/-- The reason a completion is invalid before its content is read. -/
def invalidReason : Option Text :=
  if result.finishReason ≠ some (txt "stop") then some (txt "finish_reason_not_stop")
  else if result.contentIsText = false then some (txt "content_not_text")
  else if result.content = [] then some (txt "empty_content")
  else none

/-- The evidence of an invalid completion. -/
def evidence (reason : Text) : InvalidActionEvidence where
  providerOutput := result.content
  inputTokens := result.inputTokens
  outputTokens := result.outputTokens
  finishReason := result.finishReason
  reason := reason
  cachedInputTokens := result.cachedInputTokens

/-- Every reported count is in the JCS-safe range. -/
def CountsInRange : Prop :=
  ∀ count ∈ [result.inputTokens, result.outputTokens, result.cachedInputTokens],
    ∀ n ∈ count, 0 ≤ n ∧ n ≤ MAX_IJSON_INTEGER

instance : Decidable result.CountsInRange :=
  inferInstanceAs (Decidable (∀ count ∈ [_, _, _], ∀ n ∈ count, 0 ≤ n ∧ n ≤ MAX_IJSON_INTEGER))

/-- No more input was cached than there was. -/
def CachedWithinInput : Prop :=
  ∀ cached ∈ result.cachedInputTokens, ∀ input ∈ result.inputTokens, cached ≤ input

instance : Decidable result.CachedWithinInput :=
  inferInstanceAs (Decidable (∀ cached ∈ result.cachedInputTokens, ∀ input ∈ result.inputTokens,
    cached ≤ input))

/-- The `usage` of an action, from the provider's own counts. -/
def usage : List (Text × Json) :=
  match result.inputTokens, result.outputTokens with
  | some input, some output =>
    [(txt "usage", .obj [(txt "input_tokens", .int input), (txt "output_tokens", .int output)])]
  | _, _ => []

/-- The `ext` of an action, from the provider's own count. -/
def ext : List (Text × Json) :=
  match result.cachedInputTokens with
  | some cached => [(txt "ext", .obj [(CACHED_INPUT_EXTENSION_KEY, .int cached)])]
  | none => []

end ProviderResult

/-- What leaves the decoder, inside the policy. -/
def DecodeError.raised : DecodeError → PolicyError
  | .contract _ => .contract
  | .recursion => .other (txt "RecursionError")
  | .digits => .other (txt "ValueError")

/-- The content without a `usage` of its own: `action.pop("usage", None)`. -/
def withoutUsage (written : List (Text × Json)) : List (Text × Json) :=
  written.filter fun m => m.1 ≠ txt "usage"

/-- The document of a completion, from its content. -/
def actionOf (aliases : List Text) (result : ProviderResult) (written : List (Text × Json)) :
    Except PolicyError (List (Text × Json)) := do
  let action := withoutUsage written
  -- telemetry is the provider's: the model may claim a usage of its own, but no extension
  require (txt "ext" ∉ action.map Prod.fst) .contract
  let validated ← contractual (validateActionDocument (action ++ result.usage) aliases true)
  contractual (validateActionDocument (validated ++ result.ext) aliases true)

/-- What `decide` tries on a completion that stopped with text. -/
def paidAction (limits : Json.Limits) (aliases : List Text) (result : ProviderResult) :
    Except PolicyError (List (Text × Json)) := do
  require result.CountsInRange .contract
  require result.CachedWithinInput .contract
  match decodeActionObject limits result.content with
  | .ok written => actionOf aliases result written
  | .error e => .error e.raised

/-- `LLMBaselinePolicy`: its prompt, and what its provider answers. -/
structure LLMBaselinePolicy where
  systemPrompt : Text
  complete : Text → List (Text × Json) → Option (List (Text × Json)) →
    Except PolicyError ProviderResult

/-- What `decide` makes of the provider's answer. -/
def decideCompletion (limits : Json.Limits) (aliases : List Text) (result : ProviderResult) :
    Except PolicyError (List (Text × Json)) :=
  match result.invalidReason with
  | some reason => .error (.invalidAction (result.evidence reason))
  | none =>
    match paidAction limits aliases result with
    | .error .contract => .error (.invalidAction (result.evidence (txt "action_contract_invalid")))
    | outcome => outcome

/-- `LLMBaselinePolicy.decide` -/
def LLMBaselinePolicy.decide (limits : Json.Limits) (policy : LLMBaselinePolicy)
    (request : List (Text × Json)) : Except PolicyError (List (Text × Json)) := do
  let observation ← contractual (validateRunnerRequest request)
  let feedback ← contractual (runnerRetryFeedback request)
  let aliases ← contractual (marketAliases observation)
  let result ← policy.complete policy.systemPrompt observation feedback
  decideCompletion limits aliases result

/-! ## What a completion comes to -/

/-- Nothing paid for is lost: the engine accepts the document's bytes and reads the targets and the
slippage bound the model wrote, or the evidence carries what the provider counted. -/
def Kept (runtime : Runtime) (aliases : List Text) (result : ProviderResult) :
    Except PolicyError (List (Text × Json)) → Prop
  | .ok document => ∃ written body,
      Json.loads runtime.agent Json.strictHooks result.content = .ok (.obj written) ∧
      runtime.encode document = .ok body ∧ ∀ attempt, 1 ≤ attempt → ∃ action,
        parseAction runtime.engine aliases body attempt = .ok (.accepted action) ∧
          Exact written action.targetLev1e4 action.maxSlippageBps
  | .error (.invalidAction evidence) => evidence.inputTokens = result.inputTokens ∧
      evidence.outputTokens = result.outputTokens ∧
      evidence.cachedInputTokens = result.cachedInputTokens
  | .error _ => False

/-- What a model wrote follows `action/v1`, but for null members, with a target for every observed
market and no extension of its own. -/
structure InOrder (aliases : List Text) (written : List (Text × Json)) : Prop where
  noExt : txt "ext" ∉ written.map Prod.fst
  valid : Schema.Valid actionDefs ACTION_V1 (.obj (withoutNulls (withoutUsage written)))
  markets : TargetsMarkets aliases true written

/-- Neither of the members it shares with the engine is null, and its comment can be encoded. -/
structure Portable (written : List (Text × Json)) : Prop where
  slippage : Json.lookup (txt "max_slippage_bps") written ≠ some .null
  comment : Json.lookup (txt "comment") written ≠ some .null
  unicode : ∀ comment, Json.lookup (txt "comment") written = some (.str comment) →
    ValidUnicode comment

/-- The content of a completion is one that is not lost. -/
structure Safe (limits : Json.Limits) (aliases : List Text) (content : Text) : Prop where
  shallow : Json.loads limits Json.strictHooks content ≠ .error .recursion
  short : Json.loads limits Json.strictHooks content ≠ .error .digits
  portable : ∀ written, Json.loads limits Json.strictHooks content = .ok (.obj written) →
    InOrder aliases written → Portable written

/-! ## Its document -/

section Document

variable {aliases : List Text} {result : ProviderResult} {written : List (Text × Json)}

/-- The document of a completion whose content is in order. -/
def document (result : ProviderResult) (written : List (Text × Json)) : List (Text × Json) :=
  withoutUsage written ++ result.usage ++ result.ext

theorem ext_ne_usage : txt "ext" ≠ txt "usage" := by decide

theorem lookup_append {a b : List (Text × Json)} (key : Text) :
    Json.lookup key (a ++ b) = (Json.lookup key a).or (Json.lookup key b) := by
  simp [Json.lookup, List.find?_append, Option.map_or]

theorem mem_usage {m : Text × Json} (h : m ∈ result.usage) : ∃ input output : ℤ,
    result.inputTokens = some input ∧ result.outputTokens = some output ∧
      m = (txt "usage", .obj [(txt "input_tokens", .int input), (txt "output_tokens", .int output)]) := by
  unfold ProviderResult.usage at h
  split at h
  · rename_i input output hinput houtput
    exact ⟨input, output, hinput, houtput, List.mem_singleton.mp h⟩
  · simp at h

theorem mem_ext {m : Text × Json} (h : m ∈ result.ext) : ∃ cached : ℤ,
    result.cachedInputTokens = some cached ∧
      m = (txt "ext", .obj [(CACHED_INPUT_EXTENSION_KEY, .int cached)]) := by
  unfold ProviderResult.ext at h
  split at h
  · rename_i cached hcached
    exact ⟨cached, hcached, List.mem_singleton.mp h⟩
  · simp at h

theorem nodupKeys_usage : NodupKeys result.usage := by
  unfold ProviderResult.usage
  split <;> simp [NodupKeys]

theorem nodupKeys_ext : NodupKeys result.ext := by
  unfold ProviderResult.ext
  split <;> simp [NodupKeys]

theorem ProviderResult.CountsInRange.input (h : result.CountsInRange) {n : ℤ}
    (hn : result.inputTokens = some n) : 0 ≤ n ∧ n ≤ MAX_IJSON_INTEGER :=
  h _ (by simp) n hn

theorem ProviderResult.CountsInRange.output (h : result.CountsInRange) {n : ℤ}
    (hn : result.outputTokens = some n) : 0 ≤ n ∧ n ≤ MAX_IJSON_INTEGER :=
  h _ (by simp) n hn

theorem ProviderResult.CountsInRange.cached (h : result.CountsInRange) {n : ℤ}
    (hn : result.cachedInputTokens = some n) : 0 ≤ n ∧ n ≤ MAX_IJSON_INTEGER :=
  h _ (by simp) n hn

theorem mem_withoutUsage {m : Text × Json} :
    m ∈ withoutUsage written ↔ m ∈ written ∧ m.1 ≠ txt "usage" := by
  simp [withoutUsage]

theorem lookup_none {members : List (Text × Json)} {key : Text} (h : key ∉ members.map Prod.fst) :
    Json.lookup key members = none := by
  by_contra hne
  obtain ⟨w, hw⟩ := Option.ne_none_iff_exists'.mp hne
  exact h (Schema.mem_keys_iff.mpr ⟨w, hw⟩)

/-- What the provider adds is under two keys. -/
theorem lookup_added {key : Text} (husage : key ≠ txt "usage") (hext : key ≠ txt "ext") :
    Json.lookup key result.usage = none ∧ Json.lookup key result.ext = none := by
  constructor
  · refine lookup_none fun h => ?_
    obtain ⟨m, hm, rfl⟩ := List.mem_map.mp h
    obtain ⟨_, _, -, -, rfl⟩ := mem_usage hm
    exact husage rfl
  · refine lookup_none fun h => ?_
    obtain ⟨m, hm, rfl⟩ := List.mem_map.mp h
    obtain ⟨_, -, rfl⟩ := mem_ext hm
    exact hext rfl

variable (hnodup : NodupKeys written)

include hnodup

theorem lookup_withoutUsage {key : Text} (h : key ≠ txt "usage") :
    Json.lookup key (withoutUsage written) = Json.lookup key written := by
  rw [withoutUsage, lookup_filter hnodup]
  cases Json.lookup key written <;> simp [Option.filter, h]

/-- The document says what the model wrote, but for usage and extension. -/
theorem lookup_document {key : Text} (husage : key ≠ txt "usage") (hext : key ≠ txt "ext") :
    Json.lookup key (document result written) = Json.lookup key written ∧
      Json.lookup key (withoutUsage written ++ result.usage) = Json.lookup key written := by
  obtain ⟨hu, he⟩ := @lookup_added result key husage hext
  rw [document, lookup_append, lookup_append, hu, he, lookup_withoutUsage hnodup husage]
  simp

variable (hfresh : txt "ext" ∉ written.map Prod.fst)

include hfresh

theorem nodupKeys_document : NodupKeys (document result written) := by
  have hkeys : ∀ m ∈ withoutUsage written, m.1 ≠ txt "usage" ∧ m.1 ≠ txt "ext" := by
    intro m hm
    obtain ⟨hm, hne⟩ := mem_withoutUsage.mp hm
    exact ⟨hne, fun he => hfresh (he ▸ List.mem_map_of_mem hm)⟩
  rw [NodupKeys, document, List.map_append, List.map_append, List.nodup_append, List.nodup_append]
  refine ⟨⟨nodupKeys_filter hnodup _, nodupKeys_usage, ?_⟩, nodupKeys_ext, ?_⟩
  · rintro a ha b hb rfl
    obtain ⟨m, hm, rfl⟩ := List.mem_map.mp ha
    obtain ⟨m', hm', heq⟩ := List.mem_map.mp hb
    obtain ⟨_, _, -, -, rfl⟩ := mem_usage hm'
    exact (hkeys m hm).1 heq.symm
  · rintro a ha b hb rfl
    obtain ⟨m', hm', heq⟩ := List.mem_map.mp hb
    obtain ⟨_, -, rfl⟩ := mem_ext hm'
    rcases List.mem_append.mp ha with ha | ha
    · obtain ⟨m, hm, rfl⟩ := List.mem_map.mp ha
      exact (hkeys m hm).2 heq.symm
    · obtain ⟨m, hm, rfl⟩ := List.mem_map.mp ha
      obtain ⟨_, _, -, -, rfl⟩ := mem_usage hm
      exact ext_ne_usage heq

end Document

section Validated

variable {aliases : List Text} {result : ProviderResult} {written : List (Text × Json)}
  (hwritten : Strict (.obj written)) (hcounts : result.CountsInRange)

theorem strict_obj {members : List (Text × Json)} (h : Strict (.obj members)) :
    NodupKeys members ∧ ∀ m ∈ members, Strict m.2 := by
  cases h with
  | obj hnodup hstrict => exact ⟨hnodup, hstrict⟩

/-- What the provider adds is strict. -/
theorem strict_added {m : Text × Json} (h : m ∈ result.usage ∨ m ∈ result.ext) : Strict m.2 := by
  rcases h with h | h
  · obtain ⟨input, output, -, -, rfl⟩ := mem_usage h
    refine .obj (by simp [NodupKeys]) fun m hm => ?_
    simp only [List.mem_cons, List.not_mem_nil, or_false] at hm
    rcases hm with rfl | rfl <;> exact .int
  · obtain ⟨cached, -, rfl⟩ := mem_ext h
    refine .obj (by simp [NodupKeys]) fun m hm => ?_
    obtain rfl := List.mem_singleton.mp hm
    exact .int

include hcounts in
/-- The counts make a valid `usage`. -/
theorem valid_usage {w : Json} (h : Json.lookup (txt "usage") result.usage = some w) :
    Schema.Valid actionDefs USAGE w := by
  obtain ⟨input, output, hinput, houtput, heq⟩ :=
    mem_usage ((Json.lookup_eq_some_iff nodupKeys_usage).mp h)
  obtain rfl := (Prod.mk.inj heq).2
  refine (valid_usage_iff (by simp [NodupKeys])).mpr ⟨by simp, ?_⟩
  simp [isTokenCount, (hcounts.input hinput).1, (hcounts.output houtput).1]

include hcounts in
/-- The cached count makes a valid `ext`. -/
theorem valid_ext {w : Json} (h : Json.lookup (txt "ext") result.ext = some w) :
    ∃ ext, w = .obj ext ∧ validMembers ext = true := by
  obtain ⟨cached, hcached, heq⟩ := mem_ext ((Json.lookup_eq_some_iff nodupKeys_ext).mp h)
  obtain rfl := (Prod.mk.inj heq).2
  have := hcounts.cached hcached
  refine ⟨_, rfl, ?_⟩
  simp only [validMembers, validExtension, Bool.and_true, decide_eq_true_eq]
  rw [abs_of_nonneg this.1]
  exact this.2

/-- A document that says the same as an accepted one, but for usage and extension. -/
theorem Accepted.of_lookup {a b : List (Text × Json)} (h : Accepted aliases true a)
    (hknown : ∀ m ∈ b, m.1 ∈ KNOWN_TOP_LEVEL_FIELDS)
    (hsame : ∀ key, key ≠ txt "usage" → key ≠ txt "ext" → Json.lookup key b = Json.lookup key a)
    (husage : ∀ w, Json.lookup (txt "usage") b = some w → w ≠ .null →
      Schema.Valid actionDefs USAGE w)
    (hext : ∀ w, Json.lookup (txt "ext") b = some w → ∃ ext, w = .obj ext ∧ validMembers ext = true) :
    Accepted aliases true b where
  known := hknown
  schema := by
    rw [hsame _ (by decide) (by decide)]
    exact h.schema
  intent := by
    rw [hsame _ (by decide) (by decide)]
    exact h.intent
  target := by
    rw [hsame _ (by decide) (by decide)]
    exact h.target
  slippage := by
    rw [hsame _ (by decide) (by decide)]
    exact h.slippage
  comment := by
    rw [hsame _ (by decide) (by decide)]
    exact h.comment
  usage := husage
  ext := hext

/-- Every key the provider adds is known. -/
theorem known_added {m : Text × Json} (h : m ∈ result.usage ∨ m ∈ result.ext) :
    m.1 ∈ KNOWN_TOP_LEVEL_FIELDS := by
  rcases h with h | h
  · obtain ⟨_, _, -, -, rfl⟩ := mem_usage h
    simp [KNOWN_TOP_LEVEL_FIELDS]
  · obtain ⟨_, -, rfl⟩ := mem_ext h
    simp [KNOWN_TOP_LEVEL_FIELDS]

variable (hfresh : txt "ext" ∉ written.map Prod.fst)

include hwritten hfresh

theorem strict_document : Strict (.obj (document result written)) ∧
    Strict (.obj (withoutUsage written ++ result.usage)) ∧ Strict (.obj (withoutUsage written)) := by
  obtain ⟨hnodup, hstrict⟩ := strict_obj hwritten
  have hdocument := @nodupKeys_document result written hnodup hfresh
  have hfirst : NodupKeys (withoutUsage written ++ result.usage) :=
    hdocument.sublist ((List.sublist_append_left _ _).map _)
  refine ⟨.obj hdocument fun m hm => ?_, .obj hfirst fun m hm => ?_,
    .obj (nodupKeys_filter hnodup _) fun m hm => hstrict m (mem_withoutUsage.mp hm).1⟩
  · rcases List.mem_append.mp hm with hm | hm
    · rcases List.mem_append.mp hm with hm | hm
      · exact hstrict m (mem_withoutUsage.mp hm).1
      · exact strict_added (.inl hm)
    · exact strict_added (.inr hm)
  · rcases List.mem_append.mp hm with hm | hm
    · exact hstrict m (mem_withoutUsage.mp hm).1
    · exact strict_added (.inl hm)

/-- What is found under the provider's two keys is the provider's. -/
theorem lookup_provided :
    Json.lookup (txt "usage") (document result written) = Json.lookup (txt "usage") result.usage ∧
    Json.lookup (txt "ext") (document result written) = Json.lookup (txt "ext") result.ext ∧
    Json.lookup (txt "usage") (withoutUsage written ++ result.usage) =
      Json.lookup (txt "usage") result.usage ∧
    Json.lookup (txt "ext") (withoutUsage written ++ result.usage) = none := by
  obtain ⟨hnodup, -⟩ := strict_obj hwritten
  have noUsage : Json.lookup (txt "usage") (withoutUsage written) = none := by
    rw [withoutUsage, lookup_filter hnodup]
    cases Json.lookup (txt "usage") written <;> simp [Option.filter]
  have noExt : Json.lookup (txt "ext") (withoutUsage written) = none := by
    rw [lookup_withoutUsage hnodup (by decide)]
    exact lookup_none hfresh
  have other : Json.lookup (txt "usage") result.ext = none := by
    refine lookup_none fun h => ?_
    obtain ⟨m, hm, heq⟩ := List.mem_map.mp h
    obtain ⟨_, -, rfl⟩ := mem_ext hm
    exact ext_ne_usage heq
  have other' : Json.lookup (txt "ext") result.usage = none := by
    refine lookup_none fun h => ?_
    obtain ⟨m, hm, heq⟩ := List.mem_map.mp h
    obtain ⟨_, _, -, -, rfl⟩ := mem_usage hm
    exact ext_ne_usage heq.symm
  simp only [document, lookup_append, noUsage, noExt, other, other', Option.none_or, Option.or_none,
    and_self]

include hcounts

/-- The content is in order when the document, or the document before its extension, passes. -/
theorem inOrder_iff : InOrder aliases written ↔
    Accepted aliases true (withoutUsage written ++ result.usage) ∧
      Accepted aliases true (document result written) := by
  obtain ⟨hnodup, -⟩ := strict_obj hwritten
  obtain ⟨husage, hext, husage', hext'⟩ := @lookup_provided result written hwritten hfresh
  have hsame := fun key h h' => @lookup_document result written hnodup key h h'
  have hcontent : InOrder aliases written ↔ Accepted aliases true (withoutUsage written) := by
    have hkept : NodupKeys (withoutUsage written) := nodupKeys_filter hnodup _
    rw [accepted_iff hkept]
    have hmarkets : TargetsMarkets aliases true (withoutUsage written) ↔
        TargetsMarkets aliases true written := by
      rw [TargetsMarkets, lookup_withoutUsage hnodup (by decide)]
      rfl
    rw [hmarkets]
    exact ⟨fun h => ⟨h.valid, h.markets⟩, fun h => ⟨hfresh, h.1, h.2⟩⟩
  rw [hcontent]
  constructor
  · intro h
    have first : Accepted aliases true (withoutUsage written ++ result.usage) := by
      refine h.of_lookup (fun m hm => ?_) (fun key hu he => ?_) (fun w hw _ => ?_) fun w hw => ?_
      · rcases List.mem_append.mp hm with hm | hm
        · exact h.known m hm
        · exact known_added (.inl hm)
      · rw [(hsame key hu he).2, lookup_withoutUsage hnodup hu]
      · exact valid_usage hcounts (husage' ▸ hw)
      · simp [hext'] at hw
    refine ⟨first, first.of_lookup (fun m hm => ?_) (fun key hu he => ?_) (fun w hw _ => ?_)
      fun w hw => ?_⟩
    · rcases List.mem_append.mp hm with hm | hm
      · exact first.known m hm
      · exact known_added (.inr hm)
    · rw [(hsame key hu he).1, (hsame key hu he).2]
    · exact valid_usage hcounts (husage ▸ hw)
    · exact valid_ext hcounts (hext ▸ hw)
  · rintro ⟨h, -⟩
    refine h.of_lookup (fun m hm => h.known m (List.mem_append_left _ hm)) (fun key hu he => ?_)
      (fun w hw _ => ?_) fun w hw => ?_
    · rw [(hsame key hu he).2, lookup_withoutUsage hnodup hu]
    · rw [withoutUsage, lookup_filter hnodup] at hw
      simp at hw
    · rw [lookup_withoutUsage hnodup (by decide), lookup_none hfresh] at hw
      cases hw

omit hfresh in
/-- **What is tried.** Content in order becomes a document; anything else is refused as a breach of
the contract. -/
theorem actionOf_spec : (InOrder aliases written → actionOf aliases result written =
      .ok (document result written)) ∧
    (¬ InOrder aliases written → actionOf aliases result written = .error .contract) := by
  have keys : txt "ext" ∉ (withoutUsage written).map Prod.fst ↔ txt "ext" ∉ written.map Prod.fst := by
    simp [withoutUsage]
  by_cases hfresh : txt "ext" ∉ written.map Prod.fst
  swap
  · refine ⟨fun h => absurd h.noExt hfresh, fun _ => ?_⟩
    rw [actionOf, require_neg (mt keys.mp hfresh)]
    rfl
  obtain ⟨hdocument, hfirst, -⟩ := @strict_document result written hwritten hfresh
  have hvalid := fun r => @validateActionDocument_eq_ok _ r aliases true hfirst.distinct
  have hvalid' := fun r => @validateActionDocument_eq_ok _ r aliases true hdocument.distinct
  have hiff := @inOrder_iff aliases result written hwritten hcounts hfresh
  rw [actionOf, require_pos (keys.mpr hfresh), ok_bind]
  constructor
  · intro h
    obtain ⟨first, second⟩ := hiff.mp h
    rw [(hvalid _).mpr ⟨rfl, first⟩]
    change contractual (validateActionDocument (document result written) aliases true) = _
    rw [(hvalid' _).mpr ⟨rfl, second⟩]
    rfl
  · intro h
    cases hfirst : validateActionDocument (withoutUsage written ++ result.usage) aliases true with
    | error e => rfl
    | ok validated =>
      obtain ⟨rfl, first⟩ := (hvalid _).mp hfirst
      change contractual (validateActionDocument (document result written) aliases true) = _
      cases hsecond : validateActionDocument (document result written) aliases true with
      | error e => rfl
      | ok validated => exact absurd (hiff.mpr ⟨first, ((hvalid' _).mp hsecond).2⟩) h

end Validated

/-! ## Its bytes -/

theorem ascii_of_digits {t : Text} (h : t.all isDigit = true) : Ascii t := by
  intro c hc
  have := List.all_eq_true.mp h c hc
  simp only [isDigit, Bool.and_eq_true, decide_eq_true_eq] at this
  omega

theorem ascii_append {s t : Text} (hs : Ascii s) (ht : Ascii t) : Ascii (s ++ t) := by
  intro c hc
  rcases List.mem_append.mp hc with hc | hc
  · exact hs c hc
  · exact ht c hc

/-- A decimal target is short, and ASCII. -/
theorem isTarget_short {d : DecimalText} (h : IsTarget d) : Ascii d.text ∧ d.text.length ≤ 9 := by
  have sign : Ascii (Sign.text d.sign) ∧ (Sign.text d.sign).length ≤ 1 := by
    rcases d.sign with - | (- | -)
    · exact ⟨by decide, by decide⟩
    · exact ⟨by decide, by decide⟩
    · exact ⟨by decide, by decide⟩
  have whole : d.whole.length ≤ 3 := by
    rcases isWhole_iff.mp h.whole with heq | ⟨c, -, rest, heq, hrest, -⟩
    · rw [heq]
      decide
    · rw [heq, List.length_cons]
      omega
  have fraction : Ascii (DecimalText.fractionText d.fraction) ∧
      (DecimalText.fractionText d.fraction).length ≤ 5 := by
    cases hf : d.fraction with
    | none => exact ⟨by decide, by decide⟩
    | some f =>
      have hlength := (h.fraction f hf).2
      refine ⟨?_, by simp only [DecimalText.fractionText, List.length_cons]; omega⟩
      exact ascii_append (s := [pointChar]) (by decide) (ascii_of_digits (d.fraction_all f hf))
  rw [h.text_eq]
  refine ⟨ascii_append sign.1 (ascii_append (ascii_of_digits d.whole_all) fraction.1), ?_⟩
  rw [List.length_append, List.length_append]
  omega

/-- What is known of a value that is no longer than `n` characters and holds no containers. -/
structure Short (n : ℕ) (w : Json) : Prop where
  length : w.emit.length ≤ n
  ints : Json.intsWithin 16 w = true
  depth : w.depth = 0
  unicode : ValidUnicode w.emit

theorem short_int {n : ℤ} {k : ℕ} (hk : 0 < k ∧ k ≤ 16) (h : n.natAbs < 10 ^ k) :
    Short (k + 1) (.int n) := by
  refine ⟨Json.decimalInt_length_le hk.1 h, ?_, rfl, Json.validUnicode_of_ascii (Json.ascii_decimalInt n)⟩
  have := Nat.pow_le_pow_right (by decide : 0 < 10) hk.2
  simp only [Json.intsWithin, decide_eq_true_eq]
  omega

theorem short_str {t : Text} {k : ℕ} (h : Ascii t) (hlength : t.length ≤ k) :
    Short (6 * k + 2) (.str t) := by
  refine ⟨(Json.emitString_length_le t).trans (by omega), rfl, rfl, ?_⟩
  rw [Json.emit, Json.validUnicode_emitString]
  exact Json.validUnicode_of_ascii h

theorem short_null : Short 4 .null :=
  ⟨by decide, rfl, rfl, Json.validUnicode_of_ascii (by decide)⟩

theorem Short.mono {n k : ℕ} {w : Json} (h : Short n w) (hnk : n ≤ k) : Short k w :=
  ⟨h.length.trans hnk, h.ints, h.depth, h.unicode⟩

theorem short_target {w : Json} (h : Schema.Valid actionDefs TARGET_VALUE w) : Short 56 w := by
  obtain ⟨units, hunits, -⟩ := valid_targetValue_iff.mp h
  cases w with
  | int n =>
    have hbound : -999 ≤ n ∧ n ≤ 999 := by simpa [TARGET_VALUE] using h
    exact (short_int (k := 3) (by decide) (by omega)).mono (by decide)
  | str t =>
    simp only [parseTarget] at hunits
    split at hunits
    · rename_i parsed hparsed
      obtain ⟨d, hd, rfl⟩ := isTarget_of_parse hparsed
      obtain ⟨hascii, hlength⟩ := isTarget_short hd
      exact short_str (k := 9) hascii hlength
    · cases hunits
  | _ => simp [parseTarget] at hunits

theorem isMarketAlias_short {t : Text} (h : isMarketAlias t = true) : Ascii t ∧ t.length ≤ 12 := by
  simp only [isMarketAlias, Bool.and_eq_true, decide_eq_true_eq] at h
  obtain ⟨⟨-, hlength⟩, hall⟩ := h
  refine ⟨fun c hc => ?_, hlength⟩
  have := List.all_eq_true.mp hall c hc
  simp only [isDigit, Bool.or_eq_true, Bool.and_eq_true, decide_eq_true_eq] at this
  omega

/-- What is known of an object of values without containers. -/
structure Flat (n : ℕ) (members : List (Text × Json)) : Prop where
  length : (Json.obj members).emit.length ≤ n
  ints : Json.intsWithin 16 (.obj members) = true
  depth : (Json.obj members).depth ≤ 1
  unicode : ValidUnicode (Json.obj members).emit

theorem flat_of_short {members : List (Text × Json)} {k n : ℕ}
    (hkeys : ∀ m ∈ members, Ascii m.1 ∧ m.1.length ≤ k) (h : ∀ m ∈ members, Short n m.2) :
    Flat (members.length * (6 * k + n + 4) + 2) members := by
  refine ⟨(Json.emit_obj_length_le members).trans (Nat.add_le_add_right ?_ 2), ?_, ?_, ?_⟩
  · have := List.sum_le_card_nsmul (members.map Json.memberSize) (6 * k + n + 4) (by
      refine List.forall_mem_map.mpr fun m hm => ?_
      have hkey := Json.emitString_length_le m.1
      have := (hkeys m hm).2
      have := (h m hm).length
      simp only [Json.memberSize]
      omega)
    simpa using this
  · exact Json.intsWithinMembers_iff.mpr fun m hm => (h m hm).ints
  · rw [Json.depth]
    exact Nat.succ_le_succ (Json.depthMembers_le_iff.mpr fun m hm => (h m hm).depth.le)
  · exact Json.validUnicode_emit_obj.mpr fun m hm =>
      ⟨Json.validUnicode_of_ascii (hkeys m hm).1, (h m hm).unicode⟩

section Encoded

variable {aliases : List Text} {result : ProviderResult} {written : List (Text × Json)}
  (hwritten : Strict (.obj written)) (hcounts : result.CountsInRange)

/-- How much one member of a document adds to its text at most. -/
def memberBound (key : Text) : ℕ :=
  if key = txt "comment" then 12_040 else if key = txt "target" then 2_500 else 250

/-- What is known of one member of a document. -/
structure Slight (m : Text × Json) : Prop where
  size : Json.memberSize m ≤ memberBound m.1
  ints : Json.intsWithin 16 m.2 = true
  depth : m.2.depth ≤ 1
  unicode : m.1 ≠ txt "comment" → ValidUnicode m.2.emit

theorem Short.slight {key : Text} {w : Json} {n : ℕ} (h : Short n w)
    (hsize : (Json.emitString key).length + n + 2 ≤ memberBound key) : Slight (key, w) := by
  have := h.length
  refine ⟨?_, h.ints, h.depth.le.trans (by decide), fun _ => h.unicode⟩
  simp only [Json.memberSize]
  omega

theorem Flat.slight {key : Text} {members : List (Text × Json)} {n : ℕ} (h : Flat n members)
    (hsize : (Json.emitString key).length + n + 2 ≤ memberBound key) :
    Slight (key, .obj members) := by
  have := h.length
  refine ⟨?_, h.ints, h.depth, fun _ => h.unicode⟩
  simp only [Json.memberSize]
  omega

theorem short_count {n : ℤ} (h : 0 ≤ n ∧ n ≤ MAX_IJSON_INTEGER) : Short 17 (.int n) := by
  have : MAX_IJSON_INTEGER = 9_007_199_254_740_991 := rfl
  exact short_int (k := 16) (by decide) (by omega)

include hcounts in
/-- What the provider adds is slight. -/
theorem slight_added {m : Text × Json} (h : m ∈ result.usage ∨ m ∈ result.ext) : Slight m := by
  rcases h with h | h
  · obtain ⟨input, output, hinput, houtput, rfl⟩ := mem_usage h
    have flat := @flat_of_short [(txt "input_tokens", .int input), (txt "output_tokens", .int output)]
      13 17 (by
        simp only [List.forall_mem_cons, List.not_mem_nil, false_imp_iff, implies_true, and_true]
        decide) (by
        simp only [List.forall_mem_cons, List.not_mem_nil, false_imp_iff, implies_true, and_true]
        exact ⟨short_count (hcounts.input hinput), short_count (hcounts.output houtput)⟩)
    have hkey : (Json.emitString (txt "usage")).length = 7 := by decide
    have hbound : memberBound (txt "usage") = 250 := by decide
    exact flat.slight (by simp only [List.length_cons, List.length_nil]; omega)
  · obtain ⟨cached, hcached, rfl⟩ := mem_ext h
    have flat := @flat_of_short [(CACHED_INPUT_EXTENSION_KEY, .int cached)] 33 17 (by
        simp only [List.forall_mem_cons, List.not_mem_nil, false_imp_iff, implies_true, and_true]
        decide) (by
        simp only [List.forall_mem_cons, List.not_mem_nil, false_imp_iff, implies_true, and_true]
        exact short_count (hcounts.cached hcached))
    have hkey : (Json.emitString (txt "ext")).length = 5 := by decide
    have hbound : memberBound (txt "ext") = 250 := by decide
    exact flat.slight (by simp only [List.length_cons, List.length_nil]; omega)

/-- What the model may write is slight, but for a comment that cannot be encoded. -/
theorem Accepted.slight {action : List (Text × Json)} (h : Accepted aliases true action)
    (hnodup : NodupKeys action) {key : Text} {w : Json} (hm : (key, w) ∈ action)
    (husage : key ≠ txt "usage") (hext : key ≠ txt "ext") : Slight (key, w) := by
  have hlookup : Json.lookup key action = some w := (Json.lookup_eq_some_iff hnodup).mpr hm
  have hknown := h.known _ hm
  simp only [KNOWN_TOP_LEVEL_FIELDS, List.map_cons, List.map_nil, List.mem_cons, List.not_mem_nil,
    or_false, husage, hext] at hknown
  rcases hknown with rfl | rfl | rfl | rfl | rfl
  · obtain rfl := Option.some.inj (hlookup.symm.trans h.schema)
    exact (short_str (k := 9) (by decide) (by decide)).slight (by decide)
  · obtain rfl := h.intent _ hlookup
    exact (short_str (k := 15) (by decide) (by decide)).slight (by decide)
  · obtain ⟨target, htarget, hcount, hnames, hvalues, -⟩ := h.target
    obtain rfl := Option.some.inj (hlookup.symm.trans htarget)
    have flat := flat_of_short (fun m hm => isMarketAlias_short (hnames m hm))
      fun m hm => short_target (hvalues m hm)
    have hbound : memberBound (txt "target") = 2_500 := by decide
    have hkey : (Json.emitString (txt "target")).length = 8 := by decide
    exact flat.slight (by omega)
  · by_cases hnull : w = .null
    · exact hnull ▸ short_null.slight (by decide)
    · obtain ⟨n, rfl, hn⟩ := Schema.valid_integer.mp (h.slippage _ hlookup hnull)
      have hn : 0 ≤ n ∧ n ≤ 10_000 := by simpa using hn
      exact (short_int (k := 5) (by decide) (by omega)).slight (by decide)
  · by_cases hnull : w = .null
    · exact hnull ▸ short_null.slight (by decide)
    · obtain ⟨comment, rfl, hcomment⟩ := h.comment _ hlookup hnull
      have hbound : memberBound (txt "comment") = 12_040 := by decide
      have hkey : (Json.emitString (txt "comment")).length = 9 := by decide
      have := Json.emitString_length_le comment
      refine ⟨?_, rfl, Nat.zero_le _, fun h => absurd rfl h⟩
      simp only [Json.memberSize, Json.emit]
      omega

end Encoded

section Fate

variable {runtime : Runtime} {aliases : List Text} {result : ProviderResult}
  {written : List (Text × Json)} (hwritten : Strict (.obj written)) (hcounts : result.CountsInRange)
  (hinOrder : InOrder aliases written)

include hwritten hcounts hinOrder

theorem accepted_document : Accepted aliases true (document result written) :=
  ((inOrder_iff hwritten hcounts hinOrder.noExt).mp hinOrder).2

theorem slight_document : ∀ m ∈ document result written, Slight m := by
  rintro ⟨key, w⟩ hm
  obtain ⟨hnodup, -⟩ := strict_obj (@strict_document result written hwritten hinOrder.noExt).1
  by_cases hadded : (key, w) ∈ result.usage ∨ (key, w) ∈ result.ext
  · exact slight_added hcounts hadded
  rw [not_or] at hadded
  have hcontent : (key, w) ∈ withoutUsage written := by
    rcases List.mem_append.mp hm with hm' | hm'
    · exact (List.mem_append.mp hm').resolve_right hadded.1
    · exact absurd hm' hadded.2
  obtain ⟨hwrote, husage⟩ := mem_withoutUsage.mp hcontent
  exact (accepted_document hwritten hcounts hinOrder).slight hnodup hm husage
    fun hext => hinOrder.noExt (hext ▸ List.mem_map_of_mem hwrote)

/-- The document of content in order nests two deep and holds short integers. -/
theorem bounded_document : (Json.obj (document result written)).depth ≤ 2 ∧
    ∀ k, 16 ≤ k → Json.intsWithin k (.obj (document result written)) = true := by
  have slight := slight_document hwritten hcounts hinOrder
  refine ⟨?_, fun k hk => ?_⟩
  · rw [Json.depth]
    exact Nat.succ_le_succ (Json.depthMembers_le_iff.mpr fun m hm => (slight m hm).depth)
  · exact Json.intsWithin_mono hk _ (Json.intsWithinMembers_iff.mpr fun m hm => (slight m hm).ints)

/-- It fits the action limit, with room to spare. -/
theorem document_length {body : Bytes}
    (hbody : utf8Encode (Json.dumps false (.obj (document result written))) = some body) :
    body.length ≤ Core.MAX_ACTION_BYTES := by
  obtain ⟨hnodup, -⟩ := strict_obj (@strict_document result written hwritten hinOrder.noExt).1
  have hsizes := Json.memberSizes_le hnodup (accepted_document hwritten hcounts hinOrder).known
    fun m hm => (slight_document hwritten hcounts hinOrder m hm).size
  have hsum : (KNOWN_TOP_LEVEL_FIELDS.map memberBound).sum = 15_790 := by decide
  have hemit := Json.emit_obj_length_le (document result written)
  have hencode := utf8Encode_length_le hbody
  rw [Json.dumps, if_neg (by simp), (Json.emit_sortKeys_perm _).length_eq] at hencode
  have hmax : Core.MAX_ACTION_BYTES = 65_536 := rfl
  omega

/-- It can be encoded where its comment can. -/
theorem document_unicode : (utf8Encode (Json.dumps false (.obj (document result written)))).isSome ↔
    ∀ comment, Json.lookup (txt "comment") written = some (.str comment) → ValidUnicode comment := by
  obtain ⟨hnodup, -⟩ := strict_obj hwritten
  obtain ⟨hdocument, -⟩ := strict_obj (@strict_document result written hwritten hinOrder.noExt).1
  have haccepted := accepted_document hwritten hcounts hinOrder
  have hcomment : Json.lookup (txt "comment") (document result written) =
      Json.lookup (txt "comment") written := (lookup_document hnodup (by decide) (by decide)).1
  have hkeys : ∀ key ∈ KNOWN_TOP_LEVEL_FIELDS, Ascii key := by decide
  rw [Json.utf8Encode_isSome, Json.dumps, if_neg (by simp),
    Json.validUnicode_perm (Json.emit_sortKeys_perm _), Json.validUnicode_emit_obj]
  constructor
  · intro h comment hlookup
    rw [← hcomment, Json.lookup_eq_some_iff hdocument] at hlookup
    exact Json.validUnicode_emitString.mp (h _ hlookup).2
  · rintro h ⟨key, w⟩ hm
    refine ⟨Json.validUnicode_of_ascii (hkeys _ (haccepted.known _ hm)), ?_⟩
    by_cases hkey : key = txt "comment"
    · subst hkey
      have hlookup := (Json.lookup_eq_some_iff hdocument).mpr hm
      by_cases hnull : w = .null
      · exact hnull ▸ short_null.unicode
      · obtain ⟨comment, rfl, -⟩ := haccepted.comment _ hlookup hnull
        exact Json.validUnicode_emitString.mpr (h comment (hcomment ▸ hlookup))
    · exact (slight_document hwritten hcounts hinOrder _ hm).unicode hkey

omit hcounts in
/-- No optional member of the document is null where none is in the content. -/
theorem noNulls_document : NoNulls (document result written) ↔
    Json.lookup (txt "max_slippage_bps") written ≠ some .null ∧
      Json.lookup (txt "comment") written ≠ some .null := by
  obtain ⟨hnodup, -⟩ := strict_obj hwritten
  have husage : Json.lookup (txt "usage") (document result written) ≠ some .null := by
    rw [(lookup_provided hwritten hinOrder.noExt).1]
    intro h
    obtain ⟨_, _, -, -, heq⟩ := mem_usage ((Json.lookup_eq_some_iff nodupKeys_usage).mp h)
    cases (Prod.mk.inj heq).2
  simp only [NoNulls, NULLABLE, List.map_cons, List.map_nil, List.forall_mem_cons, List.not_mem_nil,
    false_imp_iff, implies_true, and_true, ne_eq, husage, not_false_eq_true]
  rw [(lookup_document hnodup (by decide) (by decide)).1,
    (lookup_document hnodup (by decide) (by decide)).1]

omit hcounts hinOrder in
/-- Targets and slippage of the document are those of the content. -/
theorem exact_document {targets : List (Text × ℤ)} {slippage : Option ℤ}
    (h : Exact (document result written) targets slippage) : Exact written targets slippage := by
  obtain ⟨hnodup, -⟩ := strict_obj hwritten
  obtain ⟨haliases, hrange, hslippage⟩ := h
  rw [(lookup_document hnodup (by decide) (by decide)).1] at haliases hslippage
  exact ⟨haliases, hrange, hslippage⟩

/-- **The document's fate.** Content in order is kept when nothing in it is lost on the way. -/
theorem kept_document (hread : Json.loads runtime.agent Json.strictHooks result.content =
      .ok (.obj written)) :
    Kept runtime aliases result (.ok (document result written)) ↔ Portable written := by
  have hdocument := (@strict_document result written hwritten hinOrder.noExt).1
  have haccepted := @accepted_document aliases result written hwritten hcounts hinOrder
  obtain ⟨hdepth, hints⟩ := @bounded_document aliases result written hwritten hcounts hinOrder
  have hnulls := @noNulls_document aliases result written hwritten hinOrder
  have hunicode := @document_unicode aliases result written hwritten hcounts hinOrder
  have hencode := fun body => @Runtime.encode_eq_ok runtime _ body hdocument
  constructor
  · rintro ⟨_, body, -, hbody, hparse⟩
    obtain ⟨-, -, htext⟩ := (hencode body).mp hbody
    obtain ⟨parsed, hparsed, -⟩ := hparse 1 le_rfl
    have hlength := document_length hwritten hcounts hinOrder htext
    obtain ⟨hnone, -⟩ := (haccepted.engine_accepts_iff hdocument.distinct hbody hlength le_rfl).mp
      ⟨parsed, hparsed⟩
    obtain ⟨hslippage, hcomment⟩ := hnulls.mp hnone
    exact ⟨hslippage, hcomment, hunicode.mp (Option.isSome_of_eq_some htext)⟩
  · rintro ⟨hslippage, hcomment, hvalid⟩
    obtain ⟨body, htext⟩ := Option.isSome_iff_exists.mp (hunicode.mpr hvalid)
    have hlength := document_length hwritten hcounts hinOrder htext
    have hdigits := runtime.agent.digits_ge
    have hdumps := runtime.dumpsDepth_ge
    have hnests := runtime.engine.depth_ge
    have hbody := (hencode body).mpr ⟨by omega, hints _ (by omega), htext⟩
    refine ⟨written, body, hread, hbody, fun attempt hattempt => ?_⟩
    obtain ⟨parsed, hparsed⟩ := (haccepted.engine_accepts_iff hdocument.distinct hbody hlength
      hattempt).mpr ⟨hnulls.mpr ⟨hslippage, hcomment⟩, by omega⟩
    exact ⟨parsed, hparsed, exact_document hwritten
      ((parseAction_encode hdocument hbody hlength hattempt).2 parsed hparsed)⟩

end Fate

/-! ## Two validators -/

/-- What is made of one answer: kept, unless it is invalid in a way the policy does not see. -/
theorem decideCompletion_kept_iff {runtime : Runtime} {aliases : List Text} {result : ProviderResult} :
    Kept runtime aliases result (decideCompletion runtime.agent aliases result) ↔
      (result.invalidReason = none → result.CountsInRange → result.CachedWithinInput →
        Safe runtime.agent aliases result.content) := by
  have evidence : ∀ reason, Kept runtime aliases result
      (.error (.invalidAction (result.evidence reason))) := fun reason => ⟨rfl, rfl, rfl⟩
  cases hreason : result.invalidReason with
  | some reason => simp [decideCompletion, hreason, evidence]
  | none =>
    have hdecide : decideCompletion runtime.agent aliases result =
        match paidAction runtime.agent aliases result with
        | .error .contract =>
          .error (.invalidAction (result.evidence (txt "action_contract_invalid")))
        | outcome => outcome := by
      simp only [decideCompletion, hreason]
    rw [hdecide, paidAction]
    by_cases hcounts : result.CountsInRange
    swap
    · rw [require_neg hcounts]
      simp [evidence, hcounts]
    by_cases hcached : result.CachedWithinInput
    swap
    · rw [require_pos hcounts, ok_bind, require_neg hcached]
      simp [evidence, hcached]
    rw [require_pos hcounts, ok_bind, require_pos hcached, ok_bind]
    simp only [hcounts, hcached, true_imp_iff]
    cases hloads : Json.loads runtime.agent Json.strictHooks result.content with
    | error e =>
      cases e with
      | decode =>
        simp only [decodeActionObject, hloads, DecodeError.raised, evidence, true_iff]
        exact ⟨by simp [hloads], by simp [hloads], fun _ h => by simp [hloads] at h⟩
      | hook refusal =>
        simp only [decodeActionObject, hloads, DecodeError.raised, evidence, true_iff]
        exact ⟨by simp [hloads], by simp [hloads], fun _ h => by simp [hloads] at h⟩
      | recursion =>
        simp only [decodeActionObject, hloads, DecodeError.raised, Kept, false_iff]
        exact fun h => h.shallow hloads
      | digits =>
        simp only [decodeActionObject, hloads, DecodeError.raised, Kept, false_iff]
        exact fun h => h.short hloads
    | ok decoded =>
      by_cases hobj : ∃ written, decoded = .obj written
      · obtain ⟨written, rfl⟩ := hobj
        have hwritten := Json.strict_of_loads hloads
        obtain ⟨hpasses, hrefused⟩ := @actionOf_spec aliases result written hwritten hcounts
        have hsafe : Safe runtime.agent aliases result.content ↔
            (InOrder aliases written → Portable written) := by
          constructor
          · exact fun h => h.portable written hloads
          · intro h
            refine ⟨by simp [hloads], by simp [hloads], fun written' hread => ?_⟩
            obtain rfl := Json.obj.inj (Except.ok.inj (hloads.symm.trans hread))
            exact h
        rw [hsafe]
        simp only [decodeActionObject, hloads]
        by_cases hinOrder : InOrder aliases written
        · rw [hpasses hinOrder]
          simp only [hinOrder, true_imp_iff]
          exact kept_document hwritten hcounts hinOrder hloads
        · rw [hrefused hinOrder]
          simp only [hinOrder, false_imp_iff, iff_true]
          exact evidence _
      · have hother : decodeActionObject runtime.agent result.content =
            .error (.contract (txt "provider output must be a JSON object")) := by
          rw [decodeActionObject, hloads]
          cases decoded with
          | obj written => exact absurd ⟨written, rfl⟩ hobj
          | _ => rfl
        simp only [hother, DecodeError.raised, evidence, true_iff]
        refine ⟨by simp [hloads], by simp [hloads], fun written hread => ?_⟩
        exact absurd ⟨written, Except.ok.inj (hloads.symm.trans hread)⟩ hobj

/-- **A paid completion between two validators.** On a valid request a completion is kept exactly when
its content is one that is safe, and of the mappings the agent accepts and encodes within the action
limit the engine accepts exactly those without null members that nest no deeper than it reads. -/
theorem completion_kept_iff (runtime : Runtime) :
    (∀ (policy : LLMBaselinePolicy) (request observation : List (Text × Json))
      (feedback : Option (List (Text × Json))) (aliases : List Text) (result : ProviderResult),
      validateRunnerRequest request = .ok observation →
      runnerRetryFeedback request = .ok feedback → marketAliases observation = .ok aliases →
      policy.complete policy.systemPrompt observation feedback = .ok result →
      (Kept runtime aliases result (policy.decide runtime.agent request) ↔
        (result.invalidReason = none → result.CountsInRange → result.CachedWithinInput →
          Safe runtime.agent aliases result.content))) ∧
    ∀ (action accepted : List (Text × Json)) (aliases : List Text) (requireAllMarkets : Bool)
      (body : Bytes) (attempt : ℕ), (Json.obj action).Distinct →
      validateActionDocument action aliases requireAllMarkets = .ok accepted →
      runtime.encode accepted = .ok body → body.length ≤ Core.MAX_ACTION_BYTES → 1 ≤ attempt →
      ((∃ parsed, parseAction runtime.engine aliases body attempt = .ok (.accepted parsed)) ↔
        NoNulls action ∧ (Json.obj action).depth ≤ runtime.engine.maxDepth) := by
  constructor
  · intro policy request observation feedback aliases result hrequest hfeedback haliases hresult
    rw [LLMBaselinePolicy.decide, hrequest, hfeedback]
    simp only [contractual, ok_bind, haliases, hresult]
    exact decideCompletion_kept_iff
  · intro action accepted aliases requireAllMarkets body attempt hdistinct hvalid hbody hlength
      hattempt
    obtain ⟨rfl, haccepted⟩ := (validateActionDocument_eq_ok hdistinct).mp hvalid
    exact haccepted.engine_accepts_iff hdistinct hbody hlength hattempt

/-! ## A null bound -/

def quoteRuntime : Runtime :=
  ⟨hedgeLimits, hedgeLimits, 1_000, hedgeLimits.depth_ge, rfl⟩

def quoteObservation : List (Text × Json) :=
  [(txt "schema", .str (txt "observation/v1")), (txt "episode", .obj []),
    (txt "markets", .obj [(txt "BTC", .obj [])]), (txt "risk", .obj [])]

def quoteRequest : List (Text × Json) :=
  [(txt "schema", .str (txt "runner_request/v1")), (txt "attempt", .int 1),
    (txt "observation", .obj quoteObservation), (txt "retry", .null)]

/-- A full long position, with the slippage bound a model writes. -/
def quoteAction (slippage : Json) : List (Text × Json) :=
  [(txt "schema", .str (txt "action/v1")), (txt "target", .obj [(txt "BTC", .str (txt "1"))]),
    (txt "max_slippage_bps", slippage)]

def quoteResult (slippage : Json) : ProviderResult :=
  ⟨(Json.obj (quoteAction slippage)).emit, some 123, some 7, some (txt "stop"), true, none⟩

def quotePolicy (slippage : Json) : LLMBaselinePolicy :=
  ⟨txt "strict", fun _ _ _ => .ok (quoteResult slippage)⟩

def quoteDocument (slippage : Json) : List (Text × Json) :=
  document (quoteResult slippage) (quoteAction slippage)

/-- A bound of one percent is carried to the engine. -/
theorem completion_kept_bounded :
    (quotePolicy (.int 100)).decide quoteRuntime.agent quoteRequest =
      .ok (quoteDocument (.int 100)) ∧
    Kept quoteRuntime [txt "BTC"] (quoteResult (.int 100)) (.ok (quoteDocument (.int 100))) ∧
    ∃ body, quoteRuntime.encode (quoteAction (.int 100)) = .ok body ∧
      ((∃ parsed, parseAction quoteRuntime.engine [txt "BTC"] body 1 = .ok (.accepted parsed)) ↔
        NoNulls (quoteAction (.int 100)) ∧
          (Json.obj (quoteAction (.int 100))).depth ≤ quoteRuntime.engine.maxDepth) := by
  have hread : Json.loads quoteRuntime.agent Json.strictHooks (quoteResult (.int 100)).content =
      .ok (.obj (quoteAction (.int 100))) := by decide +kernel
  have hsafe : Safe quoteRuntime.agent [txt "BTC"] (quoteResult (.int 100)).content := by
    refine ⟨fun h => ?_, fun h => ?_, fun written hwritten _ => ?_⟩
    · exact absurd (hread.symm.trans h) (by simp)
    · exact absurd (hread.symm.trans h) (by simp)
    · rw [← Json.obj.inj (Except.ok.inj (hread.symm.trans hwritten))]
      exact ⟨by decide +kernel, by decide +kernel, fun comment h => by simp [quoteAction] at h⟩
  have hrequest : validateRunnerRequest quoteRequest = .ok quoteObservation := by decide +kernel
  have hfeedback : runnerRetryFeedback quoteRequest = .ok none := by decide +kernel
  have haliases : marketAliases quoteObservation = .ok [txt "BTC"] := by decide +kernel
  have hdecide : (quotePolicy (.int 100)).decide quoteRuntime.agent quoteRequest =
      .ok (quoteDocument (.int 100)) := toOption_eq_some.mp (by decide +kernel)
  have hkept := (completion_kept_iff quoteRuntime).1 (quotePolicy (.int 100)) quoteRequest
    quoteObservation none [txt "BTC"] (quoteResult (.int 100)) hrequest hfeedback haliases rfl
  rw [hdecide] at hkept
  have haccepted : validateActionDocument (quoteAction (.int 100)) [txt "BTC"] true =
      .ok (quoteAction (.int 100)) := by decide +kernel
  have returned : ((quoteRuntime.encode (quoteAction (.int 100))).toOption.map
      fun body => decide (body.length ≤ Core.MAX_ACTION_BYTES)) = some true := by decide +kernel
  obtain ⟨body, hbody, hlength⟩ := Option.map_eq_some_iff.mp returned
  have hbody := toOption_eq_some.mp hbody
  exact ⟨hdecide, hkept.mpr fun _ _ _ => hsafe, body, hbody,
    (completion_kept_iff quoteRuntime).2 _ _ [txt "BTC"] true body 1
      (Json.strict_of_loads hread).distinct haccepted hbody (of_decide_eq_true hlength) le_rfl⟩

/-- A bound written as null passes the agent's validator, and the engine refuses the bytes. -/
theorem null_bound_lost :
    validateRunnerRequest quoteRequest = .ok quoteObservation ∧
    marketAliases quoteObservation = .ok [txt "BTC"] ∧
    (quoteResult .null).CountsInRange ∧
    (quotePolicy .null).decide quoteRuntime.agent quoteRequest = .ok (quoteDocument .null) ∧
    (∃ body, quoteRuntime.encode (quoteDocument .null) = .ok body ∧
      parseAction quoteRuntime.engine [txt "BTC"] body 1 = .ok (.rejected .invalidSlippage)) ∧
    ¬ Kept quoteRuntime [txt "BTC"] (quoteResult .null)
      ((quotePolicy .null).decide quoteRuntime.agent quoteRequest) := by
  have hdecide : (quotePolicy .null).decide quoteRuntime.agent quoteRequest =
      .ok (quoteDocument .null) := toOption_eq_some.mp (by decide +kernel)
  have hbody : ∃ body, quoteRuntime.encode (quoteDocument .null) = .ok body ∧
      parseAction quoteRuntime.engine [txt "BTC"] body 1 = .ok (.rejected .invalidSlippage) := by
    have returned : ((quoteRuntime.encode (quoteDocument .null)).toOption.map fun body =>
        decide (parseAction quoteRuntime.engine [txt "BTC"] body 1 =
          .ok (.rejected .invalidSlippage))) = some true := by decide +kernel
    obtain ⟨body, hbody, hparse⟩ := Option.map_eq_some_iff.mp returned
    exact ⟨body, toOption_eq_some.mp hbody, of_decide_eq_true hparse⟩
  refine ⟨by decide +kernel, by decide +kernel, by decide +kernel, hdecide, hbody, ?_⟩
  rw [hdecide]
  rintro ⟨_, body, -, hencoded, hparse⟩
  obtain ⟨body', hencoded', hrefused⟩ := hbody
  obtain rfl := Except.ok.inj (hencoded.symm.trans hencoded')
  obtain ⟨parsed, hparsed, -⟩ := hparse 1 le_rfl
  cases hrefused.symm.trans hparsed

end WagmiBench.Agents
