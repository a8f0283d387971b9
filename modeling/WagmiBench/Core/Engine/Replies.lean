import WagmiBench.Core.Engine.Inversion
import WagmiBench.Core.Engine.Scenario
import WagmiBench.Spec.Chain

/-!
# Reply bodies as data

A body is read twice: by `parse_action`, which turns whatever it cannot use into a reason, and by
`_extract_token_usage`, which lets the interpreter's own limits through as exceptions and copies
token counts of any size into the `AgentResponded` event. This module says for which bodies the
second reading returns and its event can be encoded.
-/

namespace WagmiBench.Core

open WagmiBench.Lib WagmiBench.Harness WagmiBench.Spec

/-! ## Documents -/

theorem encodable_jsonObj {members : List (String × Json)} :
    (jsonObj members).Encodable ↔
      ∀ m ∈ members, Json.ValidUnicode (txt m.1) ∧ m.2.Encodable := by
  rw [Json.Encodable, Json.encodableMembers_iff]
  simp only [Json.ValidKeys, List.forall_mem_map, ← forall_and]

theorem encodable_int {n : ℤ} : (Json.int n).Encodable ↔ |n| ≤ MAX_IJSON_INT := by
  rw [Json.Encodable]

theorem encodable_str {t : Text} : (Json.str t).Encodable ↔ Json.ValidUnicode t := by
  rw [Json.Encodable]

theorem encodable_jsonOptInt {n : Option ℤ} :
    (jsonOptInt n).Encodable ↔ ∀ m ∈ n, |m| ≤ MAX_IJSON_INT := by
  cases n <;> simp [jsonOptInt, Json.Encodable]

theorem encodable_jsonTokenUsage {usage : Option (ℤ × ℤ)} :
    (jsonTokenUsage usage).Encodable ↔
      ∀ u ∈ usage, |u.1| ≤ MAX_IJSON_INT ∧ |u.2| ≤ MAX_IJSON_INT := by
  rcases usage with - | ⟨input, output⟩
  · simp [jsonTokenUsage, Json.Encodable]
  · have keys : Json.ValidUnicode (txt "input_tokens") ∧ Json.ValidUnicode (txt "output_tokens") := by
      decide
    simp [jsonTokenUsage, encodable_jsonObj, Json.Encodable, keys]

theorem returns_canonicalBytes {v : Json} : Returns (canonicalBytes v) ↔ v.Encodable := by
  rw [← Json.canonical_isOk]
  exact exists_congr fun b => canonicalBytes_eq_ok

theorem abs_natCast_le {n : ℕ} : |(n : ℤ)| ≤ MAX_IJSON_INT ↔ n < 2 ^ 53 := by
  rw [abs_of_nonneg (by omega), MAX_IJSON_INT]
  omega

/-! ## Token usage -/

section Usage

variable {limits : Json.Limits} {raw : Bytes}

/-- `json.loads` reads the body, or finds that it is no JSON, within the interpreter's limits. -/
def WithinLimits (limits : Json.Limits) (raw : Bytes) : Prop :=
  ∀ text, jsonDecodeBytes raw = some text →
    Json.loads limits telemetryHooks text ≠ .error .recursion ∧
      Json.loads limits telemetryHooks text ≠ .error .digits

/-- In the document that `json.loads` reads from the body, two token counts that are both there,
as integers that are not negative, are safe. -/
def CountsSafe (limits : Json.Limits) (raw : Bytes) : Prop :=
  ∀ text value usage input output, jsonDecodeBytes raw = some text →
    Json.loads limits telemetryHooks text = .ok value →
    Json.get? (txt "usage") value = some (.obj usage) →
    Json.lookup (txt "input_tokens") usage = some (.int input) →
    Json.lookup (txt "output_tokens") usage = some (.int output) →
    0 ≤ input → 0 ≤ output → input ≤ MAX_IJSON_INT ∧ output ≤ MAX_IJSON_INT

theorem extractTokenUsage_returns :
    Returns (extractTokenUsage limits raw) ↔ WithinLimits limits raw := by
  unfold extractTokenUsage WithinLimits
  cases jsonDecodeBytes raw with
  | none => simp
  | some text =>
    simp only [Option.some.injEq, forall_eq']
    cases Json.loads limits telemetryHooks text with
    | ok value => simp
    | error e => rcases e with - | - | - | ⟨⟨⟩⟩ <;> simp

theorem tokenUsageOf_eq_some {value : Json} {input output : ℤ} :
    tokenUsageOf value = some (input, output) ↔
      ∃ usage, Json.get? (txt "usage") value = some (.obj usage) ∧
        Json.lookup (txt "input_tokens") usage = some (.int input) ∧
        Json.lookup (txt "output_tokens") usage = some (.int output) ∧ 0 ≤ input ∧ 0 ≤ output := by
  constructor
  · intro h
    unfold tokenUsageOf at h
    split at h
    · rename_i usage husage
      split at h
      · rename_i i o hinput houtput
        split at h
        · cases h
        · cases h
          exact ⟨usage, husage, hinput, houtput, by omega, by omega⟩
      · cases h
    · cases h
  · rintro ⟨usage, husage, hinput, houtput, hi, ho⟩
    simp only [tokenUsageOf, husage, hinput, houtput]
    exact if_neg (by omega)

/-- What the event reports is safe exactly when the counts of the body are. -/
theorem extractTokenUsage_safe {usage : Option (ℤ × ℤ)}
    (h : extractTokenUsage limits raw = .ok usage) :
    (∀ u ∈ usage, |u.1| ≤ MAX_IJSON_INT ∧ |u.2| ≤ MAX_IJSON_INT) ↔ CountsSafe limits raw := by
  unfold extractTokenUsage at h
  unfold CountsSafe
  cases hraw : jsonDecodeBytes raw with
  | none =>
    rw [hraw] at h
    obtain rfl := Except.ok.inj h
    simp
  | some text =>
    rw [hraw] at h
    simp only [Option.some.injEq] at h ⊢
    cases hvalue : Json.loads limits telemetryHooks text with
    | ok value =>
      simp only [hvalue, Except.ok.injEq] at h
      subst h
      constructor
      · rintro hsafe text' value' usage input output rfl hload husage hinput houtput hi ho
        obtain rfl := Except.ok.inj (hvalue.symm.trans hload)
        have := hsafe _ (tokenUsageOf_eq_some.mpr ⟨usage, husage, hinput, houtput, hi, ho⟩)
        exact ⟨(abs_le.mp this.1).2, (abs_le.mp this.2).2⟩
      · rintro hsafe ⟨input, output⟩ hcounts
        obtain ⟨usage, husage, hinput, houtput, hi, ho⟩ := tokenUsageOf_eq_some.mp hcounts
        rw [abs_of_nonneg hi, abs_of_nonneg ho]
        exact hsafe text value usage input output rfl hvalue husage hinput houtput hi ho
    | error e =>
      rw [hvalue] at h
      obtain rfl : none = usage := by
        cases e with
        | decode => exact Except.ok.inj h
        | recursion => cases h
        | digits => cases h
        | hook raised => exact raised.elim
      refine ⟨fun _ => ?_, fun _ => by simp⟩
      rintro text' value' usage input output rfl hload
      rw [hvalue] at hload
      cases hload

end Usage

/-! ## The events of a turn's replies -/

section Replies

variable {sha : Sha256} {limits : Json.Limits} {clock : TurnClock}

/-- The draft of one reply. -/
def responseDraft (sha : Sha256) (clock : TurnClock) (attempt : ℕ) (reply : AgentReply)
    (tokenUsage : Option (ℤ × ℤ)) : Draft :=
  ⟨clock.decisionTs, some clock.turn, some clock.turn, .harness, .agentResponded
    { attempt
      rawRef := rawRef clock.turn attempt
      rawSha256 := sha.prefixed reply.body
      rawBytes := reply.body.length
      latencyMs := reply.latencyMs
      httpStatus := reply.httpStatus
      tokenUsage
      transport := reply.transport }⟩

theorem responseDrafts_returns {attempt : ℕ} {replies : List AgentReply} :
    Returns (responseDrafts sha limits clock attempt replies) ↔
      ∀ reply ∈ replies, WithinLimits limits reply.body := by
  induction replies generalizing attempt with
  | nil => simp [responseDrafts]
  | cons reply replies ih =>
    rw [List.forall_mem_cons, ← extractTokenUsage_returns, ← @ih (attempt + 1),
      responseDrafts]
    constructor
    · rintro ⟨drafts, h⟩
      obtain ⟨usage, husage, h⟩ := bind_ok_iff.mp h
      obtain ⟨rest, hrest, -⟩ := bind_ok_iff.mp h
      exact ⟨⟨usage, husage⟩, rest, hrest⟩
    · rintro ⟨husage, hrest⟩
      exact .bind husage fun _ _ => .bind hrest fun _ _ => ⟨_, rfl⟩

theorem responseDrafts_getElem? {attempt : ℕ} {replies : List AgentReply} {drafts : List Draft}
    (h : responseDrafts sha limits clock attempt replies = .ok drafts) {k : ℕ} {reply : AgentReply}
    (hreply : replies[k]? = some reply) :
    ∃ usage, extractTokenUsage limits reply.body = .ok usage ∧
      drafts[k]? = some (responseDraft sha clock (attempt + k) reply usage) := by
  induction replies generalizing attempt drafts k with
  | nil => simp at hreply
  | cons first replies ih =>
    simp only [responseDrafts, bind_ok_iff, pure_eq_ok, Except.ok.injEq] at h
    obtain ⟨usage, husage, rest, hrest, rfl⟩ := h
    cases k with
    | zero =>
      obtain rfl := Option.some.inj hreply
      exact ⟨usage, husage, rfl⟩
    | succ k =>
      obtain ⟨u, hu, hdraft⟩ := ih hrest hreply
      refine ⟨u, hu, ?_⟩
      rw [List.getElem?_cons_succ, hdraft, Nat.add_assoc, Nat.add_comm 1 k]

theorem responseDrafts_length {attempt : ℕ} {replies : List AgentReply} {drafts : List Draft}
    (h : responseDrafts sha limits clock attempt replies = .ok drafts) :
    drafts.length = replies.length := by
  induction replies generalizing attempt drafts with
  | nil => rw [← Except.ok.inj h]; rfl
  | cons first replies ih =>
    simp only [responseDrafts, bind_ok_iff, pure_eq_ok, Except.ok.injEq] at h
    obtain ⟨usage, -, rest, hrest, rfl⟩ := h
    rw [List.length_cons, List.length_cons, ih hrest]

/-- What a reply, and its place in the stream, must be for its event to be read and encoded. -/
structure Fits (limits : Json.Limits) (clock : TurnClock) (seq : ℕ) (reply : AgentReply) : Prop where
  within : WithinLimits limits reply.body
  counts : CountsSafe limits reply.body
  length : reply.body.length < 2 ^ 53
  latency : |reply.latencyMs| ≤ MAX_IJSON_INT
  status : ∀ n ∈ reply.httpStatus, |n| ≤ MAX_IJSON_INT
  transport : Json.ValidUnicode reply.transport
  seq : seq < 2 ^ 53
  turn : clock.turn < 2 ^ 53
  ts : |clock.decisionTs| ≤ MAX_IJSON_INT

theorem validUnicode_rawRef (turn attempt : ℕ) : Json.ValidUnicode (rawRef turn attempt) := by
  have digits : ∀ n, Json.ValidUnicode (decimal n) := fun n c hc hs => by
    have := isDigit_of_mem_decimal hc
    simp only [isDigit, Bool.and_eq_true, decide_eq_true_eq] at this
    unfold isSurrogate at hs
    omega
  have zeros : ∀ n, Json.ValidUnicode (List.replicate n (codePoint 0x30)) := fun n c hc => by
    rw [List.eq_of_mem_replicate hc]
    decide
  have literal : Json.ValidUnicode (txt "raw/") ∧ Json.ValidUnicode (txt "-a") ∧
      Json.ValidUnicode (txt ".txt") := by decide
  simp [rawRef, decimalPad, Json.validUnicode_append, digits, zeros, literal]

theorem encodable_agentResponded {event : AgentResponded} :
    event.toJson.Encodable ↔
      event.attempt < 2 ^ 53 ∧ Json.ValidUnicode event.rawRef ∧ Json.ValidUnicode event.rawSha256 ∧
        event.rawBytes < 2 ^ 53 ∧ |event.latencyMs| ≤ MAX_IJSON_INT ∧
        (∀ n ∈ event.httpStatus, |n| ≤ MAX_IJSON_INT) ∧
        (∀ u ∈ event.tokenUsage, |u.1| ≤ MAX_IJSON_INT ∧ |u.2| ≤ MAX_IJSON_INT) ∧
        Json.ValidUnicode event.transport := by
  have keys : Json.ValidUnicode (txt "attempt") ∧ Json.ValidUnicode (txt "raw_ref") ∧
      Json.ValidUnicode (txt "raw_sha256") ∧ Json.ValidUnicode (txt "raw_bytes") ∧
      Json.ValidUnicode (txt "latency_ms") ∧ Json.ValidUnicode (txt "http_status") ∧
      Json.ValidUnicode (txt "token_usage") ∧ Json.ValidUnicode (txt "transport") := by decide
  simp only [AgentResponded.toJson, encodable_jsonObj, List.forall_mem_cons, List.not_mem_nil,
    false_implies, implies_true, encodable_int, encodable_str, encodable_jsonTokenUsage,
    encodable_jsonOptInt, abs_natCast_le, keys, true_and, and_true]

/-- The event of a reply can be encoded exactly when its numbers and texts can. -/
theorem encodable_response {attempt seq : ℕ} {reply : AgentReply} {usage : Option (ℤ × ℤ)}
    (hattempt : attempt ≤ seq) :
    (Event.toJson { responseDraft sha clock attempt reply usage with seq }).Encodable ↔
      (∀ u ∈ usage, |u.1| ≤ MAX_IJSON_INT ∧ |u.2| ≤ MAX_IJSON_INT) ∧
        reply.body.length < 2 ^ 53 ∧ |reply.latencyMs| ≤ MAX_IJSON_INT ∧
        (∀ n ∈ reply.httpStatus, |n| ≤ MAX_IJSON_INT) ∧ Json.ValidUnicode reply.transport ∧
        seq < 2 ^ 53 ∧ clock.turn < 2 ^ 53 ∧ |clock.decisionTs| ≤ MAX_IJSON_INT := by
  have keys : Json.ValidUnicode (txt "schema") ∧ Json.ValidUnicode (txt "event/v1") ∧
      Json.ValidUnicode (txt "seq") ∧ Json.ValidUnicode (txt "ts") ∧ Json.ValidUnicode (txt "turn") ∧
      Json.ValidUnicode (txt "bar_index") ∧ Json.ValidUnicode (txt "source") ∧
      Json.ValidUnicode (txt "harness") ∧ Json.ValidUnicode (txt "type") ∧
      Json.ValidUnicode (txt "AgentResponded") ∧ Json.ValidUnicode (txt "payload") := by decide
  simp only [Event.toJson, responseDraft, Payload.toJson, Payload.type, EventSource.wire, jsonOptNat,
    encodable_jsonObj, List.forall_mem_cons, List.not_mem_nil, false_implies, implies_true,
    encodable_int, encodable_str, encodable_agentResponded, abs_natCast_le, keys,
    validUnicode_rawRef, IsHash.validUnicode (sha.isHash reply.body), true_and, and_true]
  constructor
  · rintro ⟨hseq, hts, hturn, -, -, hbytes, hlatency, hstatus, husage, htransport⟩
    exact ⟨husage, hbytes, hlatency, hstatus, htransport, hseq, hturn, hts⟩
  · rintro ⟨husage, hbytes, hlatency, hstatus, htransport, hseq, hturn, hts⟩
    exact ⟨hseq, hts, hturn, hturn, by omega, hbytes, hlatency, hstatus, husage, htransport⟩

/-- The replies of a turn, whose events follow the one with number `first`: each is interpreted,
each is read for its usage, and each event can be encoded. -/
structure RepliesRecorded (sha : Sha256) (limits : Json.Limits) (markets : List Text)
    (clock : TurnClock) (first : ℕ) (replies : List AgentReply) : Prop where
  interpreted : ∀ k reply, replies[k]? = some reply →
    Returns (interpretReply limits markets reply (k + 1))
  read : Returns (responseDrafts sha limits clock 1 replies)
  encoded : ∀ drafts : List Draft, responseDrafts sha limits clock 1 replies = .ok drafts →
    ∀ (k : ℕ) (draft : Draft), drafts[k]? = some draft →
      Returns (canonicalBytes (Event.toJson { draft with seq := first + 1 + k }))

/-- Interpreting a reply never raises. -/
theorem interpretReply_returns {markets : List Text} {reply : AgentReply} {attempt : ℕ}
    (h : 1 ≤ attempt) : Returns (interpretReply limits markets reply attempt) := by
  unfold interpretReply
  split
  · exact ⟨_, rfl⟩
  · exact parseAction_returns limits markets reply.body h

theorem repliesRecorded_iff {markets : List Text} {first : ℕ} {replies : List AgentReply} :
    RepliesRecorded sha limits markets clock first replies ↔
      ∀ k reply, replies[k]? = some reply → Fits limits clock (first + 1 + k) reply := by
  constructor
  · rintro ⟨-, hread, hencoded⟩ k reply hreply
    have within := responseDrafts_returns.mp hread reply (List.mem_of_getElem? hreply)
    obtain ⟨drafts, hdrafts⟩ := hread
    obtain ⟨usage, husage, hdraft⟩ := responseDrafts_getElem? hdrafts hreply
    have encodable := returns_canonicalBytes.mp (hencoded drafts hdrafts k _ hdraft)
    obtain ⟨hcounts, hlength, hlatency, hstatus, htransport, hseq, hturn, hts⟩ :=
      (encodable_response (by omega)).mp encodable
    exact ⟨within, (extractTokenUsage_safe husage).mp hcounts, hlength, hlatency, hstatus, htransport,
      hseq, hturn, hts⟩
  · intro fits
    refine ⟨fun k reply _ => interpretReply_returns (by omega), ?_, ?_⟩
    · refine responseDrafts_returns.mpr fun reply hreply => ?_
      obtain ⟨k, hk⟩ := List.mem_iff_getElem?.mp hreply
      exact (fits k reply hk).within
    · intro drafts hdrafts k draft hdraft
      have hk : k < replies.length := by
        rw [← responseDrafts_length hdrafts]
        exact (List.getElem?_eq_some_iff.mp hdraft).1
      have hreply := List.getElem?_eq_getElem hk
      obtain ⟨usage, husage, heq⟩ := responseDrafts_getElem? hdrafts hreply
      obtain rfl := Option.some.inj (hdraft.symm.trans heq)
      have fit := fits k _ hreply
      exact returns_canonicalBytes.mpr ((encodable_response (by omega)).mpr
        ⟨(extractTokenUsage_safe husage).mpr fit.counts, fit.length, fit.latency, fit.status,
          fit.transport, fit.seq, fit.turn, fit.ts⟩)

end Replies

/-! ## Runs -/

/-- The primary run of an episode, entering a turn in `state`, asked the agent and got `decision`. -/
def Asked {σ : Type} (sha : Sha256) (limits : Json.Limits) (pack : PackData) (config : EpisodeConfig)
    (episodeId : Text) (agent : Agent σ) (s : σ) (clock : TurnClock) (state : ProfileState σ)
    (decision : TurnDecision) : Prop :=
  ∃ env start bars drawdownUsed turnoverUsed observation asked,
    profileEnv pack config PRIMARY = .ok env ∧ startState env s = .ok start ∧
    pack.barsTotal = .ok bars ∧ clock.turn < bars ∧
    TurnReach sha limits env episodeId true (.agent agent) start clock.turn state ∧
    state.stopped = false ∧ turnClock env clock.turn = .ok clock ∧
    drawdown1e8 state.core.snapshots = .ok drawdownUsed ∧
    turnover1e8 state.core.account.turnoverNotionalMicro env.config.startingNavMicro =
      .ok turnoverUsed ∧
    observeTurn env episodeId clock state.core drawdownUsed turnoverUsed = .ok observation ∧
    requestDecision sha limits agent observation env.config env.pack.marketAliases state.agent =
      .ok (decision, asked)

/-- One turn at a standing price. -/
def oneTurn : Scenario := { Scenario.steady with rest := [.still 10_000] }

/-- One array more than the interpreter reads. -/
def deepBody : Bytes := List.replicate 1_001 0x5B

/-- An action with a token count that is one too large to encode. -/
def countingBody : Bytes :=
  (utf8Encode (jsonObj [("schema", jsonStr "action/v1"), ("target", jsonObj [("BTC", jsonStr "1")]),
    ("usage", jsonObj [("input_tokens", .int (2 ^ 53)), ("output_tokens", .int 1)])]).emit).getD []

end WagmiBench.Core
