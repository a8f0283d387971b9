import WagmiBench.Core.Engine.Egress
import WagmiBench.Sandbox.Buffer

/-!
# Egress evidence

An agent whose side channel is a block-event buffer. Lines arrive in the buffer while the agent
decides and before each drain, in any number and any order, and the engine drains what has arrived.
No fact is lost on the way from a collected line to `egress_blocked_count`, and none counts twice.
-/

namespace WagmiBench.Sandbox

open WagmiBench.Lib WagmiBench.Spec WagmiBench.Harness WagmiBench.Core

/-! ## What the engine reads of a record -/

/-- What the records add up to. -/
def recordCount (records : List ParsedBlockRecord) : ℤ := (records.map ParsedBlockRecord.count).sum

@[simp] theorem recordCount_append (front back : List ParsedBlockRecord) :
    recordCount (front ++ back) = recordCount front + recordCount back := by
  simp [recordCount]

theorem lookup_count (record : ParsedBlockRecord) :
    Json.lookup (txt "count") record.eventPayload = some (.int record.count) := by
  have keys : ∀ a b c d : Json, Json.lookup (txt "count")
      [(txt "destination", a), (txt "port", b), (txt "protocol", c), (txt "count", d)] = some d :=
    fun a b c d => by simp [Json.lookup]
  exact keys _ _ _ _

/-- The validated facts of a drain count what its records do. -/
theorem mapM_validate_count {records : List ParsedBlockRecord} {facts : List Core.BlockFact}
    (h : (records.map fun record => (⟨txt "EgressBlocked", record.eventPayload⟩ : HarnessEvent)).mapM
      validateHarnessEvent = .ok facts) : blockedCount facts = recordCount records := by
  have hall := List.forall₂_map_left_iff.mp (mapM_eq_ok.mp h)
  induction hall with
  | nil => rfl
  | @cons record fact records facts hfact hrest ih =>
    have hcount := (validateHarnessEvent_eq_ok hfact).2
    rw [lookup_count] at hcount
    simp only [Option.some.injEq, Json.int.injEq] at hcount
    have hsum := ih (mapM_eq_ok.mpr (List.forall₂_map_left_iff.mpr hrest))
    simp only [blockedCount, recordCount, List.map_cons, List.sum_cons] at hsum ⊢
    rw [hsum, hcount]

/-! ## An agent fed by a buffer -/

/-- What happens around an agent: its answers, the lines that arrive meanwhile, and the lines that
arrive before a drain, which may fail before it comes to the buffer. -/
structure Feed (σ : Type) where
  decide : σ → Request → AgentOutcome × List Arrival × σ
  ingest : σ → Option Text × List Arrival × σ

variable {σ : Type} {limits : Json.Limits} {feed : Feed σ}

/-- The agent with its buffer, kept as the calls made on it. -/
def Feed.agent (limits : Json.Limits) (feed : Feed σ) : Agent (σ × List BufferCall) where
  decide s request :=
    let (outcome, arrivals, next) := feed.decide s.1 request
    (outcome, next, s.2 ++ arrivals.map .append)
  drain := some fun s =>
    let (failure, arrivals, next) := feed.ingest s.1
    let calls := s.2 ++ arrivals.map .append
    match failure with
    | some className => (.raised className, next, calls)
    | none =>
      (.drained (collect limits calls).buffer.drainHarnessEvents.1, next, calls ++ [.drain])

/-- Arrivals drain nothing. -/
theorem collect_arrivals_drained (calls : List BufferCall) (arrivals : List Arrival) :
    (collect limits (calls ++ arrivals.map .append)).drained = (collect limits calls).drained := by
  induction arrivals using List.reverseRecOn with
  | nil => simp
  | append_singleton arrivals arrival ih =>
    rw [List.map_append, ← List.append_assoc, List.map_singleton, collect_concat, ← ih]
    rfl

/-- Between two states the buffer has handed over records that count `n`. -/
def Feed.Moves (limits : Json.Limits) (s : σ × List BufferCall) (n : ℤ)
    (s' : σ × List BufferCall) : Prop :=
  ∃ drained, (collect limits s'.2).drained = (collect limits s.2).drained ++ drained ∧
    n = recordCount drained

theorem Feed.metered (feed : Feed σ) : Metered (feed.agent limits) (Feed.Moves limits) where
  refl s := ⟨[], by simp, rfl⟩
  trans := by
    rintro s₁ s₂ s₃ _ _ ⟨front, hfront, rfl⟩ ⟨back, hback, rfl⟩
    exact ⟨front ++ back, by rw [hback, hfront, List.append_assoc], (recordCount_append _ _).symm⟩
  decide s request := ⟨[], by simp [Feed.agent, collect_arrivals_drained], rfl⟩
  drain s facts s' h := by
    simp only [drainHarnessEvents, Feed.agent] at h
    split at h
    · cases h
    · rename_i events last hdrain
      simp only [bind_ok_iff, pure_eq_ok, Except.ok.injEq, Prod.mk.injEq] at h
      obtain ⟨validated, hvalidated, rfl, rfl⟩ := h
      split at hdrain
      · cases hdrain
      · obtain ⟨hevents, rfl⟩ := Prod.mk.inj hdrain
        obtain rfl := DrainOutcome.drained.inj hevents
        refine ⟨_, ?_, mapM_validate_count hvalidated⟩
        rw [collect_concat, ← collect_arrivals_drained s.2]
        rfl

/-- **Egress evidence is neither lost nor duplicated.** Over any calls on a buffer, what was drained
and what is still buffered are the first accepted line of each source and cursor, and a line that is
no record changes nothing. A run fed by a buffer counts exactly the records it drained, because
coalescing keeps totals, is indifferent to order and is idempotent. -/
theorem egress_conserved (limits : Json.Limits) :
    (∀ calls, (collect limits calls).drained ++ (collect limits calls).buffer.records =
      (firstOfEach (calls.filterMap (BufferCall.accepted limits))).map Prod.snd) ∧
    (∀ before after arrival e, arrival.parse limits = .error e →
      (∃ e', ((collect limits before).buffer.append limits arrival).1 = .error e') ∧
      collect limits (before ++ .append arrival :: after) = collect limits (before ++ after)) ∧
    (∀ {σ : Type} (feed : Feed σ) (sha : Sha256) pack config runId episodeId s calls result,
      runEpisode sha limits pack (feed.agent limits) config runId episodeId (s, calls) =
        .ok result →
      ∃ primary facts last drained,
        runPrimary sha limits pack (feed.agent limits) config episodeId (s, calls) = .ok primary ∧
        drainHarnessEvents (feed.agent limits) primary.agent = .ok (facts, last) ∧
        (collect limits last.2).drained = (collect limits calls).drained ++ drained ∧
        result.metrics.invariant.egressBlockedCount = recordCount drained) ∧
    (∀ facts : List Core.BlockFact, (∀ fact ∈ facts, fact.Checked) →
      (∀ others, facts.Perm others →
        coalesceHarnessEvents facts = coalesceHarnessEvents others) ∧
      ∀ coalesced, coalesceHarnessEvents facts = .ok coalesced →
        (∀ key, blockedTotal coalesced key = blockedTotal facts key) ∧
        blockedCount coalesced = blockedCount facts ∧
        coalesceHarnessEvents coalesced = .ok coalesced) ∧
    (∀ {σ : Type} (agent : Agent σ) s facts s',
      drainHarnessEvents agent s = .ok (facts, s') → ∀ fact ∈ facts, fact.Checked) := by
  refine ⟨fun calls => (collect_eq calls).1, fun before after arrival e h => ⟨?_, ?_⟩, ?_, ?_, ?_⟩
  · exact BlockEventBuffer.append_malformed h
  · exact collect_malformed before after h
  · intro σ feed sha pack config runId episodeId s calls result h
    obtain ⟨primary, facts, last, hprimary, hdrain, drained, hdrained, hcount⟩ :=
      runEpisode_egress feed.metered h
    exact ⟨primary, facts, last, drained, hprimary, hdrain, hdrained, hcount⟩
  · intro facts hchecked
    refine ⟨fun others hperm => coalesceHarnessEvents_perm hchecked hperm, fun coalesced h => ?_⟩
    obtain ⟨htotals, hcount⟩ := coalesceHarnessEvents_totals hchecked h
    exact ⟨htotals, hcount, coalesceHarnessEvents_idem hchecked h⟩
  · exact fun agent s facts s' h => drainHarnessEvents_checked h

end WagmiBench.Sandbox
