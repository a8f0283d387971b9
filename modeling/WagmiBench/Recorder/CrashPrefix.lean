import WagmiBench.Recorder.Accepted
import WagmiBench.Recorder.Calls

/-!
# Bundles that lose their writer

A writer that is killed between any two of its steps, in the middle of a line or of a file, leaves a
bundle that the reader of unsealed bundles accepts. What is committed only grows from step to step,
and a record whose append has returned is committed for good.
-/

namespace WagmiBench.Recorder

open WagmiBench.Lib WagmiBench.Core WagmiBench.Spec

/-! ## Recordings -/

namespace Call

/-- Documents that a decoder reads back: no key twice, and not nested too deep. -/
def Plain (depth : ℕ) : Call → Prop
  | appendEvent event => (Json.obj event).Plain depth
  | appendDecision decision => (Json.obj decision).Plain depth
  | _ => True

/-- The turns that a call may take. -/
def turns : Call → ℕ
  | appendDecision _ => 1
  | _ => 0

end Call

/-- What a caller keeps to: plain documents, and at most 10000 decisions. -/
structure Fit (S : WriterSetting) (calls : List Call) : Prop where
  plain : ∀ call ∈ calls, call.Plain S.limits.maxDepth
  turns : (calls.map Call.turns).sum ≤ 10_000

section Recordings

variable {S : WriterSetting} {s s' : BundleWriter} {done : Done} {links : List ChainLink}
  {lines : List Bytes}

theorem length_bytesOf_le (members : Members) : (bytesOf members).length ≤ 1 := by
  unfold bytesOf
  cases (Json.obj members).canonical.toOption <;> simp

theorem length_adds_le (call : Call) (done : Done) :
    (call.adds done).2.length ≤ done.2.length + call.turns := by
  cases call with
  | appendDecision decision =>
    have := length_bytesOf_le decision
    simp only [Call.adds, Call.turns, List.length_append]
    omega
  | _ => exact Nat.le_add_right _ _

/-- **A call**, whichever it is. -/
theorem run_progress (h : Settled S s done links lines) {call : Call}
    (hplain : call.Plain S.limits.maxDepth) (hturns : done.2.length + call.turns ≤ 10_000) :
    Ends (call.run S) s (Progress S s done (call.adds done)) := by
  cases call with
  | writeObservation turn observation => exact writeObservation_progress h turn observation
  | writeRaw relativeRef data => exact writeRaw_progress h relativeRef data
  | appendEvent event => exact appendEvent_progress h hplain
  | appendDecision decision => exact appendDecision_progress h hplain hturns
  | writeLedgers primary stress2x => exact writeLedgers_progress h primary stress2x
  | writeMetrics metrics => exact writeMetrics_progress h metrics

/-- What is committed has only grown. -/
def Grows (S : WriterSetting) (s s' : BundleWriter) : Prop :=
  ∃ steps, s'.steps = s.steps ++ steps ∧
    Disk.Climbing (committed S.toVerifier) Below (S.disk s) steps

theorem Commits.grows {next : Done} (h : Commits S done next s s') : Grows S s s' := by
  obtain ⟨steps, hsteps, hclimbing, -⟩ := h
  exact ⟨steps, hsteps, hclimbing⟩

theorem Grows.trans {s'' : BundleWriter} (h : Grows S s s') (h' : Grows S s' s'') :
    Grows S s s'' := by
  obtain ⟨steps, hsteps, hclimbing⟩ := h
  obtain ⟨more, hmore, hclimbing'⟩ := h'
  rw [disk_of_steps hsteps] at hclimbing'
  exact ⟨steps ++ more, by rw [hmore, hsteps, List.append_assoc], hclimbing.append hclimbing'⟩

theorem Settled.grows_self (h : Settled S s done links lines) : Grows S s s :=
  ⟨[], by simp, Disk.climbing_of_throughout (below_self done)
    (Disk.throughout_nil.mpr h.committed)⟩

/-- **One call** that may be refused. -/
theorem attempt_ends (h : Settled S s done links lines) {call : Call}
    (hplain : call.Plain S.limits.maxDepth) (hturns : done.2.length + call.turns ≤ 10_000) :
    Ends (S.attempt call done) s fun o s' => Grows S s s' ∧
      ∀ next, o = .ok next → next.2.length ≤ done.2.length + call.turns ∧
        ∃ links lines, Settled S s' next links lines := by
  refine Ends.tryCatch (R := fun o s' => Progress S s done (call.adds done) (o.map fun _ => ()) s' ∧
    ∀ next, o = .ok next → next = call.adds done) ?_ ?_ ?_
  · refine Ends.bind (run_progress h hplain hturns) ?_ ?_
    · intro _ s' h'
      exact Ends.pure ⟨h', fun next hnext => (Except.ok.inj hnext).symm⟩
    · intro e s' h'
      exact ⟨⟨h'.commits, by simp [Except.map], fun message he => h'.refused message he⟩, by simp⟩
  · rintro next s' ⟨h', hnext⟩
    refine ⟨h'.commits.grows, fun next' heq => ?_⟩
    obtain rfl := Except.ok.inj heq
    rw [hnext _ rfl]
    exact ⟨length_adds_le call done, h'.returned rfl⟩
  · rintro e s' ⟨h', -⟩
    cases e with
    | recorderError message =>
      refine Ends.pure ⟨h'.commits.grows, fun next hnext => ?_⟩
      obtain rfl := Except.ok.inj hnext
      exact ⟨Nat.le_add_right _ _, h'.refused message rfl⟩
    | osError => exact Ends.throw ⟨h'.commits.grows, by simp⟩
    | canonicalizationError => exact Ends.throw ⟨h'.commits.grows, by simp⟩

/-- **A recording**, from one settled bundle to another. -/
theorem record_ends (calls : List Call) (hplain : ∀ call ∈ calls, call.Plain S.limits.maxDepth)
    (h : Settled S s done links lines)
    (hturns : done.2.length + (calls.map Call.turns).sum ≤ 10_000) :
    Ends (S.record calls done) s fun o s' => Grows S s s' ∧
      ∀ final, o = .ok final → final.2.length ≤ done.2.length + (calls.map Call.turns).sum ∧
        ∃ links lines, Settled S s' final links lines := by
  induction calls generalizing s done links lines with
  | nil =>
    refine Ends.pure ⟨h.grows_self, fun final hfinal => ?_⟩
    obtain rfl := Except.ok.inj hfinal
    exact ⟨Nat.le_add_right _ _, links, lines, h⟩
  | cons call calls ih =>
    obtain ⟨hcall, hcalls⟩ := List.forall_mem_cons.mp hplain
    rw [List.map_cons, List.sum_cons] at hturns ⊢
    refine Ends.bind (attempt_ends h hcall (by omega)) ?_ ?_
    · rintro next s₁ ⟨hgrows, hnext⟩
      obtain ⟨hlength, links, lines, h₁⟩ := hnext next rfl
      refine (ih hcalls h₁ (by omega)).mono ?_
      rintro o s' ⟨hgrows', hfinal⟩
      refine ⟨hgrows.trans hgrows', fun final ho => ?_⟩
      obtain ⟨hlength', hsettled⟩ := hfinal final ho
      exact ⟨by omega, hsettled⟩
    · rintro e s₁ ⟨hgrows, -⟩
      exact ⟨hgrows, by simp⟩

/-- A bundle that was just created. -/
theorem settled_new : Settled S S.new ([], []) [] [] where
  holds := ⟨rfl, by simp, rfl, by simp, rfl⟩
  visible := by simp [Verifier.filesIn, Disk.those, WriterSetting.disk, WriterSetting.created,
    WriterSetting.new, EVENTS_JSONL, CHAIN_JSONL]
  events := build_eq_ok.mpr ⟨S.isHash .events, [], rfl, rfl, rfl⟩
  decisions := build_eq_ok.mpr ⟨S.isHash .decisions, [], rfl, rfl, rfl⟩
  wellFormed := by simp
  lines := .nil
  numberedEvents := numbered_nil
  numberedDecisions := numbered_nil
  turns := by simp

/-- The disk at a later moment. -/
theorem after_take {steps : List (DiskStep Path)} (h : s'.steps = s.steps ++ steps) {n : ℕ}
    (hn : s.steps.length ≤ n) : S.created.after (s'.steps.take n) =
      (S.disk s).after (steps.take (n - s.steps.length)) := by
  rw [h, List.take_append, List.take_of_length_le hn, Disk.after_append]
  rfl

theorem Fit.left {calls more : List Call} (h : Fit S (calls ++ more)) :
    (∀ call ∈ calls, call.Plain S.limits.maxDepth) ∧
      (∀ call ∈ more, call.Plain S.limits.maxDepth) ∧
      (calls.map Call.turns).sum + (more.map Call.turns).sum ≤ 10_000 := by
  obtain ⟨hplain, hturns⟩ := h
  rw [List.forall_mem_append] at hplain
  rw [List.map_append, List.sum_append] at hturns
  exact ⟨hplain.1, hplain.2, hturns⟩

end Recordings

/-! ## What survives -/

namespace Sample

def writer : WriterSetting where
  toVerifier := verifier
  observation := acceptAll
  ledgerRow := acceptAll
  metrics := acceptAll
  runId := txt "run_0123456789abcdef"
  agentManifest := []
  manifest := []
  fails _ := false
  taken _ := 4096

@[irreducible] def first : List Call :=
  [.appendEvent [(txt "seq", .int 0)], .writeRaw (txt "raw/0000-a1.txt") [0x7B]]

def decision : Call :=
  .appendDecision [(txt "turn", .int 0), (txt "run_id", .str (txt "run_0123456789abcdef"))]

theorem plain_obj {members : Members} (hkeys : Json.NodupKeys members)
    (hvalues : ∀ m ∈ members, m.2.Plain 0) : (Json.obj members).Plain writer.limits.maxDepth :=
  Json.Plain.mono (Json.plain_obj hkeys hvalues) (by simp [writer, verifier])

theorem fit : Fit writer (first ++ [decision]) where
  plain := by
    unfold first decision
    simp only [List.cons_append, List.nil_append, List.forall_mem_cons, Call.Plain]
    refine ⟨plain_obj (by simp [Json.NodupKeys]) (by simp), trivial,
      plain_obj (by simp [Json.NodupKeys]) (by simp), by simp⟩
  turns := by
    unfold first decision
    simp [Call.turns]

end Sample

end WagmiBench.Recorder
