import WagmiBench.Core.Engine.Scenario
import WagmiBench.Sandbox.BlockLog

/-!
# The block logs of the containers

`DockerEgressEventSource` of `sandbox/orchestration.py`: every drain reads both logs from the start,
skips the lines it has recorded and hands the others to the buffer, which knows them by their
position. The lines of a log are recorded only when all of them were taken in.
-/

namespace WagmiBench.Sandbox

open WagmiBench.Lib WagmiBench.Spec WagmiBench.Harness

/-! ## The source -/

/-- The containers whose logs are read. -/
inductive LogSource where
  | gateway
  | guard
  deriving DecidableEq, Repr

def LogSource.text : LogSource → Text
  | .gateway => txt "gateway"
  | .guard => txt "guard"

/-- `self._containers` -/
def LogSource.containers : List LogSource := [.gateway, .guard]

/-- `PreflightFailure`, or what a line raises besides `BlockRecordError`. -/
inductive DrainError where
  | preflight (message : Text)
  | raised (e : RecordError)

/-- What `docker logs` prints for each container; `none` when the command fails. -/
abbrev Snapshots := LogSource → Option Text

/-- `DockerEgressEventSource` -/
structure EgressSource where
  priorLines : LogSource → List Text
  buffer : BlockEventBuffer

/-- `DockerEgressEventSource(guard_name=…, gateway_name=…)` -/
def EgressSource.new : EgressSource := ⟨fun _ => [], .empty⟩

section Source

variable (limits : Json.Limits)

/-- The loop over the new lines: how it ends, and the buffer it leaves. -/
def ingestLines (source : LogSource) :
    ℕ → List Text → BlockEventBuffer → Except DrainError Unit × BlockEventBuffer
  | _, [], buffer => (.ok (), buffer)
  | index, line :: lines, buffer =>
    match buffer.append limits ⟨source.text, decimal index, .str line⟩ with
    | (.ok _, buffer) => ingestLines source (index + 1) lines buffer
    | (.error (.blockRecord _), buffer) =>
      (.error (.preflight (source.text ++ txt " emitted an invalid block record")), buffer)
    | (.error e, buffer) => (.error (.raised e), buffer)

/-- The loop over the containers, at one of them. -/
def EgressSource.read (state : EgressSource) (source : LogSource) (output : Option Text) :
    Except DrainError Unit × EgressSource :=
  match output with
  | none => (.error (.preflight (txt "Docker isolation probe failed: docker logs")), state)
  | some output =>
    let current := textLines output
    let prior := state.priorLines source
    if current.length < prior.length ∨ current.take prior.length ≠ prior then
      (.error (.preflight (source.text ++ txt " block log rotated or changed before ingestion")), state)
    else
      match ingestLines limits source prior.length (current.drop prior.length) state.buffer with
      | (.ok _, buffer) => (.ok (), ⟨Function.update state.priorLines source current, buffer⟩)
      | (.error e, buffer) => (.error e, { state with buffer })

/-- The loop over the containers. -/
def EgressSource.readAll (outputs : Snapshots) :
    List LogSource → EgressSource → Except DrainError Unit × EgressSource
  | [], state => (.ok (), state)
  | source :: sources, state =>
    match state.read limits source (outputs source) with
    | (.ok _, state) => state.readAll outputs sources
    | (.error e, state) => (.error e, state)

/-- `drain_harness_events`. Its lock orders the calls. -/
def EgressSource.drainHarnessEvents (state : EgressSource) (outputs : Snapshots) :
    Except DrainError (List HarnessEvent) × EgressSource :=
  match state.readAll limits outputs LogSource.containers with
  | (.error e, state) => (.error e, state)
  | (.ok _, state) =>
    let (events, buffer) := state.buffer.drainHarnessEvents
    (.ok events, { state with buffer })

/-! ## Runs -/

/-- The containers whose log one drain asks for: it stops at the first it cannot take in. -/
def EgressSource.consulted (state : EgressSource) (outputs : Snapshots) : List LogSource → List LogSource
  | [] => []
  | source :: sources =>
    match state.read limits source (outputs source) with
    | (.ok _, state) => source :: state.consulted outputs sources
    | (.error _, _) => [source]

/-- A source, with what it was last shown of each log and what its drains have returned. -/
structure Watch where
  source : EgressSource
  shown : LogSource → Text
  returned : List HarnessEvent

/-- One drain. -/
def Watch.drain (watch : Watch) (outputs : Snapshots) : Watch where
  source := (watch.source.drainHarnessEvents limits outputs).2
  shown s :=
    if s ∈ watch.source.consulted limits outputs LogSource.containers then
      (outputs s).getD (watch.shown s)
    else watch.shown s
  returned := watch.returned ++ (watch.source.drainHarnessEvents limits outputs).1.toOption.getD []

/-- The drains, one after the other, on a new source. -/
def watch (drains : List Snapshots) : Watch :=
  drains.foldl (Watch.drain limits) ⟨.new, fun _ => [], []⟩

variable {limits}

@[simp] theorem watch_concat (drains : List Snapshots) (outputs : Snapshots) :
    watch limits (drains ++ [outputs]) = (watch limits drains).drain limits outputs := by
  simp [watch]

end Source

/-! ## What one drain does -/

section Drain

variable (limits : Json.Limits)

/-- A line that is a record. -/
def IsRecordLine (line : Text) : Prop :=
  ∃ record, ((LogLine.str line).encode >>= parseBlockRecord limits) = .ok record

/-- A snapshot that continues the recorded lines, with records only. -/
def Clean (prior : List Text) (output : Option Text) : Prop :=
  ∃ text, output = some text ∧ prior <+: textLines text ∧
    ∀ line ∈ (textLines text).drop prior.length, IsRecordLine limits line

variable {limits}

theorem append_named (buffer : BlockEventBuffer) (source : LogSource) (index : ℕ) (line : Text) :
    buffer.append limits ⟨source.text, decimal index, .str line⟩ =
      match ((LogLine.str line).encode >>= parseBlockRecord limits) with
      | .error e => (.error e, buffer)
      | .ok parsed =>
        if (source.text, decimal index) ∈ buffer.seen then (.ok false, buffer)
        else (.ok true, ⟨buffer.records ++ [parsed],
          (source.text, decimal index) :: buffer.seen⟩) := by
  have hnamed : ¬ (source.text = [] ∨ decimal index = []) := by
    rintro (h | h)
    · cases source <;> cases h
    · exact decimal_ne_nil index h
  rw [BlockEventBuffer.append, if_neg hnamed]
  rfl

/-- The lines are all taken in exactly when they are records, and nothing buffered is lost. -/
theorem ingestLines_spec (source : LogSource) (index : ℕ) (lines : List Text)
    (buffer : BlockEventBuffer) :
    ((ingestLines limits source index lines buffer).1.isOk ↔
        ∀ line ∈ lines, IsRecordLine limits line) ∧
      buffer.records <+: (ingestLines limits source index lines buffer).2.records := by
  induction lines generalizing index buffer with
  | nil => exact ⟨by simp [ingestLines, Except.isOk, Except.toBool], List.prefix_refl _⟩
  | cons line lines ih =>
    rw [ingestLines, append_named, List.forall_mem_cons]
    cases hline : ((LogLine.str line).encode >>= parseBlockRecord limits) with
    | error e =>
      have hno : ¬ IsRecordLine limits line := by
        rintro ⟨record, h⟩
        rw [hline] at h
        cases h
      cases e <;> simp [hno, Except.isOk, Except.toBool]
    | ok parsed =>
      have hyes : IsRecordLine limits line := ⟨parsed, hline⟩
      by_cases hseen : (source.text, decimal index) ∈ buffer.seen
      · simp only [hseen, if_true]
        exact ⟨(ih _ _).1.trans (by simp [hyes]), (ih _ _).2⟩
      · simp only [hseen, if_false]
        exact ⟨(ih _ _).1.trans (by simp [hyes]),
          (List.prefix_append _ _).trans (ih _ ⟨buffer.records ++ [parsed], _⟩).2⟩

/-- A line that is no record leaves the buffer. -/
theorem ingestLines_cut {line : Text} (h : ¬ IsRecordLine limits line) (source : LogSource)
    (index : ℕ) (buffer : BlockEventBuffer) :
    ∃ e, ingestLines limits source index [line] buffer = (.error e, buffer) := by
  rw [ingestLines, append_named]
  cases hline : ((LogLine.str line).encode >>= parseBlockRecord limits) with
  | error e => cases e <;> exact ⟨_, rfl⟩
  | ok parsed => exact absurd ⟨parsed, hline⟩ h

variable (state : EgressSource) (source : LogSource) (output : Option Text)

/-- A snapshot that continues the recorded lines, as its new lines end. -/
theorem EgressSource.read_continuing {text : Text} {prior fresh : List Text} {index : ℕ}
    (hprior : state.priorLines source = prior) (hindex : prior.length = index)
    (hlines : textLines text = prior ++ fresh) :
    (∀ {u buffer}, ingestLines limits source index fresh state.buffer = (.ok u, buffer) →
      state.read limits source (some text) =
        (.ok (), ⟨Function.update state.priorLines source (prior ++ fresh), buffer⟩)) ∧
    ∀ {e buffer}, ingestLines limits source index fresh state.buffer = (.error e, buffer) →
      state.read limits source (some text) = (.error e, { state with buffer }) := by
  have hsame : ¬ ((prior ++ fresh).length < prior.length ∨
      (prior ++ fresh).take prior.length ≠ prior) := by
    simp
  subst hindex
  constructor <;>
  · intro u buffer hingest
    simp only [EgressSource.read, hprior, hlines]
    rw [if_neg hsame, List.drop_left, hingest]

/-- What reading one log does. -/
theorem EgressSource.read_spec :
    ((state.read limits source output).1.isOk ↔ Clean limits (state.priorLines source) output) ∧
      state.buffer.records <+: (state.read limits source output).2.buffer.records ∧
      (∀ other ≠ source,
        (state.read limits source output).2.priorLines other = state.priorLines other) ∧
      ∀ e, (state.read limits source output).1 = .error e →
        (state.read limits source output).2.priorLines = state.priorLines := by
  cases output with
  | none =>
    exact ⟨by simp [EgressSource.read, Clean, Except.isOk, Except.toBool], List.prefix_refl _,
      fun _ _ => rfl, fun _ _ => rfl⟩
  | some text =>
    have hclean : Clean limits (state.priorLines source) (some text) ↔
        state.priorLines source <+: textLines text ∧ ∀ line ∈
          (textLines text).drop (state.priorLines source).length, IsRecordLine limits line := by
      simp [Clean]
    rw [hclean, List.prefix_iff_eq_take, EgressSource.read]
    split
    · rename_i hdrift
      refine ⟨?_, List.prefix_refl _, fun _ _ => rfl, fun _ _ => rfl⟩
      simp only [Except.isOk, Except.toBool, Bool.false_eq_true, false_iff, not_and]
      intro hprior
      rcases hdrift with hshort | hother
      · have := congrArg List.length hprior
        rw [List.length_take] at this
        omega
      · exact absurd hprior.symm hother
    · rename_i hdrift
      rw [not_or, not_not] at hdrift
      obtain ⟨hok, hgrown⟩ := @ingestLines_spec limits source
        (state.priorLines source).length
        ((textLines text).drop (state.priorLines source).length) state.buffer
      rw [← hok]
      cases hingest : ingestLines limits source (state.priorLines source).length
          ((textLines text).drop (state.priorLines source).length) state.buffer with
      | mk result buffer =>
        rw [hingest] at hgrown
        cases result with
        | error e =>
          exact ⟨by simp [Except.isOk, Except.toBool], hgrown, fun _ _ => rfl, fun _ _ => rfl⟩
        | ok u =>
          refine ⟨⟨fun _ => ⟨hdrift.2.symm, rfl⟩, fun _ => rfl⟩, hgrown, fun other h => ?_,
            fun _ h => by cases h⟩
          exact Function.update_of_ne h _ _

/-- **When a drain succeeds.** Every container shows a snapshot that continues what is recorded of it,
and all records behind that. -/
theorem EgressSource.drain_isOk_iff (outputs : Snapshots) :
    (state.drainHarnessEvents limits outputs).1.isOk ↔
      ∀ source, Clean limits (state.priorLines source) (outputs source) := by
  have hall : (∀ source, Clean limits (state.priorLines source) (outputs source)) ↔
      Clean limits (state.priorLines .gateway) (outputs .gateway) ∧
        Clean limits (state.priorLines .guard) (outputs .guard) :=
    ⟨fun h => ⟨h _, h _⟩, fun h source => by cases source <;> simp [h]⟩
  obtain ⟨hgateway, -, hframe, -⟩ :=
    @EgressSource.read_spec limits state .gateway (outputs .gateway)
  rw [hall, ← hgateway, ← hframe .guard (by decide), EgressSource.drainHarnessEvents,
    LogSource.containers, EgressSource.readAll]
  cases hread : state.read limits .gateway (outputs .gateway) with
  | mk result next =>
    cases result with
    | error e => simp [Except.isOk, Except.toBool]
    | ok u =>
      obtain ⟨hguard, -⟩ := @EgressSource.read_spec limits next .guard (outputs .guard)
      dsimp only
      rw [← hguard, EgressSource.readAll]
      cases next.read limits .guard (outputs .guard) with
      | mk result next =>
        cases result <;> simp [Except.isOk, Except.toBool, EgressSource.readAll]

theorem EgressSource.readAll_records (outputs : Snapshots) (sources : List LogSource) :
    state.buffer.records <+: (state.readAll limits outputs sources).2.buffer.records := by
  induction sources generalizing state with
  | nil => exact List.prefix_refl _
  | cons source sources ih =>
    rw [EgressSource.readAll]
    have hgrown := (@EgressSource.read_spec limits state source (outputs source)).2.1
    cases hread : state.read limits source (outputs source) with
    | mk result next =>
      rw [hread] at hgrown
      cases result with
      | error e => exact hgrown
      | ok u => exact hgrown.trans (ih next)

/-- A record as the harness is told of it. -/
def ParsedBlockRecord.harnessEvent (record : ParsedBlockRecord) : HarnessEvent :=
  ⟨txt "EgressBlocked", record.eventPayload⟩

/-- **Nothing buffered is lost.** A drain that fails keeps it, and one that succeeds returns it
first. -/
theorem EgressSource.drain_conserves (outputs : Snapshots) :
    (∀ e, (state.drainHarnessEvents limits outputs).1 = .error e →
      state.buffer.records <+: (state.drainHarnessEvents limits outputs).2.buffer.records) ∧
    ∀ events, (state.drainHarnessEvents limits outputs).1 = .ok events →
      state.buffer.records.map ParsedBlockRecord.harnessEvent <+: events ∧
        (state.drainHarnessEvents limits outputs).2.buffer.records = [] := by
  have hgrown := @EgressSource.readAll_records limits state outputs LogSource.containers
  rw [EgressSource.drainHarnessEvents]
  cases hread : state.readAll limits outputs LogSource.containers with
  | mk result next =>
    rw [hread] at hgrown
    cases result with
    | error e => exact ⟨fun _ _ => hgrown, fun _ h => by cases h⟩
    | ok u =>
      refine ⟨fun _ h => (nomatch h), ?_⟩
      rintro events h
      obtain rfl := Except.ok.inj h
      exact ⟨hgrown.map _, rfl⟩

end Drain

end WagmiBench.Sandbox
