import WagmiBench.Harness.Protocol
import WagmiBench.Lib.Keyed
import WagmiBench.Sandbox.Events

/-!
# The block-event buffer

`BlockEventBuffer` of `sandbox/events.py`: collected lines come in under a source and a cursor, and
leave as harness facts. Over any interleaving of the two, what has left and what is still buffered
are together the first accepted line of each source and cursor.
-/

namespace WagmiBench.Sandbox

open WagmiBench.Lib WagmiBench.Spec WagmiBench.Harness

/-- `str | bytes` -/
inductive LogLine where
  | str (text : Text)
  | bytes (raw : Bytes)

/-- `line.encode("utf-8") if isinstance(line, str) else line` -/
def LogLine.encode : LogLine → Except RecordError Bytes
  | .str text =>
    match utf8Encode text with
    | some raw => .ok raw
    | none => .error .value
  | .bytes raw => .ok raw

/-- `ParsedBlockRecord.event_payload` -/
def ParsedBlockRecord.eventPayload (record : ParsedBlockRecord) : List (Text × Json) :=
  [(txt "destination", .str record.destination),
    (txt "port", match record.port with | some port => .int port | none => .null),
    (txt "protocol", .str record.protocol.text), (txt "count", .int record.count)]

/-- One line, with where it was read. -/
structure Arrival where
  source : Text
  cursor : Text
  line : LogLine

section Buffer

variable (limits : Json.Limits)

/-- `parse_block_record(line)` -/
def Arrival.parse (arrival : Arrival) : Except RecordError ParsedBlockRecord := do
  let raw ← arrival.line.encode
  parseBlockRecord limits raw

/-- `BlockEventBuffer` -/
structure BlockEventBuffer where
  records : List ParsedBlockRecord
  seen : List (Text × Text)

/-- `BlockEventBuffer()` -/
def BlockEventBuffer.empty : BlockEventBuffer := ⟨[], []⟩

/-- `append`: how the call ends, and the buffer it leaves. -/
def BlockEventBuffer.append (buffer : BlockEventBuffer) (arrival : Arrival) :
    Except RecordError Bool × BlockEventBuffer :=
  if arrival.source = [] ∨ arrival.cursor = [] then (.error .value, buffer)
  else
    match arrival.parse limits with
    | .error e => (.error e, buffer)
    | .ok parsed =>
      let identity := (arrival.source, arrival.cursor)
      if identity ∈ buffer.seen then (.ok false, buffer)
      else (.ok true, ⟨buffer.records ++ [parsed], identity :: buffer.seen⟩)

/-- `drain_event_payloads`, before the records are wrapped. -/
def BlockEventBuffer.drain (buffer : BlockEventBuffer) : List ParsedBlockRecord × BlockEventBuffer :=
  (buffer.records, { buffer with records := [] })

/-- `drain_harness_events` -/
def BlockEventBuffer.drainHarnessEvents (buffer : BlockEventBuffer) :
    List HarnessEvent × BlockEventBuffer :=
  let (drained, buffer) := buffer.drain
  (drained.map fun record => ⟨txt "EgressBlocked", record.eventPayload⟩, buffer)

/-! ## Interleavings -/

/-- A call on the buffer. Its lock orders them. -/
inductive BufferCall where
  | append (arrival : Arrival)
  | drain

/-- A buffer, and everything its drains have returned. -/
structure Collected where
  buffer : BlockEventBuffer
  drained : List ParsedBlockRecord

/-- One call. -/
def Collected.step (collected : Collected) : BufferCall → Collected
  | .append arrival => { collected with buffer := (collected.buffer.append limits arrival).2 }
  | .drain =>
    let (drained, buffer) := collected.buffer.drain
    ⟨buffer, collected.drained ++ drained⟩

/-- The calls, one after the other, on a new buffer. -/
def collect (calls : List BufferCall) : Collected :=
  calls.foldl (Collected.step limits) ⟨.empty, []⟩

/-- The record of an acceptable line, under its source and cursor. -/
def BufferCall.accepted : BufferCall → Option ((Text × Text) × ParsedBlockRecord)
  | .append arrival =>
    if arrival.source = [] ∨ arrival.cursor = [] then none
    else (arrival.parse limits).toOption.map fun parsed => ((arrival.source, arrival.cursor), parsed)
  | .drain => none

variable {limits}

@[simp] theorem collect_concat (calls : List BufferCall) (call : BufferCall) :
    collect limits (calls ++ [call]) = (collect limits calls).step limits call := by
  simp [collect]

/-- What one call does: an acceptable line with a new identity is appended, and nothing is lost. -/
theorem Collected.step_eq (collected : Collected) (call : BufferCall) :
    (collected.step limits call).drained ++ (collected.step limits call).buffer.records =
        collected.drained ++ collected.buffer.records ++
          ((call.accepted limits).toList.filter (·.1 ∉ collected.buffer.seen)).map Prod.snd ∧
      ∀ identity, identity ∈ (collected.step limits call).buffer.seen ↔
        identity ∈ collected.buffer.seen ∨ ∃ parsed, call.accepted limits = some (identity, parsed) := by
  cases call with
  | drain => simp [Collected.step, BlockEventBuffer.drain, BufferCall.accepted]
  | append arrival =>
    by_cases hnamed : arrival.source = [] ∨ arrival.cursor = []
    · simp [Collected.step, BlockEventBuffer.append, BufferCall.accepted, hnamed]
    · cases hparse : arrival.parse limits with
      | error e =>
        simp [Collected.step, BlockEventBuffer.append, BufferCall.accepted, hnamed, hparse,
          Except.toOption]
      | ok parsed =>
        by_cases hseen : (arrival.source, arrival.cursor) ∈ collected.buffer.seen
        · refine ⟨by simp [Collected.step, BlockEventBuffer.append, BufferCall.accepted, hnamed,
            hparse, hseen, Except.toOption], fun identity => ?_⟩
          simp only [Collected.step, BlockEventBuffer.append, BufferCall.accepted, hnamed, hparse,
            hseen, Except.toOption, if_true, if_false]
          refine ⟨.inl, ?_⟩
          rintro (h | ⟨_, h⟩)
          · exact h
          · obtain ⟨rfl, -⟩ := Prod.mk.inj (Option.some.inj h)
            exact hseen
        · refine ⟨by simp [Collected.step, BlockEventBuffer.append, BufferCall.accepted, hnamed,
            hparse, hseen, Except.toOption], fun identity => ?_⟩
          simp [Collected.step, BlockEventBuffer.append, BufferCall.accepted, hnamed, hparse,
            hseen, Except.toOption, or_comm, eq_comm]

/-- **The buffer is exact.** What the drains returned, and what is still buffered, are the first
accepted line of each source and cursor, in the order of arrival. -/
theorem collect_eq (calls : List BufferCall) :
    (collect limits calls).drained ++ (collect limits calls).buffer.records =
        (firstOfEach (calls.filterMap (BufferCall.accepted limits))).map Prod.snd ∧
      ∀ identity, identity ∈ (collect limits calls).buffer.seen ↔
        identity ∈ (calls.filterMap (BufferCall.accepted limits)).map Prod.fst := by
  induction calls using List.reverseRecOn with
  | nil => exact ⟨rfl, fun identity => by simp [collect, BlockEventBuffer.empty]⟩
  | append_singleton calls call ih =>
    obtain ⟨hrecords, hseen⟩ := ih
    obtain ⟨hstep, hstepSeen⟩ := @Collected.step_eq limits (collect limits calls) call
    rw [collect_concat, hstep, hrecords, List.filterMap_append]
    refine ⟨?_, fun identity => ?_⟩
    · cases haccepted : call.accepted limits with
      | none => simp [haccepted]
      | some entry =>
        have hmem := hseen entry.1
        by_cases h : entry.1 ∈ (collect limits calls).buffer.seen
        · simp [haccepted, h, firstOfEach_concat, hmem.mp h]
        · rw [List.filterMap_cons_some haccepted, List.filterMap_nil, firstOfEach_concat,
            if_neg fun hold => h (hmem.mpr hold)]
          simp [h]
    · rw [hstepSeen, hseen, List.map_append, List.mem_append]
      cases haccepted : call.accepted limits with
      | none => simp [haccepted]
      | some entry =>
        obtain ⟨key, parsed⟩ := entry
        simp [haccepted, eq_comm]

/-- A line that is no record makes its call raise. -/
theorem BlockEventBuffer.append_malformed {buffer : BlockEventBuffer} {arrival : Arrival}
    {e : RecordError} (h : arrival.parse limits = .error e) :
    ∃ e', (buffer.append limits arrival).1 = .error e' := by
  by_cases hnamed : arrival.source = [] ∨ arrival.cursor = []
  · exact ⟨.value, by simp [BlockEventBuffer.append, hnamed]⟩
  · exact ⟨e, by simp [BlockEventBuffer.append, hnamed, h]⟩

/-- It changes nothing, wherever it arrives. -/
theorem collect_malformed {arrival : Arrival} {e : RecordError} (before after : List BufferCall)
    (h : arrival.parse limits = .error e) :
    collect limits (before ++ .append arrival :: after) = collect limits (before ++ after) := by
  have step : ∀ collected : Collected,
      collected.step limits (.append arrival) = collected := fun collected => by
    by_cases hnamed : arrival.source = [] ∨ arrival.cursor = [] <;>
      simp [Collected.step, BlockEventBuffer.append, hnamed, h]
  simp [collect, step]

end Buffer

end WagmiBench.Sandbox
