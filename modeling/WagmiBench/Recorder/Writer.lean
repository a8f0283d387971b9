import WagmiBench.Recorder.Streams
import WagmiBench.Lib.Effects

/-!
# Writing a bundle

`BundleWriter` of `recorder/writer.py`, from the moment `create` has returned until `finalize` is
called: events and decisions are appended and chained one by one, and everything else is installed
as a file of its own. Every system call may fail and a `write` may take fewer bytes than it was
given; the writer keeps the steps that changed the disk, so that a process killed in between has
made the first of them.
-/

namespace WagmiBench.Recorder

open WagmiBench.Lib WagmiBench.Core WagmiBench.Spec

/-- What a method of the writer raises. -/
inductive Fault where
  /-- `RecorderError`, `RecorderValidationError` among them. -/
  | recorderError (message : Text)
  | osError
  | canonicalizationError

/-- What a writer is created with, and what its system calls will do: whether a call fails, and how
many bytes a `write` takes, by the number of the call. -/
structure WriterSetting extends Verifier where
  observation : Validator
  ledgerRow : Validator
  metrics : Validator
  /-- `manifest.run_id` -/
  runId : Text
  /-- The canonical bytes of both manifests. -/
  agentManifest : Bytes
  manifest : Bytes
  fails : ℕ → Bool
  taken : ℕ → ℕ

/-- `BundleWriter`: what changes in it, and what it has done to the disk. -/
structure BundleWriter where
  steps : List (DiskStep Path)
  calls : ℕ
  eventChain : ChainBuilder
  decisionChain : ChainBuilder
  observations : List ℤ
  rawRefs : List Text
  lastEvent : Option Members
  finalized : Bool

namespace BundleWriter

def setEventChain (chain : ChainBuilder) (s : BundleWriter) : BundleWriter :=
  { s with eventChain := chain }

def setDecisionChain (chain : ChainBuilder) (s : BundleWriter) : BundleWriter :=
  { s with decisionChain := chain }

end BundleWriter

/-- A method of the writer. -/
abbrev Method := EStateM Fault BundleWriter

namespace WriterSetting

variable (S : WriterSetting)

/-- The files that `create` installs. -/
def created : Disk Path :=
  [(⟨.top, txt "agent_manifest.json"⟩, S.agentManifest), (⟨.top, txt "manifest.json"⟩, S.manifest),
    (EVENTS_JSONL, []), (CHAIN_JSONL, [])]

/-- The disk as a writer has left it. -/
def disk (s : BundleWriter) : Disk Path := S.created.after s.steps

/-- The writer that `create` returns. -/
def new : BundleWriter where
  steps := []
  calls := 0
  eventChain := ⟨.events, S.genesis .events, S.genesis .events, 0⟩
  decisionChain := ⟨.decisions, S.genesis .decisions, S.genesis .decisions, 0⟩
  observations := []
  rawRefs := []
  lastEvent := none
  finalized := false

/-! ## System calls -/

def raiseFault {α : Type} (fault : Fault) : Method α := throw fault

def recorderError {α : Type} (message : Text) : Method α := throw (.recorderError message)

/-- A check that raises a `RecorderError`. -/
def check (c : Prop) [Decidable c] (message : Text) : Method Unit :=
  if c then pure () else recorderError message

/-- A system call. -/
def call : Method Unit := do
  let number := (← get).calls
  modify fun s => { s with calls := s.calls + 1 }
  if S.fails number then
    raiseFault .osError

/-- A change of the disk. -/
def perform (step : DiskStep Path) : Method Unit :=
  modify fun s => { s with steps := s.steps ++ [step] }

/-- `path.exists()` -/
def fileExists (path : Path) : Method Bool := do
  return path ∈ (S.disk (← get)).paths

/-- The loop of `_write_all`, for at most so many rounds. -/
def writeRounds (path : Path) : ℕ → Bytes → Method Unit
  | 0, _ => pure ()
  | rounds + 1, data =>
    if data = [] then
      pure ()
    else do
      let number := (← get).calls
      S.call
      if S.taken number = 0 then
        raiseFault .osError
      perform (.append path (data.take (S.taken number)))
      writeRounds path rounds (data.drop (S.taken number))

/-- `_write_all`: each round takes a byte at least. -/
def writeAll (path : Path) (data : Bytes) : Method Unit := S.writeRounds path data.length data

/-- The path of the temporary file of a path. -/
def temporary (path : Path) : Path :=
  { path with name := codePoint 0x2E :: path.name ++ txt ".tmp" }

/-- `_atomic_new_file` -/
def atomicNewFile (path : Path) (data : Bytes) : Method Unit := do
  let refused := txt "refusing to overwrite immutable file"
  check ((← S.fileExists path) = false) refused
  S.call
  check ((← S.fileExists (temporary path)) = false) (txt "stale recorder temporary file")
  perform (.create (temporary path))
  S.writeAll (temporary path) data
  S.call -- `fsync`
  check ((← S.fileExists path) = false) refused
  S.call
  perform (.rename (temporary path) path)
  S.call -- `_fsync_directory`

/-- `_append_fsync` -/
def appendFsync (path : Path) (data : Bytes) : Method Unit := do
  S.call
  if (← S.fileExists path) = false then
    raiseFault .osError
  S.writeAll path data
  S.call

/-! ## Records -/

/-- `validate_instance` in the writer. -/
def validate (validator : Validator) (value : Json) (context : Text) : Method Unit :=
  match validateInstance validator value context with
  | .ok () => pure ()
  | .error message => recorderError message

/-- `canonical_bytes` -/
def canonical (value : Json) : Method Bytes :=
  match value.canonical with
  | .ok bytes => pure bytes
  | .error _ => raiseFault .canonicalizationError

/-- `_integer(value, context, minimum=minimum)` -/
def integerFrom (minimum : ℤ) (value : Option Json) (context : Text) : Method ℤ :=
  let refused := context ++ txt " must be an integer >= " ++ decimalInt minimum
  match value with
  | some (.int n) => if minimum ≤ n then pure n else recorderError refused
  | _ => recorderError refused

/-- `_integer(value, context)` -/
def integer (value : Option Json) (context : Text) : Method ℕ := do
  return (← integerFrom 0 value context).toNat

def requireOpen : Method Unit := do
  check ((← get).finalized = false) (txt "bundle is already finalized")

/-- A link as the dictionary that `ChainBuilder.append` returns. -/
def linkValue (link : ChainLink) : Json :=
  .obj [(txt "schema", .str link.schema), (txt "stream", .str link.stream),
    (txt "seq", .int link.seq), (txt "record_sha256", .str link.recordSha256),
    (txt "link_sha256", .str link.linkSha256)]

/-- `ChainBuilder.append` of the chain that is kept in a field, and the line of the link. -/
def appendLink (chain : BundleWriter → ChainBuilder)
    (setChain : ChainBuilder → BundleWriter → BundleWriter) (record : Bytes) : Method Unit := do
  match (chain (← get)).append S.sha record with
  | .error _ => raiseFault .canonicalizationError
  | .ok (link, next) =>
    modify (setChain next)
    S.appendFsync CHAIN_JSONL ((← canonical (linkValue link)) ++ [newline])

/-- `append_event` -/
def appendEvent (event : Members) : Method Unit := do
  requireOpen
  let count := (← get).eventChain.count
  validate S.event (.obj event) (txt "event seq " ++ decimal count)
  let seq ← integer (Json.lookup (txt "seq") event) (txt "event.seq")
  check (seq = count) (txt "event seq must be " ++ decimal count ++ txt ", got " ++ decimal seq)
  let record ← canonical (.obj event)
  S.appendFsync EVENTS_JSONL (record ++ [newline])
  S.appendLink BundleWriter.eventChain BundleWriter.setEventChain record
  modify fun s => { s with lastEvent := some event }

/-- `append_decision` -/
def appendDecision (decision : Members) : Method Unit := do
  requireOpen
  let turn ← integer (Json.lookup (txt "turn") decision) (txt "decision.turn")
  let count := (← get).decisionChain.count
  check (turn = count)
    (txt "decision turn must be " ++ decimal count ++ txt ", got " ++ decimal turn)
  check (Json.lookup (txt "run_id") decision = some (.str S.runId))
    (txt "decision.run_id does not match manifest.run_id")
  validate S.decisionRecord (.obj decision) (txt "decision turn " ++ decimal turn)
  let record ← canonical (.obj decision)
  S.atomicNewFile ⟨.decisions, turnName turn⟩ record
  S.appendLink BundleWriter.decisionChain BundleWriter.setDecisionChain record

/-- `write_observation` -/
def writeObservation (turn : Json) (observation : Members) : Method Unit := do
  requireOpen
  let number ← integer (some turn) (txt "turn")
  check ((number : ℤ) ∉ (← get).observations)
    (txt "observation turn " ++ decimal number ++ txt " already written")
  validate S.observation (.obj observation) (txt "observation turn " ++ decimal number)
  let bytes ← canonical (.obj observation)
  S.atomicNewFile ⟨.observations, turnName number⟩ bytes
  modify fun s => { s with observations := s.observations ++ [(number : ℤ)] }

/-- The name in a reference that `_RAW_REF` matches. -/
def matchRawRef (ref : Text) : Option Text :=
  let name := ref.drop 4
  if ref.take 4 = txt "raw/" ∧ name.length = 11 ∧ (name.take 4).all isDigit = true ∧
      (name.drop 4).take 2 = txt "-a" ∧
      (name[6]? = some (codePoint 0x31) ∨ name[6]? = some (codePoint 0x32)) ∧
      name.drop 7 = txt ".txt" then
    some name
  else none

/-- `write_raw` -/
def writeRaw (relativeRef : Text) (data : Bytes) : Method Unit := do
  requireOpen
  match matchRawRef relativeRef with
  | none => recorderError (txt "invalid raw blob reference")
  | some name =>
    check (relativeRef ∉ (← get).rawRefs) (txt "raw blob already written: " ++ relativeRef)
    S.atomicNewFile ⟨.raw, name⟩ data
    modify fun s => { s with rawRefs := s.rawRefs ++ [relativeRef] }

/-- `-(2**53 - 1)` -/
def LEAST_INTEGER : ℤ := -(2 ^ 53 - 1)

/-- The loop of `write_ledgers`, at one row. -/
def checkLedgerRow (profile : String) (row : Members) (index : ℕ) : Method Unit := do
  let place := txt profile ++ txt " ledger row " ++ decimal index
  let field (name : String) : Method ℤ :=
    integerFrom LEAST_INTEGER (Json.lookup (txt name) row) (place ++ txt "." ++ txt name)
  validate S.ledgerRow (.obj row) place
  check (Json.lookup (txt "profile") row = some (.str (txt profile)))
    (place ++ txt " has wrong profile")
  let dNav ← field "d_nav_micro"
  let components ← ["d_price_pnl_micro", "d_funding_micro", "d_fees_micro",
    "d_liq_penalty_micro"].mapM field
  check (dNav = components.sum) (place ++ txt " violates MATH-2")

/-- `_canonical_jsonl` -/
def canonicalJsonl (rows : List Members) : Method Bytes := do
  return joinLines (← rows.mapM fun row => canonical (.obj row))

/-- `write_ledgers` -/
def writeLedgers (primary stress2x : List Members) : Method Unit := do
  requireOpen
  check (primary.length = stress2x.length) (txt "primary and stress ledgers have different lengths")
  for (profile, rows) in [("primary", primary), ("stress_2x", stress2x)] do
    for (row, index) in rows.zipIdx do
      S.checkLedgerRow profile row index
  S.atomicNewFile ⟨.top, txt "ledger.jsonl"⟩ (← canonicalJsonl primary)
  S.atomicNewFile ⟨.top, txt "ledger_stress_2x.jsonl"⟩ (← canonicalJsonl stress2x)

/-- `write_metrics` -/
def writeMetrics (metrics : Members) : Method Unit := do
  requireOpen
  validate S.metrics (.obj metrics) (txt "metrics")
  check (Json.lookup (txt "run_id") metrics = some (.str S.runId))
    (txt "metrics.run_id does not match manifest.run_id")
  S.atomicNewFile ⟨.top, txt "metrics.json"⟩ ((← canonical (.obj metrics)) ++ [newline])

end WriterSetting

/-! ## Calls -/

/-- A call of a method, with what it is given. -/
inductive Call where
  | writeObservation (turn : Json) (observation : Members)
  | writeRaw (relativeRef : Text) (data : Bytes)
  | appendEvent (event : Members)
  | appendDecision (decision : Members)
  | writeLedgers (primary stress2x : List Members)
  | writeMetrics (metrics : Members)

/-- Records of both streams, events and decisions. -/
abbrev Done := List Bytes × List Bytes

/-- The bytes of a document, when it has canonical ones. -/
def bytesOf (members : Members) : List Bytes := (Json.obj members).canonical.toOption.toList

namespace Call

def run (S : WriterSetting) : Call → Method Unit
  | writeObservation turn observation => S.writeObservation turn observation
  | writeRaw relativeRef data => S.writeRaw relativeRef data
  | appendEvent event => S.appendEvent event
  | appendDecision decision => S.appendDecision decision
  | writeLedgers primary stress2x => S.writeLedgers primary stress2x
  | writeMetrics metrics => S.writeMetrics metrics

/-- The records that there are when a call has returned. -/
def adds (done : Done) : Call → Done
  | appendEvent event => (done.1 ++ bytesOf event, done.2)
  | appendDecision decision => (done.1, done.2 ++ bytesOf decision)
  | _ => done

end Call

namespace WriterSetting

variable (S : WriterSetting)

/-- One call of a caller that passes over refusals: the records that there are after it. -/
def attempt (call : Call) (done : Done) : Method Done :=
  tryCatch (do call.run S; return call.adds done) fun fault =>
    match fault with
    | .recorderError _ => pure done
    | fault => throw fault

/-- Calls one after the other. A failure that is no refusal ends the recording; what is returned are
the records whose calls have returned. -/
def record : List Call → Done → Method Done
  | [], done => pure done
  | call :: calls, done => do
    record calls (← S.attempt call done)

end WriterSetting

end WagmiBench.Recorder
