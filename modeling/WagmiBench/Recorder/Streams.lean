import WagmiBench.Core.Decode
import WagmiBench.Core.TextOrder
import WagmiBench.Lib.JsonPlain
import WagmiBench.Lib.JsonSchema
import WagmiBench.Spec.Chain
import WagmiBench.Lib.Disk

/-!
# Reading the chained streams of a bundle

`recorder/verify.py`, as far as it reads stored bytes back into the two chained streams: the lines
of `events.jsonl` and `chain.jsonl`, the files under `decisions`, the links by stream, and the chain
of each stream up to its last link. An unsealed bundle may end in one record that is not linked and
in lines that are not finished.
-/

namespace WagmiBench.Recorder

open WagmiBench.Lib WagmiBench.Core WagmiBench.Spec

/-! ## Files -/

inductive Folder where
  | top
  | observations
  | raw
  | decisions
  deriving DecidableEq

/-- The path of a file in a bundle. -/
structure Path where
  folder : Folder
  name : Text
  deriving DecidableEq

def EVENTS_JSONL : Path := ⟨.top, txt "events.jsonl"⟩

def CHAIN_JSONL : Path := ⟨.top, txt "chain.jsonl"⟩

/-- `f"{turn:04d}.json"` -/
def turnName (turn : ℕ) : Text := decimalPad 4 turn ++ txt ".json"

/-- The number of a name that `_DECISION_NAME` matches. -/
def matchDecisionName (name : Text) : Option ℕ :=
  if name.length = 9 ∧ (name.take 4).all isDigit = true ∧ name.drop 4 = txt ".json" then
    some (ofDecimal (name.take 4))
  else none

/-- Whether a file is hidden from the reader of an unsealed bundle. -/
def isDotName (name : Text) : Bool := name.head? == some (codePoint 0x2E)

/-! ## Failures -/

/-- `_VerificationFailure`. Where a message ends in the text of an exception of `json`, that text is
left out. -/
structure VerificationFailure where
  message : Text
  path : Text
  stream : Option StreamName
  seq : Option ℕ

/-- What the readers raise. -/
inductive Raised where
  | failure (failure : VerificationFailure)
  | valueError (message : Text)
  | recursionError

abbrev Checked := Except Raised

def fail {α : Type} (message path : Text) (stream : Option StreamName := none)
    (seq : Option ℕ := none) : Checked α :=
  .error (.failure ⟨message, path, stream, seq⟩)

section Failures

variable {α β : Type} {message path : Text} {stream : Option StreamName} {seq : Option ℕ}

@[simp] theorem fail_ne_ok {a : α} : fail message path stream seq ≠ .ok a := by
  simp [fail]

@[simp] theorem fail_bind {f : α → Checked β} :
    (fail message path stream seq >>= f) = fail message path stream seq := rfl

end Failures

/-! ## Documents -/

/-- The members of an object. -/
abbrev Members := List (Text × Json)

/-- A validator of a schema: the problem that it finds first. It does not look at the order of the
members. -/
structure Validator where
  problem : Json → Option Text
  ignoresOrder : ∀ v w : Json, v.Same w → problem v = none → problem w = none

/-- `validate_instance`, with the message of the `RecorderValidationError`. -/
def validateInstance (validator : Validator) (value : Json) (context : Text) : Except Text Unit :=
  match validator.problem value with
  | some problem => .error (context ++ problem)
  | none =>
    match value.canonical with
    | .ok _ => .ok ()
    | .error e => .error (context ++ txt ": " ++ txt (canonicalizationMessage e))

/-- `_decode_json` -/
def decodeJson (limits : Json.Limits) (raw : Bytes) (path : Text) : Checked Json :=
  match utf8Decode false raw with
  | none => fail (path ++ txt ": invalid UTF-8") path
  | some text =>
    match Json.loads limits Json.strictHooks text with
    | .ok value => .ok value
    | .error .recursion => .error .recursionError
    | .error _ => fail (path ++ txt ": invalid JSON") path

/-- `_object` -/
def object (value : Json) (path : Text) : Checked Members :=
  match value with
  | .obj members => .ok members
  | _ => fail (path ++ txt ": expected an object") path

/-- The end of `_read_jsonl` and of `_read_document`: the stored bytes are canonical, and the
document is valid. -/
def checkStored (raw : Bytes) (validator : Option Validator)
    (context cannotCanonicalize notCanonical : Text) (refuse : Text → Checked Members)
    (members : Members) : Checked Members :=
  match (Json.obj members).canonical with
  | .error e => refuse (cannotCanonicalize ++ txt (canonicalizationMessage e))
  | .ok expected =>
    if raw ≠ expected then
      refuse notCanonical
    else
      match validator.elim (.ok ()) fun v => validateInstance v (.obj members) context with
      | .ok () => return members
      | .error message => refuse message

/-- `value == n`, of a value that was read without fractions. -/
def equalsNumber (value : Option Json) (n : ℕ) : Bool :=
  match value with
  | some (.int m) => m = n
  | some (.bool b) => b.toNat = n
  | _ => false

/-! ## Lines -/

/-- `_JsonlRead` -/
structure JsonlRead where
  objects : List Members
  records : List Bytes
  partialTail : Bytes

section Lines

variable (limits : Json.Limits) (relative : Text) (validator : Option Validator)
  (stream : Option StreamName)

/-- The loop of `_read_jsonl`, at one line. -/
def readLine (line : Bytes) (index : ℕ) : Checked Members := do
  let number := decimal (index + 1)
  if line = [] then
    fail (relative ++ txt ": blank record at line " ++ number) relative stream index
  let path := relative ++ txt ":" ++ number
  let members ← object (← decodeJson limits line path) path
  let record := relative ++ txt ": record " ++ decimal index
  checkStored line validator (relative ++ txt " record " ++ decimal index)
    (record ++ txt " cannot canonicalize: ") (record ++ txt " is not canonical JCS")
    (fun message => fail message relative stream index) members

/-- `_read_jsonl` -/
def readJsonl (raw : Option Bytes) (isSealed : Bool) : Checked JsonlRead := do
  match raw with
  | none => fail (relative ++ txt ": cannot read required file") relative stream
  | some raw =>
    let pieces := raw.splitOn newline
    let partialTail := pieces.getLastD []
    let complete := pieces.dropLast
    if isSealed ∧ partialTail ≠ [] then
      fail (relative ++ txt ": sealed JSONL has an unterminated final record") relative stream
        complete.length
    let objects ← complete.zipIdx.mapM fun (line, index) =>
      readLine limits relative validator stream line index
    return ⟨objects, complete, partialTail⟩

end Lines

/-! ## Decisions -/

/-- `_read_document`, of a document that does not end in a newline. -/
def readDocument (limits : Json.Limits) (relative : Text) (validator : Validator) (raw : Bytes) :
    Checked Members := do
  if raw.getLast? = some newline then
    fail (relative ++ txt ": unexpected trailing newline") relative
  let members ← object (← decodeJson limits raw relative) relative
  checkStored raw (some validator) relative (relative ++ txt ": cannot canonicalize: ")
    (relative ++ txt ": stored bytes are not canonical JCS") (fun message => fail message relative)
    members

/-- The loop of `_read_decisions`, at one file. -/
def readDecision (limits : Json.Limits) (validator : Validator) (file : Text × Bytes)
    (expected : ℕ) : Checked Members := do
  let relative := txt "decisions/" ++ file.1
  match matchDecisionName file.1 with
  | none =>
    fail (relative ++ txt ": unexpected decision artifact") relative (some .decisions) expected
  | some number =>
    if number ≠ expected then
      fail (relative ++ txt ": expected decisions/" ++ turnName expected) relative (some .decisions)
        expected
    let members ← readDocument limits relative validator file.2
    if equalsNumber (Json.lookup (txt "turn") members) expected then
      return members
    else
      fail (relative ++ txt ": decision.turn is not the number of the file") relative
        (some .decisions) expected

/-- `_read_decisions`: the documents and their bytes. -/
def readDecisions (limits : Json.Limits) (validator : Validator) (isSealed : Bool)
    (files : List (Text × Bytes)) : Checked (List Members × List Bytes) := do
  let candidates := (files.filter fun file => isSealed || !isDotName file.1).insertionSort
    fun a b => textLe a.1 b.1 = true
  let objects ← candidates.zipIdx.mapM fun (file, expected) =>
    readDecision limits validator file expected
  return (objects, candidates.map Prod.snd)

/-! ## Links -/

/-- The strings that `^sha256:[0-9a-f]{64}$` matches; `$` also matches before a last newline. -/
def hashPattern (value : Text) : Bool :=
  IsHash value || (value.getLast? == some (codePoint 0x0A) && IsHash value.dropLast)

/-- `chain_link` of `chain.v1.schema.json` -/
def CHAIN_LINK_SCHEMA : Json.Schema :=
  .object ["schema", "stream", "seq", "record_sha256", "link_sha256"]
    [("schema", .enum [.str (txt "chain_link/v1")]),
      ("stream", .enum [.str StreamName.events.text, .str StreamName.decisions.text]),
      ("seq", .integer (some 0) none),
      ("record_sha256", .string hashPattern),
      ("link_sha256", .string hashPattern)]
    none

/-- A document of the schema, as a link. -/
def toChainLink (members : Members) : Option ChainLink :=
  match Json.lookup (txt "schema") members, Json.lookup (txt "stream") members,
    Json.lookup (txt "seq") members, Json.lookup (txt "record_sha256") members,
    Json.lookup (txt "link_sha256") members with
  | some (.str schema), some (.str stream), some (.int seq), some (.str recordSha256),
    some (.str linkSha256) => some ⟨schema, stream, seq, recordSha256, linkSha256⟩
  | _, _, _, _, _ => none

/-- `_validate_chain_link` -/
def validateChainLink (members : Members) (line : ℕ) : Checked ChainLink :=
  match (Json.Schema.check (fun _ => .null) 2 CHAIN_LINK_SCHEMA (.obj members)),
    toChainLink members with
  | true, some link => .ok link
  | _, _ => fail (txt "chain.jsonl link " ++ decimal line ++ txt ": not a chain link")
      (txt "chain.jsonl") none line

/-- `_stream_links`: the links of each stream, in the order of the lines. -/
def streamLinks (objects : List Members) : Checked (StreamName → List ChainLink) := do
  let links ← objects.zipIdx.mapM fun (members, line) => validateChainLink members line
  return fun stream => links.filter fun link => link.stream = stream.text

/-! ## Streams -/

/-- The head of a stream in a seal. -/
structure SealedHead where
  genesis : Option Json
  head : Option Json
  count : Option Json

/-- The file that a record of a stream is in. -/
def recordPath (stream : StreamName) (seq : ℕ) : Text :=
  match stream with
  | .events => txt "events.jsonl"
  | .decisions => txt "decisions/" ++ turnName seq

/-- `verify_chain`, and what is raised instead of a `ChainVerificationError`. -/
def checkChain (sha : Sha256) (stream : StreamName) (genesis : Text) (records : List Bytes)
    (links : List ChainLink) (expectedHead : Option Text) (expectedCount : Option ℤ) :
    Checked Unit :=
  match verifyChain sha stream genesis records links expectedHead expectedCount with
  | .ok _ => .ok ()
  | .error (.chainVerificationError name seq reason) =>
    fail (txt "chain verification failed at stream='" ++ txt name ++ txt "' seq=" ++
      decimalInt seq ++ txt ": " ++ txt reason) (recordPath stream seq.toNat) (some stream)
      (some seq.toNat)
  | .error (.canonicalizationError message) => .error (.valueError (txt message))
  | .error _ => .error .recursionError

/-- `_verify_stream` -/
def verifyStream (sha : Sha256) (stream : StreamName) (genesis : Text) (records : List Bytes)
    (links : List ChainLink) (sealedHead : Option SealedHead) : Checked Unit := do
  match sealedHead with
  | none =>
    if records.length < links.length then
      fail (stream.text ++ txt ": " ++ decimal links.length ++ txt " links but only " ++
        decimal records.length ++ txt " complete records") (recordPath stream records.length)
        (some stream) records.length
    if 1 < records.length - links.length then
      fail (stream.text ++ txt ": more than one unlinked trailing record")
        (recordPath stream links.length) (some stream) links.length
    checkChain sha stream genesis (records.take links.length) links none none
  | some sealedHead =>
    let place := txt "chain.json streams." ++ stream.text
    if sealedHead.genesis ≠ some (.str genesis) then
      fail (place ++ txt ".genesis does not match the recomputed bundle identity")
        (txt "chain.json") (some stream)
    match sealedHead.head, sealedHead.count with
    | some (.str head), some (.int count) =>
      checkChain sha stream genesis records links (some head) (some count)
    | _, _ => fail (place ++ txt ": invalid head/count") (txt "chain.json") (some stream)

/-! ## The streams of a bundle -/

/-- What the verification of a bundle rests on: the limits of the decoder, the hash, the validators,
and the genesis of each stream as it is recomputed from the manifests. -/
structure Verifier where
  limits : Json.Limits
  sha : Sha256
  event : Validator
  decisionRecord : Validator
  genesis : StreamName → Text
  isHash : ∀ stream, IsHash (genesis stream)

/-- The streams that were read and verified. -/
structure StreamsRead where
  events : JsonlRead
  decisions : List Members
  decisionRecords : List Bytes
  chain : JsonlRead
  links : StreamName → List ChainLink

namespace Verifier

variable (V : Verifier)

/-- The check of `seq` in `verify_bundle`, at one event. -/
def checkSeq (event : Members) (index : ℕ) : Checked Unit :=
  if equalsNumber (Json.lookup (txt "seq") event) index then .ok ()
  else fail (txt "events.jsonl: event seq is not " ++ decimal index) (txt "events.jsonl")
    (some .events) index

/-- The files directly under a folder, by their names. -/
def filesIn (disk : Disk Path) (folder : Folder) : List (Text × Bytes) :=
  (disk.those fun path => path.folder = folder).map fun file => (file.1.name, file.2)

/-- `verify_bundle`, from the reading of the events to the verification of both streams. -/
def readStreams (disk : Disk Path) (sealedHeads : Option (StreamName → SealedHead)) :
    Checked StreamsRead := do
  let isSealed := sealedHeads.isSome
  let events ← readJsonl V.limits (txt "events.jsonl") (some V.event) (some .events)
    (disk.read EVENTS_JSONL) isSealed
  events.objects.zipIdx.forM fun (event, index) => checkSeq event index
  let (decisions, decisionRecords) ← readDecisions V.limits V.decisionRecord isSealed
    (filesIn disk .decisions)
  let chain ← readJsonl V.limits (txt "chain.jsonl") none none (disk.read CHAIN_JSONL) isSealed
  let links ← streamLinks chain.objects
  verifyStream V.sha .events (V.genesis .events) events.records (links .events)
    (sealedHeads.map (· .events))
  verifyStream V.sha .decisions (V.genesis .decisions) decisionRecords (links .decisions)
    (sealedHeads.map (· .decisions))
  return ⟨events, decisions, decisionRecords, chain, links⟩

end Verifier

end WagmiBench.Recorder
