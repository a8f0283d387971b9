import WagmiBench.Harness.Protocol
import WagmiBench.Lib.Interleaving
import WagmiBench.Tools.ReferenceMatrix.Receipts

/-!
# The output root

What the invocations of `tools/llm_reference_matrix.py` share: the evidence under one output root,
which only they write, and the paid calls. Each operating-system call, each call into the sandbox and
each paid call is one request; a request may fail wherever the call it stands for may.

Paths in messages are relative to the root. Of a bundle only its stages are kept: absent, created but
not sealed, and sealed with its content, of type `β`. `verify_bundle` finds no bundle COMPLETE before
its `chain.json` is there, and the writer publishes that last.
-/

namespace WagmiBench.Tools.ReferenceMatrix

open WagmiBench.Lib WagmiBench.Core WagmiBench.Spec WagmiBench.Harness

/-! ## Paths -/

/-- The directories of the evidence. -/
inductive Folder where
  | root
  | estimates
  | smoke
  | attempts
  | bundles
  | reports
  | reportsOf (p : PackId)
  | receipts
  deriving DecidableEq

namespace Folder

def path : Folder → String
  | root => "."
  | estimates => "estimates"
  | smoke => "smoke"
  | attempts => "attempts"
  | bundles => "bundles"
  | reports => "reports"
  | reportsOf p => s!"reports/{p.name}"
  | receipts => "receipts"

def parent : Folder → Option Folder
  | root => none
  | reportsOf _ => some reports
  | _ => some root

/-- The directories whose inventory every invocation checks first. -/
def inventoried : List Folder := [estimates, smoke, attempts, bundles, reports, receipts]

end Folder

/-- The files of the evidence. -/
inductive Artifact where
  | authorization
  | estimate (p : PackId)
  | smokeEstimate
  | smokeAttempt
  | smokeResponse
  | smokeReceipt
  | smokeFailureResponse
  | smokeFailureReceipt
  | attempt (p : PackId)
  | report (p : PackId) (r : Report)
  | receipt (p : PackId)
  /-- `receipt.json`: the aggregate. -/
  | aggregate
  deriving DecidableEq

namespace Artifact

/-- `path.parent` -/
def folder : Artifact → Folder
  | authorization | aggregate => .root
  | estimate _ => .estimates
  | smokeEstimate | smokeAttempt | smokeResponse | smokeReceipt | smokeFailureResponse
  | smokeFailureReceipt => .smoke
  | attempt _ => .attempts
  | report p _ => .reportsOf p
  | receipt _ => .receipts

def path : Artifact → String
  | authorization => "authorization.json"
  | estimate p => s!"estimates/{p.name}.json"
  | smokeEstimate => "smoke/estimate.json"
  | smokeAttempt => "smoke/attempt.json"
  | smokeResponse => "smoke/response.json"
  | smokeReceipt => "smoke/receipt.json"
  | smokeFailureResponse => "smoke/failure-response.json"
  | smokeFailureReceipt => "smoke/failure-receipt.json"
  | attempt p => s!"attempts/{p.name}.json"
  | report p r => s!"reports/{p.name}/{r.name}"
  | receipt p => s!"receipts/{p.name}.json"
  | aggregate => "receipt.json"

end Artifact

/-- What is paid for: the smoke call, or the run of a pack. -/
inductive Purchase where
  | smoke
  | pack (p : PackId)
  deriving DecidableEq

/-- The file that is published before a purchase. -/
def Purchase.attempt : Purchase → Artifact
  | smoke => .smokeAttempt
  | pack p => .attempt p

/-! ## The world -/

/-- A published file, and who published it. -/
structure StoredFile (ι : Type) where
  bytes : Bytes
  author : ι

/-- The evidence and the purchases made so far. -/
structure World (ι β : Type) where
  files : Artifact → Option (StoredFile ι)
  folders : Folder → Bool
  /-- The temporary files not yet removed, by who created them for which file. -/
  temporaries : List (ι × Artifact)
  bundles : PackId → Option (Option β)
  /-- The paid calls that were started, in order. -/
  purchases : List (ι × Purchase)

namespace World

variable {ι β : Type} (w : World ι β)

/-- A root under which nothing was written yet. -/
def fresh (rootExists : Bool) : World ι β where
  files _ := none
  folders f := f = .root && rootExists
  temporaries := []
  bundles _ := none
  purchases := []

/-- The file holds these bytes. -/
def Stored (a : Artifact) (bytes : Bytes) : Prop := (w.files a).map StoredFile.bytes = some bytes

/-- The paid call was started. -/
def Bought (what : Purchase) : Prop := what ∈ w.purchases.map Prod.snd

instance (what : Purchase) : Decidable (w.Bought what) := inferInstanceAs (Decidable (_ ∈ _))

/-- `mkdir(parents=True, exist_ok=True)` -/
def addFolder (f : Folder) : World ι β :=
  { w with folders := fun g => g = f || f.parent = some g || g = .root || w.folders g }

def publish (a : Artifact) (file : StoredFile ι) : World ι β :=
  { w with files := Function.update w.files a (some file) }

def setBundle (p : PackId) (content : Option β) : World ι β :=
  { w with bundles := Function.update w.bundles p (some content) }

def buy (i : ι) (what : Purchase) : World ι β := { w with purchases := w.purchases ++ [(i, what)] }

end World

/-! ## Requests -/

/-- What an invocation asks of the world. -/
inductive Request (β : Type) where
  /-- `path.exists()` of a file. -/
  | present (a : Artifact)
  /-- `path.exists()` of a directory. -/
  | folderPresent (f : Folder)
  /-- Whether a directory holds a file that is no evidence: a temporary one. -/
  | litter (f : Folder)
  | read (a : Artifact)
  | mkdir (f : Folder)
  /-- Create, fill and sync a temporary file beside `a`. -/
  | stage (a : Artifact)
  /-- `os.link` of that temporary file. -/
  | link (a : Artifact) (data : Bytes)
  | openFolder (f : Folder)
  | fsyncFolder (f : Folder)
  | unlink (a : Artifact)
  | bundle (p : PackId)
  | createBundle (p : PackId)
  | sealBundle (p : PackId) (content : β)
  | enterSandbox
  | leaveSandbox
  /-- `agent.decide`: the paid smoke call. -/
  | decide
  /-- `run_episode`: the paid run of a pack, and what there is to record of it. -/
  | runEpisode (p : PackId)

/-- The answer of each request. -/
abbrev Request.Answer {β : Type} : Request β → Type
  | present _ | folderPresent _ | litter _ => Bool
  | read _ => Except OsError Bytes
  | mkdir _ | stage _ | link _ _ | openFolder _ | fsyncFolder _ | unlink _ => Except OsError Unit
  | bundle _ => Option (Option β)
  | createBundle _ | sealBundle _ _ => Except MatrixExc Unit
  | enterSandbox | leaveSandbox => Except MatrixExc Unit
  | decide => Except MatrixExc AgentReply
  | runEpisode _ => Except MatrixExc β

abbrev requests (β : Type) : Interface := ⟨Request β, Request.Answer⟩

/-- A routine of an invocation. -/
abbrev Run (β : Type) := Process (requests β) MatrixExc

/-- What a request can do. `os.link` publishes a file at once and only where there is none; creating
a bundle fails where there is one. -/
def effect {ι β : Type} [DecidableEq ι] : Effect (requests β) ι (World ι β)
  | _, .present a, w, answer, w' => answer = (w.files a).isSome ∧ w' = w
  | _, .folderPresent f, w, answer, w' => answer = w.folders f ∧ w' = w
  | _, .litter f, w, answer, w' =>
    answer = (w.temporaries.any fun t => t.2.folder = f) ∧ w' = w
  | _, .read a, w, answer, w' =>
    (answer = (w.files a).elim (.error .other) (fun file => .ok file.bytes) ∨
      answer = .error .other) ∧ w' = w
  | _, .mkdir f, w, answer, w' =>
    (answer = .ok () ∧ w' = w.addFolder f) ∨
      (answer = .error .other ∧ (w' = w ∨ ∃ g, f.parent = some g ∧ w' = w.addFolder g))
  | i, .stage a, w, answer, w' =>
    (answer = .ok () ∧ w' = { w with temporaries := (i, a) :: w.temporaries }) ∨
      ((∃ e, answer = .error e) ∧
        (w' = w ∨ w' = { w with temporaries := (i, a) :: w.temporaries }))
  | i, .link a data, w, answer, w' =>
    (w.files a = none ∧ answer = .ok () ∧ w' = w.publish a ⟨data, i⟩) ∨
      (answer = .error (if (w.files a).isSome then .fileExists else .other) ∧ w' = w) ∨
      (answer = .error .other ∧ w' = w)
  | _, .openFolder _, w, answer, w' => (answer = .ok () ∨ answer = .error .other) ∧ w' = w
  | _, .fsyncFolder _, w, answer, w' => (answer = .ok () ∨ answer = .error .other) ∧ w' = w
  | i, .unlink a, w, answer, w' =>
    (answer = .ok () ∧ w' = { w with temporaries := w.temporaries.erase (i, a) }) ∨
      (answer = .error .other ∧ w' = w)
  | _, .bundle p, w, answer, w' => answer = w.bundles p ∧ w' = w
  | _, .createBundle p, w, answer, w' =>
    (w.bundles p = none ∧ answer = .ok () ∧ w' = w.setBundle p none) ∨
      ((∃ e, answer = .error e) ∧ w' = w)
  | _, .sealBundle p content, w, answer, w' =>
    (answer = .ok () ∧ w' = w.setBundle p (some content)) ∨ ((∃ e, answer = .error e) ∧ w' = w)
  | _, .enterSandbox, w, _, w' => w' = w
  | _, .leaveSandbox, w, _, w' => w' = w
  | i, .decide, w, _, w' => w' = w.buy i .smoke
  | i, .runEpisode p, w, _, w' => w' = w.buy i (.pack p)

/-! ## File routines -/

section Routines

variable {β : Type}

def ask (r : Request β) : Run β r.Answer := @Process.request (requests β) MatrixExc r

/-- The outcome of an operating-system call whose failure is raised. -/
def liftOs {α : Type} (outcome : Except OsError α) : Run β α :=
  .ofExcept (outcome.mapError .osError)

/-- `_ensure_directory` -/
def ensureDirectory (f : Folder) : Run β Unit := do
  match ← ask (.mkdir f) with
  | .ok () => return
  | .error _ => .raise (.matrixError s!"cannot create output directory: {f.path}")

/-- `_fsync_directory` -/
def fsyncDirectory (f : Folder) : Run β Unit := do
  match ← ask (.openFolder f) with
  | .ok () => liftOs (← ask (.fsyncFolder f))
  | .error _ => .raise (.matrixError s!"cannot open output directory for fsync: {f.path}")

/-- The `try` block of `_write_new`. -/
def publish (a : Artifact) (data : Bytes) : Run β Unit := do
  liftOs (← ask (.stage a))
  liftOs (← ask (.link a data))
  fsyncDirectory a.folder

/-- What the `except` clauses of `_write_new` turn an exception into. -/
def publishFailure (a : Artifact) : MatrixExc → MatrixExc
  | .osError .fileExists =>
    .matrixError s!"refusing to overwrite immutable artifact: {a.path}"
  | .osError .other => .matrixError s!"cannot publish immutable artifact: {a.path}"
  | e => e

/-- `_write_new` -/
def writeNew (a : Artifact) (data : Bytes) : Run β Unit := do
  if ← ask (.present a) then
    .raise (.matrixError s!"refusing to overwrite immutable artifact: {a.path}")
  else
    ensureDirectory a.folder
    let outcome ← (publish a data).attempt
    liftOs (← ask (.unlink a))
    .ofExcept (outcome.mapError (publishFailure a))

/-- `_expect_bytes` -/
def expectBytes (a : Artifact) (expected : Bytes) (label : String) : Run β Bool := do
  if ← ask (.present a) then
    match ← ask (.read a) with
    | .ok actual =>
      if actual = expected then return true
      else .raise (.matrixError s!"{label} does not byte-match the canonical receipt")
    | .error _ => .raise (.matrixError s!"cannot read {label}: {a.path}")
  else return false

end Routines

end WagmiBench.Tools.ReferenceMatrix
