import WagmiBench.Data.Builder
import WagmiBench.Harness.Http
import WagmiBench.Sandbox.EgressSource
import WagmiBench.Lib.Effects
import WagmiBench.Sandbox.Isolation.Snapshot

/-!
# The life of a sandbox

`DockerSandbox` of `sandbox/orchestration.py`: `start` creates the networks and containers of a plan
one by one, waits for the guard and the agent, and takes a snapshot before it hands the sandbox out;
`close` and a failed `start` remove what was created. Commands, health checks, clock and files are
outcomes, one for every interaction; the sandbox keeps the log of them.
-/

namespace WagmiBench.Sandbox.Isolation

open WagmiBench.Lib WagmiBench.Spec WagmiBench.Core WagmiBench.Harness WagmiBench.Data

/-! ## Files -/

/-- What is found under a path. -/
inductive FileState where
  /-- Nothing, or no file. -/
  | missing
  /-- A file, itself or behind a link, and its bytes when they can be read. -/
  | file (isSymlink : Bool) (content : Option Bytes)

/-- A build context as it is found. -/
structure ContextTree where
  resolves : Bool
  isDirectory : Bool
  containsSymlink : Bool
  files : Text → FileState

/-- The files that a check looks at. -/
structure Files where
  env : FileState
  gitignore : FileState
  gatewayContext : ContextTree
  guardContext : ContextTree

/-- Line endings as text mode reads them, behind a carriage return or not. -/
def universalNewlines (afterReturn : Bool) : Text → Text
  | [] => []
  | c :: rest =>
    if c = lineFeed ∧ afterReturn then universalNewlines false rest
    else if c.val = 0x0D then lineFeed :: universalNewlines true rest
    else c :: universalNewlines false rest

/-- `path.read_text(encoding="utf-8")` -/
def FileState.readText : FileState → Except Raised Text
  | .missing | .file _ none => .error .osError
  | .file _ (some raw) =>
    match utf8Decode false raw with
    | some text => .ok (universalNewlines false text)
    | none => .error .unicodeError

/-- A file that is no link. -/
def FileState.isPlain : FileState → Bool
  | .file isSymlink _ => !isSymlink
  | .missing => false

def FileState.isFile : FileState → Bool
  | .file _ _ => true
  | .missing => false

/-! ### Credentials -/

/-- `_ENV_NAME_RE.fullmatch` -/
def IsEnvName (name : Text) : Prop :=
  name ≠ [] ∧
    (name.all fun c => (0x41 ≤ c.val && c.val ≤ 0x5A) || c.val == 0x5F || isDigit c) = true ∧
    (name.take 1).all isDigit = false

instance (name : Text) : Decidable (IsEnvName name) := inferInstanceAs (Decidable (_ ∧ _))

/-- A value without the quotes around it. -/
def unquoted (value : Text) : Text :=
  if 2 ≤ value.length ∧ value.head? = value.getLast? ∧
      (value.head? = some (codePoint 0x27) ∨ value.head? = some (codePoint 0x22)) then
    (value.drop 1).dropLast
  else value

/-- The loop of `_parse_env_file`, at one line. -/
def parseEnvLine (values : List (Text × Text)) (numbered : Text × ℕ) :
    Except Raised (List (Text × Text)) := do
  let number := decimal (numbered.2 + 1)
  let line := strip numbered.1
  if line = [] ∨ line.head? = some (codePoint 0x23) then
    return values
  let line := if txt "export " <+: line then (line.drop 7).dropWhile isSpace else line
  let equals := codePoint 0x3D
  require (line.contains equals = true)
    (.preflightFailure (txt "credential source line " ++ number ++ txt " has no equals sign"))
  let name := strip (line.takeWhile (· ≠ equals))
  let value := strip ((line.dropWhile (· ≠ equals)).drop 1)
  require (IsEnvName name)
    (.preflightFailure (txt "credential source line " ++ number ++ txt " has invalid name"))
  require (name ∉ values.map Prod.fst)
    (.preflightFailure (txt "credential source repeats " ++ name))
  let value := unquoted value
  require ([codePoint 0, codePoint 0x0D, codePoint 0x0A].any (value.contains ·) = false)
    (.preflightFailure (txt "credential source " ++ name ++ txt " has invalid bytes"))
  return values ++ [(name, value)]

/-- `_parse_env_file` -/
def parseEnvFile (file : FileState) : Except Raised (List (Text × Text)) := do
  let content ← match file.readText with
    | .error .osError =>
      Except.error (.preflightFailure (txt "credential source could not be read"))
    | read => read
  (textLines content).zipIdx.foldlM parseEnvLine []

/-- `values.get(name)`, when it is not empty. -/
def nonEmpty (values : List (Text × Text)) (name : Text) : Option Text :=
  (values.lookup name).filter (· ≠ [])

/-- `load_protected_credentials` -/
def loadProtectedCredentials (env : FileState) (names : List Text) : Except Raised (List Text) := do
  require (names.Nodup ∧ names.all (IsEnvName ·) = true)
    (.preflightFailure (txt "credential environment allowlist is invalid"))
  require (env.isPlain = true)
    (.preflightFailure (txt "credential source is missing or not a plain file"))
  let source ← parseEnvFile env
  names.mapM fun name =>
    match nonEmpty source name with
    | some value => .ok value
    | none => .error (.preflightFailure
        (txt "required agent credential is missing from the credential source"))

/-- `require_secret_source` -/
def IsolationPlan.requireSecretSource (plan : IsolationPlan) (files : Files) :
    Except Raised Unit := do
  if plan.credentialEnvNames = [] then
    return
  require (files.env.isPlain = true)
    (.preflightFailure (txt "repo-root .env is missing or not a plain file"))
  require (files.gitignore.isFile = true) (.preflightFailure (txt ".gitignore is missing"))
  let gitignore ← files.gitignore.readText
  let ignored := ((textLines gitignore).map strip).filter fun line =>
    line ≠ [] ∧ line.head? ≠ some (codePoint 0x23)
  require (txt ".env" ∈ ignored)
    (.preflightFailure (txt "repo-root .env is not explicitly gitignored"))
  let values ← parseEnvFile files.env
  plan.credentialEnvNames.forM fun name =>
    require ((nonEmpty values name).isSome = true)
      (.preflightFailure (txt "required agent credential " ++ name ++ txt " is missing"))

/-- `_agent_secret_environment` -/
def agentSecretEnvironment (plan : IsolationPlan) (files : Files) :
    Except Raised (List (Text × Text)) := do
  if plan.credentialEnvNames = [] then
    return []
  let values ← loadProtectedCredentials files.env plan.credentialEnvNames
  return plan.credentialEnvNames.zip values

/-! ### Build contexts -/

/-- `DockerContext` -/
structure DockerContext where
  expectedFiles : List Text
  dockerignoreText : Text

def GATEWAY_CONTEXT : DockerContext where
  expectedFiles := [txt ".dockerignore", txt "Dockerfile", txt "gateway_server.py"]
  dockerignoreText := txt "**\n!Dockerfile\n!.dockerignore\n!gateway_server.py\n"

def GUARD_CONTEXT : DockerContext where
  expectedFiles := [txt ".dockerignore", txt "Dockerfile", txt "__init__.py",
    txt "block_collector.py", txt "firewall_runtime.py", txt "guard_main.py"]
  dockerignoreText := txt ("**\n!Dockerfile\n!.dockerignore\n!__init__.py\n!block_collector.py\n" ++
    "!firewall_runtime.py\n!guard_main.py\n")

/-- `audit` -/
def DockerContext.audit (context : DockerContext) (tree : ContextTree) : Except Raised Unit := do
  require (tree.resolves = true) .osError
  require (tree.isDirectory = true)
    (.preflightFailure (txt "Docker build context is not a directory"))
  require (tree.containsSymlink = false)
    (.preflightFailure (txt "Docker build context contains a symlink"))
  let ignore ← (tree.files (txt ".dockerignore")).readText
  require (ignore = context.dockerignoreText)
    (.preflightFailure (txt "Docker build context denylist drifted"))
  context.expectedFiles.forM fun relative =>
    require ((tree.files relative).isPlain = true) (.preflightFailure
      (txt "Docker build context is missing required file " ++ relative))

/-! ## The object -/

/-- One interaction of the sandbox, with its outcome. -/
inductive Event (τ : Type) where
  /-- `run_text` -/
  | command (words : Argv) (answer : Except Text Text)
  /-- `run_with_env` -/
  | launch (words : Argv) (answer : Except Text Text)
  | health (up : Bool)
  | monotonic (now : τ)
  | sleep
  | files

/-- The outcome of every interaction, by its number. -/
structure Outcomes (τ : Type) where
  /-- What a command prints, or the message of the `PreflightFailure` it raises. -/
  command : ℕ → Except Text Text
  health : ℕ → Bool
  monotonic : ℕ → τ
  files : ℕ → Files

/-- `SandboxHandle` -/
structure SandboxHandle where
  baseUrl : Text
  httpAgent : HTTPAgent
  eventSource : EgressSource
  snapshot : RuntimeSnapshot

/-- `DockerSandbox`: what changes in it, and what it has done. -/
@[ext]
structure DockerSandbox (τ : Type) where
  log : List (Event τ) := []
  createdContainers : List Text := []
  createdNetworks : List Text := []
  handle : Option SandboxHandle := none

/-- A call ends with an exception, or it is still polling. -/
inductive Stop where
  | raised (e : Raised)
  | polling

/-- A method of a sandbox. -/
abbrev Method (τ : Type) := EStateM Stop (DockerSandbox τ)

/-- What a sandbox is constructed with, and what its code runs on: hashes, the limits of
`json.loads`, and whether a float literal equals an integer. -/
structure Setting (τ : Type) where
  plan : IsolationPlan
  outcomes : Outcomes τ
  startupTimeoutS : τ
  sha : Sha256
  digest : Bytes → Bytes
  limits : Json.Limits
  floatIs : Text → ℤ → Bool

def raise {τ α : Type} (e : Raised) : Method τ α := throw (.raised e)

def ofExcept {τ α : Type} : Except Raised α → Method τ α
  | .ok a => pure a
  | .error e => raise e

/-- `except PreflightFailure` -/
def onPreflightFailure {τ α : Type} (m : Method τ α) (handler : Method τ α) : Method τ α :=
  tryCatch m fun
    | .raised (.preflightFailure _) => handler
    | e => throw e

/-- `json.loads` without hooks. -/
def plainHooks : Json.Hooks Empty where
  parseFloat token := .ok (.float token)
  parseConstant token := .ok (.float token)
  objectPairs pairs := .ok (.obj (Json.dictOfPairs pairs))

/-- `json.loads`, and what is raised instead of `JSONDecodeError`. -/
def loads (limits : Json.Limits) (invalid : Raised) (text : Text) : Except Raised Json :=
  match Json.loads limits plainHooks text with
  | .ok value => .ok value
  | .error .decode => .error invalid
  | .error .recursion => .error .recursionError
  | .error .digits => .error (.valueError (txt "Exceeds the limit for integer string conversion"))
  | .error (.hook e) => nomatch e

/-! ### Interactions -/

section Interactions

variable {τ : Type}

/-- One interaction, by its number, and what it adds to the log. -/
def interact {α : Type} (outcome : ℕ → α) (event : α → Event τ) : Method τ α := do
  let result := outcome (← get).log.length
  modify fun s => { s with log := s.log ++ [event result] }
  return result

/-- What a command printed, or the exception it raised. -/
def printed : Except Text Text → Method τ Text
  | .ok text => pure text
  | .error message => raise (.preflightFailure message)

namespace Setting

variable (S : Setting τ)

/-- `_run_text` -/
def runText (words : Argv) : Method τ Text := do
  printed (← interact S.outcomes.command (.command words))

/-- `_run_with_env` -/
def runWithEnv (words : Argv) : Method τ Text := do
  printed (← interact S.outcomes.command (.launch words))

def healthCheck : Method τ Bool := interact S.outcomes.health .health

def monotonic : Method τ τ := interact S.outcomes.monotonic .monotonic

def sleep : Method τ Unit := interact (fun _ => ()) fun _ => .sleep

/-- A look at the files. -/
def look : Method τ Files := interact S.outcomes.files fun _ => .files

end Setting

end Interactions

/-! ## Resources -/

/-- A container or a network, by its name. -/
inductive Resource where
  | container (name : Text)
  | network (name : Text)
  deriving DecidableEq

namespace Resource

/-- The command that prints the sandbox id a resource is labelled with. -/
def inspect : Resource → Argv
  | container name => argv ["docker", "inspect", "--format",
      "\x7b\x7bindex .Config.Labels \"tradeevolve.sandbox_id\"\x7d\x7d"] ++ [name]
  | network name => argv ["docker", "network", "inspect", "--format",
      "\x7b\x7bindex .Labels \"tradeevolve.sandbox_id\"\x7d\x7d"] ++ [name]

/-- The command that removes a resource. -/
def remove : Resource → Argv
  | container name => argv ["docker", "rm", "--force"] ++ [name]
  | network name => argv ["docker", "network", "rm"] ++ [name]

def describe : Resource → Text
  | container name => txt "container " ++ name
  | network name => txt "network " ++ name

end Resource

namespace Setting

variable {τ : Type} (S : Setting τ)

/-- `_owned_container` and `_owned_network` -/
def owned (resource : Resource) : Method τ Bool :=
  onPreflightFailure (do
    let label := strip (← S.runText resource.inspect)
    return label = S.plan.sandboxId)
    (return false)

/-- One round of a loop of `_cleanup_best_effort`. -/
def cleanupOne (resource : Resource) : Method τ Unit :=
  onPreflightFailure (do
    if ← S.owned resource then
      let _ ← S.runText resource.remove)
    (return ())

/-- The resources that were recorded before they were created, the last container first and the
networks after the containers. -/
def recorded (s : DockerSandbox τ) : List Resource :=
  s.createdContainers.reverse.map .container ++ s.createdNetworks.reverse.map .network

/-- Nothing is recorded any more, and there is no handle. -/
def forget : Method τ Unit :=
  modify fun s => { s with createdContainers := [], createdNetworks := [], handle := none }

/-- `_cleanup_best_effort` -/
def cleanupBestEffort : Method τ Unit := do
  (recorded (← get)).forM S.cleanupOne
  forget

/-- One round of a loop of `close`: the failures with the one that it adds. -/
def closeOne (failures : List Text) (resource : Resource) : Method τ (List Text) :=
  onPreflightFailure (do
    if ← S.owned resource then
      let _ ← S.runText resource.remove
      return failures
    else
      return failures ++ [txt "refused cleanup of unowned " ++ resource.describe])
    (return failures ++ [txt "failed cleanup of " ++ resource.describe])

/-- `close` -/
def close : Method τ Unit := do
  let failures ← (recorded (← get)).foldlM S.closeOne []
  forget
  if failures ≠ [] then
    raise (.preflightFailure ((txt "; ").intercalate failures))

/-! ## The proofs of the guard -/

/-- `docker exec` of one check in the guard. -/
def guardCheck (flag : String) : Argv :=
  [txt "docker", txt "exec", S.plan.guardName] ++
    argv ["python3", "-m", "tradeevolve_guard.guard_main", flag]

/-- Whether a value is an object with this `schema`. -/
def hasSchema (value : Json) (schema : String) : Bool :=
  match value with
  | .obj members => field members "schema" = .str (txt schema)
  | _ => false

/-- The checks of `_guard_ready`: each flag with the schema of its proof. -/
def proofs : List (String × String) :=
  [("--check-ready", "sandbox_guard_ready/v1"), ("--check-firewall", "sandbox_firewall_check/v1"),
    ("--check-gateway", "sandbox_gateway_check/v1")]

/-- One round of the loop over the checks. -/
def readProof (proof : String × String) : Method τ Unit := do
  let raw ← S.runText (S.guardCheck proof.1)
  let value ← ofExcept (loads S.limits
    (.preflightFailure (txt "guard preflight emitted invalid JSON")) raw)
  ofExcept (require (hasSchema value proof.2 = true)
    (.preflightFailure (txt "guard preflight proof is invalid")))

/-- The stage that the last error record among the lines names, the lines last first. A line that is
no JSON ends the search. -/
def diagnosticOf : List Text → Except Raised Text
  | [] => .ok (txt "unknown")
  | line :: lines => do
    let value ← loads S.limits (.preflightFailure []) line
    match value with
    | .obj members =>
      if field members "schema" = .str (txt "sandbox_guard_error/v1") then
        match field members "stage" with
        | .str stage => return stage
        | _ => diagnosticOf lines
      else diagnosticOf lines
    | _ => diagnosticOf lines

/-- The state of the guard and its health, if it has one. -/
def inspectGuard : Argv :=
  argv ["docker", "inspect", "--format", "\x7b\x7b.State.Running\x7d\x7d " ++
    "\x7b\x7bif .State.Health\x7d\x7d\x7b\x7b.State.Health.Status\x7d\x7d\x7b\x7bend\x7d\x7d"] ++
    [S.plan.guardName]

/-- `_guard_ready` -/
def guardReady : Method τ Bool := do
  let status := strip (← S.runText S.inspectGuard)
  if status = txt "true healthy" then
    proofs.forM S.readProof
    return true
  else if txt "false" <+: status ∨ txt "unhealthy" <:+ status then
    let diagnostic ← onPreflightFailure (do
      let logs ← S.runText [txt "docker", txt "logs", S.plan.guardName]
      ofExcept (S.diagnosticOf (textLines logs).reverse))
      (return txt "unknown")
    raise (.preflightFailure (txt "guard exited or became unhealthy during " ++ diagnostic ++
      txt " before agent start"))
  else
    return false

/-- `_agent_healthy` -/
def agentHealthy : Method τ Bool := do
  if ← S.healthCheck then
    return true
  else
    let running := strip (← S.runText (argv ["docker", "inspect", "--format",
      "\x7b\x7b.State.Running\x7d\x7d"] ++ [S.plan.agentName]))
    if running ≠ txt "true" then
      raise (.preflightFailure (txt "agent exited before /healthz became ready"))
    return false

/-! ## Waiting -/

section Waiting

variable [Add τ] [LE τ] [DecidableLE τ]

/-- The loop of `_wait_until`, for at most so many rounds. -/
def poll (predicate : Method τ Bool) (failure : Text) (deadline : τ) : ℕ → Method τ Unit
  | 0 => throw .polling
  | rounds + 1 => do
    if ← predicate then
      return ()
    else
      let now ← S.monotonic
      if deadline ≤ now then
        raise (.preflightFailure failure)
      else
        sleep
        poll predicate failure deadline rounds

/-- `_wait_until` -/
def waitUntil (rounds : ℕ) (predicate : Method τ Bool) (failure : Text) : Method τ Unit := do
  let now ← S.monotonic
  S.poll predicate failure (now + S.startupTimeoutS) rounds

end Waiting

/-! ## The preflight -/

/-- A command whose output is JSON. -/
def probe (words : Argv) : Method τ Json := do
  let raw ← S.runText words
  ofExcept (loads S.limits
    (.preflightFailure (txt "Docker isolation probe returned invalid JSON")) raw)

/-- `docker inspect` of the three containers. -/
def inspectContainers : Argv :=
  argv ["docker", "inspect"] ++ [S.plan.agentName, S.plan.guardName, S.plan.gatewayName]

/-- `docker network inspect` of both networks. -/
def inspectNetworks : Argv :=
  argv ["docker", "network", "inspect"] ++ [S.plan.internalNetwork, S.plan.egressNetwork]

/-- The sandbox label of a network document. -/
def networkLabels (network : List (Text × Json)) (what : String) :
    Except Raised (List (Text × Json)) :=
  dict (orElse (fieldOr network "Labels" (.obj [])) (.obj [])) (txt what)

/-- What the probes printed, in the shape the snapshot is made of. -/
def snapshotOf (serverOs : Text)
    (securityOptions containers networks ready firewall gateway : Json) :
    Except Raised RuntimeSnapshot := do
  let shape := Raised.preflightFailure (txt "Docker isolation probe returned an invalid shape")
  match texts securityOptions "", containers, networks, ready, firewall, gateway with
  | .ok securityOptions, .arr [agent, guard, gatewayContainer], .arr [internal, egress], .obj ready,
    .obj firewall, .obj gateway => do
    let internal ← dict internal (txt "internal network")
    let egress ← dict egress (txt "egress network")
    let internalLabels ← networkLabels internal "internal network labels"
    let egressLabels ← networkLabels egress "egress network labels"
    let internalLabel ← optionalText (field internalLabels "tradeevolve.sandbox_id")
      "Docker network sandbox label is invalid"
    let egressLabel ← optionalText (field egressLabels "tradeevolve.sandbox_id")
      "Docker network sandbox label is invalid"
    let agent ← containerSnapshot agent
    let guard ← containerSnapshot guard
    let gatewayContainer ← containerSnapshot gatewayContainer
    return {
      serverOs, securityOptions, agent, guard, gateway := gatewayContainer
      internalNetworkIsInternal := field internal "Internal" = .bool true
      internalNetworkIpv6 := field internal "EnableIPv6" = .bool true
      internalNetworkLabel := internalLabel
      egressNetworkIsInternal := field egress "Internal" = .bool true
      egressNetworkLabel := egressLabel
      guardReady := ready, firewallCheck := firewall, gatewayCheck := gateway }
  | _, _, _, _, _, _ => .error shape

/-- `DockerContext.audit` of both contexts, as they are found at two looks. -/
def auditContexts : Method τ Unit := do
  ofExcept (GATEWAY_CONTEXT.audit (← S.look).gatewayContext)
  ofExcept (GUARD_CONTEXT.audit (← S.look).guardContext)

/-- `collect` -/
def collect : Method τ RuntimeSnapshot := do
  S.auditContexts
  let serverOs := strip (← S.runText (argv ["docker", "version", "--format",
    "\x7b\x7b.Server.Os\x7d\x7d"]))
  let securityOptions ← S.probe (argv ["docker", "info", "--format",
    "\x7b\x7bjson .SecurityOptions\x7d\x7d"])
  let containers ← S.probe S.inspectContainers
  let networks ← S.probe S.inspectNetworks
  let ready ← S.probe (S.guardCheck "--check-ready")
  let firewall ← S.probe (S.guardCheck "--check-firewall")
  let gateway ← S.probe (S.guardCheck "--check-gateway")
  ofExcept (snapshotOf serverOs securityOptions containers networks ready firewall gateway)

/-- `require_ready` -/
def requireReady : Method τ RuntimeSnapshot := do
  ofExcept (S.plan.requireSecretSource (← S.look))
  let snapshot ← S.collect
  let failures ← ofExcept (evaluateRuntimeSnapshot S.sha S.floatIs S.plan snapshot)
  ofExcept (requireNoFailures failures)
  return snapshot

/-! ## Start -/

/-- `_run_create` of a network -/
def createNetwork (words : Argv) (name : Text) : Method τ Unit := do
  modify fun s => { s with createdNetworks := s.createdNetworks ++ [name] }
  let _ ← S.runText words

/-- `_run_create` of a container -/
def createContainer (words : Argv) (name : Text) : Method τ Unit := do
  modify fun s => { s with createdContainers := s.createdContainers ++ [name] }
  let _ ← S.runText words

/-- `_run_agent_create` -/
def runAgentCreate : Method τ Unit := do
  modify fun s => { s with createdContainers := s.createdContainers ++ [S.plan.agentName] }
  let _ ← S.runWithEnv S.plan.runAgent

/-- The address at which the agent is served. -/
def baseUrl : Text := txt "http://127.0.0.1:" ++ decimalInt S.plan.hostHttpPort

/-- `HTTPAgent(base_url, protected_response_values=…)` -/
def httpAgent (secrets : List Text) : Except Raised HTTPAgent := do
  require (S.plan.hostHttpPort ≠ 0) (.valueError (txt "IC-6 agent origin port is out of range: 0"))
  require (1 ≤ S.plan.hostHttpPort ∧ S.plan.hostHttpPort ≤ 65_535)
    (.valueError (txt "IC-6 agent origin has an invalid port: '" ++ S.baseUrl ++ txt "'"))
  match protectedRepresentations S.digest (secrets.map .str) with
  | .ok fingerprints => return ⟨S.baseUrl ++ txt "/decide", fingerprints⟩
  | .error (.configuration message) => .error (.valueError message)
  | .error .unicodeEncode => .error .unicodeError

variable [Add τ] [LE τ] [DecidableLE τ]

/-- The `try` block of `start`. -/
def launch (rounds : ℕ) (secrets : List (Text × Text)) : Method τ SandboxHandle := do
  S.createNetwork S.plan.createInternalNetwork S.plan.internalNetwork
  S.createNetwork S.plan.createEgressNetwork S.plan.egressNetwork
  S.createContainer S.plan.runGateway S.plan.gatewayName
  let _ ← S.runText S.plan.connectGateway
  S.createContainer S.plan.runGuard S.plan.guardName
  let _ ← S.runText S.plan.connectGuard
  S.waitUntil rounds S.guardReady (txt "guard isolation did not become ready before timeout")
  S.runAgentCreate
  S.waitUntil rounds S.agentHealthy (txt "agent /healthz did not become ready before timeout")
  let snapshot ← S.requireReady
  let httpAgent ← ofExcept (S.httpAgent (secrets.map Prod.snd))
  let handle : SandboxHandle := ⟨S.baseUrl, httpAgent, .new, snapshot⟩
  modify fun s => { s with handle := some handle }
  return handle


/-- `start`, where a call that is still polling has not come to an end. -/
def start (rounds : ℕ) : Method τ SandboxHandle := do
  let s ← get
  if s.handle.isSome ∨ s.createdContainers ≠ [] ∨ s.createdNetworks ≠ [] then
    raise (.runtimeError (txt "sandbox lifecycle already started"))
  ofExcept (S.plan.requireSecretSource (← S.look))
  S.auditContexts
  let secrets ← ofExcept (agentSecretEnvironment S.plan (← S.look))
  tryCatch (S.launch rounds secrets) fun
    | .polling => throw .polling
    | .raised e => do
      S.cleanupBestEffort
      raise e

end Setting

end WagmiBench.Sandbox.Isolation
