import WagmiBench.Core.Decode
import WagmiBench.Sandbox.Gateway.Policy
import WagmiBench.Sandbox.Isolation.Plan

/-!
# The runtime snapshot

What `docker inspect` says of the three containers and the two networks, reduced to a
`RuntimeSnapshot`, and `evaluate_runtime_snapshot`, which finds everything that is not as planned.
-/

namespace WagmiBench.Sandbox.Isolation

open WagmiBench.Lib WagmiBench.Spec WagmiBench.Core

/-! ## Documents -/

/-- `document.get(key, default)` -/
def fieldOr (members : List (Text × Json)) (key : String) (default : Json) : Json :=
  (Json.lookup (txt key) members).getD default

/-- `document.get(key)`, where no key and `null` are the same. -/
def field (members : List (Text × Json)) (key : String) : Json := fieldOr members key .null

/-- `_dict` -/
def dict (value : Json) (field : Text) : Except Raised (List (Text × Json)) :=
  match value with
  | .obj members => .ok members
  | _ => .error (.preflightFailure (txt "Docker probe field " ++ field ++ txt " is not an object"))

/-- A text, or a failure. -/
def requireText (value : Json) (message : String) : Except Raised Text :=
  match value with
  | .str t => .ok t
  | _ => .error (.preflightFailure (txt message))

/-- A text or `None`, or a failure. -/
def optionalText (value : Json) (message : String) : Except Raised (Option Text) :=
  match value with
  | .null => .ok none
  | .str t => .ok (some t)
  | _ => .error (.preflightFailure (txt message))

/-- A list, or a failure. -/
def requireList (value : Json) (message : String) : Except Raised (List Json) :=
  match value with
  | .arr items => .ok items
  | _ => .error (.preflightFailure (txt message))

/-- `value`, with an empty one for `None`. -/
def orElse (value empty : Json) : Json :=
  match value with
  | .null => empty
  | _ => value

/-- A list of texts, or a failure. -/
def texts (value : Json) (message : String) : Except Raised (List Text) := do
  let values ← requireList value message
  values.mapM fun item => requireText item message

/-- `_string_tuple` -/
def stringTuple (value : Json) : Except Raised (List Text) :=
  texts (orElse value (.arr [])) "Docker probe string-array field is invalid"

/-! ## Containers -/

/-- `ContainerSnapshot` -/
structure ContainerSnapshot where
  name : Text
  containerId : Text
  imageId : Text
  running : Bool
  healthStatus : Option Text
  user : Text
  readOnly : Bool
  privileged : Bool
  capDrop : List Text
  capAdd : List Text
  securityOpt : List Text
  networkMode : Text
  dns : List Text
  sysctls : List (Text × Text)
  mountTypes : List Text
  tmpfsPaths : List Text
  portBindings : List (Text × Text × Text)
  networks : List Text
  networkIpv4 : List (Text × Text)
  envNames : List Text
  sandboxIdLabel : Option Text
  logDriver : Text
  deriving DecidableEq

/-- The types of the mounts that have one. -/
def mountTypes (mounts : List Json) : Except Raised (List Text) := do
  let kinds ← mounts.mapM fun item => do
    let mount ← dict item (txt "Mounts[]")
    return match field mount "Type" with
      | .str kind => some kind
      | _ => none
  return sortTexts (kinds.filterMap id)

/-- The bindings of one container port. -/
def bindingsOf (containerPort : Text) (bindings : Json) :
    Except Raised (List (Text × Text × Text)) :=
  match bindings with
  | .null => .ok []
  | bindings => do
    let bindings ← requireList bindings "Docker probe PortBindings is invalid"
    bindings.mapM fun item => do
      let binding ← dict item (txt "PortBindings[]")
      let hostIp ← requireText (field binding "HostIp") "Docker port binding is invalid"
      let hostPort ← requireText (field binding "HostPort") "Docker port binding is invalid"
      return (containerPort, hostIp, hostPort)

/-- The names before the first `=` of the entries that have one, each once. -/
def envNames (environment : List Text) : List Text :=
  let equals := codePoint 0x3D
  sortTexts ((environment.filter (·.contains equals)).map (·.takeWhile (· ≠ equals))).dedup

/-- `state["Health"]["Status"]`, when there is a health. -/
def healthStatus (health : Json) : Except Raised (Option Text) :=
  match health with
  | .null => .ok none
  | health => do
    let health ← dict health (txt "State.Health")
    let status ← requireText (field health "Status") "Docker health status is invalid"
    return some status

/-- `_container_snapshot` -/
def containerSnapshot (document : Json) : Except Raised ContainerSnapshot := do
  let root ← dict document (txt "container")
  let config ← dict (field root "Config") (txt "Config")
  let host ← dict (field root "HostConfig") (txt "HostConfig")
  let networkSettings ← dict (field root "NetworkSettings") (txt "NetworkSettings")
  let networks ← dict (fieldOr networkSettings "Networks" (.obj [])) (txt "Networks")
  let state ← dict (field root "State") (txt "State")
  let mounts ← requireList (fieldOr root "Mounts" (.arr [])) "Docker probe Mounts is invalid"
  let mountTypes ← mountTypes mounts
  let tmpfs ← dict (fieldOr host "Tmpfs" (.obj [])) (txt "Tmpfs")
  let portMap ← dict (fieldOr host "PortBindings" (.obj [])) (txt "PortBindings")
  let portBindings ← (sortedItems portMap).mapM fun port => bindingsOf port.1 port.2
  let sysctlsMap ← dict (orElse (field host "Sysctls") (.obj [])) (txt "Sysctls")
  let sysctls ← (sortedItems sysctlsMap).mapM fun sysctl => do
    let value ← requireText sysctl.2 "Docker sysctl value is invalid"
    return (sysctl.1, value)
  let networkIpv4 ← (sortedItems networks).mapM fun network => do
    let document ← dict network.2 (txt "Networks." ++ network.1)
    let address ← requireText (fieldOr document "IPAddress" (.str []))
      "Docker network IPv4 field is invalid"
    return (network.1, address)
  let environment ← texts (orElse (field config "Env") (.arr []))
    "Docker environment field is invalid"
  let labels ← dict (orElse (field config "Labels") (.obj [])) (txt "Config.Labels")
  let sandboxLabel ← optionalText (field labels "tradeevolve.sandbox_id")
    "Docker sandbox label is invalid"
  let logConfig ← dict (fieldOr host "LogConfig" (.obj [])) (txt "LogConfig")
  let logDriver ← requireText (fieldOr logConfig "Type" (.str [])) "Docker log driver is invalid"
  let healthStatus ← healthStatus (field state "Health")
  let identity := "Docker container identity fields are invalid"
  let name ← requireText (field root "Name") identity
  let containerId ← requireText (field root "Id") identity
  let imageId ← requireText (field root "Image") identity
  let user ← requireText (fieldOr config "User" (.str [])) identity
  let networkMode ← requireText (fieldOr host "NetworkMode" (.str [])) identity
  let capDrop ← stringTuple (field host "CapDrop")
  let capAdd ← stringTuple (field host "CapAdd")
  let securityOpt ← stringTuple (field host "SecurityOpt")
  let dns ← stringTuple (field host "Dns")
  return {
    name := name.dropWhile (· = codePoint 0x2F), containerId, imageId
    running := field state "Running" = .bool true, healthStatus, user
    readOnly := field host "ReadonlyRootfs" = .bool true
    privileged := field host "Privileged" = .bool true
    capDrop, capAdd, securityOpt, networkMode, dns, sysctls, mountTypes
    tmpfsPaths := sortTexts (tmpfs.map Prod.fst)
    portBindings := portBindings.flatten
    networks := sortTexts (networks.map Prod.fst)
    networkIpv4
    envNames := envNames environment
    sandboxIdLabel := sandboxLabel, logDriver }

/-! ## The snapshot -/

/-- `RuntimeSnapshot` -/
structure RuntimeSnapshot where
  serverOs : Text
  securityOptions : List Text
  agent : ContainerSnapshot
  guard : ContainerSnapshot
  gateway : ContainerSnapshot
  internalNetworkIsInternal : Bool
  internalNetworkIpv6 : Bool
  internalNetworkLabel : Option Text
  egressNetworkIsInternal : Bool
  egressNetworkLabel : Option Text
  guardReady : List (Text × Json)
  firewallCheck : List (Text × Json)
  gatewayCheck : List (Text × Json)

/-- `str.lower`. Of the characters outside ASCII none is lowered to the letters of the words that
the result is compared with and nothing else. -/
def lower (value : Text) : Text := value.map lowerChar

/-- `_has_nnp` -/
def hasNnp (options : List Text) : Bool :=
  options.any fun option => txt "no-new-privileges" <+: lower option

/-- `_capability_names` -/
def capabilityNames (values : List Text) : List Text :=
  values.map fun value =>
    let lowered := lower value
    if txt "cap_" <+: lowered then lowered.drop 4 else lowered

/-- `_network_mode_matches_guard` -/
def networkModeMatchesGuard (mode : Text) (guard : ContainerSnapshot) : Bool :=
  txt "container:" <+: mode ∧
    let target := mode.drop 10
    target = guard.name ∨ target = guard.containerId ∨ target <+: guard.containerId

/-- `set(values) == set(others)` -/
def sameSet (values others : List Text) : Bool :=
  values.all (others.contains ·) && others.all (values.contains ·)

/-- `dict(pairs).get(key)` -/
def dictGet (pairs : List (Text × Text)) (key : Text) : Option Text :=
  (pairs.reverse.find? fun p => p.1 = key).map Prod.snd

/-- `dict(pairs) == dict(others)` -/
def sameDict (pairs others : List (Text × Text)) : Bool :=
  (pairs.map Prod.fst ++ others.map Prod.fst).all fun key => dictGet pairs key = dictGet others key

section Evaluation

variable (sha : Sha256) (floatIs : Text → ℤ → Bool) (plan : IsolationPlan)
  (snapshot : RuntimeSnapshot)

/-- `value == n`, where `floatIs` compares what `float` makes of a lexeme. -/
def equalsInt (value : Json) (n : ℤ) : Bool :=
  match value with
  | .int m => m = n
  | .bool b => b.toNat = n
  | .float lexeme => floatIs lexeme n
  | _ => false

/-- The checks on the Docker server and the networks. -/
def hostChecks : List (Bool × String) :=
  [(lower snapshot.serverOs ≠ txt "linux", "Docker server is not Linux"),
    (¬ snapshot.securityOptions.any fun item => txt "seccomp" <:+: lower item,
      "Docker seccomp is not active"),
    (¬ snapshot.internalNetworkIsInternal, "agent network is not Docker-internal"),
    (snapshot.internalNetworkIpv6, "agent network has Docker IPv6 enabled"),
    (snapshot.egressNetworkIsInternal, "gateway egress network is unexpectedly internal")]

/-- The checks on the agent. -/
def agentChecks : List (Bool × String) :=
  let agent := snapshot.agent
  [(¬ agent.running, "agent container is not running"),
    (agent.user ≠ decimalInt plan.agentUid ++ txt ":" ++ decimalInt plan.agentUid,
      "agent does not run as the fixed non-root uid"),
    (¬ agent.readOnly, "agent root filesystem is writable"),
    (agent.privileged, "agent container is privileged"),
    (txt "all" ∉ agent.capDrop.map lower ∨ agent.capAdd ≠ [],
      "agent capabilities are not fully dropped"),
    (¬ hasNnp agent.securityOpt, "agent no-new-privileges is missing"),
    (¬ networkModeMatchesGuard agent.networkMode snapshot.guard,
      "agent does not share the pre-armed guard namespace"),
    (agent.mountTypes ≠ [], "agent has a host/volume mount"),
    (¬ agent.tmpfsPaths.all (· = txt "/tmp"), "agent has an unexpected tmpfs"),
    (agent.portBindings ≠ [], "agent publishes a port directly"),
    (¬ IsHash agent.imageId, "agent runtime image id is not content-addressed"),
    (agent.sandboxIdLabel ≠ some plan.sandboxId, "agent ownership label is missing"),
    (agent.logDriver ≠ txt "none", "agent Docker logging is not disabled")]

/-- The checks on the guard. -/
def guardChecks : List (Bool × String) :=
  let guard := snapshot.guard
  [(¬ guard.running ∨ guard.healthStatus ≠ some (txt "healthy"),
      "guard container is not running and healthy"),
    (¬ guard.readOnly ∨ guard.privileged, "guard is writable or Docker-privileged"),
    (txt "all" ∉ guard.capDrop.map lower, "guard did not drop the default capability set"),
    (¬ sameSet (capabilityNames guard.capAdd) [txt "net_admin", txt "setgid", txt "setuid"],
      "guard bootstrap capabilities are not exactly NET_ADMIN, SETGID, and SETUID"),
    (¬ hasNnp guard.securityOpt, "guard no-new-privileges is missing"),
    (guard.networkMode ≠ plan.egressNetwork,
      "guard loopback control channel is not egress-network bound"),
    (guard.dns ≠ [txt "127.0.0.1"], "guard namespace DNS is not loopback-only"),
    (¬ sameDict guard.sysctls [(txt "net.ipv6.conf.all.disable_ipv6", txt "1"),
        (txt "net.ipv6.conf.default.disable_ipv6", txt "1")],
      "guard namespace IPv6-disable sysctls are missing"),
    (guard.mountTypes ≠ [], "guard has a host/volume mount"),
    (¬ sameSet guard.tmpfsPaths [txt "/run/tradeevolve"],
      "guard readiness tmpfs is missing or unexpected"),
    (guard.portBindings ≠ [(decimalInt plan.agentHttpPort ++ txt "/tcp", txt "127.0.0.1",
        decimalInt plan.hostHttpPort)], "agent API is not the sole loopback-published port"),
    (¬ sameSet guard.networks [plan.internalNetwork, plan.egressNetwork],
      "guard is not attached to exactly two planned networks"),
    (¬ IsHash guard.imageId, "guard runtime image id is not content-addressed"),
    (guard.sandboxIdLabel ≠ some plan.sandboxId, "guard ownership label is missing"),
    (guard.logDriver ≠ txt "local", "guard block logging is not local/durable")]

/-- The checks on the gateway. -/
def gatewayChecks : List (Bool × String) :=
  let gateway := snapshot.gateway
  [(¬ gateway.running, "gateway container is not running"),
    (gateway.user ≠ txt "65532:65532", "gateway does not run as its fixed non-root uid"),
    (¬ gateway.readOnly ∨ gateway.privileged, "gateway is writable or privileged"),
    (txt "all" ∉ gateway.capDrop.map lower ∨ gateway.capAdd ≠ [],
      "gateway capabilities are not fully dropped"),
    (¬ hasNnp gateway.securityOpt, "gateway no-new-privileges is missing"),
    (gateway.mountTypes ≠ [] ∨ gateway.portBindings ≠ [], "gateway has a mount or published port"),
    (¬ gateway.tmpfsPaths.all (· = txt "/tmp"), "gateway has an unexpected tmpfs"),
    (¬ sameSet gateway.networks [plan.internalNetwork, plan.egressNetwork],
      "gateway is not attached to exactly two planned networks"),
    (dictGet gateway.networkIpv4 plan.internalNetwork ≠ some plan.gatewayIpv4,
      "gateway internal IPv4 does not match firewall policy"),
    (¬ IsHash gateway.imageId, "gateway runtime image id is not content-addressed"),
    (gateway.sandboxIdLabel ≠ some plan.sandboxId, "gateway ownership label is missing"),
    (gateway.logDriver ≠ txt "local", "gateway block logging is not local/durable")]

/-- The names of `credential_names`. -/
def checkedCredentials : List Text := [txt "FIREWORKS_API_KEY", txt "DAYTONA_API_KEY"]

/-- The checks on the environments of guard and gateway, and on the labels of the networks. -/
def credentialChecks : List (Bool × String) :=
  [(checkedCredentials.any (snapshot.guard.envNames.contains ·),
      "guard received a credential environment variable"),
    (checkedCredentials.any (snapshot.gateway.envNames.contains ·),
      "gateway received a credential environment variable"),
    (snapshot.internalNetworkLabel ≠ some plan.sandboxId,
      "internal network ownership label is missing"),
    (snapshot.egressNetworkLabel ≠ some plan.sandboxId,
      "egress network ownership label is missing")]

/-- The checks on the three proofs. -/
def proofChecks (expectedFirewall : Text) : List (Bool × String) :=
  let ready := snapshot.guardReady
  let firewall := snapshot.firewallCheck
  let gatewayCheck := snapshot.gatewayCheck
  [(field ready "schema" ≠ .str (txt "sandbox_guard_ready/v1") ∨ field ready "ready" ≠ .bool true ∨
      field ready "firewall_sha256" ≠ .str expectedFirewall ∨
      ¬ equalsInt floatIs (field ready "euid") 65533 ∨
      field ready "cap_eff_hex" ≠ .str (txt "0000000000000000") ∨
      field ready "ipv6_disabled" ≠ .bool true,
      "guard readiness/privilege/IPv6 proof is invalid"),
    (field firewall "schema" ≠ .str (txt "sandbox_firewall_check/v1") ∨
      field firewall "ok" ≠ .bool true ∨ field firewall "firewall_sha256" ≠ .str expectedFirewall,
      "live firewall rule proof is invalid"),
    (field gatewayCheck "schema" ≠ .str (txt "sandbox_gateway_check/v1") ∨
      field gatewayCheck "ok" ≠ .bool true ∨
      field gatewayCheck "gateway_ipv4" ≠ .str plan.gatewayIpv4 ∨
      ¬ equalsInt floatIs (field gatewayCheck "gateway_port") plan.gatewayPort,
      "gateway listener proof is invalid")]

/-- `evaluate_runtime_snapshot`: the failures it finds. -/
def evaluateRuntimeSnapshot : Except Raised (List Text) := do
  let firewall ← plan.firewallPlan
  let checks := hostChecks snapshot ++ agentChecks plan snapshot ++ guardChecks plan snapshot ++
    gatewayChecks plan snapshot ++ credentialChecks plan snapshot ++
    proofChecks floatIs plan snapshot (firewall.sha256 sha)
  return (checks.filter Prod.fst).map fun failed => txt failed.2

/-- `PreflightResult.require_ready` -/
def requireNoFailures (failures : List Text) : Except Raised Unit :=
  require (failures = []) (.preflightFailure ((txt "; ").intercalate failures))

end Evaluation

end WagmiBench.Sandbox.Isolation
