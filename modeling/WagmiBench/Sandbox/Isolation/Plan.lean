import WagmiBench.Core.Config
import WagmiBench.Lib.IpAddress
import WagmiBench.Lib.JsonDumps
import WagmiBench.Spec.Canonical

/-!
# The isolation plan

`sandbox/orchestration.py`: the names, addresses and images of one sandbox and the commands that
create it, with the firewall of `sandbox/docker/guard/firewall_runtime.py` that the guard proves.
What `IsolationPlan.__post_init__` refuses is not refused here: the results are about every record.
-/

namespace WagmiBench.Sandbox.Isolation

open WagmiBench.Lib WagmiBench.Spec WagmiBench.Core

/-- What the orchestration raises. -/
inductive Raised where
  /-- `PreflightFailure` -/
  | preflightFailure (message : Text)
  | runtimeError (message : Text)
  | valueError (message : Text)
  | recursionError
  | unicodeError
  | osError
  deriving DecidableEq

/-! ## The firewall -/

/-- `FirewallPlan`, its chains by their default names. -/
structure FirewallPlan where
  agentUid : ℤ
  gatewayIpv4 : Text
  agentHttpPort : ℤ
  gatewayPort : ℤ
  collectorTcpPort : ℤ
  collectorUdpPort : ℤ

/-- `_port` -/
def requirePort (value : ℤ) (name : String) : Except Raised Unit :=
  require (1024 ≤ value ∧ value ≤ 65_535)
    (.valueError (txt name ++ txt " must be an unprivileged TCP/UDP port"))

namespace FirewallPlan

variable (plan : FirewallPlan)

/-- `__post_init__` -/
def check : Except Raised Unit := do
  require (1 ≤ plan.agentUid ∧ plan.agentUid ≤ 2 ^ 31 - 1)
    (.valueError (txt "agent_uid must be a positive integer"))
  match IpAddress.parse plan.gatewayIpv4 with
  | none => .error (.valueError (txt "gateway_ipv4 must be a literal IPv4 address"))
  | some (.v6 _ _) => .error (.valueError (txt "gateway_ipv4 must be one routable namespace IPv4"))
  | some (.v4 ip) =>
    require (¬ IpAddress.isUnspecified (.v4 ip) ∧ ¬ IpAddress.isMulticast (.v4 ip))
      (.valueError (txt "gateway_ipv4 must be one routable namespace IPv4"))
  requirePort plan.gatewayPort "gateway_port"
  requirePort plan.agentHttpPort "agent_http_port"
  requirePort plan.collectorTcpPort "collector_tcp_port"
  requirePort plan.collectorUdpPort "collector_udp_port"
  require [plan.gatewayPort, plan.agentHttpPort, plan.collectorTcpPort, plan.collectorUdpPort].Nodup
    (.valueError (txt "agent HTTP, gateway, and collector ports must be distinct"))

/-- `restore_text` -/
def restoreText : Text :=
  let uid := decimalInt plan.agentUid
  let gateway := plan.gatewayIpv4 ++ txt "/32"
  let agentHttpPort := decimalInt plan.agentHttpPort
  let gatewayPort := decimalInt plan.gatewayPort
  let tcpPort := decimalInt plan.collectorTcpPort
  let udpPort := decimalInt plan.collectorUdpPort
  [codePoint 0x0A].intercalate [
    txt "*nat",
    txt ":TE_EGRESS - [0:0]",
    txt "-A OUTPUT -m owner --uid-owner " ++ uid ++
      txt " -p tcp -m conntrack --ctstate NEW -j TE_EGRESS",
    txt "-A OUTPUT -m owner --uid-owner " ++ uid ++ txt " -p udp -j TE_EGRESS",
    txt "-A TE_EGRESS -d 127.0.0.1/32 -p tcp --dport " ++ agentHttpPort ++ txt " -j RETURN",
    txt "-A TE_EGRESS -d " ++ gateway ++ txt " -p tcp --dport " ++ gatewayPort ++ txt " -j RETURN",
    txt "-A TE_EGRESS -p tcp -j REDIRECT --to-ports " ++ tcpPort,
    txt "-A TE_EGRESS -p udp -j REDIRECT --to-ports " ++ udpPort,
    txt "COMMIT",
    txt "*filter",
    txt ":TE_FILTER - [0:0]",
    txt "-A OUTPUT -m owner --uid-owner " ++ uid ++ txt " -j TE_FILTER",
    txt "-A TE_FILTER -m conntrack --ctstate ESTABLISHED,RELATED -j RETURN",
    txt "-A TE_FILTER -d 127.0.0.1/32 -o lo -p tcp --dport " ++ agentHttpPort ++ txt " -j RETURN",
    txt "-A TE_FILTER -d " ++ gateway ++ txt " -p tcp --dport " ++ gatewayPort ++ txt " -j RETURN",
    txt "-A TE_FILTER -p tcp --dport " ++ tcpPort ++ txt " -j RETURN",
    txt "-A TE_FILTER -p udp --dport " ++ udpPort ++ txt " -j RETURN",
    txt "-A TE_FILTER -j REJECT",
    txt "COMMIT",
    []]

/-- `sha256`. An address that passed the check is ASCII text. -/
def sha256 (sha : Sha256) : Text := sha.prefixed (plan.restoreText.map fun c => UInt8.ofNat c.val)

end FirewallPlan

/-! ## The plan -/

/-- `IsolationPlan`; the repository it belongs to is the one whose files are read. -/
structure IsolationPlan where
  agentImage : Text
  gatewayImage : Text
  guardImage : Text
  endpointDomains : List Text
  agentCommand : List Text
  credentialEnvNames : List Text := [txt "FIREWORKS_API_KEY"]
  agentEnv : List (Text × Text) := []
  sandboxId : Text
  agentName : Text := txt "tradeevolve-agent"
  gatewayName : Text := txt "tradeevolve-gateway"
  guardName : Text := txt "tradeevolve-guard"
  internalNetwork : Text := txt "tradeevolve-agent-net"
  egressNetwork : Text := txt "tradeevolve-gateway-egress"
  subnet : Text := txt "172.30.240.0/24"
  gatewayIpv4 : Text := txt "172.30.240.2"
  agentUid : ℤ := 65532
  agentHttpPort : ℤ := 8000
  hostHttpPort : ℤ := 18080
  gatewayPort : ℤ := 3128
  collectorTcpPort : ℤ := 15001
  collectorUdpPort : ℤ := 15002

/-- The words of a command. -/
abbrev Argv := List Text

def argv (words : List String) : Argv := words.map txt

namespace IsolationPlan

variable (plan : IsolationPlan)

/-- `firewall_plan` -/
def firewallPlan : Except Raised FirewallPlan := do
  let firewall : FirewallPlan := ⟨plan.agentUid, plan.gatewayIpv4, plan.agentHttpPort,
    plan.gatewayPort, plan.collectorTcpPort, plan.collectorUdpPort⟩
  firewall.check
  return firewall

/-! ### The commands -/

def sandboxLabel : Text := txt "tradeevolve.sandbox_id=" ++ plan.sandboxId

def proxy : Text := txt "http://" ++ plan.gatewayIpv4 ++ txt ":" ++ decimalInt plan.gatewayPort

def allowlist : Text := Json.dumps true (.arr (plan.endpointDomains.map .str))

/-- `sorted(self.agent_env.items())` -/
def sortedAgentEnv : List (Text × Text) :=
  plan.agentEnv.insertionSort fun a b => textLe a.1 b.1 = true

/-- `commands[0]` -/
def createInternalNetwork : Argv :=
  argv ["docker", "network", "create", "--internal", "--ipv6=false", "--subnet"] ++
    [plan.subnet, txt "--label", plan.sandboxLabel, plan.internalNetwork]

/-- `commands[1]` -/
def createEgressNetwork : Argv :=
  argv ["docker", "network", "create", "--ipv6=false", "--label"] ++
    [plan.sandboxLabel, plan.egressNetwork]

/-- The options that keep a container's log. -/
def logOptions : Argv :=
  argv ["--log-driver", "local", "--log-opt", "max-size=10m", "--log-opt", "max-file=1",
    "--log-opt", "compress=false"]

/-- `commands[2]` -/
def runGateway : Argv :=
  argv ["docker", "run", "--detach", "--name"] ++
    [plan.gatewayName, txt "--label", plan.sandboxLabel, txt "--network", plan.internalNetwork,
      txt "--ip", plan.gatewayIpv4] ++
    argv ["--user", "65532:65532", "--read-only", "--cap-drop", "ALL", "--security-opt",
      "no-new-privileges:true"] ++ logOptions ++
    argv ["--pids-limit", "128", "--tmpfs", "/tmp:rw,noexec,nosuid,nodev,size=16m"] ++
    [plan.gatewayImage, txt "--endpoint-domains-json", plan.allowlist, txt "--port",
      decimalInt plan.gatewayPort]

/-- `commands[3]` -/
def connectGateway : Argv :=
  argv ["docker", "network", "connect"] ++ [plan.egressNetwork, plan.gatewayName]

/-- `commands[4]` -/
def runGuard : Argv :=
  argv ["docker", "run", "--detach", "--name"] ++
    [plan.guardName, txt "--label", plan.sandboxLabel, txt "--network", plan.egressNetwork] ++
    argv ["--dns", "127.0.0.1", "--sysctl", "net.ipv6.conf.all.disable_ipv6=1", "--sysctl",
      "net.ipv6.conf.default.disable_ipv6=1", "--publish"] ++
    [txt "127.0.0.1:" ++ decimalInt plan.hostHttpPort ++ txt ":" ++ decimalInt plan.agentHttpPort ++
      txt "/tcp"] ++
    argv ["--read-only", "--cap-drop", "ALL", "--cap-add", "NET_ADMIN", "--cap-add", "SETGID",
      "--cap-add", "SETUID", "--security-opt", "no-new-privileges:true"] ++ logOptions ++
    argv ["--pids-limit", "128", "--tmpfs",
      "/run/tradeevolve:rw,noexec,nosuid,nodev,size=1m,uid=65533,gid=65533,mode=0755"] ++
    [txt "--env", txt "AGENT_UID=" ++ decimalInt plan.agentUid,
      txt "--env", txt "AGENT_HTTP_PORT=" ++ decimalInt plan.agentHttpPort,
      txt "--env", txt "GATEWAY_IPV4=" ++ plan.gatewayIpv4,
      txt "--env", txt "GATEWAY_PORT=" ++ decimalInt plan.gatewayPort,
      txt "--env", txt "COLLECTOR_TCP_PORT=" ++ decimalInt plan.collectorTcpPort,
      txt "--env", txt "COLLECTOR_UDP_PORT=" ++ decimalInt plan.collectorUdpPort,
      plan.guardImage]

/-- `commands[5]` -/
def connectGuard : Argv :=
  argv ["docker", "network", "connect"] ++ [plan.internalNetwork, plan.guardName]

/-- `commands[6]` -/
def runAgent : Argv :=
  argv ["docker", "run", "--detach", "--name"] ++
    [plan.agentName, txt "--label", plan.sandboxLabel, txt "--network",
      txt "container:" ++ plan.guardName, txt "--user",
      decimalInt plan.agentUid ++ txt ":" ++ decimalInt plan.agentUid] ++
    argv ["--read-only", "--cap-drop", "ALL", "--security-opt", "no-new-privileges:true",
      "--log-driver", "none", "--pids-limit", "256", "--tmpfs",
      "/tmp:rw,noexec,nosuid,nodev,size=64m"] ++
    (plan.credentialEnvNames.flatMap fun name => [txt "--env", name]) ++
    (plan.sortedAgentEnv.flatMap fun (name, value) => [txt "--env", name ++ txt "=" ++ value]) ++
    [txt "--env", txt "TRADEVOLVE_AGENT_PORT=" ++ decimalInt plan.agentHttpPort,
      txt "--env", txt "TRADEVOLVE_AGENT_HOST=0.0.0.0",
      txt "--env", txt "HTTPS_PROXY=" ++ plan.proxy, txt "--env", txt "https_proxy=" ++ plan.proxy,
      txt "--env", txt "HTTP_PROXY=" ++ plan.proxy, txt "--env", txt "http_proxy=" ++ plan.proxy,
      txt "--env", txt "NO_PROXY=127.0.0.1,localhost",
      txt "--env", txt "no_proxy=127.0.0.1,localhost", plan.agentImage] ++ plan.agentCommand

end IsolationPlan

end WagmiBench.Sandbox.Isolation
