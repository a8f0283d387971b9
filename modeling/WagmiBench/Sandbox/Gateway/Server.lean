import WagmiBench.Sandbox.Gateway.ClientHello

/-!
# The CONNECT handler

`sandbox/docker/gateway/gateway_server.py`: resolving an allowed host once, vetting every answer, and
the handler of one CONNECT request. A run of the handler is what it does to the outside, in order, and
how it ends.
-/

namespace WagmiBench.Sandbox

open WagmiBench.Lib WagmiBench.Spec

/-! ## Resolution -/

/-- An item of a socket address. -/
inductive SocketItem where
  | str (value : Text)
  | int (value : ℤ)
  | other
  deriving DecidableEq

abbrev AF_INET : ℤ := 2
abbrev AF_INET6 : ℤ := 10
abbrev SOCK_STREAM : ℤ := 1

/-- One answer of the resolver. -/
structure Answer where
  family : ℤ
  socketType : ℤ
  protocol : ℤ
  canonicalName : Text
  socketAddress : List SocketItem

/-- `ResolvedEndpoint` -/
structure ResolvedEndpoint where
  family : ℤ
  socketType : ℤ
  protocol : ℤ
  socketAddress : List SocketItem
  ip : Text
  deriving DecidableEq

/-- The address and port of an answer that is a stream socket's. -/
def Answer.address (answer : Answer) : Option (Text × ℤ) :=
  if (answer.family = AF_INET ∨ answer.family = AF_INET6) ∧ answer.socketType = SOCK_STREAM then
    match answer.socketAddress with
    | .str ip :: .int port :: _ => some (ip, port)
    | _ => none
  else none

/-- The loop of `resolve_public_endpoints`. -/
def vetAnswers (port : ℤ) : List (ℤ × Text × ℤ) → List Answer → Gate (List ResolvedEndpoint)
  | _, [] => .ok []
  | seen, answer :: answers =>
    match answer.address with
    | none => .error (.policy "allowed endpoint returned an unsupported address")
    | some (ip, answerPort) => do
      require (answerPort = port ∧ isPublicIp ip = true)
        (.policy "allowed endpoint resolved outside public address space")
      let key := (answer.family, ip, answerPort)
      if key ∈ seen then vetAnswers port seen answers
      else do
        let rest ← vetAnswers port (key :: seen) answers
        return ⟨answer.family, answer.socketType, answer.protocol, answer.socketAddress, ip⟩ :: rest

/-- `resolve_public_endpoints`; the resolver gives no answers when it fails with `OSError`. -/
def resolvePublicEndpoints (answers : Option (List Answer)) (port : ℤ) :
    Gate (List ResolvedEndpoint) := do
  let answers ← match answers with
    | none => .error (.policy "allowed endpoint did not resolve")
    | some answers => pure answers
  require (answers ≠ []) (.policy "allowed endpoint returned no addresses")
  let endpoints ← vetAnswers port [] answers
  require (endpoints ≠ []) (.policy "allowed endpoint returned no usable addresses")
  return endpoints

/-! ## The handler -/

/-- How dialing an address goes: it fails, connects, or connects and breaks on the first write. -/
inductive Dial where
  | fails
  | connects
  | breaks
  deriving DecidableEq

/-- What one request meets: the allowlist, the resolver and the network. -/
structure Gateway where
  sha : Sha256
  policy : EndpointPolicy
  resolver : Text → ℤ → Option (List Answer)
  dialer : ResolvedEndpoint → Dial

/-- What the handler does to the outside. -/
inductive Effect where
  | respond (status : ℕ)
  | emit (fact : BlockFact)
  | resolve (host : Text) (port : ℤ)
  | dial (endpoint : ResolvedEndpoint)
  | sendall (endpoint : ResolvedEndpoint) (raw : Bytes)
  | relay (endpoint : ResolvedEndpoint)

/-- A run of the handler. -/
structure Handled where
  effects : List Effect
  ending : Gate Unit

namespace Handled

/-- Effects before a run. -/
def after (effects : List Effect) (run : Handled) : Handled :=
  { run with effects := effects ++ run.effects }

/-- A refusal: its fact is built and emitted. -/
def refuse (fact : Gate BlockFact) : Handled :=
  match fact with
  | .error e => ⟨[], .error e⟩
  | .ok fact => ⟨[.emit fact], .ok ()⟩

end Handled

variable (gateway : Gateway)

/-- The block fact of a refusal under way. -/
def tunnelFact (destination kind : Text) (port : ℤ) (witness : BlockWitness) : Gate BlockFact := do
  let token ← destinationToken gateway.sha destination kind
  BlockFact.make token (some port) .https 1 witness

/-- The dial loop: the attempts, and the endpoint that connected. -/
def dialFirst : List ResolvedEndpoint → List Effect × Option ResolvedEndpoint
  | [] => ([], none)
  | endpoint :: endpoints =>
    if gateway.dialer endpoint = .fails then
      let (attempts, connected) := dialFirst endpoints
      (.dial endpoint :: attempts, connected)
    else ([.dial endpoint], some endpoint)

/-- The first bytes go upstream, then whatever either side sends. -/
def forward (clientHello : Bytes) (endpoint : ResolvedEndpoint) : Handled :=
  if gateway.dialer endpoint = .breaks then ⟨[.sendall endpoint clientHello], .error .os⟩
  else ⟨[.sendall endpoint clientHello, .relay endpoint], .ok ()⟩

/-- The part of `do_CONNECT` after the tunnel was announced to the client. -/
def tunnel (path host : Text) (port : ℤ) (client : ClientStream) : Handled :=
  match readClientHello client with
  | .error (.policy _) => .refuse (tunnelFact gateway path (txt "opaque") port .proxySni)
  | .error .os => .refuse (tunnelFact gateway path (txt "opaque") port .proxySni)
  | .error e => ⟨[], .error e⟩
  | .ok ((sni, clientHello), _) =>
    if sni ≠ host then .refuse (tunnelFact gateway sni (txt "domain") port .proxySni)
    else .after [.resolve host port]
      (match resolvePublicEndpoints (gateway.resolver host port) port with
      | .error (.policy _) => .refuse (tunnelFact gateway host (txt "domain") port .proxyResolution)
      | .error e => ⟨[], .error e⟩
      | .ok endpoints =>
        let (attempts, upstream) := dialFirst gateway endpoints
        .after attempts
          (match upstream with
          | none => ⟨[], .ok ()⟩
          | some endpoint => forward gateway clientHello endpoint))

/-- `do_CONNECT` -/
def doConnect (path : Text) (client : ClientStream) : Handled :=
  match decideConnect gateway.sha path gateway.policy with
  | .error e => ⟨[], .error e⟩
  | .ok decision =>
    if decision.allowed = false then
      match decision.block with
      | none => ⟨[], .error (.assertion "blocked decision must carry evidence")⟩
      | some block => ⟨[.emit block, .respond 403], .ok ()⟩
    else
      match decision.host, decision.port with
      | some host, some port => .after [.respond 200] (tunnel gateway path host port client)
      | _, _ => ⟨[], .error (.assertion "allowed decision must carry target")⟩

end WagmiBench.Sandbox
