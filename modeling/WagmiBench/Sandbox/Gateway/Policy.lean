import WagmiBench.Lib.IpAddress
import WagmiBench.Lib.JsonDumps
import WagmiBench.Lib.Outcome
import WagmiBench.Lib.SurrogatePass
import WagmiBench.Spec.Canonical

/-!
# The gateway's policy

`sandbox/docker/gateway/gateway_server.py`: the exact-hostname allowlist, the block facts a refusal
is recorded with, and the decision on a CONNECT authority.
-/

namespace WagmiBench.Sandbox

open WagmiBench.Lib WagmiBench.Spec

/-- What the gateway raises. -/
inductive GatewayError where
  /-- `PolicyError` -/
  | policy (message : String)
  /-- Any other `ValueError`. -/
  | value (message : String)
  | os
  | assertion (message : String)
  deriving DecidableEq, Repr

abbrev Gate := Except GatewayError

/-! ## Domains -/

/-- A letter or digit of a domain. -/
def isDomainChar (c : CodePoint) : Bool := isDigit c || (0x61 ≤ c.val && c.val ≤ 0x7A)

abbrev hyphen : CodePoint := codePoint 0x2D
abbrev dot : CodePoint := codePoint 0x2E

/-- One label of `_DOMAIN_RE`. -/
def IsLabel (label : Text) : Prop :=
  label ≠ [] ∧ label.length ≤ 63 ∧ (label.all fun c => isDomainChar c || c == hyphen) = true ∧
    label.head? ≠ some hyphen ∧ label.getLast? ≠ some hyphen

instance (label : Text) : Decidable (IsLabel label) :=
  inferInstanceAs (Decidable (_ ∧ _))

/-- `_DOMAIN_RE.fullmatch` -/
def IsDomain (value : Text) : Prop :=
  value.length ≤ 253 ∧ 2 ≤ (value.splitOn dot).length ∧ ∀ label ∈ value.splitOn dot, IsLabel label

instance (value : Text) : Decidable (IsDomain value) :=
  have : Decidable (∀ label ∈ value.splitOn dot, IsLabel label) := List.decidableBAll _ _
  inferInstanceAs (Decidable (_ ∧ _))

/-- `str.lower` on an ASCII letter. -/
def lowerChar (c : CodePoint) : CodePoint :=
  if 0x41 ≤ c.val ∧ c.val ≤ 0x5A then codePoint (c.val + 0x20) else c

/-- `_canonical_requested_domain` -/
def canonicalRequestedDomain (value : Text) : Gate Text := do
  require (Ascii value) (.policy "requested host must be ASCII")
  let asciiValue := value.map lowerChar
  require (IsDomain asciiValue) (.policy "requested host is not an exact DNS hostname")
  require (IpAddress.parse asciiValue = none) (.policy "requested host cannot be an IP literal")
  return asciiValue

/-- `EndpointPolicy`: the allowed hostnames. -/
structure EndpointPolicy where
  domains : List Text

/-- `EndpointPolicy.allows` -/
def EndpointPolicy.allows (policy : EndpointPolicy) (host : Text) (port : ℤ) : Bool :=
  match canonicalRequestedDomain host with
  | .error _ => false
  | .ok canonical => port = 443 ∧ canonical ∈ policy.domains

/-! ## Block facts -/

/-- `_TOKEN_KIND_RE.fullmatch` -/
def IsTokenKind (kind : Text) : Prop :=
  kind.length ≤ 32 ∧ (∃ c ∈ kind.head?, 0x61 ≤ c.val ∧ c.val ≤ 0x7A) ∧
    (kind.all fun c => isDomainChar c || c == hyphen || c == codePoint 0x5F) = true

instance (kind : Text) : Decidable (IsTokenKind kind) :=
  have : Decidable (∃ c ∈ kind.head?, 0x61 ≤ c.val ∧ c.val ≤ 0x7A) :=
    match kind.head? with
    | none => isFalse (by simp)
    | some c => decidable_of_iff (0x61 ≤ c.val ∧ c.val ≤ 0x7A) (by simp)
  inferInstanceAs (Decidable (_ ∧ _))

/-- `destination_token` -/
def destinationToken (sha : Sha256) (value kind : Text) : Gate Text := do
  require (IsTokenKind kind) (.value "invalid destination-token kind")
  return kind ++ txt "-" ++ sha.prefixed (utf8EncodeSurrogatePass value)

/-- The protocols of an `EgressBlocked` payload. -/
inductive Protocol where
  | https | dns | tcp | udp | other
  deriving DecidableEq, Repr

def Protocol.text : Protocol → Text
  | .https => txt "https"
  | .dns => txt "dns"
  | .tcp => txt "tcp"
  | .udp => txt "udp"
  | .other => txt "other"

/-- Who saw an attempt. -/
inductive BlockWitness where
  | proxyConnect | proxyResolution | proxySni | kernelRedirect
  deriving DecidableEq, Repr

def BlockWitness.text : BlockWitness → Text
  | .proxyConnect => txt "proxy_connect"
  | .proxyResolution => txt "proxy_resolution"
  | .proxySni => txt "proxy_sni"
  | .kernelRedirect => txt "kernel_redirect"

/-- `BlockFact`: what `__post_init__` checks is part of it. -/
@[ext]
structure BlockFact where
  destination : Text
  port : Option ℤ
  protocol : Protocol
  count : ℤ
  witness : BlockWitness
  port_range : ∀ p ∈ port, 0 ≤ p ∧ p ≤ 65_535
  count_pos : 1 ≤ count

instance : DecidableEq BlockFact := fun a b =>
  decidable_of_iff (a.destination = b.destination ∧ a.port = b.port ∧ a.protocol = b.protocol ∧
    a.count = b.count ∧ a.witness = b.witness) BlockFact.ext_iff.symm

namespace BlockFact

/-- The constructor with its `__post_init__`. -/
def make (destination : Text) (port : Option ℤ) (protocol : Protocol) (count : ℤ)
    (witness : BlockWitness) : Gate BlockFact := do
  let ⟨hport⟩ ← check (port.all fun p => 0 ≤ p ∧ p ≤ 65_535) (.value "port outside uint16 range")
  let ⟨hcount⟩ ← check (1 ≤ count) (.value "count must be positive")
  return ⟨destination, port, protocol, count, witness, by simpa [Option.all_eq_true] using hport,
    hcount⟩

variable (fact : BlockFact)

def eventPayload : Json :=
  .obj [(txt "destination", .str fact.destination),
    (txt "port", match fact.port with | some p => .int p | none => .null),
    (txt "protocol", .str fact.protocol.text), (txt "count", .int fact.count)]

def logRecord : Json :=
  .obj [(txt "schema", .str (txt "sandbox_egress_block/v1")), (txt "witness", .str fact.witness.text),
    (txt "event_payload", fact.eventPayload)]

end BlockFact

/-- The line `JsonLineBlockSink.emit` writes. -/
def JsonLineBlockSink.line (fact : BlockFact) : Text :=
  Json.dumps true fact.logRecord ++ [codePoint 0x0A]

/-! ## The decision on an authority -/

/-- `ConnectDecision` -/
structure ConnectDecision where
  allowed : Bool
  host : Option Text
  port : Option ℤ
  block : Option BlockFact

/-- The digits `int` reads before it gives up. -/
abbrev INT_MAX_STR_DIGITS : ℕ := 4300

/-- `int(text)` on decimal digits. -/
def intOfDigits (digits : Text) : Gate ℤ := do
  require (digits.length ≤ INT_MAX_STR_DIGITS) (.value "Exceeds the limit for integer string conversion")
  return ofDecimal digits

/-- The host and the port text of an authority. -/
def splitHostPort (authority : Text) : Gate (Text × Text) := do
  let colon := codePoint 0x3A
  let closeBracket := codePoint 0x5D
  require (authority ≠ [] ∧ (authority.all fun c => 33 ≤ c.val && c.val != 127) = true ∧
      ((txt "/@?#").all fun c => !authority.contains c) = true)
    (.policy "malformed CONNECT authority")
  if authority.head? = some (codePoint 0x5B) then do
    let host := (authority.drop 1).takeWhile (· ≠ closeBracket)
    let rest := authority.drop (host.length + 1)
    require (rest.head? = some closeBracket ∧ (rest.drop 1).head? = some colon)
      (.policy "malformed bracketed CONNECT authority")
    return (host, rest.drop 2)
  else do
    require (authority.count colon = 1) (.policy "CONNECT authority must include exactly one port")
    return (authority.takeWhile (· ≠ colon), (authority.dropWhile (· ≠ colon)).drop 1)

/-- `_split_connect_authority` -/
def splitConnectAuthority (authority : Text) : Gate (Text × ℤ) := do
  let (host, portText) ← splitHostPort authority
  require (portText ≠ [] ∧ portText.all isDigit = true) (.policy "CONNECT port must be decimal")
  let port ← intOfDigits portText
  require (1 ≤ port ∧ port ≤ 65_535) (.policy "CONNECT port outside valid range")
  return (host, port)

/-- `decide_connect` -/
def decideConnect (sha : Sha256) (authority : Text) (policy : EndpointPolicy) :
    Gate ConnectDecision :=
  let target : Gate (Text × ℤ) := do
    let (requestedHost, port) ← splitConnectAuthority authority
    let canonicalHost ← canonicalRequestedDomain requestedHost
    return (canonicalHost, port)
  match target with
  | .error (.policy _) => do
    let destination ← destinationToken sha authority (txt "opaque")
    let block ← BlockFact.make destination none .other 1 .proxyConnect
    return ⟨false, none, none, some block⟩
  | .error e => .error e
  | .ok (canonicalHost, port) =>
    if policy.allows canonicalHost port = false then do
      let destination ← destinationToken sha canonicalHost (txt "domain")
      let block ← BlockFact.make destination (some port) (if port = 443 then .https else .tcp) 1
        .proxyConnect
      return ⟨false, some canonicalHost, some port, some block⟩
    else return ⟨true, some canonicalHost, some port, none⟩

/-! ## Public addresses -/

/-- `_is_public_ip` -/
def isPublicIp (value : Text) : Bool :=
  match IpAddress.parse value with
  | none => false
  | some parsed =>
    let address := parsed.ipv4Mapped.getD parsed
    address.isGlobal && !address.isPrivate && !address.isLoopback && !address.isLinkLocal &&
      !address.isMulticast && !address.isReserved && !address.isUnspecified

end WagmiBench.Sandbox
