import WagmiBench.Lib.Text

/-!
# Internet addresses as text

The reader of Python's `ipaddress` for IPv4 and IPv6 text, and the properties that ask which of the
registered special blocks an address lies in.
-/

namespace WagmiBench.Lib

/-- An address; the scope of an IPv6 address decides none of the properties. -/
inductive IpAddress where
  | v4 (ip : ℕ)
  | v6 (ip : ℕ) (scopeId : Option Text)
  deriving DecidableEq

namespace IpAddress

/-! ## Reading -/

/-- `_parse_octet` -/
def parseOctet (octet : Text) : Option ℕ :=
  if octet ≠ [] ∧ octet.all isDigit = true ∧ octet.length ≤ 3 ∧
      (octet = txt "0" ∨ octet.head? ≠ some (codePoint 0x30)) ∧ ofDecimal octet ≤ 255 then
    some (ofDecimal octet)
  else none

/-- `IPv4Address(text)`, as a number. -/
def parseV4 (text : Text) : Option ℕ := do
  guard (codePoint 0x2F ∉ text)
  match text.splitOn (codePoint 0x2E) with
  | [a, b, c, d] =>
    let a ← parseOctet a
    let b ← parseOctet b
    let c ← parseOctet c
    let d ← parseOctet d
    return ((a * 256 + b) * 256 + c) * 256 + d
  | _ => none

def hexDigitValue (c : CodePoint) : Option ℕ :=
  if isDigit c then some (c.val - 0x30)
  else if 0x61 ≤ c.val ∧ c.val ≤ 0x66 then some (c.val - 0x57)
  else if 0x41 ≤ c.val ∧ c.val ≤ 0x46 then some (c.val - 0x37)
  else none

/-- `_parse_hextet` -/
def parseHextet (hextet : Text) : Option ℕ := do
  guard (hextet ≠ [] ∧ hextet.length ≤ 4)
  let digits ← hextet.mapM hexDigitValue
  return digits.foldl (fun n d => 16 * n + d) 0

/-- `'%x' % n` -/
def hexText (n : ℕ) : Text := (Nat.toDigits 16 n).map fun c => codePoint c.toNat

/-- The number of consecutive hextets. -/
def ofHextets (hextets : List ℕ) : ℕ := hextets.foldl (fun n h => 65536 * n + h) 0

/-- The parts of an IPv6 text, an IPv4 suffix replaced by two hextets. -/
def hextetParts (text : Text) : Option (List Text) := do
  let parts := text.splitOn (codePoint 0x3A)
  guard (3 ≤ parts.length)
  let last := parts.getLastD []
  let parts ←
    if codePoint 0x2E ∈ last then do
      let ip ← parseV4 last
      pure (parts.dropLast ++ [hexText (ip / 65536 % 65536), hexText (ip % 65536)])
    else pure parts
  guard (parts.length ≤ 9)
  return parts

/-- `_ip_int_from_string` for IPv6: at most one `::` stands for the hextets that are not there. -/
def parseV6 (text : Text) : Option ℕ := do
  let parts ← hextetParts text
  let inner := (parts.drop 1).dropLast
  guard ((inner.filter List.isEmpty).length ≤ 1)
  match inner.findIdx? List.isEmpty with
  | some i =>
    let hi := parts.take (i + 1)
    let lo := parts.drop (i + 2)
    -- an empty end belongs to the `::` or is refused
    guard (parts.head? = some [] → hi.length = 1)
    guard (parts.getLast? = some [] → lo.length = 1)
    let hi := if parts.head? = some [] then [] else hi
    let lo := if parts.getLast? = some [] then [] else lo
    guard (hi.length + lo.length < 8)
    let high ← hi.mapM parseHextet
    let low ← lo.mapM parseHextet
    return ofHextets high * 65536 ^ (8 - high.length) + ofHextets low
  | none =>
    guard (parts.length = 8)
    let hextets ← parts.mapM parseHextet
    return ofHextets hextets

/-- `_split_scope_id` -/
def splitScopeId (text : Text) : Option (Text × Option Text) :=
  let percent := codePoint 0x25
  match text.dropWhile (· ≠ percent) with
  | [] => some (text, none)
  | _ :: scopeId =>
    if scopeId = [] ∨ percent ∈ scopeId then none
    else some (text.takeWhile (· ≠ percent), some scopeId)

/-- `ipaddress.ip_address` on text, where it does not raise `ValueError`. -/
def parse (text : Text) : Option IpAddress :=
  match parseV4 text with
  | some ip => some (.v4 ip)
  | none => do
    guard (codePoint 0x2F ∉ text)
    let (address, scopeId) ← splitScopeId text
    let ip ← parseV6 address
    return .v6 ip scopeId

/-! ## Blocks -/

/-- A block of addresses: its first one, and the number of bits that vary in it. -/
structure Block where
  network : ℕ
  hostBits : ℕ

/-- `ip in block` -/
def Block.contains (block : Block) (ip : ℕ) : Bool :=
  ip / 2 ^ block.hostBits = block.network / 2 ^ block.hostBits

/-- `IPv4Network`, by its octets and prefix length. -/
def block4 (a b c d prefixLength : ℕ) : Block :=
  ⟨((a * 256 + b) * 256 + c) * 256 + d, 32 - prefixLength⟩

/-- `IPv6Network`, by its first hextets and prefix length. -/
def block6 (hextets : List ℕ) (prefixLength : ℕ) : Block :=
  ⟨ofHextets hextets * 65536 ^ (8 - hextets.length), 128 - prefixLength⟩

/-- `_IPv4Constants._private_networks` -/
def privateNetworks4 : List Block :=
  [block4 0 0 0 0 8, block4 10 0 0 0 8, block4 127 0 0 0 8, block4 169 254 0 0 16,
    block4 172 16 0 0 12, block4 192 0 0 0 24, block4 192 0 0 170 31, block4 192 0 2 0 24,
    block4 192 168 0 0 16, block4 198 18 0 0 15, block4 198 51 100 0 24, block4 203 0 113 0 24,
    block4 240 0 0 0 4, block4 255 255 255 255 32]

def privateNetworksExceptions4 : List Block :=
  [block4 192 0 0 9 32, block4 192 0 0 10 32]

/-- `_IPv6Constants._private_networks` -/
def privateNetworks6 : List Block :=
  [block6 [0, 0, 0, 0, 0, 0, 0, 1] 128, block6 [0] 128, block6 [0, 0, 0, 0, 0, 0xFFFF] 96,
    block6 [0x64, 0xFF9B, 1] 48, block6 [0x100] 64, block6 [0x2001] 23, block6 [0x2001, 0xDB8] 32,
    block6 [0x2002] 16, block6 [0xFC00] 7, block6 [0xFE80] 10]

def privateNetworksExceptions6 : List Block :=
  [block6 [0x2001, 1, 0, 0, 0, 0, 0, 1] 128, block6 [0x2001, 1, 0, 0, 0, 0, 0, 2] 128,
    block6 [0x2001, 3] 32, block6 [0x2001, 4, 0x112] 48, block6 [0x2001, 0x20] 28,
    block6 [0x2001, 0x30] 28]

/-- `_IPv6Constants._reserved_networks` -/
def reservedNetworks6 : List Block :=
  [block6 [0] 8, block6 [0x100] 8, block6 [0x200] 7, block6 [0x400] 6, block6 [0x800] 5,
    block6 [0x1000] 4, block6 [0x4000] 3, block6 [0x6000] 3, block6 [0x8000] 3, block6 [0xA000] 3,
    block6 [0xC000] 3, block6 [0xE000] 4, block6 [0xF000] 5, block6 [0xF800] 6, block6 [0xFE00] 9]

/-! ## Properties -/

/-- `ipv4_mapped` -/
def ipv4Mapped : IpAddress → Option IpAddress
  | .v4 _ => none
  | .v6 ip _ => if ip / 2 ^ 32 = 0xFFFF then some (.v4 (ip % 2 ^ 32)) else none

def isPrivate4 (ip : ℕ) : Bool :=
  privateNetworks4.any (·.contains ip) && privateNetworksExceptions4.all fun b => !b.contains ip

def isPrivate : IpAddress → Bool
  | .v4 ip => isPrivate4 ip
  | .v6 ip _ =>
    if ip / 2 ^ 32 = 0xFFFF then isPrivate4 (ip % 2 ^ 32)
    else privateNetworks6.any (·.contains ip) &&
      privateNetworksExceptions6.all fun b => !b.contains ip

def isGlobal : IpAddress → Bool
  | .v4 ip => !(block4 100 64 0 0 10).contains ip && !isPrivate4 ip
  | .v6 ip scopeId => !(IpAddress.v6 ip scopeId).isPrivate

def isLoopback : IpAddress → Bool
  | .v4 ip => (block4 127 0 0 0 8).contains ip
  | .v6 ip _ => ip = 1

def isLinkLocal : IpAddress → Bool
  | .v4 ip => (block4 169 254 0 0 16).contains ip
  | .v6 ip _ => (block6 [0xFE80] 10).contains ip

def isMulticast : IpAddress → Bool
  | .v4 ip => (block4 224 0 0 0 4).contains ip
  | .v6 ip _ => (block6 [0xFF00] 8).contains ip

def isReserved : IpAddress → Bool
  | .v4 ip => (block4 240 0 0 0 4).contains ip
  | .v6 ip _ => reservedNetworks6.any (·.contains ip)

def isUnspecified : IpAddress → Bool
  | .v4 ip => ip = 0
  | .v6 ip _ => ip = 0

end IpAddress

end WagmiBench.Lib
