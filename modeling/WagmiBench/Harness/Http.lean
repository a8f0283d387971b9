import Mathlib.Data.List.Infix
import WagmiBench.Harness.Protocol
import WagmiBench.Lib.JsonSpelling
import WagmiBench.Lib.SurrogatePass

/-!
# Responses with credentials

`harness/http.py`: what `HTTPAgent` makes of the outcome of an exchange. A response is scanned for
the credentials the agent protects, in several encodings of them, as it is and with its JSON escapes
resolved up to three times; one that contains any is discarded.
-/

namespace WagmiBench.Harness

open WagmiBench.Lib

abbrev BACKSLASH : UInt8 := 0x5C

abbrev MAX_UNESCAPE_PASSES : ℕ := 3

/-! ## Escapes -/

/-- `_JSON_SIMPLE_ESCAPES` -/
def JSON_SIMPLE_ESCAPES : List (UInt8 × UInt8) :=
  [(0x22, 0x22), (0x5C, 0x5C), (0x2F, 0x2F), (0x62, 0x08), (0x66, 0x0C), (0x6E, 0x0A), (0x72, 0x0D),
    (0x74, 0x09)]

/-- The value of a digit in `_HEX_DIGITS`. -/
def hexDigitValue (digit : UInt8) : Option ℕ := Json.hexValue (codePoint digit.toNat)

/-- A `\uXXXX` or `\UXXXX` at the front of the text: its number, and what follows. -/
def unicodeEscape : Bytes → Option (ℕ × Bytes)
  | slash :: u :: a :: b :: c :: d :: rest =>
    if slash = BACKSLASH ∧ (u = 0x75 ∨ u = 0x55) then do
      let i ← hexDigitValue a
      let j ← hexDigitValue b
      let k ← hexDigitValue c
      let l ← hexDigitValue d
      return (((i * 16 + j) * 16 + k) * 16 + l, rest)
    else none
  | _ => none

/-- The same, a low surrogate joined to the high one before it. -/
def characterEscape (text : Bytes) : Option (CodePoint × Bytes) := do
  let (code, rest) ← unicodeEscape text
  match unicodeEscape rest with
  | some (low, after) =>
    if Json.isHighSurrogate code ∧ Json.isLowSurrogate low then
      return (codePoint (0x10000 + (code - 0xD800) * 1024 + (low - 0xDC00)), after)
    else return (codePoint code, rest)
  | none => return (codePoint code, rest)

theorem unicodeEscape_length {text rest : Bytes} {n : ℕ}
    (h : unicodeEscape text = some (n, rest)) : text.length = rest.length + 6 := by
  unfold unicodeEscape at h
  split at h
  · split at h
    · simp only [Option.bind_eq_bind, Option.bind_eq_some_iff, Option.pure_def, Option.some.injEq,
        Prod.mk.injEq] at h
      obtain ⟨-, -, -, -, -, -, -, -, -, rfl⟩ := h
      simp
    · cases h
  · cases h

theorem characterEscape_length {text rest : Bytes} {c : CodePoint}
    (h : characterEscape text = some (c, rest)) : rest.length + 6 ≤ text.length := by
  simp only [characterEscape, Option.bind_eq_bind, Option.bind_eq_some_iff] at h
  obtain ⟨⟨code, after⟩, hcode, h⟩ := h
  have hfirst : text.length = after.length + 6 := unicodeEscape_length hcode
  dsimp only at h
  split at h
  · rename_i low behind hlow
    have hsecond : after.length = behind.length + 6 := unicodeEscape_length hlow
    split at h <;> obtain ⟨-, hrest⟩ := Prod.mk.inj (Option.some.inj h) <;> subst hrest <;> omega
  · obtain ⟨-, hrest⟩ := Prod.mk.inj (Option.some.inj h)
    subst hrest
    omega

/-- `_decode_json_escapes` -/
def decodeJsonEscapes : Bytes → Bytes
  | [] => []
  | [byte] => [byte]
  | byte :: next :: rest =>
    if byte ≠ BACKSLASH then byte :: decodeJsonEscapes (next :: rest)
    else
      match JSON_SIMPLE_ESCAPES.lookup next with
      | some simple => simple :: decodeJsonEscapes rest
      | none =>
        match _h : characterEscape (byte :: next :: rest) with
        | none => byte :: decodeJsonEscapes (next :: rest)
        | some (c, after) => utf8EncodeCharPass c ++ decodeJsonEscapes after
termination_by text => text.length
decreasing_by
  · simp
  · simp
  · simp
  · have := characterEscape_length ‹_›
    simp only [List.length_cons] at this ⊢
    omega

/-! ## Variants -/

/-- The passes of `_scan_variants`: the forms found so far, and the latest. -/
def unescapePasses : ℕ → List Bytes → Bytes → List Bytes
  | 0, variants, _ => variants
  | passes + 1, variants, current =>
    let current := decodeJsonEscapes current
    if current ∈ variants then variants
    else if BACKSLASH ∉ current then variants ++ [current]
    else unescapePasses passes (variants ++ [current]) current

/-- `_scan_variants` -/
def scanVariants (body : Bytes) : List Bytes :=
  if BACKSLASH ∉ body then [body] else unescapePasses MAX_UNESCAPE_PASSES [body] body

/-! ## Fingerprints -/

/-- A hexadecimal digit: `ten` is the character of ten. -/
def hexDigitByte (ten : ℕ) (n : ℕ) : UInt8 := UInt8.ofNat (if n < 10 then 0x30 + n else ten + (n - 10))

/-- `raw.hex()` or `raw.hex().upper()` -/
def hexText (ten : ℕ) (raw : Bytes) : Bytes :=
  raw.flatMap fun b => [hexDigitByte ten (b.toNat / 16), hexDigitByte ten (b.toNat % 16)]

/-- A digit of Base64, `last` its 62nd and 63rd. -/
def base64Digit (last : UInt8 × UInt8) (n : ℕ) : UInt8 :=
  if n < 26 then UInt8.ofNat (0x41 + n)
  else if n < 52 then UInt8.ofNat (0x61 + (n - 26))
  else if n < 62 then UInt8.ofNat (0x30 + (n - 52))
  else if n = 62 then last.1
  else last.2

/-- `base64.b64encode` or `base64.urlsafe_b64encode` -/
def base64Encode (last : UInt8 × UInt8) : Bytes → Bytes
  | [] => []
  | [a] =>
    [base64Digit last (a.toNat / 4), base64Digit last (a.toNat % 4 * 16), 0x3D, 0x3D]
  | [a, b] =>
    [base64Digit last (a.toNat / 4), base64Digit last (a.toNat % 4 * 16 + b.toNat / 16),
      base64Digit last (b.toNat % 16 * 4), 0x3D]
  | a :: b :: c :: rest =>
    base64Digit last (a.toNat / 4) :: base64Digit last (a.toNat % 4 * 16 + b.toNat / 16) ::
      base64Digit last (b.toNat % 16 * 4 + c.toNat / 64) :: base64Digit last (c.toNat % 64) ::
      base64Encode last rest

/-- `encoded.rstrip(b"=")` -/
def rstripPadding (encoded : Bytes) : Bytes := (encoded.reverse.dropWhile (· == 0x3D)).reverse

/-- The bytes `quote_from_bytes` leaves: letters, digits and `_.-~/`. -/
def isUnquoted (b : UInt8) : Bool :=
  (0x41 ≤ b && b ≤ 0x5A) || (0x61 ≤ b && b ≤ 0x7A) || (0x30 ≤ b && b ≤ 0x39) || b == 0x5F ||
    b == 0x2E || b == 0x2D || b == 0x7E || b == 0x2F

/-- `quote_from_bytes(raw)` -/
def quoteFromBytes (raw : Bytes) : Bytes :=
  raw.flatMap fun b => if isUnquoted b then [b] else 0x25 :: hexText 0x41 [b]

/-- `template.format(code)` -/
def unicodeTemplate (ten code : ℕ) : Bytes :=
  [BACKSLASH, 0x75] ++
    [4096, 256, 16, 1].map fun place => hexDigitByte ten (code / place % 16)

/-- `_json_escaped` -/
def jsonEscaped (ten : ℕ) (raw : Bytes) : Option Bytes :=
  (utf8Decode false raw).map fun text => text.flatMap fun c =>
    if 0xFFFF < c.val then
      unicodeTemplate ten (0xD800 + (c.val - 0x10000) / 1024) ++
        unicodeTemplate ten (0xDC00 + (c.val - 0x10000) % 1024)
    else unicodeTemplate ten c.val

/-- `str | bytes` -/
inductive ProtectedValue where
  | str (text : Text)
  | bytes (raw : Bytes)

/-- `HTTPAgentConfigurationError`, or a text that is not encoded. -/
inductive ConfigurationError where
  | configuration (message : Text)
  | unicodeEncode

/-- The bytes of a value, which are not to be empty. -/
def ProtectedValue.encode (value : ProtectedValue) (index : ℕ) : Except ConfigurationError Bytes := do
  let raw ← match value with
    | .bytes raw => Except.ok raw
    | .str text =>
      match utf8Encode text with
      | some raw => Except.ok raw
      | none => .error .unicodeEncode
  require (raw ≠ []) (.configuration (txt "protected response value " ++ decimal index ++
    txt " must be non-empty bytes or text"))
  return raw

/-- What is protected for one value: itself and its encodings. -/
def representations (raw : Bytes) : List Bytes :=
  [raw, hexText 0x61 raw, hexText 0x41 raw, base64Encode (0x2B, 0x2F) raw,
    rstripPadding (base64Encode (0x2B, 0x2F) raw), base64Encode (0x2D, 0x5F) raw,
    rstripPadding (base64Encode (0x2D, 0x5F) raw), quoteFromBytes raw] ++
  ([jsonEscaped 0x61 raw, jsonEscaped 0x41 raw].filterMap id).filter (· ≠ [])

abbrev Fingerprints := List (ℕ × List Bytes)

/-- The digests by length, the longest first and each length's in order. -/
def fingerprintsOf (digest : Bytes → Bytes) (protectedForms : List Bytes) : Fingerprints :=
  ((protectedForms.map List.length).dedup.mergeSort fun m n => n ≤ m).map fun length =>
    (length, ((protectedForms.filter fun form => form.length = length).map digest).dedup.mergeSort
      fun a b => decide (a ≤ b))

/-- `_protected_representations`, for SHA-256 digests. -/
def protectedRepresentations (digest : Bytes → Bytes) (values : List ProtectedValue) :
    Except ConfigurationError Fingerprints := do
  let raws ← values.zipIdx.mapM fun (value, index) => value.encode index
  return fingerprintsOf digest (raws.flatMap representations)

/-- `_contains_protected_representation` -/
def containsProtectedRepresentation (digest : Bytes → Bytes) (body : Bytes)
    (fingerprints : Fingerprints) : Bool :=
  if fingerprints = [] then false
  else (scanVariants body).any fun variant => fingerprints.any fun (length, expected) =>
    decide (length ≤ variant.length) && (List.range (variant.length - length + 1)).any fun start =>
      expected.any fun fingerprint => digest ((variant.drop start).take length) == fingerprint

/-! ## The end of a decision -/

/-- `_WorkerOutcome`: an exchange that came to a response, or failed with an exception, of which the
class name and the text are kept. -/
inductive WorkerOutcome where
  | result (status : ℤ) (body : Bytes) (finishedAtNs : ℤ)
  | failure (isTimeout : Bool) (className message : Text) (finishedAtNs : ℤ)

def WorkerOutcome.finishedAtNs : WorkerOutcome → ℤ
  | .result _ _ finished => finished
  | .failure _ _ _ finished => finished

/-- `DecisionTimeout`, `HTTPAgentError` and `HTTPAgentSecretError`. -/
inductive HTTPAgentRaised where
  | timeout (message : Text)
  | error (message : Text) (httpStatus : Option ℤ) (body : Option Bytes)
  | secret (message : Text)

/-- `HTTPAgent` -/
structure HTTPAgent where
  endpoint : Text
  protectedResponseFingerprints : Fingerprints

/-- `decide` from the outcome on that its worker handed over, if it did. -/
def HTTPAgent.conclude (digest : Bytes → Bytes) (agent : HTTPAgent) (responseDeadlineMs startedAtNs : ℤ)
    (outcome : Option WorkerOutcome) : Except HTTPAgentRaised AgentReply :=
  let deadlineNs := startedAtNs + responseDeadlineMs * 1_000_000
  let incomplete := txt "POST " ++ agent.endpoint ++ txt " did not complete within the absolute " ++
    decimalInt responseDeadlineMs ++ txt " ms IC-6 deadline; timeouts are not retried"
  match outcome with
  | none => .error (.timeout incomplete)
  | some outcome =>
    if deadlineNs < outcome.finishedAtNs then
      .error (.timeout (txt "POST " ++ agent.endpoint ++ txt " completed after the absolute " ++
        decimalInt responseDeadlineMs ++ txt " ms IC-6 deadline; timeouts are not retried"))
    else
      match outcome with
      | .failure true _ _ _ => .error (.timeout incomplete)
      | .failure false className message _ =>
        .error (.error (txt "POST " ++ agent.endpoint ++
          txt " failed before a complete HTTP response: " ++ className ++ txt ": " ++ message ++
          txt "; IC-6 records this as agent_error and does not retry") none none)
      | .result status body finishedAtNs =>
        if containsProtectedRepresentation digest body agent.protectedResponseFingerprints then
          .error (.secret (txt ("agent response contained protected credential material; " ++
            "the complete response was discarded before evidence capture")))
        else
          let latencyMs := max 0 ((finishedAtNs - startedAtNs) / 1_000_000)
          if 200 ≤ status ∧ status ≤ 299 ∨ 400 ≤ status ∧ status ≤ 499 then
            .ok ⟨body, latencyMs, some status, txt "http"⟩
          else
            .error (.error (txt "POST " ++ agent.endpoint ++ txt " returned " ++
              (if 500 ≤ status ∧ status ≤ 599 then txt "server" else txt "unexpected") ++
              txt " HTTP status " ++ decimalInt status ++
              txt "; IC-6 records this as agent_error and does not retry") (some status) (some body))

end WagmiBench.Harness
