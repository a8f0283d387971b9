import WagmiBench.Core.Exceptions
import WagmiBench.Lib.Json

/-!
# Canonical JSON and content hashes

The serialization half of `spec/canonical.py`. SHA-256 is a parameter: a function from bytes to
`sha256:` and 64 lowercase hexadecimal digits.
-/

namespace WagmiBench.Spec

open WagmiBench.Lib WagmiBench.Core

/-- What `canonical_bytes` raises for each way a value has no canonical text. -/
def canonicalizationMessage : Json.CanonicalError → String
  | .floatNotAllowed => "floats are forbidden in hashed payloads"
  | .integerOutOfRange n => s!"integer {n} exceeds I-JSON safe range (|n| <= 2**53-1)"
  | .keyNotUnicode => "object key is not valid Unicode"
  | .textNotUnicode => "payload contains invalid Unicode"

/-- `canonical_bytes` -/
def canonicalBytes (value : Json) : Py Bytes :=
  match value.canonical with
  | .ok b => .ok b
  | .error e => .error (.canonicalizationError (canonicalizationMessage e))

theorem canonicalBytes_eq_ok {value : Json} {b : Bytes} :
    canonicalBytes value = .ok b ↔ value.canonical = .ok b := by
  unfold canonicalBytes
  cases value.canonical <;> simp

abbrev HASH_PREFIX : Text := txt "sha256:"

/-- The form `_require_hash` asks for. -/
def IsHash (value : Text) : Prop :=
  value.length = 71 ∧ HASH_PREFIX <+: value ∧
    ∀ c ∈ value.drop 7, isDigit c = true ∨ (0x61 ≤ c.val ∧ c.val ≤ 0x66)

/-- Whether a hash digit is a lowercase hexadecimal one is asked of the digits, not of every code
point. -/
instance (value : Text) : Decidable (IsHash value) :=
  have : Decidable (∀ c ∈ value.drop 7, isDigit c = true ∨ (0x61 ≤ c.val ∧ c.val ≤ 0x66)) :=
    List.decidableBAll _ _
  inferInstanceAs (Decidable (_ ∧ _))

/-- `n` in 64 hexadecimal digits. -/
def hex64 (n : ℕ) : Text := (List.range 64).map fun i => Json.hexDigit (n / 16 ^ (63 - i) % 16)

theorem isHash_hex64 (n : ℕ) : IsHash (HASH_PREFIX ++ hex64 n) := by
  have digit : ∀ d < 16, isDigit (Json.hexDigit d) = true ∨
      (0x61 ≤ (Json.hexDigit d).val ∧ (Json.hexDigit d).val ≤ 0x66) := by decide
  have hlength : HASH_PREFIX.length = 7 := by simp [txt]
  refine ⟨by simp [hex64, hlength], List.prefix_append _ _, fun c hc => ?_⟩
  rw [List.drop_append, hlength, List.drop_eq_nil_of_le hlength.le] at hc
  simp only [Nat.sub_self, List.drop_zero, List.nil_append, hex64, List.mem_map] at hc
  obtain ⟨i, -, rfl⟩ := hc
  exact digit _ (Nat.mod_lt _ (by decide))

/-- `_require_hash` -/
def requireHash (value : Text) (what : String) : Py Text := do
  require (IsHash value)
    (.canonicalizationError s!"{what} must match 'sha256:<64 lowercase hex>'")
  return value

/-- SHA-256 of raw bytes in the project's `sha256:<64-hex>` form. -/
structure Sha256 where
  prefixed : Bytes → Text
  isHash : ∀ b, IsHash (prefixed b)

namespace Sha256

variable (sha : Sha256)

/-- `content_hash`: the hash of the canonical bytes of a value. -/
def contentHash (value : Json) : Py Text := do
  let b ← canonicalBytes value
  return sha.prefixed b

end Sha256

end WagmiBench.Spec
