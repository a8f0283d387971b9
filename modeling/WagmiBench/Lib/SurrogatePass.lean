import WagmiBench.Lib.Text

/-!
# UTF-8 with surrogates

`str.encode("utf-8", "surrogatepass")`, which writes every text, and agrees with the strict encoder
where that succeeds.
-/

namespace WagmiBench.Lib

/-- The bytes of one code point, a surrogate like any other. -/
def utf8EncodeCharPass (c : CodePoint) : Bytes :=
  (utf8EncodeChar c).getD
    [UInt8.ofNat (0xE0 + c.val / 4096), UInt8.ofNat (0x80 + c.val / 64 % 64),
      UInt8.ofNat (0x80 + c.val % 64)]

/-- `str.encode("utf-8", "surrogatepass")` -/
def utf8EncodeSurrogatePass (value : Text) : Bytes := value.flatMap utf8EncodeCharPass

@[simp] theorem utf8EncodeSurrogatePass_nil : utf8EncodeSurrogatePass [] = [] := rfl

@[simp] theorem utf8EncodeSurrogatePass_cons (c : CodePoint) (t : Text) :
    utf8EncodeSurrogatePass (c :: t) = utf8EncodeCharPass c ++ utf8EncodeSurrogatePass t := rfl

@[simp] theorem utf8EncodeSurrogatePass_append (s t : Text) :
    utf8EncodeSurrogatePass (s ++ t) = utf8EncodeSurrogatePass s ++ utf8EncodeSurrogatePass t := by
  simp [utf8EncodeSurrogatePass]

theorem utf8EncodeSurrogatePass_of_encode {t : Text} {b : Bytes} (h : utf8Encode t = some b) :
    utf8EncodeSurrogatePass t = b := by
  induction t generalizing b with
  | nil => exact Option.some.inj h
  | cons c t ih =>
    simp only [utf8Encode, Option.bind_eq_bind, Option.bind_eq_some_iff, Option.pure_def,
      Option.some.injEq] at h
    obtain ⟨front, hfront, back, hback, rfl⟩ := h
    rw [utf8EncodeSurrogatePass_cons, ih hback, utf8EncodeCharPass, hfront, Option.getD_some]

theorem utf8EncodeSurrogatePass_within {s t : Text} (h : s <:+: t) :
    utf8EncodeSurrogatePass s <:+: utf8EncodeSurrogatePass t := by
  obtain ⟨front, back, rfl⟩ := h
  exact ⟨utf8EncodeSurrogatePass front, utf8EncodeSurrogatePass back, by simp⟩

theorem utf8EncodeCharPass_ascii {c : CodePoint} (h : c.val < 0x80) :
    utf8EncodeCharPass c = [UInt8.ofNat c.val] := by
  simp [utf8EncodeCharPass, utf8EncodeChar, h]

/-- Outside ASCII, every byte is. -/
theorem utf8EncodeCharPass_high {c : CodePoint} (h : 0x80 ≤ c.val) :
    ∀ b ∈ utf8EncodeCharPass c, 0x80 ≤ b.toNat := by
  have hc := c.isLt
  have byte : ∀ n, 0x80 ≤ n → n < 256 → 0x80 ≤ (UInt8.ofNat n).toNat := fun n hlow hhigh => by
    rwa [toNat_ofNat_byte hhigh]
  rw [utf8EncodeCharPass, utf8EncodeChar]
  simp only [if_neg (not_lt.mpr h)]
  split_ifs with h₁ h₂ h₃ <;>
    simp only [Option.getD_some, Option.getD_none, List.forall_mem_cons, List.not_mem_nil,
      false_implies, implies_true, and_true]
  · exact ⟨byte _ (by omega) (by omega), byte _ (by omega) (by omega)⟩
  · have := h₂.2
    exact ⟨byte _ (by omega) (by omega), byte _ (by omega) (by omega), byte _ (by omega) (by omega)⟩
  · exact ⟨byte _ (by omega) (by omega), byte _ (by omega) (by omega), byte _ (by omega) (by omega)⟩
  · exact ⟨byte _ (by omega) (by omega), byte _ (by omega) (by omega), byte _ (by omega) (by omega),
      byte _ (by omega) (by omega)⟩

end WagmiBench.Lib
