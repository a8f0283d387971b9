import WagmiBench.Lib.Files
import WagmiBench.Lib.Json
import WagmiBench.Lib.Outcome

/-!
# Canonical texts are single lines

The writer escapes every control character, so the bytes of a canonical text hold no line ending:
a file of canonical records splits into exactly those records.
-/

namespace WagmiBench.Lib

/-- No code point is a control character. -/
def Printable (t : Text) : Prop := ∀ c ∈ t, 0x20 ≤ c.val

namespace Printable

@[simp] theorem nil : Printable [] := by simp [Printable]

theorem cons {c : CodePoint} {t : Text} (hc : 0x20 ≤ c.val) (ht : Printable t) :
    Printable (c :: t) := by
  simpa [Printable] using ⟨hc, ht⟩

/-- A literal character in front. -/
theorem lit {n : ℕ} {t : Text} (hn : 0x20 ≤ n ∧ n < 0x110000) (ht : Printable t) :
    Printable (codePoint n :: t) :=
  cons (by rw [codePoint_val hn.2]; exact hn.1) ht

theorem append {s t : Text} (hs : Printable s) (ht : Printable t) : Printable (s ++ t) := by
  intro c hc
  exact (List.mem_append.mp hc).elim (hs c) (ht c)

end Printable

instance (t : Text) : Decidable (Printable t) := List.decidableBAll _ t

theorem printable_txt {s : String} (h : ∀ c ∈ s.toList, 0x20 ≤ c.toNat) : Printable (txt s) := by
  intro c hc
  obtain ⟨d, hd, rfl⟩ := List.mem_map.mp hc
  have hlt : d.toNat < 0x110000 := by
    rcases d.valid with hv | hv <;> simp only [Char.toNat] at * <;> omega
  rw [codePoint_val hlt]
  exact h d hd

theorem printable_decimal (n : ℕ) : Printable (decimal n) := fun c hc => by
  have := isDigit_of_mem_decimal hc
  simp only [isDigit, Bool.and_eq_true, decide_eq_true_eq] at this
  omega

theorem printable_decimalInt (n : ℤ) : Printable (decimalInt n) := by
  unfold decimalInt
  split
  · exact .lit (by omega) (printable_decimal _)
  · exact printable_decimal _

namespace Json

theorem printable_hexDigit {n : ℕ} (h : n < 16) : 0x20 ≤ (hexDigit n).val := by
  unfold hexDigit
  split <;> rw [codePoint_val (by omega)] <;> omega

theorem printable_emitChar (c : CodePoint) : Printable (emitChar c) := by
  unfold emitChar
  repeat' split
  all_goals try exact .lit (by omega) (.lit (by omega) .nil)
  · rename_i h
    have h₁ := printable_hexDigit (n := c.val / 16) (by omega)
    have h₂ := printable_hexDigit (n := c.val % 16) (by omega)
    have h₀ := printable_hexDigit (n := 0) (by omega)
    exact .lit (by omega) (.lit (by omega) (.cons h₀ (.cons h₀ (.cons h₁ (.cons h₂ .nil)))))
  · rename_i h
    exact .cons (by omega) .nil

theorem printable_emitString (s : Text) : Printable (emitString s) := by
  have body : Printable (s.flatMap emitChar) := fun c hc => by
    obtain ⟨d, -, hd⟩ := List.mem_flatMap.mp hc
    exact printable_emitChar d c hd
  exact .append (.lit (by omega) body) (.lit (by omega) .nil)

mutual

/-- Without floats the text of a value has no control characters. -/
theorem printable_emit : ∀ v : Json, v.checkEncodable = .ok () → Printable v.emit
  | .null => fun _ => by rw [emit]; exact (by decide : Printable (txt "null"))
  | .bool true => fun _ => by rw [emit]; exact (by decide : Printable (txt "true"))
  | .bool false => fun _ => by rw [emit]; exact (by decide : Printable (txt "false"))
  | .int n => fun _ => by rw [emit]; exact printable_decimalInt n
  | .float _ => fun h => by simp [checkEncodable] at h
  | .str s => fun _ => by rw [emit]; exact printable_emitString s
  | .arr [] => fun _ => by rw [emit]; exact .lit (by omega) (.lit (by omega) .nil)
  | .arr (v :: items) => fun h => by
    simp only [checkEncodable, checkItems] at h
    obtain ⟨⟨⟩, hv, hitems⟩ := bind_ok_iff.mp h
    rw [emit]
    exact .append (.append (.lit (by omega) (printable_emit v hv))
      (printable_emitItems items hitems)) (.lit (by omega) .nil)
  | .obj [] => fun _ => by rw [emit]; exact .lit (by omega) (.lit (by omega) .nil)
  | .obj ((k, v) :: members) => fun h => by
    simp only [checkEncodable, checkMembers] at h
    split at h
    · obtain ⟨⟨⟩, hv, hmembers⟩ := bind_ok_iff.mp h
      rw [emit]
      exact .append (.append (.append (.lit (by omega) (printable_emitString k))
        (.lit (by omega) (printable_emit v hv))) (printable_emitMembers members hmembers))
        (.lit (by omega) .nil)
    · simp at h

/-- `printable_emit` for the items after the first. -/
theorem printable_emitItems : ∀ items : List Json, checkItems items = .ok () →
    Printable (emitItems items)
  | [] => fun _ => by rw [emitItems]; exact .nil
  | v :: items => fun h => by
    simp only [checkItems] at h
    obtain ⟨⟨⟩, hv, hitems⟩ := bind_ok_iff.mp h
    rw [emitItems]
    exact .append (.lit (by omega) (printable_emit v hv)) (printable_emitItems items hitems)

/-- `printable_emit` for the members after the first. -/
theorem printable_emitMembers : ∀ members : List (Text × Json), checkMembers members = .ok () →
    Printable (emitMembers members)
  | [] => fun _ => by rw [emitMembers]; exact .nil
  | (k, v) :: members => fun h => by
    simp only [checkMembers] at h
    obtain ⟨⟨⟩, hv, hmembers⟩ := bind_ok_iff.mp h
    rw [emitMembers]
    exact .append (.append (.lit (by omega) (printable_emitString k))
      (.lit (by omega) (printable_emit v hv))) (printable_emitMembers members hmembers)

end

end Json

/-! ## Bytes -/

theorem utf8EncodeChar_printable {c : CodePoint} {b : Bytes} (hc : 0x20 ≤ c.val)
    (h : utf8EncodeChar c = some b) : ∀ x ∈ b, 0x20 ≤ x.toNat := by
  have hlt := c.isLt
  simp only [utf8EncodeChar] at h
  intro x hx
  split at h
  · obtain rfl := Option.some.inj h
    simp only [List.mem_singleton] at hx
    rw [hx, toNat_ofNat_byte (by omega)]
    exact hc
  · split at h
    · obtain rfl := Option.some.inj h
      simp only [List.mem_cons, List.not_mem_nil, or_false] at hx
      rcases hx with rfl | rfl <;> rw [toNat_ofNat_byte (by omega)] <;> omega
    · split at h
      · simp at h
      · split at h
        · obtain rfl := Option.some.inj h
          simp only [List.mem_cons, List.not_mem_nil, or_false] at hx
          rcases hx with rfl | rfl | rfl <;> rw [toNat_ofNat_byte (by omega)] <;> omega
        · obtain rfl := Option.some.inj h
          simp only [List.mem_cons, List.not_mem_nil, or_false] at hx
          rcases hx with rfl | rfl | rfl | rfl <;> rw [toNat_ofNat_byte (by omega)] <;> omega

theorem utf8Encode_isLine {t : Text} {b : Bytes} (ht : Printable t) (h : utf8Encode t = some b) :
    IsLine b := by
  have bytes : ∀ x ∈ b, 0x20 ≤ x.toNat := by
    induction t generalizing b with
    | nil =>
      obtain rfl := Option.some.inj h
      simp
    | cons c t ih =>
      simp only [utf8Encode, Option.bind_eq_bind, Option.bind_eq_some_iff, Option.pure_def,
        Option.some.injEq] at h
      obtain ⟨bc, hbc, bt, hbt, rfl⟩ := h
      intro x hx
      rcases List.mem_append.mp hx with hx | hx
      · exact utf8EncodeChar_printable (ht c (by simp)) hbc x hx
      · exact ih (fun d hd => ht d (by simp [hd])) hbt x hx
  exact ⟨fun hmem => absurd (bytes _ hmem) (by decide), fun hmem => absurd (bytes _ hmem) (by decide)⟩

/-- Canonical bytes are one line. -/
theorem Json.canonical_isLine {v : Json} {b : Bytes} (h : v.canonical = .ok b) : IsLine b := by
  simp only [Json.canonical] at h
  obtain ⟨⟨⟩, hcheck, h⟩ := bind_ok_iff.mp h
  split at h
  · rename_i b' hb
    obtain rfl := Except.ok.inj h
    exact utf8Encode_isLine (Json.printable_emit _ hcheck) hb
  · simp at h

end WagmiBench.Lib
