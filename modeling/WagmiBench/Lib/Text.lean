import Mathlib.Tactic
import Mathlib.Data.List.Sort

/-!
# Text and its encodings

A `Text` is a sequence of Unicode code points in which lone surrogates may occur, as in a Python
`str`. `utf8Encode` refuses lone surrogates; `utf8Decode` is the strict decoder of RFC 3629, or with
`surrogatePass` the one that lets encoded surrogates through. The UTF-16 and UTF-32 decoders serve
`detectEncoding`, which is how JSON readers guess the encoding of raw bytes.
-/

namespace WagmiBench.Lib

/-- A Unicode code point, surrogates included. -/
abbrev CodePoint := Fin 0x110000

abbrev Text := List CodePoint

instance Text.lawfulBEq : LawfulBEq Text := inferInstance

abbrev Bytes := List UInt8

/-- The code point with number `n`, for numbers in range. -/
def codePoint (n : ℕ) : CodePoint := Fin.ofNat 0x110000 n

theorem codePoint_val {n : ℕ} (h : n < 0x110000) : (codePoint n).val = n :=
  Nat.mod_eq_of_lt h

@[simp] theorem codePoint_of_val (c : CodePoint) : codePoint c.val = c :=
  Fin.ext (codePoint_val c.isLt)

/-- A source-code string literal as text. -/
def txt (s : String) : Text := s.toList.map fun c => codePoint c.toNat

theorem txt_injective : Function.Injective txt := fun s t h => by
  refine String.toList_inj.mp (List.map_injective_iff.mpr ?_ h)
  intro c d hcd
  have bound : ∀ {e : Char}, e.toNat < 0x110000 := fun {e} => by
    rcases e.valid with he | he <;> simp only [Char.toNat] at * <;> omega
  have hval : (codePoint c.toNat).val = (codePoint d.toNat).val := congrArg Fin.val hcd
  rw [codePoint_val bound, codePoint_val bound] at hval
  exact Char.toNat_inj.mp hval

@[simp] theorem txt_inj {s t : String} : txt s = txt t ↔ s = t := txt_injective.eq_iff

/-- A UTF-16 surrogate. -/
def isSurrogate (n : ℕ) : Prop := 0xD800 ≤ n ∧ n < 0xE000

instance (n : ℕ) : Decidable (isSurrogate n) := inferInstanceAs (Decidable (_ ∧ _))

/-! ## UTF-8 -/

/-- The UTF-8 bytes of one code point, unless it is a surrogate. -/
def utf8EncodeChar (c : CodePoint) : Option Bytes :=
  let n := c.val
  if n < 0x80 then
    some [UInt8.ofNat n]
  else if n < 0x800 then
    some [UInt8.ofNat (0xC0 + n / 64), UInt8.ofNat (0x80 + n % 64)]
  else if isSurrogate n then
    none
  else if n < 0x10000 then
    some [UInt8.ofNat (0xE0 + n / 4096), UInt8.ofNat (0x80 + n / 64 % 64),
      UInt8.ofNat (0x80 + n % 64)]
  else
    some [UInt8.ofNat (0xF0 + n / 262144), UInt8.ofNat (0x80 + n / 4096 % 64),
      UInt8.ofNat (0x80 + n / 64 % 64), UInt8.ofNat (0x80 + n % 64)]

/-- `str.encode("utf-8")` -/
def utf8Encode : Text → Option Bytes
  | [] => some []
  | c :: t => do
    let b ← utf8EncodeChar c
    let rest ← utf8Encode t
    return b ++ rest

/-- A continuation byte. -/
def isTail (b : UInt8) : Prop := 0x80 ≤ b.toNat ∧ b.toNat < 0xC0

instance (b : UInt8) : Decidable (isTail b) := inferInstanceAs (Decidable (_ ∧ _))

/-- `bytes.decode("utf-8", "surrogatepass" if surrogatePass else "strict")` -/
def utf8Decode (surrogatePass : Bool) : Bytes → Option Text
  | [] => some []
  | b₀ :: rest =>
    if b₀.toNat < 0x80 then
      (codePoint b₀.toNat :: ·) <$> utf8Decode surrogatePass rest
    else if b₀.toNat < 0xE0 then
      match rest with
      | b₁ :: rest =>
        let n := (b₀.toNat - 0xC0) * 64 + (b₁.toNat - 0x80)
        if 0xC2 ≤ b₀.toNat ∧ isTail b₁ then
          (codePoint n :: ·) <$> utf8Decode surrogatePass rest
        else none
      | _ => none
    else if b₀.toNat < 0xF0 then
      match rest with
      | b₁ :: b₂ :: rest =>
        let n := (b₀.toNat - 0xE0) * 4096 + (b₁.toNat - 0x80) * 64 + (b₂.toNat - 0x80)
        if isTail b₁ ∧ isTail b₂ ∧ 0x800 ≤ n ∧ (surrogatePass ∨ ¬ isSurrogate n) then
          (codePoint n :: ·) <$> utf8Decode surrogatePass rest
        else none
      | _ => none
    else
      match rest with
      | b₁ :: b₂ :: b₃ :: rest =>
        let n := (b₀.toNat - 0xF0) * 262144 + (b₁.toNat - 0x80) * 4096 +
          (b₂.toNat - 0x80) * 64 + (b₃.toNat - 0x80)
        if isTail b₁ ∧ isTail b₂ ∧ isTail b₃ ∧ 0x10000 ≤ n ∧ n < 0x110000 then
          (codePoint n :: ·) <$> utf8Decode surrogatePass rest
        else none
      | _ => none

theorem toNat_ofNat_byte {n : ℕ} (h : n < 256) : (UInt8.ofNat n).toNat = n := by
  simp [Nat.mod_eq_of_lt h]

/-- Decoding undoes the encoding of the first code point. -/
theorem utf8Decode_encodeChar {sp : Bool} {c : CodePoint} {b : Bytes} (rest : Bytes)
    (h : utf8EncodeChar c = some b) :
    utf8Decode sp (b ++ rest) = (c :: ·) <$> utf8Decode sp rest := by
  have hc := c.isLt
  simp only [utf8EncodeChar] at h
  split at h
  · rename_i h1
    obtain rfl := Option.some.inj h
    rw [List.cons_append, List.nil_append, utf8Decode.eq_def]
    simp only
    rw [toNat_ofNat_byte (n := c.val) (by omega), if_pos h1, codePoint_of_val]
  · split at h
    · rename_i h1 h2
      obtain rfl := Option.some.inj h
      have e : (0xC0 + c.val / 64 - 0xC0) * 64 + (0x80 + c.val % 64 - 0x80) = c.val := by omega
      simp only [List.cons_append, List.nil_append, utf8Decode]
      rw [toNat_ofNat_byte (n := 0xC0 + c.val / 64) (by omega),
        toNat_ofNat_byte (n := 0x80 + c.val % 64) (by omega), e, codePoint_of_val,
        if_neg (by omega), if_pos (by omega), if_pos]
      rw [isTail, toNat_ofNat_byte (by omega)]
      omega
    · split at h
      · simp at h
      · split at h
        · rename_i h1 h2 h3 h4
          obtain rfl := Option.some.inj h
          have e : (0xE0 + c.val / 4096 - 0xE0) * 4096 + (0x80 + c.val / 64 % 64 - 0x80) * 64 +
              (0x80 + c.val % 64 - 0x80) = c.val := by omega
          simp only [List.cons_append, List.nil_append, utf8Decode]
          rw [toNat_ofNat_byte (n := 0xE0 + c.val / 4096) (by omega),
            toNat_ofNat_byte (n := 0x80 + c.val / 64 % 64) (by omega),
            toNat_ofNat_byte (n := 0x80 + c.val % 64) (by omega), e, codePoint_of_val,
            if_neg (by omega), if_neg (by omega), if_pos (by omega), if_pos]
          refine ⟨?_, ?_, by omega, Or.inr h3⟩ <;>
          · rw [isTail, toNat_ofNat_byte (by omega)]
            omega
        · rename_i h1 h2 h3 h4
          obtain rfl := Option.some.inj h
          have e : (0xF0 + c.val / 262144 - 0xF0) * 262144 +
              (0x80 + c.val / 4096 % 64 - 0x80) * 4096 + (0x80 + c.val / 64 % 64 - 0x80) * 64 +
              (0x80 + c.val % 64 - 0x80) = c.val := by omega
          simp only [List.cons_append, List.nil_append, utf8Decode]
          rw [toNat_ofNat_byte (n := 0xF0 + c.val / 262144) (by omega),
            toNat_ofNat_byte (n := 0x80 + c.val / 4096 % 64) (by omega),
            toNat_ofNat_byte (n := 0x80 + c.val / 64 % 64) (by omega),
            toNat_ofNat_byte (n := 0x80 + c.val % 64) (by omega), e, codePoint_of_val,
            if_neg (by omega), if_neg (by omega), if_neg (by omega), if_pos]
          refine ⟨?_, ?_, ?_, by omega, hc⟩ <;>
          · rw [isTail, toNat_ofNat_byte (by omega)]
            omega

/-- **UTF-8 round trip.** -/
theorem utf8Decode_encode {sp : Bool} {t : Text} {b : Bytes} (h : utf8Encode t = some b) :
    utf8Decode sp b = some t := by
  induction t generalizing b with
  | nil => obtain rfl := Option.some.inj h; rfl
  | cons c t ih =>
    simp only [utf8Encode, Option.bind_eq_bind, Option.bind_eq_some_iff, Option.pure_def,
      Option.some.injEq] at h
    obtain ⟨bc, hbc, bt, hbt, rfl⟩ := h
    rw [utf8Decode_encodeChar bt hbc, ih hbt]
    rfl

theorem utf8Encode_injective {s t : Text} {b : Bytes} (hs : utf8Encode s = some b)
    (ht : utf8Encode t = some b) : s = t :=
  Option.some.inj ((@utf8Decode_encode false _ _ hs).symm.trans (utf8Decode_encode ht))

/-- Text below `U+0080`. -/
def Ascii (t : Text) : Prop := ∀ c ∈ t, c.val < 0x80

instance (t : Text) : Decidable (Ascii t) := List.decidableBAll _ t

theorem utf8Encode_ascii {t : Text} (h : Ascii t) :
    utf8Encode t = some (t.map fun c => UInt8.ofNat c.val) := by
  induction t with
  | nil => rfl
  | cons c t ih =>
    have hc : c.val < 0x80 := h c (by simp)
    rw [utf8Encode, ih fun c' hc' => h c' (by simp [hc'])]
    simp [utf8EncodeChar, hc]

/-! ## UTF-16 and UTF-32, and the encoding of a JSON byte string -/

/-- Bytes in groups of `two` or `four`, most significant first; `none` on a short last group. -/
def units16 (bigEndian : Bool) : Bytes → Option (List ℕ)
  | [] => some []
  | b₀ :: b₁ :: rest =>
    ((if bigEndian then b₀.toNat * 256 + b₁.toNat else b₁.toNat * 256 + b₀.toNat) :: ·) <$>
      units16 bigEndian rest
  | [_] => none

/-- UTF-16 code units to code points, lone surrogates passed through. -/
def decodeUnits16 : List ℕ → Text
  | [] => []
  | hi :: lo :: rest =>
    if 0xD800 ≤ hi ∧ hi < 0xDC00 ∧ 0xDC00 ≤ lo ∧ lo < 0xE000 then
      codePoint (0x10000 + (hi - 0xD800) * 1024 + (lo - 0xDC00)) :: decodeUnits16 rest
    else codePoint hi :: decodeUnits16 (lo :: rest)
  | [u] => [codePoint u]

/-- `bytes.decode("utf-16-be" or "utf-16-le", "surrogatepass")` -/
def utf16Decode (bigEndian : Bool) (b : Bytes) : Option Text :=
  decodeUnits16 <$> units16 bigEndian b

/-- `bytes.decode("utf-32-be" or "utf-32-le", "surrogatepass")` -/
def utf32Decode (bigEndian : Bool) : Bytes → Option Text
  | [] => some []
  | b₀ :: b₁ :: b₂ :: b₃ :: rest =>
    let n := if bigEndian then
        b₀.toNat * 0x1000000 + b₁.toNat * 0x10000 + b₂.toNat * 0x100 + b₃.toNat
      else b₃.toNat * 0x1000000 + b₂.toNat * 0x10000 + b₁.toNat * 0x100 + b₀.toNat
    if n < 0x110000 then (codePoint n :: ·) <$> utf32Decode bigEndian rest else none
  | _ => none

/-- `s.decode(json.detect_encoding(s), "surrogatepass")`, the text `json.loads` reads from raw
bytes: a byte-order mark decides, else the position of zero bytes among the first four. -/
def jsonDecodeBytes (b : Bytes) : Option Text :=
  if [0xFF, 0xFE, 0, 0] <+: b then utf32Decode false (b.drop 4)
  else if [0, 0, 0xFE, 0xFF] <+: b then utf32Decode true (b.drop 4)
  else if [0xFE, 0xFF] <+: b then utf16Decode true (b.drop 2)
  else if [0xFF, 0xFE] <+: b then utf16Decode false (b.drop 2)
  else if [0xEF, 0xBB, 0xBF] <+: b then utf8Decode true (b.drop 3)
  else match b with
    | b₀ :: b₁ :: b₂ :: b₃ :: _ =>
      if b₀ = 0 then (if b₁ = 0 then utf32Decode true b else utf16Decode true b)
      else if b₁ = 0 then
        (if b₂ ≠ 0 ∨ b₃ ≠ 0 then utf16Decode false b else utf32Decode false b)
      else utf8Decode true b
    | [b₀, b₁] =>
      if b₀ = 0 then utf16Decode true b
      else if b₁ = 0 then utf16Decode false b
      else utf8Decode true b
    | _ => utf8Decode true b

/-! ## Decimal digits -/

/-- `str(n)` for a natural number. -/
def decimal (n : ℕ) : Text := (Nat.toDigits 10 n).map fun c => codePoint c.toNat

/-- `f"{n:0{width}d}"` for a natural number. -/
def decimalPad (width n : ℕ) : Text :=
  List.replicate (width - (decimal n).length) (codePoint 0x30) ++ decimal n

/-- `str(n)` for an integer. -/
def decimalInt (n : ℤ) : Text :=
  if n < 0 then codePoint 0x2D :: decimal n.natAbs else decimal n.natAbs

/-- The number a digit string spells, most significant digit first. -/
def ofDecimal (t : Text) : ℕ := t.foldl (fun a c => 10 * a + (c.val - 0x30)) 0

/-- A decimal digit. -/
def isDigit (c : CodePoint) : Bool := 0x30 ≤ c.val && c.val ≤ 0x39

theorem char_toNat_of_isDigit {c : Char} (h : c.isDigit = true) :
    0x30 ≤ c.toNat ∧ c.toNat ≤ 0x39 := by
  simp only [Char.isDigit, Bool.and_eq_true, decide_eq_true_eq, ge_iff_le,
    UInt32.le_iff_toNat_le] at h
  exact h

theorem isDigit_of_mem_decimal {n : ℕ} {c : CodePoint} (h : c ∈ decimal n) : isDigit c = true := by
  obtain ⟨d, hd, rfl⟩ := List.mem_map.mp h
  have hdig := char_toNat_of_isDigit (Nat.isDigit_of_mem_toDigits (by omega) (by omega) hd)
  simp only [isDigit, codePoint_val (n := d.toNat) (by omega)]
  simpa using hdig

theorem decimal_ne_nil (n : ℕ) : decimal n ≠ [] :=
  fun h => Nat.toDigits_ne_nil (List.map_eq_nil_iff.mp h)

/-- A number is read back from its digits. -/
theorem ofDecimal_decimal (n : ℕ) : ofDecimal (decimal n) = n := by
  have key : ∀ (l : List Char) (a : ℕ), (∀ c ∈ l, c.isDigit = true) →
      (l.map fun c => codePoint c.toNat).foldl (fun a c => 10 * a + (c.val - 0x30)) a =
        Nat.ofDigitChars 10 l a := by
    intro l
    induction l with
    | nil => intro a _; rfl
    | cons c l ih =>
      intro a h
      have hc := char_toNat_of_isDigit (h c (by simp))
      rw [List.map_cons, List.foldl_cons, ih _ fun d hd => h d (by simp [hd]),
        Nat.ofDigitChars_cons, codePoint_val (n := c.toNat) (by omega)]
      rfl
  rw [ofDecimal, decimal, key _ _ fun c hc => Nat.isDigit_of_mem_toDigits (by omega) (by omega) hc,
    Nat.ofDigitChars_ten_toDigits]

theorem decimal_injective : Function.Injective decimal := fun m n h => by
  rw [← ofDecimal_decimal m, h, ofDecimal_decimal]

theorem ofDecimal_append_zeros (k : ℕ) (t : Text) :
    ofDecimal (List.replicate k (codePoint 0x30) ++ t) = ofDecimal t := by
  induction k with
  | zero => rfl
  | succ k ih =>
    have hzero : 10 * 0 + ((codePoint 0x30).val - 0x30) = 0 := by decide
    rw [List.replicate_succ, List.cons_append, ofDecimal, List.foldl_cons, hzero]
    exact ih

/-- Zero padding keeps the number, so padded numbers are told apart whatever their width. -/
theorem decimalPad_injective (w : ℕ) : Function.Injective (decimalPad w) := fun m n h => by
  rw [← ofDecimal_decimal m, ← ofDecimal_decimal n,
    ← ofDecimal_append_zeros (w - (decimal m).length) (decimal m),
    ← ofDecimal_append_zeros (w - (decimal n).length) (decimal n)]
  exact congrArg ofDecimal h

end WagmiBench.Lib
