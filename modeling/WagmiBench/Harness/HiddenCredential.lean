import WagmiBench.Harness.Http

/-!
# Escaping hides no credential

A quote is a place where the decoder starts anew, whatever stands before it: no escape contains one
but the escape of the quote itself, which ends there. So every literal of a document is decoded as
the string it spells, and a string in a string is found by the pass after.
-/

namespace WagmiBench.Harness

open WagmiBench.Lib
open WagmiBench.Lib.Json (Spells HexQuad IsStringOf Nested quote backslash escaped)

/-- The bytes of a quote. -/
abbrev QUOTE : UInt8 := 0x22

/-! ## What the decoder does at a byte -/

@[simp] theorem decodeJsonEscapes_nil : decodeJsonEscapes [] = [] := by rw [decodeJsonEscapes]

theorem decodeJsonEscapes_plain {b : UInt8} (h : b ≠ BACKSLASH) (rest : Bytes) :
    decodeJsonEscapes (b :: rest) = b :: decodeJsonEscapes rest := by
  cases rest with
  | nil => rw [decodeJsonEscapes, decodeJsonEscapes]
  | cons next rest => rw [decodeJsonEscapes, if_pos h]

theorem decodeJsonEscapes_plain_append {front : Bytes} (h : ∀ b ∈ front, b ≠ BACKSLASH)
    (rest : Bytes) : decodeJsonEscapes (front ++ rest) = front ++ decodeJsonEscapes rest := by
  induction front with
  | nil => rfl
  | cons b front ih =>
    rw [List.forall_mem_cons] at h
    rw [List.cons_append, decodeJsonEscapes_plain h.1, ih h.2, List.cons_append]

/-- Behind a backslash: a short escape, an escaped character, or neither. -/
theorem decodeJsonEscapes_backslash (next : UInt8) (rest : Bytes) :
    decodeJsonEscapes (BACKSLASH :: next :: rest) =
      match JSON_SIMPLE_ESCAPES.lookup next with
      | some simple => simple :: decodeJsonEscapes rest
      | none =>
        match characterEscape (BACKSLASH :: next :: rest) with
        | none => BACKSLASH :: decodeJsonEscapes (next :: rest)
        | some (c, after) => utf8EncodeCharPass c ++ decodeJsonEscapes after := by
  cases hlookup : JSON_SIMPLE_ESCAPES.lookup next with
  | some simple =>
    rw [decodeJsonEscapes, if_neg (by simp)]
    simp only [hlookup]
  | none =>
    rw [decodeJsonEscapes, if_neg (by simp)]
    simp only [hlookup]
    split <;> rename_i hescape <;> simp only [hescape]

/-- A character escape, byte for byte. -/
theorem unicodeEscape_eq_some {text rest : Bytes} {n : ℕ} :
    unicodeEscape text = some (n, rest) ↔ ∃ u a b c d i j k l,
      text = BACKSLASH :: u :: a :: b :: c :: d :: rest ∧ (u = 0x75 ∨ u = 0x55) ∧
      hexDigitValue a = some i ∧ hexDigitValue b = some j ∧ hexDigitValue c = some k ∧
      hexDigitValue d = some l ∧ n = ((i * 16 + j) * 16 + k) * 16 + l := by
  constructor
  · intro h
    unfold unicodeEscape at h
    split at h
    · split at h
      · rename_i hslash
        obtain ⟨rfl, hu⟩ := hslash
        simp only [Option.bind_eq_bind, Option.bind_eq_some_iff, Option.pure_def,
          Option.some.injEq, Prod.mk.injEq] at h
        obtain ⟨i, hi, j, hj, k, hk, l, hl, hn, rfl⟩ := h
        exact ⟨_, _, _, _, _, i, j, k, l, rfl, hu, hi, hj, hk, hl, hn.symm⟩
      · cases h
    · cases h
  · rintro ⟨u, a, b, c, d, i, j, k, l, rfl, hu, hi, hj, hk, hl, rfl⟩
    simp [unicodeEscape, hu, hi, hj, hk, hl]

/-! ## Starting anew at a quote -/

/-- No character escape reaches a quote. -/
theorem unicodeEscape_quote (front back : Bytes) :
    unicodeEscape (front ++ QUOTE :: back) =
      (unicodeEscape front).map fun (n, rest) => (n, rest ++ QUOTE :: back) := by
  have short : front.length < 6 → unicodeEscape (front ++ QUOTE :: back) = none := by
    intro hshort
    refine Option.eq_none_iff_forall_ne_some.mpr fun found h => ?_
    obtain ⟨u, a, b, c, d, i, j, k, l, htext, hletter, ha, hb, hc, hd, -⟩ :=
      unicodeEscape_eq_some.mp h
    have hquote : hexDigitValue QUOTE = none := by decide
    have hplace := congrArg (·[front.length]?) htext
    simp only [List.getElem?_append_right le_rfl, Nat.sub_self, List.getElem?_cons_zero] at hplace
    generalize front.length = place at hshort hplace
    interval_cases place <;> simp only [List.getElem?_cons_zero, List.getElem?_cons_succ,
      Option.some.injEq] at hplace
    · exact absurd hplace (by decide)
    · subst hplace
      exact absurd hletter (by decide)
    all_goals
      subst hplace
      simp_all
  match front with
  | [] | [_] | [_, _] | [_, _, _] | [_, _, _, _] | [_, _, _, _, _] =>
    rw [short (by simp)]
    rfl
  | slash :: u :: a :: b :: c :: d :: rest =>
    simp only [List.cons_append, unicodeEscape]
    split <;> simp [Option.map_bind]

/-- The same of an escaped character, surrogates joined. -/
theorem characterEscape_quote (front back : Bytes) :
    characterEscape (front ++ QUOTE :: back) =
      (characterEscape front).map fun (c, rest) => (c, rest ++ QUOTE :: back) := by
  rw [characterEscape, unicodeEscape_quote, characterEscape]
  cases unicodeEscape front with
  | none => rfl
  | some found =>
    obtain ⟨code, rest⟩ := found
    simp only [Option.map_some, Option.bind_eq_bind, Option.bind_some, unicodeEscape_quote]
    cases unicodeEscape rest with
    | none => rfl
    | some behind =>
      obtain ⟨low, after⟩ := behind
      simp only [Option.map_some]
      split <;> rfl

/-- **A quote starts the decoder anew.** -/
theorem decodeJsonEscapes_quote (front back : Bytes) :
    decodeJsonEscapes (front ++ QUOTE :: back) =
      decodeJsonEscapes (front ++ [QUOTE]) ++ decodeJsonEscapes back := by
  have hquote : QUOTE ≠ BACKSLASH := by decide
  induction hlength : front.length using Nat.strong_induction_on generalizing front with
  | _ length ih =>
  subst hlength
  match front with
  | [] => simp [decodeJsonEscapes_plain hquote]
  | b :: front =>
    by_cases hb : b = BACKSLASH
    · subst hb
      match front with
      | [] =>
        simp only [List.cons_append, List.nil_append, decodeJsonEscapes_backslash]
        have : JSON_SIMPLE_ESCAPES.lookup QUOTE = some QUOTE := by decide
        simp [this]
      | next :: front =>
        have hescape := characterEscape_quote (BACKSLASH :: next :: front)
        simp only [List.cons_append] at hescape ⊢
        rw [decodeJsonEscapes_backslash, decodeJsonEscapes_backslash, hescape, hescape]
        cases JSON_SIMPLE_ESCAPES.lookup next with
        | some simple =>
          simp only
          rw [ih _ (by simp) front rfl, List.cons_append]
        | none =>
          cases hc : characterEscape (BACKSLASH :: next :: front) with
          | none =>
            simp only [Option.map_none]
            rw [← List.cons_append, ih _ (by simp) (next :: front) rfl, List.cons_append,
              List.cons_append]
          | some found =>
            have := characterEscape_length hc
            simp only [Option.map_some]
            rw [ih _ (by simp only [List.length_cons] at this ⊢; omega) found.2 rfl,
              List.append_assoc]
    · rw [List.cons_append, decodeJsonEscapes_plain hb, ih _ (by simp) front rfl, List.cons_append,
        decodeJsonEscapes_plain hb, List.cons_append]

/-! ## Literals -/

theorem hexValue_ascii {c : CodePoint} {n : ℕ} (h : Json.hexValue c = some n) : c.val < 0x80 := by
  unfold Json.hexValue isDigit at h
  split_ifs at h with h₁ h₂ h₃
  · simp only [Bool.and_eq_true, decide_eq_true_eq] at h₁
    omega
  · omega
  · omega

theorem hexDigitValue_ofNat {c : CodePoint} {n : ℕ} (h : Json.hexValue c = some n) :
    hexDigitValue (UInt8.ofNat c.val) = some n := by
  have := hexValue_ascii h
  rw [hexDigitValue, toNat_ofNat_byte (by omega), codePoint_of_val, h]

theorem utf8EncodeSurrogatePass_hexEscape {digits : Text} {n : ℕ} (h : HexQuad digits n)
    (rest : Bytes) : ∃ tail,
      utf8EncodeSurrogatePass (Json.hexEscape digits) ++ rest = BACKSLASH :: 0x75 :: tail ∧
      unicodeEscape (BACKSLASH :: 0x75 :: tail) = some (n, rest) := by
  obtain ⟨ha, hb, hc, hd⟩ := h
  refine ⟨_, ?_, unicodeEscape_eq_some.mpr ⟨_, _, _, _, _, _, _, _, _, rfl, .inl rfl,
    hexDigitValue_ofNat ha, hexDigitValue_ofNat hb, hexDigitValue_ofNat hc, hexDigitValue_ofNat hd,
    rfl⟩⟩
  simp only [Json.hexEscape, utf8EncodeSurrogatePass_cons, utf8EncodeSurrogatePass_nil,
    utf8EncodeCharPass_ascii (hexValue_ascii ha), utf8EncodeCharPass_ascii (hexValue_ascii hb),
    utf8EncodeCharPass_ascii (hexValue_ascii hc), utf8EncodeCharPass_ascii (hexValue_ascii hd)]
  rfl

/-- A short escape, in characters and in bytes. -/
theorem escaped_eq_some {e c : CodePoint} (h : escaped e = some c) :
    utf8EncodeCharPass e = [UInt8.ofNat e.val] ∧ UInt8.ofNat e.val ≠ 0x75 ∧ UInt8.ofNat e.val ≠ 0x55 ∧
      ∃ b, JSON_SIMPLE_ESCAPES.lookup (UInt8.ofNat e.val) = some b ∧ utf8EncodeCharPass c = [b] := by
  have key : ∀ m n : ℕ, (m, n) ∈ [(0x22, 0x22), (0x5C, 0x5C), (0x2F, 0x2F), (0x62, 0x08), (0x66, 0x0C),
      (0x6E, 0x0A), (0x72, 0x0D), (0x74, 0x09)] → e = codePoint m → c = codePoint n →
      utf8EncodeCharPass e = [UInt8.ofNat e.val] ∧ UInt8.ofNat e.val ≠ 0x75 ∧
      UInt8.ofNat e.val ≠ 0x55 ∧
      ∃ b, JSON_SIMPLE_ESCAPES.lookup (UInt8.ofNat e.val) = some b ∧ utf8EncodeCharPass c = [b] := by
    rintro m n hmem rfl rfl
    fin_cases hmem <;> exact ⟨rfl, by decide, by decide, _, rfl, rfl⟩
  unfold escaped at h
  split_ifs at h with h₁ h₂ h₃ h₄ h₅ h₆ <;> obtain rfl := Option.some.inj h
  · rcases h₁ with rfl | rfl | h₁
    · exact key 0x22 0x22 (by simp) rfl rfl
    · exact key 0x5C 0x5C (by simp) rfl rfl
    · exact key 0x2F 0x2F (by simp) (Fin.ext h₁) (Fin.ext h₁)
  · exact key 0x62 0x08 (by simp) (Fin.ext h₂) rfl
  · exact key 0x66 0x0C (by simp) (Fin.ext h₃) rfl
  · exact key 0x6E 0x0A (by simp) (Fin.ext h₄) rfl
  · exact key 0x72 0x0D (by simp) (Fin.ext h₅) rfl
  · exact key 0x74 0x09 (by simp) (Fin.ext h₆) rfl

theorem ofNat_val_eq_backslash {c : CodePoint} (hc : c.val < 0x80)
    (h : UInt8.ofNat c.val = BACKSLASH) : c = backslash := by
  have := congrArg UInt8.toNat h
  rw [toNat_ofNat_byte (by omega)] at this
  exact Fin.ext this

/-- The bytes of a character that is not a backslash. -/
theorem utf8EncodeCharPass_plain {c : CodePoint} (h : c ≠ backslash) :
    ∀ b ∈ utf8EncodeCharPass c, b ≠ BACKSLASH := by
  intro b hb
  by_cases hc : c.val < 0x80
  · rw [utf8EncodeCharPass_ascii hc, List.mem_singleton] at hb
    subst hb
    exact fun hslash => h (ofNat_val_eq_backslash hc hslash)
  · have := utf8EncodeCharPass_high (not_lt.mp hc) b hb
    rintro rfl
    exact absurd this (by decide)

theorem utf8EncodeCharPass_ne_nil (c : CodePoint) : utf8EncodeCharPass c ≠ [] := by
  rw [utf8EncodeCharPass, utf8EncodeChar]
  split_ifs <;> simp

/-- Where the bytes of a literal begin with a character escape, so does the literal. -/
theorem unicodeEscape_spelled {t s : Text} (h : Spells t s) {n : ℕ} {rest after : Bytes}
    (hescape : unicodeEscape (utf8EncodeSurrogatePass s ++ QUOTE :: rest) = some (n, after)) :
    ∃ digits s', HexQuad digits n ∧ s = Json.hexEscape digits ++ s' := by
  obtain ⟨u, _, _, _, _, _, _, _, _, htext, hletter, -⟩ := unicodeEscape_eq_some.mp hescape
  cases h with
  | nil => exact absurd (List.cons.inj htext).1 (by decide)
  | @raw c t s hquote hslash hvisible _ =>
    exfalso
    obtain ⟨b, bytes, hb⟩ := List.exists_cons_of_ne_nil (utf8EncodeCharPass_ne_nil c)
    rw [utf8EncodeSurrogatePass_cons, hb] at htext
    exact utf8EncodeCharPass_plain hslash b (by simp [hb]) (List.cons.inj htext).1
  | @short c e t s he _ =>
    exfalso
    obtain ⟨hbyte, hu, hU, -⟩ := escaped_eq_some he
    rw [utf8EncodeSurrogatePass_cons, utf8EncodeSurrogatePass_cons, hbyte] at htext
    have := (List.cons.inj (List.cons.inj htext).2).1
    rcases hletter with rfl | rfl
    · exact hu this
    · exact hU this
  | @unicode c digits t s hdigits halone _ =>
    obtain ⟨tail, htail, hn⟩ := utf8EncodeSurrogatePass_hexEscape hdigits
      (utf8EncodeSurrogatePass s ++ QUOTE :: rest)
    rw [utf8EncodeSurrogatePass_append, List.append_assoc, htail, hn] at hescape
    obtain ⟨rfl, -⟩ := Prod.mk.inj (Option.some.inj hescape)
    exact ⟨digits, s, hdigits, rfl⟩
  | @pair c high low t s hc hhigh hlow _ =>
    obtain ⟨tail, htail, hn⟩ := utf8EncodeSurrogatePass_hexEscape hhigh
      (utf8EncodeSurrogatePass (Json.hexEscape low ++ s) ++ QUOTE :: rest)
    rw [utf8EncodeSurrogatePass_append, List.append_assoc, htail, hn] at hescape
    obtain ⟨rfl, -⟩ := Prod.mk.inj (Option.some.inj hescape)
    exact ⟨high, Json.hexEscape low ++ s, hhigh, rfl⟩

theorem decodeJsonEscapes_character {tail after : Bytes} {c : CodePoint}
    (h : characterEscape (BACKSLASH :: 0x75 :: tail) = some (c, after)) :
    decodeJsonEscapes (BACKSLASH :: 0x75 :: tail) =
      utf8EncodeCharPass c ++ decodeJsonEscapes after := by
  have hnone : JSON_SIMPLE_ESCAPES.lookup 0x75 = none := by decide
  rw [decodeJsonEscapes_backslash, hnone]
  simp only [h]

/-- **A literal is decoded as the string it spells.** -/
theorem decodeJsonEscapes_spelled {t s : Text} (h : Spells t s) (rest : Bytes) :
    decodeJsonEscapes (utf8EncodeSurrogatePass s ++ QUOTE :: rest) =
      utf8EncodeSurrogatePass t ++ decodeJsonEscapes (QUOTE :: rest) := by
  induction h with
  | nil => rfl
  | @raw c t s hquote hslash hvisible _ ih =>
    rw [utf8EncodeSurrogatePass_cons, List.append_assoc,
      decodeJsonEscapes_plain_append (utf8EncodeCharPass_plain hslash), ih,
      utf8EncodeSurrogatePass_cons, List.append_assoc]
  | @short c e t s he _ ih =>
    obtain ⟨hbyte, -, -, b, hb, hc⟩ := escaped_eq_some he
    have hslash : utf8EncodeCharPass backslash = [BACKSLASH] := rfl
    rw [utf8EncodeSurrogatePass_cons, utf8EncodeSurrogatePass_cons, hslash, hbyte]
    simp only [List.cons_append, List.nil_append]
    rw [decodeJsonEscapes_backslash, hb]
    simp only
    rw [ih, utf8EncodeSurrogatePass_cons, hc]
    rfl
  | @unicode c digits t s hdigits halone hspells ih =>
    obtain ⟨tail, htail, hn⟩ := utf8EncodeSurrogatePass_hexEscape hdigits
      (utf8EncodeSurrogatePass s ++ QUOTE :: rest)
    have hcharacter : characterEscape (BACKSLASH :: 0x75 :: tail) =
        some (c, utf8EncodeSurrogatePass s ++ QUOTE :: rest) := by
      rw [characterEscape, hn]
      simp only [Option.bind_eq_bind, Option.bind_some, codePoint_of_val]
      cases hnext : unicodeEscape (utf8EncodeSurrogatePass s ++ QUOTE :: rest) with
      | none => rfl
      | some found =>
        obtain ⟨low, after⟩ := found
        obtain ⟨digits', s', hdigits', hs'⟩ := unicodeEscape_spelled hspells hnext
        have hlone : ¬ (Json.isHighSurrogate c.val ∧ Json.isLowSurrogate low) :=
          fun h => halone h.1 digits' low s' hdigits' h.2 hs'
        simp only [if_neg hlone]
        rfl
    rw [utf8EncodeSurrogatePass_append, List.append_assoc, htail,
      decodeJsonEscapes_character hcharacter, ih, utf8EncodeSurrogatePass_cons, List.append_assoc]
  | @pair c high low t s hc hhigh hlow hspells ih =>
    obtain ⟨tail, htail, hn⟩ := utf8EncodeSurrogatePass_hexEscape hhigh
      (utf8EncodeSurrogatePass (Json.hexEscape low ++ s) ++ QUOTE :: rest)
    obtain ⟨tail', htail', hn'⟩ := utf8EncodeSurrogatePass_hexEscape hlow
      (utf8EncodeSurrogatePass s ++ QUOTE :: rest)
    have hlt := c.isLt
    have hboth : Json.isHighSurrogate (Json.highSurrogate c) ∧
        Json.isLowSurrogate (Json.lowSurrogate c) := by
      unfold Json.isHighSurrogate Json.isLowSurrogate Json.highSurrogate Json.lowSurrogate
      omega
    have hjoined : codePoint (0x10000 + (Json.highSurrogate c - 0xD800) * 1024 +
        (Json.lowSurrogate c - 0xDC00)) = c := by
      have hvalue : 0x10000 + (Json.highSurrogate c - 0xD800) * 1024 +
          (Json.lowSurrogate c - 0xDC00) = c.val := by
        unfold Json.highSurrogate Json.lowSurrogate
        omega
      rw [hvalue, codePoint_of_val]
    have hcharacter : characterEscape (BACKSLASH :: 0x75 :: tail) =
        some (c, utf8EncodeSurrogatePass s ++ QUOTE :: rest) := by
      rw [characterEscape, hn]
      simp only [Option.bind_eq_bind, Option.bind_some]
      rw [utf8EncodeSurrogatePass_append, List.append_assoc, htail', hn']
      simp only [if_pos hboth, hjoined]
      rfl
    rw [utf8EncodeSurrogatePass_append, List.append_assoc, htail,
      decodeJsonEscapes_character hcharacter, ih, utf8EncodeSurrogatePass_cons, List.append_assoc]

/-! ## Strings in strings -/

theorem utf8EncodeCharPass_quote : utf8EncodeCharPass quote = [QUOTE] := rfl

/-- The strings of a document stand in the decoded document. -/
theorem decodeJsonEscapes_string {t document : Text} (h : IsStringOf t document) {body : Bytes}
    (hbody : utf8EncodeSurrogatePass document <:+: body) :
    utf8EncodeSurrogatePass t <:+: decodeJsonEscapes body := by
  obtain ⟨s, hspells, hquoted⟩ := h
  obtain ⟨front, back, rfl⟩ := (utf8EncodeSurrogatePass_within hquoted).trans hbody
  have hliteral : front ++ utf8EncodeSurrogatePass (quote :: (s ++ [quote])) ++ back =
      front ++ QUOTE :: (utf8EncodeSurrogatePass s ++ QUOTE :: back) := by
    simp [utf8EncodeCharPass_quote]
  rw [hliteral, decodeJsonEscapes_quote, decodeJsonEscapes_spelled hspells]
  exact ⟨_, _, (List.append_assoc _ _ _)⟩

/-- As many passes as there are levels find what is nested. -/
theorem iterate_decodeJsonEscapes_nested {part document : Text} {levels : ℕ}
    (h : Nested part levels document) {body : Bytes}
    (hbody : utf8EncodeSurrogatePass document <:+: body) :
    utf8EncodeSurrogatePass part <:+: decodeJsonEscapes^[levels] body := by
  induction levels generalizing document body with
  | zero => exact (utf8EncodeSurrogatePass_within h).trans hbody
  | succ levels ih =>
    obtain ⟨t, hstring, hnested⟩ := h
    exact ih hnested (decodeJsonEscapes_string hstring hbody)

/-! ## The variants -/

/-- No pass lengthens a text, and one that keeps its length keeps the text. -/
theorem decodeJsonEscapes_length (text : Bytes) :
    (decodeJsonEscapes text).length ≤ text.length ∧
      ((decodeJsonEscapes text).length = text.length → decodeJsonEscapes text = text) := by
  induction hlength : text.length using Nat.strong_induction_on generalizing text with
  | _ length ih =>
  subst hlength
  have plain : ∀ (b : UInt8) (rest : Bytes), rest.length < text.length →
      (b :: decodeJsonEscapes rest).length ≤ (b :: rest).length ∧
      ((b :: decodeJsonEscapes rest).length = (b :: rest).length →
        b :: decodeJsonEscapes rest = b :: rest) := fun b rest hrest => by
    obtain ⟨hle, heq⟩ := ih _ hrest rest rfl
    refine ⟨by simpa using hle, fun h => ?_⟩
    rw [heq (by simpa using h)]
  match text with
  | [] => simp
  | [b] => simp [decodeJsonEscapes]
  | b :: next :: rest =>
    by_cases hb : b = BACKSLASH
    · subst hb
      rw [decodeJsonEscapes_backslash]
      cases JSON_SIMPLE_ESCAPES.lookup next with
      | some simple =>
        have := (ih rest.length (by simp) rest rfl).1
        simp only [List.length_cons]
        omega
      | none =>
        cases hc : characterEscape (BACKSLASH :: next :: rest) with
        | none => exact plain _ _ (by simp)
        | some found =>
          obtain ⟨c, after⟩ := found
          have hafter := characterEscape_length hc
          have := (ih after.length (by simp only [List.length_cons] at hafter ⊢; omega) after rfl).1
          have hshort : (utf8EncodeCharPass c).length ≤ 4 := by
            rw [utf8EncodeCharPass, utf8EncodeChar]
            split_ifs <;> simp
          simp only [List.length_append]
          omega
    · rw [decodeJsonEscapes_plain hb]
      exact plain _ _ (by simp)

theorem decodeJsonEscapes_of_no_backslash {text : Bytes} (h : BACKSLASH ∉ text) :
    decodeJsonEscapes text = text := by
  have := decodeJsonEscapes_plain_append (fun b hb => ne_of_mem_of_not_mem hb h) []
  simpa using this

theorem subset_unescapePasses (passes : ℕ) (variants : List Bytes) (current : Bytes) :
    variants ⊆ unescapePasses passes variants current := by
  induction passes generalizing variants current with
  | zero => exact List.Subset.refl _
  | succ passes ih =>
    rw [unescapePasses]
    split_ifs
    · exact List.Subset.refl _
    · exact List.Subset.trans (List.subset_append_left _ _) (ih _ _)
    · exact List.subset_append_left _ _

/-- Every pass up to the last is among the forms: where the loop breaks off, nothing new would
come. -/
theorem mem_unescapePasses {passes : ℕ} {variants : List Bytes} {current : Bytes}
    (hcurrent : current ∈ variants) (hlong : ∀ variant ∈ variants, current.length ≤ variant.length)
    {levels : ℕ} (hlevels : levels ≤ passes) :
    decodeJsonEscapes^[levels] current ∈ unescapePasses passes variants current := by
  induction passes generalizing variants current levels with
  | zero =>
    obtain rfl := Nat.le_zero.mp hlevels
    exact hcurrent
  | succ passes ih =>
    obtain ⟨hle, heq⟩ := decodeJsonEscapes_length current
    cases levels with
    | zero => exact subset_unescapePasses _ _ _ hcurrent
    | succ levels =>
      rw [unescapePasses, Function.iterate_succ_apply]
      split_ifs with hseen hplain
      · have hfixed := heq (le_antisymm hle (hlong _ hseen))
        rw [hfixed, Function.iterate_fixed hfixed]
        exact hcurrent
      · refine ih (by simp) (fun variant hvariant => ?_) (by omega)
        rcases List.mem_append.mp hvariant with h | h
        · exact hle.trans (hlong _ h)
        · rw [List.mem_singleton.mp h]
      · rw [Function.iterate_fixed (decodeJsonEscapes_of_no_backslash hplain)]
        simp

theorem mem_scanVariants {body : Bytes} {levels : ℕ} (h : levels ≤ MAX_UNESCAPE_PASSES) :
    decodeJsonEscapes^[levels] body ∈ scanVariants body := by
  rw [scanVariants]
  split_ifs with hplain
  · exact mem_unescapePasses (by simp) (by simp) h
  · rw [Function.iterate_fixed (decodeJsonEscapes_of_no_backslash hplain)]
    simp

theorem length_unescapePasses (passes : ℕ) (variants : List Bytes) (current : Bytes) :
    (unescapePasses passes variants current).length ≤ variants.length + passes := by
  induction passes generalizing variants current with
  | zero => exact le_rfl
  | succ passes ih =>
    rw [unescapePasses]
    split_ifs
    · omega
    · have := ih (variants ++ [decodeJsonEscapes current]) (decodeJsonEscapes current)
      simp only [List.length_append, List.length_singleton] at this
      omega
    · simp

theorem length_scanVariants (body : Bytes) : (scanVariants body).length ≤ 4 := by
  rw [scanVariants]
  split_ifs
  · exact length_unescapePasses MAX_UNESCAPE_PASSES [body] body
  · simp

/-! ## The scan -/

section Scan

variable {digest : Bytes → Bytes} {values : List ProtectedValue} {fingerprints : Fingerprints}

/-- The bytes of a credential have a fingerprint. -/
theorem mem_protectedRepresentations
    (h : protectedRepresentations digest values = .ok fingerprints) {credential : Text} {raw : Bytes}
    (hraw : utf8Encode credential = some raw)
    (hmem : .str credential ∈ values ∨ .bytes raw ∈ values) :
    ∃ expected, (raw.length, expected) ∈ fingerprints ∧ digest raw ∈ expected := by
  obtain ⟨raws, hraws, hfingerprints⟩ := bind_ok_iff.mp h
  obtain rfl := Except.ok.inj hfingerprints
  have hprotected : raw ∈ raws.flatMap representations := by
    obtain ⟨value, hvalue, hencode⟩ : ∃ value ∈ values, ∀ i r, value.encode i = .ok r → r = raw := by
      rcases hmem with hstr | hbytes
      · refine ⟨_, hstr, fun i r hr => ?_⟩
        simp only [ProtectedValue.encode, hraw, ok_bind, bind_ok_iff] at hr
        obtain ⟨_, -, hr⟩ := hr
        exact (Except.ok.inj hr).symm
      · refine ⟨_, hbytes, fun i r hr => ?_⟩
        simp only [ProtectedValue.encode, ok_bind, bind_ok_iff] at hr
        obtain ⟨_, -, hr⟩ := hr
        exact (Except.ok.inj hr).symm
    obtain ⟨i, hi⟩ := List.mem_iff_getElem?.mp hvalue
    obtain ⟨r, hr, hf⟩ := mapM_mem_of_mem hraws (List.mk_mem_zipIdx_iff_getElem?.mpr hi)
    obtain rfl := hencode i r hf
    exact List.mem_flatMap.mpr ⟨r, hr, by simp [representations]⟩
  refine ⟨_, List.mem_map.mpr ⟨raw.length, ?_, rfl⟩, ?_⟩
  · rw [List.mem_mergeSort, List.mem_dedup]
    exact List.mem_map_of_mem hprotected
  · rw [List.mem_mergeSort, List.mem_dedup]
    exact List.mem_map_of_mem (List.mem_filter.mpr ⟨hprotected, by simp⟩)

/-- A fingerprinted text anywhere in a variant is found. -/
theorem containsProtectedRepresentation_of_within {raw : Bytes} {expected : List Bytes}
    (hlength : (raw.length, expected) ∈ fingerprints) (hdigest : digest raw ∈ expected)
    {body variant : Bytes} (hvariant : variant ∈ scanVariants body) (hwithin : raw <:+: variant) :
    containsProtectedRepresentation digest body fingerprints = true := by
  obtain ⟨front, back, rfl⟩ := hwithin
  rw [containsProtectedRepresentation, if_neg (List.ne_nil_of_mem hlength)]
  refine List.any_eq_true.mpr ⟨_, hvariant, List.any_eq_true.mpr ⟨_, hlength, ?_⟩⟩
  rw [Bool.and_eq_true, decide_eq_true_eq]
  refine ⟨by simp; omega, List.any_eq_true.mpr ⟨front.length, ?_, ?_⟩⟩
  · rw [List.mem_range]
    simp only [List.length_append]
    omega
  · refine List.any_eq_true.mpr ⟨_, hdigest, ?_⟩
    simp

variable {credential document : Text} {raw body : Bytes} {levels : ℕ}

/-- A credential in the strings of a document is found through three levels of literals. -/
theorem containsProtectedRepresentation_of_nested
    (hfingerprints : protectedRepresentations digest values = .ok fingerprints)
    (hraw : utf8Encode credential = some raw)
    (hmem : .str credential ∈ values ∨ .bytes raw ∈ values) (hlevels : levels ≤ 3)
    (hnested : Nested credential levels document) (hbody : utf8Encode document = some body) :
    containsProtectedRepresentation digest body fingerprints = true := by
  obtain ⟨expected, hlength, hdigest⟩ := mem_protectedRepresentations hfingerprints hraw hmem
  refine containsProtectedRepresentation_of_within hlength hdigest (mem_scanVariants hlevels) ?_
  rw [← utf8EncodeSurrogatePass_of_encode hraw]
  refine iterate_decodeJsonEscapes_nested hnested ?_
  rw [utf8EncodeSurrogatePass_of_encode hbody]

/-- **Escaping hides no credential.** A response whose body is a document with a protected credential
in one of its strings, however the string is spelled and through up to three levels of strings in
strings, is found out and never becomes a reply; and no body has more than four forms. -/
theorem escaped_credential_discarded
    (hfingerprints : protectedRepresentations digest values = .ok fingerprints)
    (hraw : utf8Encode credential = some raw)
    (hmem : .str credential ∈ values ∨ .bytes raw ∈ values) (hlevels : levels ≤ 3)
    (hnested : Nested credential levels document) (hbody : utf8Encode document = some body) :
    containsProtectedRepresentation digest body fingerprints = true ∧
    (∀ (endpoint : Text) (responseDeadlineMs startedAtNs status finishedAtNs : ℤ),
      (∀ reply, (⟨endpoint, fingerprints⟩ : HTTPAgent).conclude digest responseDeadlineMs startedAtNs
        (some (.result status body finishedAtNs)) ≠ .ok reply) ∧
      (finishedAtNs ≤ startedAtNs + responseDeadlineMs * 1_000_000 →
        ∃ message, (⟨endpoint, fingerprints⟩ : HTTPAgent).conclude digest responseDeadlineMs
          startedAtNs (some (.result status body finishedAtNs)) = .error (.secret message))) ∧
    ∀ other : Bytes, (scanVariants other).length ≤ 4 := by
  have hfound := containsProtectedRepresentation_of_nested hfingerprints hraw hmem hlevels hnested
    hbody
  refine ⟨hfound, fun endpoint responseDeadlineMs startedAtNs status finishedAtNs => ⟨?_, ?_⟩,
    length_scanVariants⟩
  · intro reply
    simp only [HTTPAgent.conclude, WorkerOutcome.finishedAtNs, hfound, if_true]
    split <;> simp
  · intro hontime
    simp only [HTTPAgent.conclude, WorkerOutcome.finishedAtNs, hfound, if_true,
      if_neg (not_lt.mpr hontime)]
    exact ⟨_, rfl⟩

end Scan

/-- `"k"`, its letter escaped. -/
def innerLiteral : Text := Json.hexEscape (txt "006b")

/-- The literal of that document in another. -/
def outerLiteral : Text :=
  [backslash, quote, backslash, backslash] ++ txt "u006b" ++ [backslash, quote]

theorem spells_innerLiteral : Spells (txt "k") innerLiteral := by
  have hdigits : HexQuad (txt "006b") (((0 * 16 + 0) * 16 + 6) * 16 + 11) :=
    .digits rfl rfl rfl rfl
  exact Spells.unicode (c := codePoint 0x6B) (s := []) hdigits (fun h => absurd h (by decide)) .nil

theorem spells_outerLiteral : Spells (quote :: (innerLiteral ++ [quote])) outerLiteral :=
  .short rfl <| .short rfl <| .raw (by decide) (by decide) (by decide) <|
    .raw (by decide) (by decide) (by decide) <| .raw (by decide) (by decide) (by decide) <|
    .raw (by decide) (by decide) (by decide) <| .raw (by decide) (by decide) (by decide) <|
    .short rfl .nil

theorem escaped_letter_discarded :
    containsProtectedRepresentation id ((quote :: (outerLiteral ++ [quote])).map
        fun c => UInt8.ofNat c.val)
      (fingerprintsOf id (representations [0x6B])) = true :=
  (@escaped_credential_discarded id [.str (txt "k")] _ (txt "k") (quote :: (outerLiteral ++ [quote]))
    [0x6B] _ 2 rfl rfl (.inl (by simp)) (by decide)
    ⟨quote :: (innerLiteral ++ [quote]), ⟨outerLiteral, spells_outerLiteral, List.infix_refl _⟩,
      txt "k", ⟨innerLiteral, spells_innerLiteral, List.infix_refl _⟩, List.infix_refl _⟩ rfl).1

end WagmiBench.Harness
