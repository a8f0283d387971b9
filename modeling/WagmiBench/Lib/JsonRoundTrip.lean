import WagmiBench.Lib.JsonParser

/-!
# Reading back what was written

`loads` applied to the text `emit` writes gives the value back: for values without floats whose
objects have distinct keys, whose integers are short enough for the interpreter and which nest no
deeper than it allows. The reader is followed through the text of one value at a time, whatever
containers are open around it and whatever text comes after it.
-/

namespace WagmiBench.Lib

/-! ## Decimal literals -/

theorem toDigits_head {n : ℕ} (h : 0 < n) :
    ∃ c digits, Nat.toDigits 10 n = c :: digits ∧ c ≠ '0' := by
  induction n using Nat.strong_induction_on with
  | _ n ih =>
    rw [Nat.toDigits_eq_if (by omega)]
    split
    · refine ⟨_, _, rfl, ?_⟩
      interval_cases n <;> decide
    · obtain ⟨c, digits, heq, hc⟩ := ih (n / 10) (by omega) (by omega)
      exact ⟨c, _, by rw [heq, List.cons_append], hc⟩

/-- A decimal is one digit, or begins with another digit than zero. -/
theorem decimal_eq_cons (n : ℕ) : ∃ c digits, decimal n = c :: digits ∧ isDigit c = true ∧
    (∀ d ∈ digits, isDigit d = true) ∧ (c.val = 0x30 → digits = []) := by
  obtain ⟨c, digits, heq⟩ := List.exists_cons_of_ne_nil (decimal_ne_nil n)
  have digit : ∀ d ∈ c :: digits, isDigit d = true := fun d hd =>
    isDigit_of_mem_decimal (n := n) (heq ▸ hd)
  refine ⟨c, digits, heq, digit c (by simp), fun d hd => digit d (by simp [hd]), fun hzero => ?_⟩
  rcases Nat.eq_zero_or_pos n with rfl | hpos
  · rw [decimal, Nat.toDigits_zero] at heq
    exact (List.cons.inj heq).2.symm
  · obtain ⟨d, ds, hds, hne⟩ := toDigits_head hpos
    rw [decimal, hds, List.map_cons] at heq
    obtain ⟨hhead, -⟩ := List.cons.inj heq
    have hdig := char_toNat_of_isDigit
      (Nat.isDigit_of_mem_toDigits (n := n) (by omega) (by omega) (hds ▸ List.mem_cons_self))
    rw [← hhead, codePoint_val (by omega)] at hzero
    exact absurd (Char.toNat_inj.mp hzero) hne

theorem decimal_length_le {n k : ℕ} (hk : 0 < k) (h : n < 10 ^ k) : (decimal n).length ≤ k := by
  rw [decimal, List.length_map]
  exact (Nat.length_toDigits_le_iff (by omega) hk).mpr h

namespace Json

/-! ## What is read back -/

mutual

/-- Containers nested in a value. -/
def depth : Json → ℕ
  | .arr items => depthItems items + 1
  | .obj members => depthMembers members + 1
  | _ => 0

/-- The deepest item. -/
def depthItems : List Json → ℕ
  | [] => 0
  | v :: items => max (depth v) (depthItems items)

/-- The deepest member. -/
def depthMembers : List (Text × Json) → ℕ
  | [] => 0
  | (_, v) :: members => max (depth v) (depthMembers members)

end

mutual

/-- No floats, integers of at most `k` digits, and in every object each key once. -/
def Readable (k : ℕ) : Json → Prop
  | .float _ => False
  | .int n => n.natAbs < 10 ^ k
  | .arr items => ReadableItems k items
  | .obj members => (members.map Prod.fst).Nodup ∧ ReadableMembers k members
  | _ => True

/-- `Readable` of every item. -/
def ReadableItems (k : ℕ) : List Json → Prop
  | [] => True
  | v :: items => Readable k v ∧ ReadableItems k items

/-- `Readable` of every member's value. -/
def ReadableMembers (k : ℕ) : List (Text × Json) → Prop
  | [] => True
  | (_, v) :: members => Readable k v ∧ ReadableMembers k members

end

/-- Hooks that leave objects with distinct keys as they are. -/
def Hooks.Faithful {ε : Type} (H : Hooks ε) : Prop :=
  ∀ members : List (Text × Json), (members.map Prod.fst).Nodup →
    H.objectPairs members = .ok (.obj members)

theorem firstDuplicate_eq_none {seen : List Text} {members : List (Text × Json)} :
    firstDuplicate seen members = none ↔
      (members.map Prod.fst).Nodup ∧ ∀ m ∈ members, m.1 ∉ seen := by
  induction members generalizing seen with
  | nil => simp [firstDuplicate]
  | cons m members ih =>
    obtain ⟨k, v⟩ := m
    rw [firstDuplicate]
    split
    · rename_i hk
      simp [hk]
    · rename_i hk
      rw [ih]
      simp only [List.map_cons, List.nodup_cons, List.mem_map, Prod.exists, exists_and_right,
        exists_eq_right, not_exists, List.mem_cons, forall_eq_or_imp, not_or, hk, not_false_eq_true,
        true_and]
      constructor
      · rintro ⟨hnodup, hseen⟩
        exact ⟨⟨fun w hw => (hseen _ hw).1 rfl, hnodup⟩, fun m hm => (hseen m hm).2⟩
      · rintro ⟨⟨hfresh, hnodup⟩, hseen⟩
        refine ⟨hnodup, fun m hm => ⟨?_, hseen m hm⟩⟩
        rintro rfl
        exact hfresh m.2 hm

theorem strictHooks_faithful : strictHooks.Faithful := fun members h => by
  have fresh : firstDuplicate [] members = none := firstDuplicate_eq_none.mpr ⟨h, by simp⟩
  simp [strictHooks, rejectDuplicateKeys, fresh]

/-! ## Following the reader -/

section Read

variable {ε : Type} {L : Limits} {H : Hooks ε} {stack : List Frame} {rest : Text}

theorem readFrom_cons {r r' : Reader ε} {c : CodePoint} {t : Text} (h : step L H r c = .ok r') :
    readFrom L H r (c :: t) = readFrom L H r' t := by
  rw [readFrom, h]
  rfl

/-- A character that does not go on with a number literal. -/
def EndsNumber (c : CodePoint) : Prop :=
  isDigit c = false ∧ c.val ≠ 0x2E ∧ c.val ≠ 0x65 ∧ c.val ≠ 0x45

/-- Where a value is complete, the reader stands after it. -/
theorem step_deliver (v : Json) (c : CodePoint) :
    step L H (deliver v stack) c = stepComplete H c (deliver v stack) := by
  rcases stack with - | ⟨⟨items⟩ | ⟨members, - | key⟩, stack⟩ <;> rfl

/-- A number literal is complete where its text ends or goes on with something else. -/
theorem readFrom_number {acc : Text} {part : NumberPart} {v : Json}
    (hpart : part = .zero ∨ part = .digits) (hfinish : finishNumber L H acc part = .ok v)
    (hrest : ∀ c ∈ rest.head?, EndsNumber c) :
    readFrom L H ⟨.number acc part, stack⟩ rest = readFrom L H (deliver v stack) rest := by
  cases rest with
  | nil =>
    rw [readFrom, readFrom, finish]
    simp only [hfinish, ok_bind]
    rcases stack with - | ⟨⟨items⟩ | ⟨members, - | key⟩, stack⟩ <;> rfl
  | cons c t =>
    obtain ⟨hdigit, hdot, he, hE⟩ := hrest c rfl
    rw [readFrom, readFrom]
    have same : step L H ⟨.number acc part, stack⟩ c = step L H (deliver v stack) c := by
      rw [step_deliver, step]
      rcases hpart with rfl | rfl <;>
        simp [stepNumber, hdigit, hdot, he, hE, hfinish]
    rw [same]

theorem readFrom_digits {acc digits : Text} (h : ∀ d ∈ digits, isDigit d = true) :
    readFrom L H ⟨.number acc .digits, stack⟩ (digits ++ rest) =
      readFrom L H ⟨.number (digits.reverse ++ acc) .digits, stack⟩ rest := by
  induction digits generalizing acc with
  | nil => rfl
  | cons d digits ih =>
    have hstep : step L H ⟨.number acc .digits, stack⟩ d = .ok ⟨.number (d :: acc) .digits, stack⟩ := by
      simp [step, stepNumber, h d (by simp)]
    rw [List.cons_append, readFrom_cons hstep, ih fun d hd => h d (by simp [hd])]
    simp

/-! ### Numbers -/

/-- The part of a literal whose first digit is `c`. -/
def firstPart (c : CodePoint) : NumberPart := if c.val = 0x30 then .zero else .digits

/-- The digits of a decimal, once its first one is read. -/
theorem readFrom_decimal {n : ℕ} {c : CodePoint} {digits before : Text} {v : Json}
    (hdecimal : decimal n = c :: digits) (hdigits : ∀ d ∈ digits, isDigit d = true)
    (hzero : c.val = 0x30 → digits = [])
    (hfinish : (finishInt L ((decimal n).reverse ++ before) : Read ε Json) = .ok v)
    (hrest : ∀ d ∈ rest.head?, EndsNumber d) :
    readFrom L H ⟨.number (c :: before) (firstPart c), stack⟩ (digits ++ rest) =
      readFrom L H (deliver v stack) rest := by
  have acc : (decimal n).reverse ++ before = digits.reverse ++ c :: before := by
    rw [hdecimal]
    simp
  rw [acc] at hfinish
  unfold firstPart
  split
  · rename_i hc
    obtain rfl := hzero hc
    exact readFrom_number (.inl rfl) hfinish hrest
  · rw [readFrom_digits hdigits]
    exact readFrom_number (.inr rfl) hfinish hrest

theorem step_firstDigit {c : CodePoint} (h : isDigit c = true) :
    step L H ⟨.value, stack⟩ c = .ok ⟨.number [c] (firstPart c), stack⟩ := by
  have hc : 0x30 ≤ c.val ∧ c.val ≤ 0x39 := by simpa [isDigit] using h
  have ne : ∀ {k : ℕ}, k < 0x30 ∨ (0x39 < k ∧ k < 0x110000) → c ≠ codePoint k := by
    rintro k hk rfl
    rw [codePoint_val (by omega)] at hc
    omega
  have blank : isBlank c = false := by
    simp only [isBlank, Bool.or_eq_false_iff, beq_eq_false_iff_ne]
    omega
  simp only [step, stepValue, blank, Bool.false_eq_true, if_false, if_neg (ne (k := 0x22) (by omega)),
    if_neg (ne (k := 0x5B) (by omega)), if_neg (ne (k := 0x7B) (by omega)),
    if_neg (by omega : ¬ c.val = 0x2D), firstPart, h, if_true]
  split <;> rfl

theorem step_minus_digit {c : CodePoint} {acc : Text} (h : isDigit c = true) :
    step L H ⟨.number acc .minus, stack⟩ c = .ok ⟨.number (c :: acc) (firstPart c), stack⟩ := by
  simp only [step, stepNumber, firstPart, h, if_true]
  split <;> rfl

theorem step_minus :
    step L H ⟨.value, stack⟩ (codePoint 0x2D) = .ok ⟨.number [codePoint 0x2D] .minus, stack⟩ := by
  rfl

/-- An integer is read back. -/
theorem readFrom_int {n : ℤ} (hlength : (decimal n.natAbs).length ≤ L.maxDigits)
    (hrest : ∀ d ∈ rest.head?, EndsNumber d) :
    readFrom L H ⟨.value, stack⟩ (decimalInt n ++ rest) = readFrom L H (deliver (.int n) stack) rest := by
  obtain ⟨c, digits, hdecimal, hc, hdigits, hzero⟩ := decimal_eq_cons n.natAbs
  have value := ofDecimal_decimal n.natAbs
  rw [hdecimal] at hlength value
  have hminus : c.val ≠ 0x2D := by
    have : 0x30 ≤ c.val ∧ c.val ≤ 0x39 := by simpa [isDigit] using hc
    omega
  unfold decimalInt
  split
  · rename_i hneg
    rw [hdecimal, List.cons_append, readFrom_cons step_minus, List.cons_append,
      readFrom_cons (step_minus_digit hc)]
    refine readFrom_decimal hdecimal hdigits hzero ?_ hrest
    have reversed : ((c :: digits).reverse ++ [codePoint 0x2D]).reverse =
        codePoint 0x2D :: c :: digits := by simp
    have minus : (codePoint 0x2D).val = 0x2D := codePoint_val (by omega)
    rw [hdecimal, finishInt]
    simp only [reversed, minus, if_true, if_pos hlength, value]
    congr 2
    omega
  · rename_i hpos
    rw [hdecimal, List.cons_append, readFrom_cons (step_firstDigit hc)]
    refine readFrom_decimal hdecimal hdigits hzero ?_ hrest
    rw [hdecimal, List.append_nil, finishInt]
    simp only [List.reverse_reverse, if_neg hminus, if_pos hlength, value]
    congr 2
    omega

/-! ### Strings -/

theorem hexValue_hexDigit : ∀ n < 16, hexValue (hexDigit n) = some n := by decide

/-- One written character of a string is read back. -/
theorem readFrom_emitChar (c : CodePoint) {isKey : Bool} {acc : Text} :
    readFrom L H ⟨.string isKey acc (.plain false), stack⟩ (emitChar c ++ rest) =
      readFrom L H ⟨.string isKey (c :: acc) (.plain false), stack⟩ rest := by
  -- after a backslash: the two-character escapes
  have slash : step L H ⟨.string isKey acc (.plain false), stack⟩ backslash =
      .ok ⟨.string isKey acc (.slash false), stack⟩ := rfl
  have pair : ∀ e : CodePoint, e.val ≠ 0x75 → escaped e = some c →
      readFrom L H ⟨.string isKey acc (.plain false), stack⟩ ([backslash, e] ++ rest) =
        readFrom L H ⟨.string isKey (c :: acc) (.plain false), stack⟩ rest := by
    intro e hne he
    rw [List.cons_append, readFrom_cons slash, List.cons_append, List.nil_append]
    refine readFrom_cons ?_
    simp only [step, stepString, if_neg hne, he]
  unfold emitChar
  split
  · rename_i h
    exact pair quote (by decide) (by rw [h]; rfl)
  split
  · rename_i h
    exact pair backslash (by decide) (by rw [h]; rfl)
  have control : ∀ {n e : ℕ}, c.val = n → (codePoint e).val ≠ 0x75 →
      escaped (codePoint e) = some (codePoint n) →
      readFrom L H ⟨.string isKey acc (.plain false), stack⟩ ([backslash, codePoint e] ++ rest) =
        readFrom L H ⟨.string isKey (c :: acc) (.plain false), stack⟩ rest := by
    rintro n e rfl hne he
    exact pair _ hne (by rw [he, codePoint_of_val])
  split
  · rename_i h
    exact control h (by decide) rfl
  split
  · rename_i h
    exact control h (by decide) rfl
  split
  · rename_i h
    exact control h (by decide) rfl
  split
  · rename_i h
    exact control h (by decide) rfl
  split
  · rename_i h
    exact control h (by decide) rfl
  split
  · -- four hexadecimal digits
    rename_i hlow
    have digit : ∀ {n v d : ℕ}, d < 16 → n < 3 →
        step L H ⟨.string isKey acc (.unicode false n v), stack⟩ (hexDigit d) =
          .ok ⟨.string isKey acc (.unicode false (n + 1) (16 * v + d)), stack⟩ := by
      intro n v d hd hn
      simp only [step, stepString, hexValue_hexDigit d hd, if_pos hn]
    have last : step L H ⟨.string isKey acc (.unicode false 3 (c.val / 16)), stack⟩
        (hexDigit (c.val % 16)) = .ok ⟨.string isKey (c :: acc) (.plain false), stack⟩ := by
      have hval : 16 * (c.val / 16) + c.val % 16 = c.val := Nat.div_add_mod _ _
      have low : decide (0xD800 ≤ c.val ∧ c.val < 0xDC00) = false := decide_eq_false (by omega)
      simp only [step, stepString, hexValue_hexDigit _ (Nat.mod_lt _ (by omega)), lt_irrefl,
        if_false, pushUnicode, hval, codePoint_of_val, low]
    have zero : 16 * (16 * (16 * 0 + 0) + 0) + c.val / 16 = c.val / 16 := by omega
    have unicode : step L H ⟨.string isKey acc (.slash false), stack⟩ (codePoint 0x75) =
        .ok ⟨.string isKey acc (.unicode false 0 0), stack⟩ := rfl
    simp only [List.cons_append, List.nil_append]
    rw [readFrom_cons slash, readFrom_cons unicode,
      readFrom_cons (digit (by omega) (by omega)), readFrom_cons (digit (by omega) (by omega)),
      readFrom_cons (digit (by omega) (by omega)), zero, readFrom_cons last]
  · rename_i hquote hbackslash _ _ _ _ _ hlow
    refine readFrom_cons ?_
    simp only [step, stepString, if_neg hquote, if_neg hbackslash, if_neg hlow]

theorem readFrom_emitChars (s : Text) {isKey : Bool} {acc : Text} :
    readFrom L H ⟨.string isKey acc (.plain false), stack⟩ (s.flatMap emitChar ++ rest) =
      readFrom L H ⟨.string isKey (s.reverse ++ acc) (.plain false), stack⟩ rest := by
  induction s generalizing acc with
  | nil => rfl
  | cons c s ih =>
    rw [List.flatMap_cons, List.append_assoc, readFrom_emitChar, ih]
    simp

/-- A string is read back. -/
theorem readFrom_string (s : Text) :
    readFrom L H ⟨.value, stack⟩ (emitString s ++ rest) = readFrom L H (deliver (.str s) stack) rest := by
  have opening : step L H ⟨.value, stack⟩ quote = .ok ⟨.string false [] (.plain false), stack⟩ := rfl
  simp only [emitString, List.cons_append, List.append_assoc, List.nil_append]
  rw [readFrom_cons opening, readFrom_emitChars]
  refine readFrom_cons ?_
  simp [step, stepString, finishString]

/-- A key is read back, and its colon with it. -/
theorem readFrom_key (k : Text) {mode : Mode ε} (hmode : mode = .firstKey ∨ mode = .key)
    {members : List (Text × Json)} :
    readFrom L H ⟨mode, .obj members none :: stack⟩ (emitString k ++ colon :: rest) =
      readFrom L H ⟨.value, .obj members (some k) :: stack⟩ rest := by
  have opening : step L H ⟨mode, .obj members none :: stack⟩ quote =
      .ok ⟨.string true [] (.plain false), .obj members none :: stack⟩ := by
    rcases hmode with rfl | rfl <;> rfl
  have closing : step L H ⟨.string true k.reverse (.plain false), .obj members none :: stack⟩ quote =
      .ok ⟨.colon, .obj members (some k) :: stack⟩ := by
    simp [step, stepString, finishString]
  simp only [emitString, List.cons_append, List.append_assoc, List.nil_append]
  rw [readFrom_cons opening, readFrom_emitChars, List.append_nil, readFrom_cons closing]
  exact readFrom_cons rfl

/-! ### Values -/

/-- The text of a value begins with an ASCII character that neither is a blank nor closes an
array. -/
theorem emit_eq_cons {k : ℕ} {v : Json} (h : Readable k v) :
    ∃ c t, emit v = c :: t ∧ isBlank c = false ∧ c ≠ closeArr ∧ c.val < 0x80 := by
  match v, h with
  | .null, _ => exact ⟨_, _, rfl, by decide, by decide, by decide⟩
  | .bool true, _ => exact ⟨_, _, rfl, by decide, by decide, by decide⟩
  | .bool false, _ => exact ⟨_, _, rfl, by decide, by decide, by decide⟩
  | .str s, _ =>
    exact ⟨_, _, by rw [emit, emitString, List.cons_append], by decide, by decide, by decide⟩
  | .arr [], _ => exact ⟨_, _, by rw [emit], by decide, by decide, by decide⟩
  | .arr (v :: items), _ =>
    exact ⟨_, _, by rw [emit, List.cons_append, List.cons_append], by decide, by decide, by decide⟩
  | .obj [], _ => exact ⟨_, _, by rw [emit], by decide, by decide, by decide⟩
  | .obj ((k, v) :: members), _ =>
    exact ⟨openObj, _, by rw [emit]; rfl, by decide, by decide, by decide⟩
  | .int n, _ =>
    rw [emit, decimalInt]
    split
    · exact ⟨_, _, rfl, by decide, by decide, by decide⟩
    · obtain ⟨c, digits, hdecimal, hc, -⟩ := decimal_eq_cons n.natAbs
      have hval : 0x30 ≤ c.val ∧ c.val ≤ 0x39 := by simpa [isDigit] using hc
      refine ⟨c, digits, hdecimal, ?_, ?_, by omega⟩
      · simp only [isBlank, Bool.or_eq_false_iff, beq_eq_false_iff_ne]
        omega
      · rintro rfl
        rw [codePoint_val (by omega)] at hval
        omega

/-- The first item of an array is read like any value. -/
theorem readFrom_firstItem {k : ℕ} {v : Json} (h : Readable k v) {stack : List Frame} :
    readFrom L H ⟨.firstItem, stack⟩ (emit v ++ rest) = readFrom L H ⟨.value, stack⟩ (emit v ++ rest) := by
  obtain ⟨c, t, heq, hblank, hclose, -⟩ := emit_eq_cons h
  have same : step L H ⟨.firstItem, stack⟩ c = step L H ⟨.value, stack⟩ c := by
    simp only [step, hblank, Bool.false_eq_true, if_false, if_neg hclose]
  rw [heq, List.cons_append, readFrom, readFrom, same]

theorem endsNumber_comma : EndsNumber comma := by
  refine ⟨?_, ?_, ?_, ?_⟩ <;> decide

theorem endsNumber_closeArr : EndsNumber closeArr := by
  refine ⟨?_, ?_, ?_, ?_⟩ <;> decide

theorem endsNumber_closeObj : EndsNumber closeObj := by
  refine ⟨?_, ?_, ?_, ?_⟩ <;> decide

/-- The text of the items after one begins where a number literal ends. -/
theorem endsNumber_emitItems {items : List Json} :
    ∀ c ∈ (emitItems items ++ closeArr :: rest).head?, EndsNumber c := by
  rintro c hc
  cases items with
  | nil =>
    obtain rfl : closeArr = c := by simpa [emitItems] using hc
    exact endsNumber_closeArr
  | cons v items =>
    obtain rfl : comma = c := by simpa [emitItems] using hc
    exact endsNumber_comma

/-- The same of members. -/
theorem endsNumber_emitMembers {members : List (Text × Json)} :
    ∀ c ∈ (emitMembers members ++ closeObj :: rest).head?, EndsNumber c := by
  rintro c hc
  cases members with
  | nil =>
    obtain rfl : closeObj = c := by simpa [emitMembers] using hc
    exact endsNumber_closeObj
  | cons m members =>
    obtain rfl : comma = c := by simpa [emitMembers] using hc
    exact endsNumber_comma

section Values

set_option linter.unusedSectionVars false

variable {k : ℕ} (hk : 0 < k) (hdigits : k ≤ L.maxDigits) (hH : H.Faithful)

include hk hdigits hH

mutual

/-- **A written value is read back**, into whatever containers are open. -/
theorem readFrom_emit : ∀ (v : Json) (stack : List Frame) (rest : Text), Readable k v →
    stack.length + depth v ≤ L.maxDepth → (∀ c ∈ rest.head?, EndsNumber c) →
    readFrom L H ⟨.value, stack⟩ (emit v ++ rest) = readFrom L H (deliver v stack) rest
  | .null, _, _ => fun _ _ _ => rfl
  | .bool true, _, _ => fun _ _ _ => rfl
  | .bool false, _, _ => fun _ _ _ => rfl
  | .int n, _, _ => fun h _ hrest => by
    rw [emit]
    exact readFrom_int ((decimal_length_le hk h).trans hdigits) hrest
  | .float _, _, _ => fun h => h.elim
  | .str s, _, _ => fun _ _ _ => by
    rw [emit]
    exact readFrom_string s
  | .arr [], stack, rest => fun _ hdepth _ => by
    have opening : step L H ⟨.value, stack⟩ openArr = .ok ⟨.firstItem, .arr [] :: stack⟩ := by
      have : stack.length < L.maxDepth := by
        simp only [depth] at hdepth
        omega
      simp [step, stepValue, isBlank, openFrame, this, codePoint, Fin.ext_iff]
    rw [emit, List.cons_append, readFrom_cons opening]
    exact readFrom_cons rfl
  | .arr (v :: items), stack, rest => fun h hdepth hrest => by
    simp only [Readable, ReadableItems] at h
    simp only [depth, depthItems] at hdepth
    have opening : step L H ⟨.value, stack⟩ openArr = .ok ⟨.firstItem, .arr [] :: stack⟩ := by
      have : stack.length < L.maxDepth := by omega
      simp [step, stepValue, isBlank, openFrame, this, codePoint, Fin.ext_iff]
    have text : emit (.arr (v :: items)) ++ rest =
        openArr :: (emit v ++ (emitItems items ++ closeArr :: rest)) := by
      simp [emit]
    rw [text, readFrom_cons opening, readFrom_firstItem h.1,
      readFrom_emit v _ _ h.1 (by simp only [List.length_cons]; omega) endsNumber_emitItems]
    exact readFrom_emitItems items [v] stack rest h.2 (by omega)
  | .obj [], stack, rest => fun h hdepth _ => by
    have opening : step L H ⟨.value, stack⟩ openObj = .ok ⟨.firstKey, .obj [] none :: stack⟩ := by
      have : stack.length < L.maxDepth := by
        simp only [depth] at hdepth
        omega
      simp [step, stepValue, isBlank, openFrame, this, codePoint, Fin.ext_iff]
    have closing : step L H ⟨.firstKey, .obj [] none :: stack⟩ closeObj =
        .ok (deliver (.obj []) stack) := by
      simp [step, closeContainer, hooked, hH [] List.nodup_nil, codePoint]
    rw [emit, List.cons_append, readFrom_cons opening]
    exact readFrom_cons closing
  | .obj ((key, v) :: members), stack, rest => fun h hdepth hrest => by
    simp only [Readable, ReadableMembers] at h
    simp only [depth, depthMembers] at hdepth
    obtain ⟨hnodup, hv, hmembers⟩ := h
    have opening : step L H ⟨.value, stack⟩ openObj = .ok ⟨.firstKey, .obj [] none :: stack⟩ := by
      have : stack.length < L.maxDepth := by omega
      simp [step, stepValue, isBlank, openFrame, this, codePoint, Fin.ext_iff]
    have text : emit (.obj ((key, v) :: members)) ++ rest =
        openObj :: (emitString key ++ colon :: (emit v ++ (emitMembers members ++ closeObj :: rest))) := by
      simp [emit]
    rw [text, readFrom_cons opening, readFrom_key key (.inl rfl),
      readFrom_emit v _ _ hv (by simp only [List.length_cons]; omega) endsNumber_emitMembers]
    exact readFrom_emitMembers members [(key, v)] stack rest hnodup hmembers (by omega)

/-- The items after the first, and the closing bracket; `read` are those before, last first. -/
theorem readFrom_emitItems : ∀ (items read : List Json) (stack : List Frame) (rest : Text),
    ReadableItems k items → stack.length + 1 + depthItems items ≤ L.maxDepth →
    readFrom L H ⟨.after, .arr read :: stack⟩ (emitItems items ++ closeArr :: rest) =
      readFrom L H (deliver (.arr (read.reverse ++ items)) stack) rest
  | [], read, stack, rest => fun _ _ => by
    rw [emitItems, List.nil_append, List.append_nil]
    refine readFrom_cons ?_
    simp [step, stepComplete, stepAfter, isBlank, closeContainer, codePoint, Fin.ext_iff]
  | v :: items, read, stack, rest => fun h hdepth => by
    simp only [ReadableItems] at h
    simp only [depthItems] at hdepth
    have next : step L H ⟨.after, .arr read :: stack⟩ comma = .ok ⟨.value, .arr read :: stack⟩ := by
      simp [step, stepComplete, stepAfter, isBlank, codePoint]
    have text : emitItems (v :: items) ++ closeArr :: rest =
        comma :: (emit v ++ (emitItems items ++ closeArr :: rest)) := by
      simp [emitItems]
    rw [text, readFrom_cons next,
      readFrom_emit v _ _ h.1 (by simp only [List.length_cons]; omega) endsNumber_emitItems]
    have tail := readFrom_emitItems items (v :: read) stack rest h.2 (by omega)
    rw [List.reverse_cons, List.append_assoc, List.singleton_append] at tail
    exact tail

/-- The members after the first, and the closing brace; `read` are those before, last first. -/
theorem readFrom_emitMembers : ∀ (members read : List (Text × Json)) (stack : List Frame)
    (rest : Text), ((read.reverse ++ members).map Prod.fst).Nodup → ReadableMembers k members →
    stack.length + 1 + depthMembers members ≤ L.maxDepth →
    readFrom L H ⟨.after, .obj read none :: stack⟩ (emitMembers members ++ closeObj :: rest) =
      readFrom L H (deliver (.obj (read.reverse ++ members)) stack) rest
  | [], read, stack, rest => fun hnodup _ _ => by
    rw [List.append_nil] at hnodup
    rw [emitMembers, List.nil_append, List.append_nil]
    refine readFrom_cons ?_
    simp [step, stepComplete, stepAfter, isBlank, closeContainer, hooked, hH _ hnodup, codePoint,
      Fin.ext_iff]
  | (key, v) :: members, read, stack, rest => fun hnodup h hdepth => by
    simp only [ReadableMembers] at h
    simp only [depthMembers] at hdepth
    have next : step L H ⟨.after, .obj read none :: stack⟩ comma =
        .ok ⟨.key, .obj read none :: stack⟩ := by
      simp [step, stepComplete, stepAfter, isBlank, codePoint]
    have text : emitMembers ((key, v) :: members) ++ closeObj :: rest =
        comma :: (emitString key ++ colon :: (emit v ++ (emitMembers members ++ closeObj :: rest))) := by
      simp [emitMembers]
    rw [text, readFrom_cons next, readFrom_key key (.inr rfl),
      readFrom_emit v _ _ h.1 (by simp only [List.length_cons]; omega) endsNumber_emitMembers]
    have tail := readFrom_emitMembers members ((key, v) :: read) stack rest
      (by simpa using hnodup) h.2 (by omega)
    rw [List.reverse_cons, List.append_assoc, List.singleton_append] at tail
    exact tail

end

/-- **JSON round trip.** -/
theorem loads_emit {v : Json} (h : Readable k v) (hdepth : depth v ≤ L.maxDepth) :
    loads L H (emit v) = .ok v := by
  have nobom : (emit v).head? ≠ some (codePoint 0xFEFF) := by
    obtain ⟨c, t, heq, -, -, hascii⟩ := emit_eq_cons h
    rw [heq, List.head?_cons, ne_eq, Option.some.injEq]
    rintro rfl
    rw [codePoint_val (by omega)] at hascii
    omega
  rw [loads, if_neg nobom]
  have := readFrom_emit hk hdigits hH v [] [] h (by simpa using hdepth) (by simp)
  rw [List.append_nil] at this
  rw [this]
  rfl

end Values

end Read

end Json

end WagmiBench.Lib
