import WagmiBench.Recorder.Streams

/-!
# Names of numbered files

The files of a folder are named by numbers of four digits, and `sorted` puts them in the order of
the numbers.
-/

namespace WagmiBench.Recorder

open WagmiBench.Lib WagmiBench.Core

/-! ## Numbers of one width -/

theorem foldl_ofDecimal (t : Text) (a : ℕ) :
    t.foldl (fun a c => 10 * a + (c.val - 0x30)) a = a * 10 ^ t.length + ofDecimal t := by
  induction t generalizing a with
  | nil => simp [ofDecimal]
  | cons c t ih =>
    have hdef : ofDecimal (c :: t) =
        t.foldl (fun a c => 10 * a + (c.val - 0x30)) (10 * 0 + (c.val - 0x30)) := rfl
    rw [List.foldl_cons, ih, hdef, ih, List.length_cons, pow_succ]
    ring

theorem ofDecimal_cons (c : CodePoint) (t : Text) :
    ofDecimal (c :: t) = (c.val - 0x30) * 10 ^ t.length + ofDecimal t := by
  rw [ofDecimal, List.foldl_cons, foldl_ofDecimal]
  simp

theorem ofDecimal_lt {t : Text} (h : t.all isDigit = true) : ofDecimal t < 10 ^ t.length := by
  induction t with
  | nil => simp [ofDecimal]
  | cons c t ih =>
    simp only [List.all_cons, Bool.and_eq_true] at h
    have hc : c.val - 0x30 ≤ 9 := by
      have := h.1
      simp only [isDigit, Bool.and_eq_true, decide_eq_true_eq] at this
      omega
    have := Nat.mul_le_mul_right (10 ^ t.length) hc
    have := ih h.2
    rw [ofDecimal_cons, List.length_cons, pow_succ]
    omega

/-- Digit strings of one length are in the order of their numbers. -/
theorem textLe_of_ofDecimal_le {s t suffix : Text} (hs : s.all isDigit = true)
    (ht : t.all isDigit = true) (hlength : s.length = t.length) (h : ofDecimal s ≤ ofDecimal t) :
    textLe (s ++ suffix) (t ++ suffix) = true := by
  induction s generalizing t with
  | nil =>
    obtain rfl := List.length_eq_zero_iff.mp hlength.symm
    exact textLe_iff.mpr le_rfl
  | cons c s ih =>
    cases t with
    | nil => simp at hlength
    | cons d t =>
      simp only [List.all_cons, Bool.and_eq_true] at hs ht
      have hst : s.length = t.length := by simpa using hlength
      rw [ofDecimal_cons, ofDecimal_cons, hst] at h
      have hc := hs.1
      have hd := ht.1
      simp only [isDigit, Bool.and_eq_true, decide_eq_true_eq] at hc hd
      rcases lt_trichotomy c.val d.val with hlt | heq | hgt
      · simp [textLe, Fin.lt_def, hlt]
      · obtain rfl := Fin.ext heq
        simp [textLe, ih hs.2 ht.2 hst (by omega)]
      · -- the first digit decides
        have hstep : (d.val - 0x30 + 1) * 10 ^ t.length ≤ (c.val - 0x30) * 10 ^ t.length :=
          Nat.mul_le_mul_right _ (by omega)
        have := ofDecimal_lt ht.2
        rw [Nat.add_mul] at hstep
        omega

/-! ## Names -/

section Names

variable {turn : ℕ} (h : turn < 10_000)

include h in
theorem decimalPad_length : (decimalPad 4 turn).length = 4 := by
  have : (decimal turn).length ≤ 4 := by
    rw [decimal, List.length_map]
    exact (Nat.length_toDigits_le_iff (by omega) (by omega)).mpr (by omega)
  simp [decimalPad]
  omega

theorem decimalPad_digits (turn : ℕ) : (decimalPad 4 turn).all isDigit = true := by
  rw [List.all_eq_true]
  intro c hc
  rcases List.mem_append.mp hc with hc | hc
  · rw [(List.mem_replicate.mp hc).2]
    decide
  · exact isDigit_of_mem_decimal hc

theorem ofDecimal_decimalPad (turn : ℕ) : ofDecimal (decimalPad 4 turn) = turn := by
  rw [decimalPad, ofDecimal_append_zeros, ofDecimal_decimal]

include h in
/-- A name is matched with its number. -/
theorem matchDecisionName_turnName : matchDecisionName (turnName turn) = some turn := by
  have hlength := decimalPad_length h
  have htake : (turnName turn).take 4 = decimalPad 4 turn := by
    exact List.take_left' hlength
  have hdrop : (turnName turn).drop 4 = txt ".json" := by
    exact List.drop_left' hlength
  have hall : (turnName turn).length = 9 := by
    rw [turnName, List.length_append, hlength]
    rfl
  rw [matchDecisionName, if_pos ⟨hall, by rw [htake, decimalPad_digits], hdrop⟩, htake,
    ofDecimal_decimalPad]

/-- A numbered file is no hidden one. -/
theorem isDotName_turnName (turn : ℕ) : isDotName (turnName turn) = false := by
  obtain ⟨c, t, hct⟩ := List.exists_cons_of_ne_nil (l := decimalPad 4 turn)
    (List.append_ne_nil_of_right_ne_nil _ (decimal_ne_nil turn))
  have hc : isDigit c = true := by
    have := decimalPad_digits turn
    rw [hct, List.all_cons, Bool.and_eq_true] at this
    exact this.1
  unfold isDotName turnName
  rw [hct, List.cons_append, List.head?_cons, beq_eq_false_iff_ne]
  intro heq
  rw [Option.some.inj heq] at hc
  exact absurd hc (by decide)

theorem turnName_injective : Function.Injective turnName := fun _ _ h =>
  decimalPad_injective 4 (List.append_left_injective _ h)

theorem textLe_turnName {turn other : ℕ} (h : turn ≤ other) (hother : other < 10_000) :
    textLe (turnName turn) (turnName other) = true := by
  refine textLe_of_ofDecimal_le (decimalPad_digits turn) (decimalPad_digits other) ?_ ?_
  · rw [decimalPad_length (h.trans_lt hother), decimalPad_length hother]
  · rwa [ofDecimal_decimalPad, ofDecimal_decimalPad]

end Names

/-- Files named by their numbers. -/
def numberedFiles (records : List Bytes) : List (Text × Bytes) :=
  records.zipIdx.map fun record => (turnName record.2, record.1)

@[simp] theorem numberedFiles_concat (records : List Bytes) (record : Bytes) :
    numberedFiles (records ++ [record]) =
      numberedFiles records ++ [(turnName records.length, record)] := by
  simp [numberedFiles, List.zipIdx_append]

@[simp] theorem map_snd_numberedFiles (records : List Bytes) :
    (numberedFiles records).map Prod.snd = records := by
  simp [numberedFiles, Function.comp_def]

theorem getElem?_numberedFiles {records : List Bytes} {i : ℕ} {file : Text × Bytes}
    (h : (numberedFiles records)[i]? = some file) :
    file.1 = turnName i ∧ records[i]? = some file.2 := by
  simp only [numberedFiles, List.getElem?_map, List.getElem?_zipIdx, Option.map_eq_some_iff] at h
  obtain ⟨_, ⟨record, hrecord, rfl⟩, rfl⟩ := h
  exact ⟨by simp, hrecord⟩

/-- Numbered files are sorted as they are. -/
theorem sorted_numberedFiles {records : List Bytes} (h : records.length ≤ 10_000) :
    (numberedFiles records).insertionSort (fun a b => textLe a.1 b.1 = true) =
      numberedFiles records := by
  refine List.Pairwise.insertionSort_eq (List.pairwise_iff_getElem.mpr fun i j hi hj hij => ?_)
  have hlength : (numberedFiles records).length = records.length := by simp [numberedFiles]
  rw [(getElem?_numberedFiles (List.getElem?_eq_getElem hi)).1,
    (getElem?_numberedFiles (List.getElem?_eq_getElem hj)).1]
  exact textLe_turnName hij.le (by omega)

end WagmiBench.Recorder
