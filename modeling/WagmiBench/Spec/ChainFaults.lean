import WagmiBench.Lib.Raises
import WagmiBench.Spec.Chain

/-!
# Which entry a chain verifier names

`verify_chain` compares the lengths before it looks at any entry, and reports where the shorter one
ends. The entry it names is the first one at fault as long as the lengths agree; where they do not, it
is exactly when nothing before the reported position was touched.
-/

namespace WagmiBench.Spec

open WagmiBench.Lib WagmiBench.Core

section Faults

variable (sha : Sha256) (stream : StreamName) (genesis : Text) (records : List Bytes)
  (links : List ChainLink) (expectedHead : Option Text) (expectedCount : Option ℤ)

/-- The lengths of a stream agree: one link for each record, and the count of the seal. -/
def LengthsAgree : Prop :=
  links.length = records.length ∧ ∀ count ∈ expectedCount, count = records.length

/-- Some check fails on entry `k` itself, or on the stream that ends there. -/
inductive FaultAt (k : ℕ) : Prop
  /-- The entry does not follow from the verified ones before it. -/
  | entry {record : Bytes} {link : ChainLink} {prev : Text} : records[k]? = some record →
      links[k]? = some link →
      verifyChain sha stream genesis (records.take k) (links.take k) none none = .ok prev →
      ¬ Returns (verifyLink sha stream k prev record link) → FaultAt k
  /-- The records, the links or the sealed count end here, and not all of them do. -/
  | length : k = records.length ∨ k = links.length ∨ expectedCount = some (k : ℤ) →
      ¬ LengthsAgree records links expectedCount → FaultAt k
  /-- The stream ends with this entry, in another head than the sealed one. -/
  | head {head recomputed : Text} : records.length ≤ k + 1 → expectedHead = some head →
      verifyChain sha stream genesis records links none none = .ok recomputed →
      recomputed ≠ head → FaultAt k

/-- `seq` is the first offending entry: the ones before it verify as a prefix, and it does not. -/
def NamesFirst (seq : ℤ) : Prop :=
  ∃ k : ℕ, seq = k ∧
    Returns (verifyChain sha stream genesis (records.take k) (links.take k) none none) ∧
    FaultAt sha stream genesis records links expectedHead expectedCount k

/-- The position that the comparison of the lengths reports, the sealed count first. -/
def LengthFault (seq : ℤ) : Prop :=
  (∃ count, expectedCount = some count ∧ count ≠ records.length ∧
      seq = min count records.length) ∨
    ((∀ count ∈ expectedCount, count = records.length) ∧ links.length ≠ records.length ∧
      seq = (min links.length records.length : ℕ))

/-- The first `k` links are those that a builder makes of the first `k` records. -/
def UntouchedBelow (k : ℕ) : Prop :=
  ∃ builder, ChainBuilder.build sha stream genesis (records.take k) = .ok (links.take k, builder)

end Faults

section Verify

variable {sha : Sha256} {stream : StreamName} {genesis : Text} {records : List Bytes}
  {links : List ChainLink} {expectedHead : Option Text} {expectedCount : Option ℤ}

/-- A prefix verifies where a builder would have linked it the same way. -/
theorem verifyChain_prefix_iff {k : ℕ} :
    Returns (verifyChain sha stream genesis (records.take k) (links.take k) none none) ↔
      UntouchedBelow sha stream genesis records links k := by
  simp only [Returns, UntouchedBelow, verifyChain_eq_ok, build_eq_ok]
  constructor
  · rintro ⟨d, hgenesis, -, values, hvalues, hlinks, -⟩
    exact ⟨_, hgenesis, values, hvalues, hlinks, rfl⟩
  · rintro ⟨builder, hgenesis, values, hvalues, hlinks, -⟩
    exact ⟨_, hgenesis, by simp, values, hvalues, hlinks, rfl, by simp⟩

/-! ## What is raised -/

theorem requireHash_ne_chainVerificationError {value : Text} {what name reason : String} {s : ℤ} :
    requireHash value what ≠ .error (.chainVerificationError name s reason) := by
  simp [requireHash, bind_error_iff, require_eq_error, pure_eq_ok]

/-- No link value is refused as a break of the chain. -/
theorem chainLinkValue_ne_chainVerificationError {seq s : ℤ} {record prev : Text}
    {name reason : String} :
    chainLinkValue sha stream seq record prev ≠ .error (.chainVerificationError name s reason) := by
  have content : ∀ v : Json, sha.contentHash v ≠ .error (.chainVerificationError name s reason) :=
    fun v => by
      unfold Sha256.contentHash canonicalBytes
      cases v.canonical <;> simp [pure_eq_ok]
  simp [chainLinkValue, bind_error_iff, require_eq_error, requireHash_ne_chainVerificationError,
    content]

/-- The check of one entry names that entry. -/
theorem verifyLink_seq {seq : ℕ} {prev : Text} {record : Bytes} {link : ChainLink} {s : ℤ}
    {name reason : String} (h : verifyLink sha stream seq prev record link =
      .error (.chainVerificationError name s reason)) : s = seq := by
  simp only [verifyLink, bind_error_iff, require_eq_error, PyError.chainVerificationError.injEq,
    chainLinkValue_ne_chainVerificationError, false_or, pure_ne_error, and_false, exists_false,
    or_false] at h
  grind

/-- The loop names the first entry that does not follow from the ones before it. -/
theorem verifyLinks_names_first {seq : ℕ} {prev : Text} {pairs : List (Bytes × ChainLink)} {s : ℤ}
    {name reason : String} (h : verifyLinks sha stream seq prev pairs =
      .error (.chainVerificationError name s reason)) :
    ∃ (k : ℕ) (record : Bytes) (link : ChainLink) (d : Text), s = (seq + k : ℕ) ∧
      pairs[k]? = some (record, link) ∧ verifyLinks sha stream seq prev (pairs.take k) = .ok d ∧
      ¬ Returns (verifyLink sha stream (seq + k) d record link) := by
  induction pairs generalizing seq prev with
  | nil => cases h
  | cons pair pairs ih =>
    obtain ⟨record, link⟩ := pair
    rcases bind_error_iff.mp h with hhere | ⟨d, hd, hlater⟩
    · refine ⟨0, record, link, prev, verifyLink_seq hhere, rfl, rfl, ?_⟩
      rw [Nat.add_zero, hhere]
      exact not_returns_error _
    · obtain ⟨k, record', link', d', hs, hk, htake, hfault⟩ := ih hlater
      refine ⟨k + 1, record', link', d', by rw [hs]; congr 1; omega, hk, ?_, ?_⟩
      · rw [List.take_succ_cons]
        exact bind_ok_iff.mpr ⟨d, hd, htake⟩
      · rwa [show seq + (k + 1) = seq + 1 + k by omega]

/-- Of a verified chain every prefix is. -/
theorem verifyLinks_take {seq : ℕ} {prev d : Text} {pairs : List (Bytes × ChainLink)} (k : ℕ)
    (h : verifyLinks sha stream seq prev pairs = .ok d) :
    Returns (verifyLinks sha stream seq prev (pairs.take k)) := by
  induction pairs generalizing seq prev k with
  | nil => exact ⟨d, by rwa [List.take_nil]⟩
  | cons pair pairs ih =>
    obtain ⟨record, link⟩ := pair
    obtain ⟨d', hd, hrest⟩ := bind_ok_iff.mp h
    cases k with
    | zero => exact ⟨prev, rfl⟩
    | succ k =>
      obtain ⟨d'', hd''⟩ := ih k hrest
      exact ⟨d'', bind_ok_iff.mpr ⟨d', hd, hd''⟩⟩

/-- Verified entries before entry `k` are a verified prefix. -/
theorem verifyChain_take {k : ℕ} {d : Text} (hgenesis : IsHash genesis)
    (hrecords : k ≤ records.length) (hlinks : k ≤ links.length)
    (h : verifyLinks sha stream 0 genesis ((records.zip links).take k) = .ok d) :
    verifyChain sha stream genesis (records.take k) (links.take k) none none = .ok d := by
  rw [List.zip_eq_zipWith, List.take_zipWith, ← List.zip_eq_zipWith] at h
  simp only [verifyChain, whenGiven, bind_ok_iff, requireHash_eq_ok, require_eq_ok, pure_eq_ok,
    Except.ok.injEq]
  exact ⟨_, ⟨hgenesis, rfl⟩, (), trivial, (), trivial, (), by simp [hrecords, hlinks], d, h, (),
    trivial, rfl⟩

theorem whenGiven_eq_error {α : Type} {value : Option α} {check : α → Py Unit} {e : PyError} :
    whenGiven value check = .error e ↔ ∃ a ∈ value, check a = .error e := by
  cases value <;> simp [whenGiven]

/-- **What `verify_chain` raises as a break of the chain**: the lengths do not agree, or an entry does
not follow from the verified ones before it, or the stream ends in another head. -/
theorem verifyChain_raises {seq : ℤ} {reason : String}
    (h : verifyChain sha stream genesis records links expectedHead expectedCount =
      .error (.chainVerificationError stream.name seq reason)) :
    IsHash genesis ∧ (∀ head ∈ expectedHead, IsHash head) ∧
      (LengthFault records links expectedCount seq ∨
        NamesFirst sha stream genesis records links expectedHead expectedCount seq) := by
  simp only [verifyChain, bind_error_iff, requireHash_ne_chainVerificationError, false_or,
    requireHash_eq_ok, whenGiven_eq_error, whenGiven_eq_ok, require_eq_error, require_eq_ok,
    PyError.chainVerificationError.injEq, true_and, pure_ne_error, and_false, exists_false,
    or_false, bind_ok_iff] at h
  obtain ⟨_, ⟨hgenesis, hsame⟩, h⟩ := h
  rw [hsame] at h
  obtain ⟨head, -, _, _, hok⟩ | ⟨-, hhead, h⟩ := h
  · cases hok
  have hheads : ∀ head ∈ expectedHead, IsHash head := fun head hmem => by
    obtain ⟨_, ⟨hhash, -⟩, -⟩ := hhead head hmem
    exact hhash
  refine ⟨hgenesis, hheads, ?_⟩
  obtain ⟨count, hcount, hne, rfl, -⟩ | ⟨-, hcount, h⟩ := h
  · exact .inl (.inl ⟨count, hcount, hne, rfl⟩)
  obtain ⟨hne, rfl, -⟩ | ⟨-, hlength, h⟩ := h
  · exact .inl (.inr ⟨hcount, hne, rfl⟩)
  obtain hloop | ⟨d, hloop, head, hmem, hne, rfl, -⟩ := h
  · obtain ⟨k, record, link, d, rfl, hk, htake, hfault⟩ := verifyLinks_names_first hloop
    obtain ⟨hrecord, hlink⟩ := List.getElem?_zip_eq_some.mp hk
    have hklinks := (List.getElem?_eq_some_iff.mp hlink).1
    have hprefix := verifyChain_take hgenesis (List.getElem?_eq_some_iff.mp hrecord).1.le hklinks.le
      htake
    simp only [Nat.zero_add] at hfault ⊢
    exact .inr ⟨k, rfl, ⟨d, hprefix⟩, .entry hrecord hlink hprefix hfault⟩
  · have hwhole : verifyChain sha stream genesis records links none none = .ok d := by
      have := verifyChain_take hgenesis le_rfl hlength.ge (by
        rwa [List.take_of_length_le (by rw [List.length_zip]; exact min_le_left _ _)])
      rwa [List.take_length, ← hlength, List.take_length] at this
    obtain ⟨d', hbefore⟩ := verifyLinks_take (records.length - 1) hloop
    have hprefix := verifyChain_take hgenesis (Nat.sub_le _ _) (by omega) hbefore
    exact .inr ⟨records.length - 1, rfl, ⟨d', hprefix⟩, .head (by omega) hmem hwhole hne⟩

/-- Where the lengths do not agree, the shorter end is what is raised. -/
theorem verifyChain_lengthFault {seq : ℤ} (hgenesis : IsHash genesis)
    (hhead : ∀ head ∈ expectedHead, IsHash head) (h : LengthFault records links expectedCount seq) :
    ∃ reason, verifyChain sha stream genesis records links expectedHead expectedCount =
      .error (.chainVerificationError stream.name seq reason) := by
  have hheads : whenGiven expectedHead (fun head =>
      requireHash head "expected_head" >>= fun _ => .ok ()) = .ok () :=
    whenGiven_eq_ok.mpr fun head hmem =>
      bind_ok_iff.mpr ⟨head, requireHash_eq_ok.mpr ⟨hhead head hmem, rfl⟩, rfl⟩
  simp only [verifyChain, requireHash_eq_ok.mpr ⟨hgenesis, rfl⟩, ok_bind, hheads]
  obtain ⟨count, rfl, hne, rfl⟩ | ⟨hcount, hne, rfl⟩ := h
  · simp only [whenGiven, require_neg hne, raise_bind]
    exact ⟨_, rfl⟩
  · cases expectedCount with
    | none =>
      simp only [whenGiven, ok_bind, require_neg hne, raise_bind]
      exact ⟨_, rfl⟩
    | some count =>
      simp only [whenGiven, require_pos (hcount count rfl), ok_bind, require_neg hne, raise_bind]
      exact ⟨_, rfl⟩

/-- The position of a comparison of the lengths is where one of them ends. -/
theorem LengthFault.faultAt {k : ℕ} (h : LengthFault records links expectedCount k) :
    FaultAt sha stream genesis records links expectedHead expectedCount k := by
  obtain ⟨count, rfl, hne, hk⟩ | ⟨hcount, hne, hk⟩ := h
  · refine .length ?_ fun hagree => hne (hagree.2 count rfl)
    rcases le_total count records.length with hle | hle
    · exact .inr (.inr (by rw [hk, min_eq_left hle]))
    · exact .inl (by rw [min_eq_right hle] at hk; exact_mod_cast hk)
  · refine .length ?_ fun hagree => hne hagree.1
    have hk : k = min links.length records.length := by exact_mod_cast hk
    rcases le_total links.length records.length with hle | hle
    · exact .inr (.inl (by rw [hk, min_eq_left hle]))
    · exact .inl (by rw [hk, min_eq_right hle])

/-- **The entry that is named.** Whatever break of the chain `verify_chain` raises names the first
offending entry, exactly when the lengths agree or else nothing before the reported end was touched:
there the first links are those a builder makes of the first records. -/
theorem verifyChain_names_first_iff (sha : Sha256) (stream : StreamName) (genesis : Text)
    (records : List Bytes) (links : List ChainLink) (expectedHead : Option Text)
    (expectedCount : Option ℤ) :
    (∀ seq reason, verifyChain sha stream genesis records links expectedHead expectedCount =
        .error (.chainVerificationError stream.name seq reason) →
      NamesFirst sha stream genesis records links expectedHead expectedCount seq) ↔
    (IsHash genesis → (∀ head ∈ expectedHead, IsHash head) →
      ∀ seq, LengthFault records links expectedCount seq →
        ∃ k : ℕ, seq = k ∧ UntouchedBelow sha stream genesis records links k) := by
  constructor
  · intro names hgenesis hhead seq hfault
    obtain ⟨reason, hraised⟩ := verifyChain_lengthFault hgenesis hhead hfault
    obtain ⟨k, hk, hprefix, -⟩ := names seq reason hraised
    exact ⟨k, hk, verifyChain_prefix_iff.mp hprefix⟩
  · intro untouched seq reason hraised
    obtain ⟨hgenesis, hhead, hfault | hnames⟩ := verifyChain_raises hraised
    · obtain ⟨k, rfl, hbelow⟩ := untouched hgenesis hhead seq hfault
      exact ⟨k, rfl, verifyChain_prefix_iff.mpr hbelow, hfault.faultAt⟩
    · exact hnames

end Verify

/-- A forged first record whose stream also lost its last link: the second entry is named. -/
theorem forged_record_unnamed :
    (∃ reason, verifyChain Sample.sampleSha .events Sample.genesis [Sample.forged, Sample.record]
        [Sample.entry] none none = .error (.chainVerificationError "events" 1 reason)) ∧
      ¬ NamesFirst Sample.sampleSha .events Sample.genesis [Sample.forged, Sample.record]
        [Sample.entry] none none 1 := by
  refine ⟨⟨_, rfl⟩, ?_⟩
  rintro ⟨k, hk, hprefix, -⟩
  obtain rfl : k = 1 := by omega
  exact absurd hprefix (by decide +kernel)

end WagmiBench.Spec
