import WagmiBench.Lib.HashChain
import WagmiBench.Lib.JsonCanonical
import WagmiBench.Spec.Canonical

/-!
# Hash chains over stored records

The chain half of `spec/canonical.py`: the genesis and the links of a stream, the builder that links
records one by one, and `verify_chain`, which recomputes every link from stored bytes. A verifier
bound to the builder's head and count accepts the builder's records and links and nothing else.
-/

namespace WagmiBench.Spec

open WagmiBench.Lib WagmiBench.Core

/-- The two chained streams of a bundle. -/
inductive StreamName where
  | events
  | decisions
  deriving DecidableEq, Repr

namespace StreamName

def name : StreamName → String
  | .events => "events"
  | .decisions => "decisions"

def text (stream : StreamName) : Text := txt stream.name

theorem text_injective : Function.Injective text := fun s t h => by
  cases s <;> cases t <;> simp [text, name] at h ⊢

end StreamName

/-- One `chain_link/v1` line of `chain.jsonl`. -/
structure ChainLink where
  schema : Text
  stream : Text
  seq : ℤ
  recordSha256 : Text
  linkSha256 : Text
  deriving DecidableEq, Repr

/-! ## Genesis and links -/

section Links

variable (sha : Sha256) (stream : StreamName)

/-- `chain_genesis` -/
def chainGenesis (runId packContentHash agentManifestSha256 runConfigSha256 : Text) : Py Text := do
  let pack ← requireHash packContentHash "pack_content_hash"
  let agent ← requireHash agentManifestSha256 "agent_manifest_sha256"
  let config ← requireHash runConfigSha256 "run_config_sha256"
  sha.contentHash (.obj [
    (txt "schema", .str (txt "chain_genesis/v1")), (txt "stream", .str stream.text),
    (txt "run_id", .str runId), (txt "pack_content_hash", .str pack),
    (txt "agent_manifest_sha256", .str agent), (txt "run_config_sha256", .str config)])

/-- What a link is the hash of. -/
def linkDocument (seq : ℤ) (recordSha256 prev : Text) : Json :=
  .obj [(txt "schema", .str (txt "chain_link/v1")), (txt "stream", .str stream.text),
    (txt "seq", .int seq), (txt "record_sha256", .str recordSha256), (txt "prev", .str prev)]

/-- `chain_link_value` -/
def chainLinkValue (seq : ℤ) (recordSha256 prev : Text) : Py Text := do
  require (0 ≤ seq) (.canonicalizationError s!"seq must be >= 0, got {seq}")
  let record ← requireHash recordSha256 "record_sha256"
  let prev ← requireHash prev "prev"
  sha.contentHash (linkDocument stream seq record prev)

/-- The link line of a record. -/
def linkEntry (seq : ℕ) (record : Bytes) (link : Text) : ChainLink where
  schema := txt "chain_link/v1"
  stream := stream.text
  seq := seq
  recordSha256 := sha.prefixed record
  linkSha256 := link

end Links

/-! ## The builder -/

/-- `ChainBuilder` -/
structure ChainBuilder where
  stream : StreamName
  genesis : Text
  head : Text
  count : ℕ
  deriving DecidableEq

namespace ChainBuilder

/-- `ChainBuilder(stream, genesis)` -/
def new (stream : StreamName) (genesis : Text) : Py ChainBuilder := do
  let genesis ← requireHash genesis "genesis"
  return ⟨stream, genesis, genesis, 0⟩

variable (sha : Sha256)

/-- `ChainBuilder.append` -/
def append (builder : ChainBuilder) (record : Bytes) : Py (ChainLink × ChainBuilder) := do
  let link ← chainLinkValue sha builder.stream builder.count (sha.prefixed record) builder.head
  return (linkEntry sha builder.stream builder.count record link,
    { builder with head := link, count := builder.count + 1 })

/-- Records appended one after the other. -/
def appendAll (builder : ChainBuilder) : List Bytes → Py (List ChainLink × ChainBuilder)
  | [] => .ok ([], builder)
  | record :: records => do
    let (link, builder) ← builder.append sha record
    let (links, builder) ← appendAll builder records
    return (link :: links, builder)

/-- The links and the builder after a chain of records from `genesis`. -/
def build (stream : StreamName) (genesis : Text) (records : List Bytes) :
    Py (List ChainLink × ChainBuilder) := do
  let builder ← new stream genesis
  builder.appendAll sha records

end ChainBuilder

/-! ## The verifier -/

section Verify

variable (sha : Sha256) (stream : StreamName)

/-- One record and its stored link: what the loop of `verify_chain` checks, giving the link value. -/
def verifyLink (seq : ℕ) (prev : Text) (record : Bytes) (link : ChainLink) : Py Text := do
  let failure := PyError.chainVerificationError stream.name seq
  require (link.schema = txt "chain_link/v1") (failure "bad link schema")
  require (link.stream = stream.text) (failure "link belongs to another stream")
  require (link.seq = seq) (failure s!"link seq is {link.seq}")
  require (link.recordSha256 = sha.prefixed record)
    (failure "record hash mismatch (record tampered or link forged)")
  let expected ← chainLinkValue sha stream seq (sha.prefixed record) prev
  require (link.linkSha256 = expected) (failure "link value mismatch")
  return expected

/-- The loop of `verify_chain`, from record `seq` on. -/
def verifyLinks : ℕ → Text → List (Bytes × ChainLink) → Py Text
  | _, prev, [] => .ok prev
  | seq, prev, (record, link) :: rest => do
    let prev ← verifyLink sha stream seq prev record link
    verifyLinks (seq + 1) prev rest

/-- A check that is made of a value when there is one. -/
def whenGiven {α : Type} (value : Option α) (check : α → Py Unit) : Py Unit :=
  match value with
  | some a => check a
  | none => .ok ()

/-- `verify_chain` -/
def verifyChain (genesis : Text) (records : List Bytes) (links : List ChainLink)
    (expectedHead : Option Text) (expectedCount : Option ℤ) : Py Text := do
  let genesis ← requireHash genesis "genesis"
  whenGiven expectedHead fun head => requireHash head "expected_head" >>= fun _ => .ok ()
  whenGiven expectedCount fun count =>
    require (count = records.length)
      (.chainVerificationError stream.name (min count records.length)
        s!"{records.length} records but sealed stream_head.count is {count}")
  require (links.length = records.length)
    (.chainVerificationError stream.name (min links.length records.length : ℕ)
      s!"{records.length} records but {links.length} chain links")
  let prev ← verifyLinks sha stream 0 genesis (records.zip links)
  whenGiven expectedHead fun head =>
    require (prev = head)
      (.chainVerificationError stream.name (records.length - 1 : ℕ)
        "recomputed head does not match sealed stream_head.head")
  return prev

end Verify

/-! ## Link values -/

theorem IsHash.validUnicode {value : Text} (h : IsHash value) : Json.ValidUnicode value := by
  obtain ⟨-, ⟨rest, rfl⟩, hdigits⟩ := h
  rw [Json.validUnicode_append]
  refine ⟨by decide, fun c hc hs => ?_⟩
  have drop : (HASH_PREFIX ++ rest).drop 7 = rest := List.drop_left' (by decide)
  rw [drop] at hdigits
  unfold isSurrogate at hs
  rcases hdigits c hc with h | h
  · simp only [isDigit, Bool.and_eq_true, decide_eq_true_eq] at h
    omega
  · omega

@[simp] theorem requireHash_eq_ok {value : Text} {what : String} {r : Text} :
    requireHash value what = .ok r ↔ IsHash value ∧ r = value := by
  simp only [requireHash, bind_ok_iff, require_eq_ok, pure_eq_ok, Except.ok.injEq]
  constructor
  · rintro ⟨-, h, rfl⟩
    exact ⟨h, rfl⟩
  · rintro ⟨h, rfl⟩
    exact ⟨(), h, rfl⟩

theorem contentHash_eq_ok {sha : Sha256} {v : Json} {d : Text} :
    sha.contentHash v = .ok d ↔ ∃ b, canonicalBytes v = .ok b ∧ d = sha.prefixed b := by
  rw [Sha256.contentHash, bind_ok_iff]
  simp only [pure_eq_ok, Except.ok.injEq, eq_comm (a := d)]

variable {sha : Sha256} {stream stream' : StreamName}

theorem chainLinkValue_eq_ok {seq : ℤ} {record prev d : Text} :
    chainLinkValue sha stream seq record prev = .ok d ↔ 0 ≤ seq ∧ IsHash record ∧ IsHash prev ∧
      ∃ b, canonicalBytes (linkDocument stream seq record prev) = .ok b ∧ d = sha.prefixed b := by
  simp only [chainLinkValue, bind_ok_iff, require_eq_ok, requireHash_eq_ok, contentHash_eq_ok]
  constructor
  · rintro ⟨-, hseq, _, ⟨hrecord, rfl⟩, _, ⟨hprev, rfl⟩, h⟩
    exact ⟨hseq, hrecord, hprev, h⟩
  · rintro ⟨hseq, hrecord, hprev, h⟩
    exact ⟨(), hseq, _, ⟨hrecord, rfl⟩, _, ⟨hprev, rfl⟩, h⟩

theorem chainLinkValue_isHash {seq : ℤ} {record prev d : Text}
    (h : chainLinkValue sha stream seq record prev = .ok d) : IsHash d := by
  obtain ⟨-, -, -, b, -, rfl⟩ := chainLinkValue_eq_ok.mp h
  exact sha.isHash b

theorem linkDocument_distinct (seq : ℤ) (record prev : Text) :
    (linkDocument stream seq record prev).Distinct := by
  simp [linkDocument, Json.Distinct, Json.NodupKeys, Json.DistinctMembers]

theorem linkDocument_encodable {seq : ℤ} {record prev : Text} :
    (linkDocument stream seq record prev).Encodable ↔
      Json.ValidUnicode stream.text ∧ |seq| ≤ Json.maxSafeInt ∧ Json.ValidUnicode record ∧
        Json.ValidUnicode prev := by
  have literal : Json.ValidUnicode (txt "schema") ∧ Json.ValidUnicode (txt "chain_link/v1") ∧
      Json.ValidUnicode (txt "stream") ∧ Json.ValidUnicode (txt "seq") ∧
      Json.ValidUnicode (txt "record_sha256") ∧ Json.ValidUnicode (txt "prev") := by decide
  simp [linkDocument, Json.Encodable, Json.EncodableMembers, literal]

/-- The bytes of a link document determine what is linked. -/
theorem linkDocument_injective {seq seq' : ℤ} {record record' prev prev' : Text} {b : Bytes}
    (h : canonicalBytes (linkDocument stream seq record prev) = .ok b)
    (h' : canonicalBytes (linkDocument stream' seq' record' prev') = .ok b) :
    stream = stream' ∧ seq = seq' ∧ record = record' ∧ prev = prev' := by
  rw [canonicalBytes_eq_ok] at h h'
  have same := (Json.canonical_eq_iff (Json.canonical_isOk.mp ⟨b, h⟩) (linkDocument_distinct ..)
    (Json.canonical_isOk.mp ⟨b, h'⟩) (linkDocument_distinct ..)).mp (h.trans h'.symm)
  simp only [linkDocument, Json.Same, Json.obj.injEq, exists_eq_left', Json.SameMembers,
    Json.lookup_txt_cons, Json.lookup_nil, String.reduceEq, if_true, if_false, Option.some.injEq,
    Json.str.injEq, Json.int.injEq, and_true] at same
  obtain ⟨-, -, hstream, hseq, hrecord, hprev⟩ := same
  exact ⟨StreamName.text_injective hstream, hseq, hrecord, hprev⟩

/-- The link of a stored record. -/
abbrev linkOf (sha : Sha256) (stream : StreamName) (i : ℕ) (record : Bytes) (prev : Text) : Py Text :=
  chainLinkValue sha stream i (sha.prefixed record) prev

/-- A record is linked as long as its number is a safe integer. -/
theorem linkOf_returns {i : ℕ} {record : Bytes} {prev : Text} (hprev : IsHash prev) :
    Returns (linkOf sha stream i record prev) ↔ i < 2 ^ 53 := by
  have hstream : Json.ValidUnicode stream.text := by cases stream <;> decide
  simp only [Returns, chainLinkValue_eq_ok, canonicalBytes_eq_ok]
  have hsafe : |(i : ℤ)| ≤ Json.maxSafeInt ↔ i < 2 ^ 53 := by
    rw [abs_of_nonneg (by omega), Json.maxSafeInt]
    omega
  constructor
  · rintro ⟨d, -, -, -, b, hb, -⟩
    exact hsafe.mp (linkDocument_encodable.mp (Json.canonical_isOk.mp ⟨b, hb⟩)).2.1
  · intro h
    obtain ⟨b, hb⟩ := Json.canonical_isOk.mpr (linkDocument_encodable.mpr
      ⟨hstream, hsafe.mpr h, (sha.isHash record).validUnicode, hprev.validUnicode⟩)
    exact ⟨_, by omega, sha.isHash record, hprev, b, hb, rfl⟩

/-! ## What the builder appends and the verifier accepts -/

/-- The lines of a chain of records, from record `i` on. -/
def linkEntries (sha : Sha256) (stream : StreamName) : ℕ → List Bytes → List Text → List ChainLink
  | i, record :: records, link :: links =>
    linkEntry sha stream i record link :: linkEntries sha stream (i + 1) records links
  | _, _, _ => []

theorem appendAll_eq_ok {builder builder' : ChainBuilder} {records : List Bytes}
    {entries : List ChainLink} : builder.appendAll sha records = .ok (entries, builder') ↔
      ∃ links, HashChain.links (linkOf sha builder.stream) builder.count builder.head records =
        .ok links ∧ entries = linkEntries sha builder.stream builder.count records links ∧
          builder' = { builder with
            head := HashChain.head builder.head links
            count := builder.count + records.length } := by
  induction records generalizing builder entries with
  | nil =>
    simp only [ChainBuilder.appendAll, HashChain.links, Except.ok.injEq, Prod.mk.injEq,
      exists_eq_left', linkEntries, HashChain.head_nil, List.length_nil, Nat.add_zero,
      eq_comm (b := entries), eq_comm (b := builder')]
  | cons record records ih =>
    simp only [ChainBuilder.appendAll, ChainBuilder.append, bind_ok_iff, pure_eq_ok,
      Except.ok.injEq, Prod.mk.injEq, Prod.exists, HashChain.links_cons_eq_ok]
    constructor
    · rintro ⟨_, _, ⟨link, hlink, rfl, rfl⟩, _, _, h, rfl, rfl⟩
      obtain ⟨links, hlinks, rfl, rfl⟩ := ih.mp h
      refine ⟨link :: links, ⟨link, links, hlink, hlinks, rfl⟩, rfl, ?_⟩
      simp only [HashChain.head_cons, List.length_cons, ChainBuilder.mk.injEq, true_and]
      omega
    · rintro ⟨_, ⟨link, links, hlink, hlinks, rfl⟩, rfl, hbuilder⟩
      refine ⟨_, _, ⟨link, hlink, rfl, rfl⟩, _, _, ih.mpr ⟨links, hlinks, rfl, ?_⟩, rfl, rfl⟩
      rw [hbuilder]
      simp only [HashChain.head_cons, List.length_cons, ChainBuilder.mk.injEq, true_and]
      omega

theorem verifyLink_eq_ok {seq : ℕ} {prev d : Text} {record : Bytes} {link : ChainLink} :
    verifyLink sha stream seq prev record link = .ok d ↔
      linkOf sha stream seq record prev = .ok d ∧ link = linkEntry sha stream seq record d := by
  obtain ⟨schema, linkStream, linkSeq, recordSha, linkSha⟩ := link
  simp only [verifyLink, bind_ok_iff, require_eq_ok, pure_eq_ok, Except.ok.injEq, linkEntry,
    ChainLink.mk.injEq]
  constructor
  · rintro ⟨-, hschema, -, hstream, -, hseq, -, hrecord, _, hlink, -, hvalue, rfl⟩
    exact ⟨hlink, hschema, hstream, hseq, hrecord, hvalue⟩
  · rintro ⟨hlink, hschema, hstream, hseq, hrecord, hvalue⟩
    exact ⟨(), hschema, (), hstream, (), hseq, (), hrecord, _, hlink, (), hvalue, rfl⟩

theorem verifyLinks_eq_ok {seq : ℕ} {prev d : Text} {records : List Bytes}
    {entries : List ChainLink} (hlength : entries.length = records.length) :
    verifyLinks sha stream seq prev (records.zip entries) = .ok d ↔
      ∃ links, HashChain.links (linkOf sha stream) seq prev records = .ok links ∧
        entries = linkEntries sha stream seq records links ∧ d = HashChain.head prev links := by
  induction records generalizing seq prev entries with
  | nil =>
    obtain rfl := List.length_eq_zero_iff.mp hlength
    simp [verifyLinks, HashChain.links, linkEntries, eq_comm]
  | cons record records ih =>
    cases entries with
    | nil => simp at hlength
    | cons entry entries =>
      have hlength : entries.length = records.length := by simpa using hlength
      simp only [List.zip_cons_cons, verifyLinks, bind_ok_iff, verifyLink_eq_ok, ih hlength,
        HashChain.links_cons_eq_ok]
      constructor
      · rintro ⟨link, ⟨hlink, rfl⟩, links, hlinks, rfl, rfl⟩
        exact ⟨link :: links, ⟨link, links, hlink, hlinks, rfl⟩, rfl, by rw [HashChain.head_cons]⟩
      · rintro ⟨_, ⟨link, links, hlink, hlinks, rfl⟩, hentries, rfl⟩
        simp only [linkEntries, List.cons.injEq] at hentries
        obtain ⟨rfl, rfl⟩ := hentries
        exact ⟨link, ⟨hlink, rfl⟩, links, hlinks, rfl, by rw [HashChain.head_cons]⟩

theorem whenGiven_eq_ok {α : Type} {value : Option α} {check : α → Py Unit} {u : Unit} :
    whenGiven value check = .ok u ↔ ∀ a ∈ value, check a = .ok () := by
  cases value <;> simp [whenGiven]

/-- **What `verify_chain` accepts**: exactly the lines of the chain of the records. -/
theorem verifyChain_eq_ok {genesis : Text} {records : List Bytes} {entries : List ChainLink}
    {expectedHead : Option Text} {expectedCount : Option ℤ} {d : Text} :
    verifyChain sha stream genesis records entries expectedHead expectedCount = .ok d ↔
      IsHash genesis ∧ (∀ count ∈ expectedCount, count = records.length) ∧
        ∃ links, HashChain.links (linkOf sha stream) 0 genesis records = .ok links ∧
          entries = linkEntries sha stream 0 records links ∧ d = HashChain.head genesis links ∧
            ∀ head ∈ expectedHead, IsHash head ∧ d = head := by
  have entriesLength : ∀ {i : ℕ} {records : List Bytes} {links : List Text},
      links.length = records.length →
      (linkEntries sha stream i records links).length = records.length := by
    intro i records links h
    induction records generalizing i links with
    | nil => simp [linkEntries]
    | cons record records ih =>
      cases links with
      | nil => simp at h
      | cons link links => simp [linkEntries, ih (by simpa using h)]
  simp only [verifyChain, bind_ok_iff, requireHash_eq_ok, whenGiven_eq_ok, require_eq_ok, pure_eq_ok,
    Except.ok.injEq]
  constructor
  · rintro ⟨_, ⟨hgenesis, rfl⟩, -, hhead, -, hcount, -, hlength, _, hlinks, -, hbound, rfl⟩
    obtain ⟨links, hchain, hentries, rfl⟩ := (verifyLinks_eq_ok hlength).mp hlinks
    refine ⟨hgenesis, hcount, links, hchain, hentries, rfl, fun head hmem => ⟨?_, hbound head hmem⟩⟩
    obtain ⟨_, ⟨h, -⟩, -⟩ := hhead head hmem
    exact h
  · rintro ⟨hgenesis, hcount, links, hchain, hentries, rfl, hbound⟩
    have hlength : entries.length = records.length := by
      rw [hentries, entriesLength (HashChain.links_length hchain)]
    exact ⟨_, ⟨hgenesis, rfl⟩, (), fun head hmem => ⟨_, ⟨(hbound head hmem).1, rfl⟩, trivial⟩, (), hcount,
      (), hlength, _, (verifyLinks_eq_ok hlength).mpr ⟨links, hchain, hentries, rfl⟩, (),
      fun head hmem => (hbound head hmem).2, rfl⟩

/-! ## Binding -/

/-- No two of the given byte strings share a digest. -/
def Sha256.CollisionFree (sha : Sha256) (used : List Bytes) : Prop :=
  ∀ a ∈ used, ∀ b ∈ used, sha.prefixed a = sha.prefixed b → a = b

/-- The byte strings hashed to chain records: each record, and the document of each link. -/
def chainHashed (sha : Sha256) (stream : StreamName) : ℕ → Text → List Bytes → List Bytes
  | _, _, [] => []
  | i, prev, record :: records => record ::
    match canonicalBytes (linkDocument stream i (sha.prefixed record) prev) with
    | .ok b => b :: chainHashed sha stream (i + 1) (sha.prefixed b) records
    | .error _ => []

theorem mem_chainHashed {i : ℕ} {prev : Text} {records : List Bytes} {links : List Text}
    (h : HashChain.links (linkOf sha stream) i prev records = .ok links) {j : ℕ} {record : Bytes}
    {p : Text} (hmem : (j, record, p) ∈ HashChain.inputs i prev records links) :
    record ∈ chainHashed sha stream i prev records ∧
      ∀ b, canonicalBytes (linkDocument stream j (sha.prefixed record) p) = .ok b →
        b ∈ chainHashed sha stream i prev records := by
  induction records generalizing i prev links with
  | nil => simp [HashChain.inputs] at hmem
  | cons first records ih =>
    obtain ⟨link, rest, hlink, hrest, rfl⟩ := HashChain.links_cons_eq_ok.mp h
    obtain ⟨-, -, -, c, hc, rfl⟩ := chainLinkValue_eq_ok.mp hlink
    simp only [chainHashed, hc, List.mem_cons]
    simp only [HashChain.inputs, List.mem_cons, Prod.mk.injEq] at hmem
    rcases hmem with ⟨rfl, rfl, rfl⟩ | hmem
    · exact ⟨.inl rfl, fun b hb => .inr (.inl (Except.ok.inj (hb.symm.trans hc)))⟩
    · obtain ⟨hrecord, hdocument⟩ := ih hrest hmem
      exact ⟨.inr (.inr hrecord), fun b hb => .inr (.inr (hdocument b hb))⟩

/-- Where the hash has no collision, links tell records and what precedes them apart. -/
theorem linkOf_separates {genesis genesis' : Text} {records records' : List Bytes}
    {links links' : List Text}
    (h : HashChain.links (linkOf sha stream) 0 genesis records = .ok links)
    (h' : HashChain.links (linkOf sha stream') 0 genesis' records' = .ok links')
    (free : sha.CollisionFree (chainHashed sha stream 0 genesis records ++
      chainHashed sha stream' 0 genesis' records')) {i : ℕ} {r r' : Bytes} {p p' d : Text}
    (hmem : (i, r, p) ∈ HashChain.inputs 0 genesis records links)
    (hmem' : (i, r', p') ∈ HashChain.inputs 0 genesis' records' links')
    (hd : linkOf sha stream i r p = .ok d) (hd' : linkOf sha stream' i r' p' = .ok d) :
    r = r' ∧ p = p' ∧ stream = stream' := by
  obtain ⟨-, -, -, b, hb, rfl⟩ := chainLinkValue_eq_ok.mp hd
  obtain ⟨-, -, -, b', hb', heq⟩ := chainLinkValue_eq_ok.mp hd'
  obtain ⟨hr, hdoc⟩ := mem_chainHashed h hmem
  obtain ⟨hr', hdoc'⟩ := mem_chainHashed h' hmem'
  obtain rfl := free b (List.mem_append_left _ (hdoc b hb)) b' (List.mem_append_right _ (hdoc' b' hb'))
    heq
  obtain ⟨hstream, -, hrecord, hp⟩ := linkDocument_injective hb hb'
  exact ⟨free r (List.mem_append_left _ hr) r' (List.mem_append_right _ hr') hrecord, hp, hstream⟩

/-- The same head over as many records: the same genesis, records and lines. -/
theorem chain_determined {genesis genesis' : Text} {records records' : List Bytes}
    {links links' : List Text}
    (h : HashChain.links (linkOf sha stream) 0 genesis records = .ok links)
    (h' : HashChain.links (linkOf sha stream') 0 genesis' records' = .ok links')
    (hlength : records.length = records'.length)
    (hhead : HashChain.head genesis links = HashChain.head genesis' links')
    (free : sha.CollisionFree (chainHashed sha stream 0 genesis records ++
      chainHashed sha stream' 0 genesis' records')) :
    genesis = genesis' ∧ records = records' ∧
      linkEntries sha stream 0 records links = linkEntries sha stream' 0 records' links' := by
  obtain ⟨rfl, rfl, rfl⟩ := HashChain.links_injective h h' hlength hhead
    fun i r p r' p' d hmem hmem' hd hd' =>
      (linkOf_separates h h' free hmem hmem' hd hd').imp_right And.left
  refine ⟨rfl, rfl, ?_⟩
  cases records with
  | nil => rfl
  | cons record records =>
    obtain ⟨link, rest, hlink, hrest, rfl⟩ := HashChain.links_cons_eq_ok.mp h
    obtain ⟨link', rest', hlink', -, hcons⟩ := HashChain.links_cons_eq_ok.mp h'
    obtain ⟨rfl, -⟩ := List.cons.inj hcons
    obtain ⟨-, -, rfl⟩ := linkOf_separates h h' free (by simp [HashChain.inputs])
      (by simp [HashChain.inputs]) hlink hlink'
    rfl

theorem build_eq_ok {genesis : Text} {records : List Bytes} {entries : List ChainLink}
    {builder : ChainBuilder} :
    ChainBuilder.build sha stream genesis records = .ok (entries, builder) ↔ IsHash genesis ∧
      ∃ links, HashChain.links (linkOf sha stream) 0 genesis records = .ok links ∧
        entries = linkEntries sha stream 0 records links ∧
          builder = ⟨stream, genesis, HashChain.head genesis links, records.length⟩ := by
  simp only [ChainBuilder.build, ChainBuilder.new, bind_ok_iff, requireHash_eq_ok, pure_eq_ok,
    Except.ok.injEq, appendAll_eq_ok]
  constructor
  · rintro ⟨_, ⟨_, ⟨hgenesis, rfl⟩, rfl⟩, links, hlinks, rfl, rfl⟩
    exact ⟨hgenesis, links, hlinks, rfl, by simp⟩
  · rintro ⟨hgenesis, links, hlinks, rfl, rfl⟩
    exact ⟨_, ⟨_, ⟨hgenesis, rfl⟩, rfl⟩, links, hlinks, rfl, by simp⟩

/-- Records are linked as long as their numbers are safe integers. -/
theorem links_returns {i : ℕ} {prev : Text} {records : List Bytes} (hprev : IsHash prev)
    (hlength : i + records.length ≤ 2 ^ 53) :
    Returns (HashChain.links (linkOf sha stream) i prev records) := by
  induction records generalizing i prev with
  | nil => exact ⟨[], rfl⟩
  | cons record records ih =>
    rw [List.length_cons] at hlength
    refine .bind ((linkOf_returns hprev).mpr (by omega)) fun link hlink => ?_
    exact .bind (ih (chainLinkValue_isHash hlink) (by omega)) fun _ _ => ⟨_, rfl⟩

theorem head_isHash {i : ℕ} {prev : Text} {records : List Bytes} {links : List Text}
    (hprev : IsHash prev) (h : HashChain.links (linkOf sha stream) i prev records = .ok links) :
    IsHash (HashChain.head prev links) := by
  induction records generalizing i prev links with
  | nil =>
    rw [← Except.ok.inj h]
    exact hprev
  | cons record records ih =>
    obtain ⟨link, rest, hlink, hrest, rfl⟩ := HashChain.links_cons_eq_ok.mp h
    rw [HashChain.head_cons]
    exact ih (chainLinkValue_isHash hlink) hrest

/-- **Hash chains bind their records.** From a well-formed genesis the builder links any list of
records whose numbers are safe integers. `verify_chain` accepts the builder's lines and returns its
head; bound to the builder's head and count it accepts, for whatever stream and genesis it is given,
only that genesis, those records in that order and those lines, unless two of the byte strings
hashed share a digest. -/
theorem verifyChain_binds (sha : Sha256) (stream : StreamName) (genesis : Text)
    (hgenesis : IsHash genesis) (records : List Bytes) :
    (records.length ≤ 2 ^ 53 → Returns (ChainBuilder.build sha stream genesis records)) ∧
    ∀ entries builder, ChainBuilder.build sha stream genesis records = .ok (entries, builder) →
      verifyChain sha stream genesis records entries none none = .ok builder.head ∧
      verifyChain sha stream genesis records entries (some builder.head) (some builder.count) =
        .ok builder.head ∧
      ∀ stream' genesis' records' entries',
        sha.CollisionFree (chainHashed sha stream 0 genesis records ++
          chainHashed sha stream' 0 genesis' records') →
        Returns (verifyChain sha stream' genesis' records' entries' (some builder.head)
          (some builder.count)) →
        genesis' = genesis ∧ records' = records ∧ entries' = entries := by
  refine ⟨fun hlength => ?_, fun entries builder hbuild => ?_⟩
  · have returned : Returns (HashChain.links (linkOf sha stream) 0 genesis records) :=
      links_returns hgenesis (by omega)
    obtain ⟨links, hlinks⟩ := returned
    exact ⟨_, build_eq_ok.mpr ⟨hgenesis, links, hlinks, rfl, rfl⟩⟩
  · obtain ⟨-, links, hlinks, rfl, rfl⟩ := build_eq_ok.mp hbuild
    have hhead := head_isHash hgenesis hlinks
    refine ⟨verifyChain_eq_ok.mpr ⟨hgenesis, by simp, links, hlinks, rfl, rfl, by simp⟩,
      verifyChain_eq_ok.mpr ⟨hgenesis, by simp, links, hlinks, rfl, rfl, by simp [hhead]⟩, ?_⟩
    rintro stream' genesis' records' entries' free ⟨d, hd⟩
    obtain ⟨-, hcount, links', hlinks', rfl, rfl, hbound⟩ := verifyChain_eq_ok.mp hd
    have hlength : records.length = records'.length := by
      simpa using hcount _ rfl
    obtain ⟨rfl, rfl, hentries⟩ := chain_determined hlinks hlinks' hlength
      (hbound _ rfl).2.symm free
    exact ⟨rfl, rfl, hentries.symm⟩

/-! ### One chained record -/

namespace Sample

/-- A hash by the table of the digests it is asked for. -/
def tableSha (table : List (Bytes × ℕ)) : Sha256 where
  prefixed b := HASH_PREFIX ++ hex64 (((table.find? fun e => e.1 = b).map Prod.snd).getD 0)
  isHash _ := isHash_hex64 _

/-- The bytes of an empty object, and what they are replaced by: an empty list. -/
abbrev record : Bytes := [0x7B, 0x7D]

abbrev forged : Bytes := [0x5B, 0x5D]

abbrev genesis : Text := HASH_PREFIX ++
  hex64 0xaeebad4a796fcc2e15dc4c6061b45ed9b373f26adfc798ca7d2d8cc58182718e

abbrev recordDigest : ℕ := 0x44136fa355b3678a1146ad16f7e8649e94fb4fc21fe77e8310c060f61caaff8a

abbrev forgedDigest : ℕ := 0x4f53cda18c2baa0c0354bb5f9a3ecbe5ed12ab4d8e11ba873c2f11161202b945

abbrev linkDigest : ℕ := 0xcc5256b2f10aba3cfcbf0636fb8ac780923e4bf2101cea659adea3226bbe425c

def linkBytes (digest : ℕ) : Bytes :=
  ((linkDocument .events 0 (HASH_PREFIX ++ hex64 digest) genesis).canonical.toOption).getD []

/-- SHA-256 on the four byte strings hashed. -/
def sampleSha : Sha256 := tableSha [(record, recordDigest), (forged, forgedDigest),
  (linkBytes recordDigest, linkDigest),
  (linkBytes forgedDigest, 0x8264f0ef38a88f7505cf51e79c776151d74fd225dff8de4923228ccac8dc6264)]

abbrev head : Text := HASH_PREFIX ++ hex64 linkDigest

def entry : ChainLink :=
  ⟨txt "chain_link/v1", txt "events", 0, HASH_PREFIX ++ hex64 recordDigest, head⟩

end Sample

/-- The chain of one record verifies, and does not with the record replaced. -/
theorem sample_chain_binds :
    verifyChain Sample.sampleSha .events Sample.genesis [Sample.record] [Sample.entry] (some Sample.head)
        (some 1) = .ok Sample.head ∧
      ¬ Returns (verifyChain Sample.sampleSha .events Sample.genesis [Sample.forged] [Sample.entry]
        (some Sample.head) (some 1)) := by
  have binds := verifyChain_binds Sample.sampleSha .events Sample.genesis (isHash_hex64 _) [Sample.record]
  have built := binds.2 [Sample.entry] ⟨.events, Sample.genesis, Sample.head, 1⟩ (by decide +kernel)
  refine ⟨built.2.1, fun returned => ?_⟩
  obtain ⟨-, hrecords, -⟩ := built.2.2 .events Sample.genesis [Sample.forged] [Sample.entry]
    (by unfold Sha256.CollisionFree; decide +kernel) returned
  exact absurd hrecords (by decide)

end WagmiBench.Spec
