import WagmiBench.Recorder.Committed

/-!
# What the reader has accepted

Whatever wrote them, the records that an unsealed bundle commits to are the canonical texts of valid
documents with their numbers, and the links are their chain. So a copy of the links binds the
records: a bundle whose links go on from the copy commits to the same records, and to more.
-/

namespace WagmiBench.Recorder

open WagmiBench.Lib WagmiBench.Core WagmiBench.Spec

/-! ## Records -/

section Records

variable {limits : Json.Limits} {validator : Validator} {line : Bytes} {members : Members}

theorem strictJson_of_decodeJson {path : Text} {value : Json}
    (h : decodeJson limits line path = .ok value) : strictJson limits line = some value := by
  unfold decodeJson at h
  unfold strictJson
  split at h
  · simp [fail] at h
  · rename_i text htext
    rw [htext, Option.bind_some, toOption_eq_some]
    split at h
    · rename_i value' hvalue
      rw [hvalue, Except.ok.inj h]
    · cases h
    · simp [fail] at h

theorem object_eq_ok {value : Json} {path : Text} (h : object value path = .ok members) :
    value = .obj members := by
  unfold object at h
  split at h
  · rw [Except.ok.inj h]
  · simp [fail] at h

theorem validateInstance_eq_ok {value : Json} {context : Text}
    (h : validateInstance validator value context = .ok ()) : validator.problem value = none := by
  unfold validateInstance at h
  split at h
  · cases h
  · assumption

theorem checkStored_eq_ok {members' : Members} {context cannot notCanonical : Text}
    {refuse : Text → Checked Members} (hrefuse : ∀ message, refuse message ≠ .ok members)
    (h : checkStored line (some validator) context cannot notCanonical refuse members' =
      .ok members) :
    members' = members ∧ (Json.obj members).canonical = .ok line ∧
      validator.problem (.obj members) = none := by
  unfold checkStored at h
  split at h
  · exact absurd h (hrefuse _)
  · rename_i expected hexpected
    split at h
    · exact absurd h (hrefuse _)
    · rename_i hcanonical
      split at h
      · rename_i hvalid
        obtain rfl := Except.ok.inj h
        exact ⟨rfl, not_not.mp hcanonical ▸ hexpected, validateInstance_eq_ok hvalid⟩
      · exact absurd h (hrefuse _)

/-- A line that was read. -/
theorem readLine_eq_ok {relative : Text} {stream : Option StreamName} {index : ℕ}
    (h : readLine limits relative (some validator) stream line index = .ok members) :
    Stored limits line members ∧ validator.problem (.obj members) = none := by
  unfold readLine at h
  by_cases hblank : line = []
  · simp [hblank] at h
  · rw [if_neg hblank] at h
    obtain ⟨value, hvalue, h⟩ := bind_ok_iff.mp h
    obtain ⟨members', hobject, h⟩ := bind_ok_iff.mp h
    obtain ⟨rfl, hcanonical, hvalid⟩ := checkStored_eq_ok (by simp) h
    rw [object_eq_ok hobject] at hvalue
    exact ⟨⟨strictJson_of_decodeJson hvalue, hcanonical⟩, hvalid⟩

/-- A document that was read. -/
theorem readDocument_eq_ok {relative : Text}
    (h : readDocument limits relative validator line = .ok members) :
    Stored limits line members ∧ validator.problem (.obj members) = none := by
  unfold readDocument at h
  by_cases hnewline : line.getLast? = some newline
  · simp [hnewline] at h
  · rw [if_neg hnewline] at h
    obtain ⟨value, hvalue, h⟩ := bind_ok_iff.mp h
    obtain ⟨members', hobject, h⟩ := bind_ok_iff.mp h
    obtain ⟨rfl, hcanonical, hvalid⟩ := checkStored_eq_ok (by simp) h
    rw [object_eq_ok hobject] at hvalue
    exact ⟨⟨strictJson_of_decodeJson hvalue, hcanonical⟩, hvalid⟩

/-- A file of lines that was read. -/
theorem readJsonl_eq_ok {relative : Text} {schema : Option Validator} {stream : Option StreamName}
    {isSealed : Bool} {raw : Option Bytes} {read : JsonlRead}
    (h : readJsonl limits relative schema stream raw isSealed = .ok read) :
    ∃ bytes, raw = some bytes ∧ read.records = (bytes.splitOn newline).dropLast ∧
      (read.records.zipIdx.mapM fun (line, index) =>
        readLine limits relative schema stream line index) = .ok read.objects := by
  unfold readJsonl at h
  cases raw with
  | none => simp at h
  | some bytes =>
    dsimp only at h
    by_cases hopen : isSealed = true ∧ (bytes.splitOn newline).getLastD [] ≠ []
    · rw [if_pos hopen] at h
      simp at h
    · rw [if_neg hopen] at h
      obtain ⟨objects, hobjects, h⟩ := bind_ok_iff.mp h
      obtain rfl := Except.ok.inj h
      exact ⟨bytes, rfl, rfl, hobjects⟩

/-- Lines in the order of their numbers. -/
theorem numbered_of_readJsonl {relative : Text} {stream : Option StreamName} {raw : Option Bytes}
    {isSealed : Bool} {read : JsonlRead}
    (h : readJsonl limits relative (some validator) stream raw isSealed = .ok read)
    (hseq : (read.objects.zipIdx.forM fun (event, index) => Verifier.checkSeq event index) =
      .ok ⟨⟩) :
    Numbered limits validator "seq" read.records := by
  obtain ⟨bytes, -, -, hobjects⟩ := readJsonl_eq_ok h
  intro i line hi
  obtain ⟨members, hmembers, hline⟩ := mapM_zipIdx_round hobjects hi
  obtain ⟨hstored, hvalid⟩ := readLine_eq_ok hline
  have hnumber := (forM_zipIdx_eq_ok 0).mp hseq _ _ hmembers
  refine ⟨members, hstored, hvalid, ?_⟩
  rw [zero_add] at hnumber
  unfold Verifier.checkSeq at hnumber
  dsimp only at hnumber
  split at hnumber
  · assumption
  · simp at hnumber

/-- Decisions in the order of their numbers. -/
theorem numbered_of_readDecisions {files : List (Text × Bytes)} {decisions : List Members}
    {isSealed : Bool} {records : List Bytes}
    (h : readDecisions limits validator isSealed files = .ok (decisions, records)) :
    Numbered limits validator "turn" records := by
  unfold readDecisions at h
  obtain ⟨objects, hobjects, h⟩ := bind_ok_iff.mp h
  obtain ⟨rfl, rfl⟩ := Prod.mk.inj (Except.ok.inj h)
  intro i line hi
  rw [List.getElem?_map] at hi
  obtain ⟨file, hfile, rfl⟩ := Option.map_eq_some_iff.mp hi
  obtain ⟨members, -, hread⟩ := mapM_zipIdx_round hobjects hfile
  unfold readDecision at hread
  dsimp only at hread
  split at hread
  · simp at hread
  · rename_i number hname
    by_cases hnumber : number = i
    · rw [if_neg (not_not.mpr hnumber)] at hread
      obtain ⟨members', hdocument, hread⟩ := bind_ok_iff.mp hread
      obtain ⟨hstored, hvalid⟩ := readDocument_eq_ok hdocument
      split at hread
      · rename_i hturn
        obtain rfl := Except.ok.inj hread
        exact ⟨members', hstored, hvalid, hturn⟩
      · simp at hread
    · simp [hnumber] at hread

theorem Numbered.take {key : String} {records : List Bytes}
    (h : Numbered limits validator key records) (n : ℕ) :
    Numbered limits validator key (records.take n) := by
  intro i line hi
  rw [List.getElem?_take] at hi
  split at hi
  · exact h i line hi
  · cases hi

end Records

/-! ## Streams -/

section Streams

variable {V : Verifier} {stream : StreamName} {records more : List Bytes}
  {links links' : List ChainLink} {builder builder' : ChainBuilder}

/-- A stream that was verified: the first records are chained, and one is not linked at most. -/
theorem verifyStream_eq_ok
    (h : verifyStream V.sha stream (V.genesis stream) records links none = .ok ()) :
    (∃ builder, Chained V stream (records.take links.length) links builder) ∧
      OneMore (records.take links.length) records := by
  unfold verifyStream at h
  dsimp only at h
  by_cases hfew : records.length < links.length
  · simp [hfew] at h
  rw [if_neg hfew] at h
  by_cases hmany : 1 < records.length - links.length
  · simp [hmany] at h
  rw [if_neg hmany] at h
  refine ⟨?_, records.drop links.length, (List.take_append_drop _ _).symm, by simpa using hmany⟩
  unfold checkChain at h
  split at h
  · rename_i head hverified
    obtain ⟨hgenesis, -, hashes, hhashes, hentries, -, -⟩ := verifyChain_eq_ok.mp hverified
    exact ⟨_, build_eq_ok.mpr ⟨hgenesis, hashes, hhashes, hentries, rfl⟩⟩
  · simp at h
  · cases h
  · cases h

/-- A front of a chain. -/
theorem appendAll_take {sha : Sha256} {start : ChainBuilder}
    (h : start.appendAll sha (records ++ more) = .ok (links, builder)) :
    ∃ builder', start.appendAll sha records = .ok (links.take records.length, builder') := by
  induction records generalizing start links with
  | nil => exact ⟨start, by simp [ChainBuilder.appendAll]⟩
  | cons record records ih =>
    simp only [List.cons_append, ChainBuilder.appendAll, bind_ok_iff, Prod.exists, pure_eq_ok,
      Except.ok.injEq, Prod.mk.injEq] at h
    obtain ⟨link, next, happend, rest, last, hrest, rfl, rfl⟩ := h
    obtain ⟨builder', hbuilder⟩ := ih hrest
    refine ⟨builder', ?_⟩
    rw [ChainBuilder.appendAll, happend, ok_bind]
    dsimp only
    rw [hbuilder]
    rfl

theorem Chained.take (h : Chained V stream (records ++ more) links builder) :
    ∃ builder', Chained V stream records (links.take records.length) builder' := by
  obtain ⟨start, hstart, hall⟩ := bind_ok_iff.mp h
  obtain ⟨builder', hbuilder⟩ := appendAll_take hall
  exact ⟨builder', bind_ok_iff.mpr ⟨start, hstart, hbuilder⟩⟩

theorem map_linkEntries {sha : Sha256} {i : ℕ} {hashes : List Text}
    (h : hashes.length = records.length) :
    (linkEntries sha stream i records hashes).map ChainLink.linkSha256 = hashes := by
  induction records generalizing i hashes with
  | nil =>
    rw [List.length_eq_zero_iff.mp h]
    rfl
  | cons record records ih =>
    cases hashes with
    | nil => simp at h
    | cons hash hashes =>
      rw [linkEntries, List.map_cons, ih (by simpa using h)]
      rfl

/-- Of the byte strings hashed to chain records, those of a front are among them. -/
theorem chainHashed_take (sha : Sha256) (i n : ℕ) (prev : Text) :
    chainHashed sha stream i prev (records.take n) ⊆ chainHashed sha stream i prev records := by
  induction records generalizing i n prev with
  | nil => simp
  | cons record records ih =>
    cases n with
    | zero => simp [chainHashed]
    | succ n =>
      rw [List.take_succ_cons, chainHashed, chainHashed]
      refine List.cons_subset_cons _ ?_
      split
      · exact List.cons_subset_cons _ (ih _ _ _)
      · exact List.Subset.refl _

/-- The byte strings that are hashed to chain records of a stream. -/
def Verifier.hashed (V : Verifier) (stream : StreamName) (records : List Bytes) : List Bytes :=
  chainHashed V.sha stream 0 (V.genesis stream) records

variable {records' : List Bytes}

/-- The same links: the same records. -/
theorem Chained.records_eq (h : Chained V stream records links builder)
    (h' : Chained V stream records' links builder')
    (free : V.sha.CollisionFree (V.hashed stream records ++ V.hashed stream records')) :
    records = records' := by
  obtain ⟨-, hashes, hhashes, hentries, -⟩ := build_eq_ok.mp h
  obtain ⟨-, hashes', hhashes', hentries', -⟩ := build_eq_ok.mp h'
  have hlength := HashChain.links_length hhashes
  have hlength' := HashChain.links_length hhashes'
  have heq : hashes = hashes' := by
    rw [← map_linkEntries hlength, ← hentries, hentries',
      map_linkEntries hlength']
  subst heq
  exact (chain_determined hhashes hhashes' (hlength.symm.trans hlength') rfl free).2.1

/-- Links that go on from others: records that go on from theirs. -/
theorem Chained.isPrefix (h : Chained V stream records links builder)
    (h' : Chained V stream records' links' builder') (hlinks : links <+: links')
    (free : V.sha.CollisionFree (V.hashed stream records ++ V.hashed stream records')) :
    records <+: records' := by
  have hshort : links.length ≤ records'.length := h'.length_links ▸ hlinks.length_le
  have hsplit := h'
  rw [← List.take_append_drop links.length records'] at hsplit
  obtain ⟨front, hfront⟩ := hsplit.take
  rw [List.length_take_of_le hshort, ← List.prefix_iff_eq_take.mp hlinks] at hfront
  have hsub : V.hashed stream records ++ V.hashed stream (records'.take links.length) ⊆
      V.hashed stream records ++ V.hashed stream records' :=
    List.append_subset.mpr ⟨List.subset_append_left _ _,
      List.Subset.trans (chainHashed_take _ _ _ _) (List.subset_append_right _ _)⟩
  rw [h.records_eq hfront fun a ha b hb => free a (hsub ha) b (hsub hb)]
  exact List.take_prefix _ _

end Streams

/-! ## Bundles -/

section Bundles

variable {V : Verifier} {disk disk' : Disk Path} {done done' : Done}

/-- The links that are read from a bundle. -/
def Verifier.readLinks (V : Verifier) (disk : Disk Path) :
    Checked (StreamName → List ChainLink) := do
  let chain ← readJsonl V.limits (txt "chain.jsonl") none none (disk.read CHAIN_JSONL) false
  streamLinks chain.objects

/-- What an accepted bundle commits to. -/
structure Sound (V : Verifier) (disk : Disk Path) (done : Done)
    (links : StreamName → List ChainLink) : Prop where
  read : V.readLinks disk = .ok links
  events : ∃ builder, Chained V .events done.1 (links .events) builder
  decisions : ∃ builder, Chained V .decisions done.2 (links .decisions) builder
  numberedEvents : Numbered V.limits V.event "seq" done.1
  numberedDecisions : Numbered V.limits V.decisionRecord "turn" done.2

/-- **What is accepted is well formed.** The records that are committed are canonical texts of valid
documents, they hold their numbers, and the links that are read are the chain of them. -/
theorem sound_of_committed (h : committed V disk = some done) :
    ∃ links, Sound V disk done links := by
  unfold committed at h
  split at h
  · rename_i read hread
    obtain rfl := Option.some.inj h
    unfold Verifier.readStreams at hread
    obtain ⟨events, hevents, hread⟩ := bind_ok_iff.mp hread
    obtain ⟨_, hseq, hread⟩ := bind_ok_iff.mp hread
    obtain ⟨decisions, hdecisions, hread⟩ := bind_ok_iff.mp hread
    obtain ⟨chain, hchain, hread⟩ := bind_ok_iff.mp hread
    obtain ⟨links, hlinks, hread⟩ := bind_ok_iff.mp hread
    obtain ⟨_, hverified, hread⟩ := bind_ok_iff.mp hread
    obtain ⟨_, hverified', hread⟩ := bind_ok_iff.mp hread
    obtain rfl := Except.ok.inj hread
    exact ⟨links, bind_ok_iff.mpr ⟨chain, hchain, hlinks⟩, (verifyStream_eq_ok hverified).1,
      (verifyStream_eq_ok hverified').1, (numbered_of_readJsonl hevents hseq).take _,
      (numbered_of_readDecisions hdecisions).take _⟩
  · cases h

/-! ### One linked event -/

namespace Sample

def acceptAll : Validator := ⟨fun _ => none, fun _ _ _ h => h⟩

/-- `\x7b"seq":0\x7d` -/
abbrev event : Bytes := [0x7B, 0x22, 0x73, 0x65, 0x71, 0x22, 0x3A, 0x30, 0x7D]

abbrev eventDigest : ℕ := 0x0b4a4b8d8ded37902ac671f24db72af504765ef7016d8030dc18b71edd42d092

abbrev linkDigest : ℕ := 0x67cb5529748296928aeb2ca57a1ce550216146f6311541aa21f90fec8a481b41

/-- SHA-256 on the two byte strings hashed. -/
def sha : Sha256 := Spec.Sample.tableSha [(event, eventDigest),
  (((linkDocument .events 0 (HASH_PREFIX ++ hex64 eventDigest)
    Spec.Sample.genesis).canonical.toOption).getD [], linkDigest)]

theorem depth_ge : 16 ≤ 500 := by omega

theorem digits_ge : 640 ≤ 4300 := by omega

def verifier : Verifier where
  limits := ⟨500, 4300, depth_ge, digits_ge⟩
  sha := sha
  event := acceptAll
  decisionRecord := acceptAll
  genesis _ := Spec.Sample.genesis
  isHash _ := isHash_hex64 _

/-- The line of the link. -/
def line : Bytes :=
  ((WriterSetting.linkValue (linkEntry sha .events 0 event
    (HASH_PREFIX ++ hex64 linkDigest))).canonical.toOption).getD []

/-- An event, and a part of the line of its link. -/
def early : Disk Path := [(EVENTS_JSONL, event ++ [newline]), (CHAIN_JSONL, line.take 5)]

/-- The event with its link, and a part of the next event. -/
def late : Disk Path :=
  [(EVENTS_JSONL, event ++ newline :: event.take 3), (CHAIN_JSONL, line ++ [newline])]

end Sample

theorem sample_sound : ∃ links, Sound Sample.verifier Sample.late ([Sample.event], []) links :=
  sound_of_committed (by decide +kernel)

/-- Of a longer file the first links are the same. -/
theorem readLinks_front {chain chain' : Bytes} {links links' : StreamName → List ChainLink}
    (hchain : disk.read CHAIN_JSONL = some chain) (hchain' : disk'.read CHAIN_JSONL = some chain')
    (hgrown : chain <+: chain') (h : V.readLinks disk = .ok links)
    (h' : V.readLinks disk' = .ok links') (stream : StreamName) :
    links stream <+: links' stream := by
  obtain ⟨read, hread, hlinks⟩ := bind_ok_iff.mp h
  obtain ⟨read', hread', hlinks'⟩ := bind_ok_iff.mp h'
  obtain ⟨_, heq, hrecords, hobjects⟩ := readJsonl_eq_ok hread
  obtain ⟨_, heq', hrecords', hobjects'⟩ := readJsonl_eq_ok hread'
  obtain rfl := Option.some.inj (hchain.symm.trans heq)
  obtain rfl := Option.some.inj (hchain'.symm.trans heq')
  have hlines : read.records <+: read'.records := by
    rw [hrecords, hrecords']
    exact splitOn_front hgrown
  have hmembers := mapM_front hobjects hobjects' (zipIdx_front hlines)
  obtain ⟨all, hall, hlinks⟩ := bind_ok_iff.mp hlinks
  obtain ⟨all', hall', hlinks'⟩ := bind_ok_iff.mp hlinks'
  have hlinksAll := mapM_front hall hall' (zipIdx_front hmembers)
  rw [← Except.ok.inj hlinks, ← Except.ok.inj hlinks']
  exact hlinksAll.filter _

/-- **Copies of the links bind the records.** Of two accepted bundles, when the links of the second
go on from those of the first, the records that it commits to go on from those of the first, unless
two of the byte strings hashed share a digest. -/
theorem committed_extends (V : Verifier) (disk disk' : Disk Path) (done done' : Done)
    {chain chain' : Bytes} (hchain : disk.read CHAIN_JSONL = some chain)
    (hchain' : disk'.read CHAIN_JSONL = some chain') (hgrown : chain <+: chain')
    (h : committed V disk = some done) (h' : committed V disk' = some done')
    (freeEvents : V.sha.CollisionFree (V.hashed .events done.1 ++ V.hashed .events done'.1))
    (freeDecisions : V.sha.CollisionFree
      (V.hashed .decisions done.2 ++ V.hashed .decisions done'.2)) :
    done.1 <+: done'.1 ∧ done.2 <+: done'.2 := by
  obtain ⟨links, hsound⟩ := sound_of_committed h
  obtain ⟨links', hsound'⟩ := sound_of_committed h'
  have hlinks := readLinks_front hchain hchain' hgrown hsound.read hsound'.read
  obtain ⟨_, hevents⟩ := hsound.events
  obtain ⟨_, hevents'⟩ := hsound'.events
  obtain ⟨_, hdecisions⟩ := hsound.decisions
  obtain ⟨_, hdecisions'⟩ := hsound'.decisions
  exact ⟨hevents.isPrefix hevents' (hlinks .events) freeEvents,
    hdecisions.isPrefix hdecisions' (hlinks .decisions) freeDecisions⟩

theorem sample_extends : ([] : List Bytes) <+: [Sample.event] ∧ ([] : List Bytes) <+: [] :=
  committed_extends Sample.verifier Sample.early Sample.late ([], []) ([Sample.event], []) rfl rfl
    (by decide +kernel) (by decide +kernel) (by decide +kernel)
    (by unfold Sha256.CollisionFree; decide +kernel)
    (by unfold Sha256.CollisionFree; decide +kernel)

end Bundles

end WagmiBench.Recorder
