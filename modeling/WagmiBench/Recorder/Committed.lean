import WagmiBench.Recorder.Names
import WagmiBench.Recorder.Writer
import WagmiBench.Lib.JsonText
import WagmiBench.Lib.Loops

/-!
# What the reader commits to

An unsealed bundle is accepted when every complete line and every decision file is the canonical
text of a valid document with its number, the links are the chains of the first records of both
streams, and at most one record of each stream is not linked yet. `committed` is what the links
cover.
-/

namespace WagmiBench.Recorder

open WagmiBench.Lib WagmiBench.Core WagmiBench.Spec

/-! ## Documents -/

section Documents

variable (limits : Json.Limits)

/-- Bytes that are read back as a document with the same canonical bytes. -/
structure Stored (line : Bytes) (members : Members) : Prop where
  read : strictJson limits line = some (.obj members)
  canonical : (Json.obj members).canonical = .ok line

variable {limits} {line : Bytes} {members : Members}

theorem Stored.newline_not_mem (h : Stored limits line members) : newline ∉ line :=
  (Json.canonical_isLine h.canonical).1

theorem Stored.ne_nil (h : Stored limits line members) : line ≠ [] := by
  rintro rfl
  have := h.read
  simp [strictJson, utf8Decode, Json.loads, Json.readFrom, Json.finish, Except.toOption] at this

theorem Stored.getLast?_ne (h : Stored limits line members) : line.getLast? ≠ some newline :=
  fun heq => h.newline_not_mem (List.mem_of_getLast? heq)

theorem decodeJson_of_strictJson {raw : Bytes} {path : Text} {value : Json}
    (h : strictJson limits raw = some value) : decodeJson limits raw path = .ok value := by
  unfold strictJson at h
  obtain ⟨text, htext, hvalue⟩ := Option.bind_eq_some_iff.mp h
  unfold decodeJson
  rw [htext]
  dsimp only
  rw [toOption_eq_some.mp hvalue]

theorem validateInstance_of_none {validator : Validator} {value : Json} {bytes : Bytes}
    {context : Text} (h : validator.problem value = none) (hbytes : value.canonical = .ok bytes) :
    validateInstance validator value context = .ok () := by
  unfold validateInstance
  rw [h]
  dsimp only
  rw [hbytes]

theorem checkStored_of_stored {validator : Option Validator} {context cannot notCanonical : Text}
    {refuse : Text → Checked Members} (h : Stored limits line members)
    (hvalid : ∀ v ∈ validator, v.problem (.obj members) = none) :
    checkStored line validator context cannot notCanonical refuse members = .ok members := by
  unfold checkStored
  simp only [h.canonical, ne_eq, not_true_eq_false, if_false]
  cases validator with
  | none => rfl
  | some v => simp [validateInstance_of_none (hvalid v rfl) h.canonical, pure_eq_ok]

theorem readLine_of_stored {relative : Text} {validator : Option Validator}
    {stream : Option StreamName} {index : ℕ} (h : Stored limits line members)
    (hvalid : ∀ v ∈ validator, v.problem (.obj members) = none) :
    readLine limits relative validator stream line index = .ok members := by
  unfold readLine
  rw [if_neg h.ne_nil]
  simp only [decodeJson_of_strictJson h.read, object, ok_bind]
  exact checkStored_of_stored h hvalid

theorem readDocument_of_stored {relative : Text} {validator : Validator}
    (h : Stored limits line members) (hvalid : validator.problem (.obj members) = none) :
    readDocument limits relative validator line = .ok members := by
  unfold readDocument
  rw [if_neg h.getLast?_ne]
  simp only [decodeJson_of_strictJson h.read, object, ok_bind]
  exact checkStored_of_stored h (by simpa using hvalid)

/-- **Canonical bytes are stored.** What is read back has the same members in another order. -/
theorem stored_of_canonical (hplain : (Json.obj members).Plain limits.maxDepth)
    (h : (Json.obj members).canonical = .ok line) :
    Stored limits line (Json.sortMembers (Json.normalizeMembers members)) := by
  obtain ⟨text, htext, hread⟩ := Json.read_canonical Json.strictHooks_faithful h hplain le_rfl
  have hencodable := Json.canonical_isOk.mp ⟨line, h⟩
  have hnormal : (Json.obj members).normalize =
      .obj (Json.sortMembers (Json.normalizeMembers members)) := by
    rw [Json.normalize]
  refine ⟨?_, ?_⟩
  · rw [strictJson, htext, Option.bind_some, hread, hnormal]
    rfl
  · rw [← hnormal, ← h]
    refine ((Json.canonical_eq_iff hencodable hplain.distinct
      ((Json.encodable_normalize _).mpr hencodable)
      (Json.distinct_normalize _ hplain.distinct)).mpr (Json.same_normalize _ hplain.distinct)).symm

/-- A number is found under its key after sorting as it was before. -/
theorem lookup_sorted {key : Text} {n : ℤ} (hplain : (Json.obj members).Plain limits.maxDepth)
    (h : Json.lookup key members = some (.int n)) :
    Json.lookup key (Json.sortMembers (Json.normalizeMembers members)) = some (.int n) := by
  have hkeys : Json.NodupKeys (Json.normalizeMembers members) :=
    Json.nodupKeys_normalizeMembers.mpr hplain.distinct.1
  have hsorted : Json.NodupKeys (Json.sortMembers (Json.normalizeMembers members)) :=
    Json.nodupKeys_sortMembers.mpr hkeys
  rw [Json.lookup_eq_some_iff hsorted, (Json.sortMembers_perm _).mem_iff,
    ← Json.lookup_eq_some_iff hkeys, Json.lookup_normalizeMembers, h]
  simp [Json.normalize]

end Documents

/-! ## Records -/

section Records

variable (limits : Json.Limits) (validator : Validator) (key : String)

/-- A valid document that holds its number under a key. -/
def IsRecord (number : ℕ) (line : Bytes) : Prop :=
  ∃ members, Stored limits line members ∧ validator.problem (.obj members) = none ∧
    equalsNumber (Json.lookup (txt key) members) number = true

/-- Records in the order of their numbers. -/
def Numbered (records : List Bytes) : Prop :=
  ∀ i line, records[i]? = some line → IsRecord limits validator key i line

variable {limits validator key} {records : List Bytes}

@[simp] theorem numbered_nil : Numbered limits validator key [] := by
  simp [Numbered]

theorem Numbered.concat {line : Bytes} (h : Numbered limits validator key records)
    (hline : IsRecord limits validator key records.length line) :
    Numbered limits validator key (records ++ [line]) := by
  intro i line' hi
  rcases lt_trichotomy i records.length with hlt | rfl | hgt
  · rw [List.getElem?_append_left hlt] at hi
    exact h i line' hi
  · obtain rfl : line = line' := by simpa using hi
    exact hline
  · rw [List.getElem?_eq_none (by simp; omega)] at hi
    cases hi

theorem Numbered.newline_not_mem (h : Numbered limits validator key records) :
    ∀ line ∈ records, newline ∉ line := by
  intro line hline
  obtain ⟨i, hi, rfl⟩ := List.mem_iff_getElem.mp hline
  obtain ⟨members, hstored, -⟩ := h i _ (List.getElem?_eq_getElem hi)
  exact hstored.newline_not_mem

/-- A document is stored as the record with its number. -/
theorem isRecord_of_canonical {V : Verifier} {validator : Validator} {key : String}
    {members : Members} {line : Bytes} {n : ℕ}
    (hplain : (Json.obj members).Plain V.limits.maxDepth)
    (hvalid : validator.problem (.obj members) = none)
    (hline : (Json.obj members).canonical = .ok line)
    (hnumber : Json.lookup (txt key) members = some (.int n)) :
    IsRecord V.limits validator key n line := by
  refine ⟨_, stored_of_canonical hplain hline, ?_, ?_⟩
  · have hsame := Json.same_normalize _ hplain.distinct
    have hnormal : (Json.obj members).normalize =
        .obj (Json.sortMembers (Json.normalizeMembers members)) := by
      rw [Json.normalize]
    rw [← hnormal]
    exact validator.ignoresOrder _ _ hsame hvalid
  · rw [lookup_sorted hplain hnumber]
    simp [equalsNumber]

/-- **Lines.** A file of finished lines and a part of one is read as them; a sealed one has no such
part. -/
theorem readJsonl_of_lines (relative : Text) (validator : Option Validator)
    (stream : Option StreamName) (isSealed : Bool) {P : ℕ → Members → Prop} {tail : Bytes}
    (h : ∀ i line, records[i]? = some line → ∃ members, Stored limits line members ∧
      (∀ v ∈ validator, v.problem (.obj members) = none) ∧ P i members)
    (htail : newline ∉ tail) (hsealed : isSealed = true → tail = []) :
    ∃ objects,
      readJsonl limits relative validator stream (some (joinLines records ++ tail)) isSealed =
        .ok ⟨objects, records, tail⟩ ∧ objects.length = records.length ∧
      ∀ i members, objects[i]? = some members → P i members := by
  have hlines : ∀ line ∈ records, newline ∉ line := by
    intro line hline
    obtain ⟨i, hi, rfl⟩ := List.mem_iff_getElem.mp hline
    obtain ⟨members, hstored, -⟩ := h i _ (List.getElem?_eq_getElem hi)
    exact hstored.newline_not_mem
  obtain ⟨objects, hobjects, hlength, hall⟩ := exists_mapM_zipIdx (P := P)
    (fun entry => readLine limits relative validator stream entry.1 entry.2) records 0
    fun i line hi => by
      obtain ⟨members, hstored, hvalid, hP⟩ := h i line hi
      rw [zero_add]
      exact ⟨members, readLine_of_stored hstored hvalid, hP⟩
  refine ⟨objects, ?_, hlength, fun i members hi => by simpa using hall i members hi⟩
  unfold readJsonl
  dsimp only
  rw [splitOn_lines hlines htail, List.getLastD_concat, List.dropLast_concat,
    if_neg fun h => h.2 (hsealed h.1)]
  exact bind_ok_iff.mpr ⟨objects, hobjects, rfl⟩

/-- **Decisions.** Numbered files are read as the records in them. -/
theorem readDecisions_of_numbered {files : List (Text × Bytes)} {isSealed : Bool}
    (h : Numbered limits validator "turn" records) (hlength : records.length ≤ 10_000)
    (hfiles : (files.filter fun file => isSealed || !isDotName file.1) = numberedFiles records) :
    ∃ objects, readDecisions limits validator isSealed files = .ok (objects, records) := by
  obtain ⟨objects, hobjects, -⟩ := exists_mapM_zipIdx (P := fun _ _ => True)
    (fun entry => readDecision limits validator entry.1 entry.2) (numberedFiles records) 0
    fun i file hi => by
      obtain ⟨hname, hrecord⟩ := getElem?_numberedFiles hi
      obtain ⟨members, hstored, hvalid, hturn⟩ := h i file.2 hrecord
      have hi' : i < records.length := (List.getElem?_eq_some_iff.mp hrecord).1
      refine ⟨members, ?_, trivial⟩
      simp only [readDecision, hname, zero_add, matchDecisionName_turnName (hi'.trans_le hlength),
        ne_eq, not_true_eq_false, if_false]
      rw [readDocument_of_stored hstored hvalid]
      simp [hturn, pure_eq_ok]
  refine ⟨objects, ?_⟩
  unfold readDecisions
  simp only [hfiles, sorted_numberedFiles hlength, map_snd_numberedFiles]
  exact bind_ok_iff.mpr ⟨objects, hobjects, rfl⟩

end Records

/-! ## Links -/

/-- A link of one of the two streams. -/
structure IsLink (link : ChainLink) : Prop where
  schema : link.schema = txt "chain_link/v1"
  stream : ∃ stream : StreamName, link.stream = stream.text
  seq : 0 ≤ link.seq
  record : IsHash link.recordSha256
  link : IsHash link.linkSha256

/-- Links and their lines. -/
abbrev Lines (links : List ChainLink) (lines : List Bytes) : Prop :=
  List.Forall₂ (fun link line => (WriterSetting.linkValue link).canonical = .ok line) links lines

section Links

variable {limits : Json.Limits} {link : ChainLink}

theorem plain_linkValue (link : ChainLink) :
    (WriterSetting.linkValue link).Plain limits.maxDepth := by
  refine Json.Plain.mono (n := 1) ?_ ((by omega : 1 ≤ 16).trans limits.depth_ge)
  exact Json.plain_obj (by simp [Json.NodupKeys]) (by simp)

/-- The line of a link is read as the link. -/
theorem stored_link {line : Bytes} (hlink : IsLink link)
    (h : (WriterSetting.linkValue link).canonical = .ok line) (number : ℕ) :
    ∃ members, Stored limits line members ∧ validateChainLink members number = .ok link := by
  refine ⟨_, stored_of_canonical (plain_linkValue link) h, ?_⟩
  have hsorted : Json.sortMembers (Json.normalizeMembers
      [(txt "schema", .str link.schema), (txt "stream", .str link.stream),
        (txt "seq", .int link.seq), (txt "record_sha256", .str link.recordSha256),
        (txt "link_sha256", .str link.linkSha256)]) =
      [(txt "link_sha256", .str link.linkSha256), (txt "record_sha256", .str link.recordSha256),
        (txt "schema", .str link.schema), (txt "seq", .int link.seq),
        (txt "stream", .str link.stream)] := rfl
  rw [hsorted]
  obtain ⟨stream, hstream⟩ := hlink.stream
  have hcheck : Json.Schema.check (fun _ => .null) 2 CHAIN_LINK_SCHEMA (.obj
      [(txt "link_sha256", .str link.linkSha256), (txt "record_sha256", .str link.recordSha256),
        (txt "schema", .str link.schema), (txt "seq", .int link.seq),
        (txt "stream", .str link.stream)]) = true := by
    cases stream <;> simp [CHAIN_LINK_SCHEMA, Json.Schema.check, Json.Schema.ofMember, hashPattern,
      hlink.schema, hstream, hlink.seq, hlink.record, hlink.link]
  have hread : toChainLink
      [(txt "link_sha256", .str link.linkSha256), (txt "record_sha256", .str link.recordSha256),
        (txt "schema", .str link.schema), (txt "seq", .int link.seq),
        (txt "stream", .str link.stream)] = some link := by
    simp [toChainLink]
  simp only [validateChainLink, hcheck, hread]

/-- **Links.** The lines of links are read as the links of both streams. -/
theorem readLinks_of_lines (limits : Json.Limits) (isSealed : Bool) {links : List ChainLink}
    {lines : List Bytes} {tail : Bytes} (hlinks : ∀ link ∈ links, IsLink link)
    (h : Lines links lines) (htail : newline ∉ tail) (hsealed : isSealed = true → tail = []) :
    ∃ objects,
      readJsonl limits (txt "chain.jsonl") none none (some (joinLines lines ++ tail)) isSealed =
        .ok ⟨objects, lines, tail⟩ ∧
      streamLinks objects = .ok fun stream =>
        links.filter fun link => link.stream = stream.text := by
  have pair : ∀ (i : ℕ) (line : Bytes), lines[i]? = some line → ∃ link, links[i]? = some link ∧
      IsLink link ∧ (WriterSetting.linkValue link).canonical = .ok line := by
    intro i line hi
    obtain ⟨hi', rfl⟩ := List.getElem?_eq_some_iff.mp hi
    have hi'' : i < links.length := h.length_eq ▸ hi'
    exact ⟨links[i], List.getElem?_eq_getElem hi'', hlinks _ (List.getElem_mem hi''),
      h.get hi'' hi'⟩
  have stored : ∀ (i : ℕ) (line : Bytes), lines[i]? = some line → ∃ members,
      Stored limits line members ∧
      (∀ v ∈ (none : Option Validator), v.problem (.obj members) = none) ∧
      ∃ link, links[i]? = some link ∧ validateChainLink members i = .ok link := by
    intro i line hi
    obtain ⟨link, hi', hlink, hline⟩ := pair i line hi
    obtain ⟨members, hstored, hread⟩ := stored_link hlink hline i
    exact ⟨members, hstored, by simp, link, hi', hread⟩
  obtain ⟨objects, hobjects, hlength, hall⟩ :=
    readJsonl_of_lines (txt "chain.jsonl") none none isSealed stored htail hsealed
  refine ⟨objects, hobjects, ?_⟩
  obtain ⟨links', hlinks', hlength', hall'⟩ := exists_mapM_zipIdx
    (P := fun i link => links[i]? = some link)
    (fun entry => validateChainLink entry.1 entry.2) objects 0 fun i members hi => by
      obtain ⟨link, hi', hread⟩ := hall i members hi
      rw [zero_add]
      exact ⟨link, hread, hi'⟩
  have heq : links' = links := by
    refine List.ext_getElem (by rw [hlength', hlength, h.length_eq]) fun i hi hi' => ?_
    have := hall' i _ (List.getElem?_eq_getElem hi)
    rw [zero_add, List.getElem?_eq_getElem hi'] at this
    exact (Option.some.inj this).symm
  rw [heq] at hlinks'
  exact bind_ok_iff.mpr ⟨links, hlinks', rfl⟩

end Links

/-! ## Streams -/

section Streams

variable {V : Verifier}

theorem length_linkEntries {sha : Sha256} {stream : StreamName} {i : ℕ} {records : List Bytes}
    {links : List Text} (h : links.length = records.length) :
    (linkEntries sha stream i records links).length = records.length := by
  induction records generalizing i links with
  | nil => simp [linkEntries]
  | cons record records ih =>
    cases links with
    | nil => simp at h
    | cons link links => simp [linkEntries, ih (by simpa using h)]

/-- The links that a builder has appended after records. -/
def Chained (V : Verifier) (stream : StreamName) (records : List Bytes) (links : List ChainLink)
    (builder : ChainBuilder) : Prop :=
  ChainBuilder.build V.sha stream (V.genesis stream) records = .ok (links, builder)

variable {stream : StreamName} {records : List Bytes} {links : List ChainLink}
  {builder : ChainBuilder}

theorem Chained.length_links (h : Chained V stream records links builder) :
    links.length = records.length := by
  obtain ⟨-, hashes, hhashes, rfl, -⟩ := build_eq_ok.mp h
  exact length_linkEntries (HashChain.links_length hhashes)

/-- **Streams.** The records that are linked, and at most one that is not. -/
theorem verifyStream_of_chained {more : List Bytes} (h : Chained V stream records links builder)
    (hmore : more.length ≤ 1) :
    verifyStream V.sha stream (V.genesis stream) (records ++ more) links none = .ok () := by
  have hlength := h.length_links
  obtain ⟨-, hashes, hhashes, hentries, -⟩ := build_eq_ok.mp h
  have hchain : verifyChain V.sha stream (V.genesis stream) records links none none =
      .ok (HashChain.head (V.genesis stream) hashes) :=
    verifyChain_eq_ok.mpr ⟨V.isHash stream, by simp, hashes, hhashes, hentries, rfl, by simp⟩
  unfold verifyStream
  dsimp only
  rw [if_neg (by simp; omega), if_neg (by simp; omega), hlength, List.take_left]
  simp only [checkChain, hchain]

end Streams

/-! ## Bundles -/

/-- What the files of an unsealed bundle hold: finished and unfinished lines, and the decision files
that are not hidden. -/
structure Holds (disk : Disk Path) (events : List Bytes) (eventTail : Bytes) (chain : List Bytes)
    (chainTail : Bytes) (decisions : List Bytes) : Prop where
  events : disk.read EVENTS_JSONL = some (joinLines events ++ eventTail)
  eventTail : newline ∉ eventTail
  chain : disk.read CHAIN_JSONL = some (joinLines chain ++ chainTail)
  chainTail : newline ∉ chainTail
  decisions : ((Verifier.filesIn disk .decisions).filter fun file => !isDotName file.1) =
    numberedFiles decisions

/-- Records of both streams, with the links of them in the order of their lines. -/
structure Linked (V : Verifier) (events decisions : List Bytes) (links : List ChainLink)
    (lines : List Bytes) : Prop where
  events : ∃ builder, Chained V .events events
    (links.filter fun link => link.stream = StreamName.events.text) builder
  decisions : ∃ builder, Chained V .decisions decisions
    (links.filter fun link => link.stream = StreamName.decisions.text) builder
  wellFormed : ∀ link ∈ links, IsLink link
  lines : Lines links lines

/-- The records of both streams that the links of an accepted bundle cover. -/
def committed (V : Verifier) (disk : Disk Path) : Option (List Bytes × List Bytes) :=
  match V.readStreams disk none with
  | .ok read => some (read.events.records.take (read.links .events).length,
      read.decisionRecords.take (read.links .decisions).length)
  | .error _ => none

/-- One more record at most. -/
def OneMore (records more : List Bytes) : Prop :=
  ∃ last : List Bytes, more = records ++ last ∧ last.length ≤ 1

theorem oneMore_self (records : List Bytes) : OneMore records records := ⟨[], by simp, by simp⟩

theorem oneMore_concat (records : List Bytes) (record : Bytes) :
    OneMore records (records ++ [record]) := ⟨[record], rfl, le_rfl⟩

theorem OneMore.isPrefix {records more : List Bytes} (h : OneMore records more) :
    records <+: more := by
  obtain ⟨last, rfl, -⟩ := h
  exact List.prefix_append _ _

variable {V : Verifier}

/-- Files that are read back when both streams verify; a sealed bundle is finished, and it hides no
file of its decisions. -/
theorem readStreams_of_holds {disk : Disk Path} {events decisions lines : List Bytes}
    {links : List ChainLink} {eventTail chainTail : Bytes}
    (heads : Option (StreamName → SealedHead))
    (h : Holds disk events eventTail lines chainTail decisions)
    (hsealed : heads.isSome = true → eventTail = [] ∧ chainTail = [] ∧
      ∀ file ∈ Verifier.filesIn disk .decisions, isDotName file.1 = false)
    (hlinks : ∀ link ∈ links, IsLink link) (hlines : Lines links lines)
    (hevents : Numbered V.limits V.event "seq" events)
    (hdecisions : Numbered V.limits V.decisionRecord "turn" decisions)
    (hlength : decisions.length ≤ 10_000)
    (verified : verifyStream V.sha .events (V.genesis .events) events
      (links.filter fun link => link.stream = StreamName.events.text)
      (heads.map (· .events)) = .ok ())
    (verified' : verifyStream V.sha .decisions (V.genesis .decisions) decisions
      (links.filter fun link => link.stream = StreamName.decisions.text)
      (heads.map (· .decisions)) = .ok ()) :
    ∃ read, V.readStreams disk heads = .ok read ∧ read.events.records = events ∧
      read.decisionRecords = decisions ∧
      read.links = fun stream => links.filter fun link => link.stream = stream.text := by
  have stored : ∀ (i : ℕ) (line : Bytes), events[i]? = some line → ∃ members,
      Stored V.limits line members ∧ (∀ v ∈ some V.event, v.problem (.obj members) = none) ∧
      equalsNumber (Json.lookup (txt "seq") members) i = true := by
    intro i line hi
    obtain ⟨members, hstored, hvalid, hseq⟩ := hevents i line hi
    exact ⟨members, hstored, by simpa using hvalid, hseq⟩
  obtain ⟨eventObjects, hevents', -, hseq⟩ := readJsonl_of_lines (txt "events.jsonl") (some V.event)
    (some .events) heads.isSome stored h.eventTail fun hs => (hsealed hs).1
  have hfiles : ((Verifier.filesIn disk .decisions).filter fun file =>
      heads.isSome || !isDotName file.1) = numberedFiles decisions := by
    rw [← h.decisions]
    refine List.filter_congr fun file hfile => ?_
    cases hs : heads.isSome with
    | false => rfl
    | true => simp [(hsealed hs).2.2 file hfile]
  obtain ⟨decisionObjects, hdecisions'⟩ := readDecisions_of_numbered hdecisions hlength hfiles
  obtain ⟨linkObjects, hlinks', hstreams⟩ := readLinks_of_lines V.limits heads.isSome hlinks hlines
    h.chainTail fun hs => (hsealed hs).2.1
  have numbers : (eventObjects.zipIdx.forM fun entry => Verifier.checkSeq entry.1 entry.2) =
      .ok ⟨⟩ := (forM_zipIdx_eq_ok 0).mpr fun i members hi => by
    rw [zero_add]
    simp only [Verifier.checkSeq, hseq i members hi, if_true]
  refine ⟨⟨⟨eventObjects, events, eventTail⟩, decisionObjects, decisions,
    ⟨linkObjects, lines, chainTail⟩, _⟩, ?_, rfl, rfl, rfl⟩
  unfold Verifier.readStreams
  simp only [h.events, h.chain, hevents', ok_bind, numbers, hdecisions', hlinks', hstreams,
    verified, verified', pure_eq_ok]

/-- **An interrupted bundle is accepted**, and what is committed are the records that are linked. -/
theorem committed_of_holds {disk : Disk Path} {events decisions allEvents allDecisions : List Bytes}
    {lines : List Bytes} {links : List ChainLink} {eventTail chainTail : Bytes}
    (h : Holds disk allEvents eventTail lines chainTail allDecisions)
    (hlinked : Linked V events decisions links lines)
    (hevents : Numbered V.limits V.event "seq" allEvents)
    (hdecisions : Numbered V.limits V.decisionRecord "turn" allDecisions)
    (hmoreEvents : OneMore events allEvents) (hmoreDecisions : OneMore decisions allDecisions)
    (hlength : allDecisions.length ≤ 10_000) :
    committed V disk = some (events, decisions) := by
  obtain ⟨moreEvents, rfl, hmoreEvents⟩ := hmoreEvents
  obtain ⟨moreDecisions, rfl, hmoreDecisions⟩ := hmoreDecisions
  obtain ⟨eventBuilder, heventChain⟩ := hlinked.events
  obtain ⟨decisionBuilder, hdecisionChain⟩ := hlinked.decisions
  obtain ⟨read, hread, hreadEvents, hreadDecisions, hreadLinks⟩ := readStreams_of_holds none h
    (by simp) hlinked.wellFormed hlinked.lines hevents hdecisions hlength
    (verifyStream_of_chained heventChain hmoreEvents)
    (verifyStream_of_chained hdecisionChain hmoreDecisions)
  unfold committed
  rw [hread]
  dsimp only
  rw [hreadEvents, hreadDecisions, hreadLinks, heventChain.length_links,
    hdecisionChain.length_links, List.take_left, List.take_left]

end WagmiBench.Recorder
