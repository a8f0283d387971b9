import WagmiBench.Recorder.Installs

/-!
# From one settled bundle to the next

Between two calls a bundle is `Settled`: its records are on the disk and linked, and the builders of
the writer stand behind them. The steps of a call lead from one settled bundle to the next, and at
every moment in between what is committed is what the first one or the second one commits to.
-/

namespace WagmiBench.Recorder

open WagmiBench.Lib WagmiBench.Core WagmiBench.Spec

/-! ## Chains that grow -/

section Chains

variable {V : Verifier} {stream : StreamName} {records : List Bytes} {links : List ChainLink}
  {builder builder' : ChainBuilder} {record : Bytes} {link : ChainLink}

theorem appendAll_concat {sha : Sha256} {start : ChainBuilder}
    (h : start.appendAll sha records = .ok (links, builder))
    (hrecord : builder.append sha record = .ok (link, builder')) :
    start.appendAll sha (records ++ [record]) = .ok (links ++ [link], builder') := by
  induction records generalizing start links with
  | nil =>
    obtain ⟨rfl, rfl⟩ := Prod.mk.inj (Except.ok.inj h)
    simp [ChainBuilder.appendAll, hrecord, pure_eq_ok]
  | cons first records ih =>
    simp only [ChainBuilder.appendAll, bind_ok_iff, Prod.exists, pure_eq_ok, Except.ok.injEq,
      Prod.mk.injEq] at h
    obtain ⟨entry, next, hfirst, entries, last, hrest, rfl, rfl⟩ := h
    rw [List.cons_append, ChainBuilder.appendAll, hfirst, ok_bind]
    dsimp only
    rw [ih hrest]
    rfl

/-- One more record and its link. -/
theorem Chained.concat (h : Chained V stream records links builder)
    (hrecord : builder.append V.sha record = .ok (link, builder')) :
    Chained V stream (records ++ [record]) (links ++ [link]) builder' := by
  obtain ⟨start, hstart, hall⟩ := bind_ok_iff.mp h
  exact bind_ok_iff.mpr ⟨start, hstart, appendAll_concat hall hrecord⟩

/-- What the builder of a stream appends is a link of the stream. -/
theorem Chained.isLink (h : Chained V stream records links builder)
    (hrecord : builder.append V.sha record = .ok (link, builder')) :
    IsLink link ∧ link.stream = stream.text := by
  obtain ⟨-, hashes, hhashes, -, rfl⟩ := build_eq_ok.mp h
  simp only [ChainBuilder.append, bind_ok_iff, pure_eq_ok, Except.ok.injEq,
    Prod.mk.injEq] at hrecord
  obtain ⟨value, hvalue, rfl, -⟩ := hrecord
  exact ⟨⟨rfl, ⟨stream, rfl⟩, Int.natCast_nonneg _, V.sha.isHash record,
    chainLinkValue_isHash hvalue⟩, rfl⟩

theorem filter_concat_self {stream : StreamName} (h : link.stream = stream.text) :
    (links ++ [link]).filter (fun link => link.stream = stream.text) =
      links.filter (fun link => link.stream = stream.text) ++ [link] := by
  simp [List.filter_append, h]

theorem filter_concat_other {stream other : StreamName} (h : link.stream = stream.text)
    (hne : stream ≠ other) :
    (links ++ [link]).filter (fun link => link.stream = other.text) =
      links.filter (fun link => link.stream = other.text) := by
  have : link.stream ≠ other.text := fun heq => hne (StreamName.text_injective (h.symm.trans heq))
  simp [List.filter_append, this]

/-- One more record of one stream, and none of the other. -/
theorem Chained.extend {other : StreamName} {others : List Bytes} {builder₂ : ChainBuilder}
    (h : Chained V stream records (links.filter fun link => link.stream = stream.text) builder)
    (hother : Chained V other others (links.filter fun link => link.stream = other.text) builder₂)
    (hne : stream ≠ other) (hrecord : builder.append V.sha record = .ok (link, builder')) :
    IsLink link ∧
      Chained V stream (records ++ [record])
        ((links ++ [link]).filter fun link => link.stream = stream.text) builder' ∧
      Chained V other others ((links ++ [link]).filter fun link => link.stream = other.text)
        builder₂ := by
  obtain ⟨hlink, hstream⟩ := h.isLink hrecord
  rw [filter_concat_self hstream, filter_concat_other hstream hne]
  exact ⟨hlink, h.concat hrecord, hother⟩

theorem wellFormed_concat (h : ∀ entry ∈ links, IsLink entry) (hlink : IsLink link) :
    ∀ entry ∈ links ++ [link], IsLink entry :=
  List.forall_mem_append.mpr ⟨h, List.forall_mem_singleton.mpr hlink⟩

theorem Lines.concat {lines : List Bytes} {line : Bytes} (h : Lines links lines)
    (hline : (WriterSetting.linkValue link).canonical = .ok line) :
    Lines (links ++ [link]) (lines ++ [line]) :=
  List.rel_append h (.cons hline .nil)

end Chains

/-! ## Files that grow -/

section Files

variable {disk : Disk Path} {events chain decisions : List Bytes} {eventTail chainTail : Bytes}

theorem filesIn_append {path : Path} {bytes : Bytes} (h : path.folder = .top) :
    Verifier.filesIn (disk.append path bytes) .decisions = Verifier.filesIn disk .decisions := by
  unfold Verifier.filesIn
  rw [Disk.those_append_of_not (by simp [h])]

theorem filesIn_concat {path : Path} {bytes : Bytes} :
    Verifier.filesIn (disk ++ [(path, bytes)]) .decisions = Verifier.filesIn disk .decisions ++
      if path.folder = .decisions then [(path.name, bytes)] else [] := by
  unfold Verifier.filesIn
  rw [Disk.those_concat, List.map_append]
  by_cases h : path.folder = .decisions <;> simp [h]

/-- A part of one more event line, or all of it. -/
theorem Holds.append_event {line front : Bytes} (h : Holds disk events [] chain chainTail decisions)
    (hline : newline ∉ line) (hfront : front <+: line ++ [newline]) :
    if front = line ++ [newline] then
      Holds (disk.append EVENTS_JSONL front) (events ++ [line]) [] chain chainTail decisions
    else Holds (disk.append EVENTS_JSONL front) events front chain chainTail decisions := by
  have hread : (disk.append EVENTS_JSONL front).read EVENTS_JSONL =
      (disk.read EVENTS_JSONL).map (· ++ front) :=
    Disk.read_append_self
  have hfiles : ((Verifier.filesIn (disk.append EVENTS_JSONL front) .decisions).filter
      fun file => !isDotName file.1) = numberedFiles decisions := by
    rw [filesIn_append rfl, h.decisions]
  rw [h.events, List.append_nil, Option.map_some] at hread
  have hchain : (disk.append EVENTS_JSONL front).read CHAIN_JSONL = _ :=
    (Disk.read_append_of_ne (by decide)).trans h.chain
  split
  · rename_i hfull
    refine ⟨?_, by simp, hchain, h.chainTail, hfiles⟩
    rw [hread, hfull, joinLines_append]
    simp
  · rename_i hpart
    have hsub := (List.prefix_concat_iff.mp hfront).resolve_left hpart
    exact ⟨hread, fun hmem => hline (hsub.subset hmem), hchain, h.chainTail,
      hfiles⟩

/-- A part of one more link line, or all of it. -/
theorem Holds.append_link {line front : Bytes} (h : Holds disk events eventTail chain [] decisions)
    (hline : newline ∉ line) (hfront : front <+: line ++ [newline]) :
    if front = line ++ [newline] then
      Holds (disk.append CHAIN_JSONL front) events eventTail (chain ++ [line]) [] decisions
    else Holds (disk.append CHAIN_JSONL front) events eventTail chain front decisions := by
  have hread : (disk.append CHAIN_JSONL front).read CHAIN_JSONL =
      (disk.read CHAIN_JSONL).map (· ++ front) :=
    Disk.read_append_self
  have hfiles : ((Verifier.filesIn (disk.append CHAIN_JSONL front) .decisions).filter
      fun file => !isDotName file.1) = numberedFiles decisions := by
    rw [filesIn_append rfl, h.decisions]
  rw [h.chain, List.append_nil, Option.map_some] at hread
  have hevents : (disk.append CHAIN_JSONL front).read EVENTS_JSONL = _ :=
    (Disk.read_append_of_ne (by decide)).trans h.events
  split
  · rename_i hfull
    refine ⟨hevents, h.eventTail, ?_, by simp, hfiles⟩
    rw [hread, hfull, joinLines_append]
    simp
  · rename_i hpart
    have hsub := (List.prefix_concat_iff.mp hfront).resolve_left hpart
    exact ⟨hevents, h.eventTail, hread, fun hmem => hline (hsub.subset hmem),
      hfiles⟩

/-- A file that the reader of the streams passes over. -/
structure Aside (path : Path) : Prop where
  events : path ≠ EVENTS_JSONL
  chain : path ≠ CHAIN_JSONL
  hidden : path.folder = .decisions → isDotName path.name = true

theorem isDotName_temporary (path : Path) :
    isDotName (WriterSetting.temporary path).name = true := by
  simp [isDotName, WriterSetting.temporary]

theorem aside_temporary (path : Path) : Aside (WriterSetting.temporary path) := by
  have hdot := isDotName_temporary path
  refine ⟨fun h => ?_, fun h => ?_, fun _ => hdot⟩
  · rw [h] at hdot
    revert hdot
    decide
  · rw [h] at hdot
    revert hdot
    decide

/-- Another file that is passed over. -/
theorem Holds.concat {path : Path} {bytes : Bytes}
    (h : Holds disk events eventTail chain chainTail decisions) (haside : Aside path) :
    Holds (disk ++ [(path, bytes)]) events eventTail chain chainTail decisions := by
  refine ⟨(Disk.read_concat_of_ne haside.events).trans h.events, h.eventTail,
    (Disk.read_concat_of_ne haside.chain).trans h.chain, h.chainTail, ?_⟩
  rw [← h.decisions, filesIn_concat, List.filter_append]
  by_cases hfolder : path.folder = .decisions
  · simp [hfolder, haside.hidden hfolder]
  · simp [hfolder]

/-- One more decision. -/
theorem Holds.concat_decision {record : Bytes}
    (h : Holds disk events eventTail chain chainTail decisions) :
    Holds (disk ++ [(⟨.decisions, turnName decisions.length⟩, record)]) events eventTail chain
      chainTail (decisions ++ [record]) := by
  refine ⟨(Disk.read_concat_of_ne (by simp [EVENTS_JSONL])).trans h.events, h.eventTail,
    (Disk.read_concat_of_ne (by simp [CHAIN_JSONL])).trans h.chain, h.chainTail, ?_⟩
  rw [numberedFiles_concat, ← h.decisions, filesIn_concat, List.filter_append]
  simp [isDotName_turnName]

end Files

/-! ## What is committed -/

/-- Both bundles are accepted, and the second one commits to all that the first one does. -/
def Below (a b : Option Done) : Prop :=
  ∃ done more : Done, a = some done ∧ b = some more ∧ done.1 <+: more.1 ∧ done.2 <+: more.2

theorem below_self (done : Done) : Below (some done) (some done) :=
  ⟨done, done, rfl, rfl, List.prefix_rfl, List.prefix_rfl⟩

instance : IsTrans (Option Done) Below := ⟨by
  rintro _ _ _ ⟨done, more, rfl, rfl, h₁, h₂⟩ ⟨_, last, h, rfl, h₁', h₂'⟩
  obtain rfl := Option.some.inj h
  exact ⟨done, last, rfl, rfl, h₁.trans h₁', h₂.trans h₂'⟩⟩

section Linking

variable {V : Verifier} {disk : Disk Path} {done next : Done} {links : List ChainLink}
  {link : ChainLink} {lines : List Bytes} {line : Bytes}

/-- While the line of a link is written, what is committed changes with its last byte. -/
theorem committed_link (hholds : Holds disk next.1 [] lines [] next.2)
    (hevents : OneMore done.1 next.1) (hdecisions : OneMore done.2 next.2)
    (hbefore : Linked V done.1 done.2 links lines)
    (hafter : Linked V next.1 next.2 (links ++ [link]) (lines ++ [line]))
    (hline : newline ∉ line) (hnumberedEvents : Numbered V.limits V.event "seq" next.1)
    (hnumberedDecisions : Numbered V.limits V.decisionRecord "turn" next.2)
    (hturns : next.2.length ≤ 10_000) (front : Bytes) (hfront : front <+: line ++ [newline]) :
    committed V (disk.append CHAIN_JSONL front) =
      if front = line ++ [newline] then some next else some done := by
  have hgrown := hholds.append_link hline hfront
  split
  · rename_i hfull
    rw [if_pos hfull] at hgrown
    exact committed_of_holds hgrown hafter hnumberedEvents hnumberedDecisions (oneMore_self _)
      (oneMore_self _) hturns
  · rename_i hpart
    rw [if_neg hpart] at hgrown
    exact committed_of_holds hgrown hbefore hnumberedEvents hnumberedDecisions hevents hdecisions
      hturns

end Linking

/-! ## Between two calls -/

section Settled

variable (S : WriterSetting)

/-- Nothing is unfinished: the records that are done are on the disk and linked, and the builders of
the writer stand behind them. -/
structure Settled (s : BundleWriter) (done : Done) (links : List ChainLink) (lines : List Bytes) :
    Prop where
  holds : Holds (S.disk s) done.1 [] lines [] done.2
  visible : ∀ file ∈ Verifier.filesIn (S.disk s) .decisions, isDotName file.1 = false
  events : Chained S.toVerifier .events done.1
    (links.filter fun link => link.stream = StreamName.events.text) s.eventChain
  decisions : Chained S.toVerifier .decisions done.2
    (links.filter fun link => link.stream = StreamName.decisions.text) s.decisionChain
  wellFormed : ∀ link ∈ links, IsLink link
  lines : Lines links lines
  numberedEvents : Numbered S.limits S.event "seq" done.1
  numberedDecisions : Numbered S.limits S.decisionRecord "turn" done.2
  turns : done.2.length ≤ 10_000

variable {S} {s s' : BundleWriter} {done : Done} {links : List ChainLink} {lines : List Bytes}

theorem Settled.linked (h : Settled S s done links lines) :
    Linked S.toVerifier done.1 done.2 links lines :=
  ⟨⟨_, h.events⟩, ⟨_, h.decisions⟩, h.wellFormed, h.lines⟩

theorem Settled.committed (h : Settled S s done links lines) :
    committed S.toVerifier (S.disk s) = some done :=
  committed_of_holds h.holds h.linked h.numberedEvents h.numberedDecisions (oneMore_self _)
    (oneMore_self _) h.turns

/-- The steps from one state of the writer to a later one: what is committed is `done` and then
`next`, and it never shrinks. -/
def Commits (S : WriterSetting) (done next : Done) (s s' : BundleWriter) : Prop :=
  ∃ steps, s'.steps = s.steps ++ steps ∧
    Disk.Climbing (committed S.toVerifier) Below (S.disk s) steps ∧
    Disk.Throughout (fun disk => committed S.toVerifier disk = some done ∨
      committed S.toVerifier disk = some next) (S.disk s) steps

theorem disk_of_steps {steps : List (DiskStep Path)} (h : s'.steps = s.steps ++ steps) :
    S.disk s' = (S.disk s).after steps := by
  unfold WriterSetting.disk
  rw [h, Disk.after_append]

theorem Commits.trans {s'' : BundleWriter} {next : Done} (h : Commits S done next s s')
    (h' : Commits S done next s' s'') : Commits S done next s s'' := by
  obtain ⟨steps, hsteps, hclimbing, hwithin⟩ := h
  obtain ⟨more, hmore, hclimbing', hwithin'⟩ := h'
  rw [disk_of_steps hsteps] at hclimbing' hwithin'
  exact ⟨steps ++ more, by rw [hmore, hsteps, List.append_assoc], hclimbing.append hclimbing',
    hwithin.append hwithin'⟩

/-- Steps that leave what is committed as it is. -/
theorem commits_of_throughout {steps : List (DiskStep Path)} {next : Done}
    (h : s'.steps = s.steps ++ steps)
    (hcommitted : Disk.Throughout (fun disk => committed S.toVerifier disk = some done) (S.disk s)
      steps) : Commits S done next s s' :=
  ⟨steps, h, Disk.climbing_of_throughout (below_self done) hcommitted,
    hcommitted.imp fun _ => .inl⟩

/-- What a call has come to: what is committed is what is done when the call returns, and what it
was before when the call was refused. -/
structure Progress (S : WriterSetting) (s : BundleWriter) (done next : Done)
    (o : Except Fault Unit) (s' : BundleWriter) : Prop where
  commits : Commits S done next s s'
  returned : o = .ok () → ∃ links lines, Settled S s' next links lines
  refused : ∀ message, o = .error (.recorderError message) →
    ∃ links lines, Settled S s' done links lines

/-- A call that was refused. -/
theorem Settled.refuse (h : Settled S s done links lines) {next : Done} (e : Fault) :
    Progress S s done next (.error e) s where
  commits := commits_of_throughout (List.append_nil _).symm (Disk.throughout_nil.mpr h.committed)
  returned := by simp
  refused _ _ := ⟨links, lines, h⟩

/-- The chains and the disk are all that matters of a state. -/
theorem Settled.congr (h : Settled S s done links lines) (hdisk : S.disk s' = S.disk s)
    (hevents : s'.eventChain = s.eventChain) (hdecisions : s'.decisionChain = s.decisionChain) :
    Settled S s' done links lines :=
  ⟨hdisk ▸ h.holds, hdisk ▸ h.visible, hevents ▸ h.events, hdecisions ▸ h.decisions, h.wellFormed,
    h.lines, h.numberedEvents, h.numberedDecisions, h.turns⟩

end Settled

end WagmiBench.Recorder
