import WagmiBench.Recorder.Progress

/-!
# The calls of a writer

Each method of the writer leads from a settled bundle to one with its record more, and is atomic for
the reader on the way.
-/

namespace WagmiBench.Recorder

open WagmiBench.Lib WagmiBench.Core WagmiBench.Spec

/-! ## Checks -/

namespace WriterSetting

variable (S : WriterSetting)

theorem requireOpen_ends (s : BundleWriter) : Ends requireOpen s fun _ s' => s' = s :=
  Ends.get_bind ((check_ends _ s).mono fun _ _ h => h.1)

theorem validate_ends (validator : Validator) (value : Json) (context : Text) (s : BundleWriter) :
    Ends (validate validator value context) s fun o s' => s' = s ∧
      (o = .ok () → validator.problem value = none) := by
  unfold validate
  split
  · rename_i hvalid
    refine Ends.pure ⟨rfl, fun _ => ?_⟩
    unfold validateInstance at hvalid
    split at hvalid
    · cases hvalid
    · assumption
  · exact Ends.throw ⟨rfl, by simp⟩

theorem integerFrom_ends (minimum : ℤ) (value : Option Json) (context : Text) (s : BundleWriter) :
    Ends (integerFrom minimum value context) s fun o s' => s' = s ∧
      ∀ n, o = .ok n → value = some (.int n) ∧ minimum ≤ n := by
  unfold integerFrom
  split
  · split
    · rename_i n hn
      refine Ends.pure ⟨rfl, fun m hm => ?_⟩
      obtain rfl := Except.ok.inj hm
      exact ⟨rfl, hn⟩
    · exact Ends.throw ⟨rfl, by simp⟩
  · exact Ends.throw ⟨rfl, by simp⟩

theorem integer_ends (value : Option Json) (context : Text) (s : BundleWriter) :
    Ends (integer value context) s fun o s' => s' = s ∧
      ∀ n, o = .ok n → value = some (.int n) := by
  refine Ends.bind (integerFrom_ends 0 value context s) ?_ ?_
  · rintro m _ ⟨rfl, hm⟩
    obtain ⟨rfl, hnonneg⟩ := hm m rfl
    refine Ends.pure ⟨rfl, fun n hn => ?_⟩
    obtain rfl := Except.ok.inj hn
    rw [Int.toNat_of_nonneg hnonneg]
  · rintro e _ ⟨rfl, -⟩
    exact ⟨rfl, by simp⟩

theorem canonical_ends (value : Json) (s : BundleWriter) :
    Ends (canonical value) s fun o s' => s' = s ∧
      (∀ e, o = .error e → e = .canonicalizationError) ∧
        ∀ bytes, o = .ok bytes → value.canonical = .ok bytes := by
  unfold canonical
  split
  · rename_i bytes hbytes
    refine Ends.pure ⟨rfl, by simp, fun b hb => ?_⟩
    obtain rfl := Except.ok.inj hb
    exact hbytes
  · exact Ends.throw ⟨rfl, by simp, by simp⟩

/-! Checks and conversions leave the writer as it is. -/

theorem requireOpen_moves : Moves Eq requireOpen := fun s =>
  (requireOpen_ends s).mono fun _ _ h => h.symm

theorem check_moves (c : Prop) [Decidable c] (message : Text) : Moves Eq (check c message) :=
  fun s => (check_ends message s).mono fun _ _ h => h.1.symm

theorem validate_moves (validator : Validator) (value : Json) (context : Text) :
    Moves Eq (validate validator value context) := fun s =>
  (validate_ends validator value context s).mono fun _ _ h => h.1.symm

theorem integerFrom_moves (minimum : ℤ) (value : Option Json) (context : Text) :
    Moves Eq (integerFrom minimum value context) := fun s =>
  (integerFrom_ends minimum value context s).mono fun _ _ h => h.1.symm

theorem integer_moves (value : Option Json) (context : Text) : Moves Eq (integer value context) :=
  fun s => (integer_ends value context s).mono fun _ _ h => h.1.symm

theorem canonical_moves (value : Json) : Moves Eq (canonical value) := fun s =>
  (canonical_ends value s).mono fun _ _ h => h.1.symm

theorem canonicalJsonl_moves (rows : List Members) : Moves Eq (canonicalJsonl rows) :=
  Moves.bind (Moves.mapM fun _ => canonical_moves _) fun _ => Moves.pure _

theorem checkLedgerRow_moves (profile : String) (row : Members) (index : ℕ) :
    Moves Eq (S.checkLedgerRow profile row index) := by
  refine Moves.bind (validate_moves _ _ _) fun _ => Moves.bind (check_moves _ _) fun _ => ?_
  refine Moves.bind (integerFrom_moves _ _ _) fun dNav => ?_
  exact Moves.bind (Moves.mapM fun _ => integerFrom_moves _ _ _) fun components =>
    check_moves _ _

/-- Linking a record: nothing is written when it cannot be linked; otherwise a front of the line. -/
theorem appendLink_ends {chain : BundleWriter → ChainBuilder}
    {setChain : ChainBuilder → BundleWriter → BundleWriter} {record : Bytes} {s : BundleWriter}
    (hsteps : ∀ next s, (setChain next s).steps = s.steps)
    (hchain : CHAIN_JSONL ∈ (S.disk s).paths) :
    Ends (S.appendLink chain setChain record) s fun o s' =>
      o = .error .canonicalizationError ∧ s'.steps = s.steps ∨
      ∃ link next line, ∃ pieces : List Bytes, (chain s).append S.sha record = .ok (link, next) ∧
        (linkValue link).canonical = .ok line ∧
        Performs (setChain next s) s' (pieces.map (.append CHAIN_JSONL)) ∧
        pieces.flatten <+: line ++ [newline] ∧
        (o = .ok () ∧ pieces.flatten = line ++ [newline] ∨ Fails o) := by
  unfold appendLink
  refine Ends.get_bind ?_
  split
  · exact Ends.throw (.inl ⟨rfl, rfl⟩)
  · rename_i link next happend
    refine Ends.modify_bind (Ends.bind (canonical_ends _ _) ?_ ?_)
    · rintro line _ ⟨rfl, -, hline⟩
      have hdisk : S.disk (setChain next s) = S.disk s := by
        unfold disk
        rw [hsteps]
      refine (S.appendFsync_ends (by rwa [hdisk])).mono ?_
      rintro o s' ⟨pieces, hpieces, hfront, hends⟩
      exact .inr ⟨link, next, line, pieces, happend, hline line rfl, hpieces, hfront, hends⟩
    · rintro e _ ⟨rfl, he, -⟩
      exact .inl ⟨by rw [he e rfl], hsteps _ _⟩

end WriterSetting

/-! ## The calls -/

section Calls

variable {S : WriterSetting} {s : BundleWriter} {done : Done} {links : List ChainLink}
  {lines : List Bytes}

theorem bytesOf_eq {members : Members} {bytes : Bytes}
    (h : (Json.obj members).canonical = .ok bytes) : bytesOf members = [bytes] := by
  unfold bytesOf
  rw [h]
  rfl

/-- The link of a record: what is committed climbs from `done` to `next`. -/
theorem appendLink_commits (done next : Done) {chain : BundleWriter → ChainBuilder}
    {setChain : ChainBuilder → BundleWriter → BundleWriter} {record : Bytes}
    (hsteps : ∀ builder s, (setChain builder s).steps = s.steps)
    (hholds : Holds (S.disk s) next.1 [] lines [] next.2)
    (hevents : OneMore done.1 next.1) (hdecisions : OneMore done.2 next.2)
    (hbefore : Linked S.toVerifier done.1 done.2 links lines)
    (hafter : ∀ link builder line, (chain s).append S.sha record = .ok (link, builder) →
      (WriterSetting.linkValue link).canonical = .ok line →
      Linked S.toVerifier next.1 next.2 (links ++ [link]) (lines ++ [line]))
    (hnumberedEvents : Numbered S.limits S.event "seq" next.1)
    (hnumberedDecisions : Numbered S.limits S.decisionRecord "turn" next.2)
    (hturns : next.2.length ≤ 10_000) :
    Ends (S.appendLink chain setChain record) s fun o s' =>
      Commits S done next s s' ∧ (∀ message, o ≠ .error (.recorderError message)) ∧
      (o = .ok () → ∃ link builder line, (chain s).append S.sha record = .ok (link, builder) ∧
        (WriterSetting.linkValue link).canonical = .ok line ∧
        Holds (S.disk s') next.1 [] (lines ++ [line]) [] next.2 ∧
        Verifier.filesIn (S.disk s') .decisions = Verifier.filesIn (S.disk s) .decisions ∧
        ∃ steps, Performs (setChain builder s) s' steps) := by
  refine (S.appendLink_ends hsteps (Disk.mem_paths_of_read hholds.chain)).mono ?_
  rintro o s' (⟨rfl, hs'⟩ | ⟨link, builder, line, pieces, happend, hline, hperforms, hfront, hends⟩)
  · -- the link could not be built, and the record stays without one
    have hstays := committed_of_holds hholds hbefore hnumberedEvents hnumberedDecisions hevents
      hdecisions hturns
    exact ⟨commits_of_throughout (by simpa using hs') (Disk.throughout_nil.mpr hstays), by simp,
      by simp⟩
  · have hstepsEq : s'.steps = s.steps ++ pieces.map (.append CHAIN_JSONL) := by
      rw [hperforms, hsteps]
    have hnewline : newline ∉ line := (Json.canonical_isLine hline).1
    have hcommitted := committed_link hholds hevents hdecisions hbefore
      (hafter link builder line happend hline) hnewline hnumberedEvents hnumberedDecisions hturns
    have hbelow : Below (some done) (some next) :=
      ⟨done, next, rfl, rfl, hevents.isPrefix, hdecisions.isPrefix⟩
    refine ⟨⟨_, hstepsEq, ?_, ?_⟩, ?_, ?_⟩
    · exact Disk.climbing_pieces (below_self done) hbelow (below_self next) hfront hcommitted
    · refine Disk.throughout_pieces fun front h => ?_
      rw [hcommitted front (h.trans hfront)]
      split
      · exact .inr rfl
      · exact .inl rfl
    · rintro message rfl
      rcases hends with ⟨h, -⟩ | h <;> cases h
    · rintro rfl
      obtain ⟨-, hflatten⟩ := hends.resolve_right (by simp [Fails])
      have hgrown := hholds.append_link hnewline hfront
      rw [if_pos hflatten] at hgrown
      have hdisk : S.disk s' = (S.disk s).append CHAIN_JSONL pieces.flatten := by
        rw [disk_of_steps hstepsEq, Disk.after_pieces]
      rw [← hdisk] at hgrown
      exact ⟨link, builder, line, happend, hline, hgrown, hdisk ▸ filesIn_append rfl, _, hperforms⟩

/-- **An event**: its line, and then the line of its link. -/
theorem appendEvent_progress (h : Settled S s done links lines) {event : Members}
    (hplain : (Json.obj event).Plain S.limits.maxDepth) :
    Ends (S.appendEvent event) s
      (Progress S s done (done.1 ++ bytesOf event, done.2)) := by
  refine Ends.bind (WriterSetting.requireOpen_ends s) ?_ fun e s' hs' => hs' ▸ h.refuse e
  rintro _ _ rfl
  refine Ends.get_bind (Ends.bind (WriterSetting.validate_ends _ _ _ _) ?_
    fun e s' hs' => hs'.1 ▸ h.refuse e)
  rintro _ _ ⟨rfl, hvalid⟩
  refine Ends.bind (WriterSetting.integer_ends _ _ _) ?_ fun e s' hs' => hs'.1 ▸ h.refuse e
  rintro seq _ ⟨rfl, hseq⟩
  refine Ends.bind (WriterSetting.check_ends _ _) ?_ fun e s' hs' => hs'.1 ▸ h.refuse e
  rintro _ s ⟨rfl, hcheck⟩
  obtain ⟨rfl, -⟩ := hcheck.resolve_right (by simp)
  refine Ends.bind (WriterSetting.canonical_ends _ _) ?_ fun e s' hs' => hs'.1 ▸ h.refuse e
  rintro record s ⟨rfl, -, hrecord⟩
  have hrecord := hrecord record rfl
  rw [bytesOf_eq hrecord]
  -- the event is a record with the next number
  obtain ⟨-, hashes, -, -, hbuilder⟩ := build_eq_ok.mp h.events
  have hcount : s.eventChain.count = done.1.length := by rw [hbuilder]
  have hisRecord : IsRecord S.limits S.event "seq" done.1.length record :=
    isRecord_of_canonical hplain (hvalid rfl) hrecord
      (by rw [← hcount]; exact hseq _ rfl)
  have hnumbered := h.numberedEvents.concat hisRecord
  have hline : newline ∉ record := (Json.canonical_isLine hrecord).1
  -- while its line is written nothing is committed
  have hstays : ∀ front, front <+: record ++ [newline] →
      committed S.toVerifier ((S.disk s).append EVENTS_JSONL front) = some done := by
    intro front hfront
    have hgrown := h.holds.append_event hline hfront
    split at hgrown
    · exact committed_of_holds hgrown h.linked hnumbered h.numberedDecisions (oneMore_concat _ _)
        (oneMore_self _) h.turns
    · exact committed_of_holds hgrown h.linked h.numberedEvents h.numberedDecisions (oneMore_self _)
        (oneMore_self _) h.turns
  have hthrough : ∀ pieces : List Bytes, pieces.flatten <+: record ++ [newline] →
      Disk.Throughout (fun disk => committed S.toVerifier disk = some done) (S.disk s)
        (pieces.map (.append EVENTS_JSONL)) := fun pieces hfront =>
    Disk.throughout_pieces fun front h => hstays front (h.trans hfront)
  refine Ends.bind (S.appendFsync_ends (Disk.mem_paths_of_read h.holds.events)) ?_ ?_
  · rintro _ s₁ ⟨pieces, hperforms, hfront, hends⟩
    obtain ⟨-, hflatten⟩ := hends.resolve_right (by simp [Fails])
    have hcommits : Commits S done (done.1 ++ [record], done.2) s s₁ :=
      commits_of_throughout hperforms.steps (hthrough pieces hfront)
    have hgrown := h.holds.append_event hline hfront
    rw [if_pos hflatten, ← Disk.after_pieces, ← S.disk_performs hperforms] at hgrown
    have hchains := hperforms.chains
    have hfiles : Verifier.filesIn (S.disk s₁) .decisions =
        Verifier.filesIn (S.disk s) .decisions := by
      rw [S.disk_performs hperforms, Disk.after_pieces, filesIn_append rfl]
    have extend : ∀ {link builder}, s₁.eventChain.append S.sha record = .ok (link, builder) → _ :=
      fun happend => h.events.extend h.decisions (by simp) (hchains.1 ▸ happend)
    have hafter : ∀ link builder line, s₁.eventChain.append S.sha record = .ok (link, builder) →
        (WriterSetting.linkValue link).canonical = .ok line →
        Linked S.toVerifier (done.1 ++ [record]) done.2 (links ++ [link]) (lines ++ [line]) := by
      intro link builder line happend hlinkLine
      obtain ⟨hlink, hchained, hother⟩ := extend happend
      exact ⟨⟨_, hchained⟩, ⟨_, hother⟩, wellFormed_concat h.wellFormed hlink,
        Lines.concat h.lines hlinkLine⟩
    have hlinking : Ends (S.appendLink BundleWriter.eventChain BundleWriter.setEventChain record)
        s₁ _ := appendLink_commits done (done.1 ++ [record], done.2) (fun _ _ => rfl) hgrown
      (oneMore_concat _ _) (oneMore_self _) h.linked hafter hnumbered h.numberedDecisions h.turns
    refine Ends.bind hlinking ?_ ?_
    · rintro _ s₂ ⟨hcommits', -, hreturned⟩
      obtain ⟨link, builder, line, happend, hlinkLine, hholds, hfiles', steps, hperforms'⟩ :=
        hreturned rfl
      obtain ⟨hlink, hchained, hother⟩ := extend happend
      have hevents : s₂.eventChain = builder := hperforms'.chains.1
      have hdecisions : s₂.decisionChain = s.decisionChain := hperforms'.chains.2.trans hchains.2
      exact Ends.modify ⟨hcommits.trans hcommits', fun _ => ⟨links ++ [link], lines ++ [line],
        hholds, (hfiles'.trans hfiles) ▸ h.visible, hevents ▸ hchained, hdecisions ▸ hother,
        wellFormed_concat h.wellFormed hlink, Lines.concat h.lines hlinkLine, hnumbered,
        h.numberedDecisions, h.turns⟩, by simp⟩
    · rintro e s₂ ⟨hcommits', hnot, -⟩
      exact ⟨hcommits.trans hcommits', by simp, fun message he => absurd he (hnot message)⟩
  · rintro e s₁ ⟨pieces, hperforms, hfront, hends⟩
    refine ⟨commits_of_throughout hperforms.steps (hthrough pieces hfront), by simp,
      fun message he => ?_⟩
    rcases hends with ⟨h, -⟩ | h
    · cases h
    · rw [he] at h
      cases h

/-- Installing a file that leaves what is committed as it is. -/
theorem atomicNewFile_commits (h : Settled S s done links lines) (next : Done) {path : Path}
    {bytes : Bytes}
    (hinstalled : committed S.toVerifier (S.disk s ++ [(path, bytes)]) = some done) :
    Ends (S.atomicNewFile path bytes) s fun o s' => Commits S done next s s' ∧
      s'.eventChain = s.eventChain ∧ s'.decisionChain = s.decisionChain ∧
      (o = .ok () → S.disk s' = S.disk s ++ [(path, bytes)]) ∧
      ∀ message, o = .error (.recorderError message) → S.disk s' = S.disk s := by
  refine (S.atomicNewFile_ends path bytes s).mono ?_
  rintro o s' ⟨steps, hperforms, hinstalling⟩
  refine ⟨commits_of_throughout hperforms.steps (hinstalling.throughout h.committed ?_ hinstalled),
    hperforms.chains.1, hperforms.chains.2, ?_, ?_⟩
  · intro front _
    exact committed_of_holds (h.holds.concat (aside_temporary path)) h.linked h.numberedEvents
      h.numberedDecisions (oneMore_self _) (oneMore_self _) h.turns
  · rintro rfl
    rw [S.disk_performs hperforms, hinstalling.after_ok]
  · rintro message rfl
    rw [S.disk_performs hperforms, hinstalling.refused_steps, Disk.after_nil]

/-- **Another file.** -/
theorem atomicNewFile_progress (h : Settled S s done links lines) {path : Path} {bytes : Bytes}
    (hevents : path ≠ EVENTS_JSONL) (hchain : path ≠ CHAIN_JSONL)
    (hfolder : path.folder ≠ .decisions) :
    Ends (S.atomicNewFile path bytes) s (Progress S s done done) := by
  have hholds : Holds (S.disk s ++ [(path, bytes)]) done.1 [] lines [] done.2 :=
    h.holds.concat ⟨hevents, hchain, fun heq => absurd heq hfolder⟩
  have hvisible : ∀ file ∈ Verifier.filesIn (S.disk s ++ [(path, bytes)]) .decisions,
      isDotName file.1 = false := by
    rw [filesIn_concat, if_neg hfolder, List.append_nil]
    exact h.visible
  have hinstalled := committed_of_holds hholds h.linked h.numberedEvents h.numberedDecisions
    (oneMore_self _) (oneMore_self _) h.turns
  refine (atomicNewFile_commits h done hinstalled).mono ?_
  rintro o s' ⟨hcommits, hevents, hdecisions, hok, hrefused⟩
  refine ⟨hcommits, fun ho => ⟨links, lines, hok ho ▸ hholds, hok ho ▸ hvisible, hevents ▸ h.events,
    hdecisions ▸ h.decisions, h.wellFormed, h.lines, h.numberedEvents, h.numberedDecisions,
    h.turns⟩, fun message he => ⟨links, lines, ?_⟩⟩
  exact h.congr (hrefused message he) hevents hdecisions

/-- **A decision**: its file, and then the line of its link. -/
theorem appendDecision_progress (h : Settled S s done links lines) {decision : Members}
    (hplain : (Json.obj decision).Plain S.limits.maxDepth) (hturns : done.2.length < 10_000) :
    Ends (S.appendDecision decision) s
      (Progress S s done (done.1, done.2 ++ bytesOf decision)) := by
  refine Ends.bind (WriterSetting.requireOpen_ends s) ?_ fun e s' hs' => hs' ▸ h.refuse e
  rintro _ _ rfl
  refine Ends.bind (WriterSetting.integer_ends _ _ _) ?_ fun e s' hs' => hs'.1 ▸ h.refuse e
  rintro turn _ ⟨rfl, hturn⟩
  refine Ends.get_bind (Ends.bind (WriterSetting.check_ends _ _) ?_
    fun e s' hs' => hs'.1 ▸ h.refuse e)
  rintro _ s ⟨rfl, hcheck⟩
  obtain ⟨rfl, -⟩ := hcheck.resolve_right (by simp)
  refine Ends.bind (WriterSetting.check_ends _ _) ?_ fun e s' hs' => hs'.1 ▸ h.refuse e
  rintro _ s ⟨rfl, -⟩
  refine Ends.bind (WriterSetting.validate_ends _ _ _ _) ?_ fun e s' hs' => hs'.1 ▸ h.refuse e
  rintro _ s ⟨rfl, hvalid⟩
  refine Ends.bind (WriterSetting.canonical_ends _ _) ?_ fun e s' hs' => hs'.1 ▸ h.refuse e
  rintro record s ⟨rfl, -, hrecord⟩
  have hrecord := hrecord record rfl
  rw [bytesOf_eq hrecord]
  -- the decision is a record with the next number
  obtain ⟨-, hashes, -, -, hbuilder⟩ := build_eq_ok.mp h.decisions
  have hcount : s.decisionChain.count = done.2.length := by rw [hbuilder]
  have hisRecord : IsRecord S.limits S.decisionRecord "turn" done.2.length record :=
    isRecord_of_canonical hplain (hvalid rfl) hrecord
      (by rw [← hcount]; exact hturn _ rfl)
  have hnumbered := h.numberedDecisions.concat hisRecord
  have hlength : (done.2 ++ [record]).length ≤ 10_000 := by
    rw [List.length_append, List.length_singleton]
    omega
  have hgrown : Holds (S.disk s ++ [(⟨.decisions, turnName done.2.length⟩, record)]) done.1 []
      lines [] (done.2 ++ [record]) := h.holds.concat_decision
  have hvisible : ∀ file ∈ Verifier.filesIn
      (S.disk s ++ [(⟨.decisions, turnName done.2.length⟩, record)]) .decisions,
      isDotName file.1 = false := by
    rw [filesIn_concat, if_pos rfl]
    exact List.forall_mem_append.mpr
      ⟨h.visible, List.forall_mem_singleton.mpr (isDotName_turnName _)⟩
  rw [← hcount] at hgrown hvisible
  have hstays := committed_of_holds hgrown h.linked h.numberedEvents hnumbered (oneMore_self _)
    (oneMore_concat _ _) hlength
  refine Ends.bind (atomicNewFile_commits h (done.1, done.2 ++ [record]) hstays) ?_ ?_
  · rintro _ s₁ ⟨hcommits, hsameEvents, hsameDecisions, hok, -⟩
    rw [← hok rfl] at hgrown hvisible
    have extend : ∀ {link builder},
        s₁.decisionChain.append S.sha record = .ok (link, builder) → _ :=
      fun happend => h.decisions.extend h.events (by simp) (hsameDecisions ▸ happend)
    have hafter : ∀ link builder line, s₁.decisionChain.append S.sha record = .ok (link, builder) →
        (WriterSetting.linkValue link).canonical = .ok line →
        Linked S.toVerifier done.1 (done.2 ++ [record]) (links ++ [link]) (lines ++ [line]) := by
      intro link builder line happend hlinkLine
      obtain ⟨hlink, hchained, hother⟩ := extend happend
      exact ⟨⟨_, hother⟩, ⟨_, hchained⟩, wellFormed_concat h.wellFormed hlink,
        Lines.concat h.lines hlinkLine⟩
    have hlinking : Ends (S.appendLink BundleWriter.decisionChain BundleWriter.setDecisionChain
        record) s₁ _ := appendLink_commits done (done.1, done.2 ++ [record]) (fun _ _ => rfl) hgrown
      (oneMore_self _) (oneMore_concat _ _) h.linked hafter h.numberedEvents hnumbered hlength
    refine hlinking.mono ?_
    rintro o s₂ ⟨hcommits', hnot, hreturned⟩
    refine ⟨hcommits.trans hcommits', fun ho => ?_, fun message he => absurd he (hnot message)⟩
    obtain ⟨link, builder, line, happend, hlinkLine, hholds, hfiles, steps, hperforms'⟩ :=
      hreturned ho
    obtain ⟨hlink, hchained, hother⟩ := extend happend
    have hevents : s₂.eventChain = s.eventChain := hperforms'.chains.1.trans hsameEvents
    have hdecisions : s₂.decisionChain = builder := hperforms'.chains.2
    exact ⟨links ++ [link], lines ++ [line], hholds, hfiles ▸ hvisible, hevents ▸ hother,
      hdecisions ▸ hchained, wellFormed_concat h.wellFormed hlink, Lines.concat h.lines hlinkLine,
      h.numberedEvents, hnumbered, hlength⟩
  · rintro e s₁ ⟨hcommits, hsameEvents, hsameDecisions, -, hrefused⟩
    exact ⟨hcommits, by simp, fun message he =>
      ⟨links, lines, h.congr (hrefused message he) hsameEvents hsameDecisions⟩⟩

theorem Settled.reads {α : Type} {m : Method α} {f : α → Method Unit} {next : Done}
    (h : Settled S s done links lines) (hm : Moves Eq m)
    (hf : ∀ a, Ends (f a) s (Progress S s done next)) :
    Ends (m >>= f) s (Progress S s done next) := by
  refine Ends.bind (hm s) ?_ ?_
  · rintro a _ rfl
    exact hf a
  · rintro e _ rfl
    exact h.refuse e

/-- Calls one after the other that add no records. -/
theorem progress_bind {m : Method Unit} {f : Unit → Method Unit}
    (hm : Ends m s (Progress S s done done))
    (hf : ∀ s' links lines, Settled S s' done links lines →
      Ends (f ()) s' (Progress S s' done done)) :
    Ends (m >>= f) s (Progress S s done done) := by
  refine Ends.bind hm ?_ ?_
  · intro a s₁ h₁
    obtain ⟨links, lines, hsettled⟩ := h₁.returned rfl
    refine (hf s₁ links lines hsettled).mono fun o s' h' => ?_
    exact ⟨h₁.commits.trans h'.commits, h'.returned, h'.refused⟩
  · intro e s₁ h₁
    exact ⟨h₁.commits, by simp, fun message he => h₁.refused message (by rw [Except.error.inj he])⟩

/-- What is only remembered. -/
theorem modify_progress (h : Settled S s done links lines) {g : BundleWriter → BundleWriter}
    (hsteps : (g s).steps = s.steps) (hevents : (g s).eventChain = s.eventChain)
    (hdecisions : (g s).decisionChain = s.decisionChain) :
    Ends (modify g) s (Progress S s done done) := by
  have hdisk : S.disk (g s) = S.disk s := by
    unfold WriterSetting.disk
    rw [hsteps]
  exact Ends.modify ⟨commits_of_throughout (by simpa using hsteps)
    (Disk.throughout_nil.mpr h.committed),
    fun _ => ⟨links, lines, h.congr hdisk hevents hdecisions⟩, by simp⟩

theorem writeObservation_progress (h : Settled S s done links lines) (turn : Json)
    (observation : Members) :
    Ends (S.writeObservation turn observation) s (Progress S s done done) := by
  refine h.reads WriterSetting.requireOpen_moves fun _ => ?_
  refine h.reads (WriterSetting.integer_moves _ _) fun number => Ends.get_bind ?_
  refine h.reads (WriterSetting.check_moves _ _) fun _ => ?_
  refine h.reads (WriterSetting.validate_moves _ _ _) fun _ => ?_
  refine h.reads (WriterSetting.canonical_moves _) fun bytes => ?_
  exact progress_bind (atomicNewFile_progress h (by simp [EVENTS_JSONL]) (by simp [CHAIN_JSONL])
    (by simp)) fun s' links lines h' => modify_progress h' rfl rfl rfl

theorem writeRaw_progress (h : Settled S s done links lines) (relativeRef : Text) (data : Bytes) :
    Ends (S.writeRaw relativeRef data) s (Progress S s done done) := by
  refine h.reads WriterSetting.requireOpen_moves fun _ => ?_
  split
  · exact h.refuse _
  · refine Ends.get_bind (h.reads (WriterSetting.check_moves _ _) fun _ => ?_)
    exact progress_bind (atomicNewFile_progress h (by simp [EVENTS_JSONL]) (by simp [CHAIN_JSONL])
      (by simp)) fun s' links lines h' => modify_progress h' rfl rfl rfl

theorem writeLedgers_progress (h : Settled S s done links lines) (primary stress2x : List Members) :
    Ends (S.writeLedgers primary stress2x) s (Progress S s done done) := by
  refine h.reads WriterSetting.requireOpen_moves fun _ => ?_
  refine h.reads (WriterSetting.check_moves _ _) fun _ => ?_
  refine h.reads ?_ fun _ => ?_
  · refine Moves.forIn fun group _ => ?_
    refine Moves.bind (Moves.forIn fun row _ => ?_) fun _ => Moves.pure _
    exact Moves.bind (S.checkLedgerRow_moves _ _ _) fun _ => Moves.pure _
  · refine h.reads (WriterSetting.canonicalJsonl_moves _) fun bytes => ?_
    refine progress_bind (atomicNewFile_progress h (by decide) (by decide) (by simp))
      fun s' links lines h' => ?_
    refine h'.reads (WriterSetting.canonicalJsonl_moves _) fun bytes => ?_
    exact atomicNewFile_progress h' (by decide) (by decide) (by simp)

theorem writeMetrics_progress (h : Settled S s done links lines) (metrics : Members) :
    Ends (S.writeMetrics metrics) s (Progress S s done done) := by
  refine h.reads WriterSetting.requireOpen_moves fun _ => ?_
  refine h.reads (WriterSetting.validate_moves _ _ _) fun _ => ?_
  refine h.reads (WriterSetting.check_moves _ _) fun _ => ?_
  refine h.reads (WriterSetting.canonical_moves _) fun bytes => ?_
  exact atomicNewFile_progress h (by decide) (by decide) (by simp)

end Calls

end WagmiBench.Recorder
