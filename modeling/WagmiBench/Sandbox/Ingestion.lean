import Mathlib.Data.List.Pairwise
import WagmiBench.Sandbox.EgressSource

/-!
# Taking in the block logs exactly once

Drains over two logs that are written meanwhile. Whatever was seen whole of a log has been told once
or is buffered, in the order of the log; a drain that fails tells it later.

A log that is exchanged is noticed by the lines that are recorded. Behind a reading that was not
finished they are fewer than were taken in, and a log that departs only there goes unnoticed, its
lines lost to those that were read in their place.
-/

namespace WagmiBench.Sandbox

open WagmiBench.Lib WagmiBench.Spec WagmiBench.Harness

/-! ## Logs that grow -/

/-- Both logs, fact by fact. -/
structure ContainerLogs where
  gateway : List LoggedFact
  guard : List Guard.LoggedFact

namespace ContainerLogs

variable (logs : ContainerLogs)

/-- What the sinks write. -/
def text : LogSource → Text
  | .gateway => logs.gateway.flatMap fun fact => JsonLineBlockSink.line fact.toBlockFact
  | .guard => logs.guard.flatMap fun fact => Guard.sinkLine fact.toBlockFact

/-- The facts of a log. -/
def facts : LogSource → List LoggedFact
  | .gateway => logs.gateway
  | .guard => logs.guard.map Guard.LoggedFact.forward

/-- The lines of a log. -/
def lines (source : LogSource) : List Text :=
  (logs.facts source).map fun fact => recordText fact.toBlockFact

/-- The snapshots of a log are beginnings of it, each continuing the one before. -/
structure Grows (drains : List Snapshots) : Prop where
  written : ∀ outputs ∈ drains, ∀ source, ∀ text ∈ outputs source, text <+: logs.text source
  growing : ∀ source, (drains.filterMap fun outputs => outputs source).Pairwise (· <+: ·)

variable {logs}

theorem text_eq (source : LogSource) : logs.text source = writtenLines (logs.lines source) := by
  cases source with
  | gateway => simp [text, lines, facts, writtenLines, List.flatMap_map, JsonLineBlockSink.line_eq]
  | guard =>
    simp [text, lines, facts, writtenLines, List.flatMap_map, Guard.LoggedFact.sinkLine_eq]

theorem isTextLine_lines (source : LogSource) : ∀ line ∈ logs.lines source, IsTextLine line := by
  intro line hline
  obtain ⟨fact, -, rfl⟩ := List.mem_map.mp hline
  exact recordText_isTextLine fact

end ContainerLogs

/-! ## What is told -/

/-- The event of a fact: its destination, port, protocol and count. -/
def LoggedFact.event (fact : LoggedFact) : HarnessEvent where
  type := txt "EgressBlocked"
  payload := [(txt "destination", .str fact.destination),
    (txt "port", match fact.port with | some p => .int p | none => .null),
    (txt "protocol", .str fact.protocol.text), (txt "count", .int fact.count)]

theorem LoggedFact.harnessEvent_record (fact : LoggedFact) :
    fact.record.harnessEvent = fact.event := rfl

/-- The events, told or to be told, are the first `n` facts of each log, once and in its order. -/
def Tells (logs : ContainerLogs) (n : LogSource → ℕ) (events : List HarnessEvent) : Prop :=
  ∃ told : List (LogSource × HarnessEvent), told.map Prod.snd = events ∧
    ∀ source, (told.filter (·.1 = source)).map Prod.snd =
      ((logs.facts source).take (n source)).map LoggedFact.event

/-- The events a watched source has returned and those it still holds. -/
def Watch.events (watch : Watch) : List HarnessEvent :=
  watch.returned ++ watch.source.buffer.records.map ParsedBlockRecord.harnessEvent

/-- How much of a log was seen whole. -/
def Watch.seenWhole (watch : Watch) (logs : ContainerLogs) (source : LogSource) : ℕ :=
  wholeLines (logs.lines source) (watch.shown source)

/-! ## One line after the other -/

section Ingest

variable {limits : Json.Limits} {logs : ContainerLogs}

/-- The buffer holds what was not told yet of the first `n` facts of each log, and knows them all. -/
structure Ingested (logs : ContainerLogs) (n : LogSource → ℕ) (returned : List HarnessEvent)
    (buffer : BlockEventBuffer) : Prop where
  tells : Tells logs n (returned ++ buffer.records.map ParsedBlockRecord.harnessEvent)
  seen : ∀ source cursor, (LogSource.text source, cursor) ∈ buffer.seen ↔
    ∃ i < n source, cursor = decimal i

theorem LogSource.text_injective : Function.Injective LogSource.text := by
  intro a b h
  cases a <;> cases b <;> first | rfl | exact absurd h (by decide)

variable {n : LogSource → ℕ} {returned : List HarnessEvent} {buffer : BlockEventBuffer}
  {source : LogSource}

/-- A line at its place is taken in, unless it was before. -/
theorem Ingested.append (h : Ingested logs n returned buffer) {fact : LoggedFact} {i : ℕ}
    (hfact : (logs.facts source)[i]? = some fact) (hi : i ≤ n source) :
    ∃ fresh buffer', buffer.append limits
        ⟨source.text, decimal i, .str (recordText fact.toBlockFact)⟩ = (.ok fresh, buffer') ∧
      Ingested logs (Function.update n source (max (n source) (i + 1))) returned buffer' := by
  have hparse : ((LogLine.str (recordText fact.toBlockFact)).encode >>= parseBlockRecord limits) =
      .ok fact.record := @parse_recordText limits fact source.text (decimal i)
  rw [append_named, hparse]
  dsimp only
  by_cases hold : i < n source
  · rw [if_pos ((h.seen _ _).mpr ⟨i, hold, rfl⟩), Nat.max_eq_left hold, Function.update_eq_self]
    exact ⟨_, _, rfl, h⟩
  · obtain rfl : i = n source := by omega
    have hfresh : (source.text, decimal (n source)) ∉ buffer.seen := by
      rw [h.seen]
      rintro ⟨j, hj, heq⟩
      exact absurd (decimal_injective heq) (by omega)
    rw [if_neg hfresh, Nat.max_eq_right (Nat.le_succ _)]
    refine ⟨_, _, rfl, ?_, fun other cursor => ?_⟩
    · obtain ⟨told, hevents, horder⟩ := h.tells
      refine ⟨told ++ [(source, fact.event)], ?_, fun other => ?_⟩
      · simp [hevents, LoggedFact.harnessEvent_record]
      · rw [List.filter_append, List.map_append, horder]
        by_cases hother : source = other
        · subst hother
          rw [Function.update_self, List.take_add_one, hfact]
          simp
        · rw [Function.update_of_ne (Ne.symm hother)]
          simp [hother]
    · rw [List.mem_cons, h.seen, Prod.mk.injEq, LogSource.text_injective.eq_iff]
      by_cases hother : other = source
      · subst hother
        rw [Function.update_self]
        simp only [true_and, Nat.lt_succ_iff_lt_or_eq]
        constructor
        · rintro (rfl | ⟨j, hj, rfl⟩)
          · exact ⟨_, .inr rfl, rfl⟩
          · exact ⟨j, .inl hj, rfl⟩
        · rintro ⟨j, hj | rfl, rfl⟩
          · exact .inr ⟨j, hj, rfl⟩
          · exact .inl rfl
      · rw [Function.update_of_ne hother]
        simp [hother]

/-- Lines in their places are taken in one after the other. -/
theorem Ingested.lines (front : List LoggedFact) {rest : List LoggedFact} {i : ℕ}
    (h : Ingested logs n returned buffer) (hfront : (logs.facts source).drop i = front ++ rest)
    (hi : i ≤ n source) (tail : List Text) :
    ∃ buffer', ingestLines limits source i
        (front.map (fun fact => recordText fact.toBlockFact) ++ tail) buffer =
          ingestLines limits source (i + front.length) tail buffer' ∧
      Ingested logs (Function.update n source (max (n source) (i + front.length))) returned
        buffer' := by
  induction front generalizing i n buffer with
  | nil =>
    refine ⟨buffer, rfl, ?_⟩
    rwa [List.length_nil, Nat.add_zero, Nat.max_eq_left hi, Function.update_eq_self]
  | cons fact front ih =>
    have hfact : (logs.facts source)[i]? = some fact := by
      rw [← List.head?_drop, hfront, List.cons_append, List.head?_cons]
    have hdrop : (logs.facts source).drop (i + 1) = front ++ rest := by
      rw [← List.tail_drop, hfront, List.cons_append, List.tail_cons]
    obtain ⟨fresh, next, happend, hnext⟩ := @Ingested.append limits _ _ _ _ _ h _ _ hfact hi
    obtain ⟨buffer', hingest, hdone⟩ := ih hnext hdrop (by simp)
    refine ⟨buffer', ?_, ?_⟩
    · rw [List.map_cons, List.cons_append, ingestLines, happend, List.length_cons,
        show i + (front.length + 1) = i + 1 + front.length by omega, ← hingest]
    · rw [Function.update_idem, Function.update_self] at hdone
      convert hdone using 2
      rw [List.length_cons]
      omega

/-! ## One log after the other -/

/-- A source in step with the logs: what was seen whole is taken in, and what is recorded of a log is
a beginning of that. -/
structure Follows (logs : ContainerLogs) (state : EgressSource) (shown : LogSource → Text)
    (returned : List HarnessEvent) : Prop where
  ingested : Ingested logs (fun source => wholeLines (logs.lines source) (shown source)) returned
    state.buffer
  prior : ∀ source, ∃ p ≤ wholeLines (logs.lines source) (shown source),
    state.priorLines source = (logs.lines source).take p

variable {state : EgressSource} {shown : LogSource → Text}

/-- A snapshot that continues what was shown passes the comparison, and its whole lines are taken
in, whether or not a cut one follows. -/
theorem Follows.read (h : Follows logs state shown returned) {output : Option Text}
    (hshown : ∀ text ∈ output, shown source <+: text ∧ text <+: logs.text source) :
    Follows logs (state.read limits source output).2
      (Function.update shown source (output.getD (shown source))) returned := by
  cases output with
  | none => simpa [EgressSource.read, Function.update_eq_self] using h
  | some text =>
    obtain ⟨hgrown, hwritten⟩ := hshown text rfl
    rw [ContainerLogs.text_eq] at hwritten
    obtain ⟨p, hp, hprior⟩ := h.prior source
    have hmono := @wholeLines_mono (logs.lines source) _ _ hgrown
    have hle := wholeLines_le (logs.lines source) text
    obtain ⟨w, hw⟩ : ∃ w, w = wholeLines (logs.lines source) text := ⟨_, rfl⟩
    -- the lines of the snapshot are the whole ones and at most a cut one
    obtain ⟨tail, hlines, htail⟩ : ∃ tail, textLines text = (logs.lines source).take w ++ tail ∧
        (tail = [] ∨ ∃ begun, tail = [begun] ∧
          ¬ IsRecordLine limits begun) := by
      rcases textLines_prefix (ContainerLogs.isTextLine_lines source) hwritten with
        hwhole | ⟨line, begun, hline, -, hbegun, hcut, hlines⟩
      · exact ⟨[], by rw [List.append_nil, hw, hwhole], .inl rfl⟩
      · refine ⟨[begun], by rw [hw, hlines], .inr ⟨begun, rfl, ?_⟩⟩
        obtain ⟨fact, -, rfl⟩ := List.mem_map.mp (List.mem_of_getElem? hline)
        obtain ⟨e, he⟩ := @parse_begun limits fact [] [] _ hbegun hcut
        rintro ⟨record, hrecord⟩
        exact absurd (he.symm.trans hrecord) (by simp)
    obtain ⟨front, hfront⟩ : ∃ front, front = ((logs.facts source).take w).drop p := ⟨_, rfl⟩
    have hlength : (logs.lines source).length = (logs.facts source).length := List.length_map _
    have hcount : p + front.length = w := by
      rw [hfront, List.length_drop, List.length_take]
      omega
    have hplace : (logs.facts source).drop p = front ++ (logs.facts source).drop w := by
      conv_lhs => rw [← List.take_append_drop w (logs.facts source)]
      rw [List.drop_append_of_le_length (by rw [List.length_take]; omega), hfront]
    have hwhole : (logs.lines source).take w =
        (logs.lines source).take p ++ front.map fun fact => recordText fact.toBlockFact := by
      rw [hfront, List.map_drop, List.map_take, ← ContainerLogs.lines,
        show (logs.lines source).take p = ((logs.lines source).take w).take p by
          rw [List.take_take, Nat.min_eq_left (by omega)], List.take_append_drop]
    obtain ⟨buffer', hingest, hdone⟩ :=
      @Ingested.lines limits _ _ _ _ _ front _ _ h.ingested hplace hp tail
    have hseen : Function.update (fun s => wholeLines (logs.lines s) (shown s)) source
        (max (wholeLines (logs.lines source) (shown source)) (p + front.length)) =
        fun s => wholeLines (logs.lines s) (Function.update shown source text s) := by
      funext other
      by_cases hother : other = source
      · subst hother
        rw [Function.update_self, Function.update_self, hcount, ← hw]
        omega
      · rw [Function.update_of_ne hother, Function.update_of_ne hother]
    rw [hseen] at hdone
    have hkept : ∀ other, ∃ p' ≤ wholeLines (logs.lines other)
        (Function.update shown source text other),
        state.priorLines other = (logs.lines other).take p' := fun other => by
      obtain ⟨p', hp', hprior'⟩ := h.prior other
      refine ⟨p', ?_, hprior'⟩
      by_cases hother : other = source
      · subst hother
        rw [Function.update_self]
        exact hp'.trans hmono
      · rwa [Function.update_of_ne hother]
    have hpriorLength : ((logs.lines source).take p).length = p := by
      rw [List.length_take]
      omega
    rw [hwhole, List.append_assoc] at hlines
    obtain ⟨hok, herror⟩ := @EgressSource.read_continuing limits state source _ _ _ _ hprior
      hpriorLength hlines
    rcases htail with rfl | ⟨begun, rfl, hno⟩
    · rw [hok hingest]
      refine ⟨hdone, fun other => ?_⟩
      dsimp only
      by_cases hother : other = source
      · subst hother
        refine ⟨w, by rw [Option.getD_some, Function.update_self, hw], ?_⟩
        rw [Function.update_self, List.append_nil, hwhole]
      · obtain ⟨p', hp', hprior'⟩ := hkept other
        exact ⟨p', hp', by rw [Function.update_of_ne hother, hprior']⟩
    · obtain ⟨e, he⟩ := ingestLines_cut hno source (p + front.length) buffer'
      rw [herror (hingest.trans he)]
      exact ⟨hdone, hkept⟩

/-- A pass over containers keeps in step. -/
theorem Follows.readAll {outputs : Snapshots} (sources : List LogSource)
    (h : Follows logs state shown returned)
    (hshown : ∀ source, ∀ text ∈ outputs source, shown source <+: text ∧ text <+: logs.text source) :
    Follows logs (state.readAll limits outputs sources).2
      (fun source => if source ∈ state.consulted limits outputs sources then
        (outputs source).getD (shown source) else shown source) returned := by
  induction sources generalizing state shown with
  | nil => simpa [EgressSource.readAll, EgressSource.consulted] using h
  | cons source sources ih =>
    have hread := @Follows.read limits _ _ _ _ _ h _ (hshown source)
    rw [EgressSource.readAll, EgressSource.consulted]
    cases hresult : state.read limits source (outputs source) with
    | mk result next =>
      rw [hresult] at hread
      cases result with
      | error e =>
        convert hread using 1
        funext other
        by_cases hother : other = source
        · subst hother
          simp
        · simp [hother]
      | ok u =>
        have hnext : ∀ other, ∀ text ∈ outputs other,
            Function.update shown source ((outputs source).getD (shown source)) other <+: text ∧
              text <+: logs.text other := fun other text htext => by
          refine ⟨?_, (hshown other text htext).2⟩
          by_cases hother : other = source
          · subst hother
            rw [Function.update_self, Option.mem_def.mp htext]
            exact List.prefix_refl _
          · rw [Function.update_of_ne hother]
            exact (hshown other text htext).1
        convert ih hread hnext using 1
        funext other
        by_cases hother : other = source
        · subst hother
          simp only [List.mem_cons_self, if_true, Function.update_self]
          cases outputs other <;> simp
        · simp [hother]

/-- A drain keeps in step. -/
theorem Follows.drain {watched : Watch} {outputs : Snapshots}
    (h : Follows logs watched.source watched.shown watched.returned)
    (hshown : ∀ source, ∀ text ∈ outputs source,
      watched.shown source <+: text ∧ text <+: logs.text source) :
    Follows logs (watched.drain limits outputs).source (watched.drain limits outputs).shown
      (watched.drain limits outputs).returned := by
  have hall := @Follows.readAll limits _ _ _ _ _ LogSource.containers h hshown
  rw [Watch.drain, EgressSource.drainHarnessEvents]
  cases hresult : watched.source.readAll limits outputs LogSource.containers with
  | mk result next =>
    rw [hresult] at hall
    cases result with
    | error e => simpa [Except.toOption] using hall
    | ok u =>
      refine ⟨⟨?_, hall.ingested.seen⟩, hall.prior⟩
      obtain ⟨told, hevents, horder⟩ := hall.ingested.tells
      exact ⟨told, hevents.trans (List.append_nil _).symm, horder⟩

theorem shown_mem (drains : List Snapshots) (source : LogSource) :
    (watch limits drains).shown source = [] ∨
      (watch limits drains).shown source ∈ drains.filterMap fun outputs => outputs source := by
  induction drains using List.reverseRecOn with
  | nil => exact .inl rfl
  | append_singleton drains outputs ih =>
    rw [watch_concat, List.filterMap_append, List.mem_append, Watch.drain]
    dsimp only
    split
    · cases houtput : outputs source with
      | none => exact ih.imp_right .inl
      | some text => exact .inr (.inr (by simp [houtput]))
    · exact ih.imp_right .inl

theorem ContainerLogs.Grows.init {drains : List Snapshots} {outputs : Snapshots}
    (h : logs.Grows (drains ++ [outputs])) : logs.Grows drains where
  written earlier hearlier := h.written earlier (List.mem_append_left _ hearlier)
  growing source := by
    have := h.growing source
    rw [List.filterMap_append, List.pairwise_append] at this
    exact this.1

/-- **In step over every run.** -/
theorem follows_watch {drains : List Snapshots} (h : logs.Grows drains) :
    Follows logs (watch limits drains).source (watch limits drains).shown
      (watch limits drains).returned := by
  induction drains using List.reverseRecOn with
  | nil =>
    have hnone : ∀ source, wholeLines (logs.lines source) ([] : Text) = 0 := fun source => by
      cases hlines : logs.lines source with
      | nil => rfl
      | cons line lines =>
        have hline := @ContainerLogs.isTextLine_lines logs source line (by simp [hlines])
        rw [wholeLines, if_neg]
        rw [List.prefix_nil]
        exact hline.ne_nil
    refine ⟨⟨⟨[], rfl, fun source => ?_⟩, fun source cursor => ?_⟩, fun source => ⟨0, ?_, rfl⟩⟩
    · simp [watch, hnone]
    · simp [watch, hnone, EgressSource.new, BlockEventBuffer.empty]
    · exact Nat.zero_le _
  | append_singleton drains outputs ih =>
    rw [watch_concat]
    refine (ih h.init).drain fun source text htext => ⟨?_, ?_⟩
    · rcases @shown_mem limits drains source with hnil | hmem
      · rw [hnil]
        exact List.nil_prefix
      · have hgrowing := h.growing source
        rw [List.filterMap_append, List.pairwise_append] at hgrowing
        exact hgrowing.2.2 _ hmem text (by simpa using htext)
    · exact h.written outputs (by simp) source text htext

end Ingest

/-! ## Exactly once -/

section Run

variable (limits : Json.Limits)

/-- The lines `current` continue the lines `last`, of which the last may have been cut. -/
def Continues (last current : List Text) : Prop :=
  last = [] ∨ ∃ whole cut line rest,
    last = whole ++ [cut] ∧ cut <+: line ∧ current = whole ++ line :: rest

/-- What the drains owe: every line seen whole is told once or still held, in its order; a drain that
fails keeps what is held, and the next that succeeds returns it first; and a drain fails when it is
shown a log that does not continue what it was shown of it last. -/
structure ExactlyOnce (drains : List Snapshots) : Prop where
  accounted : ∀ logs : ContainerLogs, logs.Grows drains →
    Tells logs ((watch limits drains).seenWhole logs) (watch limits drains).events
  failing : ∀ before outputs after, drains = before ++ outputs :: after → ∀ e,
    ((watch limits before).source.drainHarnessEvents limits outputs).1 = .error e →
      (watch limits (before ++ [outputs])).returned = (watch limits before).returned ∧
      (watch limits before).source.buffer.records <+:
        (watch limits (before ++ [outputs])).source.buffer.records
  succeeding : ∀ before outputs after, drains = before ++ outputs :: after → ∀ events,
    ((watch limits before).source.drainHarnessEvents limits outputs).1 = .ok events →
      (watch limits before).source.buffer.records.map ParsedBlockRecord.harnessEvent <+: events ∧
      (watch limits (before ++ [outputs])).source.buffer.records = []
  departing : ∀ before outputs after, drains = before ++ outputs :: after →
    ∀ source, ∀ text ∈ outputs source,
      ¬ Continues (textLines ((watch limits before).shown source)) (textLines text) →
      ∃ e, ((watch limits before).source.drainHarnessEvents limits outputs).1 = .error e

/-- An exchanged log behind an unfinished reading: it departs from what was shown, but only behind the
recorded lines, and both snapshots continue what is recorded with records. -/
structure Watch.Overtaken (watched : Watch) (outputs : Snapshots) : Prop where
  departs : ∃ source, ∃ text ∈ outputs source,
    watched.source.priorLines source ≠ textLines (watched.shown source) ∧
      ¬ Continues (textLines (watched.shown source)) (textLines text)
  clean : ∀ source, Clean limits (watched.source.priorLines source) (outputs source)

variable {limits}

theorem Continues.of_begins {last current : List Text} (h : last <+: current) :
    Continues last current := by
  obtain ⟨rest, rfl⟩ := h
  rcases List.eq_nil_or_concat' last with rfl | ⟨whole, cut, rfl⟩
  · exact .inl rfl
  · exact .inr ⟨whole, cut, cut, rest, rfl, List.prefix_refl _, by simp⟩

/-- **Exactly once.** The drains owe nothing exactly when none of them is shown a log that was
exchanged behind an unfinished reading. -/
theorem exactlyOnce_iff (drains : List Snapshots) : ExactlyOnce limits drains ↔
    ∀ before outputs after, drains = before ++ outputs :: after →
      ¬ (watch limits before).Overtaken limits outputs := by
  constructor
  · rintro h before outputs after hdrains ⟨⟨source, text, htext, -, hdeparts⟩, hclean⟩
    obtain ⟨e, he⟩ := h.departing before outputs after hdrains source text htext hdeparts
    have hok := (EgressSource.drain_isOk_iff _ outputs).mpr hclean
    rw [he] at hok
    cases hok
  · intro h
    refine ⟨fun logs hlogs => (follows_watch hlogs).ingested.tells, ?_, ?_, ?_⟩
    · rintro before outputs after - e he
      rw [watch_concat, Watch.drain]
      refine ⟨?_, ((watch limits before).source.drain_conserves outputs).1 e he⟩
      simp [he, Except.toOption]
    · rintro before outputs after - events hevents
      rw [watch_concat]
      exact ((watch limits before).source.drain_conserves outputs).2 events hevents
    · intro before outputs after hdrains source text htext hdeparts
      cases hresult : ((watch limits before).source.drainHarnessEvents limits outputs).1 with
      | error e => exact ⟨e, rfl⟩
      | ok events =>
        have hclean := ((watch limits before).source.drain_isOk_iff outputs).mp (by
          rw [hresult]
          rfl)
        refine absurd ⟨⟨source, text, htext, ?_, hdeparts⟩, hclean⟩
          (h before outputs after hdrains)
        intro hrecorded
        obtain ⟨_, hsome, hprefix, -⟩ := hclean source
        obtain rfl := Option.some.inj ((Option.mem_def.mp htext).symm.trans hsome)
        exact hdeparts (.of_begins (hrecorded ▸ hprefix))

end Run

/-! ## A log exchanged behind a cut line -/

theorem one_counted : (1 : ℤ) ≤ 1 := le_rfl

/-- A fact about a host that may not be resolved. -/
def hostFact (destination : Text) (token : IsDestination destination) : LoggedFact where
  destination := destination
  port := some 443
  protocol := .https
  count := 1
  witness := .proxyResolution
  port_range := by simp
  count_pos := one_counted
  token := token
  count_lt := by decide

/-- A destination whose digest repeats one digit. -/
def hostToken (digit : Char) : Text :=
  txt "domain-sha256:" ++ List.replicate 64 (codePoint digit.toNat)

def earlierFact : LoggedFact := hostFact (hostToken '0') (by decide)

def exchangedFact : LoggedFact := hostFact (hostToken '1') (by decide)

/-- What the gateway's log shows first, a line and the beginning of the next, and then: the line of a
log in its place. The guard's log is empty. -/
def cutSnapshot : Snapshots
  | .gateway => some (recordText earlierFact.toBlockFact ++ lineFeed :: [Json.openObj])
  | .guard => some []

def exchangedSnapshot : Snapshots
  | .gateway => some (recordText exchangedFact.toBlockFact ++ lineFeed :: [])
  | .guard => some []

theorem textLines_openObj : textLines [Json.openObj] = [[Json.openObj]] := by decide

theorem isRecordLine_recordText {limits : Json.Limits} (fact : LoggedFact) :
    IsRecordLine limits (recordText fact.toBlockFact) :=
  ⟨fact.record, @parse_recordText limits fact [] []⟩

theorem not_isRecordLine_openObj {limits : Json.Limits} :
    ¬ IsRecordLine limits [Json.openObj] := by
  obtain ⟨body, hbody⟩ := recordText_braces earlierFact
  obtain ⟨e, he⟩ := @parse_begun limits earlierFact [] [] [Json.openObj] (by rw [hbody]; simp)
    (by rw [hbody]; simp)
  rintro ⟨record, hrecord⟩
  exact absurd (he.symm.trans hrecord) (by simp)

/-- The exchanged log goes unnoticed, and its line is never told. -/
theorem exchanged_log_unnoticed :
    ¬ ExactlyOnce Core.Scenario.limits [cutSnapshot, exchangedSnapshot] := by
  intro h
  have hcut := textLines_line (recordText_isTextLine earlierFact) [Json.openObj]
  have hexchanged := textLines_line (recordText_isTextLine exchangedFact) []
  have hempty : textLines [] = [] := rfl
  rw [textLines_openObj] at hcut
  rw [hempty] at hexchanged
  have hnew : ∀ source, EgressSource.new.priorLines source = [] := fun _ => rfl
  have hrefused : ¬ Clean Core.Scenario.limits (EgressSource.new.priorLines .gateway)
      (cutSnapshot .gateway) := by
    rintro ⟨text, htext, -, hlines⟩
    obtain rfl := Option.some.inj htext
    rw [hcut, hnew] at hlines
    exact not_isRecordLine_openObj (hlines [Json.openObj] (by simp))
  obtain ⟨hok, -, -, hkept⟩ := @EgressSource.read_spec Core.Scenario.limits .new .gateway
    (cutSnapshot .gateway)
  cases hread : EgressSource.new.read Core.Scenario.limits .gateway (cutSnapshot .gateway) with
  | mk result state =>
  rw [hread] at hok hkept
  cases result with
  | ok u => exact hrefused (hok.mp rfl)
  | error e =>
    have hprior : (watch Core.Scenario.limits [cutSnapshot]).source.priorLines =
        EgressSource.new.priorLines := by
      simpa [watch, Watch.drain, EgressSource.drainHarnessEvents, LogSource.containers,
        EgressSource.readAll, hread] using hkept e rfl
    have hshown : (watch Core.Scenario.limits [cutSnapshot]).shown .gateway =
        recordText earlierFact.toBlockFact ++ lineFeed :: [Json.openObj] := by
      simp only [watch, List.foldl_cons, List.foldl_nil, Watch.drain, EgressSource.consulted,
        LogSource.containers, hread, List.mem_singleton, if_true]
      rfl
    have hdeparts : ¬ Continues (textLines ((watch Core.Scenario.limits [cutSnapshot]).shown .gateway))
        (textLines (recordText exchangedFact.toBlockFact ++ lineFeed :: [])) := by
      rw [hshown, hcut, hexchanged]
      rintro (hnil | ⟨whole, cut, line, rest, hlast, -, hcurrent⟩)
      · cases hnil
      · have := congrArg List.length hlast
        have := congrArg List.length hcurrent
        simp at *
        omega
    obtain ⟨e, he⟩ := h.departing [cutSnapshot] exchangedSnapshot [] rfl .gateway _ rfl hdeparts
    have hclean : ∀ source, Clean Core.Scenario.limits
        ((watch Core.Scenario.limits [cutSnapshot]).source.priorLines source)
        (exchangedSnapshot source) := by
      intro source
      rw [hprior]
      cases source with
      | gateway =>
        refine ⟨_, rfl, List.nil_prefix, ?_⟩
        rw [hexchanged, hnew]
        simpa using isRecordLine_recordText exchangedFact
      | guard => exact ⟨[], rfl, List.nil_prefix, by simp [textLines, textLinesFrom]⟩
    have hsuccess := (EgressSource.drain_isOk_iff _ exchangedSnapshot).mpr hclean
    rw [he] at hsuccess
    cases hsuccess

end WagmiBench.Sandbox
