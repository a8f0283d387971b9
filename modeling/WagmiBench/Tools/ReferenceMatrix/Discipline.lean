import WagmiBench.Tools.ReferenceMatrix.OutputRoot

/-!
# The discipline of the output root

What every invocation may do to the shared evidence, and what it may rely on the others to leave alone:
files are published once and stay, a sealed bundle stays, and a purchase is made only by whoever
published the attempt receipt that stands before it. Nothing is assumed of when an invocation is
killed.
-/

namespace WagmiBench.Tools.ReferenceMatrix

open WagmiBench.Lib WagmiBench.Core WagmiBench.Harness

/-! ## The catalogue's order -/

/-- `q` stands before `p` in the catalogue. -/
def Precedes (q p : PackId) : Prop :=
  ∃ before after, EXPECTED_PACK_IDS = before ++ p :: after ∧ q ∈ before

theorem Purchase.attempt_injective : Function.Injective Purchase.attempt := by
  intro a b h
  cases a <;> cases b <;> simp_all [Purchase.attempt]

/-! ## Facts about the evidence -/

namespace World

variable {ι β : Type}

/-- The file was published by `i`. -/
def Author (w : World ι β) (i : ι) (a : Artifact) : Prop := ∃ bytes, w.files a = some ⟨bytes, i⟩

/-- The bundle is sealed with that content. -/
def Sealed (w : World ι β) (p : PackId) (content : β) : Prop := w.bundles p = some (some content)

/-- The invariant of the evidence: behind every purchase stands the receipt its buyer published,
nothing is bought twice, there is no bundle without a purchase, and before a pack is bought every
pack that precedes it has a sealed bundle. -/
structure Consistent (w : World ι β) : Prop where
  authored : ∀ i what, (i, what) ∈ w.purchases → w.Author i what.attempt
  once : (w.purchases.map Prod.snd).Nodup
  paid : ∀ p, w.bundles p ≠ none → w.Bought (.pack p)
  ordered : ∀ p q, w.Bought (.pack p) → Precedes q p → ∃ content, w.Sealed q content

/-- What is there stays there. -/
structure Grows (w w' : World ι β) : Prop where
  files : ∀ a file, w.files a = some file → w'.files a = some file
  bundles : ∀ p content, w.Sealed p content → w'.Sealed p content
  purchases : ∀ what, w.Bought what → w'.Bought what

/-- What `i` relies on: the evidence grows, and nobody else makes the purchases whose attempt receipt
`i` published, or touches their bundles. -/
structure Keeps (i : ι) (w w' : World ι β) : Prop extends Grows w w' where
  unbought : ∀ what, w.Author i what.attempt → w'.Bought what → w.Bought what
  untouched : ∀ p, w.Author i (.attempt p) → w'.bundles p = w.bundles p

/-- What `i` guarantees: it buys, and touches bundles, only where it published the attempt receipt. -/
structure Acts (i : ι) (w w' : World ι β) : Prop extends Grows w w' where
  buys : ∀ what, w'.Bought what → w.Bought what ∨ w.Author i what.attempt
  touches : ∀ p, w'.bundles p = w.bundles p ∨ w.Author i (.attempt p)

/-- The worlds differ in folders and temporary files alone. -/
structure SameEvidence (w w' : World ι β) : Prop where
  files : w'.files = w.files
  bundles : w'.bundles = w.bundles
  purchases : w'.purchases = w.purchases

section Facts

variable {i j : ι} {w w₁ w₂ w' : World ι β} {a : Artifact} {p : PackId} {what : Purchase}

theorem bought_iff : w.Bought what ↔ ∃ i, (i, what) ∈ w.purchases := by
  simp [Bought]

theorem Consistent.author (h : w.Consistent) (hw : w.Bought what) :
    ∃ i, w.Author i what.attempt := by
  obtain ⟨i, hi⟩ := bought_iff.mp hw
  exact ⟨i, h.authored i what hi⟩

/-- A file has one author. -/
theorem Author.unique (h : w.Author i a) (h' : w.Author j a) : i = j := by
  obtain ⟨_, h⟩ := h
  obtain ⟨_, h'⟩ := h'
  rw [h] at h'
  simpa using congrArg (Option.map StoredFile.author) h'

theorem Grows.refl (w : World ι β) : Grows w w := ⟨fun _ _ h => h, fun _ _ h => h, fun _ h => h⟩

theorem Grows.trans (h : Grows w₁ w₂) (h' : Grows w₂ w') : Grows w₁ w' :=
  ⟨fun a file hf => h'.files a file (h.files a file hf),
    fun p c hc => h'.bundles p c (h.bundles p c hc),
    fun what hb => h'.purchases what (h.purchases what hb)⟩

theorem Author.grows (h : w.Author i a) (hw : Grows w w') : w'.Author i a := by
  obtain ⟨bytes, hfile⟩ := h
  exact ⟨bytes, hw.files a _ hfile⟩

theorem Stored.grows {bytes : Bytes} (h : w.Stored a bytes) (hw : Grows w w') :
    w'.Stored a bytes := by
  obtain ⟨file, hfile, hbytes⟩ := Option.map_eq_some_iff.mp h
  exact Option.map_eq_some_iff.mpr ⟨file, hw.files a file hfile, hbytes⟩

theorem Keeps.refl (i : ι) (w : World ι β) : Keeps i w w :=
  ⟨Grows.refl w, fun _ _ h => h, fun _ _ => rfl⟩

theorem Keeps.trans (h : Keeps i w₁ w₂) (h' : Keeps i w₂ w') : Keeps i w₁ w' :=
  ⟨h.toGrows.trans h'.toGrows,
    fun what ha hb => h.unbought what ha (h'.unbought what (ha.grows h.toGrows) hb),
    fun p ha => (h'.untouched p (ha.grows h.toGrows)).trans (h.untouched p ha)⟩

/-- Whoever keeps to the discipline keeps what the others rely on. -/
theorem Acts.keeps (h : Acts i w w') (hne : i ≠ j) : Keeps j w w' := by
  refine ⟨h.toGrows, fun what hj hb => ?_, fun p hj => ?_⟩
  · exact (h.buys what hb).resolve_right fun hi => hne (hi.unique hj)
  · exact (h.touches p).resolve_right fun hi => hne (hi.unique hj)

theorem SameEvidence.grows (h : SameEvidence w w') : Grows w w' := by
  refine ⟨fun a file hf => ?_, fun p c hc => ?_, fun what hb => ?_⟩
  · rwa [h.files]
  · rwa [Sealed, h.bundles]
  · rwa [Bought, h.purchases]

theorem SameEvidence.acts (h : SameEvidence w w') : Acts i w w' := by
  refine ⟨h.grows, fun what hb => .inl ?_, fun p => .inl ?_⟩
  · rwa [Bought, h.purchases] at hb
  · rw [h.bundles]

theorem SameEvidence.consistent (h : SameEvidence w w') (hw : w.Consistent) : w'.Consistent where
  authored i what hp := by
    rw [h.purchases] at hp
    exact (hw.authored i what hp).grows h.grows
  once := by
    rw [h.purchases]
    exact hw.once
  paid p hp := by
    rw [h.bundles] at hp
    exact h.grows.purchases _ (hw.paid p hp)
  ordered p q hb hq := by
    rw [Bought, h.purchases] at hb
    obtain ⟨content, hc⟩ := hw.ordered p q hb hq
    exact ⟨content, h.grows.bundles q content hc⟩

/-! ### Publishing -/

theorem files_publish_of_ne {file : StoredFile ι} {b : Artifact} (h : b ≠ a) :
    (w.publish a file).files b = w.files b :=
  Function.update_of_ne h _ _

theorem publish_grows {file : StoredFile ι} (ha : w.files a = none) : Grows w (w.publish a file) := by
  refine ⟨fun b f hf => ?_, fun _ _ h => h, fun _ h => h⟩
  have hne : b ≠ a := by
    rintro rfl
    rw [ha] at hf
    cases hf
  rw [files_publish_of_ne hne]
  exact hf

theorem publish_acts {file : StoredFile ι} (ha : w.files a = none) : Acts i w (w.publish a file) :=
  ⟨publish_grows ha, fun _ h => .inl h, fun _ => .inl rfl⟩

theorem publish_consistent {file : StoredFile ι} (ha : w.files a = none) (hw : w.Consistent) :
    (w.publish a file).Consistent where
  authored i what hp := (hw.authored i what hp).grows (publish_grows ha)
  once := hw.once
  paid := hw.paid
  ordered := hw.ordered

/-! ### Buying -/

theorem bought_buy {other : Purchase} : (w.buy i what).Bought other ↔ w.Bought other ∨ other = what := by
  simp [Bought, buy]

theorem buy_grows : Grows w (w.buy i what) :=
  ⟨fun _ _ h => h, fun _ _ h => h, fun _ h => bought_buy.mpr (.inl h)⟩

theorem buy_acts (ha : w.Author i what.attempt) : Acts i w (w.buy i what) := by
  refine ⟨buy_grows, fun other hb => ?_, fun _ => .inl rfl⟩
  rcases bought_buy.mp hb with hb | rfl
  · exact .inl hb
  · exact .inr ha

theorem buy_consistent (ha : w.Author i what.attempt) (hnot : ¬ w.Bought what)
    (hbefore : ∀ p q, what = .pack p → Precedes q p → ∃ content, w.Sealed q content)
    (hw : w.Consistent) : (w.buy i what).Consistent where
  authored j other hp := by
    rcases List.mem_append.mp hp with hp | hp
    · exact hw.authored j other hp
    · obtain ⟨rfl, rfl⟩ := Prod.mk.inj (List.mem_singleton.mp hp)
      exact ha
  once := by
    rw [buy, List.map_append, List.nodup_append]
    refine ⟨hw.once, by simp, fun b hb c hc => ?_⟩
    obtain rfl : c = what := by simpa using hc
    rintro rfl
    exact hnot hb
  paid p hp := bought_buy.mpr (.inl (hw.paid p hp))
  ordered p q hb hq := by
    rcases bought_buy.mp hb with hb | hb
    · exact hw.ordered p q hb hq
    · exact hbefore p q hb.symm hq

/-! ### Bundles -/

theorem bundles_setBundle_of_ne {content : Option β} {q : PackId} (h : q ≠ p) :
    (w.setBundle p content).bundles q = w.bundles q :=
  Function.update_of_ne h _ _

theorem setBundle_grows {content : Option β} (h : ∀ c, ¬ w.Sealed p c) :
    Grows w (w.setBundle p content) := by
  refine ⟨fun _ _ h => h, fun q c hc => ?_, fun _ h => h⟩
  have hne : q ≠ p := by
    rintro rfl
    exact h c hc
  rw [Sealed, bundles_setBundle_of_ne hne]
  exact hc

theorem setBundle_acts {content : Option β} (ha : w.Author i (.attempt p))
    (h : ∀ c, ¬ w.Sealed p c) : Acts i w (w.setBundle p content) := by
  refine ⟨setBundle_grows h, fun _ hb => .inl hb, fun q => ?_⟩
  rcases eq_or_ne q p with rfl | hne
  · exact .inr ha
  · exact .inl (bundles_setBundle_of_ne hne)

theorem setBundle_consistent {content : Option β} (hb : w.Bought (.pack p))
    (h : ∀ c, ¬ w.Sealed p c) (hw : w.Consistent) : (w.setBundle p content).Consistent where
  authored := hw.authored
  once := hw.once
  paid q hq := by
    rcases eq_or_ne q p with rfl | hne
    · exact hb
    · rw [bundles_setBundle_of_ne hne] at hq
      exact hw.paid q hq
  ordered r q hr hq := by
    obtain ⟨c, hc⟩ := hw.ordered r q hr hq
    exact ⟨c, (setBundle_grows h).bundles q c hc⟩

theorem fresh_consistent (rootExists : Bool) : (fresh rootExists : World ι β).Consistent where
  authored _ _ h := by simp [fresh] at h
  once := by simp [fresh]
  paid _ h := absurd rfl h
  ordered _ _ h := by simp [Bought, fresh] at h

end Facts

end World

/-! ## The discipline -/

open World

section Discipline

variable {ι β : Type} [DecidableEq ι] {claim : ι → PackId → World ι β → Prop}

/-- The invariant, what the others keep, what each guarantees, and what is claimed of the world in
which the paid run of a pack starts. -/
def discipline (claim : ι → PackId → World ι β → Prop) :
    RelyGuarantee (effect : Effect (requests β) ι (World ι β)) where
  inv := Consistent
  rely := Keeps
  guarantee := Acts
  due i r w := ∀ p, r = .runEpisode p → claim i p w
  rely_refl := Keeps.refl
  rely_trans := Keeps.trans
  guarantee_rely hne h := h.keeps hne

/-- The requests that leave the evidence as it is. -/
def Request.Quiet : Request β → Prop
  | .link _ _ | .createBundle _ | .sealBundle _ _ | .decide | .runEpisode _ => False
  | _ => True

/-- The requests that neither buy nor touch a bundle. -/
def Request.Harmless : Request β → Prop
  | .createBundle _ | .sealBundle _ _ | .decide | .runEpisode _ => False
  | _ => True

theorem Request.Quiet.harmless {r : Request β} (h : r.Quiet) : r.Harmless := by
  cases r <;> first | exact h | trivial

theorem Request.Harmless.due {i : ι} {r : Request β} (hr : r.Harmless) (w : World ι β) :
    (discipline claim).due i r w := by
  rintro p rfl
  exact hr.elim

theorem Request.Quiet.same {i : ι} {r : Request β} (hr : r.Quiet) {w w' : World ι β}
    {answer : r.Answer} (h : effect i r w answer w') : SameEvidence w w' := by
  cases r with
  | link | createBundle | sealBundle | decide | runEpisode => exact hr.elim
  | present | folderPresent | litter | read | openFolder | fsyncFolder | bundle =>
    obtain rfl := h.2
    exact ⟨rfl, rfl, rfl⟩
  | enterSandbox | leaveSandbox =>
    obtain rfl : w' = w := h
    exact ⟨rfl, rfl, rfl⟩
  | mkdir f =>
    rcases h with ⟨-, rfl⟩ | ⟨-, rfl | ⟨_, -, rfl⟩⟩ <;> exact ⟨rfl, rfl, rfl⟩
  | stage a =>
    rcases h with ⟨-, rfl⟩ | ⟨-, rfl | rfl⟩ <;> exact ⟨rfl, rfl, rfl⟩
  | unlink a =>
    rcases h with ⟨-, rfl⟩ | ⟨-, rfl⟩ <;> exact ⟨rfl, rfl, rfl⟩

theorem Request.Harmless.acts {i : ι} {r : Request β} (hr : r.Harmless) {w w' : World ι β}
    {answer : r.Answer} (hw : w.Consistent) (h : effect i r w answer w') :
    Acts i w w' ∧ w'.Consistent := by
  by_cases hquiet : r.Quiet
  · exact ⟨(hquiet.same h).acts, (hquiet.same h).consistent hw⟩
  · cases r with
    | link a data =>
      rcases h with ⟨ha, -, rfl⟩ | ⟨-, rfl⟩ | ⟨-, rfl⟩
      · exact ⟨publish_acts ha, publish_consistent ha hw⟩
      · exact ⟨⟨Grows.refl _, fun _ h => .inl h, fun _ => .inl rfl⟩, hw⟩
      · exact ⟨⟨Grows.refl _, fun _ h => .inl h, fun _ => .inl rfl⟩, hw⟩
    | createBundle | sealBundle | decide | runEpisode => exact hr.elim
    | _ => exact absurd trivial hquiet

variable {i : ι} {w : World ι β} {α : Type} {p : Run β α}

/-- A harmless routine keeps to the discipline, and keeps every fact that the growth of the evidence
keeps. -/
theorem yields_harmless {F : World ι β → Prop}
    (hall : Process.All (I := requests β) Request.Harmless p)
    (hF : ∀ w w', Grows w w' → F w → F w') (hw : F w) :
    (discipline claim).Yields i p (fun _ w' => F w') w := by
  refine RelyGuarantee.Yields.of_all hall (fun r w answer w' hr hinv hFw heffect => ?_)
    (fun r w hr => hr.due w) (fun w w' hkeeps => hF w w' hkeeps.toGrows) hw
  obtain ⟨hacts, hinv'⟩ := hr.acts hinv heffect
  exact ⟨hacts, hinv', hF w w' hacts.toGrows hFw⟩

/-- A quiet routine keeps moreover every fact about the evidence alone that the others keep. -/
theorem yields_quiet {F : World ι β → Prop} (hall : Process.All (I := requests β) Request.Quiet p)
    (hsame : ∀ w w', SameEvidence w w' → F w → F w') (hF : ∀ w w', Keeps i w w' → F w → F w')
    (hw : F w) : (discipline claim).Yields i p (fun _ w' => F w') w := by
  refine RelyGuarantee.Yields.of_all hall (fun r w answer w' hr hinv hFw heffect => ?_)
    (fun r w hr => hr.harmless.due w) hF hw
  have hev := hr.same heffect
  exact ⟨hev.acts, hev.consistent hinv, hsame w w' hev hFw⟩

end Discipline

end WagmiBench.Tools.ReferenceMatrix
