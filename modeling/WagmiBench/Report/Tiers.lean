import WagmiBench.Report.Compare

/-!
# Tiers and what they compare

A tier is assigned by the pack id, and means a comparison on the pack's content. What a row is tiered
by depends on the baselines of its pack group as a set; it compares like with like as far as pack ids
stand for contents.
-/

namespace WagmiBench.Report

open WagmiBench.Lib

/-! ## What a tier depends on -/

/-- A candidate that survived with executed fills. -/
structure Engaged (r : ComparisonRow) : Prop where
  candidate : r.isBaseline = false
  survived : r.survivalVerdict = txt "survived"
  filled : r.fills ≠ 0

/-- A baseline that sets the bar. -/
structure SurvivingBaseline (r : ComparisonRow) : Prop where
  baseline : r.isBaseline = true
  survived : r.survivalVerdict = txt "survived"

/-- Its net return is above another's, under both profiles. -/
def Beats (r other : ComparisonRow) : Prop :=
  other.netReturnPrimary1e8 < r.netReturnPrimary1e8 ∧
    other.netReturnStress2x1e8 < r.netReturnStress2x1e8

/-- There are baselines in the row's pack group, and it beats the ones that survived. -/
def Exceeds (rows : List ComparisonRow) (r : ComparisonRow) : Prop :=
  (∃ b ∈ rows, b.isBaseline = true ∧ b.pack = r.pack) ∧
    ∀ b ∈ rows, SurvivingBaseline b → b.pack = r.pack → Beats r b

instance (r : ComparisonRow) : Decidable (SurvivingBaseline r) :=
  decidable_of_iff (r.isBaseline = true ∧ r.survivalVerdict = txt "survived")
    ⟨fun h => ⟨h.1, h.2⟩, fun h => ⟨h.1, h.2⟩⟩

instance (r other : ComparisonRow) : Decidable (Beats r other) :=
  inferInstanceAs (Decidable (_ ∧ _))

instance (rows : List ComparisonRow) (r : ComparisonRow) : Decidable (Exceeds rows r) :=
  inferInstanceAs (Decidable (_ ∧ _))

section Collected

variable {rows others : List ComparisonRow} {r : ComparisonRow}

theorem collectBaselines_append (rows : List ComparisonRow) (r : ComparisonRow) :
    collectBaselines (rows ++ [r]) = (collectBaselines rows).add r := by
  simp [collectBaselines]

theorem mem_collectBaselines_packs {pack : Text} :
    pack ∈ (collectBaselines rows).packs ↔ ∃ b ∈ rows, b.isBaseline = true ∧ b.pack = pack := by
  induction rows using List.reverseRecOn with
  | nil => simp [collectBaselines]
  | append_singleton rows b ih =>
    rw [collectBaselines_append, Baselines.add]
    cases hb : b.isBaseline
    · simp [ih, hb]
    · simp only [if_true, List.mem_cons, ih, List.mem_append, List.not_mem_nil, or_false]
      constructor
      · rintro (rfl | ⟨c, hc, h⟩)
        · exact ⟨b, .inr rfl, hb, rfl⟩
        · exact ⟨c, .inl hc, h⟩
      · rintro ⟨c, hc | rfl, h⟩
        · exact .inr ⟨c, hc, h⟩
        · exact .inl h.2.symm

theorem mem_collectBaselines_returns {pack : Text} {returns : ℤ × ℤ} :
    returns ∈ (collectBaselines rows).returns pack ↔ ∃ b ∈ rows, SurvivingBaseline b ∧
      b.pack = pack ∧ (b.netReturnPrimary1e8, b.netReturnStress2x1e8) = returns := by
  induction rows using List.reverseRecOn with
  | nil => simp [collectBaselines]
  | append_singleton rows b ih =>
    have split : (∃ c ∈ rows ++ [b], SurvivingBaseline c ∧ c.pack = pack ∧
        (c.netReturnPrimary1e8, c.netReturnStress2x1e8) = returns) ↔
        returns ∈ (collectBaselines rows).returns pack ∨ (SurvivingBaseline b ∧ b.pack = pack ∧
          (b.netReturnPrimary1e8, b.netReturnStress2x1e8) = returns) := by
      rw [ih]
      simp only [List.mem_append, List.mem_singleton, or_and_right, exists_or, exists_eq_left]
    rw [collectBaselines_append, split, Baselines.add]
    cases hb : b.isBaseline
    · have hnot : ¬ SurvivingBaseline b := fun h => Bool.false_ne_true (hb.symm.trans h.baseline)
      simp [hnot]
    · by_cases hs : b.survivalVerdict = txt "survived"
      · have hsurviving : SurvivingBaseline b := ⟨hb, hs⟩
        by_cases hpack : pack = b.pack
        · subst hpack
          simp [hs, hsurviving, eq_comm]
        · simp [hs, hpack, Ne.symm hpack, Function.update_of_ne]
      · have hnot : ¬ SurvivingBaseline b := fun h => hs h.survived
        simp [hs, hnot]

variable {texts : TextHandling}

/-- The verdicts of an episode that ended early. -/
abbrev Dead (r : ComparisonRow) : Prop :=
  r.survivalVerdict = txt "liquidated" ∨ r.survivalVerdict = txt "killed_flat"

/-- The ladder of tiers, in terms of the rows. -/
theorem tierAmong_eq : tierAmong texts (collectBaselines rows) r =
    if r.isBaseline = true then .ok UNTIERED
    else if Dead r then .ok NGMI
    else if r.survivalVerdict = txt "survived" then
      if r.fills ≠ 0 ∧ Exceeds rows r then .ok GMI else .ok UNTIERED
    else .error (txt "unknown survival verdict " ++ texts.repr r.survivalVerdict ++
      txt " while tiering") := by
  have hbeats : (((collectBaselines rows).returns r.pack).all
      (fun s => s.1 < r.netReturnPrimary1e8) &&
      ((collectBaselines rows).returns r.pack).all (fun s => s.2 < r.netReturnStress2x1e8)) = true ↔
      ∀ b ∈ rows, SurvivingBaseline b → b.pack = r.pack → Beats r b := by
    simp only [Bool.and_eq_true, List.all_eq_true, decide_eq_true_eq]
    constructor
    · rintro ⟨hprimary, hstress⟩ b hb hsurviving hpack
      have hmem := mem_collectBaselines_returns.mpr ⟨b, hb, hsurviving, hpack, rfl⟩
      exact ⟨hprimary _ hmem, hstress _ hmem⟩
    · refine fun h => ⟨fun s hs => ?_, fun s hs => ?_⟩ <;>
        obtain ⟨b, hb, hsurviving, hpack, rfl⟩ := mem_collectBaselines_returns.mp hs
      · exact (h b hb hsurviving hpack).1
      · exact (h b hb hsurviving hpack).2
  have hpacks : r.pack ∈ (collectBaselines rows).packs ↔
      ∃ b ∈ rows, b.isBaseline = true ∧ b.pack = r.pack := mem_collectBaselines_packs
  rw [tierAmong, assignTier]
  refine ite_congr rfl (fun _ => rfl) fun _ => ite_congr rfl (fun _ => rfl) fun _ => ?_
  by_cases hsurvived : r.survivalVerdict = txt "survived"
  · rw [if_pos hsurvived, require_pos hsurvived, ok_bind]
    simp only [hbeats, decide_eq_true_eq, hpacks]
    by_cases hfills : r.fills = 0
    · simp [hfills, pure_eq_ok]
    · by_cases hhas : ∃ b ∈ rows, b.isBaseline = true ∧ b.pack = r.pack
      · simp only [hfills, hhas, not_true_eq_false, or_self, if_false, ne_eq, not_false_eq_true,
          true_and, Exceeds, pure_eq_ok]
        split <;> rfl
      · have hnot : ¬ Exceeds rows r := fun h => hhas h.1
        simp only [hhas, not_false_eq_true, or_true, if_true, hnot, and_false, if_false, pure_eq_ok]
  · rw [if_neg hsurvived, require_neg hsurvived]
    rfl

/-- **GMI.** A row is GMI where it is engaged and exceeds the baselines of its pack group. -/
theorem tierAmong_eq_gmi : tierAmong texts (collectBaselines rows) r = .ok GMI ↔
    Engaged r ∧ Exceeds rows r := by
  have hne : (.ok UNTIERED : Reported Text) ≠ .ok GMI := by decide
  have hne' : (.ok NGMI : Reported Text) ≠ .ok GMI := by decide
  rw [tierAmong_eq]
  constructor
  · intro h
    split_ifs at h with hbaseline hdead hsurvived hexceeds
    · exact absurd h hne
    · exact absurd h hne'
    · exact ⟨⟨by simpa using hbaseline, hsurvived, hexceeds.1⟩, hexceeds.2⟩
    · exact absurd h hne
  · rintro ⟨⟨hcandidate, hsurvived, hfilled⟩, hexceeds⟩
    have hdead : ¬ Dead r := by
      rw [Dead, hsurvived]
      decide
    rw [if_neg (by simp [hcandidate]), if_neg hdead, if_pos hsurvived, if_pos ⟨hfilled, hexceeds⟩]

/-- Only where an engaged row stands to the baselines of its pack group decides its tier. -/
theorem tierAmong_congr (h : Engaged r → (Exceeds rows r ↔ Exceeds others r)) :
    tierAmong texts (collectBaselines rows) r = tierAmong texts (collectBaselines others) r := by
  rw [tierAmong_eq, tierAmong_eq]
  refine ite_congr rfl (fun _ => rfl) fun hcandidate => ite_congr rfl (fun _ => rfl) fun _ =>
    ite_congr rfl (fun hsurvived => ?_) fun _ => rfl
  have hiff : r.fills ≠ 0 ∧ Exceeds rows r ↔ r.fills ≠ 0 ∧ Exceeds others r :=
    and_congr_right fun hfilled => h ⟨by simpa using hcandidate, hsurvived, hfilled⟩
  exact ite_congr (propext hiff) (fun _ => rfl) fun _ => rfl

end Collected

/-! ## Bundles and their contents -/

/-- `manifest.pack.content_hash`, which identifies the data a bundle was recorded on. -/
def contentHash (evidence : Evidence) : Option Text :=
  match Json.lookup (txt "pack") evidence.manifest with
  | some (.obj pack) =>
    match Json.lookup (txt "content_hash") pack with
    | some (.str hash) => some hash
    | _ => none
  | _ => none

/-- A loaded bundle with its row. -/
abbrev Bundle := Evidence × ComparisonRow

def SameContent (b c : Bundle) : Prop := contentHash c.1 = contentHash b.1

instance (b c : Bundle) : Decidable (SameContent b c) := inferInstanceAs (Decidable (_ = _))

def SamePack (b c : Bundle) : Prop := c.2.pack = b.2.pack

section Bundles

variable {Path : Type} (texts : TextHandling) (load : Path → Reported Evidence)

/-- A bundle is what its directory is loaded as. -/
structure ReadFrom (dir : Path) (b : Bundle) : Prop where
  loaded : load dir = .ok b.1
  row_read : row texts b.1 = .ok b.2

/-- The tier of a bundle among others. -/
def tierOf (bundles : List Bundle) (b : Bundle) : Reported Text :=
  tierAmong texts (collectBaselines (bundles.map Prod.snd)) b.2

/-- The tier of a bundle compares like with like. -/
structure LikeWithLike (bundles : List Bundle) (b : Bundle) : Prop where
  baseline : tierOf texts bundles b = .ok GMI → ∃ c ∈ bundles, c.2.isBaseline = true ∧ SameContent b c
  beaten : tierOf texts bundles b = .ok GMI → ∀ c ∈ bundles, SurvivingBaseline c.2 →
    SameContent b c → Beats b.2 c.2
  uninfluenced : tierOf texts (bundles.filter (SameContent b)) b = tierOf texts bundles b

/-- What has to hold of the baselines that share only one of pack id and content with an engaged
candidate, for its tier to compare like with like. -/
structure Separated (bundles : List Bundle) (b : Bundle) : Prop where
  /-- Beside baselines of its own, which it beats, they do not hold it back. -/
  own : Engaged b.2 → (∃ c ∈ bundles, c.2.isBaseline = true ∧ SamePack b c ∧ SameContent b c) →
    (∀ c ∈ bundles, SurvivingBaseline c.2 → SamePack b c → SameContent b c → Beats b.2 c.2) →
    ∀ c ∈ bundles, SurvivingBaseline c.2 → SamePack b c ∨ SameContent b c → Beats b.2 c.2
  /-- Without any of its own, those under its pack id hold it back. -/
  stray : Engaged b.2 → (¬ ∃ c ∈ bundles, c.2.isBaseline = true ∧ SamePack b c ∧ SameContent b c) →
    (∃ c ∈ bundles, c.2.isBaseline = true ∧ SamePack b c) →
    ∃ c ∈ bundles, SurvivingBaseline c.2 ∧ SamePack b c ∧ ¬ Beats b.2 c.2

variable {texts load} {bundles : List Bundle} {b : Bundle}

theorem exceeds_map_snd : Exceeds (bundles.map Prod.snd) b.2 ↔
    (∃ c ∈ bundles, c.2.isBaseline = true ∧ SamePack b c) ∧
      ∀ c ∈ bundles, SurvivingBaseline c.2 → SamePack b c → Beats b.2 c.2 := by
  simp only [Exceeds, List.mem_map, exists_exists_and_eq_and, forall_exists_index, and_imp,
    forall_apply_eq_imp_iff₂, SamePack]

theorem exceeds_filter : Exceeds ((bundles.filter (SameContent b)).map Prod.snd) b.2 ↔
    (∃ c ∈ bundles, c.2.isBaseline = true ∧ SamePack b c ∧ SameContent b c) ∧
      ∀ c ∈ bundles, SurvivingBaseline c.2 → SamePack b c → SameContent b c → Beats b.2 c.2 := by
  rw [exceeds_map_snd]
  simp only [List.mem_filter, decide_eq_true_eq]
  constructor
  · rintro ⟨⟨c, ⟨hc, hcontent⟩, hbaseline, hpack⟩, h⟩
    exact ⟨⟨c, hc, hbaseline, hpack, hcontent⟩, fun c hc hs hp hcontent => h c ⟨hc, hcontent⟩ hs hp⟩
  · rintro ⟨⟨c, hc, hbaseline, hpack, hcontent⟩, h⟩
    exact ⟨⟨c, ⟨hc, hcontent⟩, hbaseline, hpack⟩, fun c hc hs hp => h c hc.1 hs hp hc.2⟩

theorem tierOf_eq_gmi : tierOf texts bundles b = .ok GMI ↔
    Engaged b.2 ∧ Exceeds (bundles.map Prod.snd) b.2 := tierAmong_eq_gmi

/-- The tier of an engaged candidate is the same among the bundles on its content where it exceeds
the same baselines. -/
theorem uninfluenced_iff : tierOf texts (bundles.filter (SameContent b)) b = tierOf texts bundles b ↔
    (Engaged b.2 → (Exceeds ((bundles.filter (SameContent b)).map Prod.snd) b.2 ↔
      Exceeds (bundles.map Prod.snd) b.2)) := by
  refine ⟨fun h hengaged => ?_, fun h => tierAmong_congr h⟩
  have hgmi := h ▸ @tierOf_eq_gmi texts (bundles.filter (SameContent b)) b
  rw [tierOf_eq_gmi] at hgmi
  simpa [hengaged] using hgmi.symm

theorem likeWithLike_iff : LikeWithLike texts bundles b ↔ Separated bundles b := by
  constructor
  · rintro ⟨hbaseline, hbeaten, huninfluenced⟩
    rw [tierOf_eq_gmi] at hbaseline hbeaten
    rw [uninfluenced_iff] at huninfluenced
    refine ⟨fun hengaged hown hbeats => ?_, fun hengaged hown hstray => ?_⟩
    · have hexceeds := (huninfluenced hengaged).mp (exceeds_filter.mpr ⟨hown, hbeats⟩)
      rintro c hc hsurviving (hpack | hcontent)
      · exact (exceeds_map_snd.mp hexceeds).2 c hc hsurviving hpack
      · exact hbeaten ⟨hengaged, hexceeds⟩ c hc hsurviving hcontent
    · by_contra hnone
      have hexceeds := (huninfluenced hengaged).mpr (exceeds_map_snd.mpr ⟨hstray, fun c hc hs hp => by
        by_contra hnot
        exact hnone ⟨c, hc, hs, hp, hnot⟩⟩)
      exact hown (exceeds_filter.mp hexceeds).1
  · rintro ⟨hown, hstray⟩
    have key : Engaged b.2 → Exceeds (bundles.map Prod.snd) b.2 →
        (∃ c ∈ bundles, c.2.isBaseline = true ∧ SamePack b c ∧ SameContent b c) := by
      intro hengaged hexceeds
      obtain ⟨hhas, hall⟩ := exceeds_map_snd.mp hexceeds
      by_contra hnone
      obtain ⟨c, hc, hsurviving, hpack, hnot⟩ := hstray hengaged hnone hhas
      exact hnot (hall c hc hsurviving hpack)
    have all : Engaged b.2 → Exceeds (bundles.map Prod.snd) b.2 →
        ∀ c ∈ bundles, SurvivingBaseline c.2 → SamePack b c ∨ SameContent b c → Beats b.2 c.2 :=
      fun hengaged hexceeds => hown hengaged (key hengaged hexceeds) fun c hc hs hpack _ =>
        (exceeds_map_snd.mp hexceeds).2 c hc hs hpack
    refine ⟨fun h => ?_, fun h c hc hs hcontent => ?_, ?_⟩
    · obtain ⟨hengaged, hexceeds⟩ := tierOf_eq_gmi.mp h
      obtain ⟨c, hc, hbaseline, -, hcontent⟩ := key hengaged hexceeds
      exact ⟨c, hc, hbaseline, hcontent⟩
    · obtain ⟨hengaged, hexceeds⟩ := tierOf_eq_gmi.mp h
      exact all hengaged hexceeds c hc hs (.inr hcontent)
    · refine uninfluenced_iff.mpr fun hengaged => ⟨fun h => ?_, fun h => ?_⟩
      · obtain ⟨⟨c, hc, hbaseline, hpack, hcontent⟩, hbeats⟩ := exceeds_filter.mp h
        exact exceeds_map_snd.mpr ⟨⟨c, hc, hbaseline, hpack⟩, fun d hd hs hp =>
          hown hengaged ⟨c, hc, hbaseline, hpack, hcontent⟩ hbeats d hd hs (.inl hp)⟩
      · exact exceeds_filter.mpr ⟨key hengaged h, fun c hc hs hp _ => all hengaged h c hc hs (.inl hp)⟩

variable {dirs dirs' : List Path} {rows rows' : List ComparisonRow}

/-- What a comparison loads, and what it makes of it. -/
theorem loadComparisonRows_eq_ok (h : loadComparisonRows texts load dirs = .ok rows) :
    ∃ bundles, List.Forall₂ (ReadFrom texts load) dirs bundles ∧ 2 ≤ dirs.length ∧
      (bundles.map Prod.snd).mapM (tiered texts (collectBaselines (bundles.map Prod.snd))) =
        .ok rows := by
  simp only [loadComparisonRows, bind_ok_iff, require_eq_ok] at h
  obtain ⟨-, hlength, read, hread, htiers⟩ := h
  have hall : ∀ {dirs : List Path} {read : List ComparisonRow},
      List.Forall₂ (fun dir r => ∃ e, load dir = .ok e ∧ row texts e = .ok r) dirs read →
      ∃ bundles, List.Forall₂ (ReadFrom texts load) dirs bundles ∧ bundles.map Prod.snd = read := by
    intro dirs read h
    induction h with
    | nil => exact ⟨[], .nil, rfl⟩
    | @cons dir r dirs read hhead _ ih =>
      obtain ⟨e, he, hr⟩ := hhead
      obtain ⟨bundles, hbundles, rfl⟩ := ih
      exact ⟨(e, r) :: bundles, .cons ⟨he, hr⟩ hbundles, rfl⟩
  obtain ⟨bundles, hbundles, rfl⟩ := hall ((mapM_eq_ok.mp hread).imp fun _ _ h => bind_ok_iff.mp h)
  exact ⟨bundles, hbundles, hlength, htiers⟩

theorem exceeds_perm {others : List ComparisonRow} {r : ComparisonRow} (h : rows.Perm others) :
    Exceeds rows r ↔ Exceeds others r := by
  simp only [Exceeds, h.mem_iff]

/-- The tiers are assigned to the bundles, in whatever order they are given. -/
theorem loadComparisonRows_perm (hperm : dirs.Perm dirs')
    (h : loadComparisonRows texts load dirs = .ok rows) :
    ∃ rows', loadComparisonRows texts load dirs' = .ok rows' ∧
      (dirs.zip rows).Perm (dirs'.zip rows') := by
  simp only [loadComparisonRows, bind_ok_iff, require_eq_ok] at h
  obtain ⟨-, hlength, read, hread, htiers⟩ := h
  obtain ⟨read', hread', hzip⟩ := mapM_perm hperm hread
  have hrows : read.Perm read' := by
    have := hzip.map Prod.snd
    rwa [List.map_snd_zip (mapM_length hread).le, List.map_snd_zip (mapM_length hread').le] at this
  have hsame : tiered texts (collectBaselines read) = tiered texts (collectBaselines read') := by
    funext r
    rw [tiered, tiered, tierAmong_congr fun _ => exceeds_perm hrows]
  obtain ⟨rows', hrows', hresult⟩ := mapM_perm hperm ((mapM_bind_eq hread).trans htiers)
  refine ⟨rows', ?_, hresult⟩
  rw [loadComparisonRows, require_pos (hperm.length_eq ▸ hlength), ok_bind, hread', ok_bind, ← hsame,
    ← mapM_bind_eq hread']
  exact hrows'

/-- **Comparisons.** Each row is the row of its bundle with a tier, whatever the order of the bundles;
and the tiers compare like with like if and only if, for every engaged candidate, the baselines that
share only its pack id or only its content neither hold it back nor let it through. -/
theorem comparison_like_with_like_iff (h : loadComparisonRows texts load dirs = .ok rows) :
    ∃ bundles, List.Forall₂ (ReadFrom texts load) dirs bundles ∧
      List.Forall₂ (fun b r => r = { b.2 with tier := r.tier } ∧
        tierOf texts bundles b = .ok r.tier) bundles rows ∧
      (∀ dirs', dirs.Perm dirs' → ∃ rows', loadComparisonRows texts load dirs' = .ok rows' ∧
        (dirs.zip rows).Perm (dirs'.zip rows')) ∧
      ((∀ b ∈ bundles, LikeWithLike texts bundles b) ↔ ∀ b ∈ bundles, Separated bundles b) := by
  obtain ⟨bundles, hread, -, htiers⟩ := loadComparisonRows_eq_ok h
  refine ⟨bundles, hread, ?_, fun dirs' hperm => loadComparisonRows_perm hperm h,
    forall₂_congr fun b _ => likeWithLike_iff⟩
  refine (List.forall₂_map_left_iff.mp (mapM_eq_ok.mp htiers)).imp fun b r hr => ?_
  simp only [tiered, bind_ok_iff, pure_eq_ok, Except.ok.injEq] at hr
  obtain ⟨tier, htier, rfl⟩ := hr
  exact ⟨rfl, htier⟩

end Bundles

/-! ## Two contents under one pack id -/

namespace Sample

def texts : TextHandling := ⟨id, id⟩

/-- A bundle of one turn with one fill that survived. -/
def evidence (content policy : String) (netReturn : ℤ) : Evidence where
  bundleRoot := txt "root"
  manifest := [(txt "pack", .obj [(txt "pack_id", .str (txt "flash-crash")),
    (txt "content_hash", .str (txt content))])]
  agentManifest := [(txt "name", .str (txt policy)), (txt "model_id", .str (txt "none")),
    (txt "inference_params", .obj [(txt "policy", .str (txt policy))])]
  profiles _ := [(txt "max_drawdown_1e8", .int 0), (txt "turnover_1e8", .int 0),
    (txt "net_return_1e8", .int netReturn)]
  invariant := [(txt "survival_verdict", .str (txt "survived"))]
  decisions := [[(txt "happened", .obj [(txt "fills", .arr [.null]), (txt "cancels", .arr [])])]]

/-- A candidate, and a baseline on the content or on another one of the same name. -/
def load (sameContent : Bool) : ℕ → Reported Evidence
  | 0 => .ok (evidence "sha256:a" "momentum" 5)
  | _ => .ok (evidence (if sameContent then "sha256:a" else "sha256:b") "constant-target" 3)

theorem same_content_like_with_like : ∃ bundles,
    List.Forall₂ (ReadFrom texts (load true)) [0, 1] bundles ∧
      ((∀ b ∈ bundles, LikeWithLike texts bundles b) ↔ ∀ b ∈ bundles, Separated bundles b) := by
  have hreturns : Returns (loadComparisonRows texts (load true) [0, 1]) := by decide +kernel
  obtain ⟨rows, hrows⟩ := hreturns
  obtain ⟨bundles, hread, -, -, hiff⟩ := comparison_like_with_like_iff hrows
  exact ⟨bundles, hread, hiff⟩

/-- A candidate is GMI although no baseline was recorded on its content. -/
theorem other_content_gmi : ∃ candidate baseline rows, load false 0 = .ok candidate ∧
    load false 1 = .ok baseline ∧ contentHash baseline ≠ contentHash candidate ∧
    loadComparisonRows texts (load false) [0, 1] = .ok rows ∧
    rows.map ComparisonRow.tier = [GMI, UNTIERED] := by
  refine ⟨_, _, (loadComparisonRows texts (load false) [0, 1]).toOption.getD [], rfl, rfl, ?_, ?_, ?_⟩
  · decide +kernel
  · decide +kernel
  · decide +kernel

end Sample

end WagmiBench.Report
