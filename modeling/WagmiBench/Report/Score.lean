import WagmiBench.Core.TextOrder
import WagmiBench.Report.Tiers
import WagmiBench.Tools.ReferenceMatrix.Plan

/-!
# Scores

`report/score.py`: a rung for each row of an agent, and the mean of them over the catalogue of packs.
-/

namespace WagmiBench.Report

open WagmiBench.Lib WagmiBench.Core
open WagmiBench.Tools.ReferenceMatrix (PackId EXPECTED_PACK_IDS)

abbrev CATALOG_PACK_COUNT : ℕ := 13

/-- `PackScore` -/
structure PackScore where
  pack : Text
  score : ℕ
  verdict : Text
  tier : Text
  fills : ℕ
  bundleRoot : Text
  deriving DecidableEq

/-- `AgentScore`, with the sum of its pack scores. -/
structure AgentScore where
  agent : Text
  packScores : List PackScore
  deriving DecidableEq

def AgentScore.total (entry : AgentScore) : ℕ := (entry.packScores.map PackScore.score).sum

/-- The score before it is rounded. -/
def AgentScore.exactScore (entry : AgentScore) : ℚ := entry.total / CATALOG_PACK_COUNT

/-- `wagmi_score`, in hundredths: no sum of rungs has a mean halfway between two of them. -/
def AgentScore.wagmiScore (entry : AgentScore) : ℕ :=
  (200 * entry.total + CATALOG_PACK_COUNT) / (2 * CATALOG_PACK_COUNT)

section Scoreboard

variable (texts : TextHandling)

/-- `pack_score` -/
def packScore (row : ComparisonRow) : Reported ℕ := do
  if row.survivalVerdict = txt "liquidated" ∨ row.survivalVerdict = txt "killed_flat" then
    return 0
  require (row.survivalVerdict = txt "survived")
    (txt "unknown survival verdict " ++ texts.repr row.survivalVerdict ++ txt " while scoring")
  if row.fills = 0 then
    return 25
  if ¬ (0 < row.netReturnPrimary1e8 ∧ 0 < row.netReturnStress2x1e8) then
    return 50
  if row.tier = GMI then
    return 100
  return 75

/-- The loop over an agent's rows, behind the packs that were seen. -/
def packScores (agent : Text) (seenPacks : List Text) :
    List ComparisonRow → Reported (List PackScore)
  | [] => .ok []
  | row :: rows => do
    require (row.pack ∉ seenPacks)
      (txt "agent " ++ texts.repr agent ++ txt " has more than one bundle for pack " ++
        texts.repr row.pack ++ txt "; score one run per pack")
    let score ← packScore texts row
    let rest ← packScores agent (row.pack :: seenPacks) rows
    return ⟨row.pack, score, row.verdict, row.tier, row.fills, row.bundleRoot⟩ :: rest

/-- The rows of an agent that are scored. -/
def agentRows (rows : List ComparisonRow) (agent : Text) : List ComparisonRow :=
  rows.filter fun row => !row.isBaseline && row.agent = agent

/-- `by_agent`, in the order of the agents. -/
def scoredAgents (rows : List ComparisonRow) : List Text :=
  sortTexts ((rows.filter fun row => !row.isBaseline).map ComparisonRow.agent).dedup

/-- The order of the scoreboard. -/
def ranksBefore (a b : AgentScore) : Prop :=
  b.wagmiScore < a.wagmiScore ∨ a.wagmiScore = b.wagmiScore ∧ textLe a.agent b.agent = true

instance : DecidableRel ranksBefore := fun _ _ => inferInstanceAs (Decidable (_ ∨ _))

variable {Path : Type} (load : Path → Reported Evidence)

/-- `build_scoreboard` -/
def buildScoreboard (bundleDirs : List Path) : Reported (List AgentScore) := do
  let rows ← loadComparisonRows texts load bundleDirs
  require (scoredAgents rows ≠ [])
    (txt "no candidate rows to score: every bundle is a baseline")
  let scores ← (scoredAgents rows).mapM fun agent => do
    let scores ← packScores texts agent [] (agentRows rows agent)
    return ⟨agent, scores⟩
  return scores.insertionSort ranksBefore

end Scoreboard

/-! ## What a row is worth -/

/-- The rung of a row among the rows it is compared with. -/
def rung (rows : List ComparisonRow) (r : ComparisonRow) : ℕ :=
  if Dead r then 0
  else if r.fills = 0 then 25
  else if ¬ (0 < r.netReturnPrimary1e8 ∧ 0 < r.netReturnStress2x1e8) then 50
  else if Exceeds rows r then 100
  else 75

/-- The sum of an agent's rungs. -/
def worth (rows : List ComparisonRow) (agent : Text) : ℕ :=
  ((agentRows rows agent).map (rung rows)).sum

section Worth

variable {texts : TextHandling} {rows others : List ComparisonRow} {r r' : ComparisonRow}

theorem rung_le (rows : List ComparisonRow) (r : ComparisonRow) : rung rows r ≤ 100 := by
  unfold rung
  split_ifs <;> omega

theorem rung_eq_zero : rung rows r = 0 ↔ Dead r := by
  unfold rung
  split_ifs <;> simp_all

/-- A tiered candidate is scored with its rung. -/
theorem packScore_tiered (hcandidate : r.isBaseline = false)
    (h : tiered texts (collectBaselines rows) r = .ok r') : packScore texts r' = .ok (rung rows r) := by
  simp only [tiered, bind_ok_iff, pure_eq_ok, Except.ok.injEq] at h
  obtain ⟨tier, htier, rfl⟩ := h
  rw [tierAmong_eq, if_neg (by simp [hcandidate])] at htier
  by_cases hdead : Dead r
  · rw [packScore, rung, if_pos hdead, if_pos hdead]
    rfl
  · rw [if_neg hdead] at htier
    by_cases hsurvived : r.survivalVerdict = txt "survived"
    · rw [if_pos hsurvived] at htier
      rw [packScore, rung, if_neg hdead, if_neg hdead, require_pos hsurvived, ok_bind]
      by_cases hfills : r.fills = 0
      · rw [if_pos hfills, if_pos hfills]
        rfl
      rw [if_neg hfills, if_neg hfills]
      by_cases hpositive : 0 < r.netReturnPrimary1e8 ∧ 0 < r.netReturnStress2x1e8
      · rw [if_neg (not_not.mpr hpositive), if_neg (not_not.mpr hpositive)]
        by_cases hexceeds : Exceeds rows r
        · rw [if_pos ⟨hfills, hexceeds⟩] at htier
          obtain rfl := Except.ok.inj htier
          rw [if_pos hexceeds, if_pos rfl]
          rfl
        · rw [if_neg fun h => hexceeds h.2] at htier
          obtain rfl := Except.ok.inj htier
          rw [if_neg hexceeds, if_neg (show UNTIERED ≠ GMI by decide)]
          rfl
      · rw [if_pos hpositive, if_pos hpositive]
        rfl
    · rw [if_neg hsurvived] at htier
      cases htier

theorem packScores_eq_ok {agent : Text} {seen : List Text} {scores : List PackScore}
    (h : packScores texts agent seen rows = .ok scores) :
    (∀ row ∈ rows, row.pack ∉ seen) ∧ (rows.map ComparisonRow.pack).Nodup ∧
      rows.mapM (packScore texts) = .ok (scores.map PackScore.score) := by
  induction rows generalizing seen scores with
  | nil =>
    obtain rfl := Except.ok.inj h
    simp [pure_eq_ok]
  | cons row rows ih =>
    simp only [packScores, bind_ok_iff, require_eq_ok, pure_eq_ok, Except.ok.injEq] at h
    obtain ⟨-, hfresh, score, hscore, rest, hrest, rfl⟩ := h
    obtain ⟨hseen, hnodup, hscores⟩ := ih hrest
    refine ⟨?_, ?_, ?_⟩
    · intro r hr
      rcases List.mem_cons.mp hr with rfl | hr
      · exact hfresh
      · exact fun hmem => hseen r hr (List.mem_cons_of_mem _ hmem)
    · rw [List.map_cons, List.nodup_cons]
      refine ⟨fun hmem => ?_, hnodup⟩
      obtain ⟨r, hr, hpack⟩ := List.mem_map.mp hmem
      exact hseen r hr (hpack ▸ List.mem_cons_self)
    · rw [List.mapM_cons, hscore, ok_bind, hscores, ok_bind]
      rfl

/-- The rows of an agent are scored when there is one a pack. -/
theorem packScores_returns {agent : Text} {seen : List Text} (hfresh : ∀ row ∈ rows, row.pack ∉ seen)
    (hnodup : (rows.map ComparisonRow.pack).Nodup) (hscores : ∀ row ∈ rows, Returns (packScore texts row)) :
    Returns (packScores texts agent seen rows) := by
  induction rows generalizing seen with
  | nil => exact ⟨[], rfl⟩
  | cons row rows ih =>
    rw [List.map_cons, List.nodup_cons] at hnodup
    rw [packScores, require_pos (hfresh row (by simp)), ok_bind]
    refine (hscores row (by simp)).bind fun score _ => Returns.bind (ih (fun r hr => ?_) hnodup.2
      fun r hr => hscores r (by simp [hr])) fun _ _ => ⟨_, rfl⟩
    rw [List.mem_cons, not_or]
    exact ⟨fun heq => hnodup.1 (heq ▸ List.mem_map_of_mem hr), hfresh r (by simp [hr])⟩

variable {Path : Type} {load : Path → Reported Evidence} {dirs : List Path}
  {board : List AgentScore}

/-- What an accepted list of bundles is scored as: an entry for each agent with a candidate, worth the
sum of its rungs. -/
structure Board (rows : List ComparisonRow) (board : List AgentScore) : Prop where
  agents : ∀ agent, (∃ entry ∈ board, entry.agent = agent) ↔ agentRows rows agent ≠ []
  worth : ∀ entry ∈ board, entry.total = worth rows entry.agent
  packs : ∀ entry ∈ board, entry.packScores.length = (agentRows rows entry.agent).length ∧
    ((agentRows rows entry.agent).map ComparisonRow.pack).Nodup
  known : ∀ r ∈ rows, r.isBaseline = false → Dead r ∨ r.survivalVerdict = txt "survived"

theorem mem_agentRows {agent : Text} :
    r ∈ agentRows rows agent ↔ r ∈ rows ∧ r.isBaseline = false ∧ r.agent = agent := by
  simp [agentRows]

theorem mem_scoredAgents {agent : Text} : agent ∈ scoredAgents rows ↔ agentRows rows agent ≠ [] := by
  rw [scoredAgents, mem_sortTexts, List.mem_dedup, List.mem_map]
  constructor
  · rintro ⟨r, hr, rfl⟩ hnil
    have hmem : r ∈ agentRows rows r.agent := by
      obtain ⟨hr, hcandidate⟩ := List.mem_filter.mp hr
      exact mem_agentRows.mpr ⟨hr, by simpa using hcandidate, rfl⟩
    simp [hnil] at hmem
  · intro hne
    obtain ⟨r, hr⟩ := List.exists_mem_of_ne_nil _ hne
    obtain ⟨hr, hcandidate, hagent⟩ := mem_agentRows.mp hr
    exact ⟨r, List.mem_filter.mpr ⟨hr, by simp [hcandidate]⟩, hagent⟩

theorem tiered_candidate (h : tiered texts (collectBaselines rows) r = .ok r') (agent : Text) :
    (!r'.isBaseline && decide (r'.agent = agent)) = (!r.isBaseline && decide (r.agent = agent)) := by
  simp only [tiered, bind_ok_iff, pure_eq_ok, Except.ok.injEq] at h
  obtain ⟨tier, -, rfl⟩ := h
  rfl

theorem tiered_known (hcandidate : r.isBaseline = false)
    (h : tiered texts (collectBaselines rows) r = .ok r') :
    Dead r ∨ r.survivalVerdict = txt "survived" := by
  simp only [tiered, bind_ok_iff] at h
  obtain ⟨tier, htier, -⟩ := h
  rw [tierAmong_eq, if_neg (by simp [hcandidate])] at htier
  by_contra hnot
  rw [not_or] at hnot
  rw [if_neg hnot.1, if_neg hnot.2] at htier
  cases htier

/-- The tiered rows of an agent, and what they are scored. -/
theorem agentRows_scored {tieredRows : List ComparisonRow}
    (h : rows.mapM (tiered texts (collectBaselines rows)) = .ok tieredRows) (agent : Text) :
    (agentRows rows agent).mapM (tiered texts (collectBaselines rows)) =
        .ok (agentRows tieredRows agent) ∧
      (agentRows tieredRows agent).mapM (packScore texts) =
        .ok ((agentRows rows agent).map (rung rows)) := by
  have hagent := mapM_filter h fun r r' hr => tiered_candidate hr agent
  refine ⟨hagent, ?_⟩
  rw [agentRows, ← mapM_bind_eq hagent]
  refine mapM_eq_ok.mpr (List.forall₂_map_right_iff.mpr (List.forall₂_same.mpr fun r hr => ?_))
  obtain ⟨r', -, hr'⟩ := mapM_mem_of_mem hagent hr
  rw [hr', ok_bind]
  exact packScore_tiered (mem_agentRows.mp hr).2.1 hr'

theorem agentRows_packs {tieredRows : List ComparisonRow}
    (h : rows.mapM (tiered texts (collectBaselines rows)) = .ok tieredRows) (agent : Text) :
    (agentRows tieredRows agent).map ComparisonRow.pack =
      (agentRows rows agent).map ComparisonRow.pack := by
  refine map_eq_of_mapM (agentRows_scored h agent).1 fun r _ r' hr => ?_
  simp only [tiered, bind_ok_iff, pure_eq_ok, Except.ok.injEq] at hr
  obtain ⟨tier, -, rfl⟩ := hr
  rfl

theorem scoredAgents_tiered {tieredRows : List ComparisonRow}
    (h : rows.mapM (tiered texts (collectBaselines rows)) = .ok tieredRows) :
    scoredAgents tieredRows = scoredAgents rows := by
  have hcandidates := mapM_filter (p := fun r => !r.isBaseline) (q := fun r => !r.isBaseline) h
    fun r r' hr => by
      simp only [tiered, bind_ok_iff, pure_eq_ok, Except.ok.injEq] at hr
      obtain ⟨tier, -, rfl⟩ := hr
      rfl
  have hagents : (tieredRows.filter fun r => !r.isBaseline).map ComparisonRow.agent =
      (rows.filter fun r => !r.isBaseline).map ComparisonRow.agent := by
    refine map_eq_of_mapM hcandidates fun r _ r' hr => ?_
    simp only [tiered, bind_ok_iff, pure_eq_ok, Except.ok.injEq] at hr
    obtain ⟨tier, -, rfl⟩ := hr
    rfl
  rw [scoredAgents, scoredAgents, hagents]

theorem buildScoreboard_eq_ok (h : buildScoreboard texts load dirs = .ok board) :
    ∃ bundles, List.Forall₂ (ReadFrom texts load) dirs bundles ∧
      Board (bundles.map Prod.snd) board := by
  simp only [buildScoreboard, bind_ok_iff, require_eq_ok, pure_eq_ok, Except.ok.injEq] at h
  obtain ⟨tieredRows, hrows, -, -, scores, hscores, rfl⟩ := h
  obtain ⟨bundles, hread, -, htiers⟩ := loadComparisonRows_eq_ok hrows
  refine ⟨bundles, hread, ?_⟩
  have entry_of : ∀ entry ∈ scores.insertionSort ranksBefore,
      entry.agent ∈ scoredAgents (bundles.map Prod.snd) ∧
      packScores texts entry.agent [] (agentRows tieredRows entry.agent) = .ok entry.packScores := by
    intro entry hentry
    obtain ⟨agent, hagent, hentry⟩ := mapM_mem hscores ((List.mem_insertionSort _).mp hentry)
    obtain ⟨packScores, hpackScores, hok⟩ := bind_ok_iff.mp hentry
    obtain rfl := Except.ok.inj hok
    exact ⟨scoredAgents_tiered htiers ▸ hagent, hpackScores⟩
  exact {
    agents := fun agent => by
      rw [← mem_scoredAgents, ← scoredAgents_tiered htiers]
      constructor
      · rintro ⟨entry, hentry, rfl⟩
        exact scoredAgents_tiered htiers ▸ (entry_of entry hentry).1
      · intro hagent
        obtain ⟨entry, hentry, hscored⟩ := mapM_mem_of_mem hscores hagent
        obtain ⟨packScores, -, hok⟩ := bind_ok_iff.mp hscored
        obtain rfl := Except.ok.inj hok
        exact ⟨_, (List.mem_insertionSort _).mpr hentry, rfl⟩
    worth := fun entry hentry => by
      obtain ⟨-, -, hscored⟩ := packScores_eq_ok (entry_of entry hentry).2
      rw [(agentRows_scored htiers entry.agent).2, Except.ok.injEq] at hscored
      rw [AgentScore.total, ← hscored, worth]
    packs := fun entry hentry => by
      obtain ⟨-, hnodup, hscored⟩ := packScores_eq_ok (entry_of entry hentry).2
      rw [(agentRows_scored htiers entry.agent).2, Except.ok.injEq] at hscored
      have hlength := congrArg List.length hscored
      rw [List.length_map, List.length_map] at hlength
      exact ⟨hlength.symm, agentRows_packs htiers entry.agent ▸ hnodup⟩
    known := fun r hr hcandidate => by
      obtain ⟨r', -, hr'⟩ := mapM_mem_of_mem htiers hr
      exact tiered_known hcandidate hr' }

end Worth

/-! ## How worth changes -/

section Changes

variable {rows others before after : List ComparisonRow} {r r' c : ComparisonRow} {agent : Text}

theorem rung_congr (h : Exceeds rows r ↔ Exceeds others r) : rung rows r = rung others r := by
  unfold rung
  simp only [h]

theorem agentRows_perm (h : rows.Perm others) (agent : Text) :
    (agentRows rows agent).Perm (agentRows others agent) := h.filter _

theorem worth_perm (h : rows.Perm others) (agent : Text) : worth rows agent = worth others agent := by
  have hrung : rung rows = rung others := funext fun r => rung_congr (exceeds_perm h)
  rw [worth, worth, hrung]
  exact ((h.filter _).map _).sum_eq

/-- Rows with the same baselines are exceeded by the same rows. -/
theorem exceeds_of_baselines (h : ∀ b : ComparisonRow, b.isBaseline = true → (b ∈ rows ↔ b ∈ others)) :
    Exceeds rows r ↔ Exceeds others r := by
  constructor <;> rintro ⟨⟨b, hb, hbaseline, hpack⟩, hall⟩
  · exact ⟨⟨b, (h b hbaseline).mp hb, hbaseline, hpack⟩, fun c hc hs =>
      hall c ((h c hs.baseline).mpr hc) hs⟩
  · exact ⟨⟨b, (h b hbaseline).mpr hb, hbaseline, hpack⟩, fun c hc hs =>
      hall c ((h c hs.baseline).mp hc) hs⟩

/-- A row gets better: its verdict, its fills or its net returns. -/
structure Improves (r r' : ComparisonRow) : Prop where
  candidate : r.isBaseline = false ∧ r'.isBaseline = false
  agent : r'.agent = r.agent
  pack : r'.pack = r.pack
  verdict : Dead r' → Dead r
  fills : r.fills ≤ r'.fills
  primary : r.netReturnPrimary1e8 ≤ r'.netReturnPrimary1e8
  stress : r.netReturnStress2x1e8 ≤ r'.netReturnStress2x1e8

theorem Improves.exceeds (h : Improves r r') (hexceeds : Exceeds rows r) : Exceeds rows r' := by
  obtain ⟨⟨b, hb, hbaseline, hpack⟩, hall⟩ := hexceeds
  refine ⟨⟨b, hb, hbaseline, hpack.trans h.pack.symm⟩, fun c hc hs hp => ?_⟩
  obtain ⟨hprimary, hstress⟩ := hall c hc hs (hp.trans h.pack)
  exact ⟨hprimary.trans_le h.primary, hstress.trans_le h.stress⟩

/-- A better row stands on no lower rung. -/
theorem rung_le_of_improves (h : Improves r r') (hsame : Exceeds rows r' ↔ Exceeds others r') :
    rung rows r ≤ rung others r' := by
  have hexceeds := fun he => hsame.mp (h.exceeds he)
  have hverdict := h.verdict
  have hfills := h.fills
  have hprimary := h.primary
  have hstress := h.stress
  unfold rung
  split_ifs with h₁ h₂ h₃ h₄ h₅ h₆ h₇ h₈ h₉ h₁₀ h₁₁ h₁₂ h₁₃ h₁₄ h₁₅ h₁₆ h₁₇ h₁₈ <;>
    first | omega | exact absurd (hverdict ‹_›) ‹_› | exact absurd (hexceeds ‹_›) ‹_›

theorem worth_improves (h : Improves r r') (agent : Text) :
    worth (before ++ r :: after) agent ≤ worth (before ++ r' :: after) agent := by
  have hbaselines : ∀ b : ComparisonRow, b.isBaseline = true →
      (b ∈ before ++ r :: after ↔ b ∈ before ++ r' :: after) := by
    intro b hb
    have hr : b ≠ r := fun heq => by simp [heq, h.candidate.1] at hb
    have hr' : b ≠ r' := fun heq => by simp [heq, h.candidate.2] at hb
    simp [hr, hr']
  have hrung : ∀ x, rung (before ++ r :: after) x = rung (before ++ r' :: after) x := fun x =>
    rung_congr (exceeds_of_baselines hbaselines)
  have hlast := rung_le_of_improves h (exceeds_of_baselines hbaselines)
  simp only [worth, agentRows, List.filter_append, List.filter_cons, h.candidate, h.agent,
    List.map_append, List.sum_append, funext hrung]
  split
  · simp only [List.map_cons, List.sum_cons]
    rw [hrung] at hlast
    omega
  · exact le_rfl

/-- A surviving baseline raises the bar of its pack group, where there is one. -/
theorem worth_baseline (hc : SurvivingBaseline c)
    (hgroup : ∃ b ∈ before ++ after, b.isBaseline = true ∧ b.pack = c.pack) (agent : Text) :
    worth (before ++ c :: after) agent ≤ worth (before ++ after) agent := by
  have hexceeds : ∀ x, Exceeds (before ++ c :: after) x → Exceeds (before ++ after) x := by
    rintro x ⟨⟨b, hb, hbaseline, hpack⟩, hall⟩
    have hmem : ∀ d ∈ before ++ after, d ∈ before ++ c :: after := fun d hd => by
      rcases List.mem_append.mp hd with hd | hd <;> simp [hd]
    refine ⟨?_, fun d hd => hall d (hmem d hd)⟩
    rcases eq_or_ne b c with rfl | hne
    · obtain ⟨d, hd, hdbaseline, hdpack⟩ := hgroup
      exact ⟨d, hd, hdbaseline, hdpack.trans hpack⟩
    · exact ⟨b, by simpa [hne] using hb, hbaseline, hpack⟩
  have hrung : ∀ x, rung (before ++ c :: after) x ≤ rung (before ++ after) x := by
    intro x
    unfold rung
    split_ifs with h₁ h₂ h₃ h₄ h₅ <;> first | omega | exact absurd (hexceeds x ‹_›) ‹_›
  have hrows : agentRows (before ++ c :: after) agent = agentRows (before ++ after) agent := by
    simp [agentRows, List.filter_append, hc.baseline]
  rw [worth, worth, hrows]
  exact List.sum_le_sum fun x _ => hrung x

end Changes

/-! ## The catalogue -/

/-- The packs of the catalogue. -/
def CATALOG : List Text := EXPECTED_PACK_IDS.map fun p => txt p.name

theorem catalog_nodup : CATALOG.Nodup := by decide +kernel

/-- An agent's rung on a pack, zero where it has no row. -/
def rungOn (rows : List ComparisonRow) (agent pack : Text) : ℕ :=
  ((agentRows rows agent).find? fun r => r.pack = pack).elim 0 (rung rows)

/-- The mean of an agent's rungs over the catalogue. -/
def catalogMean (rows : List ComparisonRow) (agent : Text) : ℚ :=
  (CATALOG.map (rungOn rows agent)).sum / CATALOG_PACK_COUNT

section Catalog

variable {rows : List ComparisonRow} {agent : Text}

theorem sum_ite_eq {packs : List Text} (h : packs.Nodup) (pack : Text) (n : ℕ) :
    (packs.map fun p => if p = pack then n else 0).sum = if pack ∈ packs then n else 0 := by
  induction packs with
  | nil => rfl
  | cons p packs ih =>
    rw [List.nodup_cons] at h
    rw [List.map_cons, List.sum_cons, ih h.2]
    by_cases hp : p = pack
    · subst hp
      simp [h.1]
    · simp [hp, Ne.symm hp]

/-- Rows of different packs, summed over a list of packs. -/
theorem sum_find {packs : List Text} (hpacks : packs.Nodup) (value : ComparisonRow → ℕ)
    {scored : List ComparisonRow} (h : (scored.map ComparisonRow.pack).Nodup) :
    (packs.map fun p => (scored.find? fun r => r.pack = p).elim 0 value).sum =
      (scored.map fun r => if r.pack ∈ packs then value r else 0).sum := by
  induction scored with
  | nil => simp
  | cons r scored ih =>
    rw [List.map_cons, List.nodup_cons] at h
    have step : ∀ p, ((r :: scored).find? fun r => r.pack = p).elim 0 value =
        (if p = r.pack then value r else 0) + (scored.find? fun r => r.pack = p).elim 0 value := by
      intro p
      by_cases hp : r.pack = p
      · have hnone : (scored.find? fun s => s.pack = p) = none := by
          rw [List.find?_eq_none]
          exact fun s hs hpack => h.1 (by
            rw [hp, ← of_decide_eq_true hpack]
            exact List.mem_map_of_mem hs)
        rw [hnone]
        simp [hp]
      · simp [hp, Ne.symm hp]
    simp only [step, List.sum_map_add, sum_ite_eq hpacks, ih h.2, List.map_cons, List.sum_cons]

theorem worth_eq_catalog_iff (h : ((agentRows rows agent).map ComparisonRow.pack).Nodup) :
    worth rows agent = (CATALOG.map (rungOn rows agent)).sum ↔
      ∀ r ∈ agentRows rows agent, ¬ Dead r → r.pack ∈ CATALOG := by
  have hsum := sum_find catalog_nodup (rung rows) h
  have hsplit : worth rows agent = ((agentRows rows agent).map fun r =>
      if r.pack ∈ CATALOG then rung rows r else 0).sum + ((agentRows rows agent).map fun r =>
      if r.pack ∈ CATALOG then 0 else rung rows r).sum := by
    rw [← List.sum_map_add, worth]
    congr 1
    refine List.map_congr_left fun r _ => ?_
    split <;> omega
  have hrungs : (CATALOG.map (rungOn rows agent)).sum = ((agentRows rows agent).map fun r =>
      if r.pack ∈ CATALOG then rung rows r else 0).sum := hsum
  rw [hrungs, hsplit, Nat.add_eq_left, List.sum_eq_zero_iff]
  simp only [List.mem_map, forall_exists_index, and_imp, forall_apply_eq_imp_iff₂, ite_eq_left_iff,
    rung_eq_zero]
  exact forall₂_congr fun r _ => by rw [not_imp_comm]

theorem catalog_sum_le (rows : List ComparisonRow) (agent : Text) :
    (CATALOG.map (rungOn rows agent)).sum ≤ 1300 := by
  have hle : ∀ n ∈ CATALOG.map (rungOn rows agent), n ≤ 100 := by
    intro n hn
    obtain ⟨p, -, rfl⟩ := List.mem_map.mp hn
    unfold rungOn
    cases (agentRows rows agent).find? fun r => r.pack = p with
    | none => exact Nat.zero_le _
    | some r => exact rung_le rows r
  have := List.sum_le_card_nsmul _ _ hle
  simpa [CATALOG, EXPECTED_PACK_IDS] using this

/-- **Bounds.** A score is the mean over the catalogue, and within its bounds, where the agent
survived on packs of the catalogue only. -/
theorem exactScore_iff {entry : AgentScore} (hworth : entry.total = worth rows entry.agent)
    (hpacks : ((agentRows rows entry.agent).map ComparisonRow.pack).Nodup) :
    (0 ≤ entry.exactScore ∧ entry.exactScore ≤ 100 ∧ entry.exactScore = catalogMean rows entry.agent) ↔
      ∀ r ∈ agentRows rows entry.agent, ¬ Dead r → r.pack ∈ CATALOG := by
  rw [← worth_eq_catalog_iff hpacks, AgentScore.exactScore, catalogMean, hworth,
    div_left_inj' (by norm_num), Nat.cast_inj]
  refine ⟨fun h => h.2.2, fun h => ⟨by positivity, ?_, h⟩⟩
  rw [div_le_iff₀ (by norm_num)]
  norm_num
  exact h ▸ catalog_sum_le rows entry.agent

end Catalog

/-! ## Scoreboards -/

section Boards

variable {Path : Type} {texts : TextHandling} {load : Path → Reported Evidence}
  {dirs dirs' : List Path} {board board' : List AgentScore}

/-- An agent's score on a board. -/
def HasScore (board : List AgentScore) (agent : Text) (score : ℚ) : Prop :=
  ∃ entry ∈ board, entry.agent = agent ∧ entry.exactScore = score

theorem hasScore_iff {rows : List ComparisonRow} (h : Board rows board) {agent : Text}
    {score : ℚ} : HasScore board agent score ↔
      agentRows rows agent ≠ [] ∧ score = worth rows agent / CATALOG_PACK_COUNT := by
  rw [← h.agents]
  constructor
  · rintro ⟨entry, hentry, rfl, rfl⟩
    exact ⟨⟨entry, hentry, rfl⟩, by rw [AgentScore.exactScore, h.worth entry hentry]⟩
  · rintro ⟨⟨entry, hentry, rfl⟩, rfl⟩
    exact ⟨entry, hentry, rfl, by rw [AgentScore.exactScore, h.worth entry hentry]⟩

/-- A directory's bundle. -/
def readBundle (texts : TextHandling) (load : Path → Reported Evidence) (dir : Path) :
    Reported Bundle := do
  let evidence ← load dir
  let read ← row texts evidence
  return (evidence, read)

theorem readFrom_iff {dir : Path} {b : Bundle} :
    ReadFrom texts load dir b ↔ readBundle texts load dir = .ok b := by
  simp only [readBundle, bind_ok_iff, pure_eq_ok, Except.ok.injEq]
  exact ⟨fun h => ⟨b.1, h.loaded, b.2, h.row_read, rfl⟩, by
    rintro ⟨e, he, r, hr, rfl⟩
    exact ⟨he, hr⟩⟩

theorem forall₂_readFrom_iff {bundles : List Bundle} :
    List.Forall₂ (ReadFrom texts load) dirs bundles ↔
      dirs.mapM (readBundle texts load) = .ok bundles := by
  rw [mapM_eq_ok]
  exact ⟨fun h => h.imp fun _ _ => readFrom_iff.mp, fun h => h.imp fun _ _ => readFrom_iff.mpr⟩

/-- The bundles of a list that is cut in two. -/
theorem readBundles_append {before after : List Path} {bundles : List Bundle}
    (h : (before ++ after).mapM (readBundle texts load) = .ok bundles) :
    ∃ bs as, before.mapM (readBundle texts load) = .ok bs ∧
      after.mapM (readBundle texts load) = .ok as ∧ bundles = bs ++ as := by
  simp only [List.mapM_append, bind_ok_iff, pure_eq_ok, Except.ok.injEq] at h
  obtain ⟨bs, hbs, as, has, rfl⟩ := h
  exact ⟨bs, as, hbs, has, rfl⟩

theorem readBundles_cons {dir : Path} {after : List Path} {b : Bundle} {bundles : List Bundle}
    (hb : readBundle texts load dir = .ok b)
    (h : (dir :: after).mapM (readBundle texts load) = .ok bundles) :
    ∃ as, after.mapM (readBundle texts load) = .ok as ∧ bundles = b :: as := by
  simp only [List.mapM_cons, hb, ok_bind, bind_ok_iff, pure_eq_ok, Except.ok.injEq] at h
  obtain ⟨as, has, rfl⟩ := h
  exact ⟨as, has, rfl⟩

/-- A list of bundles is scored the same in every order. -/
theorem buildScoreboard_perm (hperm : dirs.Perm dirs')
    (h : buildScoreboard texts load dirs = .ok board) :
    ∃ board', buildScoreboard texts load dirs' = .ok board' := by
  simp only [buildScoreboard, bind_ok_iff, require_eq_ok, pure_eq_ok, Except.ok.injEq] at h
  obtain ⟨rows, hrows, -, hne, scores, hscores, -⟩ := h
  obtain ⟨rows', hrows', hzip⟩ := loadComparisonRows_perm hperm hrows
  have length : ∀ {dirs : List Path} {rows : List ComparisonRow},
      loadComparisonRows texts load dirs = .ok rows → dirs.length = rows.length := by
    intro dirs rows h
    simp only [loadComparisonRows, bind_ok_iff] at h
    obtain ⟨-, -, read, hread, htiers⟩ := h
    rw [← mapM_length hread, mapM_length htiers]
  have hsame : rows.Perm rows' := by
    have := hzip.map Prod.snd
    rwa [List.map_snd_zip (length hrows).ge, List.map_snd_zip (length hrows').ge] at this
  have hagents : scoredAgents rows' = scoredAgents rows :=
    sortTexts_perm ((((hsame.filter _).map _).dedup).symm)
  rw [buildScoreboard, hrows', ok_bind, hagents, require_pos hne, ok_bind]
  refine Returns.bind (returns_mapM fun agent hagent => ?_) fun _ _ => ⟨_, rfl⟩
  obtain ⟨entry, -, hentry⟩ := mapM_mem_of_mem hscores hagent
  obtain ⟨packScores, hpackScores, -⟩ := bind_ok_iff.mp hentry
  obtain ⟨-, hnodup, hscored⟩ := packScores_eq_ok hpackScores
  have hrowsPerm := agentRows_perm hsame agent
  refine (packScores_returns (by simp) ((hrowsPerm.map _).nodup_iff.mp hnodup) fun r hr => ?_).bind
    fun _ _ => ⟨_, rfl⟩
  obtain ⟨score, -, hscore⟩ := mapM_mem_of_mem hscored (hrowsPerm.mem_iff.mpr hr)
  exact ⟨score, hscore⟩

/-- **Scores.** A score does not depend on the order of the bundles, does not fall when one of the
agent's rows gets better, and does not rise when a surviving baseline joins a pack group that has one.
It is the mean of the agent's rungs over the catalogue, between 0 and 100, if and only if the agent
survived on packs of the catalogue only. -/
theorem scoreboard_catalog_mean_iff (h : buildScoreboard texts load dirs = .ok board) :
    ∃ bundles, List.Forall₂ (ReadFrom texts load) dirs bundles ∧
      (∀ dirs', dirs.Perm dirs' → ∃ board', buildScoreboard texts load dirs' = .ok board' ∧
        ∀ agent score, HasScore board agent score ↔ HasScore board' agent score) ∧
      (∀ before dir after dir' b b' board', dirs = before ++ dir :: after →
        ReadFrom texts load dir b → ReadFrom texts load dir' b' → Improves b.2 b'.2 →
        buildScoreboard texts load (before ++ dir' :: after) = .ok board' →
        ∀ agent score score', HasScore board agent score → HasScore board' agent score' →
          score ≤ score') ∧
      (∀ before dir after c board', dirs = before ++ after → ReadFrom texts load dir c →
        SurvivingBaseline c.2 → (∃ b ∈ bundles, SurvivingBaseline b.2 ∧ b.2.pack = c.2.pack) →
        buildScoreboard texts load (before ++ dir :: after) = .ok board' →
        ∀ agent score score', HasScore board agent score → HasScore board' agent score' →
          score' ≤ score) ∧
      ∀ entry ∈ board, ((0 ≤ entry.exactScore ∧ entry.exactScore ≤ 100 ∧
          entry.exactScore = catalogMean (bundles.map Prod.snd) entry.agent) ↔
        ∀ b ∈ bundles, b.2.isBaseline = false → b.2.agent = entry.agent →
          b.2.survivalVerdict = txt "survived" → b.2.pack ∈ CATALOG) := by
  obtain ⟨bundles, hread, hboard⟩ := buildScoreboard_eq_ok h
  have mean_le : ∀ {m n : ℕ}, m ≤ n →
      (m : ℚ) / CATALOG_PACK_COUNT ≤ n / CATALOG_PACK_COUNT := fun hle => by
    gcongr
  have hmapM := forall₂_readFrom_iff.mp hread
  have read : ∀ {dirs : List Path} {board : List AgentScore},
      buildScoreboard texts load dirs = .ok board → ∃ bundles,
        dirs.mapM (readBundle texts load) = .ok bundles ∧ Board (bundles.map Prod.snd) board := by
    intro dirs board h
    obtain ⟨bundles, hread, hboard⟩ := buildScoreboard_eq_ok h
    exact ⟨bundles, forall₂_readFrom_iff.mp hread, hboard⟩
  refine ⟨bundles, hread, fun dirs' hperm => ?_, ?_, ?_, fun entry hentry => ?_⟩
  · obtain ⟨board', hscored⟩ := buildScoreboard_perm hperm h
    refine ⟨board', hscored, fun agent score => ?_⟩
    obtain ⟨bundles', hbundles', hboard'⟩ := read hscored
    obtain ⟨bundles'', hbundles'', hzip⟩ := mapM_perm hperm hmapM
    obtain rfl : bundles' = bundles'' := Except.ok.inj (hbundles'.symm.trans hbundles'')
    have hrows : (bundles.map Prod.snd).Perm (bundles'.map Prod.snd) := by
      have := (hzip.map Prod.snd).map Prod.snd
      rwa [List.map_snd_zip (mapM_length hmapM).le, List.map_snd_zip (mapM_length hbundles').le]
        at this
    have hagent : agentRows (bundles.map Prod.snd) agent = [] ↔
        agentRows (bundles'.map Prod.snd) agent = [] := by
      rw [← List.length_eq_zero_iff, ← List.length_eq_zero_iff, (agentRows_perm hrows agent).length_eq]
    rw [hasScore_iff hboard, hasScore_iff hboard', worth_perm hrows, Ne, Ne, hagent]
  · rintro before dir after dir' b b' board' rfl hb hb' himproves hscored agent score score' hs hs'
    obtain ⟨bundles', hbundles', hboard'⟩ := read hscored
    obtain ⟨bs, rest, hbs, hrest, rfl⟩ := readBundles_append hmapM
    obtain ⟨as, has, rfl⟩ := readBundles_cons (readFrom_iff.mp hb) hrest
    obtain ⟨bs', rest', hbs', hrest', rfl⟩ := readBundles_append hbundles'
    obtain ⟨as', has', rfl⟩ := readBundles_cons (readFrom_iff.mp hb') hrest'
    obtain rfl : bs = bs' := Except.ok.inj (hbs.symm.trans hbs')
    obtain rfl : as = as' := Except.ok.inj (has.symm.trans has')
    rw [hasScore_iff hboard] at hs
    rw [hasScore_iff hboard'] at hs'
    rw [hs.2, hs'.2, List.map_append, List.map_cons, List.map_append, List.map_cons]
    exact mean_le (worth_improves himproves agent)
  · rintro before dir after c board' rfl hc hsurviving ⟨b, hb, hbaseline, hpack⟩ hscored agent score
      score' hs hs'
    obtain ⟨bundles', hbundles', hboard'⟩ := read hscored
    obtain ⟨bs, as, hbs, has, rfl⟩ := readBundles_append hmapM
    obtain ⟨bs', rest', hbs', hrest', rfl⟩ := readBundles_append hbundles'
    obtain ⟨as', has', rfl⟩ := readBundles_cons (readFrom_iff.mp hc) hrest'
    obtain rfl : bs = bs' := Except.ok.inj (hbs.symm.trans hbs')
    obtain rfl : as = as' := Except.ok.inj (has.symm.trans has')
    rw [hasScore_iff hboard] at hs
    rw [hasScore_iff hboard'] at hs'
    rw [hs.2, hs'.2, List.map_append, List.map_cons, List.map_append]
    refine mean_le (worth_baseline hsurviving ⟨b.2, ?_, hbaseline.baseline, hpack⟩ agent)
    rw [← List.map_append]
    exact List.mem_map_of_mem hb
  · rw [exactScore_iff (hboard.worth entry hentry) (hboard.packs entry hentry).2]
    simp only [mem_agentRows, List.mem_map, forall_exists_index, and_imp, forall_apply_eq_imp_iff₂]
    refine forall₂_congr fun b hb => forall₂_congr fun hcandidate _ => ?_
    have hknown := hboard.known b.2 (List.mem_map_of_mem hb) hcandidate
    constructor
    · intro h hsurvived
      refine h fun hdead => ?_
      rw [Dead, hsurvived] at hdead
      exact absurd hdead (by decide)
    · exact fun h hdead => h (hknown.resolve_left hdead)

end Boards

/-! ## An agent with more packs than the catalogue -/

namespace Sample

/-- A momentum candidate that survived with a gain on the pack of an index. -/
def onPack (pack : Text) : Reported Evidence :=
  .ok { evidence "sha256:a" "momentum" 5 with
    manifest := [(txt "pack", .obj [(txt "pack_id", .str pack)])] }

/-- Two packs of the catalogue. -/
theorem catalog_packs_scored : ∃ board, buildScoreboard texts onPack (CATALOG.take 2) = .ok board ∧
    ∃ bundles, List.Forall₂ (ReadFrom texts onPack) (CATALOG.take 2) bundles ∧
      ∀ entry ∈ board, (0 ≤ entry.exactScore ∧ entry.exactScore ≤ 100 ∧
          entry.exactScore = catalogMean (bundles.map Prod.snd) entry.agent) ↔
        ∀ b ∈ bundles, b.2.isBaseline = false → b.2.agent = entry.agent →
          b.2.survivalVerdict = txt "survived" → b.2.pack ∈ CATALOG := by
  have hreturns : Returns (buildScoreboard texts onPack (CATALOG.take 2)) := by decide +kernel
  obtain ⟨board, hboard⟩ := hreturns
  obtain ⟨bundles, hread, -, -, -, hiff⟩ := scoreboard_catalog_mean_iff hboard
  exact ⟨board, hboard, bundles, hread, hiff⟩

/-- Eighteen packs of no catalogue, each survived with a gain: more than a hundred points. -/
theorem score_above_hundred : ∃ board, buildScoreboard texts onPack
    ((List.range 18).map fun n => txt "pack-" ++ decimal n) = .ok board ∧
    ∃ entry ∈ board, entry.total = 1350 ∧ 100 < entry.exactScore := by
  let board := (buildScoreboard texts onPack
    ((List.range 18).map fun n => txt "pack-" ++ decimal n)).toOption.getD []
  have hboard : buildScoreboard texts onPack
      ((List.range 18).map fun n => txt "pack-" ++ decimal n) = .ok board := by decide +kernel
  have hentry : ∃ entry ∈ board, entry.total = 1350 := by decide +kernel
  obtain ⟨entry, hmem, htotal⟩ := hentry
  refine ⟨board, hboard, entry, hmem, htotal, ?_⟩
  rw [AgentScore.exactScore, htotal]
  norm_num

end Sample

end WagmiBench.Report
