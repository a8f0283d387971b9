import WagmiBench.Core.Engine.Scenario
import WagmiBench.Lib.SurrogatePass
import WagmiBench.Tools.ReferenceMatrix.Preflight

/-!
# What the matrix spends

Every invocation of `execute_matrix` keeps to the discipline of the output root, whatever the others do
and wherever any of them is killed. So nothing is bought twice, and when the paid run of a pack starts,
what was spent and what is still authorized stay below the limit.
-/

namespace WagmiBench.Tools.ReferenceMatrix

open WagmiBench.Lib WagmiBench.Core WagmiBench.Spec WagmiBench.Harness
open World
open RelyGuarantee (Yields)

/-! ## Buying -/

section Holding

variable {ι β : Type} {i : ι} {w w' : World ι β} {p : PackId} {bundle : Option (Option β)}

/-- `i` bought the pack, and its bundle is still as given. -/
structure Holding (i : ι) (p : PackId) (bundle : Option (Option β)) (w : World ι β) : Prop where
  author : w.Author i (.attempt p)
  bought : w.Bought (.pack p)
  bundle : w.bundles p = bundle

theorem Holding.keeps (h : Holding i p bundle w) (hw : Keeps i w w') : Holding i p bundle w' :=
  ⟨h.author.grows hw.toGrows, hw.purchases _ h.bought, (hw.untouched p h.author).trans h.bundle⟩

theorem Holding.open (h : Holding i p bundle w) (hb : ∀ c, bundle ≠ some (some c)) (c : β) :
    ¬ w.Sealed p c :=
  fun hc => hb c (h.bundle.symm.trans hc)

theorem acts_refl : Acts i w w := ⟨Grows.refl w, fun _ h => .inl h, fun _ => .inl rfl⟩

end Holding

section Buying

variable {ι β : Type} [DecidableEq ι] {claim : ι → PackId → World ι β → Prop} {i : ι}
  {w w' : World ι β} {sha : Sha256} {limits : Json.Limits} {readers : Readers β}
  {settings : MatrixSettings} {plans : List PackPlan} {smokePlan : SmokePlan} {plan : PackPlan}
  {p : PackId} {bundle : Option (Option β)}

theorem decide_yields (h : Fresh i .smokeAttempt w) :
    (discipline claim).Yields i (ask .decide) (fun _ _ => True) w := by
  refine .ask fun w₁ (hkeeps : Keeps i w w₁) hinv => ⟨?_, fun answer w₂ heffect => ?_⟩
  · rintro p ⟨⟩
  · have h₁ := h.keeps hkeeps
    obtain rfl : w₂ = w₁.buy i .smoke := heffect
    refine ⟨buy_acts h₁.author, buy_consistent h₁.author (h₁.unbought .smoke rfl) ?_ hinv, ?_⟩
    · rintro p q ⟨⟩
    · exact fun _ _ _ => trivial

/-- The paid run of a pack whose attempt receipt is fresh. -/
theorem runEpisode_yields (h : Fresh i (.attempt p) w)
    (hstart : ∀ w', Keeps i w w' → w'.Consistent →
      claim i p w' ∧ ∀ q, Precedes q p → ∃ content, w'.Sealed q content) :
    (discipline claim).Yields i (ask (.runEpisode p)) (fun _ w' => Holding i p none w') w := by
  refine .ask fun w₁ (hkeeps : Keeps i w w₁) hinv => ⟨?_, fun answer w₂ heffect => ?_⟩
  · rintro _ ⟨⟩
    exact (hstart w₁ hkeeps hinv).1
  · have h₁ := h.keeps hkeeps
    obtain rfl : w₂ = w₁.buy i (.pack p) := heffect
    refine ⟨buy_acts h₁.author, buy_consistent h₁.author (h₁.unbought (.pack p) rfl) ?_ hinv, ?_⟩
    · rintro _ q ⟨⟩ hq
      exact (hstart w₁ hkeeps hinv).2 q hq
    · have hbought : Holding i p none (w₁.buy i (.pack p)) :=
        ⟨h₁.author, bought_buy.mpr (.inr rfl), h₁.unrecorded p rfl⟩
      exact fun w₃ hkeeps₃ _ => hbought.keeps hkeeps₃

theorem createBundle_yields (h : Holding i p none w) :
    (discipline claim).Yields i (ask (.createBundle p))
      (fun answer w' => answer = .ok () → Holding i p (some none) w') w := by
  refine .ask fun w₁ (hkeeps : Keeps i w w₁) hinv => ⟨?_, fun answer w₂ heffect => ?_⟩
  · rintro p ⟨⟩
  · have h₁ := h.keeps hkeeps
    have hopen := h₁.open fun _ => by simp
    rcases heffect with ⟨-, rfl, rfl⟩ | ⟨⟨e, rfl⟩, rfl⟩
    · refine ⟨setBundle_acts h₁.author hopen, setBundle_consistent h₁.bought hopen hinv, ?_⟩
      have hcreated : Holding i p (some none) (w₁.setBundle p none) :=
        ⟨h₁.author, h₁.bought, Function.update_self _ _ _⟩
      exact fun w₃ hkeeps₃ _ _ => hcreated.keeps hkeeps₃
    · refine ⟨acts_refl, hinv, fun _ _ _ herror => ?_⟩
      cases herror

theorem sealBundle_yields (content : β) (h : Holding i p (some none) w) :
    (discipline claim).Yields i (ask (.sealBundle p content)) (fun _ _ => True) w := by
  refine .ask fun w₁ (hkeeps : Keeps i w w₁) hinv => ⟨?_, fun answer w₂ heffect => ?_⟩
  · rintro p ⟨⟩
  · have h₁ := h.keeps hkeeps
    have hopen := h₁.open fun _ => by simp
    rcases heffect with ⟨-, rfl⟩ | ⟨-, rfl⟩
    · exact ⟨setBundle_acts h₁.author hopen, setBundle_consistent h₁.bought hopen hinv,
        fun _ _ _ => trivial⟩
    · exact ⟨acts_refl, hinv, fun _ _ _ => trivial⟩

theorem recordEpisodeBundle_yields (content : β) (h : Holding i p none w) :
    (discipline claim).Yields i (recordEpisodeBundle p content) (fun _ _ => True) w := by
  refine .bind (createBundle_yields h) fun answer w₁ hcreated => ?_
  cases answer with
  | error e => exact .raise
  | ok u =>
    refine .bind (P := fun _ w' => Holding i p (some none) w')
      (.ofExcept fun _ w' _ hkeeps _ => (hcreated rfl).keeps hkeeps) fun _ w₂ h₂ => ?_
    exact .bind (sealBundle_yields content h₂) fun _ _ _ => yields_any (asks_ofExcept _)

/-! ### The smoke call -/

theorem smokeCall_yields :
    (discipline claim).Yields i (smokeCall sha settings smokePlan) (fun _ _ => True) w := by
  refine .bind (yields_any (asks_ask trivial)) fun entered w₁ _ => ?_
  cases entered with
  | error e => exact .ret fun _ _ _ => trivial
  | ok u =>
    have hpublished : (discipline claim).Yields i (do
        let attempt ← smokeAttempt (β := β) sha settings smokePlan
        let bytes ← .ofExcept (canonical attempt)
        writeNew .smokeAttempt bytes) (fun _ w' => Fresh i .smokeAttempt w') w₁ :=
      .bind (yields_any (smokeAttempt_quiet _).harmless) fun attempt _ _ =>
        .bind (yields_any (asks_ofExcept _)) fun bytes _ _ =>
        (writeNew_yields bytes).mono fun _ _ h => h.1
    have hattempted := hpublished.attempt
      (R := fun outcome w' => (∃ u, outcome = .ok u) → Fresh i .smokeAttempt w')
      (fun _ _ h _ => h) fun _ _ h => by
        obtain ⟨_, h⟩ := h
        cases h
    refine .bind hattempted fun outcome w₂ h => ?_
    cases outcome with
    | error e =>
      exact .bind (yields_any (leaveSandbox_quiet _).harmless) fun _ _ _ => .ret fun _ _ _ => trivial
    | ok u =>
      exact .bind (decide_yields (h ⟨u, rfl⟩)) fun outcome _ _ =>
        .bind (yields_any (leaveSandbox_quiet outcome).harmless) fun _ _ _ =>
        .ret fun _ _ _ => trivial

theorem runPaidSmoke_yields :
    (discipline claim).Yields i (runPaidSmoke sha readers settings smokePlan) (fun _ _ => True) w := by
  refine .bind smokeCall_yields fun call _ _ => ?_
  have hfailed : ∀ reason status body message w, (discipline claim).Yields i (do
      materializeSmokeFailure sha readers settings smokePlan reason status body
      refuse message : Run β SmokeEvidence) (fun _ _ => True) w :=
    fun reason status body message w =>
      .bind (yields_any (materializeSmokeFailure_harmless smokePlan reason status body))
        fun _ _ _ => .raise
  split
  · exact hfailed _ _ _ _ _
  · exact hfailed _ _ _ _ _
  · split
    · exact hfailed _ _ _ _ _
    · exact .raise
  · exact .raise
  · split
    · exact hfailed _ _ _ _ _
    · refine .bind (yields_any (.attempt (.bind (asks_ofExcept _) fun _ =>
        .bind (smokeAttempt_quiet _).harmless fun _ => asks_ofExcept _))) fun validated _ _ => ?_
      split
      · exact .ret fun _ _ _ => trivial
      · exact hfailed _ _ _ _ _
      · exact .raise

theorem materializeSmoke_yields (e : SmokeEvidence) :
    (discipline claim).Yields i (materializeSmoke sha settings smokePlan e)
      (fun _ w' => w'.Stored .smokeResponse e.responseBytes) w := by
  refine .bind (yields_any (anyPresent_quiet _).harmless) fun present _ _ => ?_
  split
  · exact .raise
  refine .bind (yields_any (smokeAttempt_quiet _).harmless) fun attempt _ _ =>
    .bind (yields_any (asks_ofExcept _)) fun bytes _ _ =>
    .bind (yields_any (expectBytes_quiet _ _).harmless) fun found _ _ => ?_
  split
  · refine .bind (writeNew_yields _) fun _ w₁ hwritten => ?_
    refine .mono (yields_frame (F := fun w' => w'.Stored .smokeResponse e.responseBytes)
      (P := fun _ _ => True) (yields_any ?_) (fun _ _ hgrows h => h.grows hgrows) hwritten.2)
      fun _ _ h => h.2
    exact .bind (asks_ofExcept _) fun _ => writeNew_harmless _
  · exact .raise

/-- The smoke evidence that an invocation buys is seen. -/
theorem buySmoke_yields :
    (discipline claim).Yields i (buySmoke sha readers settings smokePlan)
      (fun e w' => SmokeSeen readers settings smokePlan e w') w := by
  refine .bind runPaidSmoke_yields fun evidence _ _ =>
    .bind (yields_any (smokeAttempt_quiet _).harmless) fun attempt _ _ =>
    .bind (yields_any (asks_ofExcept _)) fun bytes _ _ =>
    .bind (yields_any (expectBytes_quiet _ _).harmless) fun found _ _ => ?_
  split
  · refine .bind (validatedSmokeEvidence_yields _ _) fun e _ he =>
      .bind (materializeSmoke_yields e) fun _ w₁ hstored => ?_
    exact .ret fun w' (hkeeps : Keeps i w₁ w') _ => ⟨hstored.grows hkeeps.toGrows, he.2⟩
  · exact .raise

/-! ### A pack -/

/-- The paid run of a pack: once the attempt receipt is fresh, what is claimed of its start must hold. -/
theorem runPaidBundle_yields {F : World ι β → Prop} (hF : ∀ w w', Grows w w' → F w → F w') (hw : F w)
    (hstart : ∀ w', F w' → Fresh i (.attempt plan.packId) w' → w'.Consistent →
      claim i plan.packId w' ∧ ∀ q, Precedes q plan.packId → ∃ content, w'.Sealed q content) :
    (discipline claim).Yields i (runPaidBundle sha settings plan) (fun _ _ => True) w := by
  refine .bind (yields_harmless (asks_ask trivial) hF hw) fun found w₁ h₁ => ?_
  split
  · exact .raise
  refine .bind (yields_harmless (ensureDirectory_quiet _).harmless hF h₁) fun _ w₂ h₂ =>
    .bind (yields_harmless (asks_ask trivial) hF h₂) fun entered w₃ h₃ =>
    .bind (yields_harmless (asks_ofExcept _) hF h₃) fun _ w₄ h₄ => ?_
  refine .bind (P := fun _ _ => True) (.attempt (P := fun _ _ => True) ?_ (fun _ _ _ => trivial)
    fun _ _ => trivial) fun outcome _ _ =>
    .bind (yields_any (leaveSandbox_quiet outcome).harmless) fun _ _ _ =>
    yields_any (asks_ofExcept _)
  refine .bind (yields_harmless (packAttempt_quiet plan).harmless hF h₄) fun attempt w₅ h₅ =>
    .bind (yields_harmless (asks_ofExcept _) hF h₅) fun bytes w₆ h₆ =>
    .bind (yields_frame (writeNew_yields bytes) hF h₆) fun _ w₇ h₇ => ?_
  obtain ⟨⟨hfresh, -⟩, h₇⟩ := h₇
  refine .bind (runEpisode_yields hfresh fun w' hkeeps hinv =>
    hstart w' (hF w₇ w' hkeeps.toGrows h₇) (hfresh.keeps hkeeps) hinv) fun answer w₈ hbought => ?_
  cases answer with
  | error e => exact .raise
  | ok content => exact recordEpisodeBundle_yields content hbought

theorem materializePackEvidence_yields (evidence : PackEvidence) :
    (discipline claim).Yields i (materializePackEvidence plan evidence)
      (fun item _ => item.receipt = evidence.receipt) w := by
  unfold materializePackEvidence
  extract_lets finish receipted
  have hfinish : ∀ w, (discipline claim).Yields i (finish PUnit.unit)
      (fun item _ => item.receipt = evidence.receipt) w := fun w => .ret fun _ _ _ => rfl
  have hreceipted : ∀ w, (discipline claim).Yields i (receipted PUnit.unit)
      (fun item _ => item.receipt = evidence.receipt) w := by
    intro w
    simp only [receipted]
    split
    · exact .bind (yields_any (asks_ofExcept _)) fun bytes _ _ =>
        .bind (yields_any (writeNew_harmless bytes)) fun _ _ _ => hfinish _
    · exact hfinish w
  split
  · refine .bind (yields_any (asks_ask trivial)) fun present _ _ => ?_
    split
    · exact .raise
    · exact .bind (yields_any (ensureDirectory_quiet _).harmless) fun _ _ _ =>
        .bind (yields_any (Process.all_forM fun _ => writeNew_harmless _)) fun _ _ _ => hreceipted _
  · exact hreceipted w

/-- What the evidence of a bought pack shows is seen. -/
theorem buyPack_yields {F : World ι β → Prop} (hF : ∀ w w', Grows w w' → F w → F w') (hw : F w)
    (hstart : ∀ w', F w' → Fresh i (.attempt plan.packId) w' → w'.Consistent →
      claim i plan.packId w' ∧ ∀ q, Precedes q plan.packId → ∃ content, w'.Sealed q content) :
    (discipline claim).Yields i (buyPack sha readers settings plan)
      (fun item w' => Seen readers settings plan item.receipt w') w := by
  refine .bind (runPaidBundle_yields hF hw hstart) fun _ _ _ =>
    .bind (yields_any (packAttempt_quiet plan).harmless) fun attempt _ _ =>
    .bind (yields_any (asks_ofExcept _)) fun bytes _ _ =>
    .bind (yields_any (expectBytes_quiet _ _).harmless) fun found _ _ => ?_
  split
  · refine .bind verifyBundleEvidence_yields fun item w₁ hitem => ?_
    refine .mono (yields_frame (materializePackEvidence_yields item)
      (fun _ _ hgrows h => h.grows hgrows) hitem) ?_
    rintro item' w' ⟨hreceipt, hseen⟩
    rwa [hreceipt]
  · exact .raise

end Buying

/-! ## The bound -/

section Bound

variable {settings : MatrixSettings} {plans : List PackPlan} {evidence : Evidence}

/-- What a pack counts for: what its evidence accounts for, or what is authorized. -/
def planAmount (evidence : Evidence) (plan : PackPlan) : Except MatrixExc ℕ :=
  match evidence plan.packId with
  | some item => receiptAccountingCost item.receipt
  | none => authorizationCost plan

theorem mapM_amounts {γ : Type} {f : γ → Except MatrixExc ℕ} {xs : List γ} {ys : List ℕ}
    (h : xs.mapM f = .ok ys) :
    (∀ x ∈ xs, f x = .ok ((f x).toOption.getD 0)) ∧ ys = xs.map fun x => (f x).toOption.getD 0 := by
  have hiff := @mapM_ok_iff _ _ _ f (fun x => ∃ n, f x = .ok n) (fun x => (f x).toOption.getD 0) xs ys
    fun x _ n => by
      constructor
      · intro hx
        simp [hx, Except.toOption]
      · rintro ⟨⟨m, hm⟩, rfl⟩
        simp [hm, Except.toOption]
  obtain ⟨hall, hys⟩ := hiff.mp h
  refine ⟨fun x hx => ?_, hys⟩
  obtain ⟨n, hn⟩ := hall x hx
  simp [hn, Except.toOption]

/-- The bound adds up what every pack counts for. -/
theorem remainingBound_eq_ok (hids : plans.map PackPlan.packId = EXPECTED_PACK_IDS)
    {smokeActual bound : ℕ} (h : remainingBound settings plans evidence smokeActual = .ok bound) :
    ∃ amount : PackPlan → ℕ, (∀ plan ∈ plans, planAmount evidence plan = .ok (amount plan)) ∧
      bound = settings.priorFailedRunReserveUsd + smokeActual + (plans.map amount).sum := by
  simp only [remainingBound, accounted, bind_ok_iff, pure_eq_ok, Except.ok.injEq] at h
  obtain ⟨total, ⟨costs, hcosts, rfl⟩, bounds, hbounds, rfl⟩ := h
  rw [Evidence.values, ← hids, List.filterMap_map] at hcosts
  obtain ⟨hcost, rfl⟩ := mapM_amounts hcosts
  obtain ⟨hbound, rfl⟩ := mapM_amounts hbounds
  refine ⟨fun plan => (planAmount evidence plan).toOption.getD 0, fun plan hplan => ?_, ?_⟩
  · cases hitem : evidence plan.packId with
    | some item =>
      simp only [planAmount, hitem]
      exact hcost item (List.mem_filterMap.mpr ⟨plan, hplan, hitem⟩)
    | none =>
      simp only [planAmount, hitem]
      exact hbound plan (List.mem_filter.mpr ⟨hplan, by simp [hitem]⟩)
  · clear hids hcosts hcost hbounds hbound
    have hsum : ((plans.filterMap (evidence ∘ PackPlan.packId)).map fun item =>
          (receiptAccountingCost item.receipt).toOption.getD 0).sum +
        ((plans.filter fun plan => (evidence plan.packId).isNone).map fun plan =>
          (authorizationCost plan).toOption.getD 0).sum =
        (plans.map fun plan => (planAmount evidence plan).toOption.getD 0).sum := by
      induction plans with
      | nil => rfl
      | cons plan plans ih =>
        rw [List.map_cons, List.sum_cons, ← ih]
        cases hplan : evidence plan.packId with
        | none =>
          have hamount : planAmount evidence plan = authorizationCost plan := by
            rw [planAmount, hplan]
          simp [hplan, hamount]
          omega
        | some item =>
          have hamount : planAmount evidence plan = receiptAccountingCost item.receipt := by
            rw [planAmount, hplan]
          simp [hplan, hamount]
          omega
    omega

end Bound

/-! ## Spend safety -/

/-- One confirmed invocation: its settings, its plans and its flag. -/
structure Invocation where
  settings : MatrixSettings
  plans : List PackPlan
  smokePlan : SmokePlan
  resume : Bool

section SpendSafety

variable {ι β : Type} {sha : Sha256} {limits : Json.Limits} (readers : Readers β)
  (invocation : Invocation)

/-- What a pack counts for at the start of a paid run: once bought, what its sealed bundle accounts for
at most; before, what is authorized. -/
def CountsFor (w : World ι β) (plan : PackPlan) (amount : ℕ) : Prop :=
  (w.Bought (.pack plan.packId) → ∃ content facts, w.Sealed plan.packId content ∧
    readers.inspectBundle invocation.settings plan content = .ok facts ∧
    amount = accountingCostUpperBound facts.usage) ∧
  (¬ w.Bought (.pack plan.packId) → authorizationCost plan = .ok amount)

/-- The paid run of a pack not yet bought is within the limit: the reserve, the actual cost of the smoke
call, what the packs already bought account for and what is authorized for this and every other pack
stay below it. -/
structure WithinLimit (p : PackId) (w : World ι β) : Prop where
  unbought : ¬ w.Bought (.pack p)
  catalogued : invocation.plans.map PackPlan.packId = EXPECTED_PACK_IDS
  below : ∃ response usage, w.Stored .smokeResponse response ∧
    readers.smokeUsage invocation.settings invocation.smokePlan response = .ok usage ∧
    ∃ amount : PackPlan → ℕ,
      (∀ plan ∈ invocation.plans, CountsFor readers invocation w plan (amount plan)) ∧
      invocation.settings.priorFailedRunReserveUsd + usage.costUsd +
        (invocation.plans.map amount).sum < MATRIX_COST_LIMIT_USD

/-- What an invocation knows while it buys: its evidence, and that of the smoke call, is seen. -/
structure Known (evidence : Evidence) (smoke : SmokeEvidence) (w : World ι β) : Prop where
  packs : AllSeen readers invocation.settings invocation.plans evidence w
  smoke : SmokeSeen readers invocation.settings invocation.smokePlan smoke w

/-- Everything an invocation confirmed on the command line does. -/
def Invocation.run (sha : Sha256) (limits : Json.Limits) (readers : Readers β)
    (invocation : Invocation) : Run β (Option Json) :=
  executeMatrix sha limits readers invocation.settings invocation.plans invocation.smokePlan true
    invocation.resume

variable {readers invocation}

theorem Known.grows {evidence : Evidence} {smoke : SmokeEvidence} (w w' : World ι β)
    (hgrows : Grows w w') (h : Known readers invocation evidence smoke w) :
    Known readers invocation evidence smoke w' :=
  ⟨h.packs.grows hgrows, h.smoke.grows hgrows⟩

/-- A catalogue with one pack marked is split in one way. -/
theorem split_unique {γ : Type} {x : γ} {as bs cs ds : List γ} (h : as ++ x :: bs = cs ++ x :: ds)
    (hnodup : (as ++ x :: bs).Nodup) : as = cs := by
  induction as generalizing cs with
  | nil =>
    cases cs with
    | nil => rfl
    | cons c cs =>
      obtain ⟨rfl, htail⟩ := List.cons.inj h
      have hmem : x ∈ bs := by simp [htail]
      exact absurd hmem (List.nodup_cons.mp hnodup).1
  | cons a as ih =>
    cases cs with
    | nil =>
      obtain ⟨rfl, htail⟩ := List.cons.inj h
      exact absurd (by simp) (List.nodup_cons.mp hnodup).1
    | cons c cs =>
      obtain ⟨rfl, htail⟩ := List.cons.inj h
      rw [ih htail (List.nodup_cons.mp hnodup).2]

variable {i : ι} {w : World ι β} {plan : PackPlan} {done ahead : List PackPlan} {evidence : Evidence}
  {smoke : SmokeEvidence}

/-- Where the bound was checked and the attempt receipt is fresh, the paid run may start. -/
theorem withinLimit_of_fresh (hids : invocation.plans.map PackPlan.packId = EXPECTED_PACK_IDS)
    (hplans : invocation.plans = done ++ plan :: ahead)
    (hdone : ∀ plan ∈ done, (evidence plan.packId).isSome) (hnone : evidence plan.packId = none)
    {bound : ℕ} (hbound : remainingBound invocation.settings invocation.plans evidence
      (smokeActualCost smoke.receipt) = .ok bound) (hlimit : bound < MATRIX_COST_LIMIT_USD)
    (hknown : Known readers invocation evidence smoke w) (hfresh : Fresh i (.attempt plan.packId) w) (hw : w.Consistent) :
    WithinLimit readers invocation plan.packId w ∧
      ∀ q, Precedes q plan.packId → ∃ content, w.Sealed q content := by
  have hmem : ∀ other ∈ done, other ∈ invocation.plans := fun other h => by simp [hplans, h]
  have hunbought : ¬ w.Bought (.pack plan.packId) := hfresh.unbought (.pack plan.packId) rfl
  have hsplit : EXPECTED_PACK_IDS =
      done.map PackPlan.packId ++ plan.packId :: ahead.map PackPlan.packId := by
    rw [← hids, hplans, List.map_append, List.map_cons]
  have hsealed : ∀ other ∈ invocation.plans, (evidence other.packId).isSome →
      ∃ content facts, w.Sealed other.packId content ∧
        readers.inspectBundle invocation.settings other content = .ok facts ∧
        planAmount evidence other = .ok (accountingCostUpperBound facts.usage) := by
    intro other hother hsome
    obtain ⟨item, hitem⟩ := Option.isSome_iff_exists.mp hsome
    obtain ⟨content, facts, hcontent, hfacts, hcost⟩ := hknown.packs other hother item hitem
    exact ⟨content, facts, hcontent, hfacts, by rw [planAmount, hitem]; exact hcost⟩
  -- A later pack cannot have been bought: before it, this one would have been.
  have hlater : ∀ other ∈ ahead, ¬ w.Bought (.pack other.packId) := by
    intro other hother hb
    obtain ⟨before, after, rfl⟩ := List.append_of_mem hother
    have hprecedes : Precedes plan.packId other.packId := by
      refine ⟨done.map PackPlan.packId ++ plan.packId :: before.map PackPlan.packId,
        after.map PackPlan.packId, ?_, by simp⟩
      rw [hsplit]
      simp
    obtain ⟨content, hcontent⟩ := hw.ordered _ _ hb hprecedes
    exact hunbought (hw.paid _ (by rw [hcontent]; simp))
  obtain ⟨response, hstored, usage, husage, hcost⟩ : ∃ response, w.Stored .smokeResponse response ∧
      ∃ usage, readers.smokeUsage invocation.settings invocation.smokePlan response = .ok usage ∧
        smokeActualCost smoke.receipt = usage.costUsd :=
    ⟨smoke.responseBytes, hknown.smoke.1, hknown.smoke.2⟩
  obtain ⟨amount, hamount, rfl⟩ := remainingBound_eq_ok hids hbound
  refine ⟨⟨hunbought, hids, response, usage, hstored, husage, amount, fun other hother => ?_, ?_⟩, ?_⟩
  · refine ⟨fun hb => ?_, fun hb => ?_⟩
    · have hsome : (evidence other.packId).isSome := by
        rw [hplans, List.mem_append, List.mem_cons] at hother
        rcases hother with hother | rfl | hother
        · exact hdone other hother
        · exact absurd hb hunbought
        · exact absurd hb (hlater other hother)
      obtain ⟨content, facts, hcontent, hfacts, hequal⟩ := hsealed other hother hsome
      exact ⟨content, facts, hcontent, hfacts, Except.ok.inj ((hamount other hother).symm.trans hequal)⟩
    · have hother' : evidence other.packId = none := by
        by_contra hne
        obtain ⟨content, facts, hcontent, -⟩ := hsealed other hother (Option.isSome_iff_ne_none.mpr hne)
        exact hb (hw.paid _ (by rw [hcontent]; simp))
      have := hamount other hother
      rwa [planAmount, hother'] at this
  · rw [← hcost]
    exact hlimit
  · rintro q ⟨before, after, hcatalogue, hq⟩
    have hbefore : before = done.map PackPlan.packId :=
      split_unique (hcatalogue.symm.trans hsplit) (hcatalogue ▸ nodup_EXPECTED_PACK_IDS)
    rw [hbefore] at hq
    obtain ⟨other, hother, rfl⟩ := List.mem_map.mp hq
    obtain ⟨content, -, hcontent, -⟩ := hsealed other (hmem other hother) (hdone other hother)
    exact ⟨content, hcontent⟩

variable [DecidableEq ι]

/-- What is claimed where the paid run of a pack starts. -/
abbrev spending (readers : Readers β) (invocations : ι → Invocation) : RelyGuarantee
    (effect : Effect (requests β) ι (World ι β)) :=
  discipline fun i p w => WithinLimit readers (invocations i) p w

variable {invocations : ι → Invocation}

theorem executePlans_yields
    (hids : (invocations i).plans.map PackPlan.packId = EXPECTED_PACK_IDS) :
    ∀ (ahead done : List PackPlan) (evidence : Evidence) (w : World ι β),
      (invocations i).plans = done ++ ahead → (∀ plan ∈ done, (evidence plan.packId).isSome) →
      Known readers (invocations i) evidence smoke w →
      (spending readers invocations).Yields i
        (executePlans sha readers (invocations i).settings (invocations i).plans
          (smokeActualCost smoke.receipt) ahead evidence) (fun _ _ => True) w := by
  intro ahead
  have hnodup : ((invocations i).plans.map PackPlan.packId).Nodup := by
    rw [hids]
    exact nodup_EXPECTED_PACK_IDS
  induction ahead with
  | nil => exact fun _ _ _ _ _ _ => .ret fun _ _ _ => trivial
  | cons plan ahead ih =>
    intro done evidence w hplans hdone hknown
    have hmem : plan ∈ (invocations i).plans := by simp [hplans]
    have hplans' : (invocations i).plans = (done ++ [plan]) ++ ahead := by simp [hplans]
    have hset : ∀ item : PackEvidence, ∀ other ∈ done ++ [plan],
        ((evidence.set plan.packId item) other.packId).isSome := by
      intro item other hother
      by_cases hid : other.packId = plan.packId
      · rw [Evidence.set, hid, Function.update_self]
        rfl
      · rw [Evidence.set, Function.update_of_ne hid]
        rcases List.mem_append.mp hother with hother | hother
        · exact hdone other hother
        · exact absurd (congrArg PackPlan.packId (List.mem_singleton.mp hother)) hid
    unfold executePlans
    cases hplan : evidence plan.packId with
    | some item =>
      refine .bind (yields_frame (materializePackEvidence_yields item) Known.grows hknown)
        fun item' w₁ h => ?_
      obtain ⟨hreceipt, hknown₁⟩ := h
      split
      · exact .raise
      · refine ih _ _ w₁ hplans' (hset item') ⟨hknown₁.packs.set hnodup hmem ?_, hknown₁.smoke⟩
        rw [hreceipt]
        exact hknown₁.packs plan hmem item hplan
    | none =>
      refine .bind (yields_ofExcept Known.grows hknown) fun bound w₁ h₁ => ?_
      obtain ⟨hbound, hknown₁⟩ := h₁
      split
      · exact .raise
      rename_i hlimit
      refine .bind (yields_ofExcept Known.grows hknown₁) fun _ w₂ h₂ => ?_
      have hbuy : (spending readers invocations).Yields i
          (buyPack sha readers (invocations i).settings plan)
          (fun item w' => Seen readers (invocations i).settings plan item.receipt w') w₂ :=
        buyPack_yields Known.grows h₂.2 fun w' h hfresh hinv =>
          withinLimit_of_fresh hids hplans hdone hplan hbound (not_le.mp hlimit) h hfresh hinv
      refine .bind (yields_frame hbuy Known.grows h₂.2) fun item w₃ h₃ => ?_
      have hknown₃ : Known readers (invocations i) (evidence.set plan.packId item) smoke w₃ :=
        ⟨h₃.2.packs.set hnodup hmem h₃.1, h₃.2.smoke⟩
      split
      · exact .raise
      refine .bind (yields_ofExcept Known.grows hknown₃) fun cost w₄ h₄ => ?_
      split
      · exact .raise
      refine .bind (yields_ofExcept Known.grows h₄.2) fun total w₅ h₅ => ?_
      split
      · exact .raise
      · exact ih _ _ w₅ hplans' (hset item) h₅.2

/-- An invocation keeps to the discipline from any world on. -/
theorem run_holds (sha : Sha256) (limits : Json.Limits) (i : ι) (w : World ι β) :
    (spending readers invocations).Holds i ((invocations i).run sha limits readers)
      (fun _ _ => True) w := by
  suffices h : (spending readers invocations).Yields i ((invocations i).run sha limits readers)
      (fun _ _ => True) w from RelyGuarantee.Holds.mono h fun _ _ _ => trivial
  refine .bind (yields_any (asks_ofExcept _)) fun _ _ _ => .bind yields_fact fun _ _ hbudget => ?_
  obtain ⟨hids, -⟩ := enforceEstimateBudget_eq_ok hbudget
  have hnodup : ((invocations i).plans.map PackPlan.packId).Nodup := by
    rw [hids]
    exact nodup_EXPECTED_PACK_IDS
  split
  · exact .ret fun _ _ _ => trivial
  refine .bind (yields_any preflightOutputLayout_quiet.harmless) fun _ _ _ =>
    .bind (yields_any (preflightAuthorization_quiet _ _).harmless) fun _ _ _ =>
    .bind preflightSmoke_yields fun found w₁ hfound => ?_
  refine .bind (yields_frame (F := fun w' => ∀ e, found = some e →
      SmokeSeen readers (invocations i).settings (invocations i).smokePlan e w')
    (preflightExisting_yields hnodup found _)
    (fun _ _ hgrows h e he => (h e he).grows hgrows) hfound) fun evidence w₂ h₂ => ?_
  have hkeep : ∀ w w' : World ι β, Grows w w' →
      (AllSeen readers (invocations i).settings (invocations i).plans evidence w ∧
        ∀ e, found = some e →
          SmokeSeen readers (invocations i).settings (invocations i).smokePlan e w) →
      AllSeen readers (invocations i).settings (invocations i).plans evidence w' ∧
        ∀ e, found = some e →
          SmokeSeen readers (invocations i).settings (invocations i).smokePlan e w' :=
    fun _ _ hgrows h => ⟨h.1.grows hgrows, fun e he => (h.2 e he).grows hgrows⟩
  refine .bind (yields_harmless (ensureDirectory_quiet _).harmless hkeep h₂) fun _ w₃ h₃ =>
    .bind (yields_harmless (materializeEstimates_harmless _ _) hkeep h₃) fun _ w₄ h₄ => ?_
  extract_lets buying
  have hbuying : ∀ smoke w, Known readers (invocations i) evidence smoke w →
      (spending readers invocations).Yields i (buying smoke) (fun _ _ => True) w := by
    intro smoke w hknown
    simp only [buying]
    split
    · exact .raise
    · exact .bind (executePlans_yields hids _ [] evidence w rfl (by simp) hknown)
        fun _ _ _ => .bind (yields_any (asks_ofExcept _)) fun _ _ _ =>
        .bind (yields_any (asks_ofExcept _)) fun _ _ _ =>
        .bind (yields_any (publishOnce_harmless _ _)) fun _ _ _ => .ret fun _ _ _ => trivial
  cases found with
  | some smoke => exact hbuying smoke w₄ ⟨h₄.1, h₄.2 smoke rfl⟩
  | none =>
    exact .bind (yields_frame buySmoke_yields (fun _ _ hgrows h => h.grows hgrows) h₄.1)
      fun smoke w₅ h₅ => hbuying smoke w₅ ⟨h₅.2, h₅.1⟩

/-- **Spend safety.** However any number of confirmed invocations on one output root overlap, and
wherever any of them is killed, the smoke call and the paid run of each pack start at most once, and
whenever the paid run of a pack starts, what was spent and what is still authorized are below the
limit. -/
theorem spend_safe (sha : Sha256) (limits : Json.Limits) (readers : Readers β)
    (invocations : ι → Invocation) (rootExists : Bool)
    (s : System (requests β) MatrixExc (Option Json) ι (World ι β))
    (hs : System.Reachable effect (System.start (World.fresh rootExists)
      fun i => (invocations i).run sha limits readers) s) :
    (s.world.purchases.map Prod.snd).Nodup ∧
      ∀ i p next, s.process i = some (.ask (.runEpisode p) next) →
        WithinLimit readers (invocations i) p s.world := by
  have hall : ∀ i, (spending readers invocations).Holds i ((invocations i).run sha limits readers)
      (fun _ _ => True) (World.fresh rootExists) := fun i => run_holds sha limits i _
  have hinv : (spending readers invocations).inv (World.fresh rootExists) :=
    fresh_consistent rootExists
  refine ⟨((spending readers invocations).sound hinv hall hs).1.once, fun i p next hnext => ?_⟩
  exact (spending readers invocations).due_of_reachable hinv hall hs hnext p rfl

end SpendSafety

/-! ## A run to its first paid pack -/

section FirstPurchase

/-- Serve a request, and let it succeed where it can. -/
def serve {ι β : Type} [DecidableEq ι] (i : ι) (reply : AgentReply) (content : β) :
    (r : Request β) → World ι β → r.Answer × World ι β
  | .present a, w => ((w.files a).isSome, w)
  | .folderPresent f, w => (w.folders f, w)
  | .litter f, w => (w.temporaries.any fun t => t.2.folder = f, w)
  | .read a, w => ((w.files a).elim (.error .other) fun file => .ok file.bytes, w)
  | .mkdir f, w => (.ok (), w.addFolder f)
  | .stage a, w => (.ok (), { w with temporaries := (i, a) :: w.temporaries })
  | .link a data, w =>
    if (w.files a).isSome then (.error .fileExists, w) else (.ok (), w.publish a ⟨data, i⟩)
  | .openFolder _, w => (.ok (), w)
  | .fsyncFolder _, w => (.ok (), w)
  | .unlink a, w => (.ok (), { w with temporaries := w.temporaries.erase (i, a) })
  | .bundle p, w => (w.bundles p, w)
  | .createBundle p, w =>
    if (w.bundles p).isSome then (.error .other, w) else (.ok (), w.setBundle p none)
  | .sealBundle p sealed, w => (.ok (), w.setBundle p (some sealed))
  | .enterSandbox, w => (.ok (), w)
  | .leaveSandbox, w => (.ok (), w)
  | .decide, w => (.ok reply, w.buy i .smoke)
  | .runEpisode p, w => (.ok content, w.buy i (.pack p))

theorem serve_effect {ι β : Type} [DecidableEq ι] (i : ι) (reply : AgentReply) (content : β)
    (r : Request β) (w : World ι β) :
    effect i r w (serve i reply content r w).1 (serve i reply content r w).2 := by
  cases r with
  | present | folderPresent | litter | bundle => exact ⟨rfl, rfl⟩
  | read a => exact ⟨.inl rfl, rfl⟩
  | mkdir | stage | unlink | sealBundle => exact .inl ⟨rfl, rfl⟩
  | openFolder | fsyncFolder => exact ⟨.inl rfl, rfl⟩
  | enterSandbox | leaveSandbox | decide | runEpisode => rfl
  | link a data =>
    cases hfile : w.files a with
    | none =>
      simp only [serve, hfile]
      exact .inl ⟨hfile, rfl, rfl⟩
    | some file =>
      simp only [serve, hfile]
      exact .inr (.inl ⟨by simp [hfile], rfl⟩)
  | createBundle p =>
    cases hbundle : w.bundles p with
    | none =>
      simp only [serve, hbundle]
      exact .inl ⟨hbundle, rfl, rfl⟩
    | some content =>
      simp only [serve, hbundle]
      exact .inr ⟨⟨_, rfl⟩, rfl⟩

/-- A price of one dollar for each pack, and a tenth of a cent for the smoke call. -/
def frugal : Invocation where
  settings :=
    { model := txt "model"
      pricing := ⟨txt "1.000000", txt "1.000000", txt "1.000000"⟩
      agentImageDigest := txt "agent"
      gatewayImageDigest := txt "gateway"
      guardImageDigest := txt "guard"
      priorFailedRunReserveUsd := 0
      priorFailedRunReserveText := txt "0.000000"
      priorFailureReceiptSha256 := none
      reserve_has_receipt := fun h => absurd h (lt_irrefl 0) }
  plans := EXPECTED_PACK_IDS.map fun p => ⟨p, txt "content", ⟨some 1_000_000⟩, .obj [], none⟩
  smokePlan := ⟨.cascade1010, .obj [], ⟨some 1_000⟩, .obj [], none⟩
  resume := false

/-- Every smoke response reports a usage of a tenth of a cent, and every bundle is in order. -/
def agreeable : Readers Unit where
  validatePriorFailureReceipt _ := .ok ()
  smokeUsage _ _ _ := .ok ⟨1, 100, 0, 100, 10, 1_000, []⟩
  unvalidatedSmokeUsage _ _ := none
  inspectBundle _ _ _ := .ok ⟨txt "root", txt "root", txt "manifest", txt "run", txt "episode",
    txt "agent", [], 0, ⟨1, 100, 0, 100, 10, 1_000_000, []⟩, ⟨[], [], []⟩⟩
  aggregateDocument _ _ _ _ := .ok (.obj [])

def paidReply : AgentReply := ⟨utf8EncodeSurrogatePass (txt "ok"), 5, some 200, txt "http"⟩

/-- The one invocation, after `n` requests. -/
def frugalAfter (n : ℕ) : System (requests Unit) MatrixExc (Option Json) Unit (World Unit Unit) :=
  System.advance (serve () paidReply ()) () n (System.start (World.fresh false)
    fun _ : Unit => frugal.run Scenario.sha Scenario.limits agreeable)

/-- The process is about to start the paid run of the pack. -/
def startsRun (p : PackId) : Option (Run Unit (Option Json)) → Bool
  | some (.ask (.runEpisode q) _) => q = p
  | _ => false

theorem startsRun_eq_true {p : PackId} {process : Option (Run Unit (Option Json))}
    (h : startsRun p process = true) : ∃ next, process = some (.ask (.runEpisode p) next) := by
  unfold startsRun at h
  split at h
  · rename_i q next
    obtain rfl := of_decide_eq_true h
    exact ⟨next, rfl⟩
  · cases h

theorem reachable_frugalAfter (n : ℕ) : System.Reachable effect (System.start (World.fresh false)
    fun _ : Unit => frugal.run Scenario.sha Scenario.limits agreeable) (frugalAfter n) :=
  System.reachable_advance (serve_effect () paidReply ()) n _

/-- The smoke call was paid for, and the first pack is bought next. -/
theorem spend_safe_first :
    startsRun .cascade1010 ((frugalAfter 193).process ()) = true ∧
    ((frugalAfter 193).world.purchases.map Prod.snd).Nodup ∧
    WithinLimit agreeable frugal .cascade1010 (frugalAfter 193).world := by
  have hstarts : startsRun .cascade1010 ((frugalAfter 193).process ()) = true := by decide +kernel
  obtain ⟨next, hnext⟩ := startsRun_eq_true hstarts
  obtain ⟨honce, hwithin⟩ := spend_safe Scenario.sha Scenario.limits agreeable
    (fun _ : Unit => frugal) false (frugalAfter 193) (reachable_frugalAfter 193)
  exact ⟨hstarts, honce, hwithin () .cascade1010 next hnext⟩

end FirstPurchase

end WagmiBench.Tools.ReferenceMatrix
